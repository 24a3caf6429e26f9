import InventoryQuery.Item.Tag
import Mathlib.Data.List.Basic
/-!
# Tags at paths

What is written at a path is read there, and is not seen from a path that leaves it: one that
neither ends on the way to it nor goes on behind it.  Tags that are written one after another at
paths of which no two meet are therefore all there at the end.
-/

namespace InventoryQuery

namespace Path

/-- Neither of two paths, given by their names, starts with all of the other. -/
def Apart (p q : List Text) : Prop := ¬p <+: q ∧ ¬q <+: p

instance (p q : List Text) : Decidable (Apart p q) := inferInstanceAs (Decidable (_ ∧ _))

theorem Apart.symm {p q : List Text} (h : Apart p q) : Apart q p := ⟨h.2, h.1⟩

theorem apart_cons {name : Text} {p q : List Text} (h : Apart (name :: p) (name :: q)) :
    Apart p q :=
  ⟨fun hpq => h.1 (List.cons_prefix_cons.2 ⟨rfl, hpq⟩),
    fun hqp => h.2 (List.cons_prefix_cons.2 ⟨rfl, hqp⟩)⟩

theorem segments_ne_nil (path : Text) : segments path ≠ [] := by
  fun_cases segments path with
  | case1 => simp
  | case2 => simp
  | case3 => simp
  | case4 => simp
  | case5 => simp

end Path

namespace Compound

open InventoryQuery.Path (Apart)

variable {c : Compound} {name other : Text} {tag : Tag}

theorem get?_insert :
    (c.insert name tag).get? other = if other = name then some tag else c.get? other :=
  Entries.get?_insert name other tag c

theorem get?_insert_self : (c.insert name tag).get? name = some tag := by
  rw [get?_insert, if_pos rfl]

theorem get?_insert_of_ne (h : other ≠ name) : (c.insert name tag).get? other = c.get? other := by
  rw [get?_insert, if_neg h]

theorem compound?_insert_self (d : Compound) :
    (c.insert name (.compound d)).compound? name = some d := by
  rw [compound?, get?_insert_self]

theorem compound?_insert_of_ne (h : other ≠ name) :
    (c.insert name tag).compound? other = c.compound? other := by
  rw [compound?, compound?, get?_insert_of_ne h]

/-- Nothing is found in a compound without entries. -/
theorem getAt?_nil (path : List Text) : getAt? [] path = none := by
  cases path with
  | nil => rfl
  | cons name names => cases names <;> rfl

theorem getAt?_cons_cons (next : Text) (names : List Text) :
    c.getAt? (name :: next :: names) = (c.child name).getAt? (next :: names) := by
  rw [getAt?, child]
  · cases c.compound? name with
    | none => exact (getAt?_nil (next :: names)).symm
    | some d => rfl
  · exact List.cons_ne_nil next names

theorem setAt_cons_cons (next : Text) (names : List Text) :
    c.setAt tag (name :: next :: names) =
      c.insert name (.compound ((c.child name).setAt tag (next :: names))) := rfl

theorem child_insert_self (d : Compound) : (c.insert name (.compound d)).child name = d := by
  rw [child, compound?_insert_self, Option.getD_some]

theorem child_insert_of_ne (h : other ≠ name) :
    (c.insert name tag).child other = c.child other := by
  rw [child, child, compound?_insert_of_ne h]

/-- What is written is read. -/
theorem getAt?_setAt_self {path : List Text} (hpath : path ≠ []) :
    (c.setAt tag path).getAt? path = some tag := by
  induction path generalizing c with
  | nil => exact absurd rfl hpath
  | cons name names ih =>
    cases names with
    | nil => exact get?_insert_self
    | cons next names =>
      rw [setAt_cons_cons, getAt?_cons_cons, child_insert_self]
      exact ih (List.cons_ne_nil next names)

/-- Writing is not seen from a path apart. -/
theorem getAt?_setAt_of_apart {p q : List Text} (h : Apart p q) :
    (c.setAt tag p).getAt? q = c.getAt? q := by
  induction p generalizing c q with
  | nil => exact absurd List.nil_prefix h.1
  | cons name names ih =>
    cases q with
    | nil => exact absurd List.nil_prefix h.2
    | cons other others =>
      by_cases hname : other = name
      · subst hname
        have hrest := Path.apart_cons h
        -- Both paths go on behind the name they share.
        cases names with
        | nil => exact absurd List.nil_prefix hrest.1
        | cons next names => cases others with
          | nil => exact absurd List.nil_prefix hrest.2
          | cons nextOther others =>
            rw [setAt_cons_cons, getAt?_cons_cons, getAt?_cons_cons, child_insert_self, ih hrest]
      · have hinsert : ∃ written, c.setAt tag (name :: names) = c.insert name written := by
          cases names with
          | nil => exact ⟨tag, rfl⟩
          | cons next names => exact ⟨_, rfl⟩
        obtain ⟨written, hwritten⟩ := hinsert
        rw [hwritten]
        cases others with
        | nil => exact get?_insert_of_ne hname
        | cons nextOther others =>
          rw [getAt?_cons_cons, getAt?_cons_cons, child_insert_of_ne hname]

/-! ## Several tags -/

/-- Tags written one after another. -/
def setPaths (c : Compound) (entries : List (Text × Tag)) : Compound :=
  entries.foldl (fun c entry => c.setPath entry.1 entry.2) c

/-- The tag at a path. -/
def atPath? (c : Compound) (path : Text) : Option Tag := c.getAt? (Path.segments path)

theorem atPath?_setPath_self (path : Text) : (c.setPath path tag).atPath? path = some tag :=
  getAt?_setAt_self (Path.segments_ne_nil path)

theorem atPath?_setPath_of_apart {path other : Text}
    (h : Apart (Path.segments path) (Path.segments other)) :
    (c.setPath path tag).atPath? other = c.atPath? other :=
  getAt?_setAt_of_apart h

theorem atPath?_setPaths_of_apart {entries : List (Text × Tag)} {path : Text}
    (h : ∀ entry ∈ entries, Apart (Path.segments entry.1) (Path.segments path)) :
    (c.setPaths entries).atPath? path = c.atPath? path := by
  induction entries generalizing c with
  | nil => rfl
  | cons entry entries ih =>
    obtain ⟨hentry, hentries⟩ := List.forall_mem_cons.1 h
    exact (ih hentries).trans (atPath?_setPath_of_apart hentry)

theorem atPath?_setPaths {entries : List (Text × Tag)}
    (h : entries.Pairwise fun a b => Apart (Path.segments a.1) (Path.segments b.1))
    {entry : Text × Tag} (hentry : entry ∈ entries) :
    (c.setPaths entries).atPath? entry.1 = some entry.2 := by
  induction entries generalizing c with
  | nil => cases hentry
  | cons first entries ih =>
    obtain ⟨hfirst, hentries⟩ := List.pairwise_cons.1 h
    rcases List.mem_cons.1 hentry with rfl | hentry
    · exact (atPath?_setPaths_of_apart fun other hother => (hfirst other hother).symm).trans
        (atPath?_setPath_self entry.1)
    · exact ih hentries hentry

theorem pathText?_of_atPath? {path s : Text} (h : c.atPath? path = some (.text s)) :
    c.pathText? path = some s := by
  rw [atPath?] at h
  rw [pathText?, h]

theorem pathInt?_of_atPath? {path : Text} {n : Int32} (h : c.atPath? path = some (.int n)) :
    c.pathInt? path = some n := by
  rw [atPath?] at h
  rw [pathInt?, h]

end Compound

end InventoryQuery
