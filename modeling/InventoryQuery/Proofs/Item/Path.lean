import InventoryQuery.Proofs.Dict
import InventoryQuery.Proofs.Item.Tag
/-!
# The laws of writing at a path

After a tag is written at a path it is what stands there: what is in it is found behind the path,
and on the way to it there are compounds only.  Paths apart see nothing of it, and a later write at
the same path leaves nothing of an earlier one.
-/

namespace InventoryQuery

theorem Path.exists_append_of_prefix {p q : List Text} (h : p <+: q) (hne : p ≠ q) :
    ∃ r, r ≠ [] ∧ q = p ++ r := by
  obtain ⟨r, rfl⟩ := h
  refine ⟨r, ?_, rfl⟩
  rintro rfl
  exact hne (List.append_nil p).symm

namespace Compound

open InventoryQuery.Path (Apart segments segments_ne_nil exists_append_of_prefix)

variable {c : Compound} {tag : Tag}

/-! ## Names leading inwards -/

/-- Behind a written tag stands what is in it. -/
theorem getAt?_setAt_append {p q : List Text} (hp : p ≠ []) (hq : q ≠ []) :
    (c.setAt tag p).getAt? (p ++ q) = tag.entries.getAt? q := by
  obtain ⟨next, names, rfl⟩ := List.exists_cons_of_ne_nil hq
  induction p generalizing c with
  | nil => exact absurd rfl hp
  | cons name p ih =>
    cases p with
    | nil =>
      have hchild : (c.insert name tag).child name = tag.entries := by
        rw [child, compound?, get?_insert_self]
        cases tag <;> rfl
      rw [List.singleton_append, getAt?_cons_cons]
      exact congrArg (getAt? · (next :: names)) hchild
    | cons second p =>
      rw [setAt_cons_cons, List.cons_append, List.cons_append, getAt?_cons_cons, child_insert_self]
      exact ih (List.cons_ne_nil second p)

/-- On the way to a written tag stand compounds. -/
theorem exists_getAt?_setAt_append {p q : List Text} (hp : p ≠ []) (hq : q ≠ []) :
    ∃ d, (c.setAt tag (p ++ q)).getAt? p = some (.compound d) := by
  obtain ⟨next, names, rfl⟩ := List.exists_cons_of_ne_nil hq
  induction p generalizing c with
  | nil => exact absurd rfl hp
  | cons name p ih =>
    cases p with
    | nil => exact ⟨_, get?_insert_self⟩
    | cons second p =>
      rw [List.cons_append, List.cons_append, setAt_cons_cons, getAt?_cons_cons, child_insert_self]
      exact ih (List.cons_ne_nil second p)

/-- Of two tags written at one place, the later one counts. -/
theorem setAt_setAt (path : List Text) (first second : Tag) :
    (c.setAt first path).setAt second path = c.setAt second path := by
  induction path generalizing c with
  | nil => rfl
  | cons name names ih =>
    cases names with
    | nil => exact Entries.insert_insert name first second c
    | cons next names =>
      rw [setAt_cons_cons, setAt_cons_cons, setAt_cons_cons, child_insert_self, ih]
      exact Entries.insert_insert name _ _ c

/-! ## Texts and integers at paths -/

theorem pathText?_eq_some_iff {path s : Text} :
    c.pathText? path = some s ↔ c.atPath? path = some (.text s) := by
  rw [pathText?, atPath?]
  split
  · next t h => simp [h]
  · next hother => exact iff_of_false (by simp) (hother s)

theorem pathInt?_eq_some_iff {path : Text} {n : Int32} :
    c.pathInt? path = some n ↔ c.atPath? path = some (.int n) := by
  rw [pathInt?, atPath?]
  split
  · next m h => simp [h]
  · next hother => exact iff_of_false (by simp) (hother n)

/-- Where the same tag stands, the same text and the same integer are read. -/
theorem path?_congr {d : Compound} {path : Text} (h : c.atPath? path = d.atPath? path) :
    c.pathText? path = d.pathText? path ∧ c.pathInt? path = d.pathInt? path := by
  rw [atPath?, atPath?] at h
  simp only [pathText?, pathInt?, h, and_self]

/-- Neither a text nor an integer is read where no such leaf stands. -/
theorem path?_eq_none {path : Text} (htext : ∀ s, c.atPath? path ≠ some (.text s))
    (hint : ∀ n, c.atPath? path ≠ some (.int n)) :
    c.pathText? path = none ∧ c.pathInt? path = none :=
  ⟨Option.eq_none_iff_forall_ne_some.2 fun s hs => htext s (pathText?_eq_some_iff.1 hs),
    Option.eq_none_iff_forall_ne_some.2 fun n hn => hint n (pathInt?_eq_some_iff.1 hn)⟩

/-- Nothing is read on the way to a written tag. -/
theorem path?_setPath_above {path other : Text} (h : segments other <+: segments path)
    (hne : segments other ≠ segments path) :
    (c.setPath path tag).pathText? other = none ∧ (c.setPath path tag).pathInt? other = none := by
  obtain ⟨rest, hrest, hpath⟩ := exists_append_of_prefix h hne
  obtain ⟨d, hd⟩ : ∃ d, (c.setPath path tag).atPath? other = some (.compound d) := by
    rw [atPath?, setPath, hpath]
    exact exists_getAt?_setAt_append (segments_ne_nil other) hrest
  exact path?_eq_none (by simp [hd]) (by simp [hd])

/-- Nothing is read behind a written leaf. -/
theorem path?_setPath_below {path other : Text} (hleaf : tag.entries = [])
    (h : segments path <+: segments other) (hne : segments path ≠ segments other) :
    (c.setPath path tag).pathText? other = none ∧ (c.setPath path tag).pathInt? other = none := by
  obtain ⟨rest, hrest, hother⟩ := exists_append_of_prefix h hne
  have hnone : (c.setPath path tag).atPath? other = none := by
    rw [atPath?, setPath, hother, getAt?_setAt_append (segments_ne_nil path) hrest, hleaf, getAt?_nil]
  exact path?_eq_none (by simp [hnone]) (by simp [hnone])

/-- Reading after writing at a path: the written leaf is read at the path and nowhere else that the
path meets, paths apart are read as before, and of two writes the later one counts. -/
theorem path?_setPath (c : Compound) (tag : Tag) (path : Text) :
    (∀ s, (c.setPath path tag).pathText? path = some s ↔ tag = .text s) ∧
    (∀ n, (c.setPath path tag).pathInt? path = some n ↔ tag = .int n) ∧
    (∀ other, Apart (segments path) (segments other) →
      (c.setPath path tag).pathText? other = c.pathText? other ∧
        (c.setPath path tag).pathInt? other = c.pathInt? other) ∧
    (∀ other, segments other <+: segments path → segments other ≠ segments path →
      (c.setPath path tag).pathText? other = none ∧
        (c.setPath path tag).pathInt? other = none) ∧
    ((∀ d, tag ≠ .compound d) → ∀ other, segments path <+: segments other →
      segments path ≠ segments other →
      (c.setPath path tag).pathText? other = none ∧
        (c.setPath path tag).pathInt? other = none) ∧
    ∀ later, (c.setPath path tag).setPath path later = c.setPath path later := by
  refine ⟨fun s => ?_, fun n => ?_, fun other happart => ?_, fun other => path?_setPath_above,
    fun hscalar other => ?_, setAt_setAt (segments path) tag⟩
  · rw [pathText?_eq_some_iff, atPath?_setPath_self, Option.some_inj]
  · rw [pathInt?_eq_some_iff, atPath?_setPath_self, Option.some_inj]
  · exact path?_congr (atPath?_setPath_of_apart happart)
  · have hleaf : tag.entries = [] := by
      cases tag with
      | int n => rfl
      | text s => rfl
      | compound d => exact absurd rfl (hscalar d)
    exact path?_setPath_below hleaf

/-- Three dots are two that separate and one that belongs to the next name: the path leaves the one
with two dots, and meets the compound in front of it and what would stand behind it. -/
theorem path?_setPath_three_dots :
    let c := Compound.setPath [] "stats..kills".toList (.int 7)
    let path := "stats...kills".toList
    let next := c.setPath path (.int 3)
    Apart (segments path) (segments "stats..kills".toList) ∧
      next.pathInt? path = some 3 ∧ next.pathInt? "stats..kills".toList = some 7 ∧
      next.pathInt? "stats".toList = none ∧ next.pathInt? "stats...kills....x".toList = none ∧
      next.setPath path (.text []) = c.setPath path (.text []) := by
  intro c path next
  have happart : Apart (segments path) (segments "stats..kills".toList) := by decide
  obtain ⟨-, hint, hother, habove, hbelow, hlater⟩ := path?_setPath c (.int 3) path
  refine ⟨happart, (hint 3).2 rfl, ?_, ?_, ?_, hlater (.text [])⟩
  · exact (hother _ happart).2.trans (by decide)
  · exact (habove _ (by decide) (by decide)).2
  · exact (hbelow (by simp) _ (by decide) (by decide)).2

end Compound

end InventoryQuery
