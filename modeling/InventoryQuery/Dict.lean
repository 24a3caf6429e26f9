import InventoryQuery.Text.Basic
/-!
# Maps keyed by texts

A map is the list of its entries with strictly ascending keys, so that two maps with the same
entries are equal. Keys are ordered character by character, by code point. Where the entries of a
map are written in another order, a `Dict.Listing` tells in which.

`Entries` holds the operations on bare lists of entries, which recursive types need; `Dict` is such
a list together with the proof that its keys ascend.
-/

namespace InventoryQuery

universe u v

variable {α : Type u} {β : Type v}

namespace Entries

/-- The keys ascend strictly. -/
def Ascending (entries : List (Text × α)) : Prop :=
  entries.Pairwise fun a b => a.1 < b.1

instance (entries : List (Text × α)) : Decidable (Ascending entries) :=
  inferInstanceAs (Decidable (entries.Pairwise _))

/-- The value under `key`. -/
def get? (key : Text) : List (Text × α) → Option α
  | [] => none
  | (k, value) :: entries => if key = k then some value else get? key entries

/-- Writes `value` under `key`, in place of any value that is there. -/
def insert (key : Text) (value : α) : List (Text × α) → List (Text × α)
  | [] => [(key, value)]
  | (k, old) :: entries =>
    if key < k then (key, value) :: (k, old) :: entries
    else if key = k then (key, value) :: entries
    else (k, old) :: insert key value entries

/-- Writes the given entries one after another, so that of equal keys the last one counts. -/
def ofList (entries : List (Text × α)) : List (Text × α) :=
  entries.foldl (fun acc entry => insert entry.1 entry.2 acc) []

private theorem lt_of_not_lt_of_ne {a b : Text} (h : ¬ a < b) (hne : a ≠ b) : b < a := by
  rcases Std.Trichotomous.rel_or_eq_or_rel_swap (r := fun x y : Text => x < y) (a := a) (b := b)
    with h' | h' | h'
  · exact absurd h' h
  · exact absurd h' hne
  · exact h'

theorem mem_insert {key : Text} {value : α} {entry : Text × α} {entries : List (Text × α)}
    (h : entry ∈ insert key value entries) : entry = (key, value) ∨ entry ∈ entries := by
  induction entries with
  | nil => simpa [insert] using h
  | cons head entries ih =>
    obtain ⟨k, old⟩ := head
    unfold insert at h
    split at h
    · simpa using h
    · split at h
      · rcases List.mem_cons.1 h with h | h
        · exact .inl h
        · exact .inr (List.mem_cons_of_mem _ h)
      · rcases List.mem_cons.1 h with h | h
        · exact .inr (h ▸ List.mem_cons_self)
        · exact (ih h).imp id (List.mem_cons_of_mem _)

theorem ascending_insert (key : Text) (value : α) {entries : List (Text × α)}
    (h : Ascending entries) : Ascending (insert key value entries) := by
  induction entries with
  | nil => simp [insert, Ascending]
  | cons head entries ih =>
    obtain ⟨k, old⟩ := head
    obtain ⟨hk, hrest⟩ := List.pairwise_cons.1 h
    unfold insert
    split
    · next hlt =>
      refine List.pairwise_cons.2 ⟨fun entry hmem => ?_, h⟩
      rcases List.mem_cons.1 hmem with rfl | hmem
      · exact hlt
      · exact List.lt_trans hlt (hk entry hmem)
    · next hlt =>
      split
      · next heq =>
        subst heq
        exact List.pairwise_cons.2 ⟨hk, hrest⟩
      · next hne =>
        refine List.pairwise_cons.2 ⟨fun entry hmem => ?_, ih hrest⟩
        rcases mem_insert hmem with rfl | hmem
        · exact lt_of_not_lt_of_ne hlt hne
        · exact hk entry hmem

theorem get?_insert (key other : Text) (value : α) (entries : List (Text × α)) :
    get? other (insert key value entries) =
      if other = key then some value else get? other entries := by
  induction entries with
  | nil => simp [insert, get?]
  | cons head entries ih =>
    obtain ⟨k, old⟩ := head
    unfold insert
    split
    · rfl
    · split
      · next heq => subst heq; by_cases ho : other = key <;> simp [get?, ho]
      · next hne =>
        by_cases ho : other = k
        · subst ho; simp [get?, Ne.symm hne]
        · simp [get?, ho, ih]

end Entries

/-- A map from texts. -/
structure Dict (α : Type u) where
  entries : List (Text × α)
  ascending : Entries.Ascending entries

namespace Dict

@[ext] theorem ext {m n : Dict α} (h : m.entries = n.entries) : m = n := by
  cases m; cases n; cases h; rfl

instance [DecidableEq α] : DecidableEq (Dict α) := fun m n =>
  decidable_of_iff (m.entries = n.entries) ⟨ext, congrArg entries⟩

/-- The map without entries. -/
def empty : Dict α := ⟨[], List.Pairwise.nil⟩

instance : EmptyCollection (Dict α) := ⟨empty⟩

instance : Inhabited (Dict α) := ⟨empty⟩

/-- Whether a map has no entries. -/
def isEmpty (m : Dict α) : Bool := m.entries.isEmpty

/-- The value under `key`. -/
def get? (m : Dict α) (key : Text) : Option α := Entries.get? key m.entries

/-- The map with `value` under `key`, in place of any value that was there. -/
def insert (m : Dict α) (key : Text) (value : α) : Dict α :=
  ⟨Entries.insert key value m.entries, Entries.ascending_insert key value m.ascending⟩

/-- The map that a list of entries describes; of equal keys the last one counts. -/
def ofList (entries : List (Text × α)) : Dict α :=
  entries.foldl (fun m entry => m.insert entry.1 entry.2) ∅

/-- The map with every value replaced by its image. -/
def map (f : α → β) (m : Dict α) : Dict β :=
  ⟨m.entries.map fun entry => (entry.1, f entry.2), by
    have h := m.ascending
    simp only [Entries.Ascending, List.pairwise_map] at *
    exact h⟩

theorem get?_insert (m : Dict α) (key other : Text) (value : α) :
    (m.insert key value).get? other = if other = key then some value else m.get? other :=
  Entries.get?_insert key other value m.entries

/-- An order for the entries of every map. -/
structure Listing (α : Type u) where
  entries : Dict α → List (Text × α)
  perm : ∀ m, (entries m).Perm m.entries

/-- Entries in the order of their keys. -/
def Listing.ascending : Listing α := ⟨Dict.entries, fun _ => .refl _⟩

end Dict

end InventoryQuery
