import InventoryQuery.Criteria.Reader
import InventoryQuery.Proofs.Dict
import InventoryQuery.Proofs.Item.Enchantment
/-!
# The form of criteria that are read

Materials and effects are compared with those of a stack as texts, and enchantments by their keys.
Reading brings what it finds in a text into that form, whatever the placeholders of the text stand
for, so nothing that is asked fails to be found for the way in which it was written.
-/

namespace InventoryQuery

/-- What a clause asks has the form in which stacks have it. -/
def Clause.IsNormal : Clause → Prop
  | .modelData n => 0 ≤ n
  | .material s => ∀ c ∈ s, c.isLower = false
  | .potionKind s => ∀ c ∈ s, c.isLower = false
  | .enchantments levels => ∀ entry ∈ levels.entries, entry.1 ≠ [] ∧ Enchantment.IsKey entry.1
  | _ => True

/-- What criteria ask has the form in which stacks have it. -/
structure Criteria.IsNormal (c : Criteria) : Prop where
  modelData : ∀ n ∈ c.modelData, 0 ≤ n
  material : ∀ s ∈ c.material, ∀ char ∈ s, char.isLower = false
  potionKind : ∀ s ∈ c.potionKind, ∀ char ∈ s, char.isLower = false
  enchantments : ∀ levels ∈ c.enchantments, ∀ entry ∈ levels.entries,
    entry.1 ≠ [] ∧ Enchantment.IsKey entry.1

/-! ## Clauses -/

namespace Clause

variable {resolve : Text → Text} {clause : Clause}

theorem exists_segment_of_mem_dictOfSegments {α : Type} {read : Text → Option (Text × α)}
    {value : Text} {entry : Text × α} (h : entry ∈ (dictOfSegments read value).entries) :
    ∃ segment, read segment = some entry := by
  rw [dictOfSegments, Dict.entries_ofList] at h
  obtain ⟨segment, -, hread⟩ := List.mem_filterMap.1 (Entries.mem_of_mem_ofList h)
  exact ⟨segment, hread⟩

theorem isKey_of_levelOfSegment? {segment : Text} {entry : Text × Level}
    (h : levelOfSegment? resolve segment = some entry) :
    entry.1 ≠ [] ∧ Enchantment.IsKey entry.1 := by
  unfold levelOfSegment? at h
  split at h
  dsimp only at h
  split at h
  · cases h
  · next hne =>
    -- The key is that of a token whether the level is a number or not.
    split at h <;>
    · obtain rfl := Option.some.inj h
      exact ⟨hne, Enchantment.isKey_normalize _⟩

theorem isNormal_of_ofValue? {value : Text} {key : FieldKey}
    (h : ofValue? resolve value key = some clause) : clause.IsNormal := by
  cases key with
  | damage =>
    obtain ⟨n, -, rfl⟩ := Option.map_eq_some_iff.1 h
    trivial
  | modelData =>
    simp only [ofValue?] at h
    split at h
    · split at h
      · next hn =>
        obtain rfl := Option.some.inj h
        exact hn
      · cases h
    · cases h
  | material | potionKind =>
    obtain rfl := Option.some.inj h
    exact fun c => Text.isLower_of_mem_upper
  | enchantments =>
    obtain rfl := Option.some.inj h
    intro entry hentry
    obtain ⟨segment, hread⟩ := exists_segment_of_mem_dictOfSegments hentry
    split at hread
    · cases hread
    · exact isKey_of_levelOfSegment? hread
  | amountExpression => cases h
  | _ =>
    obtain rfl := Option.some.inj h
    trivial

theorem isNormal_of_word {word : Text} (h : words.lookup word = some clause) :
    clause.IsNormal := by
  have hwords : ∀ entry ∈ words, entry.2.IsNormal := by simp [words, IsNormal]
  exact hwords _ (Text.mem_of_lookup h)

theorem isNormal_of_read? {field : Text} (h : read? resolve field = some clause) :
    clause.IsNormal := by
  unfold read? at h
  split at h
  · obtain rfl := Option.some.inj h
    trivial
  · exact isNormal_of_ofValue? h
  · exact isNormal_of_word h

end Clause

/-! ## Criteria -/

namespace Criteria

theorem isNormal_empty : IsNormal {} := by constructor <;> simp

/-- A clause brings its own value and leaves the others. -/
theorem IsNormal.add {c : Criteria} (hc : c.IsNormal) {x : Clause} (hx : x.IsNormal) :
    (c.add x).IsNormal := by
  cases x with
  | modelData n =>
    refine ⟨fun m hm => ?_, hc.material, hc.potionKind, hc.enchantments⟩
    obtain rfl := Option.some.inj hm
    exact hx
  | material s =>
    refine ⟨hc.modelData, fun t ht => ?_, hc.potionKind, hc.enchantments⟩
    obtain rfl := Option.some.inj ht
    exact hx
  | potionKind s =>
    refine ⟨hc.modelData, hc.material, fun t ht => ?_, hc.enchantments⟩
    obtain rfl := Option.some.inj ht
    exact hx
  | enchantments levels =>
    refine ⟨hc.modelData, hc.material, hc.potionKind, fun m hm => ?_⟩
    obtain rfl := Option.some.inj hm
    exact hx
  | _ => exact ⟨hc.modelData, hc.material, hc.potionKind, hc.enchantments⟩

theorem isNormal_ofClauses {clauses : List Clause} (h : ∀ x ∈ clauses, x.IsNormal) :
    (ofClauses clauses).IsNormal :=
  ofClauses_induction isNormal_empty fun _ hc x hx => hc.add (h x hx)

theorem isNormal_readWith (resolve : Text → Text) (text : Text) :
    (readWith resolve text).IsNormal := by
  apply isNormal_ofClauses
  intro x hx
  obtain ⟨field, -, hread⟩ := List.mem_filterMap.1 hx
  exact Clause.isNormal_of_read? hread

/-- Criteria that are read do not take away, and what they ask has the form in which stacks have
it: whatever the placeholders stand for and however often they are expanded. -/
theorem isNormal_read (expand : Placeholder.Expander) (passes : Nat) (text : Text) :
    (read expand passes text).removes = false ∧ (read expand passes text).IsNormal :=
  ⟨removes_readWith _ text, isNormal_readWith _ text⟩

end Criteria

end InventoryQuery
