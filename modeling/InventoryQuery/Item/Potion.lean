import InventoryQuery.Item.Stack
/-!
# Potions on stacks

A host reads the effect of a potion off a stack and puts one on it, in whatever way it keeps
effects. Two ways are given here: in the metadata, or in a component, as an identifier such as
`minecraft:long_swiftness`, in which a modifier tells whether the effect is extended or upgraded.
Only four materials can carry an effect in either of them.
-/

namespace InventoryQuery

/-- How a host keeps the effects of potions. -/
structure PotionStore where
  /-- The effect that a stack carries. -/
  read? : Stack → Option Potion
  /-- Whether an effect was put on a stack, and the stack afterwards. -/
  write : Stack → Potion → Bool × Stack

namespace Potion

def materials : List Text :=
  ["POTION", "SPLASH_POTION", "LINGERING_POTION", "TIPPED_ARROW"].map String.toList

def isMaterial (material : Text) : Bool := materials.contains material

/-- The path of the identifier. -/
def idPath : Text := "minecraft:potion_contents..potion".toList

def namespaceMark : Text := "minecraft:".toList

def extendedMark : Text := "long_".toList

def upgradedMark : Text := "strong_".toList

/-- The identifier of an effect; an effect that is both extended and upgraded is written as
extended. -/
def id (p : Potion) : Text :=
  namespaceMark
    ++ (if p.extended then extendedMark else if p.upgraded then upgradedMark else [])
    ++ Text.lower p.kind

/-- The effect that an identifier names, with or without the namespace. -/
def ofId (id : Text) : Potion :=
  let name := (Text.after? namespaceMark id).getD id
  match Text.after? extendedMark name with
  | some kind => ⟨Text.upper kind, true, false⟩
  | none =>
    match Text.after? upgradedMark name with
    | some kind => ⟨Text.upper kind, false, true⟩
    | none => ⟨Text.upper name, false, false⟩

end Potion

namespace PotionStore

/-- Effects are in the metadata. -/
def metadata : PotionStore where
  read? s := s.metadata.bind Metadata.basePotion
  write s p :=
    if Potion.isMaterial s.material then
      (true, { s with metadata := some { s.metadata.getD .empty with basePotion := some p } })
    else (false, s)

/-- Effects are in a component, as identifiers. -/
def component : PotionStore where
  read? s := (s.tags.pathText? Potion.idPath).map Potion.ofId
  write s p :=
    if Potion.isMaterial s.material then
      (true, { s with tags := s.tags.setPath Potion.idPath (.text p.id) })
    else (false, s)

/-- The stack with an effect, if the host could put it there. -/
def write? (store : PotionStore) (s : Stack) (p : Potion) : Option Stack :=
  match store.write s p with
  | (true, written) => some written
  | (false, _) => none

section

variable {store : PotionStore} {s : Stack} {p : Potion}

theorem write_metadata (h : Potion.isMaterial s.material = true) : metadata.write s p =
    (true, { s with metadata := some { s.metadata.getD .empty with basePotion := some p } }) :=
  if_pos h

theorem write_component (h : Potion.isMaterial s.material = true) : component.write s p =
    (true, { s with tags := s.tags.setPath Potion.idPath (.text p.id) }) :=
  if_pos h

theorem write?_eq_some_iff {written : Stack} :
    store.write? s p = some written ↔ store.write s p = (true, written) := by
  unfold write?
  split <;> simp [*]

/-! ## The two stores given here -/

/-- The store is one of the two given here. -/
def IsBuiltIn (store : PotionStore) : Prop := store = metadata ∨ store = component

theorem isBuiltIn_metadata : metadata.IsBuiltIn := .inl rfl

theorem isBuiltIn_component : component.IsBuiltIn := .inr rfl

theorem IsBuiltIn.write_of_not_isMaterial (hstore : store.IsBuiltIn)
    (h : Potion.isMaterial s.material ≠ true) (p : Potion) : store.write s p = (false, s) := by
  rcases hstore with rfl | rfl
  · exact if_neg h
  · exact if_neg h

/-- What an attempt to put an effect on a stack leaves. -/
theorem IsBuiltIn.write_cases (hstore : store.IsBuiltIn) (s : Stack) (p : Potion) :
    (store.write s p).2 = s ∨
    (store.write s p).2 =
      { s with metadata := some { s.metadata.getD .empty with basePotion := some p } } ∨
    (store.write s p).2 = { s with tags := s.tags.setPath Potion.idPath (.text p.id) } := by
  by_cases hcan : Potion.isMaterial s.material = true
  · rcases hstore with rfl | rfl
    · exact .inr (.inl (by rw [write_metadata hcan]))
    · exact .inr (.inr (by rw [write_component hcan]))
  · exact .inl (by rw [hstore.write_of_not_isMaterial hcan])

/-! ## What other stores may be asked to keep to -/

/-- The effect belongs to the item, however many of it there are on a stack. -/
def IgnoresAmount (store : PotionStore) : Prop :=
  ∀ s amount, store.read? (s.withAmount amount) = store.read? s

/-- Putting an effect on a stack leaves it a stack of as much of the same material. -/
structure KeepsItem (store : PotionStore) : Prop where
  material_write : ∀ s p, (store.write s p).2.material = s.material
  amount_write : ∀ s p, (store.write s p).2.amount = s.amount

theorem IsBuiltIn.ignoresAmount (hstore : store.IsBuiltIn) : store.IgnoresAmount := by
  rcases hstore with rfl | rfl
  · exact fun _ _ => rfl
  · exact fun _ _ => rfl

theorem IsBuiltIn.keepsItem (hstore : store.IsBuiltIn) : store.KeepsItem := by
  refine ⟨fun s p => ?_, fun s p => ?_⟩
  all_goals rcases hstore.write_cases s p with hwrite | hwrite | hwrite
  all_goals rw [hwrite]

end

end PotionStore

end InventoryQuery
