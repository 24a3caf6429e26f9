import InventoryQuery.Inventory.Edit
import InventoryQuery.Inventory.Snapshot
import InventoryQuery.Proofs.Inventory.Slots
/-!
# The shape of an inventory

An inventory has forty-one slots, and the slot that is held is one of the hotbar.  Every inventory
that is loaded has this shape, and no operation changes it, whatever the stacks are.
-/

namespace InventoryQuery.Inventory

/-- The part of an inventory's form that no operation can break. -/
structure Shaped (inv : Inventory) : Prop where
  length_slots : inv.slots.length = size
  heldSlot_lt : inv.heldSlot < hotbarSize

theorem Valid.shaped {inv : Inventory} (h : inv.Valid) : inv.Shaped :=
  ⟨h.length_slots, h.heldSlot_lt⟩

theorem shaped_empty : empty.Shaped := ⟨rfl, by decide⟩

theorem length_topUp (limit : UInt32) (stack : Stack) (left : UInt32)
    (cells : List (Option Stack)) : (topUp limit stack left cells).1.length = cells.length := by
  induction cells generalizing left with
  | nil => rfl
  | cons cell cells ih => cases cell <;> simp only [topUp, List.length_cons, ih]

theorem length_fill (limit : UInt32) (stack : Stack) (left : UInt32)
    (cells : List (Option Stack)) : (fill limit stack left cells).1.length = cells.length := by
  induction cells generalizing left with
  | nil => rfl
  | cons cell cells ih =>
    cases cell with
    | some s => simp only [fill, List.length_cons, ih]
    | none =>
      unfold fill
      split
      · rfl
      · simp only [List.length_cons, ih]

namespace Shaped

variable {inv : Inventory} (h : inv.Shaped)

include h

theorem item?_eq_none {slot : Nat} (hslot : size ≤ slot) : inv.item? slot = none := by
  rw [item?, List.getElem?_eq_none (h.length_slots ▸ hslot)]
  rfl

theorem lt_size_of_item? {slot : Nat} {stack : Stack} (hitem : inv.item? slot = some stack) :
    slot < size := by
  by_contra hslot
  rw [h.item?_eq_none (Nat.le_of_not_lt hslot)] at hitem
  cases hitem

theorem clear (slot : Nat) : (inv.clear slot).Shaped :=
  ⟨(inv.length_slots_clear slot).trans h.length_slots, h.heldSlot_lt⟩

theorem put (slot : Nat) (stack : Stack) : (inv.put slot stack).Shaped :=
  ⟨List.length_set.trans h.length_slots, h.heldSlot_lt⟩

theorem setAmount (slot : Nat) (amount : UInt32) : (inv.setAmount slot amount).Shaped :=
  ⟨(inv.length_slots_setAmount slot amount).trans h.length_slots,
    (inv.heldSlot_setAmount slot amount).symm ▸ h.heldSlot_lt⟩

theorem hold (slot : Nat) : (inv.hold slot).Shaped := by
  unfold Inventory.hold
  split
  · next hslot => exact ⟨h.length_slots, hslot⟩
  · exact h

theorem setLimit (material : Text) (limit : UInt32) : (inv.setLimit material limit).Shaped :=
  ⟨h.length_slots, h.heldSlot_lt⟩

theorem add (stack : Stack) : (inv.add stack).1.Shaped := by
  refine ⟨?_, h.heldSlot_lt⟩
  have hlength := h.length_slots
  simp only [Inventory.add, List.length_append, length_fill, length_topUp, List.length_take,
    List.length_drop]
  omega

theorem edit (e : Edit) : (inv.edit e).Shaped := by
  cases e with
  | put slot stack => exact h.put slot stack
  | add stack => exact h.add stack
  | setAmount slot amount => exact h.setAmount slot amount
  | clear slot => exact h.clear slot
  | hold slot => exact h.hold slot
  | setLimit material limit => exact h.setLimit material limit

end Shaped

/-- Dirt in the storage, in the place of the helmet and in the off-hand. -/
def scattered : Inventory :=
  ((empty.put 0 (.plain "DIRT".toList 5)).put 39 (.plain "DIRT".toList 1)).put 40
    (.plain "DIRT".toList 5)

theorem shaped_scattered : scattered.Shaped :=
  ((shaped_empty.put _ _).put _ _).put _ _

theorem shaped_foldl {α : Type} {f : Inventory → α → Inventory}
    (hf : ∀ inv a, inv.Shaped → (f inv a).Shaped) {inv : Inventory} (h : inv.Shaped)
    (entries : List α) : (entries.foldl f inv).Shaped := by
  induction entries generalizing inv with
  | nil => exact h
  | cons entry entries ih => exact ih (hf inv entry h)

theorem shaped_assemble (heldSlot : Nat) (contents : List (Nat × Stack)) (limits : Dict UInt32) :
    (assemble heldSlot contents limits).Shaped := by
  unfold assemble
  apply shaped_foldl
  · intro inv entry h
    exact h.put entry.1 entry.2
  · apply Shaped.hold
    apply shaped_foldl
    · intro inv entry h
      exact h.setLimit entry.1 entry.2
    · exact shaped_empty

/-- Whatever a text stores, the inventory that is loaded has its shape. -/
theorem shaped_of_load? {text : Text} {inv : Inventory} (h : load? text = some inv) :
    inv.Shaped := by
  simp only [load?, ofJson?, Option.bind_eq_bind, Option.bind_eq_some_iff, Option.pure_def,
    Option.some.injEq] at h
  obtain ⟨-, -, -, -, heldSlot, -, contents, -, limits, -, rfl⟩ := h
  exact shaped_assemble heldSlot.toNat contents limits

/-- The inventories that come about: an empty one and those that are loaded, and what edits make of
them. -/
inductive IsReached : Inventory → Prop
  | empty : IsReached empty
  | loaded {text : Text} {inv : Inventory} (h : load? text = some inv) : IsReached inv
  | edited {inv : Inventory} (e : Edit) (h : IsReached inv) : IsReached (inv.edit e)

theorem IsReached.shaped {inv : Inventory} (h : inv.IsReached) : inv.Shaped := by
  induction h with
  | empty => exact shaped_empty
  | loaded h => exact shaped_of_load? h
  | edited e _ ih => exact ih.edit e

end InventoryQuery.Inventory
