import InventoryQuery.Item.Stack
/-!
# Inventories

The forty-one slots of a player: nine slots of the hotbar and twenty-seven of the backpack, which
together are the storage; then boots, leggings, chestplate and helmet; then the off-hand. One slot
of the hotbar is the held one. Each material has a limit for the amounts that are put together in
one slot.
-/

namespace InventoryQuery

structure Inventory where
  slots : List (Option Stack)
  heldSlot : Nat
  limits : Dict UInt32
deriving DecidableEq

namespace Inventory

def size : Nat := 41

def storageSize : Nat := 36

def hotbarSize : Nat := 9

def armorSlots : List Nat := [36, 37, 38, 39]

def offHandSlot : Nat := 40

/-- The limit of a material for which none is set. -/
def defaultLimit : UInt32 := 64

/-- All slots vacant, the first one held, no limits set. -/
def empty : Inventory := ⟨List.replicate size none, 0, ∅⟩

/-- What every inventory keeps to: occupied slots hold stacks that are not empty, the held slot is
in the hotbar, and a limit leaves room for something. -/
structure Valid (inv : Inventory) : Prop where
  length_slots : inv.slots.length = size
  not_isEmpty : ∀ stack, some stack ∈ inv.slots → stack.isEmpty = false
  heldSlot_lt : inv.heldSlot < hotbarSize
  one_le_limit : ∀ entry ∈ inv.limits.entries, 1 ≤ entry.2

/-- The stack in a slot; there is none in a vacant slot and outside the inventory. -/
def item? (inv : Inventory) (slot : Nat) : Option Stack := inv.slots[slot]?.join

/-- The largest amount that is put together in one slot. -/
def limit (inv : Inventory) (material : Text) : UInt32 :=
  (inv.limits.get? material).getD defaultLimit

/-- The amount of a material over all slots. -/
def count (inv : Inventory) (material : Text) : Nat :=
  Stack.total (inv.slots.filterMap fun cell => cell.filter fun stack => stack.material == material)

/-- Puts a stack into a slot, whatever is there; an empty stack leaves the slot vacant. -/
def put (inv : Inventory) (slot : Nat) (stack : Stack) : Inventory :=
  { inv with slots := inv.slots.set slot (if stack.isEmpty then none else some stack) }

/-- Leaves a slot vacant. -/
def clear (inv : Inventory) (slot : Nat) : Inventory :=
  { inv with slots := inv.slots.set slot none }

/-- Changes the amount in an occupied slot; no amount leaves the slot vacant. -/
def setAmount (inv : Inventory) (slot : Nat) (amount : UInt32) : Inventory :=
  if amount = 0 then inv.clear slot
  else { inv with slots := inv.slots.modify slot (Option.map fun stack => stack.withAmount amount) }

/-- Holds a slot of the hotbar; other slots cannot be held. -/
def hold (inv : Inventory) (slot : Nat) : Inventory :=
  if slot < hotbarSize then { inv with heldSlot := slot } else inv

/-- Sets the limit of a material, to one at least. -/
def setLimit (inv : Inventory) (material : Text) (limit : UInt32) : Inventory :=
  { inv with limits := inv.limits.insert material (max limit 1) }

/-- The occupied slots, in ascending order, with their stacks. -/
def occupied (inv : Inventory) : List (Nat × Stack) :=
  inv.slots.zipIdx.filterMap fun (cell, slot) => cell.map fun stack => (slot, stack)

end Inventory

end InventoryQuery
