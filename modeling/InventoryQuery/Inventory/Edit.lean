import InventoryQuery.Inventory.Insertion
/-!
# Edits of an inventory

The changes that the owner of an inventory can make directly.
-/

namespace InventoryQuery.Inventory

inductive Edit where
  | put (slot : Nat) (stack : Stack)
  | add (stack : Stack)
  | setAmount (slot : Nat) (amount : UInt32)
  | clear (slot : Nat)
  | hold (slot : Nat)
  | setLimit (material : Text) (limit : UInt32)

/-- The inventory after an edit. -/
def edit (inv : Inventory) : Edit → Inventory
  | .put slot stack => inv.put slot stack
  | .add stack => (inv.add stack).1
  | .setAmount slot amount => inv.setAmount slot amount
  | .clear slot => inv.clear slot
  | .hold slot => inv.hold slot
  | .setLimit material limit => inv.setLimit material limit

end InventoryQuery.Inventory
