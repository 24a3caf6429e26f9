import InventoryQuery.Inventory.Basic
import InventoryQuery.Item.Coding
import InventoryQuery.Json.Reader
import InventoryQuery.Json.Writer
/-!
# Inventories as texts

An inventory is stored as a JSON document with the held slot, the occupied slots by number, and the
limits. Reading leaves out slots that do not exist and empty stacks, and treats the other values
as the operations of an inventory do. In which order the limits are written is up to the writer, so
it is told.
-/

namespace InventoryQuery.Inventory

open Json (field? record?)

/-- The slot that a key numbers: its digits, without leading zeros. -/
def slotOfKey? (key : Text) : Option Nat := do
  let n ← Numeral.ofDigits? key
  let _ ← Numeral.word64? n
  if Numeral.digits n = key then some n else none

/-- The stacks that are given by slot, in the order in which they are written. Two levels of nesting
are around each of them. -/
def stacksOfJson? : Json → Option (List (Nat × Stack))
  | .object members =>
    members.mapM fun (key, value) => do
      return (← slotOfKey? key, ← Stack.ofJson? (Json.maxDepth - 2) value)
  | _ => none

/-- An inventory made from its stored parts. -/
def assemble (heldSlot : Nat) (contents : List (Nat × Stack)) (limits : Dict UInt32) :
    Inventory :=
  let inv := (limits.entries.foldl (fun inv entry => inv.setLimit entry.1 entry.2) empty)
  contents.foldl (fun inv (slot, stack) => inv.put slot stack) (inv.hold heldSlot)

def ofJson? (j : Json) : Option Inventory := do
  let r ← record? (["held_slot", "slots", "stack_limits"].map String.toList) j
  let heldSlot ← field? r "held_slot".toList 0 Json.uint64?
  let contents ← field? r "slots".toList [] stacksOfJson?
  let limits ← field? r "stack_limits".toList ∅ (Json.dict? Json.uint32?)
  return assemble heldSlot.toNat contents limits

def toJson (inv : Inventory) (order : Dict.Listing UInt32 := .ascending) : Json :=
  .object [("held_slot".toList, Json.ofNat inv.heldSlot),
    ("slots".toList, .object (inv.occupied.map fun (slot, stack) =>
      (Numeral.digits slot, stack.toJson))),
    ("stack_limits".toList,
      Json.ofEntries (fun n => Json.ofNat n.toNat) (order.entries inv.limits))]

/-- The inventory that a text stores. -/
def load? (text : Text) : Option Inventory := Json.read? text >>= ofJson?

/-- The text that stores an inventory, with the limits in a given order. -/
def save (inv : Inventory) (order : Dict.Listing UInt32 := .ascending) : Text :=
  (inv.toJson order).pretty

end InventoryQuery.Inventory
