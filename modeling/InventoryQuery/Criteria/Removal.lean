import InventoryQuery.Criteria.Selection
/-!
# Taking selected stacks away

With an amount, that amount is taken if the selection covers it, and otherwise nothing; without
one, all of the selected stacks are taken. Armour goes first, then the off-hand, then the storage.
-/

namespace InventoryQuery

namespace Inventory

/-- The slots in the order in which they are debited. -/
def debitOrder : List Nat :=
  armorSlots ++ offHandSlot ::
    (List.range size).filter fun slot => !(armorSlots ++ [offHandSlot]).contains slot

/-- Takes an amount out of the slots that are marked, in the given order. -/
def debit (inv : Inventory) (marked : List Nat) (left : Nat) : List Nat → Inventory
  | [] => inv
  | slot :: slots =>
    if left = 0 then inv
    else if slot ∈ marked then
      match inv.item? slot with
      | none => inv.debit marked left slots
      | some s =>
        if left < s.amount.toNat then
          inv.setAmount slot (s.amount - UInt32.ofNat left)
        else (inv.clear slot).debit marked (left - s.amount.toNat) slots
    else inv.debit marked left slots

end Inventory

namespace Criteria

/-- The amount to take where `total` is selected: the amount that is asked for, or else all. -/
def wanted (c : Criteria) (total : Nat) : Nat :=
  match c.amount with
  | some target => target.amount.toNat
  | none => total

/-- Takes what is selected; gives the tally to report as well, which is the amount that is asked
for if that was taken. -/
def take (c : Criteria) (selection : Selection) (inv : Inventory) : Inventory × Tally :=
  match selection.tally with
  | .unbounded => (inv, .unbounded)
  | .count total =>
    if total < c.wanted total then (inv, .count total)
    else
      (inv.debit selection.slots (c.wanted total) Inventory.debitOrder, .count (c.wanted total))

end Criteria

end InventoryQuery
