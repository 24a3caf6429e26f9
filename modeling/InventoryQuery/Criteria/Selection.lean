import InventoryQuery.Criteria.Match
import InventoryQuery.Inventory.Basic
import InventoryQuery.Text.Numeral
/-!
# Selecting slots

Criteria are resolved over slots: the slots they match, and the sum of the amounts there. Air is
what vacant slots hold, and there is no end of it: one vacant slot makes a sum without bound, and
then no slot is looked at any more.
-/

namespace InventoryQuery

/-- A sum of amounts. -/
inductive Tally where
  | count (n : Nat)
  | unbounded
deriving DecidableEq

namespace Tally

/-- A sum with one more amount. Sums are 64 bits wide, and one that does not fit stays at the largest
of them. -/
def plus (sum : UInt64) (amount : UInt32) : UInt64 :=
  UInt64.ofNatClamp (sum.toNat + amount.toNat)

def atLeast (n : Nat) : Tally → Bool
  | .count m => n ≤ m
  | .unbounded => true

def equals (n : Nat) : Tally → Bool
  | .count m => m == n
  | .unbounded => false

/-- A tally in digits; the largest 32-bit integer stands for one without bound. -/
def text : Tally → Text
  | .count n => Numeral.digits n
  | .unbounded => Numeral.digits 2147483647

end Tally

/-- The slots that match, in the order in which they were offered, and the tally. -/
structure Selection where
  slots : List Nat
  tally : Tally
deriving DecidableEq

namespace Criteria

variable (c : Criteria)

/-- The slots to look at: the hands that are asked for, otherwise the slot that is asked for,
otherwise all. -/
def slotsToSearch (inv : Inventory) : List Nat :=
  match c.mainHand, c.offHand with
  | true, true => [inv.heldSlot, Inventory.offHandSlot]
  | true, false => [inv.heldSlot]
  | false, true => [Inventory.offHandSlot]
  | false, false =>
    match c.slot with
    | some slot => [slot.toNat]
    | none => List.range Inventory.size

/-- The slots to look at with the stacks in them. -/
def offers (inv : Inventory) : List (Nat × Option Stack) :=
  (c.slotsToSearch inv).map fun slot => (slot, inv.item? slot)

def asksAir : Bool := c.material == some air

/-- Goes on through the offered slots with the slots and the sum selected so far. -/
def resolveFrom (host : Host) (slots : List Nat) (sum : UInt64) :
    List (Nat × Option Stack) → Selection
  | [] => ⟨slots, .count sum.toNat⟩
  | (slot, cell) :: offers =>
    match cell.filter fun s => !s.isEmpty with
    | none => if c.asksAir then ⟨[], .unbounded⟩ else resolveFrom host slots sum offers
    | some s =>
      if c.matchesStack host s then
        resolveFrom host (slots ++ [slot]) (Tally.plus sum s.amount) offers
      else resolveFrom host slots sum offers

/-- What criteria select from the offered slots. -/
def resolve (host : Host) (offers : List (Nat × Option Stack)) : Selection :=
  c.resolveFrom host [] 0 offers

/-- What criteria select from an inventory. -/
def select (host : Host) (inv : Inventory) : Selection := c.resolve host (c.offers inv)

/-- Whether a tally is the amount that is asked for. -/
def decides (tally : Tally) : Bool :=
  match c.amount with
  | some .invalid => false
  | some (.exact n) =>
    if n = 0 ∧ c.removes then false
    else if c.strict then tally.equals n.toNat
    else tally.atLeast n.toNat
  | none => tally.atLeast 1

/-- Whether the amount that is asked for is refused before any slot is looked at. -/
def isRefused : Bool :=
  match c.amount with
  | some .invalid => true
  | some (.exact n) => n == 0 && c.removes
  | none => false

end Criteria

end InventoryQuery
