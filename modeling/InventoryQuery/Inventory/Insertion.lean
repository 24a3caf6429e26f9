import InventoryQuery.Inventory.Basic
/-!
# Adding stacks to an inventory

A stack is added in two passes over the storage. The first tops up stacks of the same item to the
limit; the second puts what is left into vacant slots, up to the limit in each. What fits nowhere
is left over.
-/

namespace InventoryQuery.Inventory

/-- Tops up the stacks of the item to the limit; gives what is left as well. -/
def topUp (limit : UInt32) (stack : Stack) :
    UInt32 → List (Option Stack) → List (Option Stack) × UInt32
  | left, [] => ([], left)
  | left, none :: cells =>
    let (cells, left) := topUp limit stack left cells
    (none :: cells, left)
  | left, some s :: cells =>
    let moved := if s.isSimilar stack ∧ s.amount < limit then min left (limit - s.amount) else 0
    let (cells, left) := topUp limit stack (left - moved) cells
    (some (s.withAmount (s.amount + moved)) :: cells, left)

/-- Puts the item into vacant slots, up to the limit in each; gives what is left as well. -/
def fill (limit : UInt32) (stack : Stack) :
    UInt32 → List (Option Stack) → List (Option Stack) × UInt32
  | left, [] => ([], left)
  | left, some s :: cells =>
    let (cells, left) := fill limit stack left cells
    (some s :: cells, left)
  | left, none :: cells =>
    if left = 0 then (none :: cells, left)
    else
      let moved := min left limit
      let (cells, left) := fill limit stack (left - moved) cells
      (some (stack.withAmount moved) :: cells, left)

/-- Adds a stack; gives the amount that is left over as well. -/
def add (inv : Inventory) (stack : Stack) : Inventory × UInt32 :=
  let limit := inv.limit stack.material
  let (topped, left) := topUp limit stack stack.amount (inv.slots.take storageSize)
  let (filled, left) := fill limit stack left topped
  ({ inv with slots := filled ++ inv.slots.drop storageSize }, left)

private theorem one_le_toNat_max (limit : UInt32) : 1 ≤ (max limit 1).toNat := by
  have hmax : max limit 1 = if limit ≤ 1 then 1 else limit := rfl
  rw [hmax]
  split
  · decide
  · next hlimit =>
    rw [UInt32.le_iff_toNat_le] at hlimit
    simp at hlimit
    omega

private theorem toNat_sub_min_lt {left limit : UInt32} (h : ¬left = 0) :
    (left - min left (max limit 1)).toNat < left.toNat := by
  have hpos : ¬left.toNat = 0 := fun hz => h (UInt32.toNat_inj.1 hz)
  have hlimit := one_le_toNat_max limit
  have hmin : min left (max limit 1) = if left ≤ max limit 1 then left else max limit 1 := rfl
  rw [hmin]
  split
  · simp; omega
  · next hlt =>
    rw [UInt32.not_le] at hlt
    rw [UInt32.toNat_sub_of_le _ _ (UInt32.le_of_lt hlt)]
    omega

/-- Adds the given amount of an item in stacks up to the limit, until one of them does not fit
wholly; gives the amount that was not added as well. -/
def distribute (inv : Inventory) (item : Stack) (left : UInt32) : Inventory × UInt32 :=
  if _h : left = 0 then (inv, 0)
  else
    let given := min left (max (inv.limit item.material) 1)
    let (next, excess) := inv.add (item.withAmount given)
    if 0 < excess then (next, (left - given) + excess)
    else next.distribute item (left - given)
termination_by left.toNat
decreasing_by exact toNat_sub_min_lt ‹_›

end InventoryQuery.Inventory
