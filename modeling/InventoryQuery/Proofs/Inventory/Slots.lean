import InventoryQuery.Inventory.Edit
import Mathlib.Data.List.Basic
/-!
# Slots of an inventory

An inventory is seen through the stacks in its slots.  Each change of one slot is described by what
it does to this view, and the amounts in several slots are summed over it.
-/

namespace InventoryQuery

@[simp] theorem Stack.amount_withAmount (s : Stack) (amount : UInt32) :
    (s.withAmount amount).amount = amount := rfl

namespace Inventory

variable (inv : Inventory)

/-! ## One slot changed -/

@[simp] theorem heldSlot_clear (slot : Nat) : (inv.clear slot).heldSlot = inv.heldSlot := rfl

@[simp] theorem limits_clear (slot : Nat) : (inv.clear slot).limits = inv.limits := rfl

@[simp] theorem length_slots_clear (slot : Nat) :
    (inv.clear slot).slots.length = inv.slots.length :=
  List.length_set

theorem item?_clear (slot i : Nat) :
    (inv.clear slot).item? i = if slot = i then none else inv.item? i := by
  unfold item? clear
  rw [List.getElem?_set]
  split
  · split <;> rfl
  · rfl

@[simp] theorem item?_clear_self (slot : Nat) : (inv.clear slot).item? slot = none := by
  rw [item?_clear, if_pos rfl]

theorem item?_clear_of_ne {slot i : Nat} (h : slot ≠ i) :
    (inv.clear slot).item? i = inv.item? i := by
  rw [item?_clear, if_neg h]

@[simp] theorem heldSlot_setAmount (slot : Nat) (amount : UInt32) :
    (inv.setAmount slot amount).heldSlot = inv.heldSlot := by
  unfold setAmount
  split <;> rfl

@[simp] theorem limits_setAmount (slot : Nat) (amount : UInt32) :
    (inv.setAmount slot amount).limits = inv.limits := by
  unfold setAmount
  split <;> rfl

@[simp] theorem length_slots_setAmount (slot : Nat) (amount : UInt32) :
    (inv.setAmount slot amount).slots.length = inv.slots.length := by
  unfold setAmount
  split
  · exact inv.length_slots_clear slot
  · exact List.length_modify _ _ _

theorem item?_setAmount {amount : UInt32} (hamount : amount ≠ 0) (slot i : Nat) :
    (inv.setAmount slot amount).item? i =
      if slot = i then (inv.item? i).map (·.withAmount amount) else inv.item? i := by
  unfold item? setAmount
  rw [if_neg hamount, List.getElem?_modify]
  split <;> cases inv.slots[i]? <;> rfl

theorem mem_slots_of_item? {inv : Inventory} {slot : Nat} {stack : Stack}
    (h : inv.item? slot = some stack) : some stack ∈ inv.slots :=
  List.mem_of_getElem? (Option.join_eq_some_iff.1 h)

/-- Two inventories are the same when every slot holds the same, and nothing else differs. -/
theorem eq_of_item?_eq {inv next : Inventory} (hitem : ∀ slot, next.item? slot = inv.item? slot)
    (hheld : next.heldSlot = inv.heldSlot) (hlimits : next.limits = inv.limits)
    (hlength : next.slots.length = inv.slots.length) : next = inv := by
  have hslots : next.slots = inv.slots := by
    apply List.ext_getElem hlength
    intro i hnext hinv
    have hi := hitem i
    rwa [item?, item?, List.getElem?_eq_getElem hnext, List.getElem?_eq_getElem hinv] at hi
  cases next
  cases inv
  cases hslots
  cases hheld
  cases hlimits
  rfl

/-! ## Sums over slots -/

/-- The amount in a slot; none in a vacant slot and outside the inventory. -/
def amountAt (slot : Nat) : Nat := ((inv.item? slot).map fun stack => stack.amount.toNat).getD 0

/-- The sum of the amounts in the given slots. -/
def amountIn : List Nat → Nat
  | [] => 0
  | slot :: slots => inv.amountAt slot + amountIn slots

variable {inv}

theorem amountAt_of_item? {slot : Nat} {stack : Stack} (h : inv.item? slot = some stack) :
    inv.amountAt slot = stack.amount.toNat := by
  rw [amountAt, h]
  rfl

theorem amountAt_of_vacant {slot : Nat} (h : inv.item? slot = none) : inv.amountAt slot = 0 := by
  rw [amountAt, h]
  rfl

@[simp] theorem amountIn_nil : inv.amountIn [] = 0 := rfl

@[simp] theorem amountIn_cons (slot : Nat) (slots : List Nat) :
    inv.amountIn (slot :: slots) = inv.amountAt slot + inv.amountIn slots := rfl

theorem amountAt_eq_zero_of_amountIn {slots : List Nat} (h : inv.amountIn slots = 0) {slot : Nat}
    (hslot : slot ∈ slots) : inv.amountAt slot = 0 := by
  induction slots with
  | nil => cases hslot
  | cons first slots ih =>
    rw [amountIn_cons, Nat.add_eq_zero_iff] at h
    rcases List.mem_cons.1 hslot with rfl | hslot
    · exact h.1
    · exact ih h.2 hslot

theorem amountIn_perm {left right : List Nat} (h : left.Perm right) :
    inv.amountIn left = inv.amountIn right := by
  induction h with
  | nil => rfl
  | cons slot _ ih => rw [amountIn_cons, amountIn_cons, ih]
  | swap first second slots =>
    rw [amountIn_cons, amountIn_cons, amountIn_cons, amountIn_cons]
    omega
  | trans _ _ ihleft ihright => rw [ihleft, ihright]

theorem amountIn_congr {next : Inventory} {slots : List Nat}
    (h : ∀ slot ∈ slots, next.item? slot = inv.item? slot) :
    next.amountIn slots = inv.amountIn slots := by
  induction slots with
  | nil => rfl
  | cons slot slots ih =>
    have hslot : next.amountAt slot = inv.amountAt slot := by
      rw [amountAt, amountAt, h slot List.mem_cons_self]
    have hrest := ih fun i hi => h i (List.mem_cons_of_mem _ hi)
    rw [amountIn_cons, amountIn_cons, hslot, hrest]

/-- A slot without amount does not count, whether it is chosen or not. -/
theorem amountIn_filter_congr {p q : Nat → Bool} {slots : List Nat}
    (h : ∀ slot ∈ slots, inv.amountAt slot ≠ 0 → p slot = q slot) :
    inv.amountIn (slots.filter p) = inv.amountIn (slots.filter q) := by
  induction slots with
  | nil => rfl
  | cons slot slots ih =>
    have hrest := ih fun i hi => h i (List.mem_cons_of_mem _ hi)
    by_cases hzero : inv.amountAt slot = 0
    · rw [List.filter_cons, List.filter_cons]
      split <;> split <;> simp [hzero, hrest]
    · rw [List.filter_cons, List.filter_cons, h slot List.mem_cons_self hzero]
      split <;> simp [hrest]

end Inventory

end InventoryQuery
