import InventoryQuery.Proofs.Criteria.Selection
import InventoryQuery.Proofs.Dict
import InventoryQuery.Proofs.Inventory.Insertion
import InventoryQuery.Proofs.Inventory.Snapshot
/-!
# What every operation keeps to

No operation leaves a stack without amount in a slot, holds a slot outside the hotbar or records a
limit of nothing.  What is true of every item in an inventory stays true as long as it is true of
the items that are put in.
-/

namespace InventoryQuery.Inventory

/-- A property of stacks that is about their items, whatever the amount is. -/
def IsOfItem (P : Stack → Prop) : Prop := ∀ s amount, P (s.withAmount amount) ↔ P s

/-- An inventory has its shape, its limits leave room for something, and every occupied slot holds
some amount of an item with the property. -/
structure Sound (P : Stack → Prop) (inv : Inventory) : Prop where
  shaped : inv.Shaped
  one_le_limit : ∀ entry ∈ inv.limits.entries, 1 ≤ entry.2
  amount_ne_zero : ∀ slot s, inv.item? slot = some s → s.amount ≠ 0
  holds : ∀ slot s, inv.item? slot = some s → P s

theorem item?_put (inv : Inventory) (slot i : Nat) (stack : Stack) {s : Stack}
    (h : (inv.put slot stack).item? i = some s) :
    s = stack ∧ stack.isEmpty = false ∨ inv.item? i = some s := by
  unfold put item? at h
  rw [List.getElem?_set] at h
  split at h
  · split at h
    · split at h
      · cases h
      · next hempty =>
        exact .inl ⟨(Option.some.inj h).symm, Bool.eq_false_iff.2 hempty⟩
    · cases h
  · exact .inr h

theorem limit_ne_zero {inv : Inventory} (h : ∀ entry ∈ inv.limits.entries, 1 ≤ entry.2)
    (material : Text) : inv.limit material ≠ 0 := by
  unfold limit
  cases hlimit : inv.limits.get? material with
  | none => decide
  | some n =>
    intro hzero
    have hone : 1 ≤ n := h (material, n) (Dict.mem_of_get? hlimit)
    rw [show n = 0 from hzero] at hone
    exact absurd hone (by decide)

namespace Sound

variable {P : Stack → Prop} (hP : IsOfItem P) {inv next : Inventory} (h : inv.Sound P)

include h

theorem put {slot : Nat} {stack : Stack} (hstack : stack.isEmpty = false → P stack) :
    (inv.put slot stack).Sound P where
  shaped := h.shaped.put slot stack
  one_le_limit := h.one_le_limit
  amount_ne_zero i s hs := by
    rcases item?_put inv slot i stack hs with ⟨rfl, hempty⟩ | hs
    · intro hzero
      rw [Stack.isEmpty, hzero] at hempty
      cases hempty
    · exact h.amount_ne_zero i s hs
  holds i s hs := by
    rcases item?_put inv slot i stack hs with ⟨rfl, hempty⟩ | hs
    · exact hstack hempty
    · exact h.holds i s hs

theorem clear (slot : Nat) : (inv.clear slot).Sound P where
  shaped := h.shaped.clear slot
  one_le_limit := h.one_le_limit
  amount_ne_zero i s hs := by
    rw [item?_clear] at hs
    split at hs
    · cases hs
    · exact h.amount_ne_zero i s hs
  holds i s hs := by
    rw [item?_clear] at hs
    split at hs
    · cases hs
    · exact h.holds i s hs

theorem hold (slot : Nat) : (inv.hold slot).Sound P := by
  refine ⟨h.shaped.hold slot, ?_, ?_, ?_⟩
  all_goals
    unfold Inventory.hold
    split
  exacts [h.one_le_limit, h.one_le_limit, h.amount_ne_zero, h.amount_ne_zero, h.holds, h.holds]

theorem setLimit (material : Text) (limit : UInt32) : (inv.setLimit material limit).Sound P where
  shaped := h.shaped.setLimit material limit
  one_le_limit entry hentry := by
    rcases Entries.mem_insert hentry with rfl | hentry
    · exact one_le_max limit
    · exact h.one_le_limit entry hentry
  amount_ne_zero := h.amount_ne_zero
  holds := h.holds

include hP

theorem setAmount (slot : Nat) (amount : UInt32) : (inv.setAmount slot amount).Sound P := by
  by_cases hzero : amount = 0
  · rw [Inventory.setAmount, if_pos hzero]
    exact h.clear slot
  · refine ⟨h.shaped.setAmount slot amount, ?_, fun i s hs => ?_, fun i s hs => ?_⟩
    · rw [limits_setAmount]
      exact h.one_le_limit
    · rw [item?_setAmount inv hzero] at hs
      split at hs
      · obtain ⟨t, -, rfl⟩ := Option.map_eq_some_iff.1 hs
        exact hzero
      · exact h.amount_ne_zero i s hs
    · rw [item?_setAmount inv hzero] at hs
      split at hs
      · obtain ⟨t, ht, rfl⟩ := Option.map_eq_some_iff.1 hs
        exact (hP t amount).2 (h.holds i t ht)
      · exact h.holds i s hs

theorem of_added {item : Stack} {units left : Nat} (hadded : inv.Added item units next left)
    (hitem : P item) : next.Sound P where
  shaped := ⟨hadded.length_slots_eq.trans h.shaped.length_slots,
    hadded.heldSlot_eq ▸ h.shaped.heldSlot_lt⟩
  one_le_limit := hadded.limits_eq ▸ h.one_le_limit
  amount_ne_zero i s hs := by
    rcases hadded.grows i with hkept | ⟨-, amount, hamount, -, hnew⟩
    · exact h.amount_ne_zero i s (hkept.symm.trans hs)
    · rw [hnew] at hs
      obtain rfl := Option.some.inj hs
      exact hamount
  holds i s hs := by
    rcases hadded.grows i with hkept | ⟨-, amount, -, -, hnew⟩
    · exact h.holds i s (hkept.symm.trans hs)
    · rw [hnew] at hs
      obtain rfl := Option.some.inj hs
      exact (hP item amount).2 hitem

theorem add {item : Stack} (hitem : P item) : (inv.add item).1.Sound P :=
  h.of_added hP (added_add h.shaped (limit_ne_zero h.one_le_limit item.material)) hitem

theorem distribute {item : Stack} (hitem : P item) (units : UInt32) :
    (inv.distribute item units).1.Sound P :=
  h.of_added hP (added_distribute h.shaped (limit_ne_zero h.one_le_limit item.material) units) hitem

theorem debit (marked : List Nat) (left : Nat) (order : List Nat) :
    (inv.debit marked left order).Sound P := by
  fun_induction Inventory.debit inv marked left order with
  | case1 => exact h
  | case2 => exact h
  | case3 _ _ _ _ _ _ _ ih => exact ih h
  | case4 => exact h.setAmount hP _ _
  | case5 _ _ _ _ _ _ _ _ _ ih => exact ih (h.clear _)
  | case6 _ _ _ _ _ _ ih => exact ih h

end Sound

variable {P : Stack → Prop} {inv : Inventory}

/-- What an edit puts in has the property. -/
def Edit.Puts (P : Stack → Prop) : Edit → Prop
  | .put _ stack => stack.isEmpty = false → P stack
  | .add stack => P stack
  | _ => True

theorem Sound.edit (h : inv.Sound P) (hP : IsOfItem P) {e : Edit} (he : e.Puts P) :
    (inv.edit e).Sound P := by
  cases e with
  | put slot stack => exact h.put he
  | add stack => exact h.add hP he
  | setAmount slot amount => exact h.setAmount hP slot amount
  | clear slot => exact h.clear slot
  | hold slot => exact h.hold slot
  | setLimit material limit => exact h.setLimit material limit

theorem exists_item? {s : Stack} (h : some s ∈ inv.slots) : ∃ slot, inv.item? slot = some s := by
  obtain ⟨slot, hslot⟩ := List.mem_iff_getElem?.1 h
  exact ⟨slot, by rw [item?, hslot]; rfl⟩

theorem isOfItem_ne_air : IsOfItem fun s => s.material ≠ air := fun _ _ => Iff.rfl

theorem Valid.sound (h : inv.Valid) : inv.Sound fun s => s.material ≠ air where
  shaped := h.shaped
  one_le_limit := h.one_le_limit
  amount_ne_zero _ s hs :=
    (Stack.isEmpty_eq_false_iff.1 (h.not_isEmpty s (mem_slots_of_item? hs))).1
  holds _ s hs :=
    (Stack.isEmpty_eq_false_iff.1 (h.not_isEmpty s (mem_slots_of_item? hs))).2

theorem Sound.valid (h : inv.Sound fun s => s.material ≠ air) : inv.Valid where
  length_slots := h.shaped.length_slots
  not_isEmpty s hs := by
    obtain ⟨slot, hslot⟩ := exists_item? hs
    exact Stack.isEmpty_eq_false_iff.2 ⟨h.amount_ne_zero slot s hslot, h.holds slot s hslot⟩
  heldSlot_lt := h.shaped.heldSlot_lt
  one_le_limit := h.one_le_limit

theorem Sound.weaken {Q : Stack → Prop} (h : inv.Sound P) (himp : ∀ s, P s → Q s) : inv.Sound Q :=
  { h with holds := fun slot s hs => himp s (h.holds slot s hs) }

end InventoryQuery.Inventory
