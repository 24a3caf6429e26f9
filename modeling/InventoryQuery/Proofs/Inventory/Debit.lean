import InventoryQuery.Criteria.Removal
import InventoryQuery.Proofs.Inventory.Slots
/-!
# Debiting slots in order

An amount is taken out of marked slots one after another.  The slots before the point where it is
reached are cleared, the slot at that point may be reduced, and everything else is kept; together
they lose the amount exactly.
-/

namespace InventoryQuery.Inventory

/-- A slot keeps its stack but for a smaller amount, which is not zero. -/
def IsReduced (inv next : Inventory) (slot : Nat) : Prop :=
  ∃ stack amount, inv.item? slot = some stack ∧ 0 < amount ∧ amount < stack.amount ∧
    next.item? slot = some (stack.withAmount amount)

/-- The marked ones of the slots in `order` are first cleared, then one of them at most is reduced,
and the others are kept. -/
def SplitsAlong (inv next : Inventory) (order marked : List Nat) : Prop :=
  ∃ cleared reduced kept, (order.filter fun slot => slot ∈ marked) = cleared ++ reduced ++ kept ∧
    reduced.length ≤ 1 ∧ (∀ slot ∈ cleared, next.item? slot = none) ∧
    (∀ slot ∈ reduced, inv.IsReduced next slot) ∧
    ∀ slot ∈ kept, next.item? slot = inv.item? slot

/-- What is left of an inventory when an amount was taken out of the marked slots, in the order of
debits, and nothing else was changed. -/
structure Debited (inv next : Inventory) (marked : List Nat) (amount : Nat) : Prop where
  total : next.amountIn marked + amount = inv.amountIn marked
  frame : ∀ slot, slot ∉ marked → next.item? slot = inv.item? slot
  splits : inv.SplitsAlong next ([36, 37, 38, 39, 40] ++ List.range 36) marked
  heldSlot_eq : next.heldSlot = inv.heldSlot
  limits_eq : next.limits = inv.limits
  length_slots_eq : next.slots.length = inv.slots.length

variable {inv : Inventory} {marked order : List Nat} {left : Nat}

/-! ## The amount that stays in a reduced slot -/

theorem toNat_sub_ofNat {amount : UInt32} (hleft : left < amount.toNat) :
    (amount - UInt32.ofNat left).toNat = amount.toNat - left := by
  have hsize : left < 2 ^ 32 := Nat.lt_trans hleft amount.toNat_lt
  have hofNat : (UInt32.ofNat left).toNat = left := by
    rw [UInt32.toNat_ofNat', Nat.mod_eq_of_lt hsize]
  rw [UInt32.toNat_sub_of_le _ _ (UInt32.le_iff_toNat_le.2 (by omega)), hofNat]

theorem sub_ofNat_ne_zero {amount : UInt32} (hleft : left < amount.toNat) :
    amount - UInt32.ofNat left ≠ 0 := by
  intro hzero
  have htoNat := toNat_sub_ofNat hleft
  rw [hzero, UInt32.toNat_zero] at htoNat
  omega

/-! ## The marked slots of an order -/

theorem filter_cons_marked {first : Nat} (hfirst : first ∈ marked) :
    ((first :: order).filter fun slot => slot ∈ marked) =
      first :: order.filter fun slot => slot ∈ marked :=
  List.filter_cons_of_pos (decide_eq_true hfirst)

theorem filter_cons_unmarked {first : Nat} (hfirst : first ∉ marked) :
    ((first :: order).filter fun slot => slot ∈ marked) =
      order.filter fun slot => slot ∈ marked :=
  List.filter_cons_of_neg (by simpa using hfirst)

theorem notMem_filter_marked {first : Nat} (hfirst : first ∉ order) :
    first ∉ order.filter fun slot => slot ∈ marked :=
  fun hmem => hfirst (List.mem_filter.1 hmem).1

/-! ## The loop -/

theorem heldSlot_debit (inv : Inventory) (marked : List Nat) (left : Nat) (order : List Nat) :
    (inv.debit marked left order).heldSlot = inv.heldSlot := by
  fun_induction debit inv marked left order <;> simp_all

theorem limits_debit (inv : Inventory) (marked : List Nat) (left : Nat) (order : List Nat) :
    (inv.debit marked left order).limits = inv.limits := by
  fun_induction debit inv marked left order <;> simp_all

theorem length_slots_debit (inv : Inventory) (marked : List Nat) (left : Nat)
    (order : List Nat) : (inv.debit marked left order).slots.length = inv.slots.length := by
  fun_induction debit inv marked left order <;> simp_all

@[simp] theorem debit_zero (inv : Inventory) (marked order : List Nat) :
    inv.debit marked 0 order = inv := by
  cases order with
  | nil => rfl
  | cons slot order => rw [debit, if_pos rfl]

theorem item?_debit_of_notMem {slot : Nat} (h : slot ∈ marked → slot ∉ order) :
    (inv.debit marked left order).item? slot = inv.item? slot := by
  fun_induction debit inv marked left order with
  | case1 => rfl
  | case2 => rfl
  | case3 inv left first order _ _ _ ih =>
    exact ih fun hmarked hmem => h hmarked (List.mem_cons_of_mem _ hmem)
  | case4 inv left first order _ hfirst stack _ hlt =>
    have hne : first ≠ slot := fun heq => h (heq ▸ hfirst) (heq ▸ List.mem_cons_self)
    rw [item?_setAmount _ (sub_ofNat_ne_zero hlt), if_neg hne]
  | case5 inv left first order _ hfirst stack _ _ ih =>
    have hne : first ≠ slot := fun heq => h (heq ▸ hfirst) (heq ▸ List.mem_cons_self)
    rw [ih fun hmarked hmem => h hmarked (List.mem_cons_of_mem _ hmem),
      item?_clear_of_ne _ hne]
  | case6 inv left first order _ _ ih =>
    exact ih fun hmarked hmem => h hmarked (List.mem_cons_of_mem _ hmem)

theorem item?_debit_head {first : Nat} (hfirst : first ∉ order) :
    (inv.debit marked left order).item? first = inv.item? first :=
  item?_debit_of_notMem fun _ => hfirst

theorem amountIn_setAmount_of_notMem {slot : Nat} {slots : List Nat} (hslot : slot ∉ slots)
    {amount : UInt32} (hamount : amount ≠ 0) :
    (inv.setAmount slot amount).amountIn slots = inv.amountIn slots := by
  apply amountIn_congr
  intro i hi
  rw [item?_setAmount _ hamount, if_neg (ne_of_mem_of_not_mem hi hslot).symm]

theorem amountIn_clear_of_notMem {slot : Nat} {slots : List Nat} (hslot : slot ∉ slots) :
    (inv.clear slot).amountIn slots = inv.amountIn slots := by
  apply amountIn_congr
  intro i hi
  exact item?_clear_of_ne _ (ne_of_mem_of_not_mem hi hslot).symm

/-- The marked slots lose what is to be taken, if they hold that much. -/
theorem amountIn_debit (hnodup : order.Nodup)
    (hleft : left ≤ inv.amountIn (order.filter fun slot => slot ∈ marked)) :
    (inv.debit marked left order).amountIn (order.filter fun slot => slot ∈ marked) + left =
      inv.amountIn (order.filter fun slot => slot ∈ marked) := by
  fun_induction debit inv marked left order with
  | case1 => simpa using hleft
  | case2 => rfl
  | case3 inv left first order _ hfirst hitem ih =>
    obtain ⟨hnotMem, hnodup⟩ := List.nodup_cons.1 hnodup
    have hvacant : (inv.debit marked left order).item? first = none :=
      (item?_debit_head hnotMem).trans hitem
    rw [filter_cons_marked hfirst, amountIn_cons,
      amountAt_of_vacant hitem, Nat.zero_add] at hleft
    rw [filter_cons_marked hfirst, amountIn_cons, amountIn_cons,
      amountAt_of_vacant hitem, amountAt_of_vacant hvacant, Nat.zero_add, Nat.zero_add]
    exact ih hnodup hleft
  | case4 inv left first order _ hfirst stack hitem hlt =>
    obtain ⟨hnotMem, -⟩ := List.nodup_cons.1 hnodup
    have hrest : first ∉ order.filter fun slot => slot ∈ marked := notMem_filter_marked hnotMem
    have hne := sub_ofNat_ne_zero hlt
    have hreduced : (inv.setAmount first (stack.amount - UInt32.ofNat left)).item? first =
        some (stack.withAmount (stack.amount - UInt32.ofNat left)) := by
      rw [item?_setAmount _ hne, if_pos rfl, hitem]
      rfl
    rw [filter_cons_marked hfirst, amountIn_cons, amountIn_cons,
      amountIn_setAmount_of_notMem hrest hne, amountAt_of_item? hreduced, amountAt_of_item? hitem,
      Stack.amount_withAmount, toNat_sub_ofNat hlt]
    omega
  | case5 inv left first order _ hfirst stack hitem hle ih =>
    obtain ⟨hnotMem, hnodup⟩ := List.nodup_cons.1 hnodup
    have hrest : first ∉ order.filter fun slot => slot ∈ marked := notMem_filter_marked hnotMem
    have hcleared : ((inv.clear first).debit marked (left - stack.amount.toNat) order).item? first =
        none :=
      (item?_debit_head hnotMem).trans (inv.item?_clear_self first)
    rw [filter_cons_marked hfirst, amountIn_cons,
      amountAt_of_item? hitem] at hleft
    rw [filter_cons_marked hfirst, amountIn_cons, amountIn_cons,
      amountAt_of_vacant hcleared, amountAt_of_item? hitem]
    -- No slot comes twice, so clearing this one leaves the sum over those behind it.
    have hsum : (inv.clear first).amountIn (order.filter fun slot => slot ∈ marked) =
        inv.amountIn (order.filter fun slot => slot ∈ marked) := amountIn_clear_of_notMem hrest
    have hih := ih hnodup (by omega)
    omega
  | case6 inv left first order _ hfirst ih =>
    obtain ⟨-, hnodup⟩ := List.nodup_cons.1 hnodup
    rw [filter_cons_unmarked hfirst] at hleft ⊢
    exact ih hnodup hleft

namespace SplitsAlong

variable {start next : Inventory} {first : Nat}

theorem skip (h : inv.SplitsAlong next order marked) (hfirst : first ∉ marked) :
    inv.SplitsAlong next (first :: order) marked := by
  unfold SplitsAlong at h ⊢
  rwa [filter_cons_unmarked hfirst]

/-- A cleared slot in front, if the slots behind it were the same to begin with. -/
theorem cons (h : start.SplitsAlong next order marked)
    (hstart : ∀ slot ∈ order, start.item? slot = inv.item? slot) (hfirst : first ∈ marked)
    (hcleared : next.item? first = none) : inv.SplitsAlong next (first :: order) marked := by
  obtain ⟨cleared, reduced, kept, hfilter, hlength, hnone, hless, hsame⟩ := h
  have hmem : ∀ slot ∈ cleared ++ reduced ++ kept, start.item? slot = inv.item? slot :=
    fun slot hslot => hstart slot (List.mem_filter.1 (hfilter ▸ hslot)).1
  refine ⟨first :: cleared, reduced, kept, ?_, hlength, ?_, ?_, ?_⟩
  · rw [filter_cons_marked hfirst, hfilter]
    rfl
  · exact List.forall_mem_cons.2 ⟨hcleared, hnone⟩
  · intro slot hslot
    obtain ⟨stack, amount, hitem, hrest⟩ := hless slot hslot
    rw [hmem slot (List.mem_append_left _ (List.mem_append_right _ hslot))] at hitem
    exact ⟨stack, amount, hitem, hrest⟩
  · intro slot hslot
    rw [hsame slot hslot, hmem slot (List.mem_append_right _ hslot)]

end SplitsAlong

theorem splitsAlong_debit (hnodup : order.Nodup) :
    inv.SplitsAlong (inv.debit marked left order) order marked := by
  fun_induction debit inv marked left order with
  | case1 => exact ⟨[], [], [], rfl, Nat.zero_le 1, by simp, by simp, by simp⟩
  | case2 => exact ⟨[], [], _, rfl, Nat.zero_le 1, by simp, by simp, fun _ _ => rfl⟩
  | case3 inv left first order _ hfirst hitem ih =>
    obtain ⟨hnotMem, hnodup⟩ := List.nodup_cons.1 hnodup
    exact (ih hnodup).cons (fun _ _ => rfl) hfirst ((item?_debit_head hnotMem).trans hitem)
  | case4 inv left first order hzero hfirst stack hitem hlt =>
    obtain ⟨hnotMem, -⟩ := List.nodup_cons.1 hnodup
    have hne := sub_ofNat_ne_zero hlt
    -- The amount is reached in this slot, so all those behind it are kept.
    refine ⟨[], [first], order.filter fun slot => slot ∈ marked, ?_, Nat.le_refl 1, by simp, ?_, ?_⟩
    · rw [filter_cons_marked hfirst, List.nil_append, List.singleton_append]
    · intro slot hslot
      obtain rfl := List.mem_singleton.1 hslot
      refine ⟨stack, _, hitem, UInt32.pos_iff_ne_zero.2 hne, ?_, ?_⟩
      · rw [UInt32.lt_iff_toNat_lt, toNat_sub_ofNat hlt]
        omega
      · rw [item?_setAmount _ hne, if_pos rfl, hitem]
        rfl
    · intro slot hslot
      have hmem : slot ∈ order := (List.mem_filter.1 hslot).1
      rw [item?_setAmount _ hne, if_neg (ne_of_mem_of_not_mem hmem hnotMem).symm]
  | case5 inv left first order _ hfirst stack hitem hle ih =>
    obtain ⟨hnotMem, hnodup⟩ := List.nodup_cons.1 hnodup
    refine (ih hnodup).cons (fun slot hslot => ?_) hfirst
      ((item?_debit_head hnotMem).trans (inv.item?_clear_self first))
    exact item?_clear_of_ne _ (ne_of_mem_of_not_mem hslot hnotMem).symm
  | case6 inv left first order _ hfirst ih =>
    exact (ih (List.nodup_cons.1 hnodup).2).skip hfirst

/-! ## The order of debits -/

theorem debitOrder_eq : debitOrder = [36, 37, 38, 39, 40] ++ List.range 36 := by decide

theorem nodup_debitOrder : debitOrder.Nodup := by decide

theorem mem_debitOrder_iff {slot : Nat} : slot ∈ debitOrder ↔ slot < size := by
  rw [debitOrder_eq, List.mem_append, List.mem_range]
  simp only [List.mem_cons, List.not_mem_nil, or_false, size]
  omega

theorem filter_debitOrder_perm (hmarked : marked.Nodup) (hsize : ∀ slot ∈ marked, slot < size) :
    (debitOrder.filter fun slot => slot ∈ marked).Perm marked := by
  rw [List.perm_ext_iff_of_nodup (nodup_debitOrder.filter _) hmarked]
  intro slot
  rw [List.mem_filter, mem_debitOrder_iff, decide_eq_true_eq]
  exact ⟨fun h => h.2, fun h => ⟨hsize slot h, h⟩⟩

/-- Debiting along all slots takes the amount out of the marked ones and changes nothing else. -/
theorem debited_debit (hmarked : marked.Nodup) (hsize : ∀ slot ∈ marked, slot < size)
    (hleft : left ≤ inv.amountIn marked) :
    inv.Debited (inv.debit marked left debitOrder) marked left := by
  have hperm := filter_debitOrder_perm hmarked hsize
  have htotal := amountIn_debit nodup_debitOrder ((amountIn_perm hperm).symm ▸ hleft)
  rw [amountIn_perm hperm, amountIn_perm hperm] at htotal
  exact
    { total := htotal
      frame := fun slot hslot => item?_debit_of_notMem fun hmem => absurd hmem hslot
      splits := debitOrder_eq ▸ splitsAlong_debit nodup_debitOrder
      heldSlot_eq := heldSlot_debit _ _ _ _
      limits_eq := limits_debit _ _ _ _
      length_slots_eq := length_slots_debit _ _ _ _ }

/-- Where everything was taken out of occupied slots, they are vacant. -/
theorem Debited.item?_eq_none {next : Inventory} {amount slot : Nat}
    (h : inv.Debited next marked amount) (hall : amount = inv.amountIn marked)
    (hslot : slot ∈ marked) (hsize : slot < size) (hpos : inv.amountAt slot ≠ 0) :
    next.item? slot = none := by
  have htotal := h.total
  have hnext : next.amountAt slot = 0 := amountAt_eq_zero_of_amountIn (by omega) hslot
  obtain ⟨cleared, reduced, kept, hfilter, -, hnone, hless, hsame⟩ := h.splits
  have hmem : slot ∈ cleared ++ reduced ++ kept := by
    rw [← hfilter, List.mem_filter, ← debitOrder_eq, mem_debitOrder_iff]
    exact ⟨hsize, decide_eq_true hslot⟩
  rcases List.mem_append.1 hmem with hmem | hkept
  · rcases List.mem_append.1 hmem with hcleared | hreduced
    · exact hnone slot hcleared
    · obtain ⟨stack, left, -, hleft, -, hitem⟩ := hless slot hreduced
      rw [amountAt_of_item? hitem, Stack.amount_withAmount] at hnext
      exact absurd (UInt32.toNat_inj.1 hnext) (UInt32.pos_iff_ne_zero.1 hleft)
  · rw [amountAt, hsame slot hkept] at hnext
    exact absurd hnext hpos

end InventoryQuery.Inventory
