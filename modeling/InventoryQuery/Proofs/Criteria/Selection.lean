import InventoryQuery.Criteria.Removal
import InventoryQuery.Proofs.Criteria.Resolving
import InventoryQuery.Proofs.Inventory.Shape
/-!
# What criteria select from an inventory

The selected slots are the ones to search whose stacks match, and the tally is the sum of the
amounts there, unless air is asked for and there is some.  Whether a stack matches does not hang on
its amount, unless it is asked for an effect that the host reads off the amount.
-/

namespace InventoryQuery

theorem Stack.isEmpty_eq_false_iff {s : Stack} :
    s.isEmpty = false ↔ s.amount ≠ 0 ∧ s.material ≠ air := by
  simp only [Stack.isEmpty, Bool.or_eq_false_iff, beq_eq_false_iff_ne]

theorem Stack.isEmpty_withAmount {s : Stack} (hs : s.isEmpty = false) {amount : UInt32}
    (hamount : amount ≠ 0) : (s.withAmount amount).isEmpty = false := by
  rw [Stack.isEmpty_eq_false_iff] at hs ⊢
  exact ⟨hamount, hs.2⟩

namespace Criteria

variable {c : Criteria} {host : Host} {inv : Inventory}

section

variable (hreads : c.asksPotion = true → host.potions.IgnoresAmount)

include hreads

/-- What is asked of the effect on a stack holds whatever the amount is. -/
theorem acceptsPotion_withAmount (s : Stack) (amount : UInt32) :
    c.acceptsPotion (host.potions.read? (s.withAmount amount)) =
      c.acceptsPotion (host.potions.read? s) := by
  cases hasks : c.asksPotion with
  | true => rw [hreads hasks s amount]
  | false => rw [acceptsPotion, acceptsPotion, hasks, Bool.not_false, Bool.true_or, Bool.true_or]

theorem matchesStack_withAmount (s : Stack) (amount : UInt32) :
    c.matchesStack host (s.withAmount amount) = c.matchesStack host s := by
  rw [matchesStack, acceptsPotion_withAmount hreads]
  rfl

end

/-- Whether a slot holds a stack that matches. -/
def accepts (c : Criteria) (host : Host) (inv : Inventory) (slot : Nat) : Bool :=
  (inv.item? slot).any fun stack => !stack.isEmpty && c.matchesStack host stack

/-- The slots to search whose stacks match. -/
def matchedSlots (c : Criteria) (host : Host) (inv : Inventory) : List Nat :=
  (c.slotsToSearch inv).filter (c.accepts host inv)

theorem accepts_iff {slot : Nat} : c.accepts host inv slot = true ↔
    ∃ stack, inv.item? slot = some stack ∧ stack.isEmpty = false ∧
      c.matchesStack host stack = true := by
  simp only [accepts, Option.any_eq_true, Bool.and_eq_true, Bool.not_eq_true']

theorem accepts_congr {next : Inventory} {slot : Nat} (h : next.item? slot = inv.item? slot) :
    c.accepts host next slot = c.accepts host inv slot := by
  unfold accepts
  rw [h]

/-- What the hits among some slots come to: their slots, and the sum of their amounts. -/
theorem hits_slots (c : Criteria) (host : Host) (inv : Inventory) (slots : List Nat) :
    (c.hits host (slots.map fun slot => (slot, inv.item? slot))).map Prod.fst =
        slots.filter (c.accepts host inv) ∧
      Stack.total ((c.hits host (slots.map fun slot => (slot, inv.item? slot))).map Prod.snd) =
        inv.amountIn (slots.filter (c.accepts host inv)) := by
  induction slots with
  | nil => exact ⟨rfl, rfl⟩
  | cons slot slots ih =>
    obtain ⟨hslots, htotal⟩ := ih
    unfold hits at hslots htotal ⊢
    rw [List.map_cons, List.filterMap_cons]
    cases haccepts : c.accepts host inv slot with
    | true =>
      obtain ⟨stack, hitem, hempty, hmatch⟩ := accepts_iff.1 haccepts
      simp only [hitem, hempty, hmatch, Option.filter_some, Bool.not_false, Bool.and_self, if_true,
        Option.map_some, List.map_cons, hslots, htotal, List.filter_cons_of_pos haccepts,
        Stack.total, Inventory.amountIn_cons, Inventory.amountAt_of_item? hitem, and_self]
    | false =>
      have hmiss : (inv.item? slot).filter
          (fun stack => !stack.isEmpty && c.matchesStack host stack) = none := by
        rw [Option.filter_eq_none_iff]
        intro stack hitem hstack
        rw [accepts, hitem, Option.any_some] at haccepts
        exact absurd (haccepts.symm.trans hstack) Bool.false_ne_true
      have hfilter : ¬c.accepts host inv slot = true := by simp [haccepts]
      simp only [hmiss, Option.map_none, List.filter_cons_of_neg hfilter]
      exact ⟨hslots, htotal⟩

theorem length_slotsToSearch_le (c : Criteria) (inv : Inventory) :
    (c.slotsToSearch inv).length ≤ Inventory.size := by
  unfold slotsToSearch
  split
  · exact Nat.le_of_ble_eq_true rfl
  · exact Nat.le_of_ble_eq_true rfl
  · exact Nat.le_of_ble_eq_true rfl
  · split
    · exact Nat.le_of_ble_eq_true rfl
    · exact Nat.le_of_eq List.length_range

theorem length_offers_le (c : Criteria) (inv : Inventory) : (c.offers inv).length ≤ UInt32.size := by
  rw [offers, List.length_map]
  exact Nat.le_trans (c.length_slotsToSearch_le inv) (by decide)

theorem select_eq (c : Criteria) (host : Host) (inv : Inventory) :
    c.select host inv =
      if c.asksAir ∧ (c.offers inv).any isVacant then ⟨[], .unbounded⟩
      else ⟨c.matchedSlots host inv, .count (inv.amountIn (c.matchedSlots host inv))⟩ := by
  obtain ⟨hslots, htotal⟩ := hits_slots c host inv (c.slotsToSearch inv)
  rw [select, resolve_eq_of_length_le c host _ (c.length_offers_le inv), matchedSlots, ← htotal,
    ← hslots]
  rfl

/-- The same is selected for taking away. -/
theorem select_removing (c : Criteria) (host : Host) (inv : Inventory) :
    c.removing.select host inv = c.select host inv := by
  rw [select_eq, select_eq]
  rfl

theorem select_of_tally_count {n : Nat} (h : (c.select host inv).tally = .count n) :
    c.select host inv = ⟨c.matchedSlots host inv, .count n⟩ ∧
      inv.amountIn (c.matchedSlots host inv) = n := by
  rw [select_eq] at h ⊢
  split at h
  · cases h
  · next hair =>
    obtain rfl := Tally.count.inj h
    rw [if_neg hair]
    exact ⟨rfl, rfl⟩

theorem select_of_not_asksAir (hair : c.asksAir = false) :
    c.select host inv = ⟨c.matchedSlots host inv, .count (inv.amountIn (c.matchedSlots host inv))⟩ := by
  rw [select_eq, hair]
  rfl

theorem asksAir_eq_false (h : c.material ≠ some air) : c.asksAir = false := by
  simpa only [asksAir, beq_eq_false_iff_ne] using h

/-- There is an end to everything but air. -/
theorem tally_select_of_material_ne (c : Criteria) (host : Host) (inv : Inventory)
    (h : c.material ≠ some air) :
    (c.select host inv).tally = .count (inv.amountIn (c.matchedSlots host inv)) := by
  rw [select_of_not_asksAir (asksAir_eq_false h)]

/-- Only air matches where air is asked for. -/
theorem material_eq_air_of_asksAir (hair : c.asksAir = true) {stack : Stack}
    (hmatch : c.matchesStack host stack = true) : stack.material = air := by
  have hmaterial : c.material = some air := by simpa only [asksAir, beq_iff_eq] using hair
  simp only [matchesStack, acceptsMaterial, hmaterial, Option.all_some, Bool.and_eq_true,
    beq_iff_eq] at hmatch
  exact hmatch.1.1.1.1.1.1.1.symm

/-- No stack matches where air is asked for. -/
theorem matchedSlots_of_asksAir (hair : c.asksAir = true) : c.matchedSlots host inv = [] := by
  rw [matchedSlots, List.filter_eq_nil_iff]
  intro slot _ haccepts
  obtain ⟨stack, -, hempty, hmatch⟩ := accepts_iff.1 haccepts
  exact (Stack.isEmpty_eq_false_iff.1 hempty).2 (material_eq_air_of_asksAir hair hmatch)

theorem nodup_slotsToSearch (hinv : inv.Shaped) : (c.slotsToSearch inv).Nodup := by
  have hheld : inv.heldSlot ≠ Inventory.offHandSlot := by
    have hlt := hinv.heldSlot_lt
    simp only [Inventory.hotbarSize, Inventory.offHandSlot] at hlt ⊢
    omega
  unfold slotsToSearch
  split
  · simpa using hheld
  · exact List.pairwise_singleton _ _
  · exact List.pairwise_singleton _ _
  · split
    · exact List.pairwise_singleton _ _
    · exact List.nodup_range

theorem nodup_matchedSlots (hinv : inv.Shaped) : (c.matchedSlots host inv).Nodup :=
  (nodup_slotsToSearch hinv).filter _

theorem lt_size_of_mem_matchedSlots (hinv : inv.Shaped) {slot : Nat}
    (hslot : slot ∈ c.matchedSlots host inv) : slot < Inventory.size := by
  obtain ⟨stack, hitem, -⟩ := accepts_iff.1 (List.mem_filter.1 hslot).2
  exact hinv.lt_size_of_item? hitem

theorem slotsToSearch_congr {next : Inventory} (h : next.heldSlot = inv.heldSlot) :
    c.slotsToSearch next = c.slotsToSearch inv := by
  unfold slotsToSearch
  rw [h]

end Criteria

end InventoryQuery
