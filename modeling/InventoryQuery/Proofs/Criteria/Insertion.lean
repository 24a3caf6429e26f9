import InventoryQuery.Proofs.Criteria.Selection
import InventoryQuery.Proofs.Inventory.Debit
import InventoryQuery.Proofs.Inventory.Insertion
import InventoryQuery.Proofs.Inventory.Soundness
/-!
# Selecting what was added

Stacks of the same item match alike, as long as the host does not read effects off the amount.  Over
a whole inventory, criteria select the amount of the stacks that match, so what is added is selected
exactly if its item matches.
-/

namespace InventoryQuery

open Inventory (IsKind amountOf)

namespace Criteria

variable {c : Criteria} {host : Host} {inv : Inventory}

/-- The stacks that criteria select, as long as there is something of them. -/
def wants (c : Criteria) (host : Host) (s : Stack) : Bool :=
  s.material != air && c.matchesStack host s

section

variable (hreads : c.asksPotion = true → host.potions.IgnoresAmount)

include hreads

theorem matchesStack_of_isSimilar {s t : Stack} (h : s.isSimilar t = true) :
    c.matchesStack host s = c.matchesStack host t := by
  rw [Stack.isSimilar_iff.1 h, matchesStack_withAmount hreads]

theorem isKind_wants : IsKind (c.wants host) := by
  intro s t h
  have hmaterial : s.material = t.material := by
    rw [Stack.isSimilar_iff.1 h]
    rfl
  rw [wants, wants, hmaterial, matchesStack_of_isSimilar hreads h]

end

theorem amountIn_filter_accepts (c : Criteria) (host : Host) (inv : Inventory) (slots : List Nat) :
    inv.amountIn (slots.filter (c.accepts host inv)) =
      (slots.map fun slot => amountOf (c.wants host) (inv.item? slot)).sum := by
  induction slots with
  | nil => rfl
  | cons slot slots ih =>
    rw [List.map_cons, List.sum_cons, ← ih]
    cases haccepts : c.accepts host inv slot with
    | true =>
      obtain ⟨stack, hitem, hempty, hmatch⟩ := accepts_iff.1 haccepts
      have hwants : c.wants host stack = true := by
        rw [wants, hmatch, Bool.and_true, bne_iff_ne]
        exact (Stack.isEmpty_eq_false_iff.1 hempty).2
      rw [List.filter_cons_of_pos haccepts, Inventory.amountIn_cons,
        Inventory.amountAt_of_item? hitem, hitem, amountOf, if_pos hwants]
    | false =>
      have hmiss : amountOf (c.wants host) (inv.item? slot) = 0 := by
        cases hitem : inv.item? slot with
        | none => rfl
        | some stack =>
          rw [accepts, hitem, Option.any_some] at haccepts
          rw [amountOf, ite_eq_right_iff, wants, Bool.and_eq_true, bne_iff_ne]
          rintro ⟨hair, hmatch⟩
          rw [hmatch, Bool.and_true, Bool.not_eq_false', Stack.isEmpty, Bool.or_eq_true, beq_iff_eq,
            beq_iff_eq] at haccepts
          rw [haccepts.resolve_right hair, UInt32.toNat_zero]
      rw [List.filter_cons_of_neg (Bool.eq_false_iff.1 haccepts), hmiss, Nat.zero_add]

/-- The criteria look at all slots. -/
def SearchesAll (c : Criteria) : Prop := c.mainHand = false ∧ c.offHand = false ∧ c.slot = none

theorem slotsToSearch_of_searchesAll (h : c.SearchesAll) (inv : Inventory) :
    c.slotsToSearch inv = List.range Inventory.size := by
  obtain ⟨hmain, hoff, hslot⟩ := h
  simp only [slotsToSearch, hmain, hoff, hslot]

/-- Over all slots, what is selected is the amount of the stacks that match. -/
theorem amountIn_matchedSlots_eq_held (hinv : inv.Shaped) (h : c.SearchesAll) :
    inv.amountIn (c.matchedSlots host inv) = inv.held (c.wants host) := by
  have hcells : (List.range Inventory.size).map inv.item? = inv.slots := by
    apply List.ext_getElem
    · rw [List.length_map, List.length_range, hinv.length_slots]
    · intro i _ hi
      rw [List.getElem_map, List.getElem_range, Inventory.item?, List.getElem?_eq_getElem hi]
      rfl
  rw [matchedSlots, slotsToSearch_of_searchesAll h, amountIn_filter_accepts, Inventory.held,
    ← hcells, List.map_map]
  rfl

theorem held_wants_eq_zero
    (hnone : ∀ stack, some stack ∈ inv.slots → c.matchesStack host stack = false) :
    inv.held (c.wants host) = 0 := by
  rw [Inventory.held, List.sum_eq_zero_iff_forall_eq_nat, List.forall_mem_map]
  intro cell hcell
  cases cell with
  | none => rfl
  | some stack =>
    have hwants : ¬c.wants host stack = true := by
      rw [wants, hnone stack hcell, Bool.and_false]
      exact Bool.false_ne_true
    exact if_neg hwants

/-! ## Counting what was added -/

/-- Where there is an end to what is asked for, criteria over all slots count the amount of the
stacks that match. -/
theorem tally_select_eq_held (hinv : inv.Shaped) (h : c.SearchesAll)
    (hair : c.material ≠ some air) :
    (c.select host inv).tally = .count (inv.held (c.wants host)) := by
  rw [tally_select_of_material_ne c host inv hair, amountIn_matchedSlots_eq_held hinv h]

theorem wants_of_isEmpty_eq_false {stack : Stack} (h : stack.isEmpty = false) :
    c.wants host stack = c.matchesStack host stack := by
  rw [wants, bne_iff_ne.2 (Stack.isEmpty_eq_false_iff.1 h).2, Bool.true_and]

/-- Adding a stack raises what criteria over all slots count by what of it was put in, if it
matches, and does not change it otherwise, as long as the host does not read off the amount what
they ask for. -/
theorem tally_select_add (c : Criteria) (host : Host)
    (hreads : c.asksPotion = true → host.potions.IgnoresAmount) {inv next : Inventory}
    {stack : Stack} {left : UInt32} (hinv : inv.Shaped)
    (hlimits : ∀ entry ∈ inv.limits.entries, 1 ≤ entry.2) (hstack : stack.isEmpty = false)
    (hall : c.SearchesAll) (hair : c.material ≠ some air) (hadd : inv.add stack = (next, left)) :
    ∃ n, (c.select host inv).tally = .count n ∧ left ≤ stack.amount ∧
      (c.select host next).tally =
        .count (if c.matchesStack host stack = true then n + stack.amount.toNat - left.toNat
          else n) := by
  have hadded : inv.Added stack stack.amount.toNat (inv.add stack).1 (inv.add stack).2.toNat :=
    Inventory.added_add hinv (Inventory.limit_ne_zero hlimits stack.material)
  have hnext := hinv.add stack
  simp only [hadd] at hadded hnext
  refine ⟨_, tally_select_eq_held hinv hall hair, UInt32.le_iff_toNat_le.2 hadded.left_le, ?_⟩
  have hheld := hadded.held_eq (c.wants host) (isKind_wants hreads)
  rw [wants_of_isEmpty_eq_false hstack] at hheld
  rw [tally_select_eq_held hnext hall hair]
  congr 1
  split
  · next hmatch =>
    rw [if_pos hmatch, if_pos hmatch] at hheld
    omega
  · next hmatch =>
    rwa [if_neg hmatch, if_neg hmatch] at hheld

/-- Potions that do not all fit, where sixteen of them go into a slot: the count grows by what
did. -/
theorem tally_select_add_swiftness :
    let c : Criteria := { potionKind := some "SWIFTNESS".toList, strict := true }
    let host : Host := ⟨.component, true⟩
    let stack := (host.potions.write (.plain "POTION".toList 600) ⟨"SWIFTNESS".toList, true, false⟩).2
    let inv := (Inventory.scattered.setLimit "POTION".toList 16).put 39 (stack.withAmount 11)
    c.asksPotion = true ∧ host.potions.IgnoresAmount ∧ (inv.add stack).2 = 40 ∧
      c.matchesStack host stack = true ∧ (c.select host inv).tally = .count 11 ∧
      (c.select host (inv.add stack).1).tally = .count 571 := by
  intro c host stack inv
  have hreads : host.potions.IgnoresAmount := PotionStore.isBuiltIn_component.ignoresAmount
  have hleft : (inv.add stack).2 = 40 := by decide +kernel
  have hmatch : c.matchesStack host stack = true := by decide
  have htally : (c.select host inv).tally = .count 11 := by decide
  have hinv : inv.Shaped := (Inventory.shaped_scattered.setLimit "POTION".toList 16).put _ _
  have hlimits : ∀ entry ∈ inv.limits.entries, 1 ≤ entry.2 := by decide
  have hstack : stack.isEmpty = false := by decide
  have hadd : inv.add stack = ((inv.add stack).1, (inv.add stack).2) := Prod.mk.eta.symm
  obtain ⟨n, hn, -, hnext⟩ := tally_select_add c host (fun _ => hreads) hinv hlimits hstack
    ⟨rfl, rfl, rfl⟩ (by decide) hadd
  obtain rfl := Tally.count.inj (htally.symm.trans hn)
  rw [hleft, if_pos hmatch] at hnext
  exact ⟨rfl, hreads, hleft, hmatch, htally, hnext⟩

/-- Where a host reads the effect off the amount, adding to a stack may change it: with five more,
five that match are ten that do not. -/
example :
    let c : Criteria := { potionKind := some "5".toList }
    let host : Host :=
      ⟨⟨fun s => some ⟨Numeral.digits s.amount.toNat, false, false⟩, fun s _ => (false, s)⟩, false⟩
    let stack := Stack.plain "POTION".toList 5
    let inv := Inventory.empty.put 0 stack
    (inv.add stack).2 = 0 ∧ c.matchesStack host stack = true ∧
      (c.select host inv).tally = .count 5 ∧
      (c.select host (inv.add stack).1).tally = .count 0 := by
  decide

/-! ## Taking what was added -/

section

variable {item : Stack} {units : Nat} {given next : Inventory}

/-- An item that matches was added where nothing matched. -/
structure AddedAlone (c : Criteria) (host : Host) (inv : Inventory) (item : Stack) (units : Nat)
    (given : Inventory) : Prop where
  reads : c.asksPotion = true → host.potions.IgnoresAmount
  shaped : inv.Shaped
  searchesAll : c.SearchesAll
  matches_item : c.matchesStack host item = true
  material_ne_air : item.material ≠ air
  matches_none : ∀ stack, some stack ∈ inv.slots → c.matchesStack host stack = false
  added : inv.Added item units given 0

namespace AddedAlone

variable (h : c.AddedAlone host inv item units given)

include h

theorem shaped_given : given.Shaped :=
  ⟨h.added.length_slots_eq.trans h.shaped.length_slots,
    h.added.heldSlot_eq.symm ▸ h.shaped.heldSlot_lt⟩

/-- What was added is what is selected. -/
theorem amountIn_matchedSlots : given.amountIn (c.matchedSlots host given) = units := by
  have hwants : c.wants host item = true := by
    rw [wants, h.matches_item, Bool.and_true, bne_iff_ne]
    exact h.material_ne_air
  have hheld := h.added.held_eq (c.wants host) (isKind_wants h.reads)
  rw [held_wants_eq_zero h.matches_none, if_pos hwants, if_pos hwants] at hheld
  rw [amountIn_matchedSlots_eq_held h.shaped_given h.searchesAll]
  omega

theorem matchesStack_of_item? {slot : Nat} {stack : Stack} (hitem : inv.item? slot = some stack) :
    c.matchesStack host stack = false :=
  h.matches_none stack (Inventory.mem_slots_of_item? hitem)

/-- The slots that are selected were vacant. -/
theorem item?_eq_none {slot : Nat} (hslot : slot ∈ c.matchedSlots host given) :
    inv.item? slot = none := by
  obtain ⟨stack, hitem, -, hmatch⟩ := accepts_iff.1 (List.mem_filter.1 hslot).2
  rcases h.added.grows slot with hsame | ⟨hsimilar, -⟩
  · rw [hitem] at hsame
    rw [h.matchesStack_of_item? hsame.symm] at hmatch
    cases hmatch
  · cases hold : inv.item? slot with
    | none => rfl
    | some old =>
      have holdMatch : c.matchesStack host old = c.matchesStack host item :=
        matchesStack_of_isSimilar h.reads (hsimilar old hold)
      rw [h.matchesStack_of_item? hold, h.matches_item] at holdMatch
      cases holdMatch

/-- The other slots are as they were. -/
theorem item?_eq_of_notMem {slot : Nat} (hslot : slot ∉ c.matchedSlots host given) :
    given.item? slot = inv.item? slot := by
  rcases h.added.grows slot with hsame | ⟨-, amount, hamount, -, hfilled⟩
  · exact hsame
  · refine absurd (List.mem_filter.2 ⟨?_, accepts_iff.2 ⟨_, hfilled, ?_, ?_⟩⟩) hslot
    · rw [slotsToSearch_of_searchesAll h.searchesAll, List.mem_range]
      exact h.shaped_given.lt_size_of_item? hfilled
    · exact Stack.isEmpty_eq_false_iff.2 ⟨hamount, h.material_ne_air⟩
    · rw [matchesStack_withAmount h.reads]
      exact h.matches_item

/-- Taking out all that is selected takes away what was added. -/
theorem eq_of_debited (hnext : given.Debited next (c.matchedSlots host given) units) :
    next = inv := by
  refine Inventory.eq_of_item?_eq (fun slot => ?_) (hnext.heldSlot_eq.trans h.added.heldSlot_eq)
    (hnext.limits_eq.trans h.added.limits_eq)
    (hnext.length_slots_eq.trans h.added.length_slots_eq)
  by_cases hslot : slot ∈ c.matchedSlots host given
  · obtain ⟨stack, hitem, hempty, -⟩ := accepts_iff.1 (List.mem_filter.1 hslot).2
    have hpos : given.amountAt slot ≠ 0 := by
      rw [Inventory.amountAt_of_item? hitem]
      exact fun hzero => (Stack.isEmpty_eq_false_iff.1 hempty).1 (UInt32.toNat_inj.1 hzero)
    rw [h.item?_eq_none hslot]
    exact hnext.item?_eq_none h.amountIn_matchedSlots.symm hslot
      (lt_size_of_mem_matchedSlots h.shaped_given hslot) hpos
  · rw [hnext.frame slot hslot, h.item?_eq_of_notMem hslot]

end AddedAlone

end

end Criteria

end InventoryQuery
