import InventoryQuery.Proofs.Criteria.Selection
import InventoryQuery.Proofs.Inventory.Debit
/-!
# Taking exactly what is asked for

Where a selection covers the amount that is asked for, taking it leaves an inventory from which that
amount is gone, out of the selected slots alone and in the order of debits; otherwise nothing
happens.  The same criteria then select what is left, as long as the host does not read effects off
the amount.
-/

namespace InventoryQuery

open Inventory (Debited debitOrder debited_debit)

namespace Criteria

variable {c : Criteria} {host : Host} {inv next : Inventory}

/-! ## Selecting again -/

section

variable (hreads : c.asksPotion = true → host.potions.IgnoresAmount) (hinv : inv.Shaped)

include hreads hinv

/-- A slot that still has an amount matches as it did before. -/
theorem accepts_of_debited {amount : Nat}
    (hnext : inv.Debited next (c.matchedSlots host inv) amount) {slot : Nat}
    (hslot : next.amountAt slot ≠ 0) : c.accepts host next slot = c.accepts host inv slot := by
  by_cases hmatched : slot ∈ c.matchedSlots host inv
  · obtain ⟨cleared, reduced, kept, hfilter, -, hnone, hless, hsame⟩ := hnext.splits
    have hsplit : slot ∈ cleared ++ reduced ++ kept := by
      rw [← hfilter, List.mem_filter, ← Inventory.debitOrder_eq, Inventory.mem_debitOrder_iff]
      exact ⟨lt_size_of_mem_matchedSlots hinv hmatched, by simpa using hmatched⟩
    rcases List.mem_append.1 hsplit with hsplit | hkept
    · rcases List.mem_append.1 hsplit with hcleared | hreduced
      · exact absurd (Inventory.amountAt_of_vacant (hnone slot hcleared)) hslot
      · obtain ⟨stack, left, hitem, hpos, -, hnextItem⟩ := hless slot hreduced
        have haccepts : c.accepts host inv slot = true := (List.mem_filter.1 hmatched).2
        obtain ⟨stack', hitem', hempty, hmatch⟩ := accepts_iff.1 haccepts
        obtain rfl : stack = stack' := Option.some.inj (hitem.symm.trans hitem')
        rw [haccepts, accepts_iff]
        exact ⟨_, hnextItem, Stack.isEmpty_withAmount hempty (UInt32.pos_iff_ne_zero.1 hpos),
          (matchesStack_withAmount hreads stack left).trans hmatch⟩
    · exact accepts_congr (hsame slot hkept)
  · exact accepts_congr (hnext.frame slot hmatched)

theorem amountIn_matchedSlots_of_debited {amount : Nat}
    (hnext : inv.Debited next (c.matchedSlots host inv) amount) :
    next.amountIn (c.matchedSlots host next) =
      inv.amountIn (c.matchedSlots host inv) - amount := by
  have hsum : next.amountIn (c.matchedSlots host next) =
      next.amountIn (c.matchedSlots host inv) := by
    rw [matchedSlots, slotsToSearch_congr hnext.heldSlot_eq]
    exact Inventory.amountIn_filter_congr fun slot _ hslot =>
      accepts_of_debited hreads hinv hnext hslot
  have htotal := hnext.total
  omega

/-- What is selected after an amount was taken. -/
theorem tally_select_of_debited {n amount : Nat} (h : (c.select host inv).tally = .count n)
    (hair : c.asksAir = false) (hnext : inv.Debited next (c.select host inv).slots amount) :
    (c.select host next).tally = .count (n - amount) := by
  obtain ⟨hselect, rfl⟩ := select_of_tally_count h
  rw [hselect] at hnext
  rw [select_of_not_asksAir hair, amountIn_matchedSlots_of_debited hreads hinv hnext]

end

/-! ## The amount to take -/

theorem wanted_of_all (hamount : c.amount = none) (n : Nat) : c.wanted n = n := by
  simp only [wanted, hamount]

theorem wanted_of_exact {t : UInt32} (hamount : c.amount = some (.exact t)) (n : Nat) :
    c.wanted n = t.toNat := by
  simp only [wanted, hamount, Target.amount]

theorem wanted_of_invalid (hamount : c.amount = some .invalid) (n : Nat) : c.wanted n = 0 := by
  simp only [wanted, hamount, Target.amount, UInt32.toNat_zero]

/-! ## The three ways to take -/

theorem take_of_unbounded {selection : Selection} (h : selection.tally = .unbounded) :
    c.take selection inv = (inv, .unbounded) := by
  unfold take
  rw [h]

theorem take_of_lt {selection : Selection} {n : Nat} (h : selection.tally = .count n)
    (hlt : n < c.wanted n) : c.take selection inv = (inv, .count n) := by
  unfold take
  rw [h]
  exact if_pos hlt

theorem take_of_le {selection : Selection} {n : Nat} (h : selection.tally = .count n)
    (hle : c.wanted n ≤ n) :
    c.take selection inv =
      (inv.debit selection.slots (c.wanted n) debitOrder, .count (c.wanted n)) := by
  unfold take
  rw [h]
  exact if_neg (Nat.not_lt.2 hle)

/-- Where the selection covers the amount, it is taken out of the selected slots. -/
theorem debited_take (hinv : inv.Shaped) {n : Nat} (h : (c.select host inv).tally = .count n)
    (hle : c.wanted n ≤ n) :
    ∃ next, c.take (c.select host inv) inv = (next, .count (c.wanted n)) ∧
      inv.Debited next (c.select host inv).slots (c.wanted n) := by
  refine ⟨_, take_of_le h hle, ?_⟩
  obtain ⟨hselect, rfl⟩ := select_of_tally_count h
  rw [hselect]
  exact debited_debit (nodup_matchedSlots hinv)
    (fun slot hslot => lt_size_of_mem_matchedSlots hinv hslot) hle

/-- Taking what an inventory's selection comes to.  There is nothing to take from a sum without
bound, and nothing is taken where the selection falls short of the amount that is asked for.
Otherwise that amount is taken, exactly, and the same criteria select the rest, if the host does not
read off the amount what they ask for. -/
theorem take_select (c : Criteria) (host : Host) {inv : Inventory} (hinv : inv.Shaped) :
    ((c.select host inv).tally = .unbounded →
      c.take (c.select host inv) inv = (inv, .unbounded)) ∧
    ∀ n, (c.select host inv).tally = .count n →
      (n < c.wanted n → c.take (c.select host inv) inv = (inv, .count n)) ∧
      (c.wanted n ≤ n → ∃ next,
        c.take (c.select host inv) inv = (next, .count (c.wanted n)) ∧
          inv.Debited next (c.select host inv).slots (c.wanted n) ∧
          ((c.asksPotion = true → host.potions.IgnoresAmount) →
            (c.select host next).tally = .count (n - c.wanted n))) := by
  refine ⟨take_of_unbounded, fun n h => ⟨take_of_lt h, fun hle => ?_⟩⟩
  obtain ⟨next, htake, hnext⟩ := debited_take hinv h hle
  refine ⟨next, htake, hnext, fun hreads => ?_⟩
  cases hair : c.asksAir with
  | false => exact tally_select_of_debited hreads hinv h hair hnext
  | true =>
    -- Nothing matches where air is asked for, so there is nothing to take either.
    obtain ⟨hselect, hsum⟩ := select_of_tally_count h
    rw [matchedSlots_of_asksAir hair, Inventory.amountIn_nil] at hsum
    have hzero : c.wanted n = 0 := by omega
    rw [take_of_le h hle, hzero, Inventory.debit_zero] at htake
    obtain ⟨rfl, -⟩ := Prod.mk.inj htake
    rw [h, hzero, Nat.sub_zero]

/-- Four of eleven potions: the helmet's place is cleared, the off-hand is reduced and the storage is
kept. -/
theorem take_select_swiftness :
    let c : Criteria := { potionKind := some "SWIFTNESS".toList, amount := some (.exact 4) }
    let host : Host := ⟨.metadata, false⟩
    let potions := fun amount =>
      (host.potions.write (.plain "POTION".toList amount) ⟨"SWIFTNESS".toList, true, false⟩).2
    let inv := ((Inventory.empty.put 0 (potions 5)).put 39 (potions 1)).put 40 (potions 5)
    inv.Shaped ∧ c.asksPotion = true ∧ host.potions.IgnoresAmount ∧
      (c.select host inv).tally = .count 11 ∧ c.wanted 11 = 4 ∧
      ∃ next, c.take (c.select host inv) inv = (next, .count 4) ∧
        inv.Debited next [0, 39, 40] 4 ∧ (c.select host next).tally = .count 7 := by
  intro c host potions inv
  have hinv : inv.Shaped := ((Inventory.shaped_empty.put _ _).put _ _).put _ _
  have hreads : host.potions.IgnoresAmount := PotionStore.isBuiltIn_metadata.ignoresAmount
  have htally : (c.select host inv).tally = .count 11 := by decide
  have hslots : (c.select host inv).slots = [0, 39, 40] := by decide
  obtain ⟨next, htake, hnext, hrest⟩ :=
    ((take_select c host hinv).2 11 htally).2 (by decide)
  exact ⟨hinv, rfl, hreads, htally, rfl, next, htake, hslots ▸ hnext, hrest fun _ => hreads⟩

/-- A host may read the effect off the amount.  Then two of five that match can be taken, and the
three that are left do not match. -/
example :
    let c : Criteria := { potionKind := some "5".toList, amount := some (.exact 2) }
    let host : Host :=
      ⟨⟨fun s => some ⟨Numeral.digits s.amount.toNat, false, false⟩, fun s _ => (false, s)⟩, false⟩
    let inv := Inventory.empty.put 0 (.plain "POTION".toList 5)
    let next := (c.take (c.select host inv) inv).1
    (c.select host inv).tally = .count 5 ∧ next.item? 0 = some (.plain "POTION".toList 3) ∧
      (c.select host next).tally = .count 0 := by
  decide

end Criteria

end InventoryQuery
