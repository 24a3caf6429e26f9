import InventoryQuery.Proofs.Criteria.Selection
/-!
# Every slot counts once

What criteria select from an inventory is without end exactly where air is asked for and one of the
slots to search holds none but it.  Otherwise every slot to search that holds a matching stack is
selected once, in the order of the search, and the tally is the sum of the amounts there.
-/

namespace InventoryQuery.Criteria

variable {c : Criteria} {host : Host} {inv : Inventory}

/-- Air is asked for, and one of the slots to search is vacant, holds an empty stack or lies outside
the inventory. -/
def FindsAir (c : Criteria) (inv : Inventory) : Prop :=
  c.material = some air ∧ ∃ slot ∈ c.slotsToSearch inv,
    inv.item? slot = none ∨ (∃ s, inv.item? slot = some s ∧ s.isEmpty = true) ∨
      Inventory.size ≤ slot

theorem any_isVacant_offers (hinv : inv.Shaped) :
    (c.offers inv).any isVacant = true ↔ ∃ slot ∈ c.slotsToSearch inv,
      inv.item? slot = none ∨ (∃ s, inv.item? slot = some s ∧ s.isEmpty = true) ∨
        Inventory.size ≤ slot := by
  rw [offers, List.any_map, List.any_eq_true]
  refine exists_congr fun slot => and_congr_right fun _ => ?_
  cases hitem : inv.item? slot with
  | none => simp [isVacant, hitem]
  | some s =>
    have hlt : ¬Inventory.size ≤ slot := Nat.not_le.2 (hinv.lt_size_of_item? hitem)
    simp [isVacant, hitem, hlt]

theorem findsAir_iff (hinv : inv.Shaped) :
    c.FindsAir inv ↔ c.asksAir = true ∧ (c.offers inv).any isVacant = true := by
  rw [FindsAir, any_isVacant_offers hinv, asksAir, beq_iff_eq]

theorem select_of_findsAir (hinv : inv.Shaped) (h : c.FindsAir inv) :
    c.select host inv = ⟨[], .unbounded⟩ := by
  rw [select_eq, if_pos ((findsAir_iff hinv).1 h)]

theorem select_of_not_findsAir (hinv : inv.Shaped) (h : ¬c.FindsAir inv) :
    c.select host inv =
      ⟨c.matchedSlots host inv, .count (inv.amountIn (c.matchedSlots host inv))⟩ := by
  rw [select_eq, if_neg (mt (findsAir_iff hinv).2 h)]

/-- A selection is without end exactly where air is found.  Otherwise it has the slots to search
whose stacks match, each of them once and in the order of the search, and its tally is the sum of
their amounts, which is nothing for air.  Offers are selected in the same way in any order. -/
theorem select_counts_once (c : Criteria) (host : Host) {inv : Inventory} (hinv : inv.IsReached) :
    (c.select host inv = ⟨[], .unbounded⟩ ↔ c.FindsAir inv) ∧
    (¬c.FindsAir inv →
      (c.select host inv).slots.Nodup ∧
      (c.select host inv).slots = (c.slotsToSearch inv).filter (c.accepts host inv) ∧
      (c.select host inv).tally = .count (inv.amountIn (c.select host inv).slots) ∧
      (c.material = some air → (c.select host inv).tally = .count 0)) ∧
    ∀ offers others : List (Nat × Option Stack), offers.Perm others →
      (c.resolve host offers).tally = (c.resolve host others).tally ∧
        (c.resolve host offers).slots.Perm (c.resolve host others).slots := by
  have hshaped := hinv.shaped
  refine ⟨⟨fun h => ?_, select_of_findsAir hshaped⟩, fun h => ?_,
    fun _ _ => resolve_perm c host⟩
  · by_contra hnot
    rw [select_of_not_findsAir hshaped hnot] at h
    cases (Selection.mk.inj h).2
  · rw [select_of_not_findsAir hshaped h]
    refine ⟨nodup_matchedSlots hshaped, rfl, rfl, fun hair => ?_⟩
    rw [matchedSlots_of_asksAir (beq_iff_eq.2 hair), Inventory.amountIn_nil]

/-- Dirt in both hands, and an empty stack in the slot that is searched for air. -/
theorem select_counts_once_both_hands :
    let inv := ((Inventory.empty.edit (.put 0 (.plain "DIRT".toList 5))).edit
      (.put 40 (.plain "DIRT".toList 7))).edit (.add (.plain air 9))
    let dirt : Criteria := { material := some "DIRT".toList, mainHand := true, offHand := true }
    let nothing : Criteria := { material := some air, slot := some 1 }
    let host : Host := ⟨.metadata, false⟩
    inv.IsReached ∧ ¬dirt.FindsAir inv ∧ (dirt.select host inv).slots = [0, 40] ∧
      (dirt.select host inv).tally = .count 12 ∧
      (dirt.resolve host (dirt.offers inv).reverse).tally = .count 12 ∧
      nothing.FindsAir inv ∧ nothing.select host inv = ⟨[], .unbounded⟩ := by
  intro inv dirt nothing host
  have hinv : inv.IsReached := ((Inventory.IsReached.empty.edited _).edited _).edited _
  obtain ⟨-, hcounted, hperm⟩ := select_counts_once dirt host hinv
  obtain ⟨hendless, -, -⟩ := select_counts_once nothing host hinv
  have hdirt : ¬dirt.FindsAir inv := fun h => absurd h.1 (by decide)
  have hnothing : nothing.FindsAir inv :=
    ⟨rfl, 1, List.mem_singleton_self 1, .inr (.inl ⟨.plain air 9, by decide, by decide⟩)⟩
  obtain ⟨-, hsearched, hsummed, -⟩ := hcounted hdirt
  have hslots : (dirt.select host inv).slots = [0, 40] := by
    rw [hsearched]
    decide
  have htally : (dirt.select host inv).tally = .count 12 := by
    rw [hsummed, hslots]
    decide
  exact ⟨hinv, hdirt, hslots, htally, ((hperm _ _ (List.reverse_perm _)).1).trans htally, hnothing,
    hendless.2 hnothing⟩

end InventoryQuery.Criteria
