import InventoryQuery.Proofs.Criteria.Removal
import InventoryQuery.Proofs.Service.Caching
/-!
# Requests that take away

A request to take away is decided, or measured, after the inventory was changed, on the tally that
the taking reports.  Still the answer and the change go together: an answer of no leaves the
inventory alone, and an answer of yes, or an amount, is about what was taken.
-/

namespace InventoryQuery

open Placeholder (Expander)
open Inventory (scattered)

/-! ## Decisions -/

namespace Criteria

variable {c : Criteria} {host : Host} {inv : Inventory}

theorem decides_of_isRefused (h : c.isRefused = true) (tally : Tally) : c.decides tally = false := by
  unfold isRefused at h
  unfold decides
  split at h
  · rfl
  · simp only [Bool.and_eq_true, beq_iff_eq] at h
    rw [if_pos h]
  · cases h

/-- What taking away can come to: the decision, and the inventory that is left. -/
inductive RemovalOutcome (c : Criteria) (host : Host) (inv : Inventory) : Bool → Inventory → Prop
  /-- The amount is refused before anything is looked at. -/
  | refused (hrefused : c.isRefused = true) : RemovalOutcome c host inv false inv
  /-- There is air without end, which cannot be taken. -/
  | boundless (htally : (c.select host inv).tally = .unbounded) :
      RemovalOutcome c host inv (c.decides .unbounded) inv
  /-- There is less than is asked for. -/
  | short (n : Nat) (htally : (c.select host inv).tally = .count n) (hlt : n < c.wanted n) :
      RemovalOutcome c host inv false inv
  /-- Everything is asked for, and there is nothing. -/
  | nothing (htally : (c.select host inv).tally = .count 0) (hamount : c.amount = none) :
      RemovalOutcome c host inv false inv
  | taken (n : Nat) (htally : (c.select host inv).tally = .count n) (hpos : 1 ≤ c.wanted n)
      (hle : c.wanted n ≤ n) (next : Inventory)
      (hnext : inv.Debited next (c.select host inv).slots (c.wanted n)) :
      RemovalOutcome c host inv true next

/-- Criteria to take away that are not refused ask for all there is, or for an amount that is not
zero. -/
theorem amount_of_not_isRefused (hremoves : c.removes = true) (h : c.isRefused = false) :
    c.amount = none ∨ ∃ t, c.amount = some (.exact t) ∧ t ≠ 0 := by
  unfold isRefused at h
  split at h
  · cases h
  · next t hamount =>
    simp only [hremoves, Bool.and_true, beq_eq_false_iff_ne] at h
    exact .inr ⟨t, hamount, h⟩
  · next hamount => exact .inl hamount

theorem one_le_toNat {t : UInt32} (ht : t ≠ 0) : 1 ≤ t.toNat :=
  Nat.one_le_iff_ne_zero.2 fun hzero => ht (UInt32.toNat_inj.1 hzero)

/-- The decision on the tally that taking reports, and what is left, are one of the outcomes. -/
theorem removalOutcome_take (hremoves : c.removes = true) (hrefused : c.isRefused = false)
    (hinv : inv.Shaped) :
    c.RemovalOutcome host inv (c.decides (c.take (c.select host inv) inv).2)
      (c.take (c.select host inv) inv).1 := by
  cases htally : (c.select host inv).tally with
  | unbounded =>
    rw [take_of_unbounded htally]
    exact .boundless htally
  | count n =>
    rcases amount_of_not_isRefused hremoves hrefused with hamount | ⟨t, hamount, ht⟩
    · have hwanted : c.wanted n = n := wanted_of_all hamount n
      have hle : c.wanted n ≤ n := Nat.le_of_eq hwanted
      obtain ⟨next, htake, hnext⟩ := debited_take hinv htally hle
      have hdecides : c.decides (.count (c.wanted n)) = decide (1 ≤ n) := by
        simp only [decides, hamount, hwanted, Tally.atLeast]
      rcases Nat.eq_zero_or_pos n with rfl | hpos
      · rw [take_of_le htally hle, hdecides, hwanted, Inventory.debit_zero]
        exact .nothing htally hamount
      · have hone : 1 ≤ n := hpos
        rw [htake, hdecides, decide_eq_true hone]
        exact .taken n htally (hwanted.symm ▸ hone) hle next hnext
    · have hwanted : c.wanted n = t.toNat := wanted_of_exact hamount n
      have hdecides : ∀ m, c.decides (.count m) =
          if c.strict then m == t.toNat else decide (t.toNat ≤ m) := fun m => by
        simp only [decides, hamount, ht, false_and, if_false, Tally.equals, Tally.atLeast]
      rcases Nat.lt_or_ge n (c.wanted n) with hlt | hle
      · have hno : c.decides (.count n) = false := by
          rw [hdecides]
          split <;> simp <;> omega
        rw [take_of_lt htally hlt, hno]
        exact .short n htally hlt
      · obtain ⟨next, htake, hnext⟩ := debited_take hinv htally hle
        have hyes : c.decides (.count (c.wanted n)) = true := by
          rw [hdecides, hwanted]
          split <;> simp
        rw [htake, hyes]
        exact .taken n htally (hwanted ▸ one_le_toNat ht) hle next hnext

/-- A decision and the inventory that is left go together: nothing is taken after a no or where
there is air without end, and what is asked for is taken, exactly, after any other yes. -/
structure Decided (c : Criteria) (host : Host) (inv : Inventory) (decision : Bool)
    (next : Inventory) : Prop where
  refused : decision = false → next = inv
  boundless : (c.select host inv).tally = .unbounded → next = inv
  taken : decision = true → c.material ≠ some air → ∃ n, (c.select host inv).tally = .count n ∧
    1 ≤ c.wanted n ∧ c.wanted n ≤ n ∧ inv.Debited next (c.select host inv).slots (c.wanted n)

/-- A reported tally and the inventory that is left go together. -/
structure Measured (c : Criteria) (host : Host) (inv : Inventory) (tally : Tally)
    (next : Inventory) : Prop where
  boundless : (c.select host inv).tally = .unbounded → tally = .unbounded ∧ next = inv
  counted : c.material ≠ some air → ∃ n, (c.select host inv).tally = .count n ∧
    (n < c.wanted n → tally = .count n ∧ next = inv) ∧
    (c.wanted n ≤ n → tally = .count (c.wanted n) ∧
      inv.Debited next (c.select host inv).slots (c.wanted n))

theorem RemovalOutcome.decided {decision : Bool} {next : Inventory}
    (h : c.RemovalOutcome host inv decision next) : c.Decided host inv decision next where
  refused hno := by
    cases h with
    | refused | boundless | short | nothing => rfl
    | taken => cases hno
  boundless htally := by
    cases h with
    | refused | boundless | short | nothing => rfl
    | taken n hcount => cases htally.symm.trans hcount
  taken hyes hair := by
    cases h with
    | refused | short | nothing => cases hyes
    | boundless htally => cases htally.symm.trans (c.tally_select_of_material_ne host inv hair)
    | taken n htally hpos hle _ hnext => exact ⟨n, htally, hpos, hle, hnext⟩

theorem measured_take (hinv : inv.Shaped) :
    c.Measured host inv (c.take (c.select host inv) inv).2
      (c.take (c.select host inv) inv).1 where
  boundless htally := by
    rw [take_of_unbounded htally]
    exact ⟨rfl, rfl⟩
  counted hair := by
    have htally := c.tally_select_of_material_ne host inv hair
    refine ⟨_, htally, fun hlt => ?_, fun hle => ?_⟩
    · rw [take_of_lt htally hlt]
      exact ⟨rfl, rfl⟩
    · obtain ⟨next, htake, hnext⟩ := debited_take hinv htally hle
      rw [htake]
      exact ⟨rfl, hnext⟩

end Criteria

/-! ## Requests -/

namespace Service

/-- The criteria of a request to take away, given what follows its start. -/
def removalCriteria (s : Service) (expand : Expander) (rest : Text) : Criteria :=
  (s.readCriteria expand (Color.paint rest)).removing

theorem criteriaOf?_remove (s : Service) (expand : Expander)
    (hremove : s.config.removeEnabled = true) (now : Nat) (rest : Text) :
    s.criteriaOf? expand now (removeStart ++ rest) = (some (s.removalCriteria expand rest), s) := by
  simp only [criteriaOf?, Text.after?_append, hremove, if_true, removalCriteria]

theorem evaluate_removalCriteria (s : Service) (expand : Expander) (rest : Text)
    (inv : Inventory) :
    s.evaluate (s.removalCriteria expand rest) inv =
      Prod.swap ((s.removalCriteria expand rest).take
        ((s.removalCriteria expand rest).select s.host inv) inv) := rfl

/-- A request to take away is always decided, with one of the outcomes. -/
theorem check_remove (s : Service) (expand : Expander) (hremove : s.config.removeEnabled = true)
    {inv : Inventory} (hinv : inv.Shaped) (now : Nat) (rest : Text) :
    ∃ decision next, s.check expand now (removeStart ++ rest) inv = (some decision, s, next) ∧
      (s.removalCriteria expand rest).RemovalOutcome s.host inv decision next := by
  unfold check
  rw [s.criteriaOf?_remove expand hremove]
  dsimp only
  split
  · next hrefused => exact ⟨false, inv, rfl, .refused hrefused⟩
  · next hrefused =>
    rw [evaluate_removalCriteria]
    exact ⟨_, _, rfl, Criteria.removalOutcome_take rfl (Bool.eq_false_iff.2 hrefused) hinv⟩

theorem measure_remove (s : Service) (expand : Expander) (hremove : s.config.removeEnabled = true)
    (now : Nat) (rest : Text) (inv : Inventory) :
    s.measure expand now (removeStart ++ rest) inv =
      (some ((s.removalCriteria expand rest).take
          ((s.removalCriteria expand rest).select s.host inv) inv).2, s,
        ((s.removalCriteria expand rest).take
          ((s.removalCriteria expand rest).select s.host inv) inv).1) := by
  unfold measure
  rw [s.criteriaOf?_remove expand hremove]
  rfl

theorem after?_giveStart_remove (rest : Text) : Text.after? giveStart (removeStart ++ rest) = none :=
  rfl

theorem after?_amountStart_remove (rest : Text) :
    Text.after? amountStart (removeStart ++ rest) = none :=
  rfl

theorem after?_giveStart_amount (rest : Text) : Text.after? giveStart (amountStart ++ rest) = none :=
  rfl

/-- With taking away enabled, a request for it is always answered, by the decision or the amount
that goes with what it does to the inventory. -/
theorem answer_removal (s : Service) (expand : Expander) (hremove : s.config.removeEnabled = true)
    {inv : Inventory} (hinv : inv.Shaped) (now : Nat) (rest : Text) :
    (∀ args, s.resolve expand args = removeStart ++ rest →
      ∃ decision next, s.check expand now (removeStart ++ rest) inv = (some decision, s, next) ∧
        s.answer expand now args inv = (s.config.render decision, s, next) ∧
        (s.removalCriteria expand rest).Decided s.host inv decision next) ∧
    ∀ args, s.resolve expand args = amountStart ++ (removeStart ++ rest) →
      ∃ tally next, s.measure expand now (removeStart ++ rest) inv = (some tally, s, next) ∧
        s.answer expand now args inv = (tally.text, s, next) ∧
        (s.removalCriteria expand rest).Measured s.host inv tally next := by
  constructor
  · intro args hargs
    obtain ⟨decision, next, hcheck, houtcome⟩ := s.check_remove expand hremove hinv now rest
    refine ⟨decision, next, hcheck, ?_, houtcome.decided⟩
    have hgive : Text.after? giveStart (s.resolve expand args) = none := by
      rw [hargs, after?_giveStart_remove]
    have hamount : Text.after? amountStart (s.resolve expand args) = none := by
      rw [hargs, after?_amountStart_remove]
    rw [answer_of_check hgive hamount, hargs, answerCheck, hcheck]
    rfl
  · intro args hargs
    have hmeasure := s.measure_remove expand hremove now rest inv
    refine ⟨_, _, hmeasure, ?_, Criteria.measured_take hinv⟩
    have hgive : Text.after? giveStart (s.resolve expand args) = none := by
      rw [hargs, after?_giveStart_amount]
    have hamount : Text.after? amountStart (s.resolve expand args) = some (removeStart ++ rest) := by
      rw [hargs, Text.after?_append]
    rw [answer_of_amount hgive hamount, answerAmount, hmeasure]
    rfl

/-- Four of eleven are taken for a player whose placeholder says what to take. -/
theorem answer_removal_scattered :
    let s := ofConfig { removeEnabled := true }
    let expand : Expander := Placeholder.Table.expand (Dict.ofList [("kind".toList, "DIRT".toList)])
    s.config.removeEnabled = true ∧ scattered.Shaped ∧
      s.resolve expand "remove_mat:%kind%,amt:4".toList = "remove_mat:DIRT,amt:4".toList ∧
      ∃ next, s.answer expand 0 "remove_mat:%kind%,amt:4".toList scattered =
          ("yes".toList, s, next) ∧ scattered.Debited next [0, 39, 40] 4 := by
  intro s expand
  have hargs : s.resolve expand "remove_mat:%kind%,amt:4".toList =
      removeStart ++ "mat:DIRT,amt:4".toList := by decide +kernel
  have hcriteria : s.removalCriteria expand "mat:DIRT,amt:4".toList =
      { material := some "DIRT".toList, amount := some (.exact 4), removes := true } := by
    decide +kernel
  have hyes : (s.check expand 0 (removeStart ++ "mat:DIRT,amt:4".toList) scattered).1 =
      some true := by decide +kernel
  obtain ⟨decision, next, hcheck, hanswer, hdecided⟩ :=
    (answer_removal s expand rfl Inventory.shaped_scattered 0 "mat:DIRT,amt:4".toList).1 _ hargs
  rw [hcheck] at hyes
  obtain rfl : decision = true := Option.some.inj hyes
  rw [hcriteria] at hdecided
  obtain ⟨n, -, -, -, hnext⟩ := hdecided.taken rfl (by decide)
  exact ⟨rfl, Inventory.shaped_scattered, hargs, next, hanswer, hnext⟩

end Service

end InventoryQuery
