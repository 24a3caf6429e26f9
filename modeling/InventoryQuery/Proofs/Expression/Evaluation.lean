import InventoryQuery.Expression.Evaluate
import InventoryQuery.Proofs.Expression.Reading
import Mathlib.Data.Rat.Floor
/-!
# What an expression text evaluates to

A text has an amount, or a value that is not finite, exactly where it is derived in the grammar of
expressions once its blanks are dropped, and does not nest too deeply.  The value is that of its
only derivation, and the amount is the value cut off at both ends and rounded down.  This holds in
every arithmetic.
-/

namespace InventoryQuery.Expression

open Text (found?_eq_some_iff)

theorem ne_nil_of_text {s : Text} {t : Sum} (h : t.text = s) : s ≠ [] := by
  rintro rfl
  have hread := found?_readSum_text t
  rw [h] at hread
  obtain ⟨hlength, -⟩ := found?_eq_some_iff.1 hread
  cases hlength

theorem parse_of_text {s : Text} {t : Sum} (h : t.text = s) (hdepth : nesting s ≤ maxNesting) :
    parse s = .ok t := by
  have hread := found?_readSum_text t
  rw [h] at hread
  obtain ⟨_, hread⟩ := found?_eq_some_iff.1 hread
  rw [parse, if_neg (ne_nil_of_text h), if_neg (Nat.not_lt.2 hdepth), hread]

theorem of_parse_eq_ok {s : Text} {t : Sum} (h : parse s = .ok t) :
    nesting s ≤ maxNesting ∧ t.text = s := by
  unfold parse at h
  split at h
  · cases h
  · split at h
    · cases h
    · next hdepth =>
      split at h
      · cases h
      · next u _ hread =>
        obtain rfl := Except.ok.inj h
        have htext := text_of_readSum hread
        rw [List.append_nil] at htext
        exact ⟨Nat.not_lt.1 hdepth, htext⟩
      · cases h

theorem parse_eq_ok_iff {s : Text} {t : Sum} :
    parse s = .ok t ↔ nesting s ≤ maxNesting ∧ t.text = s :=
  ⟨of_parse_eq_ok, fun h => parse_of_text h.2 h.1⟩

theorem parse_ne_notFinite (s : Text) : parse s ≠ .error .notFinite := by
  unfold parse
  split
  · simp
  · split
    · simp
    · split <;> simp

theorem toNat_amountOf (q : ℚ) : (amountOf q).toNat = min (2 ^ 32 - 1) ⌊max q 0⌋₊ := by
  have hfloor : ⌊max q 0⌋₊ = q.floor.toNat := by
    have hint : ⌊q⌋ = q.floor := rfl
    rcases le_total q 0 with hle | hle
    · rw [max_eq_right hle, Nat.floor_zero, ← hint, Int.toNat_of_nonpos]
      exact Int.floor_nonpos hle
    · rw [max_eq_left hle, ← hint, Int.floor_toNat]
  rw [hfloor, amountOf, UInt32.ofNatClamp]
  split
  · next hlt =>
    rw [UInt32.toNat_ofNatLT, UInt32.size] at *
    omega
  · next hge =>
    rw [UInt32.toNat_ofNatLT, UInt32.size] at *
    omega

variable {α : Type} (A : Arithmetic α)

theorem evaluateIn_eq_ok_iff {text : Text} {n : UInt32} :
    evaluateIn A text = .ok n ↔
      ∃ t q, parse (Text.strip text) = .ok t ∧ A.rational? (t.value A) = some q ∧
        amountOf q = n := by
  unfold evaluateIn
  split
  · next hparse => simp [hparse]
  · next t hparse =>
    rw [hparse]
    split
    · next hvalue => simp [hvalue]
    · next q hvalue => simp [hvalue]

theorem evaluateIn_eq_notFinite_iff {text : Text} :
    evaluateIn A text = .error .notFinite ↔
      ∃ t, parse (Text.strip text) = .ok t ∧ A.rational? (t.value A) = none := by
  unfold evaluateIn
  split
  · next failure hparse =>
    have hne : failure ≠ .notFinite := fun h => parse_ne_notFinite _ (h ▸ hparse)
    simp [hparse, hne]
  · next t hparse =>
    rw [hparse]
    split
    · next hvalue => simp [hvalue]
    · next q hvalue => simp [hvalue]

/-- A text evaluates to an amount, or to something that is not finite, if and only if it is derived
and does not nest too deeply.  Which of the two, and which amount, is told by the value of the one
tree it is derived from. -/
theorem evaluateIn_iff_derived (text : Text) :
    let s := Text.strip text
    ((∃ n, evaluateIn A text = .ok n) ∨ evaluateIn A text = .error .notFinite ↔
      nesting s ≤ maxNesting ∧ ∃ t : Sum, t.text = s) ∧
    (∀ n, evaluateIn A text = .ok n ↔ nesting s ≤ maxNesting ∧
      ∃ t q, (∀ u : Sum, u.text = s ↔ u = t) ∧ A.rational? (t.value A) = some q ∧
        n.toNat = min (2 ^ 32 - 1) ⌊max q 0⌋₊) ∧
    (evaluateIn A text = .error .notFinite ↔ nesting s ≤ maxNesting ∧
      ∃ t, (∀ u : Sum, u.text = s ↔ u = t) ∧ A.rational? (t.value A) = none) := by
  intro s
  have honly : ∀ {t : Sum}, t.text = s ↔ ∀ u : Sum, u.text = s ↔ u = t := by
    intro t
    constructor
    · rintro ht u
      exact ⟨fun hu => Sum.text_injective (hu.trans ht.symm), fun hu => hu ▸ ht⟩
    · exact fun h => (h t).2 rfl
  refine ⟨?_, ?_, ?_⟩
  · rw [evaluateIn_eq_notFinite_iff]
    simp only [evaluateIn_eq_ok_iff, parse_eq_ok_iff]
    constructor
    · rintro (⟨n, t, q, ⟨hdepth, ht⟩, -⟩ | ⟨t, ⟨hdepth, ht⟩, -⟩)
      · exact ⟨hdepth, t, ht⟩
      · exact ⟨hdepth, t, ht⟩
    · rintro ⟨hdepth, t, ht⟩
      cases hvalue : A.rational? (t.value A) with
      | none => exact .inr ⟨t, ⟨hdepth, ht⟩, hvalue⟩
      | some q => exact .inl ⟨_, t, q, ⟨hdepth, ht⟩, hvalue, rfl⟩
  · intro n
    simp only [evaluateIn_eq_ok_iff, parse_eq_ok_iff]
    constructor
    · rintro ⟨t, q, ⟨hdepth, ht⟩, hvalue, rfl⟩
      exact ⟨hdepth, t, q, honly.1 ht, hvalue, toNat_amountOf q⟩
    · rintro ⟨hdepth, t, q, ht, hvalue, hn⟩
      refine ⟨t, q, ⟨hdepth, honly.2 ht⟩, hvalue, ?_⟩
      rw [← UInt32.toNat_inj, toNat_amountOf, hn]
  · simp only [evaluateIn_eq_notFinite_iff, parse_eq_ok_iff]
    constructor
    · rintro ⟨t, ⟨hdepth, ht⟩, hvalue⟩
      exact ⟨hdepth, t, honly.1 ht, hvalue⟩
    · rintro ⟨hdepth, t, ht, hvalue⟩
      exact ⟨t, ⟨hdepth, honly.2 ht⟩, hvalue⟩

/-- Products bind tighter than sums, and blanks do not count. -/
example : evaluate "2 * (3+4) - -1".toList = .ok 15 := by decide +kernel

end InventoryQuery.Expression
