import InventoryQuery.Proofs.Expression.Double
import InventoryQuery.Proofs.Expression.Nesting
/-!
# Amounts of integer expressions

An expression of integer literals, with sums, differences, products and signs, has the amount that
integer arithmetic gives it, in every arithmetic that is exact on the integers it passes through.
Double precision numbers are exact on the integers of magnitude up to `2 ^ 53`.
-/

namespace InventoryQuery.Expression

/-! ## Integer arithmetic -/

/-- The integer that a literal without fraction writes. -/
def Literal.integer? (n : Literal) : Option ℤ :=
  match n.fraction with
  | none => some (Nat.ofDigitChars 10 n.whole.text 0)
  | some _ => none

/-- The integer, if its magnitude is within the bound. -/
def within (bound : ℕ) (i : ℤ) : Option ℤ := if i.natAbs ≤ bound then some i else none

/-- An operation on integers, where all of them are within the bound. -/
def withinOf (bound : ℕ) (op : ℤ → ℤ → ℤ) (x y : Option ℤ) : Option ℤ :=
  x.bind fun i => y.bind fun j => within bound (op i j)

/-- Arithmetic on the integers of a magnitude within a bound.  What has a fraction, is divided or is
out of bounds has no value. -/
def Arithmetic.integers (bound : ℕ) : Arithmetic (Option ℤ) where
  literal n := n.integer?.bind (within bound)
  neg x := x.map (-·)
  add := withinOf bound (· + ·)
  sub := withinOf bound (· - ·)
  mul := withinOf bound (· * ·)
  div _ _ := none
  rational? x := x.map (↑)

theorem within_eq_some_iff {bound : ℕ} {i v : ℤ} :
    within bound i = some v ↔ i = v ∧ v.natAbs ≤ bound := by
  unfold within
  split
  · grind
  · grind

theorem withinOf_eq_some {bound : ℕ} {op : ℤ → ℤ → ℤ} {x y : Option ℤ} {v : ℤ}
    (h : withinOf bound op x y = some v) :
    ∃ i j, x = some i ∧ y = some j ∧ op i j = v ∧ v.natAbs ≤ bound := by
  obtain ⟨i, hi, h⟩ := Option.bind_eq_some_iff.1 h
  obtain ⟨j, hj, h⟩ := Option.bind_eq_some_iff.1 h
  exact ⟨i, j, hi, hj, within_eq_some_iff.1 h⟩

/-! ## Exactness -/

section Exact

variable {α : Type} (A : Arithmetic α) (bound : ℕ)

/-- The number is the integer, which is within the bound. -/
structure Arithmetic.Represents (x : α) (i : ℤ) : Prop where
  rational : A.rational? x = some (i : ℚ)
  le : i.natAbs ≤ bound

/-- Integers within the bound are computed exactly from integers within the bound. -/
structure Arithmetic.IsExact : Prop where
  literal : ∀ n i, n.integer? = some i → i.natAbs ≤ bound → A.Represents bound (A.literal n) i
  neg : ∀ x i, A.Represents bound x i → A.Represents bound (A.neg x) (-i)
  add : ∀ x y i j, A.Represents bound x i → A.Represents bound y j → (i + j).natAbs ≤ bound →
    A.Represents bound (A.add x y) (i + j)
  sub : ∀ x y i j, A.Represents bound x i → A.Represents bound y j → (i - j).natAbs ≤ bound →
    A.Represents bound (A.sub x y) (i - j)
  mul : ∀ x y i j, A.Represents bound x i → A.Represents bound y j → (i * j).natAbs ≤ bound →
    A.Represents bound (A.mul x y) (i * j)

variable {A bound} (hA : A.IsExact bound)

include hA

mutual

theorem represents_factor (f : Factor) {v : ℤ} (h : f.value (.integers bound) = some v) :
    A.Represents bound (f.value A) v := by
  cases f with
  | literal n =>
    obtain ⟨i, hi, hwithin⟩ := Option.bind_eq_some_iff.1 h
    obtain ⟨rfl, hle⟩ := within_eq_some_iff.1 hwithin
    exact hA.literal n i hi hle
  | group t => exact represents_sum t h
  | signed sign f =>
    cases sign with
    | plus => exact represents_factor f h
    | minus =>
      obtain ⟨i, hi, rfl⟩ := Option.map_eq_some_iff.1 h
      exact hA.neg _ i (represents_factor f hi)

theorem represents_product (p : Product) {v : ℤ} (h : p.value (.integers bound) = some v) :
    A.Represents bound (p.value A) v := by
  cases p with
  | factor f => exact represents_factor f h
  | extend p op f =>
    cases op with
    | times =>
      obtain ⟨i, j, hi, hj, rfl, hle⟩ := withinOf_eq_some h
      exact hA.mul _ _ i j (represents_product p hi) (represents_factor f hj) hle
    | divide => cases h

theorem represents_sum (t : Sum) {v : ℤ} (h : t.value (.integers bound) = some v) :
    A.Represents bound (t.value A) v := by
  cases t with
  | product p => exact represents_product p h
  | extend t op p =>
    cases op with
    | plus =>
      obtain ⟨i, j, hi, hj, rfl, hle⟩ := withinOf_eq_some h
      exact hA.add _ _ i j (represents_sum t hi) (represents_product p hj) hle
    | minus =>
      obtain ⟨i, j, hi, hj, rfl, hle⟩ := withinOf_eq_some h
      exact hA.sub _ _ i j (represents_sum t hi) (represents_product p hj) hle

end

end Exact

/-! ## Amounts -/

/-- The amount of an integer is the integer, cut off at both ends. -/
theorem toNat_amountOf_intCast (v : ℤ) :
    ((amountOf (v : ℚ)).toNat : ℤ) = min (2 ^ 32 - 1) (max 0 v) := by
  have hmax : max (v : ℚ) 0 = ((max v 0 : ℤ) : ℚ) := by push_cast; rfl
  rw [toNat_amountOf, hmax, ← Int.floor_toNat, Int.floor_intCast]
  omega

theorem evaluateIn_of_represents {α : Type} {A : Arithmetic α} {bound : ℕ} {text : Text} {t : Sum}
    {v : ℤ} (ht : t.text = Text.strip text) (hdepth : t.depth ≤ maxNesting)
    (hv : A.Represents bound (t.value A) v) :
    ∃ n, evaluateIn A text = .ok n ∧ (n.toNat : ℤ) = min (2 ^ 32 - 1) (max 0 v) := by
  have hnesting : nesting (Text.strip text) ≤ maxNesting := by
    rw [← ht, nesting_text]
    exact hdepth
  have hok := (evaluateIn_eq_ok_iff A).2 ⟨t, _, parse_of_text ht hnesting, hv.rational, rfl⟩
  exact ⟨_, hok, toNat_amountOf_intCast v⟩

/-- An integer expression whose literals and partial results are within the bound, and that is not
too deep, has the amount that it has in integer arithmetic. -/
theorem evaluateIn_of_integers {α : Type} (A : Arithmetic α) (hA : A.IsExact (2 ^ 53)) (text : Text)
    (t : Sum) (ht : t.text = Text.strip text) (hdepth : t.depth ≤ 128) (v : ℤ)
    (hv : t.value (.integers (2 ^ 53)) = some v) :
    ∃ n, evaluateIn A text = .ok n ∧ (n.toNat : ℤ) = min (2 ^ 32 - 1) (max 0 v) :=
  evaluateIn_of_represents ht hdepth (represents_sum hA t hv)

/-! ## Double precision numbers -/

theorem decimal_of_integer? {n : Literal} {i : ℤ} (h : n.integer? = some i) :
    ∃ k : ℕ, n.decimal = (k, 0) ∧ i = k := by
  obtain ⟨whole, fraction⟩ := n
  cases fraction with
  | none => exact ⟨_, rfl, (Option.some.inj h).symm⟩
  | some digits => cases h

/-- Double precision arithmetic is exact on the integers up to the largest mantissa. -/
theorem isExact_double : Arithmetic.double.IsExact (2 ^ 53) where
  literal n i hi hle := by
    obtain ⟨k, hdecimal, rfl⟩ := decimal_of_integer? hi
    refine ⟨?_, hle⟩
    change rationalOfDouble? (Float.ofScientific n.decimal.1 true n.decimal.2) = _
    rw [hdecimal]
    exact Double.rationalOfDouble?_ofScientific hle
  neg x i hx := ⟨Double.rationalOfDouble?_neg hx.rational hx.le, (Int.natAbs_neg i).trans_le hx.le⟩
  add x y i j hx hy hle :=
    ⟨Double.rationalOfDouble?_add hx.rational hx.le hy.rational hy.le hle, hle⟩
  sub x y i j hx hy hle :=
    ⟨Double.rationalOfDouble?_sub hx.rational hx.le hy.rational hy.le hle, hle⟩
  mul x y i j hx hy hle :=
    ⟨Double.rationalOfDouble?_mul hx.rational hx.le hy.rational hy.le hle, hle⟩

/-- What is evaluated for an integer expression is the amount that it has in integer arithmetic. -/
theorem evaluate_eq_ok_of_integers {text : Text} {t : Sum} (ht : t.text = Text.strip text)
    (hdepth : t.depth ≤ maxNesting) {v : ℤ} (hv : t.value (.integers (2 ^ 53)) = some v) :
    ∃ n, evaluate text = .ok n ∧ (n.toNat : ℤ) = min (2 ^ 32 - 1) (max 0 v) :=
  evaluateIn_of_represents ht hdepth (represents_sum isExact_double t hv)

/-- Blanks inside a literal, signs, a difference below zero, and a value above the largest
amount. -/
theorem evaluateIn_of_integers_saturated :
    let difference : Sum := .extend (.product (.factor (.literal ⟨⟨"3".toList, by decide⟩, none⟩)))
      .minus (.factor (.literal ⟨⟨"4".toList, by decide⟩, none⟩))
    let t : Sum := .extend
      (.product (.extend (.factor (.literal ⟨⟨"2".toList, by decide⟩, none⟩)) .times
        (.signed .plus (.group difference))))
      .minus (.factor (.signed .minus (.literal ⟨⟨"5000000000".toList, by decide⟩, none⟩)))
    (Arithmetic.double.IsExact (2 ^ 53) ∧ t.depth ≤ 128 ∧
      t.value (.integers (2 ^ 53)) = some 4999999998) ∧
      evaluate "2 * +(3 - 4) - -5 000 000 000".toList = .ok 4294967295 := by
  intro difference t
  have htext : t.text = Text.strip "2 * +(3 - 4) - -5 000 000 000".toList := by decide
  have hdepth : t.depth ≤ 128 := by decide
  have hvalue : t.value (.integers (2 ^ 53)) = some 4999999998 := by decide
  obtain ⟨n, hok, hn⟩ :=
    evaluateIn_of_integers .double isExact_double _ t htext hdepth 4999999998 hvalue
  have hlargest : n = 4294967295 := UInt32.toNat_inj.1 (Int.ofNat.inj hn)
  exact ⟨⟨isExact_double, hdepth, hvalue⟩, hlargest ▸ hok⟩

end InventoryQuery.Expression
