import Mathlib
import InventoryQuery.Proofs.Expression.Evaluation
/-!
# Integers as double precision numbers

A double precision number has a mantissa of 53 bits, so it can be any integer of magnitude up to
`2 ^ 53`.  Where a literal, or a sum, a difference or a product of such integers is an integer of
that magnitude again, the number that is computed for it is that integer: what rounding shifts out of
the mantissa is zeros.

Every number here other than zero is kept with the highest bit of its mantissa set, so an integer
determines mantissa and exponent.  An exponent is written as `k - 52`, with a natural number `k`: so
`m * 2 ^ k = n * 2 ^ 52` says that the number with mantissa `m` is `n`.
-/

namespace InventoryQuery.Double

open Float.Model Float.Model.UnpackedFloat
open Expression (rationalOfDouble?)

/-! ## Signs -/

theorem apply_mul (sign : Sign) (a b : ℤ) : sign.apply (a * b) = sign.apply a * b := by
  cases sign
  · exact (Int.neg_mul a b).symm
  · rfl

theorem apply_neg (sign : Sign) (a : ℤ) : (-sign).apply a = -sign.apply a := by
  cases sign
  · exact (Int.neg_neg a).symm
  · rfl

theorem natAbs_apply (sign : Sign) (a : ℤ) : (sign.apply a).natAbs = a.natAbs := by
  cases sign
  · exact Int.natAbs_neg a
  · rfl

theorem apply_mul_sign (s t : Sign) (a b : ℤ) :
    (s * t).apply (a * b) = s.apply a * t.apply b := by
  cases s <;> cases t
  · exact (Int.neg_mul_neg a b).symm
  · exact (Int.neg_mul a b).symm
  · exact (Int.mul_neg a b).symm
  · rfl

/-! ## Rounding -/

/-- A mantissa with its highest bit set. -/
structure IsNormal (m : ℕ) : Prop where
  le : 2 ^ 52 ≤ m
  lt : m < 2 ^ 53

theorem log2_mul_two_pow {n : ℕ} (hn : n ≠ 0) (d : ℕ) : (n * 2 ^ d).log2 = n.log2 + d := by
  induction d with
  | zero => simp
  | succ d ih =>
    have hne : n * 2 ^ d ≠ 0 := Nat.mul_ne_zero hn (Nat.two_pow_pos d).ne'
    rw [pow_succ, ← mul_assoc, mul_comm _ 2, Nat.log2_two_mul hne, ih]
    rfl

theorem eq_mul_two_pow {n m k d : ℕ} (h : n * 2 ^ k = m * 2 ^ (k + d)) : n = m * 2 ^ d := by
  rw [Nat.add_comm, pow_add, ← mul_assoc] at h
  exact Nat.eq_of_mul_eq_mul_right (Nat.two_pow_pos k) h

/-- Bits that are zero are shifted out without a trace. -/
theorem repeat_shiftRightOne (m d : ℕ) :
    d.repeat ExtendedMantissa.shiftRightOne ⟨m * 2 ^ d, false, false⟩ = ⟨m, false, false⟩ := by
  induction d generalizing m with
  | zero => simp [Nat.repeat]
  | succ d ih =>
    rw [Nat.repeat, pow_succ, mul_comm _ 2, ← mul_assoc, ih (m * 2)]
    simp [ExtendedMantissa.shiftRightOne]

theorem targetExponent_binary64 (e : ℤ) :
    Format.binary64.targetExponent e = max (e - 53) (-1074) := rfl

section Rounding

variable {m : ℕ} (hm : IsNormal m) {e : ℤ} (he : -1074 ≤ e) (sign : Sign)

include hm

theorem IsNormal.pos : 0 < m := Nat.lt_of_lt_of_le (by decide) hm.le

theorem IsNormal.log2 : m.log2 = 52 := (Nat.log2_eq_iff hm.pos.ne').2 ⟨hm.le, hm.lt⟩

include he

omit hm in
theorem targetExponent_eq {n : ℕ} {f : ℤ} (hlog : n.log2 + f = 52 + e) :
    Format.binary64.targetExponent (totalExponent n f) = e := by
  rw [targetExponent_binary64, totalExponent]
  omega

theorem targetExponent_mul (d : ℕ) :
    Format.binary64.targetExponent (totalExponent (m * 2 ^ d) (e - d)) = e := by
  apply targetExponent_eq he
  rw [log2_mul_two_pow hm.pos.ne', hm.log2]
  push_cast
  omega

theorem shiftToTargetExponent_mul (d : ℕ) :
    shiftToTargetExponent .binary64 (m * 2 ^ d) (e - d) .exact =
      (ExtendedMantissa.mk m false false, e) := by
  have hshift : (e - (e - d)).toNat = d := by omega
  simp only [shiftToTargetExponent, targetExponent_mul hm he, shiftToExponent, hshift,
    ExtendedMantissa.ofMantissaAndAccuracy, HShiftRight.hShiftRight, repeat_shiftRightOne,
    Int.sub_add_cancel]

theorem roundWithAccuracy_mul (d : ℕ) :
    roundWithAccuracy .binary64 sign (m * 2 ^ d) (e - d) .exact = .finite sign m e hm.pos := by
  -- The mantissa is not rounded up, so the second shift finds nothing to do.
  have hagain := shiftToTargetExponent_mul hm he 0
  simp only [pow_zero, mul_one, Nat.cast_zero, Int.sub_zero] at hagain
  have hrounded : (ExtendedMantissa.mk m false false).roundedMantissa = m := rfl
  simp only [roundWithAccuracy, shiftToTargetExponent_mul hm he, hrounded, hagain,
    dif_neg hm.pos.ne']

theorem round_mul (d : ℕ) :
    UnpackedFloat.round .binary64 sign (m * 2 ^ d) (e - d) = .finite sign m e hm.pos := by
  have hshift : (e - d - e).toNat = 0 := by omega
  rw [UnpackedFloat.round, targetExponent_mul hm he, decreaseExponent, hshift]
  simpa using roundWithAccuracy_mul hm he sign d

theorem round_of_mul_eq {n d : ℕ} (h : n * 2 ^ d = m) :
    UnpackedFloat.round .binary64 sign n (e + d) = .finite sign m e hm.pos := by
  have hn : n ≠ 0 := by
    rintro rfl
    have hpos := hm.pos
    omega
  have htarget : Format.binary64.targetExponent (totalExponent n (e + d)) = e := by
    apply targetExponent_eq he
    have hlog := log2_mul_two_pow hn d
    rw [h, hm.log2] at hlog
    omega
  have hshift : (e + d - e).toNat = d := by omega
  have hround := roundWithAccuracy_mul hm he sign 0
  rw [pow_zero, mul_one, Nat.cast_zero, Int.sub_zero] at hround
  rw [UnpackedFloat.round, htarget, decreaseExponent, hshift, Nat.shiftLeft_eq, h]
  simpa using hround

end Rounding

/-! ## Integers -/

theorem exists_isNormal {n : ℕ} (hpos : 0 < n) (hle : n ≤ 2 ^ 53) :
    ∃ m k, IsNormal m ∧ k ≤ 53 ∧ m * 2 ^ k = n * 2 ^ 52 := by
  rcases Nat.lt_or_eq_of_le hle with hlt | rfl
  · have hlog : n.log2 ≤ 52 := Nat.lt_succ_iff.1 ((Nat.log2_lt hpos.ne').2 hlt)
    refine ⟨n * 2 ^ (52 - n.log2), n.log2, ⟨?_, ?_⟩, by omega, ?_⟩
    · calc 2 ^ 52 = 2 ^ n.log2 * 2 ^ (52 - n.log2) := by rw [← pow_add, Nat.add_sub_cancel' hlog]
        _ ≤ n * 2 ^ (52 - n.log2) := Nat.mul_le_mul_right _ (Nat.log2_self_le hpos.ne')
    · calc n * 2 ^ (52 - n.log2) < 2 ^ (n.log2 + 1) * 2 ^ (52 - n.log2) :=
          Nat.mul_lt_mul_of_pos_right Nat.lt_log2_self (Nat.two_pow_pos _)
        _ = 2 ^ 53 := by rw [← pow_add]; congr 1; omega
    · rw [mul_assoc, ← pow_add, Nat.sub_add_cancel hlog]
  · exact ⟨2 ^ 52, 53, ⟨by decide, by decide⟩, by decide, by decide⟩

/-- An integer as zero, or with a mantissa whose highest bit is set. -/
inductive IsInteger : UnpackedFloat → ℤ → Prop
  | zero (sign : Sign) : IsInteger (.zero sign) 0
  | finite {sign : Sign} {m k : ℕ} {i : ℤ} (hm : IsNormal m) (hk : k ≤ 53)
      (h : sign.apply ↑(m * 2 ^ k) = i * 2 ^ 52) : IsInteger (.finite sign m (k - 52) hm.pos) i

/-- A natural number with a sign is rounded to itself. -/
theorem isInteger_round {n k N : ℕ} (sign : Sign) (h : n * 2 ^ k = N * 2 ^ 52) (hpos : 0 < N)
    (hle : N ≤ 2 ^ 53) :
    IsInteger (UnpackedFloat.round .binary64 sign n (k - 52)) (sign.apply N) := by
  obtain ⟨m, l, hm, hl, hvalue⟩ := exists_isNormal hpos hle
  have hfinite : IsInteger (.finite sign m (l - 52) hm.pos) (sign.apply N) :=
    .finite hm hl (by rw [hvalue, Nat.cast_mul, apply_mul]; rfl)
  rw [← hvalue] at h
  have he : (-1074 : ℤ) ≤ l - 52 := by omega
  rcases Nat.le_total k l with hkl | hkl
  · obtain ⟨d, rfl⟩ := Nat.exists_eq_add_of_le hkl
    have hexponent : (k : ℤ) - 52 = (k + d : ℕ) - 52 - d := by omega
    rw [eq_mul_two_pow h, hexponent, round_mul hm he sign d]
    exact hfinite
  · obtain ⟨d, rfl⟩ := Nat.exists_eq_add_of_le hkl
    have hexponent : ((l + d : ℕ) : ℤ) - 52 = l - 52 + d := by omega
    rw [hexponent, round_of_mul_eq hm he sign (eq_mul_two_pow h.symm).symm]
    exact hfinite

/-- A result that is an integer is rounded to itself. -/
theorem isInteger_normalize {n i : ℤ} {k : ℕ} (zeroSign : Sign) (h : n * 2 ^ k = i * 2 ^ 52)
    (hle : i.natAbs ≤ 2 ^ 53) : IsInteger (UnpackedFloat.normalize .binary64 n (k - 52) zeroSign) i := by
  have hmagnitude : n.natAbs * 2 ^ k = i.natAbs * 2 ^ 52 := by
    simpa [Int.natAbs_mul, Int.natAbs_pow] using congrArg Int.natAbs h
  have hsign : n.sign = i.sign := by
    have hpower : ∀ d : ℕ, (2 ^ d : ℤ).sign = 1 := fun d => Int.sign_eq_one_of_pos (by positivity)
    have hsigns := congrArg Int.sign h
    rwa [Int.sign_mul, Int.sign_mul, hpower, hpower, mul_one, mul_one] at hsigns
  rcases lt_trichotomy n 0 with hn | rfl | hn
  · have hi : i < 0 := by rwa [← Int.sign_eq_neg_one_iff_neg, ← hsign, Int.sign_eq_neg_one_iff_neg]
    have hround := isInteger_round .negative hmagnitude (by omega) hle
    have happly : Sign.negative.apply i.natAbs = i := by
      rw [Sign.apply]
      omega
    have hmantissa : (-n).toNat = n.natAbs := by omega
    rw [happly] at hround
    rw [UnpackedFloat.normalize, Int.compare_eq_lt.2 hn, hmantissa]
    exact hround
  · obtain rfl : i = 0 := Int.sign_eq_zero_iff_zero.1 hsign.symm
    exact .zero zeroSign
  · have hi : 0 < i := by rwa [← Int.sign_eq_one_iff_pos, ← hsign, Int.sign_eq_one_iff_pos]
    have hround := isInteger_round .positive hmagnitude (by omega) hle
    have happly : Sign.positive.apply i.natAbs = i := by
      rw [Sign.apply]
      omega
    have hmantissa : n.toNat = n.natAbs := by omega
    rw [happly] at hround
    rw [UnpackedFloat.normalize, Int.compare_eq_gt.2 hn, hmantissa]
    exact hround

/-- With a smaller exponent, a number has a larger mantissa. -/
theorem apply_aligned {sign : Sign} {m k l : ℕ} {i : ℤ} (h : sign.apply ↑(m * 2 ^ k) = i * 2 ^ 52)
    (hl : l ≤ k) :
    sign.apply ↑(decreaseExponent m (k - 52) (l - 52)).1 * 2 ^ l = i * 2 ^ 52 := by
  have hshift : ((k - 52 : ℤ) - (l - 52)).toNat = k - l := by omega
  rw [decreaseExponent, hshift, Nat.shiftLeft_eq, ← h, ← Nat.sub_add_cancel hl, pow_add,
    ← mul_assoc, Nat.cast_mul _ (2 ^ l), apply_mul]
  simp

/-- The product of two normal mantissas has bits to spare. -/
theorem exists_of_product {m m' n a b : ℕ} (hm : IsNormal m) (hm' : IsNormal m') (hn : IsNormal n)
    (h : m * m' * 2 ^ a = n * 2 ^ b) : ∃ d, a + d = b ∧ m * m' = n * 2 ^ d := by
  have hab : a ≤ b := by
    refine Nat.le_of_not_lt fun hlt => ?_
    have hpower : 2 ^ b ≤ 2 ^ a := Nat.pow_le_pow_right (by decide) hlt.le
    have hproduct : 2 ^ 52 * 2 ^ 52 ≤ m * m' := Nat.mul_le_mul hm.le hm'.le
    have hless : n * 2 ^ b < m * m' * 2 ^ a := by
      calc n * 2 ^ b < 2 ^ 53 * 2 ^ b := Nat.mul_lt_mul_of_pos_right hn.lt (Nat.two_pow_pos b)
        _ ≤ m * m' * 2 ^ a := Nat.mul_le_mul (Nat.le_trans (by decide) hproduct) hpower
    omega
  obtain ⟨d, rfl⟩ := Nat.exists_eq_add_of_le hab
  exact ⟨d, rfl, eq_mul_two_pow h⟩

theorem isInteger_product {s t : Sign} {m m' k k' : ℕ} {i j : ℤ} (hm : IsNormal m)
    (hm' : IsNormal m') (h : s.apply ↑(m * 2 ^ k) = i * 2 ^ 52)
    (h' : t.apply ↑(m' * 2 ^ k') = j * 2 ^ 52) (hle : (i * j).natAbs ≤ 2 ^ 53) :
    IsInteger (roundWithAccuracy .binary64 (s * t) (m * m') (k - 52 + (k' - 52)) .exact)
      (i * j) := by
  have hproduct : (s * t).apply ↑(m * m' * 2 ^ (k + k')) = i * j * 2 ^ 52 * 2 ^ 52 := by
    have hmul : ((m * m' * 2 ^ (k + k') : ℕ) : ℤ) = ↑(m * 2 ^ k) * ↑(m' * 2 ^ k') := by
      push_cast
      ring
    rw [hmul, apply_mul_sign, h, h']
    ring
  have hmagnitude : m * m' * 2 ^ (k + k') = (i * j).natAbs * 2 ^ 52 * 2 ^ 52 := by
    have habs := congrArg Int.natAbs hproduct
    simpa [natAbs_apply, Int.natAbs_mul, Int.natAbs_pow] using habs
  have hpos : 0 < (i * j).natAbs := by
    have hleft : 0 < m * m' * 2 ^ (k + k') :=
      Nat.mul_pos (Nat.mul_pos hm.pos hm'.pos) (Nat.two_pow_pos _)
    rw [hmagnitude] at hleft
    omega
  obtain ⟨n, l, hn, hl, hvalue⟩ := exists_isNormal hpos hle
  rw [← hvalue, mul_assoc n, ← pow_add] at hmagnitude
  obtain ⟨d, hd, hmantissa⟩ := exists_of_product hm hm' hn hmagnitude
  have hexponent : (k - 52 + (k' - 52) : ℤ) = l - 52 - d := by omega
  rw [hmantissa, hexponent, roundWithAccuracy_mul hn (by omega) (s * t) d]
  refine .finite hn hl ?_
  rw [hmagnitude, pow_add, ← mul_assoc, Nat.cast_mul, apply_mul] at hproduct
  exact Int.eq_of_mul_eq_mul_right (by decide) hproduct

section Operations

variable {u v : UnpackedFloat} {i j : ℤ} (hu : IsInteger u i) (hv : IsInteger v j)

include hu

theorem isInteger_neg : IsInteger u.neg (-i) := by
  cases hu with
  | zero sign => exact .zero _
  | finite hm hk h => exact .finite hm hk (by rw [apply_neg, h, Int.neg_mul])

include hv

theorem isInteger_add (hle : (i + j).natAbs ≤ 2 ^ 53) :
    IsInteger (UnpackedFloat.add .binary64 u v) (i + j) := by
  cases hu with
  | zero s =>
    cases hv with
    | zero t =>
      rw [UnpackedFloat.add]
      split
      · exact .zero _
      · exact .zero _
    | finite hm hk h =>
      rw [Int.zero_add]
      exact .finite hm hk h
  | @finite s m k _ hm hk h =>
    cases hv with
    | zero t =>
      rw [Int.add_zero]
      exact .finite hm hk h
    | @finite t m' k' _ hm' hk' h' =>
      have hmin : min (k - 52 : ℤ) (k' - 52) = (min k k' : ℕ) - 52 := by omega
      simp only [UnpackedFloat.add, hmin]
      refine isInteger_normalize _ ?_ hle
      rw [Int.add_mul, Int.add_mul, apply_aligned h (Nat.min_le_left k k'),
        apply_aligned h' (Nat.min_le_right k k')]

theorem isInteger_sub (hle : (i - j).natAbs ≤ 2 ^ 53) :
    IsInteger (UnpackedFloat.sub .binary64 u v) (i - j) := by
  have hneg : UnpackedFloat.sub .binary64 u v = UnpackedFloat.add .binary64 u v.neg := by
    cases hu with
    | zero s => cases hv <;> rfl
    | finite hm hk h =>
      cases hv with
      | zero t => rfl
      | finite hm' hk' h' =>
        simp only [UnpackedFloat.sub, UnpackedFloat.add, UnpackedFloat.neg, apply_neg,
          Int.sub_eq_add_neg]
  rw [Int.sub_eq_add_neg] at hle
  rw [hneg, Int.sub_eq_add_neg]
  exact isInteger_add hu (isInteger_neg hv) hle

theorem isInteger_mul (hle : (i * j).natAbs ≤ 2 ^ 53) :
    IsInteger (UnpackedFloat.mul .binary64 u v) (i * j) := by
  cases hu with
  | zero s =>
    rw [Int.zero_mul]
    cases hv with
    | zero t => exact .zero _
    | finite hm hk h => exact .zero _
  | finite hm hk h =>
    cases hv with
    | zero t =>
      rw [Int.mul_zero]
      exact .zero _
    | finite hm' hk' h' => exact isInteger_product hm hm' h h' hle

end Operations

/-! ## Packed numbers -/

theorem toNat_append_mantissa (b : BitVec 52) : (1#1 ++ b).toNat = 2 ^ 52 + b.toNat := by
  rw [BitVec.toNat_append, ← Nat.shiftLeft_add_eq_or_of_lt b.isLt]
  rfl

theorem exponentBias_binary64 : Format.binary64.exponentBias = 1023 := rfl

theorem ofNat_ne {a b : ℕ} (ha : a < 2 ^ 11) (hb : b < 2 ^ 11) (hne : a ≠ b) :
    BitVec.ofNat 11 a ≠ BitVec.ofNat 11 b := by
  intro h
  have htoNat := congrArg BitVec.toNat h
  rw [BitVec.toNat_ofNat, BitVec.toNat_ofNat, Nat.mod_eq_of_lt ha, Nat.mod_eq_of_lt hb] at htoNat
  exact hne htoNat

theorem pack_finite {m : ℕ} (hm : IsNormal m) {k : ℕ} (hk : k ≤ 53) (sign : Sign) :
    UnpackedFloat.pack .binary64 (.finite sign m (k - 52) hm.pos) =
      packComponents .binary64 sign (BitVec.ofNat 11 (k + 1023)) (BitVec.ofNat 52 m) := by
  have hbiased : ((k - 52 : ℤ) + Format.binary64.exponentBias +
      Format.binary64.mantissaBitsWithoutImplicit).toNat = k + 1023 := by
    rw [exponentBias_binary64]
    simp only
    omega
  have hlog : m.log2 + 1 = Format.binary64.mantissaBits := by
    rw [hm.log2]
    rfl
  have hfinite : ¬2 ^ Format.binary64.exponentBits ≤ k + 1023 + 1 := by
    simp only
    omega
  simp only [UnpackedFloat.pack]
  rw [hbiased, if_neg hfinite, if_pos hlog]

theorem unpack_pack_finite {m : ℕ} (hm : IsNormal m) {k : ℕ} (hk : k ≤ 53) (sign : Sign) :
    UnpackedFloat.unpack .binary64 (UnpackedFloat.pack .binary64 (.finite sign m (k - 52) hm.pos)) =
      .finite sign m (k - 52) hm.pos := by
  have hexponent : (BitVec.ofNat 11 (k + 1023)).toNat = k + 1023 := by
    rw [BitVec.toNat_ofNat, Nat.mod_eq_of_lt (by omega)]
  have hmantissa : (1#1 ++ BitVec.ofNat 52 m).toNat = m := by
    have hle := hm.le
    have hlt := hm.lt
    rw [toNat_append_mantissa, BitVec.toNat_ofNat]
    omega
  have hones : BitVec.ofNat 11 (k + 1023) ≠ -1#11 :=
    ofNat_ne (b := 2047) (by omega) (by decide) (by omega)
  have hzero : BitVec.ofNat 11 (k + 1023) ≠ 0#11 :=
    ofNat_ne (b := 0) (by omega) (by decide) (by omega)
  have hbias : (k + 1023 : ℕ) - (Format.binary64.exponentBias + 52 : ℤ) = k - 52 := by
    rw [exponentBias_binary64]
    omega
  rw [pack_finite hm hk]
  simp only [UnpackedFloat.unpack, unpackExponent_packComponents, unpackMantissa_packComponents,
    unpackSign_packComponents, if_neg hones, if_neg hzero, hexponent, hmantissa,
    Sign.ofBitVec_toBitVec]
  simp only [UnpackedFloat.finite.injEq, true_and]
  exact hbias

/-- An integer fits, so nothing is lost when it is packed. -/
theorem unpack_pack {u : UnpackedFloat} {i : ℤ} (h : IsInteger u i) :
    UnpackedFloat.unpack .binary64 (UnpackedFloat.pack .binary64 u) = u := by
  cases h with
  | zero sign => exact unpack_packedZero
  | @finite sign m k _ hm hk h => exact unpack_pack_finite hm hk sign

/-! ## The rational numbers that are meant -/

theorem mkRat_eq_intCast_iff {a i : ℤ} {b : ℕ} (hb : b ≠ 0) : mkRat a b = i ↔ a = i * b := by
  rw [Rat.mkRat_eq_div, div_eq_iff (by exact_mod_cast hb)]
  exact_mod_cast Iff.rfl

/-- Where the exponent is none that shifts to the left, its opposite is one, and the other way
round. -/
theorem mkRat_eq_iff {sign : Sign} {m k : ℕ} {i : ℤ} :
    mkRat (sign.apply (Int.ofNat (m <<< (k - 52 : ℤ).toNat))) (1 <<< (-(k - 52 : ℤ)).toNat) = i ↔
      sign.apply ↑(m * 2 ^ k) = i * 2 ^ 52 := by
  obtain ⟨a, ha⟩ : ∃ a, a = (k - 52 : ℤ).toNat := ⟨_, rfl⟩
  obtain ⟨b, hb⟩ : ∃ b, b = (-(k - 52 : ℤ)).toNat := ⟨_, rfl⟩
  have hshift : a + 52 = b + k := by omega
  have hpower : ∀ d, sign.apply ((m * 2 ^ d : ℕ) : ℤ) = sign.apply m * 2 ^ d := by
    intro d
    rw [Nat.cast_mul, apply_mul]
    push_cast
    rfl
  rw [← ha, ← hb, mkRat_eq_intCast_iff (by simp [Nat.shiftLeft_eq]), Nat.shiftLeft_eq,
    Nat.shiftLeft_eq, one_mul, Int.ofNat_eq_natCast, hpower, hpower,
    Nat.cast_pow, Nat.cast_ofNat]
  have hleft : sign.apply m * 2 ^ a * 2 ^ k = sign.apply m * 2 ^ k * 2 ^ a := by ring
  have hright : i * 2 ^ b * 2 ^ k = i * 2 ^ 52 * 2 ^ a := by
    rw [mul_assoc, mul_assoc, ← pow_add, ← pow_add, ← hshift, Nat.add_comm 52 a]
  constructor
  · intro h
    refine Int.eq_of_mul_eq_mul_right (pow_ne_zero a two_ne_zero) ?_
    rw [← hleft, h, hright]
  · intro h
    refine Int.eq_of_mul_eq_mul_right (pow_ne_zero k two_ne_zero) ?_
    rw [hleft, h, hright]

theorem rationalOfDouble?_eq {x : Float} {i : ℤ}
    (h : IsInteger (UnpackedFloat.unpack .binary64 x.toBits.toBitVec) i) :
    rationalOfDouble? x = some (i : ℚ) := by
  rw [rationalOfDouble?]
  generalize UnpackedFloat.unpack .binary64 x.toBits.toBitVec = u at h
  cases h with
  | zero sign => rfl
  | finite hm hk h => exact congrArg some (mkRat_eq_iff.2 h)

/-- Only the smallest exponent stands with a mantissa whose highest bit is not set. -/
theorem shape_unpack {b : BitVec 64} {sign : Sign} {m : ℕ} {e : ℤ} {hpos : 0 < m}
    (h : UnpackedFloat.unpack .binary64 b = .finite sign m e hpos) :
    m < 2 ^ 53 ∧ (2 ^ 52 ≤ m ∨ e = -1074) := by
  have hlt : (@unpackMantissa .binary64 b).toNat < 2 ^ 52 := BitVec.isLt _
  unfold UnpackedFloat.unpack at h
  dsimp only at h
  split at h
  · split at h <;> cases h
  · split at h
    · split at h
      · cases h
      · next hzero _ =>
        rw [UnpackedFloat.finite.injEq, hzero] at h
        obtain ⟨-, rfl, rfl⟩ := h
        exact ⟨by omega, .inr rfl⟩
    · rw [UnpackedFloat.finite.injEq, toNat_append_mantissa] at h
      omega

/-- An integer other than zero is not made of so small an exponent. -/
theorem exponent_bounds {m N : ℕ} {e : ℤ} (hlt : m < 2 ^ 53) (hshape : 2 ^ 52 ≤ m ∨ e = -1074)
    (hpos : 0 < N) (hle : N ≤ 2 ^ 53) (h : m * 2 ^ e.toNat = N * 2 ^ (-e).toNat) :
    2 ^ 52 ≤ m ∧ -52 ≤ e ∧ e ≤ 1 := by
  have hlow : -52 ≤ e := by
    refine Int.not_lt.1 fun hless => ?_
    have hzero : e.toNat = 0 := by omega
    have hpower : 2 ^ 53 ≤ 2 ^ (-e).toNat := Nat.pow_le_pow_right (by decide) (by omega)
    have hmul : 2 ^ (-e).toNat ≤ N * 2 ^ (-e).toNat := Nat.le_mul_of_pos_left _ hpos
    rw [hzero, pow_zero, mul_one] at h
    omega
  have hnormal : 2 ^ 52 ≤ m := hshape.resolve_right (by omega)
  refine ⟨hnormal, hlow, Int.not_lt.1 fun hless => ?_⟩
  have hzero : (-e).toNat = 0 := by omega
  have hpower : 2 ^ 2 ≤ 2 ^ e.toNat := Nat.pow_le_pow_right (by decide) (by omega)
  have hmul : 2 ^ 52 * 2 ^ 2 ≤ m * 2 ^ e.toNat := Nat.mul_le_mul hnormal hpower
  rw [h, hzero, pow_zero, mul_one] at hmul
  omega

theorem isInteger_of_rationalOfDouble? {x : Float} {i : ℤ} (h : rationalOfDouble? x = some (i : ℚ))
    (hle : i.natAbs ≤ 2 ^ 53) :
    IsInteger (UnpackedFloat.unpack .binary64 x.toBits.toBitVec) i := by
  rw [rationalOfDouble?] at h
  split at h
  · cases h
  · cases h
  · next sign hu =>
    have hzero : (i : ℚ) = 0 := (Option.some.inj h).symm
    obtain rfl : i = 0 := Int.cast_eq_zero.1 hzero
    rw [hu]
    exact .zero sign
  · next sign m e hpos hu =>
    have hvalue := Option.some.inj h
    obtain ⟨hlt, hshape⟩ := shape_unpack hu
    have hmagnitude : m * 2 ^ e.toNat = i.natAbs * 2 ^ (-e).toNat := by
      have hint := (mkRat_eq_intCast_iff (by simp [Nat.shiftLeft_eq])).1 hvalue
      have habs := congrArg Int.natAbs hint
      simpa [natAbs_apply, Int.natAbs_mul, Nat.shiftLeft_eq] using habs
    have hi : 0 < i.natAbs := by
      refine Nat.pos_of_ne_zero fun hzero => ?_
      have hleft : 0 < m * 2 ^ e.toNat := Nat.mul_pos hpos (Nat.two_pow_pos _)
      rw [hmagnitude, hzero, Nat.zero_mul] at hleft
      exact Nat.lt_irrefl 0 hleft
    obtain ⟨hnormal, hlow, hhigh⟩ := exponent_bounds hlt hshape hi hle hmagnitude
    obtain ⟨k, rfl⟩ : ∃ k : ℕ, e = k - 52 := ⟨(e + 52).toNat, by omega⟩
    rw [hu]
    exact .finite ⟨hnormal, hlt⟩ (by omega) (mkRat_eq_iff.1 hvalue)

/-! ## Double precision arithmetic -/

theorem rationalOfDouble?_of_pack {x : Float} {u : UnpackedFloat} {i : ℤ} (h : IsInteger u i)
    (hx : x.toBits.toBitVec = UnpackedFloat.pack .binary64 u) :
    rationalOfDouble? x = some (i : ℚ) := by
  apply rationalOfDouble?_eq
  rw [hx, unpack_pack h]
  exact h

section Arithmetic

variable {x y : Float} {i j : ℤ}
variable (hx : rationalOfDouble? x = some (i : ℚ)) (hi : i.natAbs ≤ 2 ^ 53)

include hx hi

theorem rationalOfDouble?_neg : rationalOfDouble? (-x) = some ((-i : ℤ) : ℚ) :=
  rationalOfDouble?_of_pack (isInteger_neg (isInteger_of_rationalOfDouble? hx hi)) rfl

variable (hy : rationalOfDouble? y = some (j : ℚ)) (hj : j.natAbs ≤ 2 ^ 53)

include hy hj

theorem rationalOfDouble?_add (hle : (i + j).natAbs ≤ 2 ^ 53) :
    rationalOfDouble? (x + y) = some ((i + j : ℤ) : ℚ) := by
  have hu := isInteger_of_rationalOfDouble? hx hi
  have hv := isInteger_of_rationalOfDouble? hy hj
  exact rationalOfDouble?_of_pack (isInteger_add hu hv hle) rfl

theorem rationalOfDouble?_sub (hle : (i - j).natAbs ≤ 2 ^ 53) :
    rationalOfDouble? (x - y) = some ((i - j : ℤ) : ℚ) := by
  have hu := isInteger_of_rationalOfDouble? hx hi
  have hv := isInteger_of_rationalOfDouble? hy hj
  exact rationalOfDouble?_of_pack (isInteger_sub hu hv hle) rfl

theorem rationalOfDouble?_mul (hle : (i * j).natAbs ≤ 2 ^ 53) :
    rationalOfDouble? (x * y) = some ((i * j : ℤ) : ℚ) := by
  have hu := isInteger_of_rationalOfDouble? hx hi
  have hv := isInteger_of_rationalOfDouble? hy hj
  exact rationalOfDouble?_of_pack (isInteger_mul hu hv hle) rfl

end Arithmetic

/-- One is the number that a literal without fraction is divided by. -/
theorem unpack_one :
    UnpackedFloat.unpack .binary64 (Float.exactlyRepresentablePowersOfTen[0]).toBits.toBitVec =
      .finite .positive (2 ^ 52) (-52) (by decide) := rfl

theorem divCore_one {m : ℕ} (hm : IsNormal m) (k : ℕ) :
    divCore .binary64 m (k - 52) (2 ^ 52) (-52) =
      (m * 2 ^ 1, (k : ℤ) - 52 - (1 : ℕ), Accuracy.exact) := by
  have htarget : Format.binary64.targetExponent
      (totalExponent m (k - 52) - totalExponent (2 ^ 52) (-52)) = k - 53 := by
    rw [targetExponent_binary64, totalExponent, totalExponent, hm.log2, Nat.log2_two_pow]
    omega
  have hmin : min ((k - 52 : ℤ) - -52) (k - 53) = k - 53 := by omega
  have hshift : ((k - 52 : ℤ) - -52 - (k - 53)).toNat = 53 := by omega
  have hmantissa : m <<< 53 = m * 2 ^ 1 * 2 ^ 52 := by rw [Nat.shiftLeft_eq, mul_assoc, ← pow_add]
  have hexponent : (k - 53 : ℤ) = k - 52 - (1 : ℕ) := by omega
  simp only [divCore, htarget, hmin, hshift, hmantissa, Nat.mul_div_cancel _ (Nat.two_pow_pos 52),
    Nat.mul_mod_left, accuracyOfFraction, if_true]
  rw [hexponent]

theorem isInteger_div_one {u : UnpackedFloat} {i : ℤ} (hu : IsInteger u i) :
    IsInteger (UnpackedFloat.div .binary64 u (.finite .positive (2 ^ 52) (-52) (by decide))) i := by
  cases hu with
  | zero sign => exact .zero _
  | @finite sign m k _ hm hk h =>
    have hsign : sign / .positive = sign := by cases sign <;> rfl
    simp only [UnpackedFloat.div, divCore_one hm, hsign]
    rw [roundWithAccuracy_mul hm (by omega) sign 1]
    exact .finite hm hk h

theorem isInteger_toFloat {n : ℕ} (hn : n < 2 ^ 53) :
    IsInteger (UnpackedFloat.unpack .binary64 n.toUInt64.toFloat.toBits.toBitVec) n := by
  have htoNat : n.toUInt64.toNat = n := UInt64.toNat_ofNat_of_lt (Nat.lt_trans hn (by decide))
  have hinteger : IsInteger (UnpackedFloat.ofNat .binary64 n.toUInt64.toNat) n := by
    rw [htoNat]
    exact isInteger_normalize (k := 52) .positive rfl (by omega)
  have hpack : n.toUInt64.toFloat.toBits.toBitVec =
      UnpackedFloat.pack .binary64 (UnpackedFloat.ofNat .binary64 n.toUInt64.toNat) := rfl
  rw [hpack, unpack_pack hinteger]
  exact hinteger

theorem rationalOfDouble?_ofScientific {n : ℕ} (hn : n ≤ 2 ^ 53) :
    rationalOfDouble? (Float.ofScientific n true 0) = some ((n : ℤ) : ℚ) := by
  rcases Nat.lt_or_eq_of_le hn with hlt | rfl
  · rw [Float.ofScientific, dif_pos ⟨hlt, by decide⟩]
    have hquotient := isInteger_div_one (isInteger_toFloat hlt)
    rw [← unpack_one] at hquotient
    exact rationalOfDouble?_of_pack hquotient rfl
  · decide +kernel

end InventoryQuery.Double
