import InventoryQuery.Proofs.Text.Pieces
import InventoryQuery.Text.Numeral
/-!
# Numerals that are written are read

The digits of a number stand for it, and every integer and every word is read from its text.
-/

namespace InventoryQuery.Numeral

theorem isDigit_of_mem_digits {n : Nat} {c : Char} (hc : c ∈ digits n) : c.isDigit = true :=
  Nat.isDigit_of_mem_toDigits (by decide) (by decide) hc

theorem digits_ne_nil (n : Nat) : digits n ≠ [] := Nat.toDigits_ne_nil

theorem isDigits_digits (n : Nat) : isDigits (digits n) = true := by
  rw [isDigits, Bool.and_eq_true, Bool.not_eq_true', List.isEmpty_eq_false_iff, List.all_eq_true]
  exact ⟨digits_ne_nil n, fun c hc => isDigit_of_mem_digits hc⟩

@[simp] theorem ofDigits?_digits (n : Nat) : ofDigits? (digits n) = some n := by
  rw [ofDigits?, if_pos (isDigits_digits n), digits, Nat.ofDigitChars_ten_toDigits]

/-- Only the digits of zero start with one. -/
theorem head?_digits_ne_zero {n : Nat} (hn : n ≠ 0) : (digits n).head? ≠ some '0' := by
  induction n using Nat.strongRecOn with
  | ind n ih =>
    rw [digits]
    rcases Nat.lt_or_ge n 10 with hlt | hge
    · rw [Nat.toDigits_of_lt_base hlt, List.head?_cons]
      intro h
      exact hn ((Nat.digitChar_eq_zero).1 (Option.some.inj h))
    · have hhead : (Nat.toDigits 10 (n / 10)).head? ≠ some '0' := ih (n / 10) (by omega) (by omega)
      rw [Nat.toDigits_of_base_le (by decide) hge, List.head?_append]
      cases hdigits : Nat.toDigits 10 (n / 10) with
      | nil => exact absurd hdigits Nat.toDigits_ne_nil
      | cons c s => rwa [hdigits] at hhead

@[simp] theorem word32?_toNat (w : UInt32) : word32? w.toNat = some w := by
  rw [word32?, dif_pos w.toNat_lt]
  simp

theorem word64?_of_lt {n : Nat} (h : n < UInt64.size) :
    word64? n = some (UInt64.ofNatLT n h) := dif_pos h

@[simp] theorem int32?_toInt (n : Int32) : int32? n.toInt = some n := by
  have hlow := n.minValue_le_toInt
  have hhigh := n.toInt_lt
  rw [int32?, if_pos (by simp at hlow; omega), Int32.ofInt_toInt]

theorem isBlank_of_isDigit {c : Char} (h : c.isDigit = true) : isBlank c = false := by
  obtain ⟨hlow, hhigh⟩ : 48 ≤ c.toNat ∧ c.toNat ≤ 57 := by
    simpa [Char.isDigit, UInt32.le_iff_toNat_le] using h
  simp [isBlank]
  omega

@[simp] theorem trim_digits (n : Nat) : Text.trim (digits n) = digits n :=
  Text.trim_of_forall fun _ hc => isBlank_of_isDigit (isDigit_of_mem_digits hc)

@[simp] theorem trim_integer (n : Int) : Text.trim (integer n) = integer n := by
  cases n with
  | ofNat n => exact trim_digits n
  | negSucc n =>
    apply Text.trim_of_forall
    intro c hc
    rcases List.mem_cons.1 hc with rfl | hc
    · rfl
    · exact isBlank_of_isDigit (isDigit_of_mem_digits hc)

theorem head?_digits_ne {n : Nat} {c : Char} (hc : c.isDigit = false) :
    (digits n).head? ≠ some c := by
  intro h
  have hdigit := isDigit_of_mem_digits (List.mem_of_mem_head? h)
  rw [hc] at hdigit
  cases hdigit

@[simp] theorem unsigned?_digits (n : Nat) : unsigned? (digits n) = some n := by
  unfold unsigned?
  split
  · next s hs => exact absurd (congrArg List.head? hs) (head?_digits_ne rfl)
  · exact ofDigits?_digits n

@[simp] theorem signed?_integer (n : Int) : signed? (integer n) = some n := by
  cases n with
  | ofNat n =>
    have hdigits : integer (.ofNat n) = digits n := rfl
    rw [hdigits]
    unfold signed?
    split
    · next s hs => exact absurd (congrArg List.head? hs) (head?_digits_ne rfl)
    · rw [unsigned?_digits]
      rfl
  | negSucc n =>
    rw [integer, signed?, ofDigits?_digits]
    rfl

@[simp] theorem readUInt32?_digits (n : UInt32) : readUInt32? (digits n.toNat) = some n := by
  rw [readUInt32?, unsigned?_digits, Option.bind_eq_bind, Option.bind_some, word32?_toNat]

@[simp] theorem readUInt64?_digits (n : UInt64) : readUInt64? (digits n.toNat) = some n := by
  rw [readUInt64?, unsigned?_digits, Option.bind_eq_bind, Option.bind_some,
    word64?_of_lt n.toNat_lt, UInt64.ofNatLT_toNat]

@[simp] theorem readInt32?_integer (n : Int32) : readInt32? (integer n.toInt) = some n := by
  rw [readInt32?, signed?_integer, Option.bind_eq_bind, Option.bind_some, int32?_toInt]

end InventoryQuery.Numeral
