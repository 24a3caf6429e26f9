import InventoryQuery.Text.Basic
/-!
# Decimal integers

Plain digits stand for a natural number. Integers that a person types may carry a sign: a plus
sign is always allowed, a minus sign only where negative numbers are. Nothing else is allowed
around the digits, and a number outside the range of its type is no number.
-/

namespace InventoryQuery.Numeral

/-- Whether a text consists of ASCII digits, at least one. -/
def isDigits (s : Text) : Bool := !s.isEmpty && s.all Char.isDigit

/-- The number that plain digits stand for. -/
def ofDigits? (s : Text) : Option Nat :=
  if isDigits s then some (Nat.ofDigitChars 10 s 0) else none

/-- The digits of a number, without leading zeros. -/
def digits (n : Nat) : Text := Nat.toDigits 10 n

/-- The text of an integer: digits, after a minus sign where it is negative. -/
def integer : Int → Text
  | .ofNat n => digits n
  | .negSucc n => '-' :: digits (n + 1)

/-- A typed number that cannot be negative. -/
def unsigned? : Text → Option Nat
  | '+' :: s => ofDigits? s
  | s => ofDigits? s

/-- A typed number of either sign. -/
def signed? : Text → Option Int
  | '-' :: s => (ofDigits? s).map fun n => -(n : Int)
  | s => (unsigned? s).map Int.ofNat

/-- A natural number as a 32-bit word, if it is one. -/
def word32? (n : Nat) : Option UInt32 :=
  if h : n < UInt32.size then some (UInt32.ofNatLT n h) else none

/-- A natural number as a 64-bit word, if it is one. -/
def word64? (n : Nat) : Option UInt64 :=
  if h : n < UInt64.size then some (UInt64.ofNatLT n h) else none

/-- An integer as a signed 32-bit word, if it is one. -/
def int32? (n : Int) : Option Int32 :=
  if -2147483648 ≤ n ∧ n ≤ 2147483647 then some (Int32.ofInt n) else none

/-- A typed unsigned 32-bit number. -/
def readUInt32? (s : Text) : Option UInt32 := unsigned? s >>= word32?

/-- A typed unsigned 64-bit number. -/
def readUInt64? (s : Text) : Option UInt64 := unsigned? s >>= word64?

/-- A typed signed 32-bit number. -/
def readInt32? (s : Text) : Option Int32 := signed? s >>= int32?

end InventoryQuery.Numeral
