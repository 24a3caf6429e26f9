import InventoryQuery.Expression.Syntax
/-!
# Values of amount expressions

The value of a tree is computed in a chosen arithmetic: a type of numbers with the operations that
an expression needs. The arithmetic in use is that of double precision numbers.
-/

namespace InventoryQuery.Expression

/-- A type of numbers in which expressions have values. -/
structure Arithmetic (α : Type) where
  literal : Literal → α
  neg : α → α
  add : α → α → α
  sub : α → α → α
  mul : α → α → α
  div : α → α → α
  /-- The rational number that is meant; there is none for what is infinite or undefined. -/
  rational? : α → Option Rat

variable {α : Type} (A : Arithmetic α)

def Arithmetic.signed : Sign → α → α
  | .plus, x => x
  | .minus, x => A.neg x

def Arithmetic.sum : Sign → α → α → α
  | .plus, x, y => A.add x y
  | .minus, x, y => A.sub x y

def Arithmetic.product : Scale → α → α → α
  | .times, x, y => A.mul x y
  | .divide, x, y => A.div x y

mutual

/-- The value of a sum, folded from left to right. -/
def Sum.value : Sum → α
  | .product p => p.value
  | .extend s op p => A.sum op s.value p.value

/-- The value of a product, folded from left to right. -/
def Product.value : Product → α
  | .factor f => f.value
  | .extend p op f => A.product op p.value f.value

/-- The value of a factor. -/
def Factor.value : Factor → α
  | .literal n => A.literal n
  | .group s => s.value
  | .signed sign f => A.signed sign f.value

end

/-- The digits of a literal without its point, and how many of them follow the point. -/
def Literal.decimal (n : Literal) : Nat × Nat :=
  match n.fraction with
  | none => (Nat.ofDigitChars 10 n.whole.text 0, 0)
  | some digits => (Nat.ofDigitChars 10 (n.whole.text ++ digits.text) 0, digits.text.length)

/-- The rational number that a finite double precision number is: its mantissa times a power of
two. -/
def rationalOfDouble? (x : Float) : Option Rat :=
  match Float.Model.UnpackedFloat.unpack .binary64 x.toBits.toBitVec with
  | .notANumber => none
  | .infinity _ => none
  | .zero _ => some (mkRat 0 1)
  | .finite sign mantissa exponent _ =>
    some (mkRat (sign.apply (Int.ofNat (mantissa <<< exponent.toNat))) (1 <<< (-exponent).toNat))

/-- Double precision numbers. A literal is the nearest one to the decimal number it writes. -/
def Arithmetic.double : Arithmetic Float where
  literal n := Float.ofScientific n.decimal.1 true n.decimal.2
  neg x := -x
  add x y := x + y
  sub x y := x - y
  mul x y := x * y
  div x y := x / y
  rational? := rationalOfDouble?

/-- The whole amount of a number: nothing below zero, rounded down, and the largest amount there is
above that. -/
def amountOf (q : Rat) : UInt32 := UInt32.ofNatClamp q.floor.toNat

end InventoryQuery.Expression
