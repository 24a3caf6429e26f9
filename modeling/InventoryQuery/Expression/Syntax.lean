import InventoryQuery.Text.Numeral
/-!
# Syntax of amount expressions

The grammar, with repetition grouping to the left and signs binding tightest:

    sum     = product, or sum, "+" or "-", product
    product = factor, or product, "*" or "/", factor
    factor  = literal, or "(" sum ")", or "+" or "-", factor
    literal = digits, or digits "." digits

A tree of one of the four types is a derivation of the text that `text` gives.
-/

namespace InventoryQuery.Expression

/-- One or more ASCII digits. -/
structure Digits where
  text : Text
  isDigits : Numeral.isDigits text = true
deriving DecidableEq

/-- A number without sign, with an optional fraction. -/
structure Literal where
  whole : Digits
  fraction : Option Digits
deriving DecidableEq

/-- The operators of a sum, and the signs of a factor. -/
inductive Sign where
  | plus
  | minus
deriving DecidableEq

/-- The operators of a product. -/
inductive Scale where
  | times
  | divide
deriving DecidableEq

mutual

inductive Sum where
  | product (p : Product)
  | extend (s : Sum) (op : Sign) (p : Product)

inductive Product where
  | factor (f : Factor)
  | extend (p : Product) (op : Scale) (f : Factor)

inductive Factor where
  | literal (n : Literal)
  | group (s : Sum)
  | signed (sign : Sign) (f : Factor)

end

def Sign.char : Sign → Char
  | .plus => '+'
  | .minus => '-'

def Scale.char : Scale → Char
  | .times => '*'
  | .divide => '/'

/-- The sign that a character writes. -/
def sign? (c : Char) : Option Sign :=
  if c = '+' then some .plus else if c = '-' then some .minus else none

/-- The operator of a product that a character writes. -/
def scale? (c : Char) : Option Scale :=
  if c = '*' then some .times else if c = '/' then some .divide else none

def Literal.text (n : Literal) : Text :=
  n.whole.text ++ match n.fraction with
    | none => []
    | some digits => '.' :: digits.text

mutual

/-- The text of which a sum is a derivation. -/
def Sum.text : Sum → Text
  | .product p => p.text
  | .extend s op p => s.text ++ op.char :: p.text

/-- The text of which a product is a derivation. -/
def Product.text : Product → Text
  | .factor f => f.text
  | .extend p op f => p.text ++ op.char :: f.text

/-- The text of which a factor is a derivation. -/
def Factor.text : Factor → Text
  | .literal n => n.text
  | .group s => '(' :: (s.text ++ [')'])
  | .signed sign f => sign.char :: f.text

end

mutual

/-- The largest number of parentheses and signs around a literal of a sum. -/
def Sum.depth : Sum → Nat
  | .product p => p.depth
  | .extend s _ p => max s.depth p.depth

/-- The largest number of parentheses and signs around a literal of a product. -/
def Product.depth : Product → Nat
  | .factor f => f.depth
  | .extend p _ f => max p.depth f.depth

/-- The largest number of parentheses and signs around a literal of a factor. -/
def Factor.depth : Factor → Nat
  | .literal _ => 0
  | .group s => s.depth + 1
  | .signed _ f => f.depth + 1

end

end InventoryQuery.Expression
