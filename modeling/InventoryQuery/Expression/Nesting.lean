import InventoryQuery.Expression.Syntax
/-!
# Nesting of an expression text

One pass over a text that tells how deep its reading can nest, without reading it: the number of
parentheses open at a place, and of the signs in front of each of them, and of the signs directly
in front of the place. A sign counts where it cannot be an operator: at the start, and after an
opening parenthesis, a sign or an operator.
-/

namespace InventoryQuery.Expression

/-- The state of the pass in front of a character. -/
structure Nesting where
  /-- For every open parenthesis, the innermost first, the number of signs in front of it. -/
  pending : List Nat
  /-- The open parentheses and the signs in front of them. -/
  depth : Nat
  /-- The signs directly in front of this place. -/
  signs : Nat
  deepest : Nat
  before : Option Char
deriving DecidableEq

namespace Nesting

def start : Nesting := ⟨[], 0, 0, 0, none⟩

/-- Whether a sign after this character, or at the start, cannot be an operator. -/
def opensOperand : Option Char → Bool
  | none => true
  | some c => c == '(' || c == '+' || c == '-' || c == '*' || c == '/'

/-- The state behind the character `c`, apart from what is kept for the answer. -/
def move (n : Nesting) (c : Char) : Nesting :=
  if (c = '+' ∨ c = '-') ∧ opensOperand n.before = true then
    { n with signs := n.signs + 1 }
  else if c = '(' then
    { n with depth := n.depth + (n.signs + 1), pending := n.signs :: n.pending, signs := 0 }
  else if c = ')' then
    match n.pending with
    | [] => { n with signs := 0 }
    | run :: pending => { n with depth := n.depth - (run + 1), pending := pending, signs := 0 }
  else { n with signs := 0 }

def step (n : Nesting) (c : Char) : Nesting :=
  let m := n.move c
  { m with deepest := max m.deepest (m.depth + m.signs), before := some c }

end Nesting

/-- The deepest nesting in a text without blanks. -/
def nesting (s : Text) : Nat := (s.foldl Nesting.step .start).deepest

end InventoryQuery.Expression
