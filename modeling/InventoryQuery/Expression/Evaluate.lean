import InventoryQuery.Text.Blank
import InventoryQuery.Text.Quoted
import InventoryQuery.Expression.Arithmetic
import InventoryQuery.Expression.Nesting
import InventoryQuery.Expression.Reader
/-!
# Evaluating amount expressions

Blanks are dropped first, wherever they stand. A text that nests too deeply is refused before it is
read; a text that is read only in part is refused with what is left of it.
-/

namespace InventoryQuery.Expression

/-- Why a text gives no amount. -/
inductive Failure where
  | empty
  | tooDeep
  /-- Nothing at the start is an expression: digits are missing in front of this part of the text. -/
  | unreadable (place : Text)
  /-- An expression, and then something that does not belong to it. -/
  | trailing (rest : Text)
  | notFinite
deriving DecidableEq

/-- The deepest nesting that is read. -/
def maxNesting : Nat := 128

/-- The wording of a failure. -/
def Failure.message : Failure → Text
  | .empty => "empty expression".toList
  | .tooDeep =>
    "expression nests deeper than ".toList ++ Numeral.digits maxNesting ++ " levels".toList
  | .unreadable place =>
    "parse error: Parsing Error: Error \x7b input: ".toList ++ Quoted.text place
      ++ ", code: Digit \x7d".toList
  | .trailing rest => "unexpected trailing: ".toList ++ rest
  | .notFinite => "expression does not evaluate to a finite number".toList

/-- The tree of a text without blanks. -/
def parse (s : Text) : Except Failure Sum :=
  if s = [] then .error .empty
  else if maxNesting < nesting s then .error .tooDeep
  else match readSum s with
    | .error place => .error (.unreadable place)
    | .ok (t, ⟨[], _⟩) => .ok t
    | .ok (_, ⟨rest, _⟩) => .error (.trailing rest)

/-- The amount that a text expresses in an arithmetic. -/
def evaluateIn {α : Type} (A : Arithmetic α) (text : Text) : Except Failure UInt32 :=
  match parse (Text.strip text) with
  | .error failure => .error failure
  | .ok t =>
    match A.rational? (t.value A) with
    | none => .error .notFinite
    | some q => .ok (amountOf q)

/-- The amount that a text expresses. -/
def evaluate (text : Text) : Except Failure UInt32 := evaluateIn .double text

end InventoryQuery.Expression
