import InventoryQuery.Text.Basic
/-!
# Lists of texts with an escaped separator

A list of pieces is written with a separator between the pieces; inside a piece the separator is
written after a backslash. No other character is escaped, not even the backslash, so a piece that
ends with a backslash can only stand last.
-/

namespace InventoryQuery.Escaped

/-- A piece as it reads: `\sep` stands for `sep`. -/
def unescape (sep : Char) : Text → Text
  | [] => []
  | [c] => [c]
  | c :: d :: s =>
    if c = '\\' ∧ d = sep then sep :: unescape sep s
    else c :: unescape sep (d :: s)

/-- A piece as it is written: `sep` becomes `\sep`. -/
def escape (sep : Char) : Text → Text
  | [] => []
  | c :: s => if c = sep then '\\' :: sep :: escape sep s else c :: escape sep s

/-- The pieces of a text as they are written, given the character in front of the text: a
separator divides unless a backslash stands directly before it. -/
def pieces (sep : Char) : Option Char → Text → List Text
  | _, [] => [[]]
  | before, c :: s =>
    if c = sep ∧ before ≠ some '\\' then [] :: pieces sep (some c) s
    else match pieces sep (some c) s with
      | [] => [[c]]
      | piece :: rest => (c :: piece) :: rest

/-- The pieces of a text as they read. -/
def split (sep : Char) (s : Text) : List Text :=
  (pieces sep none s).map (unescape sep)

/-- The text that lists the given pieces. -/
def join (sep : Char) (parts : List Text) : Text :=
  Text.joinWith sep (parts.map (escape sep))

end InventoryQuery.Escaped
