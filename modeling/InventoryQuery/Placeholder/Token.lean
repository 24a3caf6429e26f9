import InventoryQuery.Text.Blank
/-!
# Tokens in a text

A token is a name between two marks. Tokens are found from left to right and do not overlap; a mark
that does not open a token is text like any other. Replacing goes over a text once: what is put in
for a token is not searched again.
-/

namespace InventoryQuery.Placeholder

open Text (Rest)

/-- How the tokens of one kind are written. The closing mark is no character of a name. -/
structure Marks where
  opening : Char
  closing : Char
  inName : Char → Bool

namespace Marks

/-- Tokens written `%name%`. -/
def percent : Marks where
  opening := '%'
  closing := '%'
  inName c := c != '%' && !isBlank c

/-- Tokens written in braces. -/
def braces : Marks where
  opening := '\x7b'
  closing := '\x7d'
  inName c := c != '\x7b' && c != '\x7d' && !isBlank c

/-- Tokens in braces whose names are made of ASCII letters, digits and a few signs. -/
def plainBraces : Marks where
  opening := '\x7b'
  closing := '\x7d'
  inName c := c.isAlphanum || c == '_' || c == ':' || c == '-'

variable (m : Marks)

/-- A token as it is written. -/
def write (name : Text) : Text := m.opening :: (name ++ [m.closing])

private theorem length_tail_dropWhile_lt {p : Char → Bool} {s r : Text} {c : Char}
    (h : s.dropWhile p = c :: r) : r.length < s.length := by
  have hle := (List.dropWhile_suffix (l := s) p).length_le
  rw [h, List.length_cons] at hle
  omega

/-- The name that stands behind an opening mark, and what follows its closing mark. -/
def name? (s : Text) : Option (Text × Rest s) :=
  match h : s.dropWhile m.inName with
  | [] => none
  | c :: r =>
    if c = m.closing ∧ s.takeWhile m.inName ≠ [] then
      some (s.takeWhile m.inName, ⟨r, length_tail_dropWhile_lt h⟩)
    else none

/-- The text with every token replaced by what `value` gives for its name; a token without a value
stays as it is written. -/
def replace (value : Text → Option Text) (s : Text) : Text :=
  match s with
  | [] => []
  | c :: s =>
    if c = m.opening then
      match m.name? s with
      | some (name, ⟨rest, _⟩) => (value name).getD (m.write name) ++ replace value rest
      | none => c :: replace value s
    else c :: replace value s
termination_by s.length
decreasing_by all_goals simp only [List.length_cons]; omega

end Marks

end InventoryQuery.Placeholder
