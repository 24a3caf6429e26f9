import InventoryQuery.Text.Basic
/-!
# Colour codes

A colour or format code is an ampersand and a letter or digit; shown, the ampersand becomes a
section sign and the letter is in lower case.
-/

namespace InventoryQuery.Color

/-- The characters that make a code after an ampersand. -/
def codes : Text := "0123456789AaBbCcDdEeFfKkLlMmNnOoRrXx".toList

/-- The section sign. -/
def sign : Char := '§'

/-- A text with its codes made ready to be shown. -/
def paint : Text → Text
  | [] => []
  | [c] => [c]
  | c :: d :: s =>
    if c = '&' ∧ d ∈ codes then sign :: d.toLower :: paint s
    else c :: paint (d :: s)

end InventoryQuery.Color
