import InventoryQuery.Text.Blank
import InventoryQuery.Text.Printable
/-!
# Texts in double quotes

How a text is shown inside a message: in double quotes, with a backslash before a quote or a
backslash, short escapes for NUL, tab, line feed and carriage return, and the code point in
hexadecimal for every other character that cannot be shown by itself.
-/

namespace InventoryQuery.Quoted

/-- Whether a character is shown as it is. Of the blanks, that is the space alone. -/
def isShown (c : Char) : Bool :=
  c == ' ' || !(isBlank c || inRanges invisibleRanges c.toNat || inRanges extenderRanges c.toNat)

/-- A character as it stands between the quotes. -/
def character (c : Char) : Text :=
  if c = '"' ∨ c = '\\' then ['\\', c]
  else if c = '\x00' then ['\\', '0']
  else if c = '\t' then ['\\', 't']
  else if c = '\n' then ['\\', 'n']
  else if c = '\r' then ['\\', 'r']
  else if isShown c then [c]
  else '\\' :: 'u' :: '\x7b' :: (Nat.toDigits 16 c.toNat ++ ['\x7d'])

/-- A text in double quotes. -/
def text (s : Text) : Text := '"' :: (s.flatMap character ++ ['"'])

end InventoryQuery.Quoted
