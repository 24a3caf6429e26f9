import InventoryQuery.Text.Basic
/-!
# Blank characters

The twenty-five characters with the property White_Space, and the two ways in which blanks are
dropped: all of them, or only those at the ends.
-/

namespace InventoryQuery

/-- The property White_Space. -/
def isBlank (c : Char) : Bool :=
  let n := c.toNat
  (0x09 ≤ n && n ≤ 0x0D) || n == 0x20 || n == 0x85 || n == 0xA0 || n == 0x1680
    || (0x2000 ≤ n && n ≤ 0x200A) || n == 0x2028 || n == 0x2029 || n == 0x202F
    || n == 0x205F || n == 0x3000

namespace Text

/-- `s` without its blanks. -/
def strip (s : Text) : Text := s.filter fun c => !isBlank c

/-- `s` without the blanks at its two ends. -/
def trim (s : Text) : Text :=
  ((s.dropWhile isBlank).reverse.dropWhile isBlank).reverse

end Text

end InventoryQuery
