import InventoryQuery.Json.Basic
/-!
# Writing JSON documents

A document is laid out over lines, one item or member a line, indented by two spaces for each array
or object around it; empty arrays and objects are written in two characters.
-/

namespace InventoryQuery.Json

/-- The end of a line and the indentation of the next one. -/
def newline (indent : Nat) : Text := '\n' :: List.replicate (2 * indent) ' '

def quoted (spelling : Text) : Text := '"' :: (spelling ++ ['"'])

mutual

/-- A value that starts on a line with the given indentation. -/
def write (indent : Nat) : Json → Text
  | .null => "null".toList
  | .bool true => "true".toList
  | .bool false => "false".toList
  | .number spelling => spelling
  | .string spelling => quoted spelling
  | .array [] => "[]".toList
  | .array (item :: items) =>
    '[' :: (newline (indent + 1) ++ write (indent + 1) item ++ writeItems (indent + 1) items
      ++ newline indent ++ [']'])
  | .object [] => ['\x7b', '\x7d']
  | .object ((key, value) :: members) =>
    '\x7b' :: (newline (indent + 1) ++ quoted key ++ ": ".toList ++ write (indent + 1) value
      ++ writeMembers (indent + 1) members ++ newline indent ++ ['\x7d'])

/-- The items after the first one. -/
def writeItems (indent : Nat) : List Json → Text
  | [] => []
  | item :: items => ',' :: (newline indent ++ write indent item ++ writeItems indent items)

/-- The members after the first one. -/
def writeMembers (indent : Nat) : List (Text × Json) → Text
  | [] => []
  | (key, value) :: members =>
    ',' :: (newline indent ++ quoted key ++ ": ".toList ++ write indent value
      ++ writeMembers indent members)

end

/-- The text of a document. -/
def pretty (j : Json) : Text := write 0 j

end InventoryQuery.Json
