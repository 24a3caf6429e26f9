import InventoryQuery.Json.Basic
import InventoryQuery.Json.Spelling
/-!
# Reading JSON documents

A reader takes a value off the start of a text and returns it with the rest, which is shorter.
Blanks may stand around every value and every mark. Spellings of strings are checked for their
form alone: no control characters, no unknown escapes.
-/

namespace InventoryQuery.Json

open Text (Rest RestOrAll afterChar?)

/-- The blanks that may stand between the parts of a document. -/
def isSpace (c : Char) : Bool := c == ' ' || c == '\t' || c == '\n' || c == '\r'

def skipSpace (s : Text) : RestOrAll s :=
  ⟨s.dropWhile isSpace, (List.dropWhile_suffix (l := s) isSpace).length_le⟩

/-- The spelling of a string up to its closing quote. -/
def readSpelling? (s : Text) : Option (Text × Rest s) :=
  match s with
  | [] => none
  | '"' :: r => some ([], ⟨r, by simp⟩)
  | '\\' :: 'u' :: a :: b :: c :: d :: r =>
    if (hexValue4? a b c d).isSome then
      (readSpelling? r).map fun (x, ⟨r', h⟩) =>
        ('\\' :: 'u' :: a :: b :: c :: d :: x, ⟨r', by simp only [List.length_cons]; omega⟩)
    else none
  | '\\' :: e :: r =>
    if (shortEscape? e).isSome then
      (readSpelling? r).map fun (x, ⟨r', h⟩) =>
        ('\\' :: e :: x, ⟨r', by simp only [List.length_cons]; omega⟩)
    else none
  | c :: r =>
    if c < ' ' ∨ c = '\\' then none
    else (readSpelling? r).map fun (x, ⟨r', h⟩) =>
      (c :: x, ⟨r', by simp only [List.length_cons]; omega⟩)

/-- The digits at the start of a text. -/
def digitRun (s : Text) : Text := s.takeWhile Char.isDigit

/-- The whole part of a number: no zeros in front of other digits. -/
def wholePart (s : Text) : Text :=
  match s with
  | '0' :: _ => ['0']
  | _ => digitRun s

/-- The fraction of a number, or nothing. -/
def fractionPart (s : Text) : Text :=
  match s with
  | '.' :: r => if digitRun r = [] then [] else '.' :: digitRun r
  | _ => []

/-- The exponent of a number, or nothing. -/
def exponentPart (s : Text) : Text :=
  match s with
  | e :: r =>
    if e = 'e' ∨ e = 'E' then
      match r with
      | sign :: r' =>
        if sign = '+' ∨ sign = '-' then
          if digitRun r' = [] then [] else e :: sign :: digitRun r'
        else if digitRun r = [] then [] else e :: digitRun r
      | [] => []
    else []
  | [] => []

/-- The longest number without sign at the start of a text. -/
def unsignedPart (s : Text) : Text :=
  let whole := wholePart s
  if whole = [] then []
  else
    let fraction := fractionPart (s.drop whole.length)
    whole ++ fraction ++ exponentPart (s.drop (whole.length + fraction.length))

/-- The longest number at the start of a text. -/
def numberPart (s : Text) : Text :=
  match s with
  | '-' :: r => if unsignedPart r = [] then [] else '-' :: unsignedPart r
  | _ => unsignedPart s

def readNumber? (s : Text) : Option (Json × Rest s) :=
  if h : 0 < (numberPart s).length ∧ 0 < s.length then
    some (.number (numberPart s),
      ⟨s.drop (numberPart s).length, by rw [List.length_drop]; omega⟩)
  else none

/-- One of the three words, or a number. -/
def readScalar? (s : Text) : Option (Json × Rest s) :=
  match s with
  | 'n' :: 'u' :: 'l' :: 'l' :: r => some (.null, ⟨r, by simp only [List.length_cons]; omega⟩)
  | 't' :: 'r' :: 'u' :: 'e' :: r =>
    some (.bool true, ⟨r, by simp only [List.length_cons]; omega⟩)
  | 'f' :: 'a' :: 'l' :: 's' :: 'e' :: r =>
    some (.bool false, ⟨r, by simp only [List.length_cons]; omega⟩)
  | s => readNumber? s

/-- A mark, possibly after blanks. -/
def mark? (mark : Char) (s : Text) : Option (Rest s) :=
  match skipSpace s with
  | ⟨r, h⟩ => (afterChar? mark r).map fun ⟨r', h'⟩ => ⟨r', by omega⟩

/-- A key and the colon after it. -/
def readKey? (s : Text) : Option (Text × Rest s) :=
  match mark? '"' s with
  | none => none
  | some ⟨r, h⟩ =>
    match readSpelling? r with
    | none => none
    | some (key, ⟨r', h'⟩) =>
      match mark? ':' r' with
      | none => none
      | some ⟨r'', h''⟩ => some (key, ⟨r'', by omega⟩)

mutual

/-- A value, possibly after blanks. -/
def readValue? (s : Text) : Option (Json × Rest s) :=
  match skipSpace s with
  | ⟨[], _⟩ => none
  | ⟨c :: r, h⟩ =>
    if c = '"' then
      match readSpelling? r with
      | some (x, ⟨r', h'⟩) =>
        some (.string x, ⟨r', by simp only [List.length_cons] at h; omega⟩)
      | none => none
    else if c = '[' then
      match mark? ']' r with
      | some ⟨r', h'⟩ => some (.array [], ⟨r', by simp only [List.length_cons] at h; omega⟩)
      | none =>
        match readItems? r with
        | some (items, ⟨r', h'⟩) =>
          some (.array items, ⟨r', by simp only [List.length_cons] at h; omega⟩)
        | none => none
    else if c = '\x7b' then
      match mark? '\x7d' r with
      | some ⟨r', h'⟩ => some (.object [], ⟨r', by simp only [List.length_cons] at h; omega⟩)
      | none =>
        match readMembers? r with
        | some (members, ⟨r', h'⟩) =>
          some (.object members, ⟨r', by simp only [List.length_cons] at h; omega⟩)
        | none => none
    else
      match readScalar? (c :: r) with
      | some (value, ⟨r', h'⟩) => some (value, ⟨r', by omega⟩)
      | none => none
termination_by 2 * s.length
decreasing_by all_goals (simp only [List.length_cons] at *; omega)

/-- The items of an array that is not empty, up to its closing bracket. -/
def readItems? (s : Text) : Option (List Json × Rest s) :=
  match readValue? s with
  | none => none
  | some (item, ⟨r, h⟩) =>
    match mark? ']' r with
    | some ⟨r', h'⟩ => some ([item], ⟨r', by omega⟩)
    | none =>
      match mark? ',' r with
      | none => none
      | some ⟨r', h'⟩ =>
        match readItems? r' with
        | some (items, ⟨r'', h''⟩) => some (item :: items, ⟨r'', by omega⟩)
        | none => none
termination_by 2 * s.length + 1

/-- The members of an object that is not empty, up to its closing brace. -/
def readMembers? (s : Text) : Option (List (Text × Json) × Rest s) :=
  match readKey? s with
  | none => none
  | some (key, ⟨r, h⟩) =>
    match readValue? r with
    | none => none
    | some (value, ⟨r', h'⟩) =>
      match mark? '\x7d' r' with
      | some ⟨r'', h''⟩ => some ([(key, value)], ⟨r'', by omega⟩)
      | none =>
        match mark? ',' r' with
        | none => none
        | some ⟨r'', h''⟩ =>
          match readMembers? r'' with
          | some (members, ⟨r₃, h₃⟩) => some ((key, value) :: members, ⟨r₃, by omega⟩)
          | none => none
termination_by 2 * s.length

end

/-- The document that a text is, blanks around it apart. -/
def read? (s : Text) : Option Json :=
  match readValue? s with
  | some (value, ⟨rest, _⟩) => if rest.all isSpace then some value else none
  | none => none

end InventoryQuery.Json
