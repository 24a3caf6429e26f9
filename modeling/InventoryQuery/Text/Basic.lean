/-!
# Text

A text is a list of characters. Everything this library reads, compares or writes is a text, so
that every operation on it is an ordinary recursion on a list.

Letter case is the case of the ASCII letters only: the names of materials, potions and
enchantments are ASCII identifiers, and any other letter is left as it is.
-/

namespace InventoryQuery

universe u

abbrev Text := List Char

namespace Text

/-- `s` with the letters a-z written as A-Z. -/
def upper (s : Text) : Text := s.map Char.toUpper

/-- `s` with the letters A-Z written as a-z. -/
def lower (s : Text) : Text := s.map Char.toLower

/-- Equality up to the case of ASCII letters. -/
def sameLetters (s t : Text) : Bool := lower s == lower t

/-- What follows `lead` at the start of `s`. -/
def after? (lead s : Text) : Option Text := lead.isPrefixOf? s

/-- Whether `needle` occurs somewhere in a text; the empty text occurs in every text. -/
def occursIn (needle : Text) : Text → Bool
  | [] => needle.isEmpty
  | c :: s => needle.isPrefixOf (c :: s) || occursIn needle s

/-- The parts before and after the first `mark`. -/
def cutAt (mark : Char) : Text → Option (Text × Text)
  | [] => none
  | c :: s =>
    if c = mark then some ([], s)
    else (cutAt mark s).map fun (before, rest) => (c :: before, rest)

/-- The pieces between all the occurrences of `mark`; one more piece than marks. -/
def piecesAt (mark : Char) : Text → List Text
  | [] => [[]]
  | c :: s =>
    if c = mark then [] :: piecesAt mark s
    else match piecesAt mark s with
      | [] => [[c]]
      | piece :: pieces => (c :: piece) :: pieces

/-- The lines of a list written one after another with `mark` between them. -/
def joinWith (mark : Char) : List Text → Text
  | [] => []
  | [line] => line
  | line :: lines => line ++ mark :: joinWith mark lines

/-- What is left of `s` after something was read from its start. -/
abbrev Rest (s : Text) := { r : Text // r.length < s.length }

/-- What is left of `s` after something, or nothing, was read from its start. -/
abbrev RestOrAll (s : Text) := { r : Text // r.length ≤ s.length }

theorem length_lt_of_rests {s t u v : Text} (ht : t.length < s.length) (hu : u.length < t.length)
    (hv : v.length < u.length) : v.length < s.length :=
  Nat.lt_trans hv (Nat.lt_trans hu ht)

/-- What follows a character at the start of a text. -/
def afterChar? (c : Char) (s : Text) : Option (Rest s) :=
  match s with
  | [] => none
  | d :: r => if d = c then some ⟨r, by simp only [List.length_cons]; omega⟩ else none

/-- What is found under a text in a table is in the table. -/
theorem mem_of_lookup {α : Type u} {table : List (Text × α)} {key : Text} {value : α}
    (h : table.lookup key = some value) : (key, value) ∈ table := by
  obtain ⟨before, after, htable, -⟩ := List.lookup_eq_some_iff.1 h
  rw [htable]
  exact List.mem_append_right before List.mem_cons_self

end Text

end InventoryQuery
