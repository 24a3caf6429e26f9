import InventoryQuery.Expression.Syntax
/-!
# Reading amount expressions

A reader takes a derivation off the start of a text and returns it with the rest, which is shorter.
A reader that finds none tells the place where it missed something, by the text from there on.

Repetitions take as much as they can: a sum or a product goes on as long as an operator with a
whole operand follows, and stops in front of an operator without one. A factor is looked for as a
group, as a signed factor and as a literal, in this order, and of several places where something
is missed the last one is told.
-/

namespace InventoryQuery.Expression

open Text (Rest RestOrAll afterChar? length_lt_of_rests)

private theorem length_dropWhile_lt {p : Char → Bool} {s : Text} (h : s.takeWhile p ≠ []) :
    (s.dropWhile p).length < s.length := by
  have hsplit := congrArg List.length (List.takeWhile_append_dropWhile (p := p) (l := s))
  have hpos := List.length_pos_iff.2 h
  rw [List.length_append] at hsplit
  omega

private theorem ne_nil_of_isDigits {s : Text} (h : Numeral.isDigits s = true) : s ≠ [] := by
  rintro rfl
  simp [Numeral.isDigits] at h

/-- All the digits at the start of a text. -/
def readDigits (s : Text) : Except Text (Digits × Rest s) :=
  if h : Numeral.isDigits (s.takeWhile Char.isDigit) = true then
    .ok (⟨s.takeWhile Char.isDigit, h⟩,
      ⟨s.dropWhile Char.isDigit, length_dropWhile_lt (ne_nil_of_isDigits h)⟩)
  else .error s

/-- A point without digits after it does not belong to the literal. -/
def readLiteral (s : Text) : Except Text (Literal × Rest s) :=
  match readDigits s with
  | .error place => .error place
  | .ok (whole, ⟨r, h⟩) =>
    match afterChar? '.' r with
    | none => .ok (⟨whole, none⟩, ⟨r, h⟩)
    | some ⟨r', h'⟩ =>
      match readDigits r' with
      | .error _ => .ok (⟨whole, none⟩, ⟨r, h⟩)
      | .ok (fraction, ⟨r'', h''⟩) =>
        .ok (⟨whole, some fraction⟩, ⟨r'', length_lt_of_rests h h' h''⟩)

/-- The last kind of factor to look for. -/
def readLiteralFactor (s : Text) : Except Text (Factor × Rest s) :=
  match readLiteral s with
  | .error place => .error place
  | .ok (n, rest) => .ok (.literal n, rest)

mutual

def readFactor (s : Text) : Except Text (Factor × Rest s) :=
  match s with
  | [] => readLiteralFactor []
  | c :: r =>
    if c = '(' then
      match readSum r with
      | .error _ => readLiteralFactor (c :: r)
      | .ok (inner, ⟨r', h⟩) =>
        match afterChar? ')' r' with
        | none => readLiteralFactor (c :: r)
        | some ⟨r'', h'⟩ => .ok (.group inner, ⟨r'', by simp only [List.length_cons]; omega⟩)
    else
      match sign? c with
      | some sign =>
        match readFactor r with
        | .error _ => readLiteralFactor (c :: r)
        | .ok (f, ⟨r', h⟩) =>
          .ok (.signed sign f, ⟨r', by simp only [List.length_cons] at *; omega⟩)
      | none => readLiteralFactor (c :: r)
termination_by 4 * s.length

def readProduct (s : Text) : Except Text (Product × Rest s) :=
  match readFactor s with
  | .error place => .error place
  | .ok (f, ⟨r, h⟩) =>
    match extendProduct (.factor f) r with
    | (p, ⟨r', h'⟩) => .ok (p, ⟨r', by omega⟩)
termination_by 4 * s.length + 1

/-- Goes on with a product of which the first factors are read. -/
def extendProduct (p : Product) (s : Text) : Product × RestOrAll s :=
  match s with
  | [] => (p, ⟨[], Nat.le_refl _⟩)
  | c :: r =>
    match scale? c with
    | none => (p, ⟨c :: r, Nat.le_refl _⟩)
    | some op =>
      match readFactor r with
      | .error _ => (p, ⟨c :: r, Nat.le_refl _⟩)
      | .ok (f, ⟨r', h⟩) =>
        match extendProduct (.extend p op f) r' with
        | (q, ⟨r'', h'⟩) => (q, ⟨r'', by simp only [List.length_cons]; omega⟩)
termination_by 4 * s.length

def readSum (s : Text) : Except Text (Sum × Rest s) :=
  match readProduct s with
  | .error place => .error place
  | .ok (p, ⟨r, h⟩) =>
    match extendSum (.product p) r with
    | (q, ⟨r', h'⟩) => .ok (q, ⟨r', by omega⟩)
termination_by 4 * s.length + 2

/-- Goes on with a sum of which the first products are read. -/
def extendSum (t : Sum) (s : Text) : Sum × RestOrAll s :=
  match s with
  | [] => (t, ⟨[], Nat.le_refl _⟩)
  | c :: r =>
    match sign? c with
    | none => (t, ⟨c :: r, Nat.le_refl _⟩)
    | some op =>
      match readProduct r with
      | .error _ => (t, ⟨c :: r, Nat.le_refl _⟩)
      | .ok (p, ⟨r', h⟩) =>
        match extendSum (.extend t op p) r' with
        | (q, ⟨r'', h'⟩) => (q, ⟨r'', by simp only [List.length_cons]; omega⟩)
termination_by 4 * s.length

end

end InventoryQuery.Expression
