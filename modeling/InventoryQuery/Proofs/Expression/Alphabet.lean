import InventoryQuery.Proofs.Expression.Evaluation
/-!
# The characters of amount expressions

An expression is written with digits, points, operators and parentheses.  So a text with any other
character in it, blanks apart, has no amount; and blanks at its ends make no difference.
-/

namespace InventoryQuery

namespace Text

theorem strip_dropWhile (s : Text) : strip (s.dropWhile isBlank) = strip s := by
  induction s with
  | nil => rfl
  | cons c s ih =>
    by_cases hc : isBlank c = true
    · rw [List.dropWhile_cons_of_pos hc, ih, strip, strip, List.filter_cons_of_neg (by simp [hc])]
    · rw [List.dropWhile_cons_of_neg hc]

@[simp] theorem strip_trim (s : Text) : strip (trim s) = strip s := by
  have hreverse : ∀ t : Text, strip t.reverse = (strip t).reverse := fun t => List.filter_reverse
  rw [trim, hreverse, strip_dropWhile, hreverse, strip_dropWhile, List.reverse_reverse]

end Text

namespace Expression

/-- Whether expressions are written with the character. -/
def isSymbol (c : Char) : Bool := c.isDigit || "+-*/().".toList.contains c

theorem Digits.isSymbol_of_mem (d : Digits) {c : Char} (hc : c ∈ d.text) : isSymbol c = true := by
  rw [isSymbol, d.isDigit_of_mem hc, Bool.true_or]

theorem Literal.isSymbol_of_mem (n : Literal) {c : Char} (hc : c ∈ n.text) :
    isSymbol c = true := by
  rcases List.mem_append.1 hc with hc | hc
  · exact n.whole.isSymbol_of_mem hc
  · split at hc
    · cases hc
    · next digits _ =>
      rcases List.mem_cons.1 hc with rfl | hc
      · rfl
      · exact digits.isSymbol_of_mem hc

theorem isSymbol_char (sign : Sign) : isSymbol sign.char = true := by cases sign <;> rfl

theorem isSymbol_char_scale (op : Scale) : isSymbol op.char = true := by cases op <;> rfl

mutual

theorem Sum.isSymbol_of_mem (t : Sum) {c : Char} (hc : c ∈ t.text) : isSymbol c = true := by
  cases t with
  | product p => exact p.isSymbol_of_mem hc
  | extend t op p =>
    rw [Sum.text, List.mem_append, List.mem_cons] at hc
    rcases hc with hc | rfl | hc
    · exact t.isSymbol_of_mem hc
    · exact isSymbol_char op
    · exact p.isSymbol_of_mem hc

theorem Product.isSymbol_of_mem (p : Product) {c : Char} (hc : c ∈ p.text) :
    isSymbol c = true := by
  cases p with
  | factor f => exact f.isSymbol_of_mem hc
  | extend p op f =>
    rw [Product.text, List.mem_append, List.mem_cons] at hc
    rcases hc with hc | rfl | hc
    · exact p.isSymbol_of_mem hc
    · exact isSymbol_char_scale op
    · exact f.isSymbol_of_mem hc

theorem Factor.isSymbol_of_mem (f : Factor) {c : Char} (hc : c ∈ f.text) : isSymbol c = true := by
  cases f with
  | literal n => exact n.isSymbol_of_mem hc
  | group t =>
    rw [Factor.text, List.mem_cons, List.mem_append, List.mem_singleton] at hc
    rcases hc with rfl | hc | rfl
    · rfl
    · exact t.isSymbol_of_mem hc
    · rfl
  | signed sign f =>
    rw [Factor.text, List.mem_cons] at hc
    rcases hc with rfl | hc
    · exact isSymbol_char sign
    · exact f.isSymbol_of_mem hc

end

variable {α : Type} (A : Arithmetic α)

theorem evaluateIn_trim (text : Text) : evaluateIn A (Text.trim text) = evaluateIn A text := by
  rw [evaluateIn, evaluateIn, Text.strip_trim]

/-- What has an amount is written with the characters of expressions, and blanks. -/
theorem isSymbol_of_evaluateIn {text : Text} {n : UInt32} (h : evaluateIn A text = .ok n)
    {c : Char} (hc : c ∈ text) (hblank : isBlank c = false) : isSymbol c = true := by
  obtain ⟨t, -, hparse, -⟩ := (evaluateIn_eq_ok_iff A).1 h
  have hmem : c ∈ Text.strip text := List.mem_filter.2 ⟨hc, by rw [hblank]; rfl⟩
  rw [← (of_parse_eq_ok hparse).2] at hmem
  exact t.isSymbol_of_mem hmem

end Expression

end InventoryQuery
