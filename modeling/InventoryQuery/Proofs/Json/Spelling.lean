import InventoryQuery.Json.Reader
import InventoryQuery.Proofs.Text.Reading
/-!
# Spellings of JSON strings are read back

Every character is spelled in a way that stands for it, and a spelled text is taken off up to the
quote behind it.
-/

namespace InventoryQuery.Json

open Text (outcome? outcome?_eq_some_iff)

/-- The characters that are spelled by themselves. -/
def IsRaw (c : Char) : Prop := c ≠ '"' ∧ c ≠ '\\' ∧ ¬c < ' '

instance (c : Char) : Decidable (IsRaw c) := inferInstanceAs (Decidable (_ ∧ _))

/-- The ways in which a character is spelled. -/
inductive SpelledAs (c : Char) : Text → Prop
  | raw (hraw : IsRaw c) : SpelledAs c [c]
  | short (letter : Char) (hletter : shortEscape? letter = some c) (hne : letter ≠ 'u') :
      SpelledAs c ['\\', letter]
  | hex (high low : Char) (hvalue : hexValue4? '0' '0' high low = some c.toNat)
      (hsmall : c.toNat < 32) : SpelledAs c ['\\', 'u', '0', '0', high, low]

theorem hexValue?_digitChar : ∀ n < 16, hexValue? (Nat.digitChar n) = some n := by decide

theorem toNat_lt_of_lt_space {c : Char} (h : c < ' ') : c.toNat < 32 := by
  exact h

theorem hexValue4?_digitChars {n : Nat} (h : n < 32) :
    hexValue4? '0' '0' (Nat.digitChar (n / 16)) (Nat.digitChar (n % 16)) = some n := by
  have hzero : hexValue? '0' = some 0 := rfl
  have hhigh := hexValue?_digitChar (n / 16) (by omega)
  have hlow := hexValue?_digitChar (n % 16) (by omega)
  simp only [hexValue4?, hzero, hhigh, hlow, Option.some.injEq]
  omega

theorem spelledAs_spellChar (c : Char) : SpelledAs c (spellChar c) := by
  unfold spellChar
  -- Seven characters have a spelling of two characters.
  iterate 7
    split
    · next h =>
      subst h
      exact .short _ rfl (by decide)
  split
  · next h =>
    have hsmall := toNat_lt_of_lt_space h
    exact .hex _ _ (hexValue4?_digitChars hsmall) hsmall
  · next hquote hbackslash _ _ _ _ _ h => exact .raw ⟨hquote, hbackslash, h⟩

theorem unspell?_append {c : Char} {spelled : Text} (h : SpelledAs c spelled) (s : Text) :
    unspell? (spelled ++ s) = (unspell? s).map (c :: ·) := by
  cases h with
  | raw hraw =>
    obtain ⟨-, hbackslash, -⟩ := hraw
    rw [List.singleton_append, unspell?]
    · rw [if_neg hbackslash]
    · exact fun _ _ _ _ _ h => absurd h hbackslash
    · exact fun _ _ h => absurd h hbackslash
  | short letter hletter hne =>
    rw [List.cons_append, List.singleton_append, unspell?]
    · rw [hletter]
    · exact fun _ _ _ _ _ h => absurd h hne
  | hex high low hvalue hsmall =>
    have hhigh : isHighSurrogate c.toNat = false := by
      simp only [isHighSurrogate, Bool.and_eq_false_iff, decide_eq_false_iff_not]
      omega
    have hlow : isLowSurrogate c.toNat = false := by
      simp only [isLowSurrogate, Bool.and_eq_false_iff, decide_eq_false_iff_not]
      omega
    simp only [List.cons_append, List.nil_append]
    rw [unspell?, hvalue]
    simp only [hhigh, hlow, Char.ofNat_toNat, Bool.false_eq_true, if_false]

/-- A text is what its spelling stands for. -/
@[simp] theorem unspell?_spell (s : Text) : unspell? (spell s) = some s := by
  induction s with
  | nil => rfl
  | cons c s ih =>
    rw [spell, List.flatMap_cons, unspell?_append (spelledAs_spellChar c), ← spell, ih]
    rfl

theorem readSpelling?_quote (s : Text) :
    outcome? (readSpelling? ('"' :: s)) = some ([], s) := by
  rw [readSpelling?]
  rfl

theorem readSpelling?_append {c : Char} {spelled : Text} (h : SpelledAs c spelled) {s x rest : Text}
    (hs : outcome? (readSpelling? s) = some (x, rest)) :
    outcome? (readSpelling? (spelled ++ s)) = some (spelled ++ x, rest) := by
  obtain ⟨_, hs⟩ := outcome?_eq_some_iff.1 hs
  cases h with
  | raw hraw =>
    obtain ⟨hquote, hbackslash, hcontrol⟩ := hraw
    have hallowed : ¬(c < ' ' ∨ c = '\\') := not_or.2 ⟨hcontrol, hbackslash⟩
    rw [List.singleton_append, readSpelling?]
    · rw [if_neg hallowed, hs]
      rfl
    · exact hquote
    · exact fun _ _ _ _ _ h => absurd h hbackslash
    · exact fun _ _ h => absurd h hbackslash
  | short letter hletter hne =>
    rw [List.cons_append, List.singleton_append, readSpelling?]
    · rw [if_pos (hletter ▸ rfl), hs]
      rfl
    · exact fun _ _ _ _ _ h => absurd h hne
  | hex high low hvalue hsmall =>
    simp only [List.cons_append, List.nil_append]
    rw [readSpelling?, if_pos (hvalue ▸ rfl), hs]
    rfl

/-- A spelled text is taken off up to the quote behind it. -/
theorem readSpelling?_spell (s rest : Text) :
    outcome? (readSpelling? (spell s ++ '"' :: rest)) = some (spell s, rest) := by
  induction s with
  | nil => exact readSpelling?_quote rest
  | cons c s ih =>
    rw [spell, List.flatMap_cons, ← spell, List.append_assoc]
    exact readSpelling?_append (spelledAs_spellChar c) ih

theorem spellChar_of_isRaw {c : Char} (h : IsRaw c) : spellChar c = [c] := by
  obtain ⟨hquote, hbackslash, hcontrol⟩ := h
  have hne : ∀ d : Char, d < ' ' → c ≠ d := fun d hd hc => hcontrol (hc ▸ hd)
  rw [spellChar, if_neg hquote, if_neg hbackslash, if_neg (hne _ (by decide)),
    if_neg (hne _ (by decide)), if_neg (hne _ (by decide)), if_neg (hne _ (by decide)),
    if_neg (hne _ (by decide)), if_neg hcontrol]

/-- A text of raw characters is its own spelling. -/
theorem spell_eq_self {s : Text} (hs : ∀ c ∈ s, IsRaw c) : spell s = s := by
  induction s with
  | nil => rfl
  | cons c s ih =>
    obtain ⟨hc, hs⟩ := List.forall_mem_cons.1 hs
    rw [spell, List.flatMap_cons, spellChar_of_isRaw hc, ← spell, ih hs, List.singleton_append]

theorem isRaw_of_isDigit {c : Char} (h : c.isDigit = true) : IsRaw c := by
  have hlow : 48 ≤ c.toNat := by
    simp only [Char.isDigit, Bool.and_eq_true, decide_eq_true_eq] at h
    exact h.1
  refine ⟨?_, ?_, fun hcontrol => ?_⟩
  · rintro rfl
    cases h
  · rintro rfl
    cases h
  · have hsmall := toNat_lt_of_lt_space hcontrol
    omega

end InventoryQuery.Json
