import InventoryQuery.Service.Color
import InventoryQuery.Proofs.Placeholder.PlainText
import InventoryQuery.Proofs.Text.Letters
/-!
# Places of colour codes

Painting goes through a text from its start and sometimes takes two characters at once.  What is
shown at a place depends only on whether a code begins or ends there, so a text is also painted
place by place.  An ampersand that is left has no character of codes behind it, and painting puts
none there: no code is left, and painting a second time changes nothing.
-/

namespace InventoryQuery.Color

open Placeholder (IsPlain)

variable {s : Text} {i : Nat} {c d : Char}

/-- An ampersand stands at the place `i`, and one of the characters of codes behind it. -/
def BeginsAt (s : Text) (i : Nat) : Prop := s[i]? = some '&' ∧ ∃ d ∈ codes, s[i + 1]? = some d

instance (s : Text) (i : Nat) : Decidable (BeginsAt s i) :=
  @instDecidableAnd _ _ _ (List.decidableBEx (fun d => s[i + 1]? = some d) codes)

/-- The character at the place `i` makes a code with the ampersand in front of it. -/
def EndsAt (s : Text) : Nat → Prop
  | 0 => False
  | i + 1 => BeginsAt s i

instance (s : Text) : (i : Nat) → Decidable (EndsAt s i)
  | 0 => instDecidableFalse
  | i + 1 => inferInstanceAs (Decidable (BeginsAt s i))

/-- What is shown at the place `i` of a text where the character `c` stands. -/
def shownAt (s : Text) (i : Nat) (c : Char) : Char :=
  if BeginsAt s i then sign else if EndsAt s i then c.toLower else c

/-! ## Where codes are -/

theorem ampersand_notMem_codes : '&' ∉ codes := by decide

theorem sign_notMem_codes : sign ∉ codes := by decide

theorem beginsAt_zero : BeginsAt (c :: d :: s) 0 ↔ c = '&' ∧ d ∈ codes := by
  simp [BeginsAt]

theorem beginsAt_cons_succ : BeginsAt (c :: s) (i + 1) ↔ BeginsAt s i := Iff.rfl

theorem not_beginsAt_singleton : ¬BeginsAt [c] 0 := by
  rintro ⟨-, d, -, hd⟩
  cases hd

/-- Codes do not overlap. -/
theorem BeginsAt.not_succ (h : BeginsAt s i) : ¬BeginsAt s (i + 1) := by
  obtain ⟨-, d, hd, hbehind⟩ := h
  rintro ⟨hampersand, -⟩
  rw [hbehind, Option.some.injEq] at hampersand
  exact ampersand_notMem_codes (hampersand ▸ hd)

theorem not_endsAt_zero : ¬EndsAt s 0 := id

theorem EndsAt.not_beginsAt (h : EndsAt s i) : ¬BeginsAt s i := by
  cases i with
  | zero => exact h.elim
  | succ i => exact BeginsAt.not_succ h

theorem EndsAt.exists_code (h : EndsAt s i) : ∃ d ∈ codes, s[i]? = some d := by
  cases i with
  | zero => exact h.elim
  | succ i => exact h.2

/-! ## What is shown -/

theorem shownAt_of_beginsAt (h : BeginsAt s i) : shownAt s i c = sign := if_pos h

theorem shownAt_of_endsAt (h : EndsAt s i) : shownAt s i c = c.toLower := by
  rw [shownAt, if_neg h.not_beginsAt, if_pos h]

theorem shownAt_of_not (hbegins : ¬BeginsAt s i) (hends : ¬EndsAt s i) : shownAt s i c = c := by
  rw [shownAt, if_neg hbegins, if_neg hends]

theorem shownAt_cons_succ_succ (c : Char) (s : Text) (i : Nat) :
    shownAt (c :: s) (i + 1 + 1) = shownAt s (i + 1) := rfl

/-- A character with which no code begins makes no difference to what is behind it. -/
theorem shownAt_cons_succ (h : ¬BeginsAt (c :: s) 0) (i : Nat) :
    shownAt (c :: s) (i + 1) = shownAt s i := by
  cases i with
  | zero =>
    have hends : ¬EndsAt (c :: s) (0 + 1) := h
    funext e
    simp only [shownAt, beginsAt_cons_succ, if_neg hends, if_neg not_endsAt_zero]
  | succ i => exact shownAt_cons_succ_succ c s i

/-- A text is painted place by place. -/
theorem paint_eq_mapIdx (s : Text) : paint s = s.mapIdx (shownAt s) := by
  fun_induction paint s with
  | case1 => rfl
  | case2 c =>
    rw [List.mapIdx_singleton, shownAt_of_not not_beginsAt_singleton not_endsAt_zero]
  | case3 c d s hcode ih =>
    have hbegins : BeginsAt (c :: d :: s) 0 := beginsAt_zero.2 hcode
    have hends : EndsAt (c :: d :: s) (0 + 1) := hbegins
    have hnot : ¬BeginsAt (d :: s) 0 := hbegins.not_succ
    rw [List.mapIdx_cons, List.mapIdx_cons, shownAt_of_beginsAt hbegins, shownAt_of_endsAt hends]
    -- two places behind the ampersand nothing tells any more that it began a code
    simp only [shownAt_cons_succ_succ, shownAt_cons_succ hnot, ih]
  | case4 c d s hcode ih =>
    have hnot : ¬BeginsAt (c :: d :: s) 0 := mt beginsAt_zero.1 hcode
    rw [List.mapIdx_cons, shownAt_of_not hnot not_endsAt_zero]
    simp only [shownAt_cons_succ hnot, ih]

theorem length_paint (s : Text) : (paint s).length = s.length := by
  rw [paint_eq_mapIdx, List.length_mapIdx]

theorem getElem?_paint (s : Text) (i : Nat) : (paint s)[i]? = s[i]?.map (shownAt s i) := by
  rw [paint_eq_mapIdx, List.getElem?_mapIdx]

theorem getElem?_paint_of_beginsAt (h : BeginsAt s i) : (paint s)[i]? = some sign := by
  rw [getElem?_paint, h.1, Option.map_some, shownAt_of_beginsAt h]

theorem getElem?_paint_of_endsAt (h : EndsAt s i) : (paint s)[i]? = s[i]?.map Char.toLower := by
  rw [getElem?_paint]
  exact Option.map_congr fun c _ => shownAt_of_endsAt h

theorem getElem?_paint_of_not (hbegins : ¬BeginsAt s i) (hends : ¬EndsAt s i) :
    (paint s)[i]? = s[i]? := by
  calc (paint s)[i]? = s[i]?.map (shownAt s i) := getElem?_paint s i
    _ = s[i]?.map id := Option.map_congr fun c _ => shownAt_of_not hbegins hends
    _ = s[i]? := Option.map_id_apply

/-- Painting puts no mark of a placeholder into a text. -/
theorem isPlain_paint (hs : IsPlain s) : IsPlain (paint s) := by
  intro c hc
  rw [paint_eq_mapIdx] at hc
  obtain ⟨i, hi, rfl⟩ := List.mem_mapIdx.1 hc
  obtain ⟨hpercent, hopening, hclosing⟩ := hs s[i] (List.getElem_mem hi)
  unfold shownAt
  split
  · decide
  · split
    · exact ⟨mt (toLower_eq_iff (by decide) _).1 hpercent,
        mt (toLower_eq_iff (by decide) _).1 hopening, mt (toLower_eq_iff (by decide) _).1 hclosing⟩
    · exact ⟨hpercent, hopening, hclosing⟩

/-! ## No code is left -/

/-- An ampersand in a painted text stands where no code was. -/
theorem not_of_getElem?_paint_eq_ampersand (h : (paint s)[i]? = some '&') :
    ¬BeginsAt s i ∧ ¬EndsAt s i := by
  constructor
  · intro hbegins
    rw [getElem?_paint_of_beginsAt hbegins] at h
    exact absurd h (by decide)
  · intro hends
    obtain ⟨d, hd, hcode⟩ := hends.exists_code
    rw [getElem?_paint_of_endsAt hends, hcode, Option.map_some, Option.some.injEq,
      toLower_eq_iff (by decide)] at h
    exact ampersand_notMem_codes (h ▸ hd)

theorem not_beginsAt_paint (s : Text) (i : Nat) : ¬BeginsAt (paint s) i := by
  rintro ⟨hampersand, d, hd, hbehind⟩
  obtain ⟨hbegins, hends⟩ := not_of_getElem?_paint_eq_ampersand hampersand
  have hnext : ¬BeginsAt s (i + 1) := by
    intro hnext
    rw [getElem?_paint_of_beginsAt hnext, Option.some.injEq] at hbehind
    exact sign_notMem_codes (hbehind ▸ hd)
  -- neither the ampersand nor the character behind it was changed, so the code was there before
  rw [getElem?_paint_of_not hbegins hends] at hampersand
  rw [getElem?_paint_of_not hnext hbegins] at hbehind
  exact hbegins ⟨hampersand, d, hd, hbehind⟩

theorem paint_eq_self_iff : paint s = s ↔ ∀ i, ¬BeginsAt s i := by
  constructor
  · intro h i
    rw [← h]
    exact not_beginsAt_paint s i
  · intro h
    apply List.ext_getElem?
    intro i
    have hends : ¬EndsAt s i := by
      cases i with
      | zero => exact not_endsAt_zero
      | succ i => exact h i
    exact getElem?_paint_of_not (h i) hends

theorem paint_paint (s : Text) : paint (paint s) = paint s :=
  paint_eq_self_iff.2 (not_beginsAt_paint s)

/-- Painting keeps the number of characters and leaves no code.  Where a code begins a section sign
is shown, and behind it the code's character in lower case; any other character stays as it is and
where it is.  A painted text is not changed by painting it again. -/
theorem paint_shows_every_code (s : Text) :
    (paint s).length = s.length ∧
      (∀ i, ¬BeginsAt (paint s) i) ∧
      (∀ i, BeginsAt s i →
        (paint s)[i]? = some sign ∧ (paint s)[i + 1]? = s[i + 1]?.map Char.toLower) ∧
      (∀ i, ¬BeginsAt s i → ¬EndsAt s i → (paint s)[i]? = s[i]?) ∧
      paint (paint s) = paint s := by
  refine ⟨length_paint s, not_beginsAt_paint s, ?_, ?_, paint_paint s⟩
  · intro i hbegins
    have hends : EndsAt s (i + 1) := hbegins
    exact ⟨getElem?_paint_of_beginsAt hbegins, getElem?_paint_of_endsAt hends⟩
  · intro i hbegins hends
    exact getElem?_paint_of_not hbegins hends

/-- Ampersands in a row, a code right behind another one, and ampersands without a code. -/
theorem paint_shows_every_code_in_a_row :
    let text := "&&L&aTom & Jerry&".toList
    (BeginsAt text 1 ∧ ¬BeginsAt text 9 ∧ ¬EndsAt text 9) ∧
      paint text = "&§l§aTom & Jerry&".toList ∧
      (paint text).length = 17 ∧
      (∀ i, ¬BeginsAt (paint text) i) ∧
      ((paint text)[1]? = some '§' ∧ (paint text)[2]? = some 'l') ∧
      (paint text)[9]? = some '&' ∧
      paint (paint text) = paint text := by
  intro text
  have hbegins : BeginsAt text 1 := by decide
  have hnotBegins : ¬BeginsAt text 9 := by decide
  have hnotEnds : ¬EndsAt text 9 := by decide
  have hpainted : paint text = "&§l§aTom & Jerry&".toList := by decide
  obtain ⟨hlength, hnone, hcode, hother, hagain⟩ := paint_shows_every_code text
  exact ⟨⟨hbegins, hnotBegins, hnotEnds⟩, hpainted, hlength, hnone, hcode 1 hbegins,
    hother 9 hnotBegins hnotEnds, hagain⟩

end InventoryQuery.Color
