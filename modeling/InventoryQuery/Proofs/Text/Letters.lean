import InventoryQuery.Proofs.Text.Pieces
import Mathlib
/-!
# Letter case and the ends of texts

Changing the case of letters keeps every other character, so it goes through the cuts at marks and
at blanks.  What is left between the blanks of the two ends begins and ends with other characters.
-/

namespace InventoryQuery

/-- What holds of no letter is not changed by the case of letters. -/
theorem apply_toLower {p : Char → Bool} (hp : ∀ c, c.isAlpha = true → p c = false) (c : Char) :
    p c.toLower = p c := by
  by_cases hc : c.isUpper = true
  · have halpha : c.isAlpha = true := Bool.or_eq_true_iff.2 (.inl hc)
    rw [hp c halpha, hp c.toLower (by rw [Char.isAlpha_toLower_eq_isAlpha, halpha])]
  · rw [Char.toLower_eq_of_not_isUpper hc]

theorem apply_toUpper {p : Char → Bool} (hp : ∀ c, c.isAlpha = true → p c = false) (c : Char) :
    p c.toUpper = p c := by
  rw [← apply_toLower hp c.toUpper, Char.toLower_toUpper_eq_toLower, apply_toLower hp]

theorem isBlank_of_isAlpha {c : Char} (h : c.isAlpha = true) : isBlank c = false := by
  have hrange : 65 ≤ c.toNat ∧ c.toNat ≤ 122 := by
    simp [Char.isAlpha, Char.isUpper, Char.isLower, UInt32.le_iff_toNat_le, ← Char.toNat_val] at h ⊢
    omega
  simp [isBlank]
  omega

theorem isBlank_toLower (c : Char) : isBlank c.toLower = isBlank c :=
  apply_toLower (fun _ => isBlank_of_isAlpha) c

theorem isBlank_toUpper (c : Char) : isBlank c.toUpper = isBlank c :=
  apply_toUpper (fun _ => isBlank_of_isAlpha) c

theorem toLower_eq_iff {mark : Char} (hmark : mark.isAlpha = false) (c : Char) :
    c.toLower = mark ↔ c = mark := by
  have hp : ∀ d, d.isAlpha = true → (d == mark) = false := by
    intro d hd
    rw [beq_eq_false_iff_ne]
    rintro rfl
    rw [hd] at hmark
    cases hmark
  rw [← beq_iff_eq, apply_toLower hp, beq_iff_eq]

theorem toUpper_eq_iff {mark : Char} (hmark : mark.isAlpha = false) (c : Char) :
    c.toUpper = mark ↔ c = mark := by
  rw [← toLower_eq_iff hmark, Char.toLower_toUpper_eq_toLower, toLower_eq_iff hmark]

namespace Text

/-! ## Letter case -/

@[simp] theorem upper_lower (s : Text) : upper (lower s) = upper s := by
  simp [upper, lower, Function.comp_def]

@[simp] theorem lower_upper (s : Text) : lower (upper s) = lower s := by
  simp [upper, lower, Function.comp_def]

@[simp] theorem lower_lower (s : Text) : lower (lower s) = lower s := by
  simp [lower, Function.comp_def]

theorem isLower_of_mem_upper {s : Text} {c : Char} (h : c ∈ upper s) : c.isLower = false := by
  obtain ⟨d, -, rfl⟩ := List.mem_map.1 h
  exact Char.isLower_toUpper_eq_false d

theorem isUpper_of_mem_lower {s : Text} {c : Char} (h : c ∈ lower s) : c.isUpper = false := by
  obtain ⟨d, -, rfl⟩ := List.mem_map.1 h
  exact Char.isUpper_toLower_eq_false d

theorem upper_eq_self_iff {s : Text} : upper s = s ↔ ∀ c ∈ s, c.isLower = false := by
  refine ⟨fun h c hc => ?_, upper_of_forall⟩
  rw [← h] at hc
  exact isLower_of_mem_upper hc

theorem lower_of_forall {s : Text} (h : ∀ c ∈ s, c.isUpper = false) : lower s = s := by
  have hchar : ∀ c ∈ s, c.toLower = id c := fun c hc =>
    Char.toLower_eq_of_not_isUpper (by rw [h c hc]; exact Bool.false_ne_true)
  rw [lower, List.map_congr_left hchar, List.map_id]

theorem cutAt_lower {mark : Char} (hmark : mark.isAlpha = false) (s : Text) :
    cutAt mark (lower s) = (cutAt mark s).map (Prod.map lower lower) := by
  induction s with
  | nil => rfl
  | cons c s ih =>
    rw [lower, List.map_cons, ← lower, cutAt, cutAt]
    by_cases hc : c = mark
    · rw [if_pos ((toLower_eq_iff hmark c).2 hc), if_pos hc]
      rfl
    · rw [if_neg (mt (toLower_eq_iff hmark c).1 hc), if_neg hc, ih, Option.map_map, Option.map_map]
      rfl

theorem trim_lower (s : Text) : trim (lower s) = lower (trim s) := by
  have hdrop : ∀ t : Text, (lower t).dropWhile isBlank = lower (t.dropWhile isBlank) := by
    intro t
    rw [lower, List.dropWhile_map, funext (f := isBlank ∘ Char.toLower) isBlank_toLower, ← lower]
  have hreverse : ∀ t : Text, (lower t).reverse = lower t.reverse := fun t => List.map_reverse.symm
  rw [trim, hdrop, hreverse, hdrop, hreverse, ← trim]

/-! ## Blanks at the ends -/

theorem trim_isPrefix (s : Text) : trim s <+: s.dropWhile isBlank :=
  List.rdropWhile_prefix isBlank (s.dropWhile isBlank)

theorem trim_sublist (s : Text) : (trim s).Sublist s :=
  (trim_isPrefix s).sublist.trans (List.dropWhile_sublist isBlank)

theorem isBlank_of_mem_head?_trim {s : Text} {c : Char} (h : c ∈ (trim s).head?) :
    isBlank c = false := by
  obtain ⟨rest, hrest⟩ := trim_isPrefix s
  have hdrop : (s.dropWhile isBlank).head? = some c := by
    rw [← hrest, List.head?_append, Option.mem_def.1 h, Option.some_or]
  have hnot := List.head?_dropWhile_not isBlank s
  rwa [hdrop] at hnot

theorem isBlank_of_mem_getLast?_trim {s : Text} {c : Char} (h : c ∈ (trim s).getLast?) :
    isBlank c = false := by
  have hreverse : ((s.dropWhile isBlank).reverse.dropWhile isBlank).head? = some c := by
    rwa [trim, List.getLast?_reverse] at h
  have hnot := List.head?_dropWhile_not isBlank (s.dropWhile isBlank).reverse
  rwa [hreverse] at hnot

theorem dropWhile_of_head? {s : Text} (h : ∀ c ∈ s.head?, isBlank c = false) :
    s.dropWhile isBlank = s := by
  cases s with
  | nil => rfl
  | cons c s => exact List.dropWhile_cons_of_neg (by rw [h c rfl]; exact Bool.false_ne_true)

theorem trim_of_ends {s : Text} (hhead : ∀ c ∈ s.head?, isBlank c = false)
    (hlast : ∀ c ∈ s.getLast?, isBlank c = false) : trim s = s := by
  have hreverse : s.reverse.dropWhile isBlank = s.reverse := by
    apply dropWhile_of_head?
    rwa [List.head?_reverse]
  rw [trim, dropWhile_of_head? hhead, hreverse, List.reverse_reverse]

/-- Blanks around a text make no difference to what is between its blanks. -/
theorem trim_append {before after : Text} (hbefore : ∀ c ∈ before, isBlank c = true)
    (hafter : ∀ c ∈ after, isBlank c = true) (s : Text) :
    trim (before ++ s ++ after) = trim s := by
  have hnil : after.dropWhile isBlank = [] := List.dropWhile_eq_nil_iff.2 hafter
  have hreverse : ∀ c ∈ after.reverse, isBlank c = true := fun c hc =>
    hafter c (List.mem_reverse.1 hc)
  rw [trim, List.append_assoc, List.dropWhile_append_of_pos hbefore, List.dropWhile_append]
  split
  · next hempty =>
    rw [hnil, trim, List.isEmpty_iff.1 hempty]
  · rw [List.reverse_append, List.dropWhile_append_of_pos hreverse, ← trim]

/-! ## Marks -/

theorem cutAt_eq_none_iff {mark : Char} {s : Text} : cutAt mark s = none ↔ mark ∉ s := by
  refine ⟨fun h hmem => ?_, cutAt_eq_none⟩
  obtain ⟨before, rest, rfl, hbefore⟩ := List.eq_append_cons_of_mem hmem
  rw [cutAt_append hbefore] at h
  cases h

end Text

end InventoryQuery
