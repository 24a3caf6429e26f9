import InventoryQuery.Text.Blank
import InventoryQuery.Text.Escaped
import Mathlib.Data.List.Basic
/-!
# Pieces of texts

The readers cut texts in a few ways: after a leading part, at the first mark, at unescaped
separators, and at the blanks of the two ends.  Here each cut is related to the whole text, exactly
where the whole can be put together again, and through its characters elsewhere.
-/

namespace InventoryQuery

namespace Text

theorem after?_eq_some_iff {lead s rest : Text} :
    after? lead s = some rest ↔ s = lead ++ rest := by
  rw [after?, List.isPrefixOf?_eq_some_iff_append_eq, eq_comm]

@[simp] theorem after?_append (lead rest : Text) : after? lead (lead ++ rest) = some rest :=
  after?_eq_some_iff.2 rfl

theorem trim_subset (s : Text) : trim s ⊆ s := by
  intro c hc
  have hend : c ∈ (s.dropWhile isBlank).reverse :=
    List.dropWhile_subset isBlank (List.mem_reverse.1 hc)
  exact List.dropWhile_subset isBlank (List.mem_reverse.1 hend)

theorem trim_of_forall {s : Text} (h : ∀ c ∈ s, isBlank c = false) : trim s = s := by
  have hdrop : ∀ t : Text, (∀ c ∈ t, isBlank c = false) → t.dropWhile isBlank = t := by
    intro t ht
    cases t with
    | nil => rfl
    | cons c t => exact List.dropWhile_cons_of_neg (by simp [ht c List.mem_cons_self])
  have hreverse : ∀ c ∈ s.reverse, isBlank c = false := fun c hc => h c (List.mem_reverse.1 hc)
  rw [trim, hdrop s h, hdrop _ hreverse, List.reverse_reverse]

theorem toUpper_of_isLower_eq_false {c : Char} (h : c.isLower = false) : c.toUpper = c := by
  refine dif_neg fun hlower => ?_
  have htrue : c.isLower = true :=
    Bool.and_eq_true_iff.2 ⟨decide_eq_true hlower.1, decide_eq_true hlower.2⟩
  rw [h] at htrue
  cases htrue

theorem upper_of_forall {s : Text} (h : ∀ c ∈ s, c.isLower = false) : upper s = s := by
  have hchar : ∀ c ∈ s, c.toUpper = id c := fun c hc => toUpper_of_isLower_eq_false (h c hc)
  rw [upper, List.map_congr_left hchar, List.map_id]

theorem cutAt_eq_some {mark : Char} {s before rest : Text}
    (h : cutAt mark s = some (before, rest)) : s = before ++ mark :: rest := by
  induction s generalizing before with
  | nil => simp [cutAt] at h
  | cons c s ih =>
    unfold cutAt at h
    split at h
    · next hc =>
      obtain ⟨rfl, rfl⟩ := Prod.mk.inj (Option.some.inj h)
      rw [hc, List.nil_append]
    · obtain ⟨⟨left, right⟩, hcut, heq⟩ := Option.map_eq_some_iff.1 h
      obtain ⟨rfl, rfl⟩ := Prod.mk.inj heq
      rw [ih hcut, List.cons_append]

theorem cutAt_append {mark : Char} {before : Text} (h : mark ∉ before) (rest : Text) :
    cutAt mark (before ++ mark :: rest) = some (before, rest) := by
  induction before with
  | nil => exact if_pos rfl
  | cons c before ih =>
    obtain ⟨hc, hbefore⟩ := not_or.1 (mt List.mem_cons.2 h)
    rw [List.cons_append, cutAt, if_neg (Ne.symm hc), ih hbefore]
    rfl

theorem cutAt_eq_none {mark : Char} {s : Text} (h : mark ∉ s) : cutAt mark s = none := by
  induction s with
  | nil => rfl
  | cons c s ih =>
    obtain ⟨hc, hs⟩ := not_or.1 (mt List.mem_cons.2 h)
    rw [cutAt, if_neg (Ne.symm hc), ih hs]
    rfl

theorem subset_of_cutAt {mark : Char} {s before rest : Text}
    (h : cutAt mark s = some (before, rest)) : before ⊆ s ∧ rest ⊆ s := by
  rw [cutAt_eq_some h]
  exact ⟨List.subset_append_left _ _,
    List.Subset.trans (List.subset_cons_self _ _) (List.subset_append_right _ _)⟩

theorem piecesAt_ne_nil (mark : Char) (s : Text) : piecesAt mark s ≠ [] := by
  fun_cases piecesAt mark s with
  | case1 => exact List.cons_ne_nil _ _
  | case2 => exact List.cons_ne_nil _ _
  | case3 => exact List.cons_ne_nil _ _
  | case4 => exact List.cons_ne_nil _ _

theorem joinWith_cons (mark : Char) (line : Text) {lines : List Text} (h : lines ≠ []) :
    joinWith mark (line :: lines) = line ++ mark :: joinWith mark lines := by
  rw [joinWith]
  exact h

/-- The pieces between marks make up the text again. -/
theorem joinWith_piecesAt (mark : Char) (s : Text) : joinWith mark (piecesAt mark s) = s := by
  induction s with
  | nil => rfl
  | cons c s ih =>
    unfold piecesAt
    split
    · next hc => rw [joinWith_cons mark [] (piecesAt_ne_nil mark s), ih, hc, List.nil_append]
    · split
      · next hpieces => exact absurd hpieces (piecesAt_ne_nil mark s)
      · next piece pieces hpieces =>
        rw [hpieces] at ih
        cases pieces with
        | nil => exact congrArg (c :: ·) ih
        | cons next pieces =>
          rw [joinWith_cons mark piece (List.cons_ne_nil _ _)] at ih
          rw [joinWith_cons mark (c :: piece) (List.cons_ne_nil _ _), List.cons_append, ih]

end Text

namespace Escaped

theorem unescape_subset (sep : Char) (s : Text) : unescape sep s ⊆ s := by
  fun_induction unescape sep s with
  | case1 => exact List.Subset.refl _
  | case2 c => exact List.Subset.refl _
  | case3 c d s h ih =>
    obtain ⟨-, rfl⟩ := h
    exact List.Subset.trans (List.cons_subset_cons d ih) (List.subset_cons_self _ _)
  | case4 c d s h ih => exact List.cons_subset_cons c ih

theorem subset_of_mem_pieces {sep : Char} {before : Option Char} {s piece : Text}
    (h : piece ∈ pieces sep before s) : piece ⊆ s := by
  induction s generalizing before piece with
  | nil =>
    rw [pieces, List.mem_singleton] at h
    exact h ▸ List.Subset.refl _
  | cons c s ih =>
    unfold pieces at h
    split at h
    · rcases List.mem_cons.1 h with rfl | h
      · exact List.nil_subset _
      · exact List.Subset.trans (ih h) (List.subset_cons_self _ _)
    · split at h
      · rw [List.mem_singleton] at h
        exact h ▸ List.cons_subset_cons c (List.nil_subset _)
      · next first rest hpieces =>
        have hrest : ∀ p ∈ first :: rest, p ⊆ s := fun p hp => ih (hpieces ▸ hp)
        rcases List.mem_cons.1 h with rfl | h
        · exact List.cons_subset_cons c (hrest first List.mem_cons_self)
        · exact List.Subset.trans (hrest piece (List.mem_cons_of_mem _ h))
            (List.subset_cons_self _ _)

theorem subset_of_mem_split {sep : Char} {s part : Text} (h : part ∈ split sep s) : part ⊆ s := by
  obtain ⟨piece, hpiece, rfl⟩ := List.mem_map.1 h
  exact List.Subset.trans (unescape_subset sep piece) (subset_of_mem_pieces hpiece)

end Escaped

end InventoryQuery
