import InventoryQuery.Proofs.Criteria.Joining
import InventoryQuery.Proofs.Expression.Alphabet
import InventoryQuery.Proofs.Placeholder.Settling
/-!
# Bodies of amount expressions

The body of an expression is written with the characters of expressions, with blanks, and with
tokens of plain names.  So are the values that are put in for the tokens; what is done to a criteria
text before an expression in it is evaluated leaves such a body as it is or makes another one of it.
-/

namespace InventoryQuery

open Placeholder

namespace Placeholder

/-- Whether expressions with blanks are written with the character. -/
def isBodyChar (c : Char) : Bool := Expression.isSymbol c || isBlank c

/-- A name of ASCII letters, digits, colons, hyphens and single underscores. -/
def IsPlainName (name : Text) : Prop := Marks.plainBraces.IsName name ∧ ¬ ['_', '_'] <:+: name

instance (name : Text) : Decidable (IsPlainName name) :=
  @instDecidableAnd _ _ (@instDecidableAnd _ _ inferInstance
    (List.decidableBAll (fun c => Marks.plainBraces.inName c = true) name)) inferInstance

namespace Segment

/-- A piece of the body of an expression. -/
def IsBodyPart : Segment → Prop
  | .literal s => ∀ c ∈ s, isBodyChar c = true
  | .braced name => IsPlainName name
  | .percent name => IsPlainName name

instance : (x : Segment) → Decidable x.IsBodyPart
  | .literal s => List.decidableBAll (fun c => isBodyChar c = true) s
  | .braced name => inferInstanceAs (Decidable (IsPlainName name))
  | .percent name => inferInstanceAs (Decidable (IsPlainName name))

/-- A piece with a token in percent signs in place of a token in braces. -/
def toPercent : Segment → Segment
  | .literal s => .literal s
  | .braced name => .percent name
  | .percent name => .percent name

end Segment

/-- The pieces make up the body of an expression, also when the values of the table are put in. -/
structure IsBody (table : Table) (body : List Segment) : Prop where
  parts : ∀ x ∈ body, x.IsBodyPart
  values : ∀ x ∈ body, ∀ name v, x.name? = some name → table.get? name = some v →
    ∀ c ∈ v, isBodyChar c = true

theorem ne_mark_of_isBodyChar {c : Char} (h : isBodyChar c = true) :
    c ≠ '%' ∧ c ≠ '\x7b' ∧ c ≠ '\x7d' ∧ c ≠ '_' ∧ c ≠ ',' := by
  refine ⟨?_, ?_, ?_, ?_, ?_⟩ <;> rintro rfl <;> exact absurd h (by decide)

theorem ne_mark_of_inName {c : Char} (h : Marks.plainBraces.inName c = true) :
    c ≠ '%' ∧ c ≠ '\x7b' ∧ c ≠ '\x7d' ∧ c ≠ ',' := by
  refine ⟨?_, ?_, ?_, ?_⟩ <;> rintro rfl <;> exact absurd h (by decide)

theorem toNat_of_inName {c : Char} (h : Marks.plainBraces.inName c = true) :
    45 ≤ c.toNat ∧ c.toNat ≤ 122 := by
  simp only [Marks.plainBraces, Char.isAlphanum, Bool.or_eq_true, beq_iff_eq] at h
  rcases h with (((h | h) | rfl) | rfl) | rfl
  · rcases Bool.or_eq_true_iff.1 h with h | h
    · obtain ⟨hlow, hhigh⟩ := of_decide_eq_true h
      exact ⟨Nat.le_trans (by decide) hlow, Nat.le_trans hhigh (by decide)⟩
    · obtain ⟨hlow, hhigh⟩ := Bool.and_eq_true_iff.1 h
      exact ⟨Nat.le_trans (by decide) (of_decide_eq_true hlow), of_decide_eq_true hhigh⟩
  · obtain ⟨hlow, hhigh⟩ := Char.isDigit_iff_toNat.1 h
    exact ⟨Nat.le_trans (by decide) hlow, Nat.le_trans hhigh (by decide)⟩
  · decide
  · decide
  · decide

theorem isBlank_of_inName {c : Char} (h : Marks.plainBraces.inName c = true) :
    isBlank c = false := by
  have hbounds := toNat_of_inName h
  simp only [isBlank, Bool.or_eq_false_iff, Bool.and_eq_false_imp, decide_eq_true_eq,
    decide_eq_false_iff_not, not_le, beq_eq_false_iff_ne, ne_eq]
  omega

namespace Segment

variable {table : Table} {x : Segment} {segments : List Segment}

theorem isTokenName_of_isPlainName {name : Text} (h : IsPlainName name) : IsTokenName name := by
  refine ⟨h.1.1, fun c hc => ?_, fun c hc => isBlank_of_inName (h.1.2 c hc)⟩
  obtain ⟨hpercent, hopen, hclose, -⟩ := ne_mark_of_inName (h.1.2 c hc)
  exact ⟨hpercent, hopen, hclose⟩

theorem IsBodyPart.isWellFormed (hx : x.IsBodyPart) : x.IsWellFormed := by
  cases x with
  | literal s =>
    intro c hc
    obtain ⟨hpercent, hopen, hclose, -⟩ := ne_mark_of_isBodyChar (hx c hc)
    exact ⟨hpercent, hopen, hclose⟩
  | braced name => exact isTokenName_of_isPlainName hx
  | percent name => exact isTokenName_of_isPlainName hx

theorem comma_notMem_name {name : Text} (h : IsPlainName name) : ',' ∉ name :=
  fun hc => (ne_mark_of_inName (h.1.2 _ hc)).2.2.2 rfl

theorem comma_notMem_textOf (h : ∀ x ∈ segments, x.IsBodyPart) : ',' ∉ textOf segments := by
  rw [textOf, List.mem_flatMap]
  rintro ⟨x, hx, hc⟩
  have hpart := h x hx
  cases x with
  | literal s => exact (ne_mark_of_isBodyChar (hpart _ hc)).2.2.2.2 rfl
  | braced name => simp [text, Marks.write, Marks.braces, comma_notMem_name hpart] at hc
  | percent name => simp [text, Marks.write, Marks.percent, comma_notMem_name hpart] at hc

/-- Values that are written like bodies keep a body one. -/
theorem IsBodyPart.expand (hx : x.IsBodyPart)
    (hvalues : ∀ name v, x.name? = some name → table.get? name = some v →
      ∀ c ∈ v, isBodyChar c = true) : (x.expand table).IsBodyPart := by
  cases x with
  | literal s => exact hx
  | braced name =>
    cases hvalue : table.get? name with
    | none => rwa [Segment.expand, hvalue]
    | some v =>
      rw [Segment.expand, hvalue]
      exact hvalues name v rfl hvalue
  | percent name =>
    cases hvalue : table.get? name with
    | none => rwa [Segment.expand, hvalue]
    | some v =>
      rw [Segment.expand, hvalue]
      exact hvalues name v rfl hvalue

/-! ### What is done to the text of a body -/

theorem spaced_write {m : Marks} {name : Text} (hname : ¬ ['_', '_'] <:+: name)
    (hopen : m.opening ≠ '_') (hclose : m.closing ≠ '_') (rest : Text) :
    Criteria.spaced (m.write name ++ rest) = m.write name ++ Criteria.spaced rest := by
  rw [Marks.write, List.cons_append, List.append_assoc, List.singleton_append,
    Criteria.spaced_cons hopen, Criteria.spaced_append hclose, Criteria.spaced_eq_self hname,
    List.cons_append, List.append_assoc, List.singleton_append]

theorem spaced_text (hx : x.IsBodyPart) (rest : Text) :
    Criteria.spaced (x.text ++ rest) = x.text ++ Criteria.spaced rest := by
  cases x with
  | literal s =>
    induction s with
    | nil => rfl
    | cons c s ih =>
      obtain ⟨hc, hs⟩ := List.forall_mem_cons.1 hx
      have hunderscore : c ≠ '_' := (ne_mark_of_isBodyChar hc).2.2.2.1
      exact (Criteria.spaced_cons hunderscore _).trans (congrArg (c :: ·) (ih hs))
  | braced name => exact spaced_write hx.2 (by decide) (by decide) rest
  | percent name => exact spaced_write hx.2 (by decide) (by decide) rest

theorem spaced_textOf_append (h : ∀ x ∈ segments, x.IsBodyPart) (rest : Text) :
    Criteria.spaced (textOf segments ++ rest) = textOf segments ++ Criteria.spaced rest :=
  over_flatMap (fun x hx => spaced_text (h x hx)) rest

theorem bracesToPercent_text (hx : x.IsBodyPart) (rest : Text) :
    bracesToPercent (x.text ++ rest) = x.toPercent.text ++ bracesToPercent rest := by
  cases x with
  | literal s => exact Marks.replace_append_of_notMem _ hx.isWellFormed.brace_notMem rest
  | braced name => exact Marks.replace_write_append _ hx.1 (by decide) rest
  | percent name =>
    have hname : IsTokenName name := isTokenName_of_isPlainName hx
    exact Marks.replace_append_of_notMem _ (notMem_write_percent hname) rest

theorem bracesToPercent_textOf (h : ∀ x ∈ segments, x.IsBodyPart) :
    bracesToPercent (textOf segments) = textOf (segments.map toPercent) := by
  have hpass : bracesToPercent (textOf segments ++ []) =
      (segments.flatMap fun x => x.toPercent.text) ++ bracesToPercent [] :=
    over_flatMap (fun x hx => bracesToPercent_text (h x hx)) []
  rw [List.append_nil, bracesToPercent_eq_self (List.forall_mem_nil _), List.append_nil] at hpass
  rw [hpass, textOf_map]

/-! ### Without the blanks at the ends

Blanks are in the literal pieces alone, so a text in pieces stays one without the blanks at its
ends. -/

theorem textOf_concat (segments : List Segment) (x : Segment) :
    textOf (segments ++ [x]) = textOf segments ++ x.text := by
  rw [textOf, List.flatMap_append, List.flatMap_singleton, textOf]

theorem dropWhile_reverse_concat {c : Char} (hc : isBlank c = false) (s : Text) :
    ((s ++ [c]).reverse.dropWhile isBlank).reverse = s ++ [c] := by
  rw [List.reverse_concat, List.dropWhile_cons_of_neg (by simp [hc]), ← List.reverse_concat,
    List.reverse_reverse]

theorem dropWhile_reverse_write {m : Marks} (hclose : isBlank m.closing = false)
    (before name : Text) :
    ((before ++ m.write name).reverse.dropWhile isBlank).reverse = before ++ m.write name := by
  have hconcat : before ++ m.write name = before ++ m.opening :: name ++ [m.closing] := by
    rw [Marks.write, List.append_assoc, List.cons_append]
  rw [hconcat, dropWhile_reverse_concat hclose]

section Trim

variable {P : Segment → Prop} (hpart : ∀ s t, t ⊆ s → P (.literal s) → P (.literal t))

include hpart

theorem exists_textOf_dropWhile (h : ∀ x ∈ segments, P x) :
    ∃ rest, (∀ x ∈ rest, P x) ∧ textOf rest = (textOf segments).dropWhile isBlank := by
  induction segments with
  | nil => exact ⟨[], List.forall_mem_nil _, rfl⟩
  | cons x segments ih =>
    obtain ⟨hx, hsegments⟩ := List.forall_mem_cons.1 h
    cases x with
    | literal s =>
      have hcons : textOf (.literal s :: segments) = s ++ textOf segments := rfl
      rw [hcons, List.dropWhile_append]
      split
      · exact ih hsegments
      · refine ⟨.literal (s.dropWhile isBlank) :: segments, ?_, rfl⟩
        exact List.forall_mem_cons.2 ⟨hpart _ _ (List.dropWhile_subset isBlank) hx, hsegments⟩
    | braced name => exact ⟨_, h, (List.dropWhile_cons_of_neg (by decide)).symm⟩
    | percent name => exact ⟨_, h, (List.dropWhile_cons_of_neg (by decide)).symm⟩

theorem exists_textOf_dropWhile_reverse (h : ∀ x ∈ segments, P x) :
    ∃ rest, (∀ x ∈ rest, P x) ∧
      textOf rest = ((textOf segments).reverse.dropWhile isBlank).reverse := by
  induction segments using List.reverseRecOn with
  | nil => exact ⟨[], List.forall_mem_nil _, rfl⟩
  | append_singleton segments x ih =>
    have hsegments : ∀ y ∈ segments, P y := fun y hy => h y (List.mem_append_left _ hy)
    have hx : P x := h x (List.mem_append_right _ List.mem_cons_self)
    rw [textOf_concat]
    cases x with
    | literal s =>
      rw [text, List.reverse_append, List.dropWhile_append]
      split
      · exact ih hsegments
      · refine ⟨segments ++ [.literal (s.reverse.dropWhile isBlank).reverse], ?_, ?_⟩
        · intro y hy
          rcases List.mem_append.1 hy with hy | hy
          · exact hsegments y hy
          · obtain rfl := List.mem_singleton.1 hy
            refine hpart _ _ (fun c hc => ?_) hx
            exact List.mem_reverse.1 (List.dropWhile_subset isBlank (List.mem_reverse.1 hc))
        · rw [textOf_concat, List.reverse_append, List.reverse_reverse, text]
    | braced name =>
      rw [text, dropWhile_reverse_write (by decide)]
      exact ⟨_, h, textOf_concat segments (.braced name)⟩
    | percent name =>
      rw [text, dropWhile_reverse_write (by decide)]
      exact ⟨_, h, textOf_concat segments (.percent name)⟩

theorem exists_textOf_trim (h : ∀ x ∈ segments, P x) :
    ∃ trimmed, (∀ x ∈ trimmed, P x) ∧ textOf trimmed = Text.trim (textOf segments) := by
  obtain ⟨rest, hrest, hleft⟩ := exists_textOf_dropWhile hpart h
  obtain ⟨trimmed, htrimmed, hright⟩ := exists_textOf_dropWhile_reverse hpart hrest
  refine ⟨trimmed, htrimmed, ?_⟩
  rw [hright, hleft, Text.trim]

end Trim

/-- What is in front of the first closing brace of a text that starts with a token in braces. -/
theorem exists_name_of_textOf (h : ∀ x ∈ segments, x.IsWellFormed) {rest : Text}
    (htext : textOf segments = '\x7b' :: rest) :
    ∃ name after, IsPlain name ∧ rest = name ++ '\x7d' :: after := by
  induction segments with
  | nil => cases htext
  | cons x segments ih =>
    obtain ⟨hx, hsegments⟩ := List.forall_mem_cons.1 h
    cases x with
    | literal s =>
      cases s with
      | nil => exact ih hsegments htext
      | cons c s =>
        obtain ⟨rfl, -⟩ := List.cons.inj htext
        exact absurd List.mem_cons_self hx.brace_notMem
    | braced name =>
      refine ⟨name, textOf segments, hx.2.1, ?_⟩
      have hcons : textOf (.braced name :: segments) =
          '\x7b' :: (name ++ ['\x7d']) ++ textOf segments := rfl
      rw [hcons, List.cons_append, List.append_assoc] at htext
      exact (List.cons.inj htext).2.symm
    | percent name => cases (List.cons.inj htext).1

/-- A piece of a body in which there is nothing left to expand. -/
def IsLeftOver (table : Table) (x : Segment) : Prop := x.IsBodyPart ∧ x.IsSettled table

theorem IsLeftOver.toPercent (hx : x.IsLeftOver table) : x.toPercent.IsLeftOver table := by
  cases x with
  | literal s => exact hx
  | braced name => exact hx
  | percent name => exact hx

theorem isLeftOver_literal (s t : Text) (hsub : t ⊆ s) (h : (literal s).IsLeftOver table) :
    (literal t).IsLeftOver table :=
  ⟨fun c hc => h.1 c (hsub hc), fun name hname => h.2 name hname⟩

theorem expand_leftOver (h : ∀ x ∈ segments, x.IsLeftOver table) :
    table.expand (textOf segments) = textOf segments :=
  expand_textOf_of_isSettled (fun x hx => (h x hx).1.isWellFormed) fun x hx => (h x hx).2

theorem settle_leftOver (h : ∀ x ∈ segments, x.IsLeftOver table) (limit : Nat) :
    settle table.expand limit (textOf segments) = textOf segments :=
  settle_eq_self (expand_leftOver h) limit

/-- A piece is one of characters alone, or the first of its characters is a mark. -/
theorem name?_eq_none_or_mem (x : Segment) :
    (x.name? = none ∧ x.toPercent = x) ∨ '%' ∈ x.text ∨ '\x7b' ∈ x.text := by
  cases x with
  | literal s => exact .inl ⟨rfl, rfl⟩
  | braced name => exact .inr (.inr List.mem_cons_self)
  | percent name => exact .inr (.inl List.mem_cons_self)

end Segment

end Placeholder

end InventoryQuery
