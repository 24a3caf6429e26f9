import InventoryQuery.Proofs.Expression.Evaluation
/-!
# What an expression text is refused with

The reader takes as much off a text as it can: where some start of a text is an expression, it takes
the longest such start, and otherwise it misses a literal at the very start.  So a text that is no
expression is refused with what follows its longest start that is one, or with all of it.
-/

namespace InventoryQuery.Expression

open Text (Rest RestOrAll found? found?_eq_some_iff outcome afterChar?)

/-! ## The place where something is missed -/

section Places

variable {s place : Text}

theorem place_of_readDigits (h : readDigits s = .error place) : place = s := by
  unfold readDigits at h
  split at h
  · cases h
  · exact (Except.error.inj h).symm

theorem place_of_readLiteral (h : readLiteral s = .error place) : place = s := by
  unfold readLiteral at h
  split at h
  · next place' hdigits =>
    obtain rfl := Except.error.inj h
    exact place_of_readDigits hdigits
  · split at h
    · cases h
    · split at h <;> cases h

theorem place_of_readLiteralFactor (h : readLiteralFactor s = .error place) : place = s := by
  unfold readLiteralFactor at h
  split at h
  · next place' hliteral =>
    obtain rfl := Except.error.inj h
    exact place_of_readLiteral hliteral
  · cases h

/-- Whatever is missed inside a group or behind a sign, the literal is missed in front of it. -/
theorem place_of_readFactor (h : readFactor s = .error place) : place = s := by
  unfold readFactor at h
  split at h
  · exact place_of_readLiteralFactor h
  · split at h
    · split at h
      · exact place_of_readLiteralFactor h
      · split at h
        · exact place_of_readLiteralFactor h
        · cases h
    · split at h
      · split at h
        · exact place_of_readLiteralFactor h
        · cases h
      · exact place_of_readLiteralFactor h

theorem place_of_readProduct (h : readProduct s = .error place) : place = s := by
  unfold readProduct at h
  split at h
  · next place' hfactor =>
    obtain rfl := Except.error.inj h
    exact place_of_readFactor hfactor
  · cases h

theorem place_of_readSum (h : readSum s = .error place) : place = s := by
  unfold readSum at h
  split at h
  · next place' hproduct =>
    obtain rfl := Except.error.inj h
    exact place_of_readProduct hproduct
  · cases h

end Places

/-! ## How far a reader gets -/

/-- A reader succeeds and leaves no more than `rest`. -/
def Reaches {α : Type} {s : Text} (reading : Except Text (α × Rest s)) (rest : Text) : Prop :=
  ∃ a left, found? reading = some (a, left) ∧ left.length ≤ rest.length

variable {α : Type} {s rest : Text}

theorem length_outcome_le (reading : α × RestOrAll s) : (outcome reading).2.length ≤ s.length :=
  reading.2.2

theorem reaches_readDigits (d : Digits) (rest : Text) :
    Reaches (readDigits (d.text ++ rest)) rest := by
  have hdigits : ∀ c ∈ d.text, c.isDigit = true := fun c hc => d.isDigit_of_mem hc
  have htake : (d.text ++ rest).takeWhile Char.isDigit = d.text ++ rest.takeWhile Char.isDigit :=
    List.takeWhile_append_of_pos hdigits
  have hdrop : (d.text ++ rest).dropWhile Char.isDigit = rest.dropWhile Char.isDigit :=
    List.dropWhile_append_of_pos hdigits
  have hall : Numeral.isDigits ((d.text ++ rest).takeWhile Char.isDigit) = true := by
    rw [Numeral.isDigits, List.all_takeWhile, Bool.and_true, htake]
    simp [d.ne_nil]
  refine ⟨⟨_, hall⟩, (d.text ++ rest).dropWhile Char.isDigit, ?_, ?_⟩
  · rw [readDigits, dif_pos hall]
    rfl
  · rw [hdrop]
    exact (List.dropWhile_suffix _).length_le

theorem reaches_readLiteral_of_readDigits {d : Digits} {left : Text}
    (h : found? (readDigits s) = some (d, left)) : Reaches (readLiteral s) left := by
  obtain ⟨hlt, hdigits⟩ := found?_eq_some_iff.1 h
  cases hpoint : afterChar? '.' left with
  | none =>
    refine ⟨⟨d, none⟩, left, found?_eq_some_iff.2 ⟨hlt, ?_⟩, Nat.le_refl _⟩
    simp only [readLiteral, hdigits, hpoint]
  | some after =>
    obtain ⟨r, hr⟩ := after
    cases hfraction : readDigits r with
    | error place =>
      refine ⟨⟨d, none⟩, left, found?_eq_some_iff.2 ⟨hlt, ?_⟩, Nat.le_refl _⟩
      simp only [readLiteral, hdigits, hpoint, hfraction]
    | ok taken =>
      obtain ⟨fraction, r', hr'⟩ := taken
      have hleft : r'.length < left.length := Nat.lt_trans hr' hr
      refine ⟨⟨d, some fraction⟩, r', found?_eq_some_iff.2 ⟨Nat.lt_trans hleft hlt, ?_⟩,
        Nat.le_of_lt hleft⟩
      simp only [readLiteral, hdigits, hpoint, hfraction]

theorem reaches_readLiteral (n : Literal) (rest : Text) :
    Reaches (readLiteral (n.text ++ rest)) rest := by
  obtain ⟨whole, fraction⟩ := n
  cases fraction with
  | none =>
    obtain ⟨d, left, hdigits, hleft⟩ := reaches_readDigits whole rest
    obtain ⟨m, last, hliteral, hlast⟩ := reaches_readLiteral_of_readDigits hdigits
    rw [Literal.text, List.append_nil]
    exact ⟨m, last, hliteral, Nat.le_trans hlast hleft⟩
  | some fraction =>
    have hpoint : ∀ c ∈ ('.' :: (fraction.text ++ rest)).head?, c.isDigit = false := by simp
    obtain ⟨h, hwhole⟩ := found?_eq_some_iff.1 (readDigits_text whole hpoint)
    obtain ⟨d, left, hdigits, hleft⟩ := reaches_readDigits fraction rest
    obtain ⟨h', hfraction⟩ := found?_eq_some_iff.1 hdigits
    rw [Literal.text, List.append_assoc, List.cons_append]
    refine ⟨⟨whole, some d⟩, left, ?_, hleft⟩
    simp only [readLiteral, hwhole, Text.afterChar?_cons, hfraction]
    rfl

theorem reaches_readFactor (f : Factor) (rest : Text) :
    Reaches (readFactor (f.text ++ rest)) rest := by
  cases f with
  | literal n =>
    obtain ⟨c, s, htext, hc⟩ := n.exists_text_eq_cons
    obtain ⟨m, left, hliteral, hleft⟩ := reaches_readLiteral n rest
    rw [htext, List.cons_append] at hliteral
    rw [Factor.text, htext, List.cons_append]
    exact ⟨.literal m, left, readFactor_of_readLiteral hc hliteral, hleft⟩
  | group t =>
    -- What is in the group ends in front of the closing parenthesis, and nowhere else.
    have hsum := readSum_text t (endsSum_close rest).1
    rw [extendSum_of_endsSum t (endsSum_close rest)] at hsum
    rw [Factor.text, List.cons_append, List.append_assoc, List.singleton_append]
    exact ⟨.group t, rest, readFactor_group hsum, Nat.le_refl _⟩
  | signed sign f =>
    obtain ⟨g, left, hfactor, hleft⟩ := reaches_readFactor f rest
    rw [Factor.text, List.cons_append]
    exact ⟨.signed sign g, left, readFactor_signed sign hfactor, hleft⟩

theorem reaches_readProduct (p : Product) (rest : Text) :
    Reaches (readProduct (p.text ++ rest)) rest := by
  cases p with
  | factor f =>
    obtain ⟨g, left, hfactor, hleft⟩ := reaches_readFactor f rest
    rw [Product.text]
    exact ⟨_, _, readProduct_of_readFactor hfactor,
      Nat.le_trans (length_outcome_le (extendProduct (.factor g) left)) hleft⟩
  | extend p op f =>
    obtain ⟨g, left, hfactor, hleft⟩ := reaches_readFactor f rest
    have hproduct := readProduct_text p (endsFactor_scale op (f.text ++ rest))
    rw [extendProduct_scale p op hfactor] at hproduct
    rw [Product.text, List.append_assoc, List.cons_append]
    exact ⟨_, _, hproduct, Nat.le_trans (length_outcome_le _) hleft⟩

theorem reaches_readSum (t : Sum) (rest : Text) : Reaches (readSum (t.text ++ rest)) rest := by
  cases t with
  | product p =>
    obtain ⟨q, left, hproduct, hleft⟩ := reaches_readProduct p rest
    rw [Sum.text]
    exact ⟨_, _, readSum_of_readProduct hproduct,
      Nat.le_trans (length_outcome_le (extendSum (.product q) left)) hleft⟩
  | extend t op p =>
    obtain ⟨q, left, hproduct, hleft⟩ := reaches_readProduct p rest
    have hsum := readSum_text t (endsProduct_sign op (p.text ++ rest))
    rw [extendSum_sign t op hproduct] at hsum
    rw [Sum.text, List.append_assoc, List.cons_append]
    exact ⟨_, _, hsum, Nat.le_trans (length_outcome_le _) hleft⟩

/-! ## The longest start that is an expression -/

/-- The text is derived. -/
def IsExpression (s : Text) : Prop := ∃ t : Sum, t.text = s

/-- Of the starts of `s` that are expressions, `p` is the longest. -/
structure IsLongestStart (p s : Text) : Prop where
  isExpression : IsExpression p
  starts : p <+: s
  longest : ∀ q, q <+: s → IsExpression q → q <+: p

theorem exists_readSum_of_start {q : Text} (hstart : q <+: s) (hq : IsExpression q) :
    ∃ t left, found? (readSum s) = some (t, left) ∧ q <+: t.text := by
  obtain ⟨u, rfl⟩ := hq
  obtain ⟨rest, rfl⟩ := hstart
  obtain ⟨t, left, hread, hleft⟩ := reaches_readSum u rest
  refine ⟨t, left, hread, ?_⟩
  obtain ⟨_, hok⟩ := found?_eq_some_iff.1 hread
  have htext : t.text ++ left = u.text ++ rest := text_of_readSum hok
  apply List.prefix_of_prefix_length_le (List.prefix_append u.text rest) ⟨left, htext⟩
  have hlength := congrArg List.length htext
  rw [List.length_append, List.length_append] at hlength
  omega

theorem isLongestStart_of_readSum {t : Sum} {left : Text}
    (h : found? (readSum s) = some (t, left)) : IsLongestStart t.text s := by
  obtain ⟨_, hok⟩ := found?_eq_some_iff.1 h
  refine ⟨⟨t, rfl⟩, ⟨left, text_of_readSum hok⟩, fun q hstart hq => ?_⟩
  obtain ⟨u, left', hread, hmost⟩ := exists_readSum_of_start hstart hq
  obtain ⟨rfl, -⟩ := Prod.mk.inj (Option.some.inj (h.symm.trans hread))
  exact hmost

theorem parse_of_not_isExpression (hne : s ≠ []) (hdepth : nesting s ≤ maxNesting)
    (hnot : ¬IsExpression s) :
    (∃ p rest, s = p ++ rest ∧ IsLongestStart p s ∧ parse s = .error (.trailing rest)) ∨
      (∀ p, p <+: s → ¬IsExpression p) ∧ parse s = .error (.unreadable s) := by
  rw [parse, if_neg hne, if_neg (Nat.not_lt.2 hdepth)]
  cases hread : readSum s with
  | error place =>
    obtain rfl := place_of_readSum hread
    refine .inr ⟨fun p hstart hp => ?_, rfl⟩
    obtain ⟨t, left, hfound, -⟩ := exists_readSum_of_start hstart hp
    rw [hread] at hfound
    cases hfound
  | ok taken =>
    obtain ⟨t, left, hleft⟩ := taken
    have htext : t.text ++ left = s := text_of_readSum hread
    have hlongest : IsLongestStart t.text s :=
      isLongestStart_of_readSum (found?_eq_some_iff.2 ⟨hleft, hread⟩)
    cases left with
    | nil => exact absurd ⟨t, (List.append_nil t.text).symm.trans htext⟩ hnot
    | cons c left => exact .inl ⟨t.text, c :: left, htext.symm, hlongest, rfl⟩

/-- A text that is no expression, though it is not empty and does not nest too deeply, has no amount.
Where some start of it is an expression, it is refused with what follows the longest one, and
otherwise with all of it. -/
theorem evaluateIn_of_not_isExpression {α : Type} (A : Arithmetic α) (text : Text) :
    let s := Text.strip text
    s ≠ [] → nesting s ≤ maxNesting → ¬IsExpression s →
      (∀ n, evaluateIn A text ≠ .ok n) ∧
      ((∃ p, p ≠ [] ∧ p <+: s ∧ IsExpression p) → ∃ p rest, s = p ++ rest ∧ IsLongestStart p s ∧
        evaluateIn A text = .error (.trailing rest)) ∧
      ((¬∃ p, p ≠ [] ∧ p <+: s ∧ IsExpression p) →
        evaluateIn A text = .error (.unreadable s)) := by
  intro s hne hdepth hnot
  have hevaluate : ∀ {failure}, parse s = .error failure → evaluateIn A text = .error failure := by
    intro failure hparse
    rw [evaluateIn, hparse]
  rcases parse_of_not_isExpression hne hdepth hnot with ⟨p, rest, hs, hp, hparse⟩ | ⟨hnone, hparse⟩
  · refine ⟨fun n hn => ?_, fun _ => ⟨p, rest, hs, hp, hevaluate hparse⟩, fun hnone => ?_⟩
    · cases (hevaluate hparse).symm.trans hn
    · obtain ⟨t, ht⟩ := hp.isExpression
      exact absurd ⟨p, ne_nil_of_text ht, hp.starts, hp.isExpression⟩ hnone
  · refine ⟨fun n hn => ?_, ?_, fun _ => hevaluate hparse⟩
    · cases (hevaluate hparse).symm.trans hn
    · rintro ⟨p, -, hstart, hp⟩
      exact absurd hp (hnone p hstart)

/-- A factor that is not closed does not belong to the product in front of it, and a group that is
not closed is nothing at all. -/
theorem evaluateIn_of_not_isExpression_unclosed :
    IsLongestStart "12".toList "12*-(3+4".toList ∧
      evaluate "12 * -(3 + 4".toList = .error (.trailing "*-(3+4".toList) ∧
      evaluate "(1 + 2.".toList = .error (.unreadable "(1+2.".toList) := by
  have hrefused : ∀ {s : Text}, nesting s ≤ maxNesting → (parse s).toBool = false →
      ¬IsExpression s := by
    rintro s hdepth hparse ⟨t, ht⟩
    rw [parse_of_text ht hdepth] at hparse
    cases hparse
  have hproduct : ¬IsExpression (Text.strip "12 * -(3 + 4".toList) :=
    hrefused (by decide) (by decide +kernel)
  have hgroup : ¬IsExpression (Text.strip "(1 + 2.".toList) :=
    hrefused (by decide) (by decide +kernel)
  have htwelve : IsExpression "12".toList :=
    ⟨.product (.factor (.literal ⟨⟨"12".toList, by decide⟩, none⟩)), rfl⟩
  have hevaluate : evaluate "12 * -(3 + 4".toList = .error (.trailing "*-(3+4".toList) := by
    decide +kernel
  refine ⟨?_, hevaluate, ?_⟩
  · obtain ⟨-, htrailing, -⟩ := evaluateIn_of_not_isExpression .double "12 * -(3 + 4".toList
      (by decide) (by decide) hproduct
    obtain ⟨p, rest, hs, hp, herror⟩ := htrailing ⟨_, by decide, by decide, htwelve⟩
    obtain rfl := Failure.trailing.inj (Except.error.inj (herror.symm.trans hevaluate))
    obtain rfl : "12".toList = p := List.append_cancel_right hs
    exact hp
  · obtain ⟨-, -, hunreadable⟩ := evaluateIn_of_not_isExpression .double "(1 + 2.".toList
      (by decide) (by decide) hgroup
    refine hunreadable ?_
    rintro ⟨p, -, hstart, hp⟩
    obtain ⟨t, left, hread, -⟩ := exists_readSum_of_start hstart hp
    have hnone : (found? (readSum (Text.strip "(1 + 2.".toList))).isNone = true := by
      decide +kernel
    rw [hread] at hnone
    cases hnone

end InventoryQuery.Expression
