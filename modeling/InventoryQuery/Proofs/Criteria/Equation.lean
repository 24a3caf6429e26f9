import InventoryQuery.Proofs.Criteria.Body
/-!
# Amount expressions inside a token of their own

An amount may be asked for by an expression, and the expression may be wrapped in a token that only
says so.  Where the table has no such token itself, the wrapper is looked through after the tokens
in it are expanded, and it makes no difference, with one exception: an expression that is nothing
but a token of this kind is taken for a wrapper.
-/

namespace InventoryQuery

open Placeholder

/-! ## The amount of an expression -/

namespace Clause

open Segment

variable {table : Table} {segments : List Segment}

/-- The amount that the text of an expression asks for. -/
def targetOf (text : Text) : Target :=
  match Expression.evaluate text with
  | .ok n => .exact n
  | .error _ => .invalid

theorem targetOf_trim (text : Text) : targetOf (Text.trim text) = targetOf text := by
  rw [targetOf, Expression.evaluate, Expression.evaluateIn_trim]
  rfl

theorem targetOf_eq_invalid {text : Text} {c : Char} (hc : c ∈ text)
    (hchar : isBodyChar c = false) : targetOf text = .invalid := by
  obtain ⟨hsymbol, hblank⟩ := Bool.or_eq_false_iff.1 hchar
  unfold targetOf
  split
  · next n hevaluate =>
    rw [Expression.isSymbol_of_evaluateIn _ hevaluate hc hblank] at hsymbol
    cases hsymbol
  · rfl

theorem targetOf_of_token {x : Segment} (hx : x ∈ segments) (hname : x.name? ≠ none) :
    targetOf (textOf segments) = .invalid := by
  have hmem : ∀ c ∈ x.text, c ∈ textOf segments := fun c hc => List.mem_flatMap.2 ⟨x, hx, hc⟩
  rcases x.name?_eq_none_or_mem with ⟨hnone, -⟩ | hc | hc
  · exact absurd hnone hname
  · exact targetOf_eq_invalid (hmem _ hc) (by decide)
  · exact targetOf_eq_invalid (hmem _ hc) (by decide)

/-- The last expansion makes no difference to a body in which there is nothing left to expand: if
tokens are in it, it has no amount before and after. -/
theorem targetOf_settle (h : ∀ x ∈ segments, x.IsLeftOver table) (limit : Nat) :
    targetOf (settle table.expand limit (bracesToPercent (textOf segments))) =
      targetOf (textOf segments) := by
  have hpercent : ∀ x ∈ segments.map toPercent, x.IsLeftOver table := by
    intro y hy
    obtain ⟨x, hx, rfl⟩ := List.mem_map.1 hy
    exact (h x hx).toPercent
  rw [bracesToPercent_textOf fun x hx => (h x hx).1, settle_leftOver hpercent]
  by_cases htoken : ∃ x ∈ segments, x.name? ≠ none
  · obtain ⟨x, hx, hname⟩ := htoken
    have hname' : x.toPercent.name? ≠ none := by cases x <;> exact hname
    rw [targetOf_of_token hx hname, targetOf_of_token (List.mem_map_of_mem hx) hname']
  · have hmap : segments.map toPercent = segments := by
      rw [List.map_congr_left (g := id), List.map_id]
      intro x hx
      cases x with
      | literal s => rfl
      | braced name => exact absurd ⟨_, hx, Option.some_ne_none name⟩ htoken
      | percent name => rfl
    rw [hmap]

theorem equationBody?_wrapped (inner : Text) :
    equationBody? (equationStart ++ inner ++ ['\x7d']) = some inner := by
  rw [equationBody?, List.append_assoc, Text.after?_append]
  simp

theorem of_equationBody? {s inner : Text} (h : equationBody? s = some inner) :
    s = equationStart ++ inner ++ ['\x7d'] := by
  unfold equationBody? at h
  split at h
  · cases h
  · next rest hrest =>
    split at h
    · next hlast =>
      obtain rfl := Option.some.inj h
      rw [Text.after?_eq_some_iff.1 hrest, List.append_assoc,
        List.dropLast_append_getLast? _ hlast]
    · cases h

theorem targetOfExpression_eq {resolve : Text → Text} {value trimmed : Text}
    (h : resolve (Text.trim value) = trimmed) :
    targetOfExpression resolve value =
      targetOf (resolve (bracesToPercent ((equationBody? trimmed).getD trimmed))) := by
  rw [targetOfExpression, h]
  rfl

/-- The name that the wrapping token starts with. -/
def equationName : Text := "cmi_equationint_".toList

theorem trim_wrapped (inner : Text) :
    Text.trim (equationStart ++ inner ++ ['\x7d']) = equationStart ++ inner ++ ['\x7d'] := by
  have hstart : (equationStart ++ inner ++ ['\x7d']).dropWhile isBlank =
      equationStart ++ inner ++ ['\x7d'] :=
    List.dropWhile_cons_of_neg (a := '\x7b') (l := equationName ++ inner ++ ['\x7d']) (by decide)
  rw [Text.trim, hstart, dropWhile_reverse_concat (by decide)]

/-- What stands in a body like the inside of a wrapper is free of marks, or the token that looks
like the wrapper ends before. -/
theorem isPlain_or_exists_of_wrapped (h : ∀ x ∈ segments, x.IsWellFormed) {inner : Text}
    (htext : textOf segments = equationStart ++ inner ++ ['\x7d']) :
    IsPlain inner ∨ ∃ lead rest, IsPlain lead ∧ inner = lead ++ '\x7d' :: rest := by
  have hstart : textOf segments = '\x7b' :: (equationName ++ (inner ++ ['\x7d'])) := by
    rw [htext, List.append_assoc]
    rfl
  obtain ⟨name, after, hname, hafter⟩ := exists_name_of_textOf h hstart
  obtain ⟨lead, rfl⟩ := prefix_of_append_eq (by decide) hafter.symm
  have hlead : IsPlain lead := hname.of_subset (List.subset_append_right _ _)
  rw [List.append_assoc, List.append_cancel_left_eq] at hafter
  rcases List.eq_nil_or_concat after with rfl | ⟨rest, c, rfl⟩
  · exact .inl (List.append_cancel_right hafter ▸ hlead)
  · refine .inr ⟨lead, rest, hlead, ?_⟩
    rw [List.concat_eq_append, ← List.cons_append, ← List.append_assoc] at hafter
    exact (List.append_inj' hafter rfl).1

theorem targetOf_unclosed {lead : Text} (hlead : IsPlain lead) (rest : Text) (limit : Nat) :
    targetOf (settle table.expand limit (bracesToPercent (lead ++ '\x7d' :: rest))) =
      .invalid := by
  have hbrace : '\x7b' ∉ lead ++ ['\x7d'] := by
    rw [List.mem_append, not_or]
    exact ⟨hlead.brace_notMem, by decide⟩
  have hpercent : '%' ∉ lead ++ ['\x7d'] := by
    rw [List.mem_append, not_or]
    exact ⟨hlead.percent_notMem, by decide⟩
  have hkept : settle table.expand limit (bracesToPercent (lead ++ '\x7d' :: rest)) =
      lead ++ ['\x7d'] ++ settle table.expand limit (bracesToPercent rest) := by
    rw [List.append_cons, bracesToPercent, Marks.replace_append_of_notMem _ hbrace,
      settle_append (table.expand_append hbrace hpercent), bracesToPercent]
  rw [hkept]
  exact targetOf_eq_invalid (List.mem_append_left _ (List.mem_append_right _ List.mem_cons_self))
    (by decide)

section Wrapper

theorem expand_equation (hkeys : ∀ key, equationName <+: key → table.get? key = none)
    (hform : ∀ x ∈ segments, x.IsWellFormed)
    (hvalues : ∀ name v, .braced name ∈ segments → table.get? name = some v → '%' ∉ v) :
    table.expand (equationStart ++ textOf segments ++ ['\x7d']) =
      equationStart ++ textOf (segments.map (expand table)) ++ ['\x7d'] :=
  Table.expand_wrapped (by decide) hkeys hform hvalues

theorem expand_equation_leftOver (hkeys : ∀ key, equationName <+: key → table.get? key = none)
    (h : ∀ x ∈ segments, x.IsLeftOver table) :
    table.expand (equationStart ++ textOf segments ++ ['\x7d']) =
      equationStart ++ textOf segments ++ ['\x7d'] := by
  have hexpand := expand_equation hkeys (fun x hx => (h x hx).1.isWellFormed)
    (IsSettled.value_notMem fun x hx => (h x hx).2)
  rwa [map_expand_of_isSettled fun x hx => (h x hx).2] at hexpand

variable (limit : Nat)

/-- The wrapper is looked through. -/
theorem targetOfExpression_wrapped
    (hkeys : ∀ key, equationName <+: key → table.get? key = none)
    (h : ∀ x ∈ segments, x.IsLeftOver table) :
    targetOfExpression (settle table.expand limit) (equationStart ++ textOf segments ++ ['\x7d']) =
      targetOf (textOf segments) := by
  have hresolve := settle_eq_self (expand_equation_leftOver hkeys h) limit
  rw [← trim_wrapped] at hresolve
  rw [targetOfExpression_eq hresolve, trim_wrapped, equationBody?_wrapped, Option.getD_some,
    targetOf_settle h]

/-- A body that is no wrapper is taken as it is. -/
theorem targetOfExpression_textOf (h : ∀ x ∈ segments, x.IsLeftOver table)
    (hnot : ¬∃ inner, IsPlain inner ∧
      Text.trim (textOf segments) = equationStart ++ inner ++ ['\x7d']) :
    targetOfExpression (settle table.expand limit) (textOf segments) =
      targetOf (textOf segments) := by
  obtain ⟨trimmed, htrimmed, htext⟩ := exists_textOf_trim isLeftOver_literal h
  have hresolve : settle table.expand limit (Text.trim (textOf segments)) = textOf trimmed := by
    rw [← htext, settle_leftOver htrimmed]
  have htarget : targetOf (textOf segments) = targetOf (textOf trimmed) := by
    rw [htext, targetOf_trim]
  rw [targetOfExpression_eq hresolve, htarget]
  cases hbody : equationBody? (textOf trimmed) with
  | none => rw [Option.getD_none, targetOf_settle htrimmed]
  | some inner =>
    have hwrapped := of_equationBody? hbody
    have hbrace : targetOf (textOf trimmed) = .invalid := by
      rw [hwrapped]
      exact targetOf_eq_invalid List.mem_cons_self (by decide)
    rcases isPlain_or_exists_of_wrapped (fun x hx => (htrimmed x hx).1.isWellFormed) hwrapped with
      hplain | ⟨lead, rest, hlead, rfl⟩
    · exact absurd ⟨inner, hplain, htext.symm.trans hwrapped⟩ hnot
    · rw [Option.getD_some, targetOf_unclosed hlead, hbrace]

/-- A body that is nothing but a token like the wrapper is taken for one. -/
theorem targetOfExpression_of_trim (h : ∀ x ∈ segments, x.IsLeftOver table) {inner : Text}
    (hinner : IsPlain inner)
    (htrim : Text.trim (textOf segments) = equationStart ++ inner ++ ['\x7d']) :
    targetOfExpression (settle table.expand limit) (textOf segments) = targetOf inner := by
  obtain ⟨trimmed, htrimmed, htext⟩ := exists_textOf_trim isLeftOver_literal h
  have hresolve : settle table.expand limit (Text.trim (textOf segments)) =
      equationStart ++ inner ++ ['\x7d'] := by
    rw [← htext, settle_leftOver htrimmed, htext, htrim]
  have hsettle : settle table.expand limit inner = inner :=
    settle_eq_self (table.expand_eq_self hinner) limit
  rw [targetOfExpression_eq hresolve, equationBody?_wrapped, Option.getD_some,
    bracesToPercent_eq_self hinner, hsettle]

end Wrapper

end Clause

namespace Criteria

open Clause Segment

/-! ## Reading an expression -/

theorem spaced_underscore {s : Text} (h : ∀ c ∈ s.head?, c ≠ '_') :
    spaced ('_' :: s) = '_' :: spaced s := by
  rw [spaced]
  rintro rest - rfl
  exact h '_' rfl rfl

theorem head?_textOf_ne {segments : List Segment} (h : ∀ x ∈ segments, x.IsBodyPart) :
    ∀ c ∈ (textOf segments ++ ['\x7d']).head?, c ≠ '_' := by
  induction segments with
  | nil =>
    rintro c ⟨⟩
    decide
  | cons x segments ih =>
    obtain ⟨hx, hsegments⟩ := List.forall_mem_cons.1 h
    cases x with
    | literal s =>
      cases s with
      | nil => exact ih hsegments
      | cons c s =>
        rintro d ⟨⟩
        exact (ne_mark_of_isBodyChar (hx c List.mem_cons_self)).2.2.2.1
    | braced name =>
      rintro c ⟨⟩
      decide
    | percent name =>
      rintro c ⟨⟩
      decide

/-- The start of a field that asks for an amount by an expression. -/
def expressionStart : Text := "amtexpr:".toList

theorem spaced_expressionStart (s : Text) :
    spaced (expressionStart ++ s) = expressionStart ++ spaced s :=
  spaced_append (c := ':') (by decide) "amtexpr".toList s

theorem spaced_wrapped {segments : List Segment} (h : ∀ x ∈ segments, x.IsBodyPart) :
    spaced (equationStart ++ textOf segments ++ ['\x7d']) =
      equationStart ++ textOf segments ++ ['\x7d'] := by
  have hcut : spaced ("\x7bcmi_equationin".toList ++ 't' :: '_' :: (textOf segments ++ ['\x7d'])) =
      "\x7bcmi_equationin".toList ++ 't' :: '_' :: (textOf segments ++ ['\x7d']) := by
    rw [spaced_append (by decide), spaced_underscore (head?_textOf_ne h), spaced_textOf_append h]
    rfl
  rw [List.append_assoc]
  exact hcut

theorem amount_read {expand : Expander} {limit : Nat} {text value : Text}
    (hspaced : spaced text = text)
    (hresolve : settle expand limit text = expressionStart ++ value) (hcomma : ',' ∉ value) :
    (read expand limit text).amount =
      some (targetOfExpression (settle expand limit) value) := by
  have hfield : ',' ∉ expressionStart ++ value := by
    rw [List.mem_append, not_or]
    exact ⟨by decide, hcomma⟩
  have hkey : FieldKey.split? (expressionStart ++ value) = some (.amountExpression, value) :=
    FieldKey.split?_append (by decide) value
  have hclause : Clause.read? (settle expand limit) (expressionStart ++ value) =
      some (.amount (targetOfExpression (settle expand limit) value)) := by
    rw [Clause.read?, hkey]
  rw [read, readWith, hspaced, hresolve, Escaped.split_eq_singleton (by decide) hfield,
    List.filterMap_cons_some hclause]
  rfl

section Bodies

variable {table : Table} {body : List Segment}

theorem isLeftOver_expand (hbody : IsBody table body) :
    ∀ x ∈ body.map (Segment.expand table), x.IsLeftOver table := by
  intro y hy
  obtain ⟨x, hx, rfl⟩ := List.mem_map.1 hy
  exact ⟨(hbody.parts x hx).expand (hbody.values x hx), isSettled_expand table x⟩

theorem percent_notMem_value (hbody : IsBody table body) :
    ∀ name v, .braced name ∈ body → table.get? name = some v → '%' ∉ v :=
  fun name v hname hv hc => (ne_mark_of_isBodyChar (hbody.values _ hname name v rfl hv _ hc)).1 rfl

theorem settle_body (hbody : IsBody table body) (limit : Nat) :
    settle table.expand limit (textOf body) = textOf (body.map (Segment.expand table)) := by
  refine settle_of_expand ?_ (expand_leftOver (isLeftOver_expand hbody)) limit
  exact expand_eq_textOf (fun x hx => (hbody.parts x hx).isWellFormed)
    (percent_notMem_value hbody)

theorem settle_equation (hkeys : ∀ key, equationName <+: key → table.get? key = none)
    (hbody : IsBody table body) (limit : Nat) :
    settle table.expand limit (equationStart ++ textOf body ++ ['\x7d']) =
      equationStart ++ textOf (body.map (Segment.expand table)) ++ ['\x7d'] := by
  refine settle_of_expand ?_ (expand_equation_leftOver hkeys (isLeftOver_expand hbody)) limit
  exact expand_equation hkeys (fun x hx => (hbody.parts x hx).isWellFormed)
    (percent_notMem_value hbody)

theorem amount_read_expressionStart {text value : Text} {limit : Nat}
    (hspaced : spaced text = text) (hsettle : settle table.expand limit text = value)
    (hcomma : ',' ∉ value) :
    (read table.expand limit (expressionStart ++ text)).amount =
      some (targetOfExpression (settle table.expand limit) value) := by
  have hlead : ∀ rest, table.expand (expressionStart ++ rest) = expressionStart ++ table.expand rest :=
    table.expand_append (by decide) (by decide)
  apply amount_read
  · rw [spaced_expressionStart, hspaced]
  · rw [settle_append hlead, hsettle]
  · exact hcomma

theorem amount_read_wrapped (hkeys : ∀ key, equationName <+: key → table.get? key = none)
    (hbody : IsBody table body) (limit : Nat) :
    (read table.expand limit
        (expressionStart ++ (equationStart ++ textOf body ++ ['\x7d']))).amount =
      some (targetOf (textOf (body.map (Segment.expand table)))) := by
  have hleft := isLeftOver_expand hbody
  rw [amount_read_expressionStart (spaced_wrapped hbody.parts)
    (settle_equation hkeys hbody limit), targetOfExpression_wrapped limit hkeys hleft]
  rw [List.mem_append, List.mem_append, not_or, not_or]
  exact ⟨⟨by decide, comma_notMem_textOf fun x hx => (hleft x hx).1⟩, by decide⟩

theorem amount_read_plain (hbody : IsBody table body) (limit : Nat) :
    (read table.expand limit (expressionStart ++ textOf body)).amount =
      some (targetOfExpression (settle table.expand limit)
        (textOf (body.map (Segment.expand table)))) := by
  have hspaced := spaced_textOf_append hbody.parts []
  rw [List.append_nil, spaced, List.append_nil] at hspaced
  apply amount_read_expressionStart hspaced (settle_body hbody limit)
  exact comma_notMem_textOf fun x hx => (isLeftOver_expand hbody x hx).1

end Bodies

/-- With or without the wrapper, an expression asks for the amount that it has when its known tokens
are replaced; it has none when a token is left.  Only an expression that then is nothing but a token
like the wrapper asks for the amount of what is in that token, unless it is wrapped itself. -/
theorem amount_read_equation (table : Table) (limit : Nat) (body : List Segment)
    (hkeys : ∀ key, equationName <+: key → table.get? key = none) (hbody : IsBody table body) :
    let expanded := textOf (body.map (Segment.expand table))
    let plain := read table.expand limit (expressionStart ++ textOf body)
    let wrapped :=
      read table.expand limit (expressionStart ++ (equationStart ++ textOf body ++ ['\x7d']))
    wrapped.amount = some (targetOf expanded) ∧
      ((¬∃ inner, IsPlain inner ∧ Text.trim expanded = equationStart ++ inner ++ ['\x7d']) →
        plain.amount = some (targetOf expanded)) ∧
      (∀ inner, IsPlain inner → Text.trim expanded = equationStart ++ inner ++ ['\x7d'] →
        plain.amount = some (targetOf inner) ∧ targetOf expanded = .invalid) ∧
      ((∃ x ∈ body, ∃ name, x.name? = some name ∧ table.get? name = none) →
        targetOf expanded = .invalid) := by
  intro expanded plain wrapped
  have hleft := isLeftOver_expand hbody
  have hplain : plain.amount =
      some (targetOfExpression (settle table.expand limit) expanded) :=
    amount_read_plain hbody limit
  refine ⟨amount_read_wrapped hkeys hbody limit, fun hnot => ?_, ?_, ?_⟩
  · rw [hplain, targetOfExpression_textOf limit hleft hnot]
  · intro inner hinner htrim
    refine ⟨by rw [hplain, targetOfExpression_of_trim limit hleft hinner htrim], ?_⟩
    rw [← targetOf_trim, htrim]
    exact targetOf_eq_invalid List.mem_cons_self (by decide)
  · rintro ⟨x, hx, name, hname, hvalue⟩
    have hexpand : x.expand table = x := by
      apply expand_of_isSettled
      intro other hother
      obtain rfl := Option.some.inj (hname.symm.trans hother)
      exact hvalue
    refine targetOf_of_token (List.mem_map_of_mem hx) ?_
    rw [hexpand, hname]
    exact Option.some_ne_none name

/-- Tokens of both kinds, with operators and blanks in their values. -/
theorem amount_read_equation_bonus :
    let table : Table := Dict.ofList
      [("level".toList, "(4-1)".toList), ("bonus:1".toList, " 1.5*2 ".toList)]
    let body : List Segment :=
      [.literal " 2*".toList, .braced "level".toList, .literal " - -".toList,
        .percent "bonus:1".toList]
    ((∀ key, equationName <+: key → table.get? key = none) ∧ IsBody table body) ∧
      (read table.expand 10 "amtexpr: 2*\x7blevel\x7d - -%bonus:1%".toList).amount =
        some (.exact 9) ∧
      (read table.expand 10
          "amtexpr:\x7bcmi_equationint_ 2*\x7blevel\x7d - -%bonus:1%\x7d".toList).amount =
        some (.exact 9) := by
  intro table body
  have hentry : ∀ name v, table.get? name = some v →
      ¬ equationName <+: name ∧ ∀ c ∈ v, isBodyChar c = true := by
    intro name v hv
    have hall : ∀ entry ∈ table.entries,
        ¬ equationName <+: entry.1 ∧ entry.2.all isBodyChar = true := by
      decide
    obtain ⟨hname, hchars⟩ := hall _ (Dict.mem_of_get? hv)
    exact ⟨hname, List.all_eq_true.1 hchars⟩
  have hkeys : ∀ key, equationName <+: key → table.get? key = none :=
    fun key hkey => Option.eq_none_iff_forall_ne_some.2 fun v hv => (hentry key v hv).1 hkey
  have hbody : IsBody table body := ⟨by decide, fun x _ name v _ hv => (hentry name v hv).2⟩
  have htarget : targetOf " 2*(4-1) - - 1.5*2 ".toList = .exact 9 := by decide +kernel
  obtain ⟨hwrapped, hplain, -⟩ := amount_read_equation table 10 body hkeys hbody
  refine ⟨⟨hkeys, hbody⟩, (hplain ?_).trans (congrArg some htarget),
    hwrapped.trans (congrArg some htarget)⟩
  rintro ⟨inner, -, htrim⟩
  cases (List.cons.inj htrim).1

/-- A token that the table does not have, and that looks like a wrapper: by itself it asks for what
is in it, and inside a wrapper for no amount. -/
theorem amount_read_token_like_wrapper :
    let table : Table := ∅
    let body : List Segment := [.braced "cmi_equationint_5".toList]
    ((∀ key, equationName <+: key → table.get? key = none) ∧ IsBody table body) ∧
      (read table.expand 10 (expressionStart ++ textOf body)).amount = some (.exact 5) ∧
      (read table.expand 10
          (expressionStart ++ (equationStart ++ textOf body ++ ['\x7d']))).amount =
        some .invalid ∧
      targetOf (textOf (body.map (Segment.expand table))) = .invalid := by
  intro table body
  have hbody : IsBody table body := ⟨by decide, fun x _ name v _ hv => by cases hv⟩
  exact ⟨⟨fun _ _ => rfl, hbody⟩, by decide +kernel, by decide +kernel, by decide +kernel⟩

end Criteria

end InventoryQuery
