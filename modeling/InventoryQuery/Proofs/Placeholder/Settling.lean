import InventoryQuery.Proofs.Placeholder.Segments
import Mathlib.Logic.Function.Iterate
/-!
# Expanding until nothing changes

Passes end early where one of them changes nothing, and the text is the same as after all of the
passes that the limit allows.  Where the values of a table bring in no tokens, all passes together
come to the same as one.  A token that the table does not have can stand around a whole text of
pieces: the pieces inside it are expanded as if it were not there.
-/

namespace InventoryQuery.Placeholder

open Text (outcome? outcome?_eq_some_iff)

/-! ## Passes -/

section Passes

variable {expand : Expander} {s t lead : Text}

theorem settleWithin_eq_iterate (expand : Expander) (passes : Nat) (s : Text) :
    settleWithin expand passes s = expand^[passes] s := by
  induction passes generalizing s with
  | zero => rfl
  | succ passes ih =>
    rw [Function.iterate_succ_apply]
    by_cases hs : expand s = s
    -- The passes that are left out here would all find the same text.
    · rw [settleWithin_eq_self hs, hs, Function.iterate_fixed hs]
    · simp only [settleWithin, if_neg hs]
      exact ih (expand s)

theorem settle_eq_iterate (expand : Expander) (limit : Nat) (s : Text) :
    settle expand limit s = expand^[max 1 limit] s :=
  settleWithin_eq_iterate expand _ s

theorem settle_of_expand (hs : expand s = t) (ht : expand t = t) (limit : Nat) :
    settle expand limit s = t := by
  obtain ⟨passes, hpasses⟩ : ∃ passes, max 1 limit = passes + 1 := ⟨max 1 limit - 1, by omega⟩
  rw [settle_eq_iterate, hpasses, Function.iterate_succ_apply, hs, Function.iterate_fixed ht]

theorem settle_settle {n m : Nat} (hn : 1 ≤ n) (hm : 1 ≤ m) (s : Text) :
    settle expand m (settle expand n s) = settle expand (n + m) s := by
  have hsum : max 1 (n + m) = m + n := by omega
  rw [settle_eq_iterate, settle_eq_iterate, settle_eq_iterate, max_eq_right hn, max_eq_right hm,
    hsum, Function.iterate_add_apply]

/-- Once nothing changes, a larger limit makes no difference. -/
theorem settle_of_le {n m : Nat} (hle : n ≤ m)
    (hs : expand (settle expand n s) = settle expand n s) :
    settle expand m s = settle expand n s := by
  obtain ⟨more, hmore⟩ : ∃ more, max 1 m = more + max 1 n := ⟨max 1 m - max 1 n, by omega⟩
  rw [settle_eq_iterate expand m, hmore, Function.iterate_add_apply, ← settle_eq_iterate,
    Function.iterate_fixed hs]

/-- Passes up to a limit are exactly as many passes as the limit says, and at least one.  So limits
add up, and a text that no pass changes any more is what every larger limit comes to. -/
theorem settle_counts_passes (expand : Expander) (s : Text) :
    (∀ limit, settle expand limit s = expand^[max 1 limit] s) ∧
      (∀ n m, 1 ≤ n → 1 ≤ m → settle expand m (settle expand n s) = settle expand (n + m) s) ∧
      ∀ n m, n ≤ m → expand (settle expand n s) = settle expand n s →
        settle expand m s = settle expand n s := by
  refine ⟨fun limit => settle_eq_iterate expand limit s, ?_, ?_⟩
  · intro n m hn hm
    exact settle_settle hn hm s
  · intro n m hle hs
    exact settle_of_le hle hs

/-- Three passes reach the value at the end of a chain, and the last of them is the first that leaves
a text without tokens. -/
theorem settle_counts_passes_chain :
    let table : Table := Dict.ofList
      [("a".toList, "%b%-\x7bb\x7d".toList), ("b".toList, "%c%".toList), ("c".toList, "x".toList)]
    let reached := settle table.expand 3 "%a%".toList
    (1 ≤ 2 ∧ 1 ≤ 1 ∧ 3 ≤ 7 ∧ table.expand reached = reached) ∧
      reached = table.expand^[3] "%a%".toList ∧
      settle table.expand 1 (settle table.expand 2 "%a%".toList) = reached ∧
      settle table.expand 7 "%a%".toList = reached := by
  intro table reached
  have hfixed : table.expand reached = reached := by decide +kernel
  obtain ⟨hiterate, hadd, hlarger⟩ := settle_counts_passes table.expand "%a%".toList
  refine ⟨⟨by decide, by decide, by decide, hfixed⟩, hiterate 3, ?_, ?_⟩
  · exact hadd 2 1 (by decide) (by decide)
  · exact hlarger 3 7 (by decide) hfixed

/-- What every pass leaves at the start of a text stays there. -/
theorem settleWithin_append (h : ∀ rest, expand (lead ++ rest) = lead ++ expand rest)
    (passes : Nat) (rest : Text) :
    settleWithin expand passes (lead ++ rest) = lead ++ settleWithin expand passes rest := by
  induction passes generalizing rest with
  | zero => rfl
  | succ passes ih =>
    simp only [settleWithin, h, List.append_cancel_left_eq]
    split
    · rfl
    · exact ih (expand rest)

theorem settle_append (h : ∀ rest, expand (lead ++ rest) = lead ++ expand rest) (limit : Nat)
    (rest : Text) : settle expand limit (lead ++ rest) = lead ++ settle expand limit rest :=
  settleWithin_append h _ rest

end Passes

theorem Table.expand_append (table : Table) {lead : Text} (hbrace : '\x7b' ∉ lead)
    (hpercent : '%' ∉ lead) (rest : Text) :
    table.expand (lead ++ rest) = lead ++ table.expand rest := by
  have hbraces := Marks.replace_append_of_notMem (m := .braces) table.get? hbrace rest
  rw [Table.expand, hbraces]
  exact Marks.replace_append_of_notMem _ hpercent _

/-! ## Pieces without tokens that the table has -/

namespace Segment

/-- The name of the token that a piece is. -/
def name? : Segment → Option Text
  | .literal _ => none
  | .braced name => some name
  | .percent name => some name

/-- The table has no value for the piece. -/
def IsSettled (table : Table) (x : Segment) : Prop := ∀ name ∈ x.name?, table.get? name = none

variable {table : Table} {segments : List Segment} {x : Segment}

theorem isSettled_expand (table : Table) (x : Segment) : (x.expand table).IsSettled table := by
  have htoken : ∀ name, ∀ token : Segment, token.name? = some name →
      ((table.get? name).elim token .literal).IsSettled table := by
    intro name token hname
    cases hvalue : table.get? name with
    | none =>
      rintro other hother
      rw [Option.elim_none, hname] at hother
      obtain rfl := Option.some.inj hother
      exact hvalue
    | some v => rintro other ⟨⟩
  cases x with
  | literal s => rintro name ⟨⟩
  | braced name => exact htoken name _ rfl
  | percent name => exact htoken name _ rfl

theorem expand_of_isSettled (hx : x.IsSettled table) : x.expand table = x := by
  cases x with
  | literal s => rfl
  | braced name => rw [expand, hx name rfl, Option.elim_none]
  | percent name => rw [expand, hx name rfl, Option.elim_none]

theorem map_expand_of_isSettled (h : ∀ x ∈ segments, x.IsSettled table) :
    segments.map (expand table) = segments := by
  rw [List.map_congr_left fun x hx => expand_of_isSettled (h x hx), List.map_id']

theorem IsSettled.value_notMem (h : ∀ x ∈ segments, x.IsSettled table) :
    ∀ name v, .braced name ∈ segments → table.get? name = some v → '%' ∉ v := by
  intro name v hname hv
  rw [h _ hname name rfl] at hv
  cases hv

theorem expand_textOf_of_isSettled (hform : ∀ x ∈ segments, x.IsWellFormed)
    (hsettled : ∀ x ∈ segments, x.IsSettled table) :
    table.expand (textOf segments) = textOf segments := by
  have hexpand := expand_eq_textOf hform (IsSettled.value_notMem hsettled)
  rwa [map_expand_of_isSettled hsettled] at hexpand

end Segment

/-! ## A token around pieces -/

/-- Behind a mark that opens no token with a value, the text is gone over as if the mark were not
there. -/
theorem Marks.replace_opening_cons {m : Marks} {value : Text → Option Text} {s : Text}
    (hopen : m.inName m.opening = false) (hmarks : m.opening ≠ m.closing)
    (h : ∀ name rest, outcome? (m.name? s) = some (name, rest) → value name = none) :
    m.replace value (m.opening :: s) = m.opening :: m.replace value s := by
  cases hname : m.name? s with
  | none => exact replace_of_name?_eq_none value hname
  | some found =>
    obtain ⟨name, rest, hlt⟩ := found
    have hfound : outcome? (m.name? s) = some (name, rest) :=
      outcome?_eq_some_iff.2 ⟨hlt, hname⟩
    obtain ⟨hinside, hs⟩ := of_name? hfound
    -- The token stays as it is written, and no other one begins inside it.
    have hkept : m.opening ∉ name ++ [m.closing] := by
      rw [List.mem_append, List.mem_singleton, not_or]
      refine ⟨fun hmem => ?_, hmarks⟩
      rw [hinside.2 _ hmem] at hopen
      cases hopen
    have hrest : m.replace value s = name ++ [m.closing] ++ m.replace value rest := by
      rw [hs, List.append_cons, replace_append_of_notMem value hkept]
    rw [replace_of_name? value hfound, h name rest hfound, Option.getD_none, hrest, write,
      List.cons_append]

section Wrapped

variable {table : Table} {stem : Text} {segments : List Segment}

theorem prefix_of_append_eq {name rest tail : Text} (hstem : '\x7d' ∉ stem)
    (h : name ++ '\x7d' :: rest = stem ++ tail) : stem <+: name := by
  rcases List.append_eq_append_iff.1 h with ⟨inner, rfl, hinner⟩ | ⟨inner, rfl, -⟩
  · cases inner with
    | nil => exact ⟨[], by rw [List.append_nil, List.append_nil]⟩
    | cons c inner =>
      obtain ⟨rfl, -⟩ := List.cons.inj hinner
      exact absurd (List.mem_append_right name List.mem_cons_self) hstem
  · exact List.prefix_append stem inner

theorem replace_braces_stem (hstem : IsPlain stem)
    (hkeys : ∀ key, stem <+: key → table.get? key = none) (rest : Text) :
    Marks.braces.replace table.get? ('\x7b' :: (stem ++ rest)) =
      '\x7b' :: (stem ++ Marks.braces.replace table.get? rest) := by
  rw [← Marks.replace_append_of_notMem (m := .braces) table.get? hstem.brace_notMem rest]
  apply Marks.replace_opening_cons rfl (by decide)
  intro name after hname
  obtain ⟨-, hs⟩ := Marks.of_name? hname
  exact hkeys name (prefix_of_append_eq (fun hmem => (hstem _ hmem).2.2 rfl) hs.symm)

/-- Pieces inside a token are expanded where the table has no key with the start of its name. -/
theorem Table.expand_wrapped (hstem : IsPlain stem)
    (hkeys : ∀ key, stem <+: key → table.get? key = none)
    (hform : ∀ x ∈ segments, x.IsWellFormed)
    (hvalues : ∀ name v, .braced name ∈ segments → table.get? name = some v → '%' ∉ v) :
    table.expand ('\x7b' :: stem ++ Segment.textOf segments ++ ['\x7d']) =
      '\x7b' :: stem ++ Segment.textOf (segments.map (Segment.expand table)) ++ ['\x7d'] := by
  have hclose : ∀ m : Marks, m.opening ≠ '\x7d' → m.replace table.get? ['\x7d'] = ['\x7d'] :=
    fun m hm => Marks.replace_eq_self _ (mt List.mem_singleton.1 hm)
  have hpercent : '%' ∉ '\x7b' :: stem := by
    rw [List.mem_cons, not_or]
    exact ⟨by decide, hstem.percent_notMem⟩
  rw [Table.expand, List.append_assoc, List.cons_append, replace_braces_stem hstem hkeys,
    Segment.replace_braces_textOf hform, hclose .braces (by decide), ← List.cons_append,
    Marks.replace_append_of_notMem (m := .percent) _ hpercent,
    Segment.replace_percent_textOf hform hvalues, hclose .percent (by decide),
    ← List.append_assoc]

end Wrapped

end InventoryQuery.Placeholder
