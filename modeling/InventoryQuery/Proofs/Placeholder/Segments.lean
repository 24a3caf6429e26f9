import InventoryQuery.Proofs.Dict
import InventoryQuery.Proofs.Placeholder.PlainText
import InventoryQuery.Proofs.Text.Reading
import Mathlib.Data.List.Infix
/-!
# Expanding texts that are written as plain pieces and tokens

Percent signs both open and close a token, and one pass goes over a text twice.  Still, a text that
is written as plain pieces and tokens, in whatever order, is taken apart in just this way: every
token is replaced once where the table has a value for it, and all else stays.  A text in which no
token of the table is written stays as it is, also where its marks do not pair up.
-/

namespace InventoryQuery.Placeholder

open Text (outcome? outcome?_eq_some_iff)

namespace Marks

variable {m : Marks} {s name rest : Text}

/-- A name that can stand between the marks. -/
def IsName (m : Marks) (name : Text) : Prop := name ≠ [] ∧ ∀ c ∈ name, m.inName c = true

/-! ## Finding a name -/

theorem outcome?_name? (hname : m.IsName name) (hclose : m.inName m.closing = false)
    (rest : Text) : outcome? (m.name? (name ++ m.closing :: rest)) = some (name, rest) := by
  have hrest : ∀ c ∈ (m.closing :: rest).head?, m.inName c = false := by
    rintro c ⟨⟩
    exact hclose
  have htake := Text.takeWhile_append hname.2 hrest
  have hdrop := Text.dropWhile_append hname.2 hrest
  unfold name?
  split
  · next h => cases hdrop.symm.trans h
  · next c r h =>
    obtain ⟨rfl, rfl⟩ := List.cons.inj (hdrop.symm.trans h)
    rw [if_pos ⟨rfl, htake.symm ▸ hname.1⟩]
    simp only [outcome?, Option.map_some, htake]

theorem of_name? (h : outcome? (m.name? s) = some (name, rest)) :
    m.IsName name ∧ s = name ++ m.closing :: rest := by
  obtain ⟨_, hname⟩ := outcome?_eq_some_iff.1 h
  unfold name? at hname
  split at hname
  · cases hname
  · next c r hdrop =>
    split at hname
    · next hfound =>
      simp only [Option.some.injEq, Prod.mk.injEq, Subtype.mk.injEq] at hname
      obtain ⟨rfl, rfl⟩ := hname
      refine ⟨⟨hfound.2, List.all_eq_true.1 List.all_takeWhile⟩, ?_⟩
      rw [← hfound.1, ← hdrop, List.takeWhile_append_dropWhile]
    · cases hname

/-! ## Replacing piece by piece -/

variable (value : Text → Option Text)

theorem replace_append_of_notMem (hs : m.opening ∉ s) (t : Text) :
    m.replace value (s ++ t) = s ++ m.replace value t := by
  induction s with
  | nil => rfl
  | cons c s ih =>
    obtain ⟨hc, hrest⟩ := not_or.1 (mt List.mem_cons.2 hs)
    rw [List.cons_append, replace, if_neg (Ne.symm hc), ih hrest, List.cons_append]

theorem replace_of_name? (h : outcome? (m.name? s) = some (name, rest)) :
    m.replace value (m.opening :: s) =
      (value name).getD (m.write name) ++ m.replace value rest := by
  obtain ⟨_, hname⟩ := outcome?_eq_some_iff.1 h
  rw [replace, if_pos rfl, hname]

theorem replace_of_name?_eq_none (h : m.name? s = none) :
    m.replace value (m.opening :: s) = m.opening :: m.replace value s := by
  rw [replace, if_pos rfl, h]

theorem replace_write_append (hname : m.IsName name) (hclose : m.inName m.closing = false)
    (rest : Text) :
    m.replace value (m.write name ++ rest) =
      (value name).getD (m.write name) ++ m.replace value rest := by
  rw [write, List.cons_append, List.append_assoc, List.singleton_append]
  exact replace_of_name? value (outcome?_name? hname hclose rest)

/-- Where no token with a value is written, nothing is replaced. -/
theorem replace_eq_self_of_unwritten
    (h : ∀ name v, value name = some v → ¬ m.write name <:+: s) : m.replace value s = s := by
  fun_induction replace m value s with
  | case1 => rfl
  | case2 s name rest hlt hname ih =>
    obtain ⟨-, hs⟩ := of_name? (outcome?_eq_some_iff.2 ⟨hlt, hname⟩)
    have hwritten : m.opening :: s = m.write name ++ rest := by
      rw [write, List.cons_append, List.append_assoc, List.singleton_append, hs]
    rw [hwritten] at h ⊢
    have hvalue : value name = none :=
      Option.eq_none_iff_forall_ne_some.2 fun v hv =>
        h name v hv (List.prefix_append _ rest).isInfix
    rw [hvalue, Option.getD_none, ih]
    exact fun other v hv hin => h other v hv (hin.trans (List.suffix_append _ rest).isInfix)
  | case3 s hname ih =>
    rw [ih fun name v hv hin => h name v hv (hin.trans (List.suffix_cons _ s).isInfix)]
  | case4 c s hc ih =>
    rw [ih fun name v hv hin => h name v hv (hin.trans (List.suffix_cons _ s).isInfix)]

end Marks

/-! ## Texts in pieces -/

/-- A name that can stand between marks of both kinds. -/
def IsTokenName (name : Text) : Prop :=
  name ≠ [] ∧ IsPlain name ∧ ∀ c ∈ name, isBlank c = false

instance (name : Text) : Decidable (IsTokenName name) :=
  @instDecidableAnd _ _ inferInstance (@instDecidableAnd _ _ inferInstance
    (List.decidableBAll (fun c => isBlank c = false) name))

/-- A piece of a text: characters that are no marks, or a token. -/
inductive Segment where
  | literal (s : Text)
  | braced (name : Text)
  | percent (name : Text)

namespace Segment

/-- A piece as it is written. -/
def text : Segment → Text
  | .literal s => s
  | .braced name => Marks.braces.write name
  | .percent name => Marks.percent.write name

def IsWellFormed : Segment → Prop
  | .literal s => IsPlain s
  | .braced name => IsTokenName name
  | .percent name => IsTokenName name

instance : (x : Segment) → Decidable x.IsWellFormed
  | .literal s => inferInstanceAs (Decidable (IsPlain s))
  | .braced name => inferInstanceAs (Decidable (IsTokenName name))
  | .percent name => inferInstanceAs (Decidable (IsTokenName name))

/-- A piece with the value of its token in place of the token, if the table has one. -/
def expand (table : Table) : Segment → Segment
  | .literal s => .literal s
  | .braced name => (table.get? name).elim (.braced name) .literal
  | .percent name => (table.get? name).elim (.percent name) .literal

/-- The text that pieces make one after another. -/
def textOf (segments : List Segment) : Text := segments.flatMap text

/-- A piece behind the pass for tokens in braces. -/
def expandBraced (table : Table) : Segment → Segment
  | .literal s => .literal s
  | .braced name => expand table (.braced name)
  | .percent name => .percent name

variable {table : Table} {segments : List Segment} {name : Text}

theorem textOf_map (f : Segment → Segment) :
    textOf (segments.map f) = segments.flatMap fun x => (f x).text :=
  List.flatMap_map f text segments

/-- What goes over each piece, whatever follows the piece, goes over all of them. -/
theorem over_flatMap {f : Text → Text} {before after : Segment → Text}
    (h : ∀ x ∈ segments, ∀ rest, f (before x ++ rest) = after x ++ f rest) (rest : Text) :
    f (segments.flatMap before ++ rest) = segments.flatMap after ++ f rest := by
  induction segments with
  | nil => rfl
  | cons x segments ih =>
    obtain ⟨hx, hrest⟩ := List.forall_mem_cons.1 h
    rw [List.flatMap_cons, List.append_assoc, hx, ih hrest, List.flatMap_cons, List.append_assoc]

theorem isName_braces (h : IsTokenName name) : Marks.braces.IsName name := by
  refine ⟨h.1, fun c hc => ?_⟩
  obtain ⟨-, hopen, hclose⟩ := h.2.1 c hc
  simp [Marks.braces, hopen, hclose, h.2.2 c hc]

theorem isName_percent (h : IsTokenName name) : Marks.percent.IsName name := by
  refine ⟨h.1, fun c hc => ?_⟩
  obtain ⟨hpercent, -, -⟩ := h.2.1 c hc
  simp [Marks.percent, hpercent, h.2.2 c hc]

theorem notMem_write_braces (h : IsTokenName name) : '%' ∉ Marks.braces.write name := by
  have hname : '%' ∉ name := h.2.1.percent_notMem
  simp [Marks.write, Marks.braces, hname]

theorem notMem_write_percent (h : IsTokenName name) : '\x7b' ∉ Marks.percent.write name := by
  have hname : '\x7b' ∉ name := h.2.1.brace_notMem
  simp [Marks.write, Marks.percent, hname]

theorem text_expand_braced (table : Table) (name : Text) :
    (expand table (.braced name)).text =
      (table.get? name).getD (Marks.braces.write name) := by
  cases h : table.get? name <;> simp [expand, text, h]

theorem text_expand_percent (table : Table) (name : Text) :
    (expand table (.percent name)).text =
      (table.get? name).getD (Marks.percent.write name) := by
  cases h : table.get? name <;> simp [expand, text, h]

theorem replace_braces_text {x : Segment} (hx : x.IsWellFormed) (rest : Text) :
    Marks.braces.replace table.get? (x.text ++ rest) =
      (x.expandBraced table).text ++ Marks.braces.replace table.get? rest := by
  cases x with
  | literal s => exact Marks.replace_append_of_notMem _ hx.brace_notMem rest
  | braced name =>
    rw [expandBraced, text_expand_braced]
    exact Marks.replace_write_append _ (isName_braces hx) rfl rest
  | percent name => exact Marks.replace_append_of_notMem _ (notMem_write_percent hx) rest

/-- The pass for percent signs finds the tokens that were written, if the first pass brought in no
percent sign. -/
theorem replace_percent_text {x : Segment} (hx : x.IsWellFormed)
    (hvalue : ∀ name v, x = .braced name → table.get? name = some v → '%' ∉ v) (rest : Text) :
    Marks.percent.replace table.get? ((x.expandBraced table).text ++ rest) =
      (x.expand table).text ++ Marks.percent.replace table.get? rest := by
  cases x with
  | literal s => exact Marks.replace_append_of_notMem _ hx.percent_notMem rest
  | braced name =>
    apply Marks.replace_append_of_notMem
    rw [expandBraced, text_expand_braced]
    cases hname : table.get? name with
    | none => exact notMem_write_braces hx
    | some v => exact hvalue name v rfl hname
  | percent name =>
    rw [text_expand_percent]
    exact Marks.replace_write_append _ (isName_percent hx) rfl rest

theorem replace_braces_textOf (hform : ∀ x ∈ segments, x.IsWellFormed) (rest : Text) :
    Marks.braces.replace table.get? (textOf segments ++ rest) =
      textOf (segments.map (expandBraced table)) ++ Marks.braces.replace table.get? rest := by
  rw [textOf_map]
  exact over_flatMap (fun x hx => replace_braces_text (hform x hx)) rest

theorem replace_percent_textOf (hform : ∀ x ∈ segments, x.IsWellFormed)
    (hvalues : ∀ name v, .braced name ∈ segments → table.get? name = some v → '%' ∉ v)
    (rest : Text) :
    Marks.percent.replace table.get? (textOf (segments.map (expandBraced table)) ++ rest) =
      textOf (segments.map (expand table)) ++ Marks.percent.replace table.get? rest := by
  rw [textOf_map, textOf_map]
  apply over_flatMap
  intro x hx rest
  refine replace_percent_text (hform x hx) (fun name v hname hv => ?_) rest
  exact hvalues name v (hname ▸ hx) hv

theorem expand_eq_textOf (hform : ∀ x ∈ segments, x.IsWellFormed)
    (hvalues : ∀ name v, .braced name ∈ segments → table.get? name = some v → '%' ∉ v) :
    table.expand (textOf segments) = textOf (segments.map (expand table)) := by
  have hbraces : Marks.braces.replace table.get? (textOf segments ++ []) =
      textOf (segments.map (expandBraced table)) ++ Marks.braces.replace table.get? [] :=
    replace_braces_textOf hform []
  have hpercent := replace_percent_textOf hform hvalues []
  rw [Marks.replace, List.append_nil, List.append_nil] at hbraces hpercent
  rw [Table.expand, hbraces, hpercent]

end Segment

open Segment

/-- One pass over a text that is written in pieces puts in the values of the tokens that the table
knows and leaves all the rest; and no pass changes a text in which no token of the table is
written, whatever other marks are in it. -/
theorem Table.expand_textOf (table : Table) :
    (∀ segments : List Segment, (∀ x ∈ segments, x.IsWellFormed) →
      (∀ name v, .braced name ∈ segments → table.get? name = some v → '%' ∉ v) →
      table.expand (textOf segments) = textOf (segments.map (Segment.expand table))) ∧
    ∀ s, (∀ name v, table.get? name = some v →
        ¬ Marks.braces.write name <:+: s ∧ ¬ Marks.percent.write name <:+: s) →
      table.expand s = s := by
  refine ⟨fun segments hform hvalues => expand_eq_textOf hform hvalues, fun s hs => ?_⟩
  have hbraces : Marks.braces.replace table.get? s = s :=
    Marks.replace_eq_self_of_unwritten _ fun name v hv => (hs name v hv).1
  have hpercent : Marks.percent.replace table.get? s = s :=
    Marks.replace_eq_self_of_unwritten _ fun name v hv => (hs name v hv).2
  rw [Table.expand, hbraces, hpercent]

/-- Tokens that touch, values that look like tokens, and marks that belong to no token. -/
theorem Table.expand_textOf_adjacent :
    let table : Table := Dict.ofList
      [("a".toList, "\x7bb\x7d".toList), ("b".toList, "1".toList), ("p".toList, "%b%".toList)]
    let segments : List Segment :=
      [.literal "x:".toList, .braced "b".toList, .braced "a".toList, .percent "p".toList,
        .percent "q".toList, .braced "q".toList, .percent "b".toList]
    let stray := "50% \x7bb, %b \x7da".toList
    ((∀ x ∈ segments, x.IsWellFormed) ∧
        (∀ name v, .braced name ∈ segments → table.get? name = some v → '%' ∉ v) ∧
        ∀ name v, table.get? name = some v →
          ¬ Marks.braces.write name <:+: stray ∧ ¬ Marks.percent.write name <:+: stray) ∧
      table.expand "x:\x7bb\x7d\x7ba\x7d%p%%q%\x7bq\x7d%b%".toList =
        "x:1\x7bb\x7d%b%%q%\x7bq\x7d1".toList ∧
      table.expand stray = stray := by
  intro table segments stray
  have hform : ∀ x ∈ segments, x.IsWellFormed := by decide
  have hvalues : ∀ name v, .braced name ∈ segments → table.get? name = some v → '%' ∉ v := by
    intro name v hname hv
    have hbraced : ∀ x ∈ segments, ∀ name, x = .braced name →
        name = "b".toList ∨ name = "a".toList ∨ name = "q".toList := by
      simp [segments]
    rcases hbraced _ hname name rfl with rfl | rfl | rfl
    · obtain rfl : "1".toList = v := Option.some.inj hv
      decide
    · obtain rfl : "\x7bb\x7d".toList = v := Option.some.inj hv
      decide
    · cases hv
  have hstray : ∀ name v, table.get? name = some v →
      ¬ Marks.braces.write name <:+: stray ∧ ¬ Marks.percent.write name <:+: stray := by
    intro name v hv
    have hentries : ∀ entry ∈ table.entries, ¬ Marks.braces.write entry.1 <:+: stray ∧
        ¬ Marks.percent.write entry.1 <:+: stray := by
      decide
    exact hentries _ (Dict.mem_of_get? hv)
  obtain ⟨hexpand, hself⟩ := Table.expand_textOf table
  exact ⟨⟨hform, hvalues, hstray⟩, hexpand segments hform hvalues, hself stray hstray⟩

end InventoryQuery.Placeholder
