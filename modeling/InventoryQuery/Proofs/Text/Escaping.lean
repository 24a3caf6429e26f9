import InventoryQuery.Proofs.Text.Pieces
/-!
# Lists with an escaped separator are read as they are written

A separator inside a piece follows a backslash, so it does not divide; one between two pieces
divides unless the piece in front of it ends with a backslash.  Of pieces that do not, except for
the last one, the list is read back piece by piece.  Every text is such a list: the pieces that are
read from it are written as the text again.
-/

namespace InventoryQuery.Escaped

variable {sep : Char}

/-! ## Reading what is written -/

theorem head?_escape_ne (hsep : sep ≠ '\\') (s : Text) : (escape sep s).head? ≠ some sep := by
  cases s with
  | nil => exact (Option.some_ne_none sep).symm
  | cons c s =>
    intro h
    by_cases hc : c = sep
    · rw [escape, if_pos hc] at h
      exact hsep (Option.some.inj h).symm
    · rw [escape, if_neg hc] at h
      exact hc (Option.some.inj h)

theorem unescape_cons {c : Char} {s : Text} (h : s.head? ≠ some sep) :
    unescape sep (c :: s) = c :: unescape sep s := by
  cases s with
  | nil => rfl
  | cons d s =>
    have hd : ¬ (c = '\\' ∧ d = sep) := fun hcd => h (congrArg some hcd.2)
    rw [unescape, if_neg hd]

@[simp] theorem unescape_escape (hsep : sep ≠ '\\') (s : Text) :
    unescape sep (escape sep s) = s := by
  induction s with
  | nil => rfl
  | cons c s ih =>
    by_cases hc : c = sep
    · rw [escape, if_pos hc, unescape, if_pos ⟨rfl, rfl⟩, ih, hc]
    · rw [escape, if_neg hc, unescape_cons (head?_escape_ne hsep s), ih]

theorem pieces_cons {before : Option Char} {c : Char} {s piece : Text} {rest : List Text}
    (hc : ¬ (c = sep ∧ before ≠ some '\\')) (h : pieces sep (some c) s = piece :: rest) :
    pieces sep before (c :: s) = (c :: piece) :: rest := by
  rw [pieces, if_neg hc, h]

/-- An escaped piece stays whole: what follows it is divided as if it stood behind the last
character of the piece. -/
theorem pieces_escape_append (hsep : sep ≠ '\\') (part : Text) {before : Option Char}
    {tail piece : Text} {rest : List Text}
    (h : pieces sep (part.getLast?.or before) tail = piece :: rest) :
    pieces sep before (escape sep part ++ tail) = (escape sep part ++ piece) :: rest := by
  induction part generalizing before with
  | nil => exact h
  | cons c part ih =>
    have hrest : pieces sep (some c) (escape sep part ++ tail) =
        (escape sep part ++ piece) :: rest := by
      apply ih
      rwa [List.getLast?_cons, Option.some_or, ← Option.or_some] at h
    by_cases hc : c = sep
    · subst hc
      rw [escape, if_pos rfl]
      exact pieces_cons (fun h => hsep h.1.symm) (pieces_cons (fun h => h.2 rfl) hrest)
    · rw [escape, if_neg hc]
      exact pieces_cons (fun h => hc h.1) hrest

theorem pieces_escape (hsep : sep ≠ '\\') (before : Option Char) (part : Text) :
    pieces sep before (escape sep part) = [escape sep part] := by
  have h : pieces sep before (escape sep part ++ []) = [escape sep part ++ []] :=
    pieces_escape_append hsep part rfl
  rwa [List.append_nil] at h

theorem join_cons (sep : Char) (part : Text) {parts : List Text} (h : parts ≠ []) :
    join sep (part :: parts) = escape sep part ++ sep :: join sep parts :=
  Text.joinWith_cons sep _ (mt List.map_eq_nil_iff.1 h)

theorem pieces_join (hsep : sep ≠ '\\') {parts : List Text} (hparts : parts ≠ [])
    (hends : ∀ part ∈ parts.dropLast, part.getLast? ≠ some '\\') {before : Option Char}
    (hbefore : before ≠ some '\\') :
    pieces sep before (join sep parts) = parts.map (escape sep) := by
  induction parts generalizing before with
  | nil => exact absurd rfl hparts
  | cons part parts ih =>
    cases parts with
    | nil => exact pieces_escape hsep before part
    | cons next parts =>
      obtain ⟨hpart, hrest⟩ := List.forall_mem_cons.1 hends
      have hdivide : part.getLast?.or before ≠ some '\\' := by
        rw [ne_eq, Option.or_eq_some_iff]
        rintro (hlast | ⟨-, hlast⟩)
        · exact hpart hlast
        · exact hbefore hlast
      have htail : pieces sep (part.getLast?.or before) (sep :: join sep (next :: parts)) =
          [] :: (next :: parts).map (escape sep) := by
        rw [pieces, if_pos ⟨rfl, hdivide⟩, ih (List.cons_ne_nil _ _) hrest]
        exact fun h => hsep (Option.some.inj h)
      rw [join_cons sep part (List.cons_ne_nil _ _), pieces_escape_append hsep part htail,
        List.append_nil]
      rfl

/-- Pieces of which only the last one may end with a backslash are read as they are written. -/
theorem split_join (hsep : sep ≠ '\\') {parts : List Text} (hparts : parts ≠ [])
    (hends : ∀ part ∈ parts.dropLast, part.getLast? ≠ some '\\') :
    split sep (join sep parts) = parts := by
  have hunescape : unescape sep ∘ escape sep = id := funext (unescape_escape hsep)
  rw [split, pieces_join hsep hparts hends (Option.some_ne_none '\\').symm, List.map_map,
    hunescape, List.map_id]

/-- No piece and one empty piece are written alike, which makes no difference to a reader that
leaves out empty pieces. -/
theorem filterMap_split_join {α : Type} (hsep : sep ≠ '\\') {read : Text → Option α}
    (hread : read [] = none) {parts : List Text}
    (hends : ∀ part ∈ parts.dropLast, part.getLast? ≠ some '\\') :
    (split sep (join sep parts)).filterMap read = parts.filterMap read := by
  by_cases hparts : parts = []
  · subst hparts
    exact List.filterMap_cons_none hread
  · rw [split_join hsep hparts hends]

theorem escape_eq_self {s : Text} (h : sep ∉ s) : escape sep s = s := by
  induction s with
  | nil => rfl
  | cons c s ih =>
    obtain ⟨hc, hs⟩ := not_or.1 (mt List.mem_cons.2 h)
    rw [escape, if_neg (Ne.symm hc), ih hs]

/-- A text without separators is one piece. -/
theorem split_eq_singleton (hsep : sep ≠ '\\') {s : Text} (h : sep ∉ s) : split sep s = [s] := by
  have hjoin : split sep (join sep [s]) = [s] :=
    split_join hsep (List.cons_ne_nil s []) (List.forall_mem_nil _)
  rwa [join, List.map_singleton, Text.joinWith, escape_eq_self h] at hjoin

/-! ## Writing what is read -/

theorem pieces_ne_nil (sep : Char) (before : Option Char) (s : Text) :
    pieces sep before s ≠ [] := by
  fun_cases pieces sep before s with
  | case1 => exact List.cons_ne_nil _ _
  | case2 => exact List.cons_ne_nil _ _
  | case3 => exact List.cons_ne_nil _ _
  | case4 => exact List.cons_ne_nil _ _

theorem exists_pieces_eq_cons (sep : Char) (before : Option Char) (s : Text) :
    ∃ first rest, pieces sep before s = first :: rest :=
  List.exists_cons_of_ne_nil (pieces_ne_nil sep before s)

/-- The pieces as they are written make up the text again. -/
theorem joinWith_pieces (sep : Char) (before : Option Char) (s : Text) :
    Text.joinWith sep (pieces sep before s) = s := by
  induction s generalizing before with
  | nil => rfl
  | cons c s ih =>
    obtain ⟨first, rest, hs⟩ := exists_pieces_eq_cons sep (some c) s
    have hjoin := ih (some c)
    by_cases hc : c = sep ∧ before ≠ some '\\'
    · rw [pieces, if_pos hc, Text.joinWith_cons sep [] (pieces_ne_nil _ _ _), hjoin, hc.1]
      rfl
    · rw [pieces_cons hc hs]
      rw [hs] at hjoin
      cases rest with
      | nil => exact congrArg (c :: ·) hjoin
      | cons next rest =>
        rw [Text.joinWith_cons sep first (List.cons_ne_nil _ _)] at hjoin
        rw [Text.joinWith_cons sep (c :: first) (List.cons_ne_nil _ _), List.cons_append, hjoin]

/-- Every separator in a text directly follows a backslash; the character in front of the text is
given. -/
def Guarded (sep : Char) : Option Char → Text → Prop
  | _, [] => True
  | before, c :: s => (c = sep → before = some '\\') ∧ Guarded sep (some c) s

theorem guarded_of_pieces_eq {before : Option Char} {s first : Text} {rest : List Text}
    (h : pieces sep before s = first :: rest) :
    Guarded sep before first ∧ ∀ piece ∈ rest, Guarded sep (some sep) piece := by
  induction s generalizing before first rest with
  | nil =>
    obtain ⟨rfl, rfl⟩ := List.cons.inj h
    exact ⟨trivial, List.forall_mem_nil _⟩
  | cons c s ih =>
    obtain ⟨piece, others, hs⟩ := exists_pieces_eq_cons sep (some c) s
    obtain ⟨hpiece, hothers⟩ := ih hs
    by_cases hc : c = sep ∧ before ≠ some '\\'
    · rw [pieces, if_pos hc, hs] at h
      obtain ⟨rfl, rfl⟩ := List.cons.inj h
      exact ⟨trivial, List.forall_mem_cons.2 ⟨hc.1 ▸ hpiece, hothers⟩⟩
    · rw [pieces_cons hc hs] at h
      obtain ⟨rfl, rfl⟩ := List.cons.inj h
      exact ⟨⟨fun heq => not_not.1 fun hbefore => hc ⟨heq, hbefore⟩, hpiece⟩, hothers⟩

theorem escape_unescape (hsep : sep ≠ '\\') {before : Option Char} (hbefore : before ≠ some '\\')
    {s : Text} (h : Guarded sep before s) : escape sep (unescape sep s) = s := by
  have hstart : some sep ≠ some '\\' := fun heq => hsep (Option.some.inj heq)
  fun_induction unescape sep s generalizing before with
  | case1 => rfl
  | case2 c =>
    have hc : ¬c = sep := fun heq => hbefore (h.1 heq)
    rw [escape, if_neg hc, escape]
  | case3 c d s hcd ih =>
    obtain ⟨rfl, rfl⟩ := hcd
    obtain ⟨-, -, hs⟩ := h
    rw [escape, if_pos rfl, ih hstart hs]
  | case4 c d s hcd ih =>
    obtain ⟨hc, hd, hs⟩ := h
    have hcsep : ¬c = sep := fun heq => hbefore (hc heq)
    -- A separator here would follow a backslash, and the two would have been read as one.
    have hdsep : ¬d = sep := fun heq => hcd ⟨Option.some.inj (hd heq), heq⟩
    have hrest : escape sep (unescape sep (d :: s)) = d :: s :=
      ih hbefore ⟨fun heq => absurd heq hdsep, hs⟩
    rw [escape, if_neg hcsep, hrest]

/-- Every text lists the pieces that are read from it. -/
theorem join_split (hsep : sep ≠ '\\') (s : Text) : join sep (split sep s) = s := by
  have hstart : some sep ≠ some '\\' := fun heq => hsep (Option.some.inj heq)
  have hpieces : ∀ piece ∈ pieces sep none s, escape sep (unescape sep piece) = piece := by
    obtain ⟨first, rest, hs⟩ := exists_pieces_eq_cons sep none s
    obtain ⟨hfirst, hrest⟩ := guarded_of_pieces_eq hs
    rw [hs, List.forall_mem_cons]
    refine ⟨escape_unescape hsep (Option.some_ne_none '\\').symm hfirst, ?_⟩
    intro piece hpiece
    exact escape_unescape hsep hstart (hrest piece hpiece)
  have hwritten : (split sep s).map (escape sep) = pieces sep none s :=
    calc (split sep s).map (escape sep)
        = (pieces sep none s).map (escape sep ∘ unescape sep) := List.map_map
      _ = (pieces sep none s).map id := List.map_congr_left hpieces
      _ = pieces sep none s := List.map_id _
  rw [join, hwritten, joinWith_pieces]

theorem getLast?_or_of_pieces_eq {before : Option Char} {s first next : Text} {rest : List Text}
    (h : pieces sep before s = first :: next :: rest) :
    first.getLast?.or before ≠ some '\\' := by
  induction s generalizing before first next rest with
  | nil => cases h
  | cons c s ih =>
    by_cases hc : c = sep ∧ before ≠ some '\\'
    · rw [pieces, if_pos hc] at h
      obtain ⟨rfl, -⟩ := List.cons.inj h
      exact hc.2
    · obtain ⟨piece, others, hs⟩ := exists_pieces_eq_cons sep (some c) s
      rw [pieces_cons hc hs] at h
      obtain ⟨rfl, rfl⟩ := List.cons.inj h
      rw [List.getLast?_cons, Option.some_or, ← Option.or_some]
      exact ih hs

/-- A piece in front of a separator that divides does not end with a backslash. -/
theorem getLast?_ne_of_mem_dropLast_pieces {before : Option Char} {s piece : Text}
    (h : piece ∈ (pieces sep before s).dropLast) : piece.getLast? ≠ some '\\' := by
  induction s generalizing before piece with
  | nil => cases h
  | cons c s ih =>
    obtain ⟨first, rest, hs⟩ := exists_pieces_eq_cons sep (some c) s
    by_cases hc : c = sep ∧ before ≠ some '\\'
    · rw [pieces, if_pos hc, List.dropLast_cons_of_ne_nil (pieces_ne_nil _ _ _)] at h
      rcases List.mem_cons.1 h with rfl | h
      · exact (Option.some_ne_none '\\').symm
      · exact ih h
    · rw [pieces_cons hc hs] at h
      cases rest with
      | nil => cases h
      | cons next rest =>
        rw [List.dropLast_cons_cons] at h
        rcases List.mem_cons.1 h with rfl | h
        · have hlast := getLast?_or_of_pieces_eq hs
          rwa [List.getLast?_cons, ← Option.or_some]
        · have hmem : piece ∈ (pieces sep (some c) s).dropLast := by
            rw [hs, List.dropLast_cons_cons]
            exact List.mem_cons_of_mem _ h
          exact ih hmem

theorem getLast?_unescape (sep : Char) (s : Text) : (unescape sep s).getLast? = s.getLast? := by
  fun_induction unescape sep s with
  | case1 => rfl
  | case2 => rfl
  | case3 c d s hcd ih =>
    rw [List.getLast?_cons, ih, List.getLast?_cons_cons, List.getLast?_cons, hcd.2]
  | case4 c d s _ ih => rw [List.getLast?_cons, ih, List.getLast?_cons (a := c)]

theorem getLast?_ne_of_mem_dropLast_split {s part : Text} (h : part ∈ (split sep s).dropLast) :
    part.getLast? ≠ some '\\' := by
  rw [split, ← List.map_dropLast] at h
  obtain ⟨piece, hpiece, rfl⟩ := List.mem_map.1 h
  rw [getLast?_unescape]
  exact getLast?_ne_of_mem_dropLast_pieces hpiece

/-- Reading and writing are inverse to each other between all texts and the lists with a piece of
which only the last may end with a backslash. -/
theorem split_join_inverse (hsep : sep ≠ '\\') :
    (∀ s, join sep (split sep s) = s) ∧
      (∀ s, split sep s ≠ [] ∧ ∀ part ∈ (split sep s).dropLast, part.getLast? ≠ some '\\') ∧
      ∀ parts, parts ≠ [] → (∀ part ∈ parts.dropLast, part.getLast? ≠ some '\\') →
        split sep (join sep parts) = parts := by
  refine ⟨join_split hsep, fun s => ⟨?_, ?_⟩, ?_⟩
  · exact mt List.map_eq_nil_iff.1 (pieces_ne_nil sep none s)
  · intro part hpart
    exact getLast?_ne_of_mem_dropLast_split hpart
  · intro parts hparts hends
    exact split_join hsep hparts hends

/-- Separators behind backslashes, empty pieces and backslashes at both ends. -/
theorem split_join_inverse_commas :
    let s : Text := "\\,a\\\\,,,b\\".toList
    let parts : List Text := [",a\\,".toList, [], "\\,\\".toList]
    (',' ≠ '\\' ∧ parts ≠ [] ∧ ∀ part ∈ parts.dropLast, part.getLast? ≠ some '\\') ∧
      join ',' (split ',' s) = s ∧ split ',' (join ',' parts) = parts := by
  intro s parts
  have hsep : ',' ≠ '\\' := by decide
  have hparts : parts ≠ [] := List.cons_ne_nil _ _
  have hends : ∀ part ∈ parts.dropLast, part.getLast? ≠ some '\\' := by decide
  obtain ⟨hjoin, -, hsplit⟩ := split_join_inverse hsep
  exact ⟨⟨hsep, hparts, hends⟩, hjoin s, hsplit parts hparts hends⟩

/-! ## Lists one after another -/

theorem pieces_append {before : Option Char} {s : Text} (hs : s.getLast?.or before ≠ some '\\')
    (t : Text) :
    pieces sep before (s ++ sep :: t) = pieces sep before s ++ pieces sep (some sep) t := by
  induction s generalizing before with
  | nil => exact if_pos ⟨rfl, hs⟩
  | cons c s ih =>
    have hrest : pieces sep (some c) (s ++ sep :: t) =
        pieces sep (some c) s ++ pieces sep (some sep) t := by
      apply ih
      rwa [List.getLast?_cons, Option.some_or, ← Option.or_some] at hs
    by_cases hc : c = sep ∧ before ≠ some '\\'
    · rw [List.cons_append, pieces, if_pos hc, hrest, pieces, if_pos hc, List.cons_append]
    · obtain ⟨first, others, hfirst⟩ := exists_pieces_eq_cons sep (some c) s
      rw [hfirst] at hrest
      rw [List.cons_append, pieces_cons hc hrest, pieces_cons hc hfirst]
      rfl

/-- Of the character in front of a text it only matters whether it is a backslash. -/
theorem pieces_congr {before other : Option Char} (hbefore : before ≠ some '\\')
    (hother : other ≠ some '\\') (s : Text) : pieces sep before s = pieces sep other s := by
  cases s with
  | nil => rfl
  | cons c s =>
    by_cases hc : c = sep
    · rw [pieces, if_pos ⟨hc, hbefore⟩, pieces, if_pos ⟨hc, hother⟩]
    · rw [pieces, if_neg fun h => hc h.1, pieces, if_neg fun h => hc h.1]

/-- A separator behind a text that does not end with a backslash divides it from what follows. -/
theorem split_append (hsep : sep ≠ '\\') {s : Text} (hs : s.getLast? ≠ some '\\') (t : Text) :
    split sep (s ++ sep :: t) = split sep s ++ split sep t := by
  have hbefore : s.getLast?.or none ≠ some '\\' := by rwa [Option.or_none]
  have hstart : some sep ≠ some '\\' := fun heq => hsep (Option.some.inj heq)
  rw [split, pieces_append hbefore, pieces_congr hstart (Option.some_ne_none '\\').symm,
    List.map_append]
  rfl

end InventoryQuery.Escaped
