import InventoryQuery.Json.Writer
import InventoryQuery.Proofs.Json.Spelling
import InventoryQuery.Proofs.Text.Numeral
/-!
# Documents that are written are read back

The reader undoes the writer on every document whose numbers and strings are spelled the way this
library spells them, at every indentation, and in front of anything that cannot go on with a number.
-/

namespace InventoryQuery.Json

open Text (outcome? outcome?_eq_some_iff afterChar?_cons afterChar?_eq_none takeWhile_append)

/-- Numbers, strings and keys are spelled the way this library spells them. -/
inductive Canonical : Json → Prop
  | null : Canonical .null
  | bool (b : Bool) : Canonical (.bool b)
  | number (n : Int) : Canonical (.number (Numeral.integer n))
  | string (s : Text) : Canonical (.string (spell s))
  | array (items : List Json) (hitems : ∀ item ∈ items, Canonical item) : Canonical (.array items)
  | object (members : List (Text × Json)) (hkeys : ∀ member ∈ members, ∃ s, member.1 = spell s)
      (hvalues : ∀ member ∈ members, Canonical member.2) : Canonical (.object members)

/-! ## Numbers -/

/-- The text does not start with what could belong to a number in front of it. -/
def EndsNumber (rest : Text) : Prop :=
  ∀ c ∈ rest.head?, c.isDigit = false ∧ c ≠ '.' ∧ c ≠ 'e' ∧ c ≠ 'E'

theorem wholePart_digits (n : Nat) {rest : Text} (hrest : EndsNumber rest) :
    wholePart (Numeral.digits n ++ rest) = Numeral.digits n := by
  have hrun : digitRun (Numeral.digits n ++ rest) = Numeral.digits n :=
    takeWhile_append (fun c hc => Numeral.isDigit_of_mem_digits hc) fun c hc => (hrest c hc).1
  unfold wholePart
  split
  · next s heq =>
    rcases Nat.eq_zero_or_pos n with rfl | hpos
    · rfl
    · have hhead := Numeral.head?_digits_ne_zero (Nat.ne_of_gt hpos)
      cases hdigits : Numeral.digits n with
      | nil => exact absurd hdigits (Numeral.digits_ne_nil n)
      | cons c s' =>
        rw [hdigits, List.cons_append] at heq
        rw [hdigits, (List.cons.inj heq).1] at hhead
        exact absurd rfl hhead
  · exact hrun

theorem fractionPart_eq_nil {rest : Text} (hrest : EndsNumber rest) : fractionPart rest = [] := by
  unfold fractionPart
  split
  · next r => exact absurd rfl (hrest '.' rfl).2.1
  · rfl

theorem exponentPart_eq_nil {rest : Text} (hrest : EndsNumber rest) : exponentPart rest = [] := by
  unfold exponentPart
  split
  · next e r =>
    obtain ⟨-, -, hlower, hupper⟩ := hrest e rfl
    rw [if_neg (not_or.2 ⟨hlower, hupper⟩)]
  · rfl

theorem unsignedPart_digits (n : Nat) {rest : Text} (hrest : EndsNumber rest) :
    unsignedPart (Numeral.digits n ++ rest) = Numeral.digits n := by
  unfold unsignedPart
  simp only [wholePart_digits n hrest, if_neg (Numeral.digits_ne_nil n), List.drop_left,
    fractionPart_eq_nil hrest, List.append_nil, List.length_nil, Nat.add_zero,
    exponentPart_eq_nil hrest]

theorem exists_digits_eq_cons (n : Nat) :
    ∃ c s, Numeral.digits n = c :: s ∧ c.isDigit = true := by
  obtain ⟨c, s, hdigits⟩ := List.exists_cons_of_ne_nil (Numeral.digits_ne_nil n)
  exact ⟨c, s, hdigits, Numeral.isDigit_of_mem_digits (hdigits ▸ List.mem_cons_self)⟩

/-- How the text of an integer starts. -/
theorem exists_integer_eq_cons (n : Int) :
    ∃ c s, Numeral.integer n = c :: s ∧ (c = '-' ∨ c.isDigit = true) := by
  cases n with
  | ofNat n =>
    obtain ⟨c, s, hdigits, hc⟩ := exists_digits_eq_cons n
    exact ⟨c, s, hdigits, .inr hc⟩
  | negSucc n => exact ⟨'-', _, rfl, .inl rfl⟩

theorem numberPart_integer (n : Int) {rest : Text} (hrest : EndsNumber rest) :
    numberPart (Numeral.integer n ++ rest) = Numeral.integer n := by
  cases n with
  | ofNat n =>
    obtain ⟨c, s, hdigits, hc⟩ := exists_digits_eq_cons n
    have hunsigned := unsignedPart_digits n hrest
    have hminus : c ≠ '-' := by
      rintro rfl
      cases hc
    rw [Numeral.integer, hdigits, List.cons_append] at *
    rw [numberPart]
    · exact hunsigned
    · exact fun _ h => hminus (List.cons.inj h).1
  | negSucc n =>
    have hunsigned := unsignedPart_digits (n + 1) hrest
    rw [Numeral.integer, List.cons_append, numberPart, hunsigned,
      if_neg (Numeral.digits_ne_nil (n + 1))]

theorem readNumber?_integer (n : Int) {rest : Text} (hrest : EndsNumber rest) :
    outcome? (readNumber? (Numeral.integer n ++ rest)) =
      some (.number (Numeral.integer n), rest) := by
  have hpart := numberPart_integer n hrest
  obtain ⟨c, s, hinteger, -⟩ := exists_integer_eq_cons n
  have hlength : 0 < (Numeral.integer n).length := by
    rw [hinteger, List.length_cons]
    omega
  unfold readNumber?
  rw [dif_pos ⟨hpart.symm ▸ hlength, by rw [List.length_append]; omega⟩]
  simp only [outcome?, Option.map_some, hpart, List.drop_left]

theorem readScalar?_integer (n : Int) {rest : Text} (hrest : EndsNumber rest) :
    outcome? (readScalar? (Numeral.integer n ++ rest)) =
      some (.number (Numeral.integer n), rest) := by
  have hnumber := readNumber?_integer n hrest
  obtain ⟨c, s, hinteger, hc⟩ := exists_integer_eq_cons n
  have hletter : ∀ d : Char, d ≠ '-' → d.isDigit = false → c ≠ d := by
    rintro d hminus hdigit rfl
    rcases hc with rfl | hc
    · exact hminus rfl
    · exact Bool.false_ne_true (hdigit.symm.trans hc)
  rw [hinteger, List.cons_append] at hnumber ⊢
  rw [readScalar?]
  · exact hnumber
  · exact fun _ h => hletter 'n' (by decide) (by decide) (List.cons.inj h).1
  · exact fun _ h => hletter 't' (by decide) (by decide) (List.cons.inj h).1
  · exact fun _ h => hletter 'f' (by decide) (by decide) (List.cons.inj h).1

/-! ## Marks and keys -/

theorem skipSpace_eq {s t : Text} (h : s.dropWhile isSpace = t) :
    ∃ hle, skipSpace s = ⟨t, hle⟩ := by
  subst h
  exact ⟨_, rfl⟩

theorem mark?_eq_some {mark : Char} {s rest : Text} (h : s.dropWhile isSpace = mark :: rest) :
    ∃ hlt, mark? mark s = some ⟨rest, hlt⟩ := by
  obtain ⟨hle, hskip⟩ := skipSpace_eq h
  refine ⟨by rw [List.length_cons] at hle; omega, ?_⟩
  rw [mark?, hskip]
  simp only [afterChar?_cons, Option.map_some]

theorem mark?_eq_none {mark c : Char} {s rest : Text} (h : s.dropWhile isSpace = c :: rest)
    (hc : c ≠ mark) : mark? mark s = none := by
  obtain ⟨_, hskip⟩ := skipSpace_eq h
  have hafter : Text.afterChar? mark (c :: rest) = none :=
    afterChar?_eq_none fun d hd => Option.some.inj hd ▸ hc
  rw [mark?, hskip]
  simp only [hafter, Option.map_none]

theorem mark?_cons {mark : Char} (hmark : isSpace mark = false) (s : Text) :
    ∃ hlt, mark? mark (mark :: s) = some ⟨s, hlt⟩ :=
  mark?_eq_some (List.dropWhile_cons_of_neg (Bool.eq_false_iff.1 hmark))

/-- A key, its colon and the blank behind it. -/
theorem readKey?_quoted (key : Text) {s rest : Text}
    (h : s.dropWhile isSpace = quoted (spell key) ++ ": ".toList ++ rest) :
    outcome? (readKey? s) = some (spell key, ' ' :: rest) := by
  rw [quoted, List.cons_append, List.cons_append, List.append_assoc, List.append_assoc] at h
  obtain ⟨_, hquote⟩ := mark?_eq_some h
  obtain ⟨_, hspelling⟩ :=
    outcome?_eq_some_iff.1 (readSpelling?_spell key (": ".toList ++ rest))
  unfold readKey?
  rw [hquote]
  simp only [List.singleton_append, hspelling]
  rfl

/-! ## Values -/

section

variable {s r rest : Text}

theorem readValue?_string {x : Text} (h : s.dropWhile isSpace = '"' :: r)
    (hx : outcome? (readSpelling? r) = some (x, rest)) :
    outcome? (readValue? s) = some (.string x, rest) := by
  obtain ⟨_, hskip⟩ := skipSpace_eq h
  obtain ⟨_, hx⟩ := outcome?_eq_some_iff.1 hx
  rw [readValue?, hskip]
  simp only [if_true, hx]
  rfl

theorem readValue?_array_nil (h : s.dropWhile isSpace = '[' :: ']' :: rest) :
    outcome? (readValue? s) = some (.array [], rest) := by
  obtain ⟨_, hskip⟩ := skipSpace_eq h
  obtain ⟨_, hclose⟩ := @mark?_cons ']' rfl rest
  rw [readValue?, hskip]
  simp only [Char.reduceEq, if_true, if_false, hclose]
  rfl

theorem readValue?_array {items : List Json} (h : s.dropWhile isSpace = '[' :: r)
    (hopen : mark? ']' r = none) (hitems : outcome? (readItems? r) = some (items, rest)) :
    outcome? (readValue? s) = some (.array items, rest) := by
  obtain ⟨_, hskip⟩ := skipSpace_eq h
  obtain ⟨_, hitems⟩ := outcome?_eq_some_iff.1 hitems
  rw [readValue?, hskip]
  simp only [Char.reduceEq, if_true, if_false, hopen, hitems]
  rfl

theorem readValue?_object_nil (h : s.dropWhile isSpace = '\x7b' :: '\x7d' :: rest) :
    outcome? (readValue? s) = some (.object [], rest) := by
  obtain ⟨_, hskip⟩ := skipSpace_eq h
  obtain ⟨_, hclose⟩ := @mark?_cons '\x7d' rfl rest
  rw [readValue?, hskip]
  simp only [Char.reduceEq, if_true, if_false, hclose]
  rfl

theorem readValue?_object {members : List (Text × Json)} (h : s.dropWhile isSpace = '\x7b' :: r)
    (hopen : mark? '\x7d' r = none)
    (hmembers : outcome? (readMembers? r) = some (members, rest)) :
    outcome? (readValue? s) = some (.object members, rest) := by
  obtain ⟨_, hskip⟩ := skipSpace_eq h
  obtain ⟨_, hmembers⟩ := outcome?_eq_some_iff.1 hmembers
  rw [readValue?, hskip]
  simp only [Char.reduceEq, if_true, if_false, hopen, hmembers]
  rfl

theorem readValue?_scalar {c : Char} {j : Json} (h : s.dropWhile isSpace = c :: r)
    (hc : c ≠ '"' ∧ c ≠ '[' ∧ c ≠ '\x7b') (hj : outcome? (readScalar? (c :: r)) = some (j, rest)) :
    outcome? (readValue? s) = some (j, rest) := by
  obtain ⟨_, hskip⟩ := skipSpace_eq h
  obtain ⟨_, hj⟩ := outcome?_eq_some_iff.1 hj
  rw [readValue?, hskip]
  simp only [hc.1, hc.2.1, hc.2.2, if_false, hj]
  rfl

end

/-- Read at the start of a text, also behind blanks, the written document comes out again. -/
def ReadsBack (j : Json) : Prop :=
  ∀ indent s rest, s.dropWhile isSpace = write indent j ++ rest → EndsNumber rest →
    outcome? (readValue? s) = some (j, rest)

theorem readsBack_null : ReadsBack .null := by
  intro indent s rest hs hrest
  exact readValue?_scalar hs (by decide) rfl

theorem readsBack_bool (b : Bool) : ReadsBack (.bool b) := by
  intro indent s rest hs hrest
  cases b with
  | false => exact readValue?_scalar hs (by decide) rfl
  | true => exact readValue?_scalar hs (by decide) rfl

theorem readsBack_number (n : Int) : ReadsBack (.number (Numeral.integer n)) := by
  intro indent s rest hs hrest
  have hscalar := readScalar?_integer n hrest
  obtain ⟨c, t, hinteger, hc⟩ := exists_integer_eq_cons n
  rw [write, hinteger, List.cons_append] at hs
  rw [hinteger, List.cons_append] at hscalar
  rw [hinteger]
  refine readValue?_scalar hs ?_ hscalar
  rcases hc with rfl | hc
  · decide
  · refine ⟨?_, ?_, ?_⟩
    all_goals
      rintro rfl
      cases hc

theorem readsBack_string (x : Text) : ReadsBack (.string (spell x)) := by
  intro indent s rest hs hrest
  rw [write, quoted, List.cons_append, List.append_assoc] at hs
  exact readValue?_string hs (readSpelling?_spell x rest)

/-! ## Arrays and objects -/

theorem isSpace_of_isDigit {c : Char} (h : c.isDigit = true) : isSpace c = false := by
  simp only [isSpace, Bool.or_eq_false_iff, beq_eq_false_iff_ne]
  refine ⟨⟨⟨?_, ?_⟩, ?_⟩, ?_⟩
  all_goals
    rintro rfl
    cases h

theorem endsNumber_cons {c : Char} (rest : Text)
    (hc : c.isDigit = false ∧ c ≠ '.' ∧ c ≠ 'e' ∧ c ≠ 'E') : EndsNumber (c :: rest) :=
  fun _ hd => Option.some.inj hd ▸ hc

@[simp] theorem dropWhile_newline (indent : Nat) (s : Text) :
    (newline indent ++ s).dropWhile isSpace = s.dropWhile isSpace := by
  have hblank : ∀ c ∈ newline indent, isSpace c = true := by
    intro c hc
    rcases List.mem_cons.1 hc with rfl | hc
    · rfl
    · rw [List.eq_of_mem_replicate hc]
      rfl
  rw [List.dropWhile_append_of_pos hblank]

theorem dropWhile_newline_cons (indent : Nat) {c : Char} (hc : isSpace c = false) (s : Text) :
    (newline indent ++ c :: s).dropWhile isSpace = c :: s := by
  rw [dropWhile_newline, List.dropWhile_cons_of_neg (Bool.eq_false_iff.1 hc)]

/-- How the text of a document starts. -/
theorem Canonical.exists_write_eq_cons {j : Json} (h : j.Canonical) (indent : Nat) :
    ∃ c s, write indent j = c :: s ∧ isSpace c = false ∧ c ≠ ']' := by
  cases h with
  | null => exact ⟨'n', _, rfl, rfl, by decide⟩
  | bool b => cases b with
    | false => exact ⟨'f', _, rfl, rfl, by decide⟩
    | true => exact ⟨'t', _, rfl, rfl, by decide⟩
  | number n =>
    obtain ⟨c, s, hinteger, hc⟩ := exists_integer_eq_cons n
    refine ⟨c, s, hinteger, ?_⟩
    rcases hc with rfl | hc
    · decide
    · exact ⟨isSpace_of_isDigit hc, fun h => by rw [h] at hc; cases hc⟩
  | string s => exact ⟨'"', _, rfl, rfl, by decide⟩
  | array items _ => cases items with
    | nil => exact ⟨'[', _, rfl, rfl, by decide⟩
    | cons item items => exact ⟨'[', _, by rw [write], rfl, by decide⟩
  | object members _ _ => cases members with
    | nil => exact ⟨'\x7b', _, rfl, rfl, by decide⟩
    | cons member members => exact ⟨'\x7b', _, by rw [write], rfl, by decide⟩

theorem dropWhile_write {j : Json} (h : j.Canonical) (indent : Nat) (rest : Text) :
    (write indent j ++ rest).dropWhile isSpace = write indent j ++ rest := by
  obtain ⟨c, s, hwrite, hspace, -⟩ := h.exists_write_eq_cons indent
  rw [hwrite, List.cons_append, List.dropWhile_cons_of_neg (Bool.eq_false_iff.1 hspace)]

theorem mark?_newline_write {j : Json} (h : j.Canonical) (indent : Nat) (rest : Text) :
    mark? ']' (newline indent ++ (write indent j ++ rest)) = none := by
  obtain ⟨c, s, hwrite, hspace, hc⟩ := h.exists_write_eq_cons indent
  rw [hwrite, List.cons_append]
  exact mark?_eq_none (dropWhile_newline_cons indent hspace _) hc

theorem endsNumber_newline (indent : Nat) (rest : Text) : EndsNumber (newline indent ++ rest) :=
  endsNumber_cons _ (by decide)

section

variable {s r t rest : Text}

theorem readItems?_last {item : Json} (hitem : outcome? (readValue? s) = some (item, r))
    (hclose : r.dropWhile isSpace = ']' :: rest) :
    outcome? (readItems? s) = some ([item], rest) := by
  obtain ⟨_, hitem⟩ := outcome?_eq_some_iff.1 hitem
  obtain ⟨_, hclose⟩ := mark?_eq_some hclose
  rw [readItems?, hitem]
  simp only [hclose]
  rfl

theorem readItems?_cons {item : Json} {items : List Json}
    (hitem : outcome? (readValue? s) = some (item, r)) (hcomma : r.dropWhile isSpace = ',' :: t)
    (hitems : outcome? (readItems? t) = some (items, rest)) :
    outcome? (readItems? s) = some (item :: items, rest) := by
  obtain ⟨_, hitem⟩ := outcome?_eq_some_iff.1 hitem
  obtain ⟨_, hitems⟩ := outcome?_eq_some_iff.1 hitems
  have hclose : mark? ']' r = none := mark?_eq_none hcomma (by decide)
  obtain ⟨_, hcomma⟩ := mark?_eq_some hcomma
  rw [readItems?, hitem]
  simp only [hclose, hcomma, hitems]
  rfl

theorem readMembers?_last {key : Text} {value : Json}
    (hkey : outcome? (readKey? s) = some (key, r))
    (hvalue : outcome? (readValue? r) = some (value, t))
    (hclose : t.dropWhile isSpace = '\x7d' :: rest) :
    outcome? (readMembers? s) = some ([(key, value)], rest) := by
  obtain ⟨_, hkey⟩ := outcome?_eq_some_iff.1 hkey
  obtain ⟨_, hvalue⟩ := outcome?_eq_some_iff.1 hvalue
  obtain ⟨_, hclose⟩ := mark?_eq_some hclose
  rw [readMembers?, hkey]
  simp only [hvalue, hclose]
  rfl

theorem readMembers?_cons {key u : Text} {value : Json} {members : List (Text × Json)}
    (hkey : outcome? (readKey? s) = some (key, r))
    (hvalue : outcome? (readValue? r) = some (value, t))
    (hcomma : t.dropWhile isSpace = ',' :: u)
    (hmembers : outcome? (readMembers? u) = some (members, rest)) :
    outcome? (readMembers? s) = some ((key, value) :: members, rest) := by
  obtain ⟨_, hkey⟩ := outcome?_eq_some_iff.1 hkey
  obtain ⟨_, hvalue⟩ := outcome?_eq_some_iff.1 hvalue
  obtain ⟨_, hmembers⟩ := outcome?_eq_some_iff.1 hmembers
  have hclose : mark? '\x7d' t = none := mark?_eq_none hcomma (by decide)
  obtain ⟨_, hcomma⟩ := mark?_eq_some hcomma
  rw [readMembers?, hkey]
  simp only [hvalue, hclose, hcomma, hmembers]
  rfl

end

section

variable {indent outer : Nat} {s rest : Text}

theorem readItems?_write {items : List Json} (hitems : ∀ j ∈ items, Canonical j ∧ ReadsBack j)
    {item : Json} (hitem : ReadsBack item)
    (hs : s.dropWhile isSpace =
      write indent item ++ (writeItems indent items ++ (newline outer ++ ']' :: rest))) :
    outcome? (readItems? s) = some (item :: items, rest) := by
  induction items generalizing item s with
  | nil =>
    rw [writeItems, List.nil_append] at hs
    exact readItems?_last (hitem _ _ _ hs (endsNumber_newline _ _))
      (dropWhile_newline_cons outer rfl rest)
  | cons next items ih =>
    obtain ⟨⟨hcanonical, hnext⟩, hitems⟩ := List.forall_mem_cons.1 hitems
    simp only [writeItems, List.cons_append, List.append_assoc] at hs
    refine readItems?_cons (hitem _ _ _ hs (endsNumber_cons _ (by decide))) rfl ?_
    apply ih hitems hnext
    rw [dropWhile_newline, dropWhile_write hcanonical]

theorem readMembers?_write {members : List (Text × Json)}
    (hkeys : ∀ member ∈ members, ∃ x, member.1 = spell x)
    (hvalues : ∀ member ∈ members, Canonical member.2 ∧ ReadsBack member.2)
    {key : Text} {value : Json} (hcanonical : value.Canonical) (hvalue : ReadsBack value)
    (hs : s.dropWhile isSpace = quoted (spell key) ++ (": ".toList ++ (write indent value ++
      (writeMembers indent members ++ (newline outer ++ '\x7d' :: rest))))) :
    outcome? (readMembers? s) = some ((spell key, value) :: members, rest) := by
  induction members generalizing key value s with
  | nil =>
    rw [writeMembers, List.nil_append, ← List.append_assoc] at hs
    have hblank := dropWhile_write hcanonical indent (newline outer ++ '\x7d' :: rest)
    exact readMembers?_last (readKey?_quoted key hs)
      (hvalue _ (' ' :: _) _ hblank (endsNumber_newline _ _))
      (dropWhile_newline_cons outer rfl rest)
  | cons next members ih =>
    obtain ⟨nextKey, next⟩ := next
    obtain ⟨⟨hnextCanonical, hnext⟩, hmoreValues⟩ := List.forall_mem_cons.1 hvalues
    obtain ⟨⟨x, rfl⟩, hmoreKeys⟩ := List.forall_mem_cons.1 hkeys
    simp only [writeMembers, List.cons_append, List.append_assoc] at hs
    rw [← List.append_assoc] at hs
    have hblank := dropWhile_write hcanonical indent (',' :: (newline indent ++ (quoted (spell x) ++
      (": ".toList ++ (write indent next ++
        (writeMembers indent members ++ (newline outer ++ '\x7d' :: rest)))))))
    refine readMembers?_cons (readKey?_quoted key hs)
      (hvalue _ (' ' :: _) _ hblank (endsNumber_cons _ (by decide))) rfl ?_
    apply ih hmoreKeys hmoreValues hnextCanonical hnext
    rw [dropWhile_newline]
    rfl

end

theorem readsBack_array {items : List Json} (hitems : ∀ j ∈ items, Canonical j ∧ ReadsBack j) :
    ReadsBack (.array items) := by
  intro indent s rest hs _
  cases items with
  | nil => exact readValue?_array_nil hs
  | cons item items =>
    obtain ⟨⟨hcanonical, hitem⟩, hitems⟩ := List.forall_mem_cons.1 hitems
    simp only [write, List.cons_append, List.append_assoc, List.nil_append] at hs
    refine readValue?_array hs (mark?_newline_write hcanonical _ _) ?_
    apply readItems?_write hitems hitem
    rw [dropWhile_newline, dropWhile_write hcanonical]

theorem readsBack_object {members : List (Text × Json)}
    (hkeys : ∀ member ∈ members, ∃ x, member.1 = spell x)
    (hvalues : ∀ member ∈ members, Canonical member.2 ∧ ReadsBack member.2) :
    ReadsBack (.object members) := by
  intro indent s rest hs _
  cases members with
  | nil => exact readValue?_object_nil hs
  | cons member members =>
    obtain ⟨key, value⟩ := member
    obtain ⟨⟨hcanonical, hvalue⟩, hmoreValues⟩ := List.forall_mem_cons.1 hvalues
    obtain ⟨⟨x, rfl⟩, hmoreKeys⟩ := List.forall_mem_cons.1 hkeys
    simp only [write, List.cons_append, List.append_assoc, List.nil_append] at hs
    refine readValue?_object hs (mark?_eq_none (dropWhile_newline_cons _ rfl _) (by decide)) ?_
    apply readMembers?_write hmoreKeys hmoreValues hcanonical hvalue
    rw [dropWhile_newline]
    rfl

theorem Canonical.readsBack {j : Json} (h : j.Canonical) : ReadsBack j := by
  induction h with
  | null => exact readsBack_null
  | bool b => exact readsBack_bool b
  | number n => exact readsBack_number n
  | string s => exact readsBack_string s
  | array items hitems ih => exact readsBack_array fun j hj => ⟨hitems j hj, ih j hj⟩
  | object members hkeys hvalues ih =>
    exact readsBack_object hkeys fun member hmember =>
      ⟨hvalues member hmember, ih member hmember⟩

/-- A document is read from its own text. -/
theorem Canonical.read?_pretty {j : Json} (h : j.Canonical) : read? j.pretty = some j := by
  have hstart : j.pretty.dropWhile isSpace = j.pretty := by
    have hwrite := dropWhile_write h 0 []
    rwa [List.append_nil] at hwrite
  have hread := h.readsBack 0 j.pretty [] (by rw [hstart, pretty, List.append_nil])
    fun _ hd => absurd hd (by simp)
  obtain ⟨_, hread⟩ := outcome?_eq_some_iff.1 hread
  rw [read?, hread]
  rfl

end InventoryQuery.Json
