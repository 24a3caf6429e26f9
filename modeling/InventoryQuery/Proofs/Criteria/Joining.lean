import InventoryQuery.Proofs.Criteria.Writing
import Mathlib.Data.List.Induction
/-!
# Criteria of joined texts

Two criteria texts with a comma between them are read as the criteria of the first with those of
the second put over them.  A later value takes the place of an earlier one of the same predicate,
and flags add up.  A field whose value cannot be read takes the place of nothing, except that an
amount becomes invalid and a slot is left open again.  Texts that have no predicate in common can
therefore be joined in either order.
-/

namespace InventoryQuery

open Placeholder (noExpander)

/-- The predicate whose value a clause gives, named by a kind of field for it.  Flags have no
value. -/
def Clause.predicate? : Clause → Option FieldKey
  | .material _ => some .material
  | .damage _ => some .damage
  | .modelData _ => some .modelData
  | .amount _ => some .amount
  | .nameContains _ => some .nameContains
  | .nameStarts _ => some .nameStarts
  | .nameIs _ => some .nameIs
  | .loreContains _ => some .loreContains
  | .loreIs _ => some .loreIs
  | .materialContains _ => some .materialContains
  | .enchantments _ => some .enchantments
  | .potionKind _ => some .potionKind
  | .potionExtended _ => some .potionExtended
  | .potionUpgraded _ => some .potionUpgraded
  | .tagTexts _ => some .tagTexts
  | .tagInts _ => some .tagInts
  | .slot _ => some .slot
  | .enchanted | .mainHand | .offHand | .bothHands | .strict => none

namespace Criteria

/-! ## Clauses added to criteria -/

/-- The criteria with the values of others in place of their own, where the others have them.  The
slot is given apart, since later clauses can leave it open again. -/
def overriddenBy (c d : Criteria) (slot : Option UInt64) : Criteria where
  material := d.material.or c.material
  damage := d.damage.or c.damage
  modelData := d.modelData.or c.modelData
  amount := d.amount.or c.amount
  nameContains := d.nameContains.or c.nameContains
  nameStarts := d.nameStarts.or c.nameStarts
  nameIs := d.nameIs.or c.nameIs
  loreContains := d.loreContains.or c.loreContains
  loreIs := d.loreIs.or c.loreIs
  materialContains := d.materialContains.or c.materialContains
  enchantments := d.enchantments.or c.enchantments
  enchanted := c.enchanted || d.enchanted
  potionKind := d.potionKind.or c.potionKind
  potionExtended := d.potionExtended.or c.potionExtended
  potionUpgraded := d.potionUpgraded.or c.potionUpgraded
  tagTexts := d.tagTexts.or c.tagTexts
  tagInts := d.tagInts.or c.tagInts
  mainHand := c.mainHand || d.mainHand
  offHand := c.offHand || d.offHand
  slot := slot
  strict := c.strict || d.strict
  removes := c.removes || d.removes

theorem overriddenBy_empty (c : Criteria) : c.overriddenBy {} c.slot = c := by
  simp only [overriddenBy, Option.none_or, Bool.or_false]

theorem ofClauses_concat (clauses : List Clause) (x : Clause) :
    ofClauses (clauses ++ [x]) = (ofClauses clauses).add x :=
  List.foldl_concat ..

theorem foldl_add_eq (c : Criteria) (clauses : List Clause) :
    clauses.foldl add c = c.overriddenBy (ofClauses clauses)
      (if .slot ∈ clauses.filterMap Clause.predicate? then (ofClauses clauses).slot
        else c.slot) := by
  induction clauses using List.reverseRecOn with
  | nil => exact (overriddenBy_empty c).symm
  | append_singleton clauses x ih =>
    rw [List.foldl_concat, ih, ofClauses_concat]
    cases x <;> simp [overriddenBy, add, Clause.predicate?]

/-- The criteria have no value for a predicate. -/
def Lacks (c : Criteria) : FieldKey → Prop
  | .damage => c.damage = none
  | .modelData => c.modelData = none
  | .material => c.material = none
  -- An expression is another way to give an amount, not a predicate of its own.
  | .amountExpression => True
  | .amount => c.amount = none
  | .nameStarts => c.nameStarts = none
  | .nameContains => c.nameContains = none
  | .nameIs => c.nameIs = none
  | .loreContains => c.loreContains = none
  | .loreIs => c.loreIs = none
  | .materialContains => c.materialContains = none
  | .enchantments => c.enchantments = none
  | .potionKind => c.potionKind = none
  | .potionExtended => c.potionExtended = none
  | .potionUpgraded => c.potionUpgraded = none
  | .tagTexts => c.tagTexts = none
  | .tagInts => c.tagInts = none
  | .slot => c.slot = none

theorem lacks_empty (key : FieldKey) : ({} : Criteria).Lacks key := by
  cases key <;> trivial

theorem Lacks.add {c : Criteria} {key : FieldKey} (h : c.Lacks key) {x : Clause}
    (hx : x.predicate? ≠ some key) : (c.add x).Lacks key := by
  cases x <;> cases key <;> first | exact h | exact absurd rfl hx

theorem lacks_ofClauses {clauses : List Clause} {key : FieldKey}
    (h : key ∉ clauses.filterMap Clause.predicate?) : (ofClauses clauses).Lacks key := by
  apply ofClauses_induction (P := fun c => c.Lacks key) (lacks_empty key)
  intro c hc x hx
  exact hc.add fun hkey => h (List.mem_filterMap.2 ⟨x, hx, hkey⟩)

theorem or_comm_of_none {α : Type} {x y : Option α} (h : x = none ∨ y = none) :
    y.or x = x.or y := by
  rcases h with rfl | rfl
  · rw [Option.none_or, Option.or_none]
  · rw [Option.none_or, Option.or_none]

/-- Criteria that have no value in common can be put over each other in either order. -/
theorem overriddenBy_comm {c d : Criteria} (h : ∀ key, c.Lacks key ∨ d.Lacks key)
    (slot : Option UInt64) : c.overriddenBy d slot = d.overriddenBy c slot := by
  unfold overriddenBy
  congr 1
  · exact or_comm_of_none (h .material)
  · exact or_comm_of_none (h .damage)
  · exact or_comm_of_none (h .modelData)
  · exact or_comm_of_none (h .amount)
  · exact or_comm_of_none (h .nameContains)
  · exact or_comm_of_none (h .nameStarts)
  · exact or_comm_of_none (h .nameIs)
  · exact or_comm_of_none (h .loreContains)
  · exact or_comm_of_none (h .loreIs)
  · exact or_comm_of_none (h .materialContains)
  · exact or_comm_of_none (h .enchantments)
  · exact Bool.or_comm ..
  · exact or_comm_of_none (h .potionKind)
  · exact or_comm_of_none (h .potionExtended)
  · exact or_comm_of_none (h .potionUpgraded)
  · exact or_comm_of_none (h .tagTexts)
  · exact or_comm_of_none (h .tagInts)
  · exact Bool.or_comm ..
  · exact Bool.or_comm ..
  · exact Bool.or_comm ..
  · exact Bool.or_comm ..

theorem ofClauses_append (clauses others : List Clause) :
    ofClauses (clauses ++ others) = (ofClauses clauses).overriddenBy (ofClauses others)
      (if .slot ∈ others.filterMap Clause.predicate? then (ofClauses others).slot
        else (ofClauses clauses).slot) := by
  rw [ofClauses, List.foldl_append]
  exact foldl_add_eq (ofClauses clauses) others

theorem ofClauses_append_comm {clauses others : List Clause}
    (h : ∀ key ∈ clauses.filterMap Clause.predicate?, key ∉ others.filterMap Clause.predicate?) :
    ofClauses (clauses ++ others) = ofClauses (others ++ clauses) := by
  have hlacks (key : FieldKey) : (ofClauses clauses).Lacks key ∨ (ofClauses others).Lacks key := by
    by_cases hkey : key ∈ clauses.filterMap Clause.predicate?
    · exact .inr (lacks_ofClauses (h key hkey))
    · exact .inl (lacks_ofClauses hkey)
  rw [ofClauses_append, ofClauses_append, overriddenBy_comm hlacks]
  congr 1
  by_cases hothers : .slot ∈ others.filterMap Clause.predicate?
  · have hclauses : .slot ∉ clauses.filterMap Clause.predicate? := fun hslot => h _ hslot hothers
    rw [if_pos hothers, if_neg hclauses]
  · rw [if_neg hothers]
    by_cases hclauses : .slot ∈ clauses.filterMap Clause.predicate?
    · rw [if_pos hclauses]
    · have hslot : (ofClauses clauses).Lacks .slot := lacks_ofClauses hclauses
      have hother : (ofClauses others).Lacks .slot := lacks_ofClauses hothers
      rw [if_neg hclauses]
      exact hslot.trans hother.symm

end Criteria

/-! ## What a field asks -/

namespace Clause

theorem predicate?_of_ofValue? {value : Text} {key : FieldKey} {clause : Clause}
    (h : ofValue? id value key = some clause) : clause.predicate? = some key := by
  cases key with
  | damage =>
    obtain ⟨n, -, rfl⟩ := Option.map_eq_some_iff.1 h
    rfl
  | modelData =>
    simp only [ofValue?] at h
    split at h
    · split at h
      · obtain rfl := Option.some.inj h
        rfl
      · cases h
    · cases h
  | amountExpression => cases h
  | _ =>
    obtain rfl := Option.some.inj h
    rfl

theorem predicate?_of_word {word : Text} {clause : Clause} (h : words.lookup word = some clause) :
    clause.predicate? = none := by
  have hwords : ∀ entry ∈ words, entry.2.predicate? = none := by decide
  exact hwords _ (Text.mem_of_lookup h)

/-- Only fields of one kind ask for a slot. -/
theorem exists_predicate?_eq_slot_iff {field : Text} :
    (∃ clause, read? id field = some clause ∧ clause.predicate? = some .slot) ↔
      "inslot:".toList <+: field := by
  constructor
  · rintro ⟨clause, hread, hslot⟩
    unfold read? at hread
    split at hread
    · obtain rfl := Option.some.inj hread
      cases hslot
    · next key value _ hsplit =>
      obtain ⟨start, hmem, hfield⟩ := FieldKey.exists_start_of_split? hsplit
      have hkey : key = .slot :=
        Option.some.inj ((predicate?_of_ofValue? hread).symm.trans hslot)
      have hstart : start = "inslot:".toList := by
        have hall : ∀ entry ∈ FieldKey.table, entry.2 = .slot → entry.1 = "inslot:".toList := by
          decide
        exact hall _ hmem hkey
      rw [hfield, hstart]
      exact List.prefix_append _ value
    · rw [predicate?_of_word hread] at hslot
      cases hslot
  · rintro ⟨value, rfl⟩
    have hmem : ("inslot:".toList, FieldKey.slot) ∈ FieldKey.table := by decide
    have hread : read? id ("inslot:".toList ++ value) =
        some (.slot (Numeral.readUInt64? (Text.trim value))) :=
      read?_append hmem FieldKey.noConfusion id
    exact ⟨_, hread, rfl⟩

end Clause

namespace Criteria

/-! ## Texts one after another -/

theorem spaced_cons {c : Char} (hc : c ≠ '_') (s : Text) : spaced (c :: s) = c :: spaced s := by
  rw [spaced]
  intro rest hunderscore
  exact absurd hunderscore hc

theorem spaced_append {c : Char} (hc : c ≠ '_') (s t : Text) :
    spaced (s ++ c :: t) = spaced s ++ c :: spaced t := by
  fun_induction spaced s with
  | case1 s ih => exact congrArg (' ' :: ·) ih
  | case2 d s hd ih =>
    rw [List.cons_append, List.cons_append, ← ih, spaced]
    intro rest hunderscore hrest
    cases s with
    | nil => exact hc (List.cons.inj hrest).1
    | cons e s =>
      obtain ⟨rfl, -⟩ := List.cons.inj hrest
      exact hd s hunderscore rfl
  | case3 => exact spaced_cons hc t

theorem getLast?_spaced (s : Text) :
    (spaced s).getLast? = s.getLast? ∨ (spaced s).getLast? = some ' ' := by
  fun_induction spaced s with
  | case1 s ih =>
    rw [List.getLast?_cons, List.getLast?_cons, List.getLast?_cons]
    rcases ih with ih | ih
    · rw [ih]
      cases s.getLast? with
      | none => exact .inr rfl
      | some e => exact .inl rfl
    · rw [ih]
      exact .inr rfl
  | case2 c s _ ih =>
    rw [List.getLast?_cons, List.getLast?_cons]
    rcases ih with ih | ih
    · rw [ih]
      exact .inl rfl
    · rw [ih]
      exact .inr rfl
  | case3 => exact .inl rfl

theorem getLast?_spaced_ne {s : Text} (hs : s.getLast? ≠ some '\\') :
    (spaced s).getLast? ≠ some '\\' := by
  rcases getLast?_spaced s with h | h
  · rwa [h]
  · rw [h]
    decide

/-- The fields of a text. -/
def fields (text : Text) : List Text := Escaped.split ',' (spaced text)

/-- What the fields of a text ask, without those that cannot be read. -/
def clausesOf (text : Text) : List Clause := (fields text).filterMap (Clause.read? id)

/-- The predicates that the fields of a text address.  The two ways to give an amount address the
same one, and a slot is addressed also where its value is not a number; metadata or model data that
is not a number addresses nothing. -/
def addressed (text : Text) : List FieldKey := (clausesOf text).filterMap Clause.predicate?

/-- Some field of the text is about the slot. -/
def asksSlot (text : Text) : Bool :=
  (fields text).any fun field => "inslot:".toList.isPrefixOf field

theorem fields_append {a : Text} (ha : a.getLast? ≠ some '\\') (b : Text) :
    fields (a ++ ',' :: b) = fields a ++ fields b := by
  have hends : (spaced a).getLast? ≠ some '\\' := getLast?_spaced_ne ha
  rw [fields, spaced_append (by decide), Escaped.split_append (by decide) hends]
  rfl

theorem clausesOf_append {a : Text} (ha : a.getLast? ≠ some '\\') (b : Text) :
    clausesOf (a ++ ',' :: b) = clausesOf a ++ clausesOf b := by
  rw [clausesOf, fields_append ha, List.filterMap_append]
  rfl

theorem read_eq_ofClauses (passes : Nat) (text : Text) :
    read noExpander passes text = ofClauses (clausesOf text) :=
  read_noExpander passes text

theorem slot_mem_addressed_iff {text : Text} : .slot ∈ addressed text ↔ asksSlot text = true := by
  rw [addressed, clausesOf, List.filterMap_filterMap, List.mem_filterMap, asksSlot,
    List.any_eq_true]
  apply exists_congr
  intro field
  rw [Option.bind_eq_some_iff, Clause.exists_predicate?_eq_slot_iff, List.isPrefixOf_iff_prefix]

/-- A text behind a comma overrides the text in front of it, predicate by predicate, and texts that
address no predicate in common are read alike in either order. -/
theorem read_append_comma {a b : Text} (ha : a.getLast? ≠ some '\\') (passes : Nat) :
    read noExpander passes (a ++ ',' :: b) =
        (read noExpander passes a).overriddenBy (read noExpander passes b)
          (if asksSlot b then (read noExpander passes b).slot
            else (read noExpander passes a).slot) ∧
      (b.getLast? ≠ some '\\' → (∀ key ∈ addressed a, key ∉ addressed b) →
        read noExpander passes (a ++ ',' :: b) = read noExpander passes (b ++ ',' :: a)) := by
  simp only [read_eq_ofClauses, clausesOf_append ha, ← slot_mem_addressed_iff]
  refine ⟨ofClauses_append _ _, ?_⟩
  intro hb hdisjoint
  rw [clausesOf_append hb]
  exact ofClauses_append_comm hdisjoint

/-- The second text has a metadata value that is not a number and an amount that cannot be
computed: the metadata value of the first text stays, and the amount is invalid. -/
theorem read_append_comma_malformed :
    let a := "mat:dirt,data:3,inslot:4".toList
    let b := "data:x,amtexpr:1/0,strict".toList
    let joined : Criteria :=
      { material := some "DIRT".toList, damage := some 3, amount := some .invalid, slot := some 4,
        strict := true }
    (a.getLast? ≠ some '\\' ∧ b.getLast? ≠ some '\\' ∧
        ∀ key ∈ addressed a, key ∉ addressed b) ∧
      read noExpander 10 (a ++ ',' :: b) = joined ∧
      read noExpander 10 (b ++ ',' :: a) = joined := by
  intro a b joined
  have ha : a.getLast? ≠ some '\\' := by decide
  have hb : b.getLast? ≠ some '\\' := by decide
  have hdisjoint : ∀ key ∈ addressed a, key ∉ addressed b := by decide +kernel
  have hoverridden : (read noExpander 10 a).overriddenBy (read noExpander 10 b)
      (if asksSlot b then (read noExpander 10 b).slot else (read noExpander 10 a).slot) =
        joined := by
    decide +kernel
  obtain ⟨hread, hcomm⟩ := read_append_comma (a := a) (b := b) ha 10
  rw [hoverridden] at hread
  refine ⟨⟨ha, hb, hdisjoint⟩, hread, ?_⟩
  rw [← hcomm hb hdisjoint]
  exact hread

end Criteria

end InventoryQuery
