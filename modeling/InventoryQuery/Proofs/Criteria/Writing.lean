import InventoryQuery.Criteria.Reader
import InventoryQuery.Proofs.Criteria.Listing
import InventoryQuery.Proofs.Criteria.PlainReading
import InventoryQuery.Proofs.Dict
import InventoryQuery.Proofs.Text.Escaping
import InventoryQuery.Proofs.Text.Numeral
/-!
# Criteria are read as they are written

A clause is written as a field: a flag as its word, anything else as the start of its kind of field
and a value.  A value that is a map lists its entries, with semicolons in them escaped; a criteria
text lists its fields, with commas in them escaped.  What can be expressed in this way is read back
from the text.
-/

namespace InventoryQuery

namespace FieldKey

/-- No field starts in two ways. -/
theorem pairwise_table :
    table.Pairwise fun entry other => ¬ entry.1 <+: other.1 ∧ ¬ other.1 <+: entry.1 := by
  decide +kernel

theorem findSome?_append {starts : List (Text × FieldKey)}
    (hstarts : starts.Pairwise fun entry other => ¬ entry.1 <+: other.1 ∧ ¬ other.1 <+: entry.1)
    {start : Text} {key : FieldKey} (h : (start, key) ∈ starts) (value : Text) :
    starts.findSome? (fun entry => (Text.after? entry.1 (start ++ value)).map
      fun value => (entry.2, value)) = some (key, value) := by
  induction starts with
  | nil => cases h
  | cons entry starts ih =>
    obtain ⟨hentry, hrest⟩ := List.pairwise_cons.1 hstarts
    rcases List.mem_cons.1 h with rfl | h
    · rw [List.findSome?_cons, Text.after?_append]
      rfl
    · have hnone : Text.after? entry.1 (start ++ value) = none := by
        rw [Option.eq_none_iff_forall_ne_some]
        intro rest hrest
        have hprefix : entry.1 <+: start ++ value := ⟨rest, (Text.after?_eq_some_iff.1 hrest).symm⟩
        rcases List.prefix_or_prefix_of_prefix hprefix (List.prefix_append start value) with h' | h'
        · exact (hentry _ h).1 h'
        · exact (hentry _ h).2 h'
      rw [List.findSome?_cons, hnone]
      exact ih hrest h

theorem split?_append {start : Text} {key : FieldKey} (h : (start, key) ∈ table) (value : Text) :
    split? (start ++ value) = some (key, value) :=
  findSome?_append pairwise_table h value

end FieldKey

namespace Clause

theorem split?_word {word : Text} {clause : Clause} (h : (word, clause) ∈ words) :
    FieldKey.split? word = none ∧ words.lookup word = some clause := by
  have hwords : ∀ entry ∈ words,
      FieldKey.split? entry.1 = none ∧ words.lookup entry.1 = some entry.2 := by decide +kernel
  exact hwords _ h

/-- An enchantment as it is written, with the level that is asked of it, if there is one. -/
def writeLevel : Text × Level → Text
  | (key, .any) => key
  | (key, .exact n) => key ++ '=' :: Numeral.digits n.toNat

/-- A path as it is written, with what must stand there. -/
def writePair {α : Type} (write : α → Text) (entry : Text × α) : Text :=
  entry.1 ++ '=' :: write entry.2

def writeBool : Bool → Text
  | true => "true".toList
  | false => "false".toList

/-- A value lists the entries of a map in some order, each as one segment.  Only the last segment
may end with a backslash. -/
def Lists {α : Type} (write : Text × α → Text) (m : Dict α) (value : Text) : Prop :=
  ∃ entries : List (Text × α), entries.Perm m.entries ∧
    value = Escaped.join ';' (entries.map write) ∧
    ∀ segment ∈ (entries.map write).dropLast, segment.getLast? ≠ some '\\'

/-- The kind of field that a clause is written as, and its value. -/
inductive HasValue : Clause → FieldKey → Text → Prop
  | material (s : Text) : HasValue (.material s) .material s
  | damage (n : Int32) : HasValue (.damage n) .damage (Numeral.integer n.toInt)
  | modelData (n : Int32) : HasValue (.modelData n) .modelData (Numeral.integer n.toInt)
  | amount (n : UInt32) : HasValue (.amount (.exact n)) .amount (Numeral.digits n.toNat)
  | invalidAmount : HasValue (.amount .invalid) .amount []
  | nameContains (s : Text) : HasValue (.nameContains s) .nameContains s
  | nameStarts (s : Text) : HasValue (.nameStarts s) .nameStarts s
  | nameIs (s : Text) : HasValue (.nameIs s) .nameIs s
  | loreContains (s : Text) : HasValue (.loreContains s) .loreContains s
  | loreIs (s : Text) : HasValue (.loreIs s) .loreIs s
  | materialContains (s : Text) : HasValue (.materialContains s) .materialContains s
  | enchantments {levels : Dict Level} {value : Text} (h : Lists writeLevel levels value) :
      HasValue (.enchantments levels) .enchantments value
  | potionKind (s : Text) : HasValue (.potionKind s) .potionKind s
  | potionExtended (b : Bool) : HasValue (.potionExtended b) .potionExtended (writeBool b)
  | potionUpgraded (b : Bool) : HasValue (.potionUpgraded b) .potionUpgraded (writeBool b)
  | tagTexts {texts : Dict Text} {value : Text} (h : Lists (writePair id) texts value) :
      HasValue (.tagTexts texts) .tagTexts value
  | tagInts {ints : Dict Int32} {value : Text}
      (h : Lists (writePair fun n => Numeral.integer n.toInt) ints value) :
      HasValue (.tagInts ints) .tagInts value
  | slot (n : UInt64) : HasValue (.slot (some n)) .slot (Numeral.digits n.toNat)

/-- The field that a clause is written as. -/
inductive IsWrittenAs : Clause → Text → Prop
  | word {word : Text} {clause : Clause} (h : (word, clause) ∈ words) : IsWrittenAs clause word
  | field {start value : Text} {key : FieldKey} {clause : Clause}
      (hstart : (start, key) ∈ FieldKey.table) (hvalue : HasValue clause key value) :
      IsWrittenAs clause (start ++ value)

/-- Fields can express a clause: what is asked for is as a field reads, and the keys of maps end
where they are cut. -/
def IsExpressible : Clause → Prop
  | .material s | .potionKind s => ∀ c ∈ s, c.isLower = false
  | .modelData n => 0 ≤ n
  | .enchantments levels => ∀ entry ∈ levels.entries,
      entry.1 ≠ [] ∧ '=' ∉ entry.1 ∧ Enchantment.normalize entry.1 = entry.1
  | .tagTexts texts => ∀ entry ∈ texts.entries, '=' ∉ entry.1
  | .tagInts ints => ∀ entry ∈ ints.entries, '=' ∉ entry.1
  | _ => True

theorem writeLevel_ne_nil {entry : Text × Level} (h : entry.1 ≠ []) : writeLevel entry ≠ [] := by
  obtain ⟨key, level⟩ := entry
  cases level with
  | any => exact h
  | exact n => exact List.append_ne_nil_of_left_ne_nil h _

theorem levelOfSegment?_writeLevel {entry : Text × Level} (hne : entry.1 ≠ [])
    (hcut : '=' ∉ entry.1) (hkey : Enchantment.normalize entry.1 = entry.1) :
    levelOfSegment? id (writeLevel entry) = some entry := by
  obtain ⟨key, level⟩ := entry
  cases level with
  | any =>
    have hnone : Text.cutAt '=' key = none := Text.cutAt_eq_none hcut
    simp only [writeLevel, levelOfSegment?, hnone, id_eq]
    rw [hkey, if_neg hne]
    rfl
  | exact n =>
    have hsome := Text.cutAt_append hcut (Numeral.digits n.toNat)
    simp only [writeLevel, levelOfSegment?, hsome, id_eq]
    rw [hkey, if_neg hne]
    simp

theorem pairOfSegment?_writePair {α : Type} {read : Text → Option α} {write : α → Text}
    {entry : Text × α} (hread : read (write entry.2) = some entry.2) (hcut : '=' ∉ entry.1) :
    pairOfSegment? id read (writePair write entry) = some entry := by
  rw [pairOfSegment?, writePair, Text.cutAt_append hcut]
  simp [hread]

theorem dictOfSegments_of_lists {α : Type} {read : Text → Option (Text × α)}
    {write : Text × α → Text} {m : Dict α} {value : Text} (hvalue : Lists write m value)
    (hnil : read [] = none) (hread : ∀ entry ∈ m.entries, read (write entry) = some entry) :
    dictOfSegments read value = m := by
  obtain ⟨entries, hperm, rfl, hends⟩ := hvalue
  have hentries : (entries.map write).filterMap read = entries := by
    rw [List.filterMap_map, List.filterMap_congr (g := some), List.filterMap_some]
    intro entry hentry
    exact hread entry (hperm.mem_iff.1 hentry)
  rw [dictOfSegments, Escaped.filterMap_split_join (by decide) hnil hends, hentries]
  exact Dict.ofList_of_perm hperm

theorem ofValue?_of_hasValue {clause : Clause} {key : FieldKey} {value : Text}
    (h : HasValue clause key value) (hclause : clause.IsExpressible) :
    ofValue? id value key = some clause := by
  cases h with
  | material s => simp [ofValue?, Text.upper_of_forall hclause]
  | damage n => simp [ofValue?]
  | modelData n =>
    have hn : (0 : Int32) ≤ n := hclause
    simp [ofValue?, hn]
  | amount n => simp [ofValue?, targetOfNumber]
  | invalidAmount => rfl
  | potionKind s => simp [ofValue?, Text.upper_of_forall hclause]
  | potionExtended b => cases b <;> rfl
  | potionUpgraded b => cases b <;> rfl
  | @enchantments levels value h =>
    have hread : dictOfSegments
        (fun segment => if segment = [] then none else levelOfSegment? id segment) value =
          levels := by
      refine dictOfSegments_of_lists h rfl fun entry hentry => ?_
      obtain ⟨hne, hcut, hkey⟩ := hclause entry hentry
      rw [if_neg (writeLevel_ne_nil hne), levelOfSegment?_writeLevel hne hcut hkey]
    rw [ofValue?, hread]
  | @tagTexts texts value h =>
    have hread : dictOfSegments (pairOfSegment? id some) value = texts :=
      dictOfSegments_of_lists h rfl fun entry hentry =>
        pairOfSegment?_writePair rfl (hclause entry hentry)
    rw [ofValue?, hread]
  | @tagInts ints value h =>
    have hread : dictOfSegments
        (pairOfSegment? id fun s => Numeral.readInt32? (Text.trim s)) value = ints :=
      dictOfSegments_of_lists h rfl fun entry hentry =>
        pairOfSegment?_writePair (by simp) (hclause entry hentry)
    rw [ofValue?, hread]
  | slot n => simp [ofValue?]
  | _ => rfl

theorem read?_append {start value : Text} {key : FieldKey} (h : (start, key) ∈ FieldKey.table)
    (hkey : key ≠ .amountExpression) (resolve : Text → Text) :
    read? resolve (start ++ value) = ofValue? resolve (resolve value) key := by
  rw [read?, FieldKey.split?_append h]
  cases key with
  | amountExpression => exact absurd rfl hkey
  | _ => rfl

theorem HasValue.key_ne {clause : Clause} {key : FieldKey} {value : Text}
    (h : HasValue clause key value) : key ≠ .amountExpression := by
  cases h <;> exact FieldKey.noConfusion

/-- A field is read as the clause that it was written for. -/
theorem read?_of_isWrittenAs {clause : Clause} {field : Text} (h : IsWrittenAs clause field)
    (hclause : clause.IsExpressible) : read? id field = some clause := by
  cases h with
  | word hword =>
    obtain ⟨hsplit, hlookup⟩ := split?_word hword
    rw [read?, hsplit]
    exact hlookup
  | field hstart hvalue =>
    rw [read?_append hstart hvalue.key_ne]
    exact ofValue?_of_hasValue hvalue hclause

end Clause

namespace Criteria

/-- Fields can express criteria.  They do not take anything away; what they ask for is as a field
reads, and the keys of their maps end where they are cut. -/
structure IsExpressible (c : Criteria) : Prop where
  removes : c.removes = false
  modelData : ∀ n ∈ c.modelData, 0 ≤ n
  material : ∀ s ∈ c.material, ∀ d ∈ s, d.isLower = false
  potionKind : ∀ s ∈ c.potionKind, ∀ d ∈ s, d.isLower = false
  enchantments : ∀ levels ∈ c.enchantments, ∀ entry ∈ levels.entries,
    entry.1 ≠ [] ∧ '=' ∉ entry.1 ∧ Enchantment.normalize entry.1 = entry.1
  tagTexts : ∀ texts ∈ c.tagTexts, ∀ entry ∈ texts.entries, '=' ∉ entry.1
  tagInts : ∀ ints ∈ c.tagInts, ∀ entry ∈ ints.entries, '=' ∉ entry.1

theorem isExpressible_of_mem {c : Criteria} (hc : c.IsExpressible) {together : Bool}
    {clause : Clause} (h : clause ∈ c.clauses together) : clause.IsExpressible := by
  obtain ⟨option, hoption, hclause⟩ := List.mem_filterMap.1 h
  have hoptions : ∀ option ∈ c.options together, ∀ x ∈ option, x.IsExpressible := by
    simp only [options, List.forall_mem_cons]
    refine ⟨forall_mem_map hc.material, ?_, forall_mem_map hc.modelData, ?_, ?_, ?_, ?_, ?_, ?_, ?_,
      forall_mem_map hc.enchantments, ?_, forall_mem_map hc.potionKind, ?_, ?_,
      forall_mem_map hc.tagTexts, forall_mem_map hc.tagInts, ?_, ?_, ?_, ?_, ?_,
      List.forall_mem_nil _⟩
    -- The other clauses are expressible whatever they ask.
    all_goals first
      | exact forall_mem_flagged trivial
      | apply forall_mem_map; intro _ _; trivial
  exact hoptions option hoption clause hclause

theorem filterMap_read?_fields {clauses : List Clause} {fields : List Text}
    (hfields : List.Forall₂ Clause.IsWrittenAs clauses fields)
    (hclauses : ∀ clause ∈ clauses, clause.IsExpressible) :
    fields.filterMap (Clause.read? id) = clauses := by
  induction hfields with
  | nil => rfl
  | cons hfield _ ih =>
    obtain ⟨hclause, hrest⟩ := List.forall_mem_cons.1 hclauses
    rw [List.filterMap_cons_some (Clause.read?_of_isWrittenAs hfield hclause), ih hrest]

/-- Every set of predicates that fields can express is read back from its fields, in whatever order
they and the entries of their maps are written. -/
theorem read_join_fields {c : Criteria} (hc : c.IsExpressible) (together : Bool)
    {clauses : List Clause} (hclauses : clauses.Perm (c.clauses together)) {fields : List Text}
    (hfields : List.Forall₂ Clause.IsWrittenAs clauses fields)
    (hends : ∀ field ∈ fields.dropLast, field.getLast? ≠ some '\\')
    (hspaced : ¬ ['_', '_'] <:+: Escaped.join ',' fields) (passes : Nat) :
    read Placeholder.noExpander passes (Escaped.join ',' fields) = c := by
  have hread : fields.filterMap (Clause.read? id) = clauses :=
    filterMap_read?_fields hfields fun clause hclause =>
      isExpressible_of_mem hc (hclauses.mem_iff.1 hclause)
  have hkinds : (clauses.map Clause.ctorIdx).Nodup :=
    (hclauses.map Clause.ctorIdx).nodup_iff.2 (nodup_kinds_clauses together c)
  calc read Placeholder.noExpander passes (Escaped.join ',' fields)
      = ofClauses ((Escaped.split ',' (Escaped.join ',' fields)).filterMap (Clause.read? id)) := by
        rw [read_noExpander, readWith, spaced_eq_self hspaced, id_eq]
    _ = ofClauses (fields.filterMap (Clause.read? id)) := by
        rw [Escaped.filterMap_split_join (by decide) rfl hends]
    _ = ofClauses (c.clauses together) := by
        rw [hread, ofClauses_perm hclauses hkinds]
    _ = c := ofClauses_clauses together hc.removes

/-- Criteria whose texts hold the characters that fields and maps are cut at. -/
def guardedEgg : Criteria where
  material := some "EGG".toList
  damage := some (-3)
  amount := some .invalid
  nameIs := some "a,\\,=".toList
  enchantments := some (Dict.ofList [("mending".toList, .any), ("power".toList, .exact 5)])
  tagTexts := some (Dict.ofList [("p;q".toList, "=\\;,\\".toList)])
  mainHand := true
  offHand := true

/-- The clauses of the criteria, in an order of their own. -/
def guardedEggClauses : List Clause :=
  [.bothHands, .damage (-3), .material "EGG".toList, .amount .invalid, .nameIs "a,\\,=".toList,
    .enchantments (Dict.ofList [("mending".toList, .any), ("power".toList, .exact 5)]),
    .tagTexts (Dict.ofList [("p;q".toList, "=\\;,\\".toList)])]

def guardedEggFields : List Text :=
  ["inhand".toList, "data:".toList ++ Numeral.integer (-3 : Int32).toInt,
    "mat:".toList ++ "EGG".toList, "amt:".toList ++ [], "nameequals:".toList ++ "a,\\,=".toList,
    "enchantments:".toList ++ "power=5;mending".toList,
    "nbtstrings:".toList ++ "p\\;q==\\\\;,\\".toList]

theorem isExpressible_guardedEgg : guardedEgg.IsExpressible where
  removes := rfl
  modelData _ hn := nomatch hn
  material s hs := by
    obtain rfl := Option.some.inj hs
    have hall : "EGG".toList.all (fun d => d.isLower == false) = true := by decide
    exact fun d hd => beq_iff_eq.1 (List.all_eq_true.1 hall d hd)
  potionKind _ hs := nomatch hs
  enchantments := by decide +kernel
  tagTexts := by decide +kernel
  tagInts := by decide

theorem areWrittenAs_guardedEggFields :
    List.Forall₂ Clause.IsWrittenAs guardedEggClauses guardedEggFields :=
  .cons (.word (by decide)) <| .cons (.field (by decide) (.damage _)) <|
  .cons (.field (by decide) (.material _)) <| .cons (.field (by decide) .invalidAmount) <|
  .cons (.field (by decide) (.nameIs _)) <|
  .cons (.field (by decide) (.enchantments
    ⟨[("power".toList, .exact 5), ("mending".toList, .any)], by decide, by decide, by decide⟩)) <|
  .cons (.field (by decide) (.tagTexts
    ⟨[("p;q".toList, "=\\;,\\".toList)], by decide, by decide, by decide⟩)) .nil

def guardedEggText : Text :=
  ("inhand,data:-3,mat:EGG,amt:,nameequals:a\\,\\\\,=,enchantments:power=5;mending," ++
    "nbtstrings:p\\;q==\\\\;\\,\\").toList

theorem read_guardedEggText :
    Escaped.join ',' guardedEggFields = guardedEggText ∧
      read Placeholder.noExpander 10 guardedEggText = guardedEgg := by
  have htext : Escaped.join ',' guardedEggFields = guardedEggText := by decide +kernel
  have hperm : guardedEggClauses.Perm (guardedEgg.clauses true) := by decide +kernel
  refine ⟨htext, ?_⟩
  rw [← htext]
  exact read_join_fields isExpressible_guardedEgg true hperm areWrittenAs_guardedEggFields
    (by decide +kernel) (by decide +kernel) 10

end Criteria

end InventoryQuery
