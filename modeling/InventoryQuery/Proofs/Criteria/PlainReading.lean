import InventoryQuery.Criteria.Reader
import InventoryQuery.Proofs.Placeholder.PlainText
import InventoryQuery.Proofs.Text.Pieces
/-!
# Reading plain criteria

The reader expands placeholders in the whole text and again in every piece of it.  On a plain text
all of these passes are idle: the criteria are those of a reader that expands nothing, whatever
the table and the limit of passes are.
-/

namespace InventoryQuery

open Placeholder (IsPlain IsHosted Expander noExpander bracesToPercent bracesToPercent_eq_self)

/-- Plain texts are left as they are. -/
def FixesPlain (resolve : Text → Text) : Prop := ∀ s, IsPlain s → resolve s = s

theorem fixesPlain_settle {expand : Expander} (hexpand : IsHosted expand) (limit : Nat) :
    FixesPlain (Placeholder.settle expand limit) :=
  fun _ hs => hexpand.settle_eq_self limit hs

theorem FieldKey.exists_start_of_split? {field value : Text} {key : FieldKey}
    (h : split? field = some (key, value)) :
    ∃ start, (start, key) ∈ table ∧ field = start ++ value := by
  obtain ⟨⟨start, kind⟩, hmem, hstart⟩ := List.exists_of_findSome?_eq_some h
  obtain ⟨rest, hrest, heq⟩ := Option.map_eq_some_iff.1 hstart
  obtain ⟨rfl, rfl⟩ := Prod.mk.inj heq
  exact ⟨start, hmem, Text.after?_eq_some_iff.1 hrest⟩

namespace Clause

theorem equationBody?_eq_none {s : Text} (hs : IsPlain s) : equationBody? s = none := by
  unfold equationBody?
  cases hrest : Text.after? equationStart s with
  | none => rfl
  | some rest =>
    have hstart : '\x7b' ∈ equationStart := by decide
    rw [Text.after?_eq_some_iff] at hrest
    exact absurd (hrest ▸ List.mem_append_left rest hstart) hs.brace_notMem

variable {resolve : Text → Text} (hresolve : FixesPlain resolve)

include hresolve

theorem targetOfExpression_eq_id {value : Text} (hvalue : IsPlain value) :
    targetOfExpression resolve value = targetOfExpression id value := by
  have htrim : IsPlain (Text.trim value) := hvalue.of_subset (Text.trim_subset value)
  simp only [targetOfExpression, hresolve _ htrim, id_eq, equationBody?_eq_none htrim,
    Option.getD_none, bracesToPercent_eq_self htrim]

theorem levelOfSegment?_eq_id {segment : Text} (hsegment : IsPlain segment) :
    levelOfSegment? resolve segment = levelOfSegment? id segment := by
  unfold levelOfSegment?
  cases hcut : Text.cutAt '=' segment with
  | none => simp only [hresolve _ hsegment, Option.bind_none, id_eq]
  | some parts =>
    obtain ⟨token, level⟩ := parts
    obtain ⟨hbefore, hrest⟩ := Text.subset_of_cutAt hcut
    have htoken : resolve token = token := hresolve _ (hsegment.of_subset hbefore)
    have hlevel : resolve level = level := hresolve _ (hsegment.of_subset hrest)
    simp only [htoken, hlevel, Option.bind_some, id_eq]

theorem pairOfSegment?_eq_id {α : Type} (read : Text → Option α) {segment : Text}
    (hsegment : IsPlain segment) :
    pairOfSegment? resolve read segment = pairOfSegment? id read segment := by
  unfold pairOfSegment?
  cases hcut : Text.cutAt '=' segment with
  | none => rfl
  | some parts =>
    obtain ⟨path, value⟩ := parts
    obtain ⟨hbefore, hrest⟩ := Text.subset_of_cutAt hcut
    have hpath : resolve path = path := hresolve _ (hsegment.of_subset hbefore)
    have hvalue : resolve value = value := hresolve _ (hsegment.of_subset hrest)
    simp only [hpath, hvalue, id_eq]

omit hresolve in
theorem dictOfSegments_congr {α : Type} {f g : Text → Option (Text × α)} {value : Text}
    (hvalue : IsPlain value) (h : ∀ segment, IsPlain segment → f segment = g segment) :
    dictOfSegments f value = dictOfSegments g value := by
  unfold dictOfSegments
  congr 1
  apply List.filterMap_congr
  intro segment hsegment
  exact h segment (hvalue.of_subset (Escaped.subset_of_mem_split hsegment))

theorem ofValue?_eq_id {value : Text} (hvalue : IsPlain value) (key : FieldKey) :
    ofValue? resolve value key = ofValue? id value key := by
  cases key with
  | enchantments =>
    have hlevels := dictOfSegments_congr hvalue
      (f := fun segment => if segment = [] then none else levelOfSegment? resolve segment)
      (g := fun segment => if segment = [] then none else levelOfSegment? id segment)
      fun segment hsegment => by rw [levelOfSegment?_eq_id hresolve hsegment]
    simp only [ofValue?, hlevels]
  | tagTexts =>
    have htexts := dictOfSegments_congr hvalue fun segment hsegment =>
      pairOfSegment?_eq_id hresolve some hsegment
    simp only [ofValue?, htexts]
  | tagInts =>
    have hints := dictOfSegments_congr hvalue fun segment hsegment =>
      pairOfSegment?_eq_id hresolve (fun s => Numeral.readInt32? (Text.trim s)) hsegment
    simp only [ofValue?, hints]
  | _ => rfl

theorem read?_eq_id {field : Text} (hfield : IsPlain field) :
    read? resolve field = read? id field := by
  unfold read?
  cases hsplit : FieldKey.split? field with
  | none => rfl
  | some parts =>
    obtain ⟨key, value⟩ := parts
    obtain ⟨start, -, hstart⟩ := FieldKey.exists_start_of_split? hsplit
    have hvalue : IsPlain value := hfield.of_subset (hstart ▸ List.subset_append_right start value)
    cases key with
    | amountExpression => simp only [targetOfExpression_eq_id hresolve hvalue]
    | _ => simp only [hresolve _ hvalue, ofValue?_eq_id hresolve hvalue, id_eq]

end Clause

namespace Criteria

theorem isPlain_spaced {s : Text} (hs : IsPlain s) : IsPlain (spaced s) := by
  fun_induction spaced s with
  | case1 s ih =>
    intro c hc
    rcases List.mem_cons.1 hc with rfl | hc
    · decide
    · exact ih (fun d hd => hs d (List.mem_cons_of_mem _ (List.mem_cons_of_mem _ hd))) c hc
  | case2 d s _ ih =>
    intro c hc
    rcases List.mem_cons.1 hc with rfl | hc
    · exact hs c List.mem_cons_self
    · exact ih (fun d hd => hs d (List.mem_cons_of_mem _ hd)) c hc
  | case3 => exact hs

theorem spaced_eq_self {s : Text} (h : ¬ ['_', '_'] <:+: s) : spaced s = s := by
  fun_induction spaced s with
  | case1 s ih => exact absurd (List.prefix_append ['_', '_'] s).isInfix h
  | case2 c s hc ih => rw [ih fun hs => h (hs.trans (List.suffix_cons c s).isInfix)]
  | case3 => rfl

theorem filterMap_read?_eq_id {resolve : Text → Text} (hresolve : FixesPlain resolve) {text : Text}
    (htext : IsPlain text) :
    (Escaped.split ',' text).filterMap (Clause.read? resolve) =
      (Escaped.split ',' text).filterMap (Clause.read? id) := by
  apply List.filterMap_congr
  intro field hfield
  exact Clause.read?_eq_id hresolve (htext.of_subset (Escaped.subset_of_mem_split hfield))

/-- On a plain text every expansion is idle, also those inside the values. -/
theorem readWith_eq_id {resolve : Text → Text} (hresolve : FixesPlain resolve) {text : Text}
    (htext : IsPlain text) : readWith resolve text = readWith id text := by
  have hspaced := isPlain_spaced htext
  rw [readWith, hresolve _ hspaced, filterMap_read?_eq_id hresolve hspaced]
  rfl

theorem read_eq_of_isPlain {expand : Expander} (hexpand : IsHosted expand) (passes : Nat)
    {text : Text} (htext : IsPlain text) : read expand passes text = readWith id text :=
  readWith_eq_id (fixesPlain_settle hexpand passes) htext

theorem read_noExpander (passes : Nat) (text : Text) :
    read noExpander passes text = readWith id text := by
  have hresolve : Placeholder.settle noExpander passes = id :=
    funext fun s => Placeholder.settle_eq_self rfl passes
  rw [read, hresolve]

/-- Where the expansion of a text leaves nothing to expand, only the expansion of the whole text
matters, and none inside the values. -/
theorem readWith_eq_readWith_id {resolve : Text → Text} (hresolve : FixesPlain resolve)
    {text : Text} (hplain : IsPlain (resolve (spaced text)))
    (hspaced : ¬ ['_', '_'] <:+: resolve (spaced text)) :
    readWith resolve text = readWith id (resolve (spaced text)) := by
  rw [readWith, filterMap_read?_eq_id hresolve hplain, readWith, spaced_eq_self hspaced, id_eq]

/-- Reading a text with a table comes to the same as expanding its placeholders first and reading
what they come to without a table, as long as no mark of a token and no two underscores in a row
are left in it. -/
theorem read_eq_read_settle (table : Placeholder.Table) (limit passes : Nat) {text : Text}
    (hplain : IsPlain (Placeholder.settle table.expand limit (spaced text)))
    (hspaced : ¬ ['_', '_'] <:+: Placeholder.settle table.expand limit (spaced text)) :
    read table.expand limit text =
      read noExpander passes (Placeholder.settle table.expand limit (spaced text)) := by
  have hhosted : IsHosted table.expand := .inr ⟨table, rfl⟩
  calc read table.expand limit text
      = readWith id (Placeholder.settle table.expand limit (spaced text)) :=
        readWith_eq_readWith_id (fixesPlain_settle hhosted limit) hplain hspaced
    _ = read noExpander passes (Placeholder.settle table.expand limit (spaced text)) :=
        (read_noExpander passes _).symm

/-- Values that bring in a whole field, a separator and one more token. -/
theorem read_eq_read_settle_kit :
    let table : Placeholder.Table := Dict.ofList
      [("kit".toList, "amtexpr:2*(\x7bn\x7d-1)".toList), ("n".toList, "4".toList),
        ("pair".toList, "a=x\\,y;c".toList)]
    let text := "mat:egg,\x7bkit\x7d,nbtstrings:%pair%=d__e".toList
    let expanded := "mat:egg,amtexpr:2*(4-1),nbtstrings:a=x\\,y;c=d e".toList
    Placeholder.settle table.expand 10 (spaced text) = expanded ∧ IsPlain expanded ∧
      ¬ ['_', '_'] <:+: expanded ∧
      read table.expand 10 text = read noExpander 10 expanded := by
  intro table text expanded
  have hsettle : Placeholder.settle table.expand 10 (spaced text) = expanded := by decide +kernel
  have hplain : IsPlain expanded := by decide
  have hspaced : ¬ ['_', '_'] <:+: expanded := by decide +kernel
  refine ⟨hsettle, hplain, hspaced, ?_⟩
  rw [← hsettle] at hplain hspaced ⊢
  exact read_eq_read_settle table 10 10 hplain hspaced

end Criteria

end InventoryQuery
