import InventoryQuery.Proofs.Json.Coding
/-!
# Stacks that are written are read back

Reading puts the entries of every compound in order and bounds how deep tags are nested.  Stacks
whose tags are like that come out again when they are written and read, and every stack that is read
is one of them.
-/

namespace InventoryQuery

open Json (AreFieldNames record?_object canonical_record field? field?_of_get? required?_of_get?)

/-! ## Tags -/

namespace Tag

/-- The entries of every compound in a tag are in the order of their names. -/
inductive Sorted : Tag → Prop
  | int (n : Int32) : Sorted (.int n)
  | text (s : Text) : Sorted (.text s)
  | compound (entries : Compound) (hascending : Entries.Ascending entries)
      (hentries : ∀ entry ∈ entries, Sorted entry.2) : Sorted (.compound entries)

theorem membersOfEntries_eq_map (entries : Compound) :
    membersOfEntries entries = entries.map fun entry => (Json.spell entry.1, entry.2.toJson) := by
  induction entries with
  | nil => rfl
  | cons entry entries ih => rw [membersOfEntries, ih, List.map_cons]

theorem canonical_toJson {tag : Tag} (h : tag.Sorted) : tag.toJson.Canonical := by
  induction h with
  | int n => exact .number n.toInt
  | text s => exact .string s
  | compound entries _ _ ih =>
    rw [toJson, membersOfEntries_eq_map]
    refine .object _ (fun member hmember => ?_) fun member hmember => ?_
    all_goals obtain ⟨entry, hentry, rfl⟩ := List.mem_map.1 hmember
    · exact ⟨entry.1, rfl⟩
    · exact ih entry hentry

theorem entriesOfJson?_membersOfEntries {entries : Compound}
    (h : ∀ entry ∈ entries, ofJson? entry.2.toJson = some entry.2) :
    entriesOfJson? (membersOfEntries entries) = some entries := by
  induction entries with
  | nil => rfl
  | cons entry entries ih =>
    obtain ⟨hentry, hentries⟩ := List.forall_mem_cons.1 h
    rw [membersOfEntries, entriesOfJson?, Json.unspell?_spell, hentry, ih hentries]

theorem ofJson?_toJson {tag : Tag} (h : tag.Sorted) : ofJson? tag.toJson = some tag := by
  induction h with
  | int n =>
    have hint := Json.int32?_ofInt n
    rw [Json.ofInt] at hint
    rw [toJson, Json.ofInt, ofJson?, hint, Option.map_some]
  | text s => rw [toJson, Json.ofText, ofJson?, Json.unspell?_spell, Option.map_some]
  | compound entries hascending _ ih =>
    rw [toJson, ofJson?, entriesOfJson?_membersOfEntries ih, Option.map_some,
      Entries.ofList_of_ascending hascending]

theorem depth_toJson_compound_le_iff {entries : Compound} {depth : Nat} :
    (toJson (.compound entries)).depth ≤ depth + 1 ↔
      ∀ entry ∈ entries, entry.2.toJson.depth ≤ depth := by
  rw [toJson, Json.depth, Nat.add_le_add_iff_right, Json.depthOfMembers_le_iff,
    membersOfEntries_eq_map, List.forall_mem_map]

mutual

/-- What is read is in order, and nested no deeper than the document. -/
theorem sorted_of_ofJson? : (j : Json) → {tag : Tag} → ofJson? j = some tag →
    tag.Sorted ∧ tag.toJson.depth ≤ j.depth
  | .number spelling, tag, h => by
    obtain ⟨n, -, rfl⟩ := Option.map_eq_some_iff.1 h
    exact ⟨.int n, Nat.le_refl 0⟩
  | .string spelling, tag, h => by
    obtain ⟨s, -, rfl⟩ := Option.map_eq_some_iff.1 h
    exact ⟨.text s, Nat.le_refl 0⟩
  | .object members, tag, h => by
    obtain ⟨entries, hentries, rfl⟩ := Option.map_eq_some_iff.1 h
    have hall := sorted_of_entriesOfJson? members hentries
    refine ⟨.compound _ (Entries.ascending_ofList entries) fun entry hentry => ?_, ?_⟩
    · exact (hall entry (Entries.mem_of_mem_ofList hentry)).1
    · rw [Json.depth, depth_toJson_compound_le_iff]
      exact fun entry hentry => (hall entry (Entries.mem_of_mem_ofList hentry)).2

theorem sorted_of_entriesOfJson? : (members : List (Text × Json)) → {entries : Compound} →
    entriesOfJson? members = some entries →
    ∀ entry ∈ entries, entry.2.Sorted ∧ entry.2.toJson.depth ≤ Json.depthOfMembers members
  | [], entries, h => by
    obtain rfl := Option.some.inj h
    simp
  | (key, value) :: members, entries, h => by
    unfold entriesOfJson? at h
    split at h
    · next name tag rest hkey hvalue hrest =>
      obtain rfl := Option.some.inj h
      obtain ⟨hsorted, hdepth⟩ := sorted_of_ofJson? value hvalue
      have hall := sorted_of_entriesOfJson? members hrest
      rw [Json.depthOfMembers]
      refine List.forall_mem_cons.2 ⟨⟨hsorted, ?_⟩, fun entry hentry => ?_⟩
      · exact Nat.le_trans hdepth (Nat.le_max_left _ _)
      · exact ⟨(hall entry hentry).1, Nat.le_trans (hall entry hentry).2 (Nat.le_max_right _ _)⟩
    · cases h

end

end Tag

namespace Compound

/-- The tags that can be read where there is room for the given nesting. -/
structure Storable (room : Nat) (c : Compound) : Prop where
  sorted : (Tag.compound c).Sorted
  depth_le : c.toJson.depth ≤ room

theorem ofJson?_toJson {room : Nat} {c : Compound} (h : c.Storable room) :
    ofJson? room c.toJson = some c := by
  rw [ofJson?, if_pos h.depth_le, toJson, Tag.ofJson?_toJson h.sorted]

theorem storable_of_ofJson? {room : Nat} {j : Json} {c : Compound} (h : ofJson? room j = some c) :
    c.Storable room := by
  unfold ofJson? at h
  split at h
  · next hdepth =>
    split at h
    · next entries htag =>
      obtain rfl := Option.some.inj h
      obtain ⟨hsorted, hle⟩ := Tag.sorted_of_ofJson? j htag
      exact ⟨hsorted, Nat.le_trans hle hdepth⟩
    · cases h
  · cases h

theorem storable_nil {room : Nat} (h : 1 ≤ room) : Storable room [] :=
  ⟨.compound [] List.Pairwise.nil (by simp), h⟩

end Compound

/-! ## Metadata -/

namespace Potion

theorem areFieldNames : AreFieldNames (fieldNames ["type", "extended", "upgraded"]) := by decide

theorem ofJson?_toJson (p : Potion) : ofJson? p.toJson = some p := by
  rw [ofJson?, toJson, record?_object areFieldNames (List.Sublist.refl _)]
  simp only [Option.bind_eq_bind, Option.bind_some]
  rw [required?_of_get? rfl, Json.text?_ofText]
  rfl

theorem canonical_toJson (p : Potion) : p.toJson.Canonical := by
  refine canonical_record areFieldNames (List.Sublist.refl _) ?_
  simp only [List.forall_mem_cons]
  exact ⟨Json.canonical_ofText p.kind, .bool _, .bool _, by simp⟩

end Potion

namespace Metadata

theorem areFieldNames : AreFieldNames (fieldNames ["display_name", "lore", "custom_model_data",
    "enchants", "stored_enchants", "base_potion"]) := by decide

theorem ofJson?_toJson (m : Metadata) : ofJson? m.toJson = some m := by
  have htext := Json.text?_ofText
  have hint := Json.int32?_ofInt
  have hdict := Json.dict?_ofDict Json.uint32?_ofNat
  have hname := Json.nullable?_ofOption htext (fun _ => Json.noConfusion) m.displayName
  have hlore := Json.list?_array htext m.lore
  have hmodel := Json.nullable?_ofOption hint (fun _ => Json.noConfusion) m.modelData
  have henchants := hdict m.enchants
  have hstored := Json.nullable?_ofOption hdict (fun _ => Json.noConfusion) m.storedEnchants
  have hpotion :=
    Json.nullable?_ofOption Potion.ofJson?_toJson (fun _ => Json.noConfusion) m.basePotion
  rw [ofJson?, toJson, record?_object areFieldNames (List.Sublist.refl _)]
  simp only [Option.bind_eq_bind, Option.bind_some]
  rw [field?_of_get? rfl, hname, field?_of_get? rfl, hlore, field?_of_get? rfl, hmodel,
    field?_of_get? rfl, henchants, field?_of_get? rfl, hstored, field?_of_get? rfl, hpotion]
  rfl

theorem canonical_toJson (m : Metadata) : m.toJson.Canonical := by
  refine canonical_record areFieldNames (List.Sublist.refl _) ?_
  simp only [List.forall_mem_cons]
  refine ⟨?_, ?_, ?_, ?_, ?_, ?_, by simp⟩
  · exact Json.canonical_ofOption Json.canonical_ofText m.displayName
  · exact Json.canonical_array Json.canonical_ofText m.lore
  · exact Json.canonical_ofOption (fun n => Json.canonical_ofInt n.toInt) m.modelData
  · exact Json.canonical_ofDict (fun n => Json.canonical_ofNat n.toNat) m.enchants
  · exact Json.canonical_ofOption (Json.canonical_ofDict fun n => Json.canonical_ofNat n.toNat)
      m.storedEnchants
  · exact Json.canonical_ofOption Potion.canonical_toJson m.basePotion

end Metadata

/-! ## Stacks -/

namespace Stack

/-- The stacks that can be read where there is room for the given nesting. -/
def Storable (room : Nat) (s : Stack) : Prop := s.tags.Storable (room - 1)

/-- The fields that are written. -/
def members (s : Stack) : List (Text × Json) :=
  [("material".toList, Json.ofText s.material), ("amount".toList, Json.ofNat s.amount.toNat),
    ("damage".toList, Json.ofInt s.damage.toInt)]
  ++ (match s.metadata with
    | none => []
    | some m => [("meta".toList, m.toJson)])
  ++ (if s.tags.isEmpty then [] else [("tags".toList, s.tags.toJson)])

theorem toJson_eq (s : Stack) : s.toJson = .object s.members := rfl

theorem areFieldNames :
    AreFieldNames (fieldNames ["material", "amount", "damage", "meta", "tags"]) := by decide

theorem keys_members_sublist (s : Stack) : (s.members.map Prod.fst).Sublist
    (fieldNames ["material", "amount", "damage", "meta", "tags"]) := by
  have hall : ∀ withMetadata withTags : Bool,
      (fieldNames ["material", "amount", "damage"]
        ++ (if withMetadata then fieldNames ["meta"] else [])
        ++ (if withTags then fieldNames ["tags"] else [])).Sublist
      (fieldNames ["material", "amount", "damage", "meta", "tags"]) := by decide
  obtain ⟨material, amount, damage, metadata, tags⟩ := s
  cases metadata with
  | none => cases tags with
    | nil => exact hall false false
    | cons entry entries => exact hall false true
  | some m => cases tags with
    | nil => exact hall true false
    | cons entry entries => exact hall true true

theorem field?_metadata (s : Stack) :
    field? s.members "meta".toList none (Json.nullable? Metadata.ofJson?) = some s.metadata := by
  obtain ⟨material, amount, damage, metadata, tags⟩ := s
  cases metadata with
  | none => cases tags <;> rfl
  | some m =>
    have hm : Json.nullable? Metadata.ofJson? m.toJson = some (some m) :=
      Json.nullable?_ofOption Metadata.ofJson?_toJson (fun _ => Json.noConfusion) (some m)
    rw [← hm]
    exact field?_of_get? rfl _ _

theorem field?_tags {room : Nat} {s : Stack} (h : s.Storable room) :
    field? s.members "tags".toList [] (Compound.ofJson? (room - 1)) = some s.tags := by
  obtain ⟨material, amount, damage, metadata, tags⟩ := s
  cases tags with
  | nil => cases metadata <;> rfl
  | cons entry entries =>
    rw [← Compound.ofJson?_toJson h]
    cases metadata <;> exact field?_of_get? rfl _ _

theorem ofJson?_toJson {room : Nat} {s : Stack} (h : s.Storable room) :
    ofJson? room s.toJson = some s := by
  rw [ofJson?, toJson_eq, record?_object areFieldNames s.keys_members_sublist]
  simp only [Option.bind_eq_bind, Option.bind_some]
  rw [required?_of_get? rfl, Json.text?_ofText, field?_of_get? rfl, Json.uint32?_ofNat,
    field?_of_get? rfl, Json.int32?_ofInt, field?_metadata, field?_tags h]
  rfl

theorem canonical_toJson {room : Nat} {s : Stack} (h : s.Storable room) : s.toJson.Canonical := by
  refine canonical_record areFieldNames s.keys_members_sublist fun member hmember => ?_
  rcases List.mem_append.1 hmember with hmember | hmember
  · rcases List.mem_append.1 hmember with hmember | hmember
    · simp only [List.mem_cons, List.not_mem_nil, or_false] at hmember
      rcases hmember with rfl | rfl | rfl
      · exact Json.canonical_ofText s.material
      · exact Json.canonical_ofNat s.amount.toNat
      · exact Json.canonical_ofInt s.damage.toInt
    · split at hmember
      · cases hmember
      · next m _ =>
        obtain rfl := List.mem_singleton.1 hmember
        exact m.canonical_toJson
  · split at hmember
    · cases hmember
    · obtain rfl := List.mem_singleton.1 hmember
      exact Tag.canonical_toJson h.sorted

theorem storable_of_ofJson? {room : Nat} {j : Json} {s : Stack} (hroom : 2 ≤ room)
    (h : ofJson? room j = some s) : s.Storable room := by
  simp only [ofJson?, Option.bind_eq_bind, Option.bind_eq_some_iff, Option.pure_def,
    Option.some.injEq] at h
  obtain ⟨fields, -, material, -, amount, -, damage, -, metadata, -, tags, htags, rfl⟩ := h
  unfold field? at htags
  split at htags
  · obtain rfl := Option.some.inj htags
    exact Compound.storable_nil (by omega)
  · exact Compound.storable_of_ofJson? htags

end Stack

end InventoryQuery
