import InventoryQuery.Criteria.Item
import InventoryQuery.Proofs.Dict
import InventoryQuery.Proofs.Item.Potion
import InventoryQuery.Proofs.Item.Tag
import InventoryQuery.Proofs.Text.Pieces
/-!
# Items match the criteria that describe them

Criteria describe an item completely when they ask for nothing in part only, for nothing twice, and
for no effect that the item cannot carry.  The item is then accepted by every predicate.
-/

namespace InventoryQuery

namespace Criteria

/-- The tags that criteria ask for, by their paths: texts first. -/
def tagsAsked (c : Criteria) : List (Text × Tag) :=
  (c.tagTexts.elim [] fun texts => texts.entries.map fun entry => (entry.1, .text entry.2))
    ++ c.tagInts.elim [] fun ints => ints.entries.map fun entry => (entry.1, .int entry.2)

/-- Criteria that describe all of what they ask for. -/
structure Describes (c : Criteria) (host : Host) (material : Text) : Prop where
  material_eq : c.material = some material
  material_ne_nil : material ≠ []
  material_ne_air : material ≠ air
  nameContains_eq : c.nameContains = none
  nameStarts_eq : c.nameStarts = none
  loreContains_eq : c.loreContains = none
  materialContains_eq : c.materialContains = none
  enchantments_ne_nil : ∀ levels ∈ c.enchantments, levels.entries ≠ []
  enchanted_imp : c.enchanted = true → c.enchantments.isSome = true
  potionExtended_imp : c.potionExtended.isSome = true → c.potionKind.isSome = true
  potionUpgraded_imp : c.potionUpgraded.isSome = true → c.potionKind.isSome = true
  /-- The host gives back the effect that it is told to put on the material. -/
  potion_read : ∀ p ∈ c.potionToPut?,
    (host.potions.write? (.plain material 1) p).bind host.potions.read? = some p
  tags_apart : c.tagsAsked.Pairwise fun a b => Path.Apart (Path.segments a.1) (Path.segments b.1)
  /-- No tag is asked for where the host keeps the effect. -/
  tags_beside_potion : host.potions = .component → host.components = false →
    ∀ entry ∈ c.tagsAsked, (Path.segments entry.1).head? ≠ some "minecraft:potion_contents".toList

/-! ## The item -/

/-- A stack with the effect that criteria describe, if it can carry one. -/
def brew (c : Criteria) (host : Host) (s : Stack) : Stack :=
  c.potionToPut?.elim s fun p => (host.potions.write s p).2

/-- The item that criteria describe, before it has an effect and tags. -/
def unbrewed (c : Criteria) (material : Text) : Stack :=
  ⟨material, 1, c.damage.getD 0, some c.metadataToPut, []⟩

variable {c : Criteria} {host : Host} {item : Stack} {material : Text}

theorem item?_eq (hmaterial : c.material = some material) (hne : material ≠ [])
    (hair : material ≠ air) : c.item? host = some { c.brew host (c.unbrewed material) with
      tags := c.tagsToPut host (c.brew host (c.unbrewed material)).tags } := by
  rw [item?, hmaterial]
  simp only [hne, hair, or_self, if_false]
  unfold brew
  cases c.potionToPut? <;> rfl

/-- The two ways in which a stack takes on an effect. -/
theorem brew_cases (hstore : host.potions.IsBuiltIn) (c : Criteria) (s : Stack) :
    c.brew host s = s ∨
    (∃ p, c.brew host s =
      { s with metadata := some { s.metadata.getD .empty with basePotion := some p } }) ∨
    ∃ p : Potion, c.brew host s =
      { s with tags := s.tags.setPath Potion.idPath (.text p.id) } := by
  unfold brew
  cases c.potionToPut? with
  | none => exact .inl rfl
  | some p =>
    rcases hstore.write_cases s p with hwrite | hwrite | hwrite
    · exact .inl hwrite
    · exact .inr (.inl ⟨p, hwrite⟩)
    · exact .inr (.inr ⟨p, hwrite⟩)

theorem material_brew (hstore : host.potions.KeepsItem) (c : Criteria) (s : Stack) :
    (c.brew host s).material = s.material := by
  unfold brew
  cases c.potionToPut? with
  | none => rfl
  | some p => exact hstore.material_write s p

theorem amount_brew (hstore : host.potions.KeepsItem) (c : Criteria) (s : Stack) :
    (c.brew host s).amount = s.amount := by
  unfold brew
  cases c.potionToPut? with
  | none => rfl
  | some p => exact hstore.amount_write s p

/-- What the item is like that criteria describe. -/
structure IsDescribed (c : Criteria) (host : Host) (item : Stack) : Prop where
  material_eq : c.material = some item.material
  damage_eq : item.damage = c.damage.getD 0
  metadata_eq : ∃ potion, item.metadata = some { c.metadataToPut with basePotion := potion }
  tags_eq : ∃ base, item.tags = c.tagsToPut host base

/-- Every item that criteria describe has come about in the one way. -/
theorem exists_eq_of_item? (h : c.item? host = some item) :
    ∃ material, c.material = some material ∧ material ≠ air ∧
      item = { c.brew host (c.unbrewed material) with
        tags := c.tagsToPut host (c.brew host (c.unbrewed material)).tags } := by
  cases hmaterial : c.material with
  | none =>
    rw [item?, hmaterial] at h
    cases h
  | some material =>
    by_cases hnot : material = [] ∨ material = air
    · rw [item?, hmaterial] at h
      simp only [hnot, if_true] at h
      cases h
    · obtain ⟨hne, hair⟩ := not_or.1 hnot
      rw [item?_eq hmaterial hne hair] at h
      exact ⟨material, rfl, hair, (Option.some.inj h).symm⟩

theorem material_ne_air_of_item? (hstore : host.potions.KeepsItem) (h : c.item? host = some item) :
    item.material ≠ air := by
  obtain ⟨material, -, hair, rfl⟩ := exists_eq_of_item? h
  exact fun heq => hair ((material_brew hstore c _).symm.trans heq)

theorem amount_of_item? (hstore : host.potions.KeepsItem) (h : c.item? host = some item) :
    item.amount = 1 := by
  obtain ⟨material, -, -, rfl⟩ := exists_eq_of_item? h
  exact amount_brew hstore c _

theorem isDescribed_of_item? (hstore : host.potions.IsBuiltIn) (h : c.item? host = some item) :
    c.IsDescribed host item := by
  obtain ⟨material, hmaterial, -, rfl⟩ := exists_eq_of_item? h
  rcases brew_cases hstore c (c.unbrewed material) with hbrew | ⟨p, hbrew⟩ | ⟨p, hbrew⟩
  all_goals rw [hbrew]
  · exact ⟨hmaterial, rfl, ⟨none, rfl⟩, ⟨_, rfl⟩⟩
  · exact ⟨hmaterial, rfl, ⟨some p, rfl⟩, ⟨_, rfl⟩⟩
  · exact ⟨hmaterial, rfl, ⟨none, rfl⟩, ⟨_, rfl⟩⟩

/-! ## Predicates -/

theorem putTags_eq (root : Compound) : c.putTags root = root.setPaths c.tagsAsked := by
  rw [putTags, tagsAsked, Compound.setPaths, List.foldl_append]
  cases c.tagTexts <;> cases c.tagInts <;> simp [List.foldl_map]

theorem tagRoot?_eq (h : c.IsDescribed host item) (hasks : c.asksTags = true) :
    ∃ root : Compound, host.tagRoot? item = some (root.setPaths c.tagsAsked) := by
  obtain ⟨base, htags⟩ := h.tags_eq
  rw [tagsToPut, if_pos hasks] at htags
  rw [Host.tagRoot?, htags]
  split
  · exact ⟨base.child customData, by rw [Compound.compound?_insert_self, putTags_eq]⟩
  · exact ⟨base, by rw [putTags_eq]⟩

theorem mem_tagsAsked_of_text {texts : Dict Text} (h : c.tagTexts = some texts)
    {entry : Text × Text} (hentry : entry ∈ texts.entries) :
    (entry.1, Tag.text entry.2) ∈ c.tagsAsked := by
  rw [tagsAsked, h]
  exact List.mem_append_left _ (List.mem_map_of_mem hentry)

theorem mem_tagsAsked_of_int {ints : Dict Int32} (h : c.tagInts = some ints)
    {entry : Text × Int32} (hentry : entry ∈ ints.entries) :
    (entry.1, Tag.int entry.2) ∈ c.tagsAsked := by
  rw [tagsAsked, h]
  exact List.mem_append_right _ (List.mem_map_of_mem hentry)

theorem acceptsTags_of_isDescribed (h : c.IsDescribed host item)
    (hapart : c.tagsAsked.Pairwise fun a b =>
      Path.Apart (Path.segments a.1) (Path.segments b.1)) :
    c.acceptsTags (host.tagRoot? item) = true := by
  unfold acceptsTags
  cases hasks : c.asksTags with
  | false => rfl
  | true =>
    obtain ⟨root, hroot⟩ := tagRoot?_eq h hasks
    have hthere : ∀ entry ∈ c.tagsAsked,
        (root.setPaths c.tagsAsked).atPath? entry.1 = some entry.2 :=
      fun entry hentry => Compound.atPath?_setPaths hapart hentry
    rw [hroot, Bool.not_true, Bool.false_or, Option.any_some, Bool.and_eq_true]
    constructor
    · cases htexts : c.tagTexts with
      | none => rfl
      | some texts =>
        refine List.all_eq_true.2 fun entry hentry => ?_
        have htext := hthere _ (mem_tagsAsked_of_text htexts hentry)
        exact beq_iff_eq.2 (Compound.pathText?_of_atPath? htext)
    · cases hints : c.tagInts with
      | none => rfl
      | some ints =>
        refine List.all_eq_true.2 fun entry hentry => ?_
        have hint := hthere _ (mem_tagsAsked_of_int hints hentry)
        exact beq_iff_eq.2 (Compound.pathInt?_of_atPath? hint)

theorem acceptsStrictly_of_isDescribed (h : c.IsDescribed host item) :
    c.acceptsStrictly item = true := by
  obtain ⟨potion, hmetadata⟩ := h.metadata_eq
  rw [Criteria.acceptsStrictly, hmetadata, h.damage_eq]
  simp only [Bool.and_eq_true, Option.all_some, metadataToPut, asksName, asksLore, Metadata.hasLore]
  refine ⟨?_, ⟨?_, ?_⟩, ?_⟩
  · cases c.damage <;> simp
  · cases c.nameIs <;> simp
  · cases c.loreIs <;> simp
  · cases c.enchantments with
    | none => rfl
    | some levels => simp

namespace Describes

variable (hc : c.Describes host material) (h : c.IsDescribed host item)

include hc h

theorem acceptsMaterial : c.acceptsMaterial item = true := by
  rw [Criteria.acceptsMaterial, h.material_eq, hc.materialContains_eq, h.damage_eq]
  cases c.damage <;> simp

theorem acceptsMetadata : c.acceptsMetadata item.metadata = true := by
  obtain ⟨potion, hmetadata⟩ := h.metadata_eq
  rw [Criteria.acceptsMetadata, hmetadata]
  simp only [Bool.and_eq_true]
  refine ⟨⟨?_, ?_⟩, ?_⟩
  · rw [metadataToPut]
    cases c.modelData <;> simp
  · rw [acceptsName, hc.nameContains_eq, hc.nameStarts_eq]
    rw [metadataToPut]
    cases c.nameIs <;> simp
  · rw [acceptsLore, hc.loreContains_eq]
    rw [metadataToPut]
    cases c.loreIs with
    | none => simp
    | some lore =>
      simp [Text.joinWith_piecesAt, Text.piecesAt_ne_nil]

theorem acceptsEnchantments : c.acceptsEnchantments item.metadata = true := by
  obtain ⟨potion, hmetadata⟩ := h.metadata_eq
  rw [Criteria.acceptsEnchantments, hmetadata]
  cases hlevels : c.enchantments with
  | none =>
    have henchanted : c.enchanted = false := by
      cases henchanted : c.enchanted with
      | false => rfl
      | true =>
        have hsome := hc.enchanted_imp henchanted
        rw [hlevels] at hsome
        cases hsome
    rw [henchanted]
    rfl
  | some levels =>
    have hput : c.metadataToPut.enchantments = levels.map levelToPut := by
      rw [metadataToPut, Metadata.enchantments, hlevels]
      rfl
    have hisEnchanted : c.metadataToPut.isEnchanted = true := by
      have hne := hc.enchantments_ne_nil levels hlevels
      rw [Metadata.isEnchanted, hput, Dict.isEmpty, Dict.map]
      simpa using hne
    have hlevel : ∀ entry ∈ levels.entries,
        (c.metadataToPut.enchantments.get? entry.1).any entry.2.accepts = true := by
      intro entry hentry
      rw [hput, Dict.get?_map, Dict.get?_of_mem hentry]
      cases entry.2 <;> simp [levelToPut, Level.accepts]
    rw [Option.all_some, Option.any_some, Option.any_some, Bool.and_eq_true]
    refine ⟨Bool.and_eq_true_iff.2 ⟨hisEnchanted, List.all_eq_true.2 hlevel⟩, ?_⟩
    exact Bool.or_eq_true_iff.2 (.inr hisEnchanted)

end Describes

/-! ## The effect -/

/-- Tags that criteria ask for are not put where the host keeps the effect. -/
theorem atPath?_tagsToPut (hc : c.Describes host material) (hpotions : host.potions = .component)
    (base : Compound) :
    (c.tagsToPut host base).atPath? Potion.idPath = base.atPath? Potion.idPath := by
  have hid : Path.segments Potion.idPath =
      ["minecraft:potion_contents".toList, "potion".toList] := by decide
  rw [tagsToPut]
  split
  · split
    · rw [Compound.atPath?, Compound.atPath?, hid, Compound.getAt?_cons_cons,
        Compound.getAt?_cons_cons, Compound.child_insert_of_ne (by decide)]
    · next hcomponents =>
      rw [putTags_eq]
      refine Compound.atPath?_setPaths_of_apart fun entry hentry => ?_
      have hhead := hc.tags_beside_potion hpotions (Bool.eq_false_iff.2 hcomponents) entry hentry
      rw [hid]
      cases hsegments : Path.segments entry.1 with
      | nil => exact absurd hsegments (Path.segments_ne_nil entry.1)
      | cons name names =>
        rw [hsegments] at hhead
        have hname : name ≠ "minecraft:potion_contents".toList := fun hname => hhead (hname ▸ rfl)
        exact ⟨fun hle => hname (List.cons_prefix_cons.1 hle).1,
          fun hle => hname (List.cons_prefix_cons.1 hle).1.symm⟩
  · rfl

/-- The effect that criteria describe is read from the item. -/
theorem read?_item? (hstore : host.potions.IsBuiltIn) (hc : c.Describes host material)
    (hitem : c.item? host = some item) {p : Potion} (hp : c.potionToPut? = some p) :
    host.potions.read? item = some p := by
  obtain ⟨written, hwritten, hread⟩ := Option.bind_eq_some_iff.1 (hc.potion_read p hp)
  rw [PotionStore.write?_eq_some_iff] at hwritten
  rw [item?_eq hc.material_eq hc.material_ne_nil hc.material_ne_air, brew, hp,
    Option.elim_some] at hitem
  obtain rfl := Option.some.inj hitem
  have hcan : Potion.isMaterial material = true :=
    hstore.isMaterial_of_write (congrArg Prod.fst hwritten)
  rcases hstore with hpotions | hpotions
  · rw [hpotions, PotionStore.write_metadata hcan]
    rfl
  · have htext : (Compound.setPath [] Potion.idPath (.text p.id)).atPath? Potion.idPath =
        some (.text p.id) := Compound.atPath?_setPath_self Potion.idPath
    have hkept := (atPath?_tagsToPut hc hpotions _).trans htext
    rw [hpotions] at hwritten hread
    have hid : Potion.ofId p.id = p := by
      have hwrite := PotionStore.read?_write_component (congrArg Prod.fst hwritten)
      rw [hwritten, hread] at hwrite
      exact (Option.some.inj hwrite).symm
    rw [hpotions, PotionStore.write_component hcan]
    exact (congrArg (Option.map Potion.ofId) (Compound.pathText?_of_atPath? hkept)).trans
      (congrArg some hid)

theorem acceptsPotion_item? (hstore : host.potions.IsBuiltIn) (hc : c.Describes host material)
    (hitem : c.item? host = some item) :
    c.acceptsPotion (host.potions.read? item) = true := by
  unfold acceptsPotion
  cases hasks : c.asksPotion with
  | false => rfl
  | true =>
    have hkind : c.potionKind.isSome = true := by
      rw [asksPotion, Bool.or_eq_true, Bool.or_eq_true] at hasks
      rcases hasks with (hkind | hextended) | hupgraded
      · exact hkind
      · exact hc.potionExtended_imp hextended
      · exact hc.potionUpgraded_imp hupgraded
    obtain ⟨kind, hkind⟩ := Option.isSome_iff_exists.1 hkind
    have hput : c.potionToPut? =
        some ⟨kind, c.potionExtended.getD false, c.potionUpgraded.getD false⟩ := by
      rw [potionToPut?, hkind, Option.map_some]
    rw [read?_item? hstore hc hitem hput, hkind]
    cases c.potionExtended <;> cases c.potionUpgraded <;> simp

/-- On a host that keeps effects in one of the two given ways, the item that criteria describe
matches them. -/
theorem matchesStack_item? (hstore : host.potions.IsBuiltIn) (hc : c.Describes host material) :
    ∃ item, c.item? host = some item ∧ c.matchesStack host item = true := by
  have hitem : c.item? host = some _ :=
    item?_eq hc.material_eq hc.material_ne_nil hc.material_ne_air
  have h := isDescribed_of_item? hstore hitem
  refine ⟨_, hitem, ?_⟩
  rw [matchesStack, hc.acceptsMaterial h, hc.acceptsMetadata h, hc.acceptsEnchantments h,
    acceptsPotion_item? hstore hc hitem, acceptsTags_of_isDescribed h hc.tags_apart,
    acceptsStrictly_of_isDescribed h]
  simp

/-- A long potion of swiftness with a name, lore, enchantments and tags on two levels. -/
def embellishedPotion : Criteria where
  material := some "POTION".toList
  damage := some 3
  modelData := some 7
  nameIs := some "Tonic".toList
  loreIs := some "one||two".toList
  enchantments := some (Dict.ofList [("luck".toList, .any), ("power".toList, .exact 0)])
  enchanted := true
  potionKind := some "SWIFTNESS".toList
  potionExtended := some true
  tagTexts := some (Dict.ofList [("owner..name".toList, "x".toList)])
  tagInts := some (Dict.ofList [("owner..age".toList, 3), ("tier".toList, -1)])
  strict := true

theorem describes_embellishedPotion :
    embellishedPotion.Describes ⟨.component, false⟩ "POTION".toList where
  material_eq := rfl
  material_ne_nil := by decide
  material_ne_air := by decide
  nameContains_eq := rfl
  nameStarts_eq := rfl
  loreContains_eq := rfl
  materialContains_eq := rfl
  enchantments_ne_nil := by decide
  enchanted_imp _ := rfl
  potionExtended_imp _ := rfl
  potionUpgraded_imp _ := rfl
  potion_read := by decide
  tags_apart := by decide
  tags_beside_potion _ _ := by decide

theorem matchesStack_embellishedPotion :
    embellishedPotion.Describes ⟨.component, false⟩ "POTION".toList ∧
      ∃ item, embellishedPotion.item? ⟨.component, false⟩ = some item ∧
        embellishedPotion.matchesStack ⟨.component, false⟩ item = true :=
  ⟨describes_embellishedPotion,
    matchesStack_item? PotionStore.isBuiltIn_component describes_embellishedPotion⟩

end Criteria

end InventoryQuery
