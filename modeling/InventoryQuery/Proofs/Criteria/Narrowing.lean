import InventoryQuery.Proofs.Criteria.Resolving
import InventoryQuery.Proofs.Dict
/-!
# Asking for more

Criteria that ask all that others ask match no stack that the others do not match, and select and
count no more than they do.  Strictness is the exception: it forbids what is not asked for, so
whoever asks for less is stricter.
-/

namespace InventoryQuery.Criteria

/-- What is asked in one place is asked in the other. -/
def Keeps {α : Type} (asked also : Option α) : Prop := ∀ a ∈ asked, a ∈ also

/-- The entries that are asked for in one place are asked for in the other. -/
def KeepsEntries {α : Type} (asked also : Option (Dict α)) : Prop :=
  ∀ m ∈ asked, ∃ n ∈ also, m.entries ⊆ n.entries

/-- Every predicate of `c` is one of `d`.  How much is asked for and where to look are no predicates
of stacks. -/
structure PartOf (c d : Criteria) : Prop where
  material : Keeps c.material d.material
  damage : Keeps c.damage d.damage
  modelData : Keeps c.modelData d.modelData
  nameContains : Keeps c.nameContains d.nameContains
  nameStarts : Keeps c.nameStarts d.nameStarts
  nameIs : Keeps c.nameIs d.nameIs
  loreContains : Keeps c.loreContains d.loreContains
  loreIs : Keeps c.loreIs d.loreIs
  materialContains : Keeps c.materialContains d.materialContains
  enchantments : KeepsEntries c.enchantments d.enchantments
  enchanted : c.enchanted = true → d.enchanted = true
  potionKind : Keeps c.potionKind d.potionKind
  potionExtended : Keeps c.potionExtended d.potionExtended
  potionUpgraded : Keeps c.potionUpgraded d.potionUpgraded
  tagTexts : KeepsEntries c.tagTexts d.tagTexts
  tagInts : KeepsEntries c.tagInts d.tagInts

section Kept

variable {α : Type}

theorem Keeps.all {asked also : Option α} (h : Keeps asked also) {p : α → Bool}
    (hall : also.all p = true) : asked.all p = true := by
  rw [Option.all_eq_true] at hall ⊢
  exact fun a ha => hall a (h a ha)

theorem Keeps.isSome {asked also : Option α} (h : Keeps asked also) (hasked : asked.isSome = true) :
    also.isSome = true := by
  obtain ⟨a, ha⟩ := Option.isSome_iff_exists.1 hasked
  exact Option.isSome_iff_exists.2 ⟨a, h a ha⟩

theorem KeepsEntries.all {asked also : Option (Dict α)} (h : KeepsEntries asked also)
    {p : Text × α → Bool} (hall : also.all (fun n => n.entries.all p) = true) :
    asked.all (fun m => m.entries.all p) = true := by
  rw [Option.all_eq_true] at hall ⊢
  intro m hm
  obtain ⟨n, hn, hsubset⟩ := h m hm
  have hentries := hall n hn
  rw [List.all_eq_true] at hentries ⊢
  exact fun entry hentry => hentries entry (hsubset hentry)

theorem KeepsEntries.isSome {asked also : Option (Dict α)} (h : KeepsEntries asked also)
    (hasked : asked.isSome = true) : also.isSome = true := by
  obtain ⟨m, hm⟩ := Option.isSome_iff_exists.1 hasked
  obtain ⟨n, hn, -⟩ := h m hm
  exact Option.isSome_iff_exists.2 ⟨n, hn⟩

end Kept

/-! ## One group of predicates after another -/

namespace PartOf

variable {c d : Criteria} (h : c.PartOf d)

include h

theorem acceptsMaterial {s : Stack} (hd : d.acceptsMaterial s = true) :
    c.acceptsMaterial s = true := by
  simp only [Criteria.acceptsMaterial, Bool.and_eq_true] at hd ⊢
  obtain ⟨⟨hmaterial, hdamage⟩, hcontains⟩ := hd
  exact ⟨⟨h.material.all hmaterial, h.damage.all hdamage⟩, h.materialContains.all hcontains⟩

theorem acceptsName {name : Option Text} (hd : d.acceptsName name = true) :
    c.acceptsName name = true := by
  simp only [Criteria.acceptsName, Bool.and_eq_true] at hd ⊢
  obtain ⟨⟨hcontains, hstarts⟩, his⟩ := hd
  exact ⟨⟨h.nameContains.all hcontains, h.nameStarts.all hstarts⟩, h.nameIs.all his⟩

theorem acceptsLore {lore : List Text} (hd : d.acceptsLore lore = true) :
    c.acceptsLore lore = true := by
  simp only [Criteria.acceptsLore, Bool.and_eq_true] at hd ⊢
  obtain ⟨hcontains, his⟩ := hd
  exact ⟨h.loreContains.all hcontains, h.loreIs.all his⟩

theorem acceptsMetadata {m : Option Metadata} (hd : d.acceptsMetadata m = true) :
    c.acceptsMetadata m = true := by
  simp only [Criteria.acceptsMetadata, Bool.and_eq_true] at hd ⊢
  obtain ⟨⟨hmodel, hname⟩, hlore⟩ := hd
  exact ⟨⟨h.modelData.all hmodel, h.acceptsName hname⟩, h.acceptsLore hlore⟩

/-- A map that asks for nothing asks for a stack with enchantments all the same. -/
theorem acceptsEnchantments {m : Option Metadata} (hd : d.acceptsEnchantments m = true) :
    c.acceptsEnchantments m = true := by
  simp only [Criteria.acceptsEnchantments, Bool.and_eq_true] at hd ⊢
  obtain ⟨hlevels, henchanted⟩ := hd
  constructor
  · rw [Option.all_eq_true] at hlevels ⊢
    intro levels hasked
    obtain ⟨more, halso, hsubset⟩ := h.enchantments levels hasked
    obtain ⟨metadata, rfl, hmetadata⟩ := (Option.any_eq_true _ _).1 (hlevels more halso)
    rw [Bool.and_eq_true, List.all_eq_true] at hmetadata
    rw [Option.any_some, Bool.and_eq_true, List.all_eq_true]
    exact ⟨hmetadata.1, fun entry hentry => hmetadata.2 entry (hsubset hentry)⟩
  · cases hasked : c.enchanted with
    | false => rfl
    | true => rwa [h.enchanted hasked] at henchanted

theorem asksPotion (hasked : c.asksPotion = true) : d.asksPotion = true := by
  simp only [Criteria.asksPotion, Bool.or_eq_true] at hasked ⊢
  exact hasked.imp (Or.imp h.potionKind.isSome h.potionExtended.isSome) h.potionUpgraded.isSome

theorem acceptsPotion {p : Option Potion} (hd : d.acceptsPotion p = true) :
    c.acceptsPotion p = true := by
  cases hasked : c.asksPotion with
  | false => rw [Criteria.acceptsPotion, hasked]; rfl
  | true =>
    rw [Criteria.acceptsPotion, h.asksPotion hasked, Bool.not_true, Bool.false_or] at hd
    obtain ⟨potion, rfl, hpotion⟩ := (Option.any_eq_true _ _).1 hd
    simp only [Bool.and_eq_true] at hpotion
    obtain ⟨⟨hkind, hextended⟩, hupgraded⟩ := hpotion
    rw [Criteria.acceptsPotion, Option.any_some, h.potionKind.all hkind,
      h.potionExtended.all hextended, h.potionUpgraded.all hupgraded]
    exact Bool.or_true _

theorem asksTags (hasked : c.asksTags = true) : d.asksTags = true := by
  simp only [Criteria.asksTags, Bool.or_eq_true] at hasked ⊢
  exact hasked.imp h.tagTexts.isSome h.tagInts.isSome

theorem acceptsTags {root : Option Compound} (hd : d.acceptsTags root = true) :
    c.acceptsTags root = true := by
  cases hasked : c.asksTags with
  | false => rw [Criteria.acceptsTags, hasked]; rfl
  | true =>
    rw [Criteria.acceptsTags, h.asksTags hasked, Bool.not_true, Bool.false_or] at hd
    obtain ⟨tags, rfl, htags⟩ := (Option.any_eq_true _ _).1 hd
    rw [Bool.and_eq_true] at htags
    rw [Criteria.acceptsTags, Option.any_some, h.tagTexts.all htags.1, h.tagInts.all htags.2]
    exact Bool.or_true _

/-- Strict criteria with a material forbid what they do not ask for; others do not. -/
theorem matchesStack (hlenient : ¬(c.strict = true ∧ c.material.isSome = true)) {host : Host}
    {s : Stack} (hd : d.matchesStack host s = true) : c.matchesStack host s = true := by
  simp only [Criteria.matchesStack, Bool.and_eq_true] at hd ⊢
  obtain ⟨⟨⟨⟨⟨hmaterial, hmetadata⟩, henchantments⟩, hpotion⟩, htags⟩, -⟩ := hd
  refine ⟨⟨⟨⟨⟨h.acceptsMaterial hmaterial, h.acceptsMetadata hmetadata⟩,
    h.acceptsEnchantments henchantments⟩, h.acceptsPotion hpotion⟩, h.acceptsTags htags⟩, ?_⟩
  cases hstrict : c.strict with
  | false => rfl
  | true =>
    have hmaterial : c.material.isNone = true := by
      rw [← Option.not_isSome, Bool.not_eq_true']
      exact Bool.eq_false_iff.2 fun hsome => hlenient ⟨hstrict, hsome⟩
    rw [hmaterial]
    rfl

end PartOf

/-! ## What is selected -/

theorem hits_sublist {c d : Criteria} {host : Host}
    (h : ∀ s, d.matchesStack host s = true → c.matchesStack host s = true)
    (offers : List (Nat × Option Stack)) : (d.hits host offers).Sublist (c.hits host offers) := by
  induction offers with
  | nil => exact List.Sublist.refl []
  | cons offer offers ih =>
    obtain ⟨slot, cell⟩ := offer
    cases hvacant : isVacant (slot, cell) with
    | true =>
      rw [hits_vacant offers hvacant, hits_vacant offers hvacant]
      exact ih
    | false =>
      obtain ⟨s, rfl, hs⟩ := exists_of_not_isVacant hvacant
      cases hd : d.matchesStack host s with
      | true =>
        rw [hits_hit offers hs hd, hits_hit offers hs (h s hd)]
        exact ih.cons_cons (slot, s)
      | false =>
        rw [hits_miss offers hd]
        cases hc : c.matchesStack host s with
        | true =>
          rw [hits_hit offers hs hc]
          exact ih.cons (slot, s)
        | false =>
          rw [hits_miss offers hc]
          exact ih

/-- Whatever matches more is matched by less, if the less is not strict about a material; so over
the same offers the more selects some of the slots that the less selects, and counts no more.  Air
is another matter, since one vacant slot leaves nothing selected. -/
theorem matches_of_partOf (host : Host) {c d : Criteria} (h : c.PartOf d)
    (hlenient : ¬(c.strict = true ∧ c.material.isSome = true)) :
    (∀ s, d.matchesStack host s = true → c.matchesStack host s = true) ∧
    (c.material ≠ some air → d.material ≠ some air → ∀ offers,
      (d.resolve host offers).slots.Sublist (c.resolve host offers).slots ∧
      ∃ m n, (d.resolve host offers).tally = .count m ∧ (c.resolve host offers).tally = .count n ∧
        m ≤ n) := by
  have hmatch : ∀ s, d.matchesStack host s = true → c.matchesStack host s = true :=
    fun s => h.matchesStack hlenient
  refine ⟨hmatch, fun hcair hdair offers => ?_⟩
  have hhits := hits_sublist hmatch offers
  rw [resolve_of_not_asksAir hdair, resolve_of_not_asksAir hcair]
  refine ⟨hhits.map Prod.fst, _, _, rfl, rfl, ?_⟩
  have htotal := Stack.total_le_of_sublist (hhits.map Prod.snd)
  omega

/-- Enchantments of any kind, and a sharp sword that is asked for strictly: the sword is one of two
enchanted stacks. -/
theorem matches_of_partOf_sharp_sword :
    let enchanted : Criteria := { enchantments := some ∅, strict := true }
    let sharp : Criteria :=
      { material := some "SWORD".toList, enchanted := true, strict := true,
        enchantments := some (Dict.ofList [("sharpness".toList, .exact 3)]) }
    let host : Host := ⟨.metadata, false⟩
    let sword : Stack := ⟨"SWORD".toList, 1, 0,
      some { Metadata.empty with enchants := Dict.ofList [("sharpness".toList, 3)] }, []⟩
    let book : Stack := ⟨"BOOK".toList, 5, 2,
      some { Metadata.empty with storedEnchants := some (Dict.ofList [("mending".toList, 1)]) }, []⟩
    let offers := [(4, some sword), (7, none), (9, some book), (11, some (.plain "SWORD".toList 1))]
    enchanted.PartOf sharp ∧ sharp.matchesStack host sword = true ∧
      enchanted.matchesStack host sword = true ∧
      (sharp.resolve host offers).slots.Sublist [4, 9] ∧
      (sharp.resolve host offers).tally = .count 1 ∧
      (enchanted.resolve host offers).tally = .count 6 := by
  intro enchanted sharp host sword book offers
  have hpart : enchanted.PartOf sharp :=
    { material := nofun
      damage := nofun
      modelData := nofun
      nameContains := nofun
      nameStarts := nofun
      nameIs := nofun
      loreContains := nofun
      loreIs := nofun
      materialContains := nofun
      enchantments := by
        rintro m ⟨⟩
        exact ⟨_, rfl, List.nil_subset _⟩
      enchanted := nofun
      potionKind := nofun
      potionExtended := nofun
      potionUpgraded := nofun
      tagTexts := nofun
      tagInts := nofun }
  have hsword : sharp.matchesStack host sword = true := by decide
  have hslots : (enchanted.resolve host offers).slots = [4, 9] := by decide
  obtain ⟨hmatch, hselect⟩ := matches_of_partOf host hpart (by decide)
  obtain ⟨hsublist, -⟩ := hselect (by decide) (by decide) offers
  exact ⟨hpart, hsword, hmatch sword hsword, hslots ▸ hsublist, by decide, by decide⟩

end InventoryQuery.Criteria
