import InventoryQuery.Proofs.Criteria.Item
import InventoryQuery.Proofs.Item.Coding
/-!
# How deep the tags of described items are

Writing a tag at a path makes the compounds on the way, so the tags of an item are nested as deep as
the longest path that is asked for.  Their entries are in order whatever the paths are.
-/

namespace InventoryQuery

namespace Compound

variable {c : Compound} {room : Nat} {name : Text} {tag : Tag}

theorem storable_succ_iff : c.Storable (room + 1) ↔
    Entries.Ascending c ∧ ∀ entry ∈ c, entry.2.Sorted ∧ entry.2.toJson.depth ≤ room := by
  constructor
  · intro h
    have hdepth := Tag.depth_toJson_compound_le_iff.1 h.depth_le
    cases h.sorted with
    | compound _ hascending hentries =>
      exact ⟨hascending, fun entry hentry => ⟨hentries entry hentry, hdepth entry hentry⟩⟩
  · rintro ⟨hascending, hentries⟩
    exact ⟨.compound c hascending fun entry hentry => (hentries entry hentry).1,
      Tag.depth_toJson_compound_le_iff.2 fun entry hentry => (hentries entry hentry).2⟩

namespace Storable

theorem insert (h : c.Storable (room + 1)) (htag : tag.Sorted) (hdepth : tag.toJson.depth ≤ room) :
    (c.insert name tag).Storable (room + 1) := by
  obtain ⟨hascending, hentries⟩ := storable_succ_iff.1 h
  refine storable_succ_iff.2 ⟨Entries.ascending_insert name tag hascending, fun entry hentry => ?_⟩
  rcases Entries.mem_insert hentry with rfl | hentry
  · exact ⟨htag, hdepth⟩
  · exact hentries entry hentry

theorem insert_compound {d : Compound} (h : c.Storable (room + 1)) (hd : d.Storable room) :
    (c.insert name (.compound d)).Storable (room + 1) :=
  h.insert hd.sorted hd.depth_le

/-- The compound under a name has less room. -/
theorem child (h : c.Storable (room + 1)) (hroom : 1 ≤ room) (name : Text) :
    (c.child name).Storable room := by
  unfold Compound.child
  cases hchild : c.compound? name with
  | none => exact storable_nil hroom
  | some d =>
    have hget : c.get? name = some (.compound d) := by
      unfold compound? at hchild
      split at hchild
      · next hget => rw [hget, Option.some.inj hchild]
      · cases hchild
    obtain ⟨hsorted, hdepth⟩ := (storable_succ_iff.1 h).2 _ (Entries.mem_of_get? hget)
    exact ⟨hsorted, hdepth⟩

/-- A leaf is written at names for which there is room. -/
theorem setAt {names : List Text} (h : c.Storable room) (htag : tag.Sorted)
    (hleaf : tag.toJson.depth = 0) (hnames : names.length ≤ room) :
    (c.setAt tag names).Storable room := by
  induction names generalizing c room with
  | nil => exact h
  | cons name names ih =>
    obtain ⟨room, rfl⟩ := Nat.exists_eq_add_of_le' (Nat.le_trans (Nat.le_add_left 1 _) hnames)
    have hrest : names.length ≤ room := Nat.le_of_succ_le_succ hnames
    cases names with
    | nil => exact h.insert htag (by omega)
    | cons next names =>
      have hroom : 1 ≤ room := Nat.le_trans (Nat.le_add_left 1 _) hrest
      exact h.insert_compound (ih (h.child hroom name) hrest)

theorem setPaths {entries : List (Text × Tag)} (h : c.Storable room)
    (hentries : ∀ entry ∈ entries, entry.2.Sorted ∧ entry.2.toJson.depth = 0 ∧
      (Path.segments entry.1).length ≤ room) : (c.setPaths entries).Storable room := by
  induction entries generalizing c with
  | nil => exact h
  | cons entry entries ih =>
    obtain ⟨⟨hsorted, hleaf, hlength⟩, hrest⟩ := List.forall_mem_cons.1 hentries
    exact ih (h.setAt hsorted hleaf hlength) hrest

end Storable

end Compound

/-- The number of compounds around what a host keeps at a path. -/
def Host.nesting (host : Host) (path : Text) : Nat :=
  (Path.segments path).length + if host.components then 1 else 0

namespace Criteria

variable {c : Criteria} {host : Host} {item : Stack} {room : Nat}

theorem leaf_of_mem_tagsAsked {entry : Text × Tag} (h : entry ∈ c.tagsAsked) :
    entry.2.Sorted ∧ entry.2.toJson.depth = 0 := by
  unfold tagsAsked at h
  rcases List.mem_append.1 h with h | h
  · cases htexts : c.tagTexts with
    | none =>
      rw [htexts] at h
      cases h
    | some texts =>
      rw [htexts] at h
      obtain ⟨entry, -, rfl⟩ := List.mem_map.1 h
      exact ⟨.text entry.2, rfl⟩
  · cases hints : c.tagInts with
    | none =>
      rw [hints] at h
      cases h
    | some ints =>
      rw [hints] at h
      obtain ⟨entry, -, rfl⟩ := List.mem_map.1 h
      exact ⟨.int entry.2, rfl⟩

theorem storable_brew (hstore : host.potions.IsBuiltIn) (c : Criteria) (material : Text)
    (hroom : 2 ≤ room) : (c.brew host (c.unbrewed material)).tags.Storable room := by
  have hnil : Compound.Storable room [] := Compound.storable_nil (by omega)
  have hlength : (Path.segments Potion.idPath).length ≤ room := Nat.le_trans (by decide) hroom
  rcases brew_cases hstore c (c.unbrewed material) with hbrew | ⟨p, hbrew⟩ | ⟨p, hbrew⟩
  all_goals rw [hbrew]
  · exact hnil
  · exact hnil
  · exact hnil.setAt (.text p.id) rfl hlength

theorem storable_tagsToPut {tags : Compound} (h : tags.Storable room) (hroom : 2 ≤ room)
    (hpaths : ∀ entry ∈ c.tagsAsked, host.nesting entry.1 ≤ room) :
    (c.tagsToPut host tags).Storable room := by
  unfold tagsToPut
  split
  · rw [putTags_eq, putTags_eq]
    obtain ⟨room, rfl⟩ := Nat.exists_eq_add_of_le' (Nat.le_trans (by decide : 1 ≤ 2) hroom)
    split
    · next hcomponents =>
      refine h.insert_compound ((h.child (by omega) customData).setPaths fun entry hentry => ?_)
      obtain ⟨hsorted, hleaf⟩ := leaf_of_mem_tagsAsked hentry
      have hpath := hpaths entry hentry
      rw [Host.nesting, if_pos hcomponents] at hpath
      exact ⟨hsorted, hleaf, by omega⟩
    · refine h.setPaths fun entry hentry => ?_
      obtain ⟨hsorted, hleaf⟩ := leaf_of_mem_tagsAsked hentry
      exact ⟨hsorted, hleaf, Nat.le_trans (Nat.le_add_right _ _) (hpaths entry hentry)⟩
  · exact h

/-- The tags of a described item fit where there is room for every path that is asked for, and for
the effect of a potion. -/
theorem storable_item? (hstore : host.potions.IsBuiltIn) (h : c.item? host = some item)
    (hroom : 2 ≤ room)
    (hpaths : ∀ entry ∈ c.tagsAsked, host.nesting entry.1 ≤ room) : item.tags.Storable room := by
  obtain ⟨material, -, -, rfl⟩ := exists_eq_of_item? h
  exact storable_tagsToPut (storable_brew hstore c material hroom) hroom hpaths

/-- However long the paths are, there is some room in which the item fits. -/
theorem exists_storable_item? (hstore : host.potions.IsBuiltIn) (h : c.item? host = some item) :
    ∃ room, item.tags.Storable room := by
  have hbound : ∃ room, ∀ entry ∈ c.tagsAsked, host.nesting entry.1 ≤ room := by
    induction c.tagsAsked with
    | nil => exact ⟨0, fun _ hentry => nomatch hentry⟩
    | cons entry entries ih =>
      obtain ⟨room, hroom⟩ := ih
      refine ⟨max (host.nesting entry.1) room, List.forall_mem_cons.2 ⟨Nat.le_max_left _ _, ?_⟩⟩
      exact fun other hother => Nat.le_trans (hroom other hother) (Nat.le_max_right _ _)
  obtain ⟨room, hroom⟩ := hbound
  exact ⟨room + 2, storable_item? hstore h (Nat.le_add_left 2 room) fun entry hentry =>
    Nat.le_trans (hroom entry hentry) (Nat.le_add_right room 2)⟩

end Criteria

end InventoryQuery
