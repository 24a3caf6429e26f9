import InventoryQuery.Proofs.Inventory.Soundness
/-!
# When a saved inventory can be loaded

Writing does not look at how deep the tags of a stack are nested, but reading does: an inventory,
its slots and the stack are three levels around them already.  A sound inventory is loaded from the
text it is saved as exactly where its tags leave room for these, whatever the order of the limits
there.
-/

namespace InventoryQuery

open Json (field? field?_of_get? record?_object)

theorem Stack.field?_tags_of_ne_nil {s : Stack} (h : s.tags ≠ []) (read : Json → Option Compound) :
    field? s.members "tags".toList [] read = read s.tags.toJson := by
  obtain ⟨material, amount, damage, metadata, tags⟩ := s
  cases tags with
  | nil => exact absurd rfl h
  | cons entry entries => cases metadata <;> exact field?_of_get? rfl _ _

theorem Stack.depth_le_of_ofJson?_toJson {room : Nat} {s t : Stack} (hroom : 2 ≤ room)
    (h : ofJson? room s.toJson = some t) : s.tags.toJson.depth ≤ room - 1 := by
  by_cases htags : s.tags = []
  · rw [htags]
    show 1 ≤ room - 1
    omega
  · rw [ofJson?, toJson_eq, record?_object areFieldNames s.keys_members_sublist] at h
    simp only [Option.bind_eq_bind, Option.bind_eq_some_iff, Option.bind_some] at h
    obtain ⟨-, -, -, -, -, -, -, -, tags, hread, -⟩ := h
    rw [field?_tags_of_ne_nil htags] at hread
    unfold Compound.ofJson? at hread
    split at hread
    · next hdepth => exact hdepth
    · cases hread

namespace Inventory

variable {inv loaded : Inventory}

/-- The tags of every stack are nested to some depth at most. -/
def NestsWithin (depth : Nat) (inv : Inventory) : Prop :=
  ∀ stack, some stack ∈ inv.slots → stack.tags.toJson.depth ≤ depth

theorem exists_mem_occupied {stack : Stack} (h : some stack ∈ inv.slots) :
    ∃ slot, (slot, stack) ∈ inv.occupied := by
  obtain ⟨slot, hslot⟩ := List.mem_iff_getElem?.1 h
  refine ⟨slot, List.mem_filterMap.2 ⟨(some stack, slot), ?_, rfl⟩⟩
  exact List.mk_mem_zipIdx_iff_getElem?.2 hslot

theorem nestsWithin_of_stacksOfJson? {contents : List (Nat × Stack)}
    (h : stacksOfJson? (.object (inv.occupied.map fun entry =>
      (Numeral.digits entry.1, entry.2.toJson))) = some contents) :
    inv.NestsWithin (Json.maxDepth - 3) := by
  intro stack hstack
  obtain ⟨slot, hslot⟩ := exists_mem_occupied hstack
  obtain ⟨_, hentry⟩ := Json.exists_of_mapM h _ (List.mem_map_of_mem hslot)
  simp only [Option.bind_eq_bind, Option.bind_eq_some_iff] at hentry
  obtain ⟨-, -, t, ht, -⟩ := hentry
  exact Stack.depth_le_of_ofJson?_toJson (by decide) ht

theorem nestsWithin_of_load?_save
    (hsorted : ∀ stack, some stack ∈ inv.slots → ∃ room, stack.Storable room)
    {order : Dict.Listing UInt32} (h : load? (inv.save order) = some loaded) :
    inv.NestsWithin (Json.maxDepth - 3) := by
  rw [load?, save, (canonical_toJson_of_sorted hsorted order).read?_pretty, Option.bind_eq_bind,
    Option.bind_some, ofJson?, toJson, record?_object areFieldNames (List.Sublist.refl _)] at h
  simp only [Option.bind_eq_bind, Option.bind_eq_some_iff, Option.bind_some] at h
  obtain ⟨-, -, contents, hcontents, -⟩ := h
  rw [field?_of_get? rfl] at hcontents
  exact nestsWithin_of_stacksOfJson? hcontents

/-- A property of the stacks that are not air and have the entries of their tags in order, however
deep these are nested. -/
def IsWritable (s : Stack) : Prop := s.material ≠ air ∧ ∃ room, s.Storable room

theorem isOfItem_isWritable : IsOfItem IsWritable := fun _ _ => Iff.rfl

theorem isOfItem_storable (room : Nat) : IsOfItem (Stack.Storable room) := fun _ _ => Iff.rfl

theorem Sound.nestsWithin {room : Nat} (h : inv.Sound (Stack.Storable (room + 1))) :
    inv.NestsWithin room := by
  intro stack hstack
  obtain ⟨slot, hslot⟩ := exists_item? hstack
  exact (h.holds slot stack hslot).depth_le

/-- A sound inventory whose tags leave enough room is loaded again. -/
theorem load?_save_of_nestsWithin (h : inv.Sound IsWritable)
    (hnests : inv.NestsWithin (Json.maxDepth - 3)) (order : Dict.Listing UInt32) :
    load? (inv.save order) = some inv := by
  refine load?_save_of_storable ⟨(h.weaken fun _ hs => hs.1).valid, fun stack hstack => ?_⟩ order
  obtain ⟨slot, hslot⟩ := exists_item? hstack
  obtain ⟨-, room, hstorable⟩ := h.holds slot stack hslot
  exact ⟨hstorable.sorted, hnests stack hstack⟩

/-- A sound inventory whose tags leave too little room is not loaded again. -/
theorem load?_save_eq_none (h : inv.Sound IsWritable)
    (hdeep : ¬ inv.NestsWithin (Json.maxDepth - 3)) (order : Dict.Listing UInt32) :
    load? (inv.save order) = none := by
  rw [Option.eq_none_iff_forall_ne_some]
  intro loaded hload
  refine hdeep (nestsWithin_of_load?_save (fun stack hstack => ?_) hload)
  obtain ⟨slot, hslot⟩ := exists_item? hstack
  exact (h.holds slot stack hslot).2

theorem Storable.sound_isWritable (h : inv.Storable) : inv.Sound IsWritable :=
  { h.valid.sound with
    holds := fun slot s hs =>
      ⟨h.valid.sound.holds slot s hs, _, h.stack_storable s (mem_slots_of_item? hs)⟩ }

theorem Storable.sound_storable (h : inv.Storable) :
    inv.Sound (Stack.Storable (Json.maxDepth - 2)) :=
  { h.valid.sound with holds := fun _ s hs => h.stack_storable s (mem_slots_of_item? hs) }

end Inventory

end InventoryQuery
