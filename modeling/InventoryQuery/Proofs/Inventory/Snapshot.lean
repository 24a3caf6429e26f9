import InventoryQuery.Proofs.Inventory.Shape
import InventoryQuery.Proofs.Item.Coding
/-!
# Saving what was loaded

Loading leaves out what an inventory cannot hold and raises limits, so not every text is the text
that its inventory is stored as.  Saving the inventory that was loaded gives a text from which the
same inventory is loaded, whatever the order of the limits there: loading makes it valid, with
stacks whose tags are in order, and such inventories are put together again from their parts.
-/

namespace InventoryQuery.Inventory

open Json (AreFieldNames record?_object canonical_record field? field?_of_get?)

/-- The inventories that can be stored: those that keep to the rules for inventories and hold stacks
that can be read where two levels of nesting are around them. -/
structure Storable (inv : Inventory) : Prop where
  valid : inv.Valid
  stack_storable : ∀ stack, some stack ∈ inv.slots → stack.Storable (Json.maxDepth - 2)

/-! ## Reading what was written -/

theorem slotOfKey?_digits {slot : Nat} (hslot : slot < UInt64.size) :
    slotOfKey? (Numeral.digits slot) = some slot := by
  rw [slotOfKey?, Numeral.ofDigits?_digits, Option.bind_eq_bind, Option.bind_some,
    Numeral.word64?_of_lt hslot, Option.bind_eq_bind, Option.bind_some, if_pos rfl]

theorem mem_occupied {inv : Inventory} {slot : Nat} {stack : Stack}
    (h : (slot, stack) ∈ inv.occupied) : slot < inv.slots.length ∧ some stack ∈ inv.slots := by
  obtain ⟨⟨cell, i⟩, hmem, hcell⟩ := List.mem_filterMap.1 h
  obtain ⟨s, rfl, hentry⟩ := Option.map_eq_some_iff.1 hcell
  obtain ⟨rfl, rfl⟩ := Prod.mk.inj hentry
  obtain ⟨-, hlt, hget⟩ := List.mem_zipIdx hmem
  refine ⟨by omega, ?_⟩
  rw [hget]
  exact List.getElem_mem _

theorem stacksOfJson?_object {contents : List (Nat × Stack)}
    (h : ∀ entry ∈ contents, entry.1 < UInt64.size ∧ entry.2.Storable (Json.maxDepth - 2)) :
    stacksOfJson? (.object (contents.map fun entry => (Numeral.digits entry.1, entry.2.toJson))) =
      some contents := by
  rw [stacksOfJson?, Json.mapM_map_eq_some]
  rintro ⟨slot, stack⟩ hentry
  obtain ⟨hslot, hstorable⟩ := h _ hentry
  have hkey := slotOfKey?_digits hslot
  have hstack := Stack.ofJson?_toJson hstorable
  simp [hkey, hstack]

theorem areFieldNames :
    AreFieldNames (["held_slot", "slots", "stack_limits"].map String.toList) := by decide

theorem canonical_digits (n : Nat) : ∃ s, Numeral.digits n = Json.spell s :=
  ⟨Numeral.digits n, (Json.spell_eq_self fun _ hc =>
    Json.isRaw_of_isDigit (Numeral.isDigit_of_mem_digits hc)).symm⟩

/-- How deep tags are nested makes no difference to how an inventory is written. -/
theorem canonical_toJson_of_sorted {inv : Inventory}
    (h : ∀ stack, some stack ∈ inv.slots → ∃ room, stack.Storable room)
    (order : Dict.Listing UInt32) : (inv.toJson order).Canonical := by
  refine canonical_record areFieldNames (List.Sublist.refl _) ?_
  simp only [List.forall_mem_cons]
  refine ⟨Json.canonical_ofNat _, ?_, ?_, by simp⟩
  · refine .object _ (fun member hmember => ?_) fun member hmember => ?_
    all_goals obtain ⟨entry, hentry, rfl⟩ := List.mem_map.1 hmember
    · exact canonical_digits entry.1
    · obtain ⟨room, hstorable⟩ := h _ (mem_occupied hentry).2
      exact Stack.canonical_toJson hstorable
  · exact Json.canonical_ofEntries (fun n => Json.canonical_ofNat n.toNat)
      (order.entries inv.limits)

namespace Storable

variable {inv : Inventory} (h : inv.Storable)

include h

theorem of_mem_occupied {entry : Nat × Stack} (hentry : entry ∈ inv.occupied) :
    entry.1 < UInt64.size ∧ entry.2.Storable (Json.maxDepth - 2) := by
  obtain ⟨hslot, hstack⟩ := mem_occupied hentry
  rw [h.valid.length_slots] at hslot
  exact ⟨Nat.lt_trans hslot (by decide), h.stack_storable _ hstack⟩

theorem canonical_toJson (order : Dict.Listing UInt32) : (inv.toJson order).Canonical :=
  canonical_toJson_of_sorted (fun stack hstack => ⟨_, h.stack_storable stack hstack⟩) order

theorem ofJson?_toJson (order : Dict.Listing UInt32) :
    ofJson? (inv.toJson order) = some (assemble inv.heldSlot inv.occupied inv.limits) := by
  have hheld : inv.heldSlot < UInt64.size :=
    Nat.lt_trans h.valid.heldSlot_lt (by decide)
  have hslot : (Json.ofNat inv.heldSlot).uint64? = some (UInt64.ofNatLT inv.heldSlot hheld) := by
    rw [Json.uint64?, Json.natural?_ofNat, Option.bind_eq_bind, Option.bind_some,
      Numeral.word64?_of_lt hheld]
  have hcontents := stacksOfJson?_object fun _ hentry => h.of_mem_occupied hentry
  have hlimits := Json.dict?_ofEntries Json.uint32?_ofNat (order.perm inv.limits)
  rw [ofJson?, toJson, record?_object areFieldNames (List.Sublist.refl _)]
  simp only [Option.bind_eq_bind, Option.bind_some]
  rw [field?_of_get? rfl, hslot, field?_of_get? rfl, hcontents, field?_of_get? rfl, hlimits]
  rfl

end Storable

/-! ## Putting an inventory together -/

theorem foldl_setLimit (entries : List (Text × UInt32)) (inv : Inventory) :
    entries.foldl (fun inv entry => inv.setLimit entry.1 entry.2) inv =
      { inv with
        limits := entries.foldl (fun m entry => m.insert entry.1 (max entry.2 1)) inv.limits } := by
  induction entries generalizing inv with
  | nil => rfl
  | cons entry entries ih => exact ih (inv.setLimit entry.1 entry.2)

/-- Limits are raised to one, and stacks are put into slots. -/
theorem assemble_eq (heldSlot : Nat) (contents : List (Nat × Stack)) (limits : Dict UInt32) :
    assemble heldSlot contents limits =
      contents.foldl (fun inv (slot, stack) => inv.put slot stack)
        (({ empty with limits := limits.map fun limit => max limit 1 } : Inventory).hold
          heldSlot) := by
  have hlimits : limits.entries.foldl (fun m entry => m.insert entry.1 (max entry.2 1))
      empty.limits = limits.map fun limit => max limit 1 :=
    Dict.foldl_insert_map (fun limit => max limit 1) limits
  rw [assemble, foldl_setLimit, hlimits]

theorem one_le_max (limit : UInt32) : 1 ≤ max limit 1 := by
  have hmax : max limit 1 = if limit ≤ 1 then 1 else limit := rfl
  rw [hmax]
  split
  · exact UInt32.le_refl 1
  · next hlt => exact UInt32.le_of_lt (UInt32.not_le.1 hlt)

theorem max_one_of_le {limit : UInt32} (h : 1 ≤ limit) : max limit 1 = limit := by
  have hmax : max limit 1 = if limit ≤ 1 then 1 else limit := rfl
  rw [hmax]
  split
  · next hle => exact UInt32.le_antisymm h hle
  · rfl

/-- The stacks of a row of cells, put into vacant slots behind what is there. -/
theorem foldl_put {cells : List (Option Stack)}
    (h : ∀ stack, some stack ∈ cells → stack.isEmpty = false) {inv : Inventory}
    {before : List (Option Stack)}
    (hslots : inv.slots = before ++ List.replicate cells.length none) :
    ((cells.zipIdx before.length).filterMap fun (cell, slot) =>
        cell.map fun stack => (slot, stack)).foldl
      (fun inv (slot, stack) => inv.put slot stack) inv =
        { inv with slots := before ++ cells } := by
  induction cells generalizing inv before with
  | nil =>
    rw [List.length_nil, List.replicate_zero] at hslots
    rw [← hslots]
    rfl
  | cons cell cells ih =>
    have hcells : ∀ stack, some stack ∈ cells → stack.isEmpty = false :=
      fun stack hstack => h stack (List.mem_cons_of_mem _ hstack)
    have hlength : before.length + 1 = (before ++ [cell]).length := by simp
    rw [List.length_cons, List.replicate_succ] at hslots
    rw [List.zipIdx_cons, hlength, List.append_cons before cell cells]
    cases cell with
    | none => exact ih hcells (by rw [hslots, List.append_cons])
    | some stack =>
      have hput : (inv.put before.length stack).slots =
          before ++ [some stack] ++ List.replicate cells.length none := by
        rw [put, h stack List.mem_cons_self, hslots, ← List.append_cons]
        simp
      exact ih hcells hput

/-- A valid inventory is put together again from its parts. -/
theorem Valid.assemble_eq_self {inv : Inventory} (h : inv.Valid) :
    assemble inv.heldSlot inv.occupied inv.limits = inv := by
  have hvacant : ({ empty with heldSlot := inv.heldSlot, limits := inv.limits } : Inventory).slots =
      [] ++ List.replicate inv.slots.length none := by
    rw [h.length_slots]
    rfl
  have hlimits : (inv.limits.map fun limit => max limit 1) = inv.limits :=
    Dict.map_eq_self fun entry hentry => max_one_of_le (h.one_le_limit entry hentry)
  rw [assemble_eq, hlimits, hold, if_pos h.heldSlot_lt]
  exact foldl_put h.not_isEmpty hvacant

/-! ## What is loaded -/

theorem mem_put {inv : Inventory} {slot : Nat} {stack s : Stack}
    (h : some s ∈ (inv.put slot stack).slots) :
    s = stack ∧ stack.isEmpty = false ∨ some s ∈ inv.slots := by
  rcases List.mem_or_eq_of_mem_set h with h | h
  · exact .inr h
  · split at h
    · cases h
    · next hempty => exact .inl ⟨Option.some.inj h, Bool.eq_false_iff.2 hempty⟩

@[simp] theorem slots_hold (inv : Inventory) (slot : Nat) : (inv.hold slot).slots = inv.slots := by
  unfold hold
  split <;> rfl

@[simp] theorem limits_hold (inv : Inventory) (slot : Nat) :
    (inv.hold slot).limits = inv.limits := by
  unfold hold
  split <;> rfl

theorem limits_foldl_put (contents : List (Nat × Stack)) (inv : Inventory) :
    (contents.foldl (fun inv (slot, stack) => inv.put slot stack) inv).limits = inv.limits := by
  induction contents generalizing inv with
  | nil => rfl
  | cons entry contents ih => exact ih (inv.put entry.1 entry.2)

/-- The stacks of an inventory that is put together are among the ones it was made of. -/
theorem mem_slots_foldl_put {contents : List (Nat × Stack)} {inv : Inventory} {s : Stack}
    (h : some s ∈ (contents.foldl (fun inv (slot, stack) => inv.put slot stack) inv).slots) :
    (∃ slot, (slot, s) ∈ contents) ∧ s.isEmpty = false ∨ some s ∈ inv.slots := by
  induction contents generalizing inv with
  | nil => exact .inr h
  | cons entry contents ih =>
    obtain ⟨slot, stack⟩ := entry
    rcases ih h with ⟨⟨i, hi⟩, hempty⟩ | h
    · exact .inl ⟨⟨i, List.mem_cons_of_mem _ hi⟩, hempty⟩
    · rcases mem_put h with ⟨rfl, hempty⟩ | h
      · exact .inl ⟨⟨slot, List.mem_cons_self⟩, hempty⟩
      · exact .inr h

theorem mem_slots_assemble {heldSlot : Nat} {contents : List (Nat × Stack)}
    {limits : Dict UInt32} {s : Stack} (h : some s ∈ (assemble heldSlot contents limits).slots) :
    (∃ slot, (slot, s) ∈ contents) ∧ s.isEmpty = false := by
  rw [assemble_eq] at h
  rcases mem_slots_foldl_put h with h | h
  · exact h
  · rw [slots_hold] at h
    exact absurd (List.eq_of_mem_replicate h) (by simp)

theorem valid_assemble (heldSlot : Nat) (contents : List (Nat × Stack)) (limits : Dict UInt32) :
    (assemble heldSlot contents limits).Valid where
  length_slots := (shaped_assemble heldSlot contents limits).length_slots
  not_isEmpty _ h := (mem_slots_assemble h).2
  heldSlot_lt := (shaped_assemble heldSlot contents limits).heldSlot_lt
  one_le_limit entry h := by
    rw [assemble_eq, limits_foldl_put, limits_hold] at h
    obtain ⟨other, -, rfl⟩ := List.mem_map.1 h
    exact one_le_max other.2

theorem storable_of_stacksOfJson? {j : Json} {contents : List (Nat × Stack)}
    (h : stacksOfJson? j = some contents) :
    ∀ entry ∈ contents, entry.2.Storable (Json.maxDepth - 2) := by
  unfold stacksOfJson? at h
  split at h
  · next members =>
    induction members generalizing contents with
    | nil =>
      obtain rfl := Option.some.inj h
      simp
    | cons member members ih =>
      simp only [List.mapM_cons, Option.bind_eq_bind, Option.bind_eq_some_iff, Option.pure_def,
        Option.some.injEq] at h
      obtain ⟨entry, ⟨slot, -, stack, hstack, rfl⟩, rest, hrest, rfl⟩ := h
      exact List.forall_mem_cons.2 ⟨Stack.storable_of_ofJson? (by decide) hstack, ih hrest⟩
  · cases h

/-- Whatever a text stores, the inventory that is loaded can be stored. -/
theorem storable_of_load? {text : Text} {inv : Inventory} (h : load? text = some inv) :
    inv.Storable := by
  simp only [load?, ofJson?, Option.bind_eq_bind, Option.bind_eq_some_iff, Option.pure_def,
    Option.some.injEq] at h
  obtain ⟨-, -, fields, -, heldSlot, -, contents, hcontents, limits, -, rfl⟩ := h
  refine ⟨valid_assemble heldSlot.toNat contents limits, fun stack hstack => ?_⟩
  obtain ⟨⟨slot, hslot⟩, -⟩ := mem_slots_assemble hstack
  unfold field? at hcontents
  split at hcontents
  · obtain rfl := Option.some.inj hcontents
    cases hslot
  · exact storable_of_stacksOfJson? hcontents _ hslot

/-! ## Saving and loading -/

theorem load?_save_of_storable {inv : Inventory} (h : inv.Storable) (order : Dict.Listing UInt32) :
    load? (inv.save order) = some inv := by
  rw [load?, save, (h.canonical_toJson order).read?_pretty, Option.bind_eq_bind, Option.bind_some,
    h.ofJson?_toJson order, h.valid.assemble_eq_self]

/-- What was loaded is loaded again from the text it is saved as, in whatever order the limits are
written there. -/
theorem load?_save {text : Text} {inv : Inventory} (h : load? text = some inv)
    (order : Dict.Listing UInt32) : load? (inv.save order) = some inv :=
  load?_save_of_storable (storable_of_load? h) order

/-- A text with a repeated key, escapes, an empty stack, a slot that does not exist, a slot that
cannot be held, a limit that leaves no room and another that does. -/
def untidyText : Text :=
  ("\x7b\"held_slot\":12,\"stack_limits\":\x7b\"EGG\":0,\"DIRT\":7\x7d,\"slots\":\x7b\"40\":\x7b"
    ++ "\"meta\":\x7b\"display_name\":\"\\n\\ud83d\\ude00é\"\x7d,\"tags\":\x7b\"z\":1,\"a\":\x7b\x7d,"
    ++ "\"z\":-2\x7d,\"material\":\"EGG\"\x7d,\"41\":[\"EGG\"],\"0\":[\"EGG\",0]\x7d\x7d").toList

/-- The inventory that the untidy text stores. -/
def untidy : Inventory where
  slots := List.replicate 40 none ++ [some {
    material := "EGG".toList
    amount := 1
    damage := 0
    metadata := some { Metadata.empty with displayName := some ['\n', '😀', 'é'] }
    tags := [("a".toList, .compound []), ("z".toList, .int (-2))] }]
  heldSlot := 0
  limits := Dict.ofList [("EGG".toList, 1), ("DIRT".toList, 7)]

/-- The limits of the untidy inventory may be written in two orders, which give different texts. -/
theorem load?_save_untidy :
    let descending : Dict.Listing UInt32 :=
      ⟨fun m => m.entries.reverse, fun m => m.entries.reverse_perm⟩
    load? untidyText = some untidy ∧ untidy.save descending ≠ untidy.save .ascending ∧
      load? (untidy.save descending) = some untidy := by
  intro descending
  have hload : load? untidyText = some untidy := by decide +kernel
  have hne : untidy.save descending ≠ untidy.save .ascending := by decide +kernel
  exact ⟨hload, hne, load?_save hload descending⟩

end InventoryQuery.Inventory
