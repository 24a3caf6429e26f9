import InventoryQuery.Proofs.Inventory.Remaining
import InventoryQuery.Proofs.Inventory.Soundness
/-!
# Where an added stack goes

A stack that is added tops up the stacks of its item in the storage and then goes into vacant slots,
up to the limit in each, as much of it as there is room for.  Nothing else changes.  All the sums
and differences of the two passes stay within the words, also where a slot holds more than the
limit.
-/

namespace InventoryQuery.Inventory

variable {limit : UInt32} {item : Stack}

/-! ## Words -/

/-- A sum, unless it overflows. -/
def sum? (a b : UInt32) : Option UInt32 :=
  if a.toNat + b.toNat < UInt32.size then some (a + b) else none

/-- A difference, unless it underflows. -/
def difference? (a b : UInt32) : Option UInt32 := if b ≤ a then some (a - b) else none

/-- The units that a stack is topped up by, which fails where a word underflows. -/
def topping? (limit : UInt32) (item : Stack) (left : UInt32) (s : Stack) : Option UInt32 :=
  if s.isSimilar item ∧ s.amount < limit then (difference? limit s.amount).map (min left)
  else some 0

/-- The first pass, which fails where a word overflows or underflows. -/
def topUp? (limit : UInt32) (item : Stack) :
    UInt32 → List (Option Stack) → Option (List (Option Stack) × UInt32)
  | left, [] => some ([], left)
  | left, none :: cells => do
    let done ← topUp? limit item left cells
    return (none :: done.1, done.2)
  | left, some s :: cells => do
    let moved ← topping? limit item left s
    let amount ← sum? s.amount moved
    let rest ← difference? left moved
    let done ← topUp? limit item rest cells
    return (some (s.withAmount amount) :: done.1, done.2)

/-- The second pass, which fails where a word underflows. -/
def fill? (limit : UInt32) (item : Stack) :
    UInt32 → List (Option Stack) → Option (List (Option Stack) × UInt32)
  | left, [] => some ([], left)
  | left, some s :: cells => do
    let done ← fill? limit item left cells
    return (some s :: done.1, done.2)
  | left, none :: cells =>
    if left = 0 then some (none :: cells, left)
    else do
      let rest ← difference? left (min left limit)
      let done ← fill? limit item rest cells
      return (some (item.withAmount (min left limit)) :: done.1, done.2)

/-- Adds a stack, which fails where a word overflows or underflows. -/
def add? (inv : Inventory) (stack : Stack) : Option (Inventory × UInt32) := do
  let limit := inv.limit stack.material
  let topped ← topUp? limit stack stack.amount (inv.slots.take storageSize)
  let filled ← fill? limit stack topped.2 topped.1
  return ({ inv with slots := filled.1 ++ inv.slots.drop storageSize }, filled.2)

theorem difference?_of_le {a b : UInt32} (h : b ≤ a) : difference? a b = some (a - b) := if_pos h

theorem topping?_eq (limit : UInt32) (item : Stack) (left : UInt32) (s : Stack) :
    topping? limit item left s = some (topping limit item left s) := by
  unfold topping? topping
  split
  · next h => rw [difference?_of_le (UInt32.le_of_lt h.2), Option.map_some]
  · rfl

theorem sum?_topping (limit : UInt32) (item : Stack) (left : UInt32) (s : Stack) :
    sum? s.amount (topping limit item left s) = some (s.amount + topping limit item left s) :=
  if_pos (topping_lt_size limit item left s)

theorem topUp?_eq (limit : UInt32) (item : Stack) (left : UInt32) (cells : List (Option Stack)) :
    topUp? limit item left cells = some (topUp limit item left cells) := by
  induction cells generalizing left with
  | nil => rfl
  | cons cell cells ih =>
    cases cell with
    | none =>
      rw [topUp?, ih]
      rfl
    | some s =>
      rw [topUp?, topUp_some]
      simp only [bind, Option.bind, topping?_eq, sum?_topping,
        difference?_of_le (topping_le limit item left s), ih, pure]

theorem fill?_eq (limit : UInt32) (item : Stack) (left : UInt32) (cells : List (Option Stack)) :
    fill? limit item left cells = some (fill limit item left cells) := by
  induction cells generalizing left with
  | nil => rfl
  | cons cell cells ih =>
    cases cell with
    | some s =>
      rw [fill?, ih]
      rfl
    | none =>
      by_cases hleft : left = 0
      · rw [hleft, fill_zero]
        exact if_pos rfl
      · rw [fill?, if_neg hleft, fill_none hleft]
        simp only [bind, Option.bind, difference?_of_le Std.min_le_left, ih, pure]

/-- No word overflows or underflows. -/
theorem add?_eq (inv : Inventory) (stack : Stack) : inv.add? stack = some (inv.add stack) := by
  rw [add?, topUp?_eq]
  simp only [bind, Option.bind, fill?_eq, pure, add_eq, pour]

/-! ## Vacant slots -/

theorem topUp_vacant (left : UInt32) (cells : List (Option Stack)) {i : Nat}
    (h : cells[i]?.join = none) : (topUp limit item left cells).1[i]?.join = none := by
  induction cells generalizing left i with
  | nil => exact h
  | cons cell cells ih =>
    cases i with
    | zero =>
      cases cell with
      | none => rfl
      | some s => cases h
    | succ i =>
      cases cell with
      | none => exact ih left h
      | some s => exact ih _ h

/-- A vacant cell stays vacant, or every cell with the item holds the limit. -/
theorem vacant_or_full_pour (limit : UInt32) (item : Stack) (left : UInt32)
    (cells : List (Option Stack)) {i : Nat} (hvacant : cells[i]?.join = none) :
    (pour limit item left cells).1[i]?.join = none ∨
      ∀ (j : Nat) s, cells[j]?.join = some s → s.isSimilar item = true →
        ∃ amount, limit ≤ amount ∧
          (pour limit item left cells).1[j]?.join = some (item.withAmount amount) := by
  unfold pour
  rcases full_topUp limit item left cells with hzero | hfull
  · -- Nothing is left for the second pass.
    rw [hzero, fill_zero]
    exact .inl (topUp_vacant left cells hvacant)
  · refine .inr fun j s hs hsimilar => ?_
    obtain ⟨amount, -, htopped⟩ := remains_topUp left cells j s hs
    obtain ⟨more, hmore, hfilled⟩ := remains_fill _ (topUp limit item left cells).1 j _ htopped
    have hroom := hfull _ (List.mem_of_getElem? (Option.join_eq_some_iff.1 htopped))
    have hsame : s.withAmount amount = item.withAmount amount := by
      rw [Stack.isSimilar_iff.1 hsimilar]
      rfl
    rw [hsame] at hroom hfilled hmore
    rw [roomIn, if_pos (Stack.isSimilar_withAmount item amount), Stack.amount_withAmount] at hroom
    refine ⟨more, ?_, hfilled⟩
    rw [UInt32.le_iff_toNat_le, Stack.amount_withAmount] at hmore
    rw [UInt32.le_iff_toNat_le]
    omega

/-! ## The storage -/

/-- The amount in stacks of an item in the storage. -/
def stored (inv : Inventory) (item : Stack) : Nat :=
  ((inv.slots.take storageSize).map (amountOf fun s => s.isSimilar item)).sum

theorem isKind_isSimilar (item : Stack) : IsKind fun s => s.isSimilar item := by
  intro s t h
  rw [Stack.isSimilar_iff.1 h]
  rfl

theorem item?_of_lt (inv : Inventory) {slot : Nat} (h : slot < storageSize) :
    inv.item? slot = (inv.slots.take storageSize)[slot]?.join := by
  rw [item?, List.getElem?_take_of_lt h]

theorem take_slots_add {inv : Inventory} (hinv : inv.Shaped) (item : Stack) :
    (inv.add item).1.slots.take storageSize =
      (pour (inv.limit item.material) item item.amount (inv.slots.take storageSize)).1 := by
  rw [add_eq]
  refine List.take_left' ?_
  rw [length_pour, List.length_take, hinv.length_slots]
  rfl

theorem stored_add {inv : Inventory} (hinv : inv.Shaped) (hlimit : inv.limit item.material ≠ 0) :
    (inv.add item).1.stored item + (inv.add item).2.toNat =
      inv.stored item + item.amount.toNat := by
  have hpoured := (poured_pour item hlimit item.amount (inv.slots.take storageSize)).amountOf_eq _
    (isKind_isSimilar item)
  have hself : item.isSimilar item = true := Stack.isSimilar_iff.2 rfl
  rw [if_pos hself, if_pos hself] at hpoured
  rw [stored, take_slots_add hinv]
  exact hpoured

/-- A vacant slot is used only where the stacks of the item are full. -/
theorem full_of_filled {inv : Inventory} (hinv : inv.Shaped) {slot other : Nat} {s : Stack}
    (hvacant : inv.item? slot = none) (hfilled : (inv.add item).1.item? slot ≠ none)
    (hother : other < storageSize) (hs : inv.item? other = some s)
    (hsimilar : s.isSimilar item = true) :
    ∃ amount, inv.limit item.material ≤ amount ∧
      (inv.add item).1.item? other = some (item.withAmount amount) := by
  have hslot : slot < storageSize := by
    by_contra hbeyond
    exact hfilled (((inv.fills_add item).beyond slot (Nat.le_of_not_lt hbeyond)).trans hvacant)
  rw [item?_of_lt _ hslot] at hvacant
  rw [item?_of_lt _ hslot, take_slots_add hinv] at hfilled
  rw [item?_of_lt _ hother] at hs
  rw [item?_of_lt _ hother, take_slots_add hinv]
  exact (vacant_or_full_pour _ _ _ _ hvacant).resolve_left hfilled other s hs hsimilar

/-! ## The whole inventory -/

/-- A stack was put where it belongs, and some of it is left over. -/
structure Placed (inv : Inventory) (item : Stack) (next : Inventory) (left : UInt32) : Prop where
  /-- As much as there is room for is put in. -/
  left_eq : left.toNat = item.amount.toNat - min item.amount.toNat (inv.room item)
  stored_eq : next.stored item = inv.stored item + (item.amount.toNat - left.toNat)
  /-- A slot that is written to holds the item, up to the limit. -/
  kept_or_filled : ∀ slot, next.item? slot = inv.item? slot ∨
    ∃ amount, amount ≠ 0 ∧ amount ≤ inv.limit item.material ∧
      next.item? slot = some (item.withAmount amount)
  /-- Where a vacant slot is used, every stack of the item in the storage has the limit at least. -/
  full_of_filled : ∀ slot, inv.item? slot = none → next.item? slot ≠ none →
    ∀ other < storageSize, ∀ s, inv.item? other = some s → s.isSimilar item = true →
      ∃ amount, inv.limit item.material ≤ amount ∧
        next.item? other = some (item.withAmount amount)
  others_kept : ∀ slot s, inv.item? slot = some s → s.isSimilar item = false →
    next.item? slot = some s
  beyond_kept : ∀ slot, storageSize ≤ slot → next.item? slot = inv.item? slot
  heldSlot_eq : next.heldSlot = inv.heldSlot
  limits_eq : next.limits = inv.limits

theorem Added.left_eq {inv next : Inventory} {units left : Nat}
    (h : inv.Added item units next left) : left = units - min units (inv.room item) := by
  have hroom := h.room_eq
  have hle := h.left_le
  rcases h.full with hzero | hfull
  · omega
  · omega

/-- Adding a stack places as much of it as fits and nothing else, and no word overflows or
underflows on the way. -/
theorem placed_add {inv : Inventory} (hinv : inv.Shaped)
    (hlimits : ∀ entry ∈ inv.limits.entries, 1 ≤ entry.2) (stack : Stack) :
    inv.add? stack = some (inv.add stack) ∧
      inv.Placed stack (inv.add stack).1 (inv.add stack).2 := by
  have hlimit := limit_ne_zero hlimits stack.material
  have hadded : inv.Added stack stack.amount.toNat (inv.add stack).1 (inv.add stack).2.toNat :=
    added_add hinv hlimit
  refine ⟨inv.add?_eq stack, ?_⟩
  exact
    { left_eq := hadded.left_eq
      stored_eq := by
        have hstored := stored_add hinv hlimit
        have hle := hadded.left_le
        omega
      kept_or_filled := fun slot => (hadded.grows slot).imp id fun h => h.2
      full_of_filled := fun _ hvacant hfilled _ hother _ hs hsimilar =>
        full_of_filled hinv hvacant hfilled hother hs hsimilar
      others_kept := fun slot s hs hother => by
        rcases hadded.grows slot with hkept | ⟨hsimilar, -⟩
        · exact hkept.trans hs
        · exact absurd (hsimilar s hs) (Bool.eq_false_iff.1 hother)
      beyond_kept := (inv.fills_add stack).beyond
      heldSlot_eq := hadded.heldSlot_eq
      limits_eq := hadded.limits_eq }

/-- Dirt in the storage beyond the limit and below it: the second is topped up, and the rest goes
into all the other slots. -/
theorem placed_add_scattered :
    let inv := (scattered.put 1 (.plain "DIRT".toList 20)).setLimit "DIRT".toList 16
    let stack := Stack.plain "DIRT".toList 600
    inv.add? stack = some (inv.add stack) ∧ inv.room stack = 555 ∧ (inv.add stack).2 = 45 ∧
      inv.stored stack = 25 ∧ (inv.add stack).1.stored stack = 580 ∧
      (inv.add stack).1.item? 39 = some (.plain "DIRT".toList 1) := by
  intro inv stack
  have hinv : inv.Shaped := (shaped_scattered.put 1 _).setLimit "DIRT".toList 16
  have hlimits : ∀ entry ∈ inv.limits.entries, 1 ≤ entry.2 := by decide
  obtain ⟨hwords, hplaced⟩ := placed_add hinv hlimits stack
  have hroom : inv.room stack = 555 := by decide
  have hamount : stack.amount.toNat = 600 := rfl
  have hleft : (inv.add stack).2.toNat = 45 := by
    rw [hplaced.left_eq, hroom, hamount]
    rfl
  have hstored : inv.stored stack = 25 := by decide
  have hnext := hplaced.stored_eq
  rw [hstored, hleft, hamount] at hnext
  exact ⟨hwords, hroom, UInt32.toNat_inj.1 hleft, hstored, hnext,
    hplaced.beyond_kept 39 (by decide)⟩

end InventoryQuery.Inventory
