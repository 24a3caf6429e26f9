import InventoryQuery.Proofs.Inventory.Debit
import InventoryQuery.Proofs.Inventory.Insertion
/-!
# What remains in the slots

A stack remains in its slot when the slot still holds the same item, in the same amount or a larger
one.  Adding a stack lets everything remain and does not reach beyond the storage; debiting puts
nothing anywhere.  Neither changes the held slot or the limits.
-/

namespace InventoryQuery

/-- What the first cell holds, the second holds too, in the same amount or more. -/
def Stack.Remains (old new : Option Stack) : Prop :=
  ∀ s ∈ old, ∃ amount, s.amount ≤ amount ∧ new = some (s.withAmount amount)

namespace Stack.Remains

theorem refl (cell : Option Stack) : Remains cell cell :=
  fun s hs => ⟨s.amount, UInt32.le_refl _, hs⟩

theorem none (cell : Option Stack) : Remains .none cell := fun _ hs => nomatch hs

theorem trans {old new last : Option Stack} (h : Remains old new) (hlast : Remains new last) :
    Remains old last := by
  intro s hs
  obtain ⟨amount, hle, hnew⟩ := h s hs
  obtain ⟨more, hmore, hend⟩ := hlast _ hnew
  exact ⟨more, UInt32.le_trans hle hmore, hend⟩

theorem antisymm {old new : Option Stack} (h : Remains old new) (hback : Remains new old) :
    new = old := by
  cases old with
  | none =>
    cases new with
    | none => rfl
    | some t =>
      obtain ⟨_, -, hold⟩ := hback t rfl
      cases hold
  | some s =>
    obtain ⟨amount, hle, rfl⟩ := h s rfl
    obtain ⟨less, hless, hold⟩ := hback _ rfl
    have hamount : s.amount = less := congrArg Stack.amount (Option.some.inj hold)
    have heq : amount = s.amount := UInt32.le_antisymm (hamount ▸ hless) hle
    rw [heq]
    rfl

end Stack.Remains

namespace Inventory

open Stack (Remains)

/-- Everything in the first inventory remains in the second. -/
def Within (inv next : Inventory) : Prop :=
  ∀ slot, Remains (inv.item? slot) (next.item? slot)

/-- Two inventories differ in their stacks at most. -/
structure SameFrame (inv next : Inventory) : Prop where
  heldSlot_eq : next.heldSlot = inv.heldSlot
  limits_eq : next.limits = inv.limits
  length_eq : next.slots.length = inv.slots.length

theorem Within.refl (inv : Inventory) : inv.Within inv := fun slot => .refl (inv.item? slot)

variable {inv next last : Inventory}

theorem Within.trans (h : inv.Within next) (hlast : next.Within last) : inv.Within last :=
  fun slot => (h slot).trans (hlast slot)

theorem SameFrame.refl (inv : Inventory) : inv.SameFrame inv := ⟨rfl, rfl, rfl⟩

theorem SameFrame.trans (h : inv.SameFrame next) (hlast : next.SameFrame last) :
    inv.SameFrame last :=
  ⟨hlast.heldSlot_eq.trans h.heldSlot_eq, hlast.limits_eq.trans h.limits_eq,
    hlast.length_eq.trans h.length_eq⟩

theorem SameFrame.eq_of_within (h : inv.SameFrame next) (hnext : inv.Within next)
    (hback : next.Within inv) : next = inv :=
  eq_of_item?_eq (fun slot => (hnext slot).antisymm (hback slot)) h.heldSlot_eq h.limits_eq
    h.length_eq

/-! ## Adding -/

variable {limit : UInt32} {item : Stack}

theorem le_add_topping (limit : UInt32) (item : Stack) (left : UInt32) (s : Stack) :
    s.amount ≤ s.amount + topping limit item left s := by
  rw [UInt32.le_iff_toNat_le, toNat_add_of_lt (topping_lt_size limit item left s)]
  exact Nat.le_add_right _ _

theorem remains_topUp (left : UInt32) (cells : List (Option Stack)) (i : Nat) :
    Remains cells[i]?.join (topUp limit item left cells).1[i]?.join := by
  induction cells generalizing left i with
  | nil => exact .refl _
  | cons cell cells ih =>
    cases cell with
    | none =>
      cases i with
      | zero => exact .refl _
      | succ i => exact ih left i
    | some s =>
      rw [topUp_some]
      cases i with
      | zero => exact fun t ht => Option.some.inj ht ▸ ⟨_, le_add_topping limit item left s, rfl⟩
      | succ i => exact ih _ i

theorem remains_fill (left : UInt32) (cells : List (Option Stack)) (i : Nat) :
    Remains cells[i]?.join (fill limit item left cells).1[i]?.join := by
  induction cells generalizing left i with
  | nil => exact .refl _
  | cons cell cells ih =>
    cases cell with
    | some s =>
      cases i with
      | zero => exact .refl _
      | succ i => exact ih left i
    | none =>
      by_cases hleft : left = 0
      · rw [hleft, fill_zero]
        exact .refl _
      · rw [fill_none hleft]
        cases i with
        | zero => exact .none _
        | succ i => exact ih _ i

/-- What giving does to an inventory: everything remains, and nothing changes beyond the storage. -/
structure Fills (inv next : Inventory) : Prop where
  frame : inv.SameFrame next
  within : inv.Within next
  beyond : ∀ slot, storageSize ≤ slot → next.item? slot = inv.item? slot

theorem Fills.refl (inv : Inventory) : inv.Fills inv := ⟨.refl inv, .refl inv, fun _ _ => rfl⟩

theorem Fills.trans (h : inv.Fills next) (hlast : next.Fills last) : inv.Fills last where
  frame := h.frame.trans hlast.frame
  within := h.within.trans hlast.within
  beyond slot hslot := (hlast.beyond slot hslot).trans (h.beyond slot hslot)

theorem remains_pour (limit : UInt32) (item : Stack) (left : UInt32) (cells : List (Option Stack))
    (i : Nat) : Remains cells[i]?.join (pour limit item left cells).1[i]?.join :=
  (remains_topUp left cells i).trans (remains_fill _ _ i)

theorem fills_add (inv : Inventory) (item : Stack) : inv.Fills (inv.add item).1 := by
  rw [add_eq]
  have hremains := remains_pour (inv.limit item.material) item item.amount
    (inv.slots.take storageSize)
  have hlength := length_pour (inv.limit item.material) item item.amount
    (inv.slots.take storageSize)
  generalize (pour (inv.limit item.material) item item.amount (inv.slots.take storageSize)).1 =
    poured at hremains hlength ⊢
  have hslot : ∀ slot, inv.item? slot =
      (inv.slots.take storageSize ++ inv.slots.drop storageSize)[slot]?.join := fun slot => by
    rw [List.take_append_drop, item?]
  refine ⟨⟨rfl, rfl, ?_⟩, fun slot => ?_, fun slot hbeyond => ?_⟩
  · rw [List.length_append, hlength, ← List.length_append, List.take_append_drop]
  · rw [hslot, item?, List.getElem?_append, List.getElem?_append, hlength]
    split
    · exact hremains slot
    · exact .refl _
  · have hle : (inv.slots.take storageSize).length ≤ slot :=
      Nat.le_trans (List.length_take_le _ _) hbeyond
    rw [hslot, item?, List.getElem?_append_right hle, List.getElem?_append_right (hlength ▸ hle),
      hlength]

theorem fills_distribute (inv : Inventory) (item : Stack) (left : UInt32) :
    inv.Fills (inv.distribute item left).1 := by
  fun_induction distribute inv item left with
  | case1 inv => exact .refl inv
  | case2 inv left _ given next excess hadd _ =>
    have hnext := inv.fills_add (item.withAmount given)
    rwa [hadd] at hnext
  | case3 inv left _ given next excess hadd _ ih =>
    have hnext := inv.fills_add (item.withAmount given)
    rw [hadd] at hnext
    exact hnext.trans ih

/-! ## Debiting -/

/-- What taking does to an inventory: whatever is there afterwards was there before. -/
structure Drains (inv next : Inventory) : Prop where
  frame : inv.SameFrame next
  within : next.Within inv

theorem Drains.refl (inv : Inventory) : inv.Drains inv := ⟨.refl inv, .refl inv⟩

theorem Drains.trans (h : inv.Drains next) (hlast : next.Drains last) : inv.Drains last :=
  ⟨h.frame.trans hlast.frame, hlast.within.trans h.within⟩

theorem drains_clear (inv : Inventory) (slot : Nat) : inv.Drains (inv.clear slot) where
  frame := ⟨rfl, rfl, inv.length_slots_clear slot⟩
  within i := by
    rw [item?_clear]
    split
    · exact .none _
    · exact .refl _

theorem drains_setAmount {slot : Nat} {s : Stack} (hitem : inv.item? slot = some s)
    {amount : UInt32} (hne : amount ≠ 0) (hle : amount ≤ s.amount) :
    inv.Drains (inv.setAmount slot amount) where
  frame := ⟨inv.heldSlot_setAmount _ _, inv.limits_setAmount _ _, inv.length_slots_setAmount _ _⟩
  within i := by
    rw [item?_setAmount inv hne]
    split
    · next hslot =>
      rw [← hslot, hitem]
      exact fun t ht => Option.some.inj ht ▸ ⟨s.amount, hle, rfl⟩
    · exact .refl _

theorem drains_debit (inv : Inventory) (marked : List Nat) (left : Nat) (order : List Nat) :
    inv.Drains (inv.debit marked left order) := by
  fun_induction debit inv marked left order with
  | case1 inv => exact .refl inv
  | case2 inv => exact .refl inv
  | case3 inv left slot order _ _ _ ih => exact ih
  | case4 inv left slot order _ _ s hitem hlt =>
    have hle : s.amount - UInt32.ofNat left ≤ s.amount := by
      rw [UInt32.le_iff_toNat_le, toNat_sub_ofNat hlt]
      omega
    exact drains_setAmount hitem (sub_ofNat_ne_zero hlt) hle
  | case5 inv left slot order _ _ s _ _ ih => exact (inv.drains_clear slot).trans ih
  | case6 inv left slot order _ _ ih => exact ih

end Inventory

end InventoryQuery
