import InventoryQuery.Inventory.Insertion
import InventoryQuery.Proofs.Inventory.Shape
import Mathlib.Algebra.Order.Ring.Nat
/-!
# What adding an item comes to

An item goes into stacks of the same item and into vacant slots, up to the limit in each.  What goes
in is found again in the amounts of every kind that the item is of, and takes up the room that was
left for it; nothing is left over as long as there is room.
-/

namespace InventoryQuery

theorem toNat_min (a b : UInt32) : (min a b).toNat = min a.toNat b.toNat := by
  have hmin : min a b = if a ≤ b then a else b := rfl
  rw [hmin]
  split
  · next hle => rw [Nat.min_eq_left (UInt32.le_iff_toNat_le.1 hle)]
  · next hlt =>
    rw [UInt32.not_le, UInt32.lt_iff_toNat_lt] at hlt
    rw [Nat.min_eq_right (Nat.le_of_lt hlt)]

theorem toNat_add_of_lt {a b : UInt32} (h : a.toNat + b.toNat < UInt32.size) :
    (a + b).toNat = a.toNat + b.toNat := by
  rw [UInt32.toNat_add, Nat.mod_eq_of_lt h]

theorem Stack.isSimilar_iff {s t : Stack} : s.isSimilar t = true ↔ s = t.withAmount s.amount := by
  obtain ⟨material, amount, damage, metadata, tags⟩ := s
  simp [isSimilar, withAmount, and_assoc]

theorem Stack.isSimilar_withAmount (s : Stack) (amount : UInt32) :
    (s.withAmount amount).isSimilar s = true := by
  rw [isSimilar_iff]
  rfl

namespace Inventory

/-- Whether stacks of the same item are of the kind alike. -/
def IsKind (kind : Stack → Bool) : Prop := ∀ s t, s.isSimilar t = true → kind s = kind t

/-- The amount in a cell, if its stack is of the kind. -/
def amountOf (kind : Stack → Bool) : Option Stack → Nat
  | none => 0
  | some s => if kind s then s.amount.toNat else 0

/-- The amount of an item that still fits into a cell. -/
def roomIn (limit : UInt32) (item : Stack) : Option Stack → Nat
  | none => limit.toNat
  | some s => if s.isSimilar item then limit.toNat - s.amount.toNat else 0

/-! ## One cell -/

/-- A cell is kept, or it held nothing else and holds the item up to the limit. -/
def Grows (limit : UInt32) (item : Stack) (old new : Option Stack) : Prop :=
  new = old ∨ (∀ s ∈ old, s.isSimilar item = true) ∧
    ∃ amount, amount ≠ 0 ∧ amount ≤ limit ∧ new = some (item.withAmount amount)

theorem Grows.trans {limit : UInt32} {item : Stack} {old new last : Option Stack}
    (h : Grows limit item old new) (hlast : Grows limit item new last) :
    Grows limit item old last := by
  rcases h with rfl | ⟨hold, hfilled⟩
  · exact hlast
  · rcases hlast with rfl | ⟨-, hnew⟩
    · exact .inr ⟨hold, hfilled⟩
    · exact .inr ⟨hold, hnew⟩

/-- A cell takes on some units of an item. -/
structure Gains (limit : UInt32) (item : Stack) (old new : Option Stack) (units : Nat) : Prop where
  grows : Grows limit item old new
  amountOf_eq : ∀ kind, IsKind kind →
    amountOf kind new = amountOf kind old + if kind item then units else 0
  roomIn_eq : roomIn limit item new + units = roomIn limit item old

variable {limit : UInt32} {item : Stack}

theorem Gains.refl (cell : Option Stack) : Gains limit item cell cell 0 :=
  ⟨.inl rfl, fun _ _ => by simp, Nat.add_zero _⟩

theorem gains_filled {moved : UInt32} (hmoved : moved ≠ 0) (hle : moved ≤ limit) :
    Gains limit item none (some (item.withAmount moved)) moved.toNat where
  grows := .inr ⟨fun _ h => absurd h (by simp), moved, hmoved, hle, rfl⟩
  amountOf_eq kind hkind := by
    rw [amountOf, amountOf, Nat.zero_add, hkind _ item (Stack.isSimilar_withAmount item moved)]
    rfl
  roomIn_eq := by
    have hleNat := UInt32.le_iff_toNat_le.1 hle
    rw [roomIn, roomIn, if_pos (Stack.isSimilar_withAmount item moved), Stack.amount_withAmount]
    omega

theorem gains_topped {s : Stack} (hsimilar : s.isSimilar item = true) {moved : UInt32}
    (hmoved : moved ≠ 0) (hle : s.amount.toNat + moved.toNat ≤ limit.toNat) :
    Gains limit item (some s) (some (s.withAmount (s.amount + moved))) moved.toNat := by
  have hsum : (s.amount + moved).toNat = s.amount.toNat + moved.toNat :=
    toNat_add_of_lt (Nat.lt_of_le_of_lt hle limit.toNat_lt)
  have hpos : 0 < moved.toNat :=
    Nat.pos_of_ne_zero fun hzero => hmoved (UInt32.toNat_inj.1 hzero)
  have hnew : s.withAmount (s.amount + moved) = item.withAmount (s.amount + moved) := by
    rw [Stack.isSimilar_iff.1 hsimilar]
    rfl
  have hsimilarNew := Stack.isSimilar_withAmount item (s.amount + moved)
  have hne : s.amount + moved ≠ 0 := by
    intro hzero
    rw [hzero, UInt32.toNat_zero] at hsum
    omega
  have hsumLe : s.amount + moved ≤ limit := by
    rw [UInt32.le_iff_toNat_le, hsum]
    exact hle
  rw [hnew]
  refine ⟨.inr ⟨fun t ht => Option.some.inj ht ▸ hsimilar, _, hne, hsumLe, rfl⟩,
    fun kind hkind => ?_, ?_⟩
  · rw [amountOf, amountOf, hkind s item hsimilar, hkind _ item hsimilarNew,
      Stack.amount_withAmount, hsum]
    split <;> rfl
  · rw [roomIn, roomIn, if_pos hsimilar, if_pos hsimilarNew, Stack.amount_withAmount, hsum]
    omega

/-! ## Rows of cells -/

/-- Some units of an item are poured into a row of cells, and the rest is left. -/
structure Poured (limit : UInt32) (item : Stack) (cells : List (Option Stack)) (units : Nat)
    (next : List (Option Stack)) (left : Nat) : Prop where
  length_eq : next.length = cells.length
  grows : ∀ i : Nat, Grows limit item cells[i]?.join next[i]?.join
  amountOf_eq : ∀ kind, IsKind kind →
    (next.map (amountOf kind)).sum + (if kind item then left else 0) =
      (cells.map (amountOf kind)).sum + if kind item then units else 0
  roomIn_eq : (next.map (roomIn limit item)).sum + units =
    (cells.map (roomIn limit item)).sum + left
  left_le : left ≤ units

variable {cells next : List (Option Stack)} {units left : Nat}

theorem Poured.refl (cells : List (Option Stack)) (units : Nat) :
    Poured limit item cells units cells units :=
  ⟨rfl, fun _ => .inl rfl, fun _ _ => rfl, rfl, Nat.le_refl _⟩

theorem Poured.cons {old new : Option Stack} {moved : Nat} (hhead : Gains limit item old new moved)
    (htail : Poured limit item cells units next left) :
    Poured limit item (old :: cells) (moved + units) (new :: next) left where
  length_eq := congrArg (· + 1) htail.length_eq
  grows i := by
    cases i with
    | zero => exact hhead.grows
    | succ i => exact htail.grows i
  amountOf_eq kind hkind := by
    have hnew := hhead.amountOf_eq kind hkind
    have hnext := htail.amountOf_eq kind hkind
    rw [List.map_cons, List.sum_cons, List.map_cons, List.sum_cons, ite_add_zero]
    omega
  roomIn_eq := by
    have hnew := hhead.roomIn_eq
    have hnext := htail.roomIn_eq
    simp only [List.map_cons, List.sum_cons]
    omega
  left_le := Nat.le_trans htail.left_le (Nat.le_add_left _ _)

/-! ## The first pass -/

/-- The units that a stack is topped up by. -/
def topping (limit : UInt32) (item : Stack) (left : UInt32) (s : Stack) : UInt32 :=
  if s.isSimilar item ∧ s.amount < limit then min left (limit - s.amount) else 0

theorem topUp_some (left : UInt32) (s : Stack) (cells : List (Option Stack)) :
    topUp limit item left (some s :: cells) =
      (some (s.withAmount (s.amount + topping limit item left s)) ::
          (topUp limit item (left - topping limit item left s) cells).1,
        (topUp limit item (left - topping limit item left s) cells).2) := rfl

theorem topping_le (limit : UInt32) (item : Stack) (left : UInt32) (s : Stack) :
    topping limit item left s ≤ left := by
  unfold topping
  split
  · exact Std.min_le_left
  · exact UInt32.zero_le

theorem toNat_topping {s : Stack} (hsimilar : s.isSimilar item = true) (limit left : UInt32) :
    (topping limit item left s).toNat = min left.toNat (limit.toNat - s.amount.toNat) := by
  unfold topping
  split
  · next h =>
    rw [toNat_min, UInt32.toNat_sub_of_le _ _ (UInt32.le_of_lt h.2)]
  · next h =>
    have hfull : limit.toNat ≤ s.amount.toNat :=
      UInt32.le_iff_toNat_le.1 (UInt32.not_lt.1 fun hlt => h ⟨hsimilar, hlt⟩)
    rw [UInt32.toNat_zero]
    omega

/-- Topping up does not overflow, also where a stack holds more than the limit. -/
theorem topping_lt_size (limit : UInt32) (item : Stack) (left : UInt32) (s : Stack) :
    s.amount.toNat + (topping limit item left s).toNat < UInt32.size := by
  have hamount := s.amount.toNat_lt
  have hlimit := limit.toNat_lt
  by_cases hsimilar : s.isSimilar item = true
  · have htopping := toNat_topping hsimilar limit left
    simp only [UInt32.size]
    omega
  · have hzero : topping limit item left s = 0 := if_neg fun h => hsimilar h.1
    rw [hzero, UInt32.toNat_zero]
    exact hamount

theorem gains_topping (limit : UInt32) (item : Stack) (left : UInt32) (s : Stack) :
    Gains limit item (some s) (some (s.withAmount (s.amount + topping limit item left s)))
      (topping limit item left s).toNat := by
  by_cases hzero : topping limit item left s = 0
  · rw [hzero, UInt32.add_zero]
    exact .refl _
  · have hsimilar : s.isSimilar item = true := by
      by_contra hnot
      exact hzero (if_neg fun h => hnot h.1)
    have hmoved := toNat_topping hsimilar limit left
    have hpos : 0 < (topping limit item left s).toNat :=
      Nat.pos_of_ne_zero fun h => hzero (UInt32.toNat_inj.1 h)
    exact gains_topped hsimilar hzero (by omega)

theorem poured_topUp (limit : UInt32) (item : Stack) (left : UInt32)
    (cells : List (Option Stack)) :
    Poured limit item cells left.toNat (topUp limit item left cells).1
      (topUp limit item left cells).2.toNat := by
  induction cells generalizing left with
  | nil => exact .refl _ _
  | cons cell cells ih =>
    cases cell with
    | none =>
      have hpoured := (ih left).cons (.refl none)
      rwa [Nat.zero_add] at hpoured
    | some s =>
      have hle := topping_le limit item left s
      have hsplit : (topping limit item left s).toNat + (left - topping limit item left s).toNat =
          left.toNat := by
        rw [UInt32.toNat_sub_of_le _ _ hle]
        have hleNat := UInt32.le_iff_toNat_le.1 hle
        omega
      have hpoured := (ih (left - topping limit item left s)).cons (gains_topping limit item left s)
      rwa [hsplit] at hpoured

theorem Poured.trans {last : List (Option Stack)} {rest : Nat}
    (h : Poured limit item cells units next left) (hlast : Poured limit item next left last rest) :
    Poured limit item cells units last rest where
  length_eq := hlast.length_eq.trans h.length_eq
  grows i := (h.grows i).trans (hlast.grows i)
  amountOf_eq kind hkind := by
    have hnext := h.amountOf_eq kind hkind
    have hend := hlast.amountOf_eq kind hkind
    omega
  roomIn_eq := by
    have hnext := h.roomIn_eq
    have hend := hlast.roomIn_eq
    omega
  left_le := Nat.le_trans hlast.left_le h.left_le

theorem Poured.append (h : Poured limit item cells units next left)
    (others : List (Option Stack)) :
    Poured limit item (cells ++ others) units (next ++ others) left where
  length_eq := by rw [List.length_append, List.length_append, h.length_eq]
  grows i := by
    rw [List.getElem?_append, List.getElem?_append, h.length_eq]
    split
    · exact h.grows i
    · exact .inl rfl
  amountOf_eq kind hkind := by
    have hnext := h.amountOf_eq kind hkind
    simp only [List.map_append, List.sum_append]
    omega
  roomIn_eq := by
    have hnext := h.roomIn_eq
    simp only [List.map_append, List.sum_append]
    omega
  left_le := h.left_le

theorem Poured.eq_zero {left : UInt32}
    (h : Poured limit item cells (0 : UInt32).toNat next left.toNat) : left = 0 :=
  UInt32.toNat_inj.1 (Nat.le_zero.1 h.left_le)

/-- All that is left goes into a stack, or the stack is full. -/
theorem topping_eq_or_full (limit : UInt32) (item : Stack) (left : UInt32) (s : Stack) :
    topping limit item left s = left ∨
      roomIn limit item (some (s.withAmount (s.amount + topping limit item left s))) = 0 := by
  have hroom := (gains_topping limit item left s).roomIn_eq
  by_cases hsimilar : s.isSimilar item = true
  · have hmoved := toNat_topping hsimilar limit left
    rw [roomIn.eq_def limit item (some s)] at hroom
    simp only [hsimilar, if_true] at hroom
    by_cases hle : left.toNat ≤ limit.toNat - s.amount.toNat
    · exact .inl (UInt32.toNat_inj.1 (by omega))
    · exact .inr (by omega)
  · have hold : roomIn limit item (some s) = 0 := if_neg hsimilar
    exact .inr (by omega)

/-- Nothing is left, or every stack is full. -/
theorem full_topUp (limit : UInt32) (item : Stack) (left : UInt32)
    (cells : List (Option Stack)) :
    (topUp limit item left cells).2 = 0 ∨
      ∀ s, some s ∈ (topUp limit item left cells).1 → roomIn limit item (some s) = 0 := by
  induction cells generalizing left with
  | nil => exact .inr fun s h => absurd h List.not_mem_nil
  | cons cell cells ih =>
    cases cell with
    | none =>
      refine (ih left).imp id fun hfull s hs => ?_
      rcases List.mem_cons.1 hs with hs | hs
      · cases hs
      · exact hfull s hs
    | some s =>
      rw [topUp_some]
      rcases topping_eq_or_full limit item left s with hall | hfull
      · rw [hall, UInt32.sub_self]
        exact .inl (poured_topUp limit item 0 cells).eq_zero
      · refine (ih _).imp id fun hrest t ht => ?_
        rcases List.mem_cons.1 ht with ht | ht
        · rw [ht]
          exact hfull
        · exact hrest t ht

/-! ## The second pass -/

theorem fill_zero (cells : List (Option Stack)) : fill limit item 0 cells = (cells, 0) := by
  induction cells with
  | nil => rfl
  | cons cell cells ih =>
    cases cell with
    | none => exact if_pos rfl
    | some s => rw [fill, ih]

theorem fill_none {left : UInt32} (hleft : left ≠ 0) (cells : List (Option Stack)) :
    fill limit item left (none :: cells) =
      (some (item.withAmount (min left limit)) :: (fill limit item (left - min left limit) cells).1,
        (fill limit item (left - min left limit) cells).2) :=
  if_neg hleft

theorem poured_fill (item : Stack) (hlimit : limit ≠ 0) (left : UInt32)
    (cells : List (Option Stack)) :
    Poured limit item cells left.toNat (fill limit item left cells).1
      (fill limit item left cells).2.toNat := by
  induction cells generalizing left with
  | nil => exact .refl _ _
  | cons cell cells ih =>
    cases cell with
    | some s =>
      have hpoured := (ih left).cons (.refl (some s))
      rwa [Nat.zero_add] at hpoured
    | none =>
      by_cases hleft : left = 0
      · rw [hleft, fill_zero]
        exact .refl _ _
      · have hmin := toNat_min left limit
        have hmoved : min left limit ≠ 0 := by
          intro hzero
          rw [hzero, UInt32.toNat_zero] at hmin
          have hleftNat : left.toNat ≠ 0 := fun h => hleft (UInt32.toNat_inj.1 h)
          have hlimitNat : limit.toNat ≠ 0 := fun h => hlimit (UInt32.toNat_inj.1 h)
          omega
        have hle : min left limit ≤ limit := Std.min_le_right
        have hsplit : (min left limit).toNat + (left - min left limit).toNat = left.toNat := by
          rw [UInt32.toNat_sub_of_le _ _ Std.min_le_left]
          omega
        have hpoured := (ih (left - min left limit)).cons (gains_filled hmoved hle)
        rw [fill_none hleft]
        rwa [hsplit] at hpoured

theorem roomIn_withAmount (limit : UInt32) (item : Stack) :
    roomIn limit item (some (item.withAmount limit)) = 0 := by
  rw [roomIn, if_pos (Stack.isSimilar_withAmount item limit), Stack.amount_withAmount,
    Nat.sub_self]

/-- No cell of a row takes any more of an item: none is vacant, and the stacks of the item are
full. -/
def Closed (limit : UInt32) (item : Stack) (cells : List (Option Stack)) : Prop :=
  ∀ cell ∈ cells, ∃ s, cell = some s ∧ roomIn limit item (some s) = 0

/-- Nothing is left, or no cell takes any more. -/
theorem closed_fill (left : UInt32) {cells : List (Option Stack)}
    (hcells : ∀ s, some s ∈ cells → roomIn limit item (some s) = 0) :
    (fill limit item left cells).2 = 0 ∨ Closed limit item (fill limit item left cells).1 := by
  induction cells generalizing left with
  | nil => exact .inr fun cell h => absurd h List.not_mem_nil
  | cons cell cells ih =>
    have hrest : ∀ s, some s ∈ cells → roomIn limit item (some s) = 0 :=
      fun s hs => hcells s (List.mem_cons_of_mem _ hs)
    cases cell with
    | some s =>
      exact (ih left hrest).imp id fun hclosed =>
        List.forall_mem_cons.2 ⟨⟨s, rfl, hcells s List.mem_cons_self⟩, hclosed⟩
    | none =>
      by_cases hleft : left = 0
      · rw [hleft, fill_zero]
        exact .inl rfl
      · rw [fill_none hleft]
        by_cases hle : left ≤ limit
        · have hall : min left limit = left := if_pos hle
          rw [hall, UInt32.sub_self, fill_zero]
          exact .inl rfl
        · have hlimit : min left limit = limit := if_neg hle
          rw [hlimit]
          exact (ih _ hrest).imp id fun hclosed =>
            List.forall_mem_cons.2 ⟨⟨_, rfl, roomIn_withAmount limit item⟩, hclosed⟩

/-! ## Both passes -/

/-- The cells after both passes, and what is left. -/
def pour (limit : UInt32) (item : Stack) (units : UInt32) (cells : List (Option Stack)) :
    List (Option Stack) × UInt32 :=
  fill limit item (topUp limit item units cells).2 (topUp limit item units cells).1

theorem length_pour (limit : UInt32) (item : Stack) (units : UInt32)
    (cells : List (Option Stack)) : (pour limit item units cells).1.length = cells.length :=
  (length_fill _ _ _ _).trans (length_topUp _ _ _ _)

theorem poured_pour (item : Stack) (hlimit : limit ≠ 0) (units : UInt32)
    (cells : List (Option Stack)) :
    Poured limit item cells units.toNat (pour limit item units cells).1
      (pour limit item units cells).2.toNat :=
  (poured_topUp limit item units cells).trans (poured_fill item hlimit _ _)

/-- Nothing is left, or no cell takes any more. -/
theorem closed_pour (limit : UInt32) (item : Stack) (units : UInt32)
    (cells : List (Option Stack)) :
    (pour limit item units cells).2 = 0 ∨
      Closed limit item (pour limit item units cells).1 := by
  unfold pour
  rcases full_topUp limit item units cells with hzero | hfull
  · rw [hzero, fill_zero]
    exact .inl rfl
  · exact closed_fill _ hfull

theorem Closed.sum_roomIn_eq_zero (h : Closed limit item cells) :
    (cells.map (roomIn limit item)).sum = 0 := by
  rw [List.sum_eq_zero_iff_forall_eq_nat, List.forall_mem_map]
  intro cell hcell
  obtain ⟨s, rfl, hs⟩ := h cell hcell
  exact hs

/-! ## Inventories -/

/-- The amount in stacks of the kind. -/
def held (inv : Inventory) (kind : Stack → Bool) : Nat := (inv.slots.map (amountOf kind)).sum

/-- The amount of an item that still fits into the storage. -/
def room (inv : Inventory) (item : Stack) : Nat :=
  ((inv.slots.take storageSize).map (roomIn (inv.limit item.material) item)).sum

/-- A limit that leaves no room leaves none anywhere. -/
theorem limit_ne_zero_of_room {inv : Inventory} {item : Stack} (h : inv.room item ≠ 0) :
    inv.limit item.material ≠ 0 := by
  intro hzero
  apply h
  rw [room, List.sum_eq_zero_iff_forall_eq_nat, List.forall_mem_map, hzero]
  intro cell _
  cases cell with
  | none => rfl
  | some s =>
    rw [roomIn, UInt32.toNat_zero, Nat.zero_sub]
    exact ite_self 0

/-- Some units of an item are added to an inventory, and the rest is left over. -/
structure Added (inv : Inventory) (item : Stack) (units : Nat) (next : Inventory) (left : Nat) :
    Prop where
  grows : ∀ slot, Grows (inv.limit item.material) item (inv.item? slot) (next.item? slot)
  held_eq : ∀ kind, IsKind kind →
    next.held kind + (if kind item then left else 0) =
      inv.held kind + if kind item then units else 0
  room_eq : next.room item + units = inv.room item + left
  full : left = 0 ∨ next.room item = 0
  left_le : left ≤ units
  heldSlot_eq : next.heldSlot = inv.heldSlot
  limits_eq : next.limits = inv.limits
  length_slots_eq : next.slots.length = inv.slots.length

theorem add_eq (inv : Inventory) (item : Stack) : inv.add item =
    ({ inv with slots :=
        (pour (inv.limit item.material) item item.amount (inv.slots.take storageSize)).1
          ++ inv.slots.drop storageSize },
      (pour (inv.limit item.material) item item.amount (inv.slots.take storageSize)).2) := rfl

theorem added_add {inv : Inventory} (hinv : inv.Shaped) (hlimit : inv.limit item.material ≠ 0) :
    inv.Added item item.amount.toNat (inv.add item).1 (inv.add item).2.toNat := by
  rw [add_eq]
  have hpoured := poured_pour item hlimit item.amount (inv.slots.take storageSize)
  have hclosed := closed_pour (inv.limit item.material) item item.amount
    (inv.slots.take storageSize)
  generalize pour (inv.limit item.material) item item.amount (inv.slots.take storageSize) =
    poured at hpoured hclosed ⊢
  have hall := hpoured.append (inv.slots.drop storageSize)
  rw [List.take_append_drop] at hall
  have hlength : poured.1.length = storageSize := by
    rw [hpoured.length_eq, List.length_take, hinv.length_slots]
    rfl
  have htake : (poured.1 ++ inv.slots.drop storageSize).take storageSize = poured.1 :=
    List.take_left' hlength
  have hroom :
      ({ inv with slots := poured.1 ++ inv.slots.drop storageSize } : Inventory).room item =
        (poured.1.map (roomIn (inv.limit item.material) item)).sum :=
    congrArg (fun cells => (cells.map (roomIn (inv.limit item.material) item)).sum) htake
  exact
    { grows := hall.grows
      held_eq := hall.amountOf_eq
      room_eq := hroom ▸ hpoured.roomIn_eq
      full := hclosed.imp (fun hzero => by rw [hzero]; rfl) fun hclosed =>
        hroom.trans hclosed.sum_roomIn_eq_zero
      left_le := hpoured.left_le
      heldSlot_eq := rfl
      limits_eq := rfl
      length_slots_eq := hall.length_eq }

namespace Added

variable {inv mid next : Inventory} {item : Stack} {first second left : Nat}

theorem limit_eq (h : inv.Added item first next left) : next.limit = inv.limit := by
  unfold limit
  rw [h.limits_eq]

/-- Nothing was added. -/
theorem refl (inv : Inventory) (item : Stack) : inv.Added item 0 inv 0 where
  grows _ := .inl rfl
  held_eq _ _ := rfl
  room_eq := rfl
  full := .inl rfl
  left_le := Nat.le_refl 0
  heldSlot_eq := rfl
  limits_eq := rfl
  length_slots_eq := rfl

/-- What is added wholly, and more after it, is added together. -/
theorem trans (h : inv.Added item first mid 0) (hnext : mid.Added item second next left) :
    inv.Added item (first + second) next left where
  grows slot := (h.grows slot).trans (h.limit_eq ▸ hnext.grows slot)
  held_eq kind hkind := by
    have hmid := h.held_eq kind hkind
    have hend := hnext.held_eq kind hkind
    rw [ite_self] at hmid
    rw [ite_add_zero]
    omega
  room_eq := by
    have hmid := h.room_eq
    have hend := hnext.room_eq
    omega
  full := hnext.full
  left_le := Nat.le_trans hnext.left_le (Nat.le_add_left _ _)
  heldSlot_eq := hnext.heldSlot_eq.trans h.heldSlot_eq
  limits_eq := hnext.limits_eq.trans h.limits_eq
  length_slots_eq := hnext.length_slots_eq.trans h.length_slots_eq

/-- Where something is left over, more of it would be left over too. -/
theorem more (h : inv.Added item first next left) (hleft : left ≠ 0) (second : Nat) :
    inv.Added item (first + second) next (second + left) :=
  { h with
    held_eq := fun kind hkind => by
      have hnext := h.held_eq kind hkind
      rw [ite_add_zero, ite_add_zero]
      omega
    room_eq := by
      have hnext := h.room_eq
      omega
    full := .inr (h.full.resolve_left hleft)
    left_le := by
      have hle := h.left_le
      omega }

/-- It does not matter what amount of the item is shown. -/
theorem of_withAmount {amount : UInt32} (h : inv.Added (item.withAmount amount) first next left) :
    inv.Added item first next left :=
  { h with
    held_eq := fun kind hkind => by
      have hnext := h.held_eq kind hkind
      rwa [hkind _ item (Stack.isSimilar_withAmount item amount)] at hnext }

/-- Where there is room, nothing is left over. -/
theorem eq_zero_of_le_room (h : inv.Added item first next left) (hroom : first ≤ inv.room item) :
    left = 0 := by
  have hnext := h.room_eq
  rcases h.full with hzero | hfull
  · exact hzero
  · omega

end Added

theorem added_of_add_eq {inv next : Inventory} {item : Stack} {units excess : UInt32}
    (hinv : inv.Shaped) (hlimit : inv.limit item.material ≠ 0)
    (hadd : inv.add (item.withAmount units) = (next, excess)) :
    inv.Added item units.toNat next excess.toNat := by
  have hadded : inv.Added (item.withAmount units) units.toNat (inv.add (item.withAmount units)).1
      (inv.add (item.withAmount units)).2.toNat := added_add hinv hlimit
  rw [hadd] at hadded
  exact hadded.of_withAmount

/-- Adding an item stack by stack comes to the same as adding all of it. -/
theorem added_distribute {inv : Inventory} {item : Stack} (hinv : inv.Shaped)
    (hlimit : inv.limit item.material ≠ 0) (units : UInt32) :
    inv.Added item units.toNat (inv.distribute item units).1
      (inv.distribute item units).2.toNat := by
  fun_induction distribute inv item units with
  | case1 inv => exact .refl inv item
  | case2 inv units hunits given next excess hadd hexcess =>
    have hstep := added_of_add_eq hinv hlimit hadd
    have hgiven : given ≤ units := Std.min_le_left
    have hgivenNat := UInt32.le_iff_toNat_le.1 hgiven
    have hrest := UInt32.toNat_sub_of_le _ _ hgiven
    have hpos : excess.toNat ≠ 0 := Nat.ne_of_gt (UInt32.lt_iff_toNat_lt.1 hexcess)
    -- The sum does not overflow: it is part of what was to be added.
    have hsum : (units - given + excess).toNat = units.toNat - given.toNat + excess.toNat := by
      have hle := hstep.left_le
      have hlt := units.toNat_lt
      rw [← hrest]
      apply toNat_add_of_lt
      simp only [UInt32.size]
      omega
    have hall := hstep.more hpos (units.toNat - given.toNat)
    rwa [Nat.add_sub_cancel' hgivenNat, ← hsum] at hall
  | case3 inv units hunits given next excess hadd hexcess ih =>
    have hstep := added_of_add_eq hinv hlimit hadd
    have hgiven : given ≤ units := Std.min_le_left
    have hzero : excess = 0 := by
      rw [UInt32.not_lt] at hexcess
      exact UInt32.le_antisymm hexcess UInt32.zero_le
    rw [hzero, UInt32.toNat_zero] at hstep
    have hnext : next.Shaped := by
      have hshaped := hinv.add (item.withAmount given)
      rwa [hadd] at hshaped
    have hall := hstep.trans (ih hnext (hstep.limit_eq.symm ▸ hlimit))
    rwa [UInt32.toNat_sub_of_le _ _ hgiven,
      Nat.add_sub_cancel' (UInt32.le_iff_toNat_le.1 hgiven)] at hall

end Inventory

end InventoryQuery
