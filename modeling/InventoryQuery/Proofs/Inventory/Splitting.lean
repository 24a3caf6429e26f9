import InventoryQuery.Proofs.Inventory.Insertion
/-!
# Adding an item stack by stack

Adding some units of an item and then some more comes to the same, slot by slot, as adding all of
them at once: the later units go on where the earlier ones stopped.  So an item that is given in
stacks up to the limit fills the inventory as if it were added in one stack.
-/

namespace InventoryQuery.Inventory

variable {limit : UInt32} {item : Stack} {a b : UInt32} {cells : List (Option Stack)}

/-! ## The first pass -/

/-- A stack that was topped up is topped up further by what it is still short of. -/
theorem topping_add (limit : UInt32) (item : Stack) (hsum : a.toNat + b.toNat < UInt32.size)
    (s : Stack) :
    topping limit item (a + b) s = topping limit item a s +
      topping limit item b (s.withAmount (s.amount + topping limit item a s)) := by
  have hmid := toNat_add_of_lt (topping_lt_size limit item a s)
  by_cases hsimilar : s.isSimilar item = true
  · have hsimilarNext :
        (s.withAmount (s.amount + topping limit item a s)).isSimilar item = true := hsimilar
    have hall := toNat_topping hsimilar limit (a + b)
    have hfirst := toNat_topping hsimilar limit a
    have hsecond := toNat_topping hsimilarNext limit b
    rw [toNat_add_of_lt hsum] at hall
    rw [Stack.amount_withAmount, hmid] at hsecond
    apply UInt32.toNat_inj.1
    rw [toNat_add_of_lt]
    · omega
    · omega
  · have hzero : ∀ left, topping limit item left s = 0 := fun left => if_neg fun h => hsimilar h.1
    have hnext : topping limit item b (s.withAmount (s.amount + topping limit item a s)) = 0 :=
      if_neg fun h => hsimilar h.1
    rw [hnext, hzero, hzero, UInt32.add_zero]

theorem topUp_add (limit : UInt32) (item : Stack) (hsum : a.toNat + b.toNat < UInt32.size)
    (cells : List (Option Stack)) :
    topUp limit item (a + b) cells =
      ((topUp limit item b (topUp limit item a cells).1).1,
        (topUp limit item a cells).2 + (topUp limit item b (topUp limit item a cells).1).2) := by
  induction cells generalizing a b with
  | nil => rfl
  | cons cell cells ih =>
    cases cell with
    | none => simp only [topUp, ih hsum]
    | some s =>
      have hfirst := topping_le limit item a s
      have hsecond := topping_le limit item b (s.withAmount (s.amount + topping limit item a s))
      simp only [topUp_some, topping_add limit item hsum s]
      generalize topping limit item a s = moved at *
      generalize topping limit item b (s.withAmount (s.amount + moved)) = more at *
      have hrest : a + b - (moved + more) = a - moved + (b - more) := by grind
      have hbound : (a - moved).toNat + (b - more).toNat < UInt32.size := by
        rw [UInt32.toNat_sub_of_le _ _ hfirst, UInt32.toNat_sub_of_le _ _ hsecond]
        omega
      rw [hrest, ih hbound, ← UInt32.add_assoc]
      rfl

theorem topping_of_full {s : Stack} (hfull : roomIn limit item (some s) = 0) (units : UInt32) :
    topping limit item units s = 0 := by
  have hroom := (gains_topping limit item units s).roomIn_eq
  apply UInt32.toNat_inj.1
  rw [UInt32.toNat_zero]
  omega

theorem topUp_some_of_full {s : Stack} (hfull : roomIn limit item (some s) = 0) (units : UInt32)
    (cells : List (Option Stack)) :
    topUp limit item units (some s :: cells) =
      (some s :: (topUp limit item units cells).1, (topUp limit item units cells).2) := by
  rw [topUp_some, topping_of_full hfull, UInt32.sub_zero, UInt32.add_zero]
  rfl

theorem topUp_of_full (hfull : ∀ s, some s ∈ cells → roomIn limit item (some s) = 0)
    (units : UInt32) : topUp limit item units cells = (cells, units) := by
  induction cells with
  | nil => rfl
  | cons cell cells ih =>
    have hrest := ih fun s hs => hfull s (List.mem_cons_of_mem _ hs)
    cases cell with
    | none => rw [topUp, hrest]
    | some s => rw [topUp_some_of_full (hfull s List.mem_cons_self), hrest]

theorem topUp_zero (limit : UInt32) (item : Stack) (cells : List (Option Stack)) :
    topUp limit item 0 cells = (cells, 0) := by
  induction cells with
  | nil => rfl
  | cons cell cells ih =>
    cases cell with
    | none => rw [topUp, ih]
    | some s =>
      have hzero : topping limit item 0 s = 0 := UInt32.le_zero_iff.1 (topping_le limit item 0 s)
      rw [topUp_some, hzero, UInt32.sub_zero, UInt32.add_zero, ih]
      rfl

/-! ## Both passes -/

theorem pour_some_of_full {s : Stack} (hfull : roomIn limit item (some s) = 0) (units : UInt32)
    (cells : List (Option Stack)) :
    pour limit item units (some s :: cells) =
      (some s :: (pour limit item units cells).1, (pour limit item units cells).2) := by
  rw [pour, topUp_some_of_full hfull]
  rfl

theorem pour_of_closed (hclosed : Closed limit item cells) (units : UInt32) :
    pour limit item units cells = (cells, units) := by
  induction cells with
  | nil => rfl
  | cons cell cells ih =>
    obtain ⟨⟨s, rfl, hs⟩, hrest⟩ := List.forall_mem_cons.1 hclosed
    rw [pour_some_of_full hs, ih hrest]

theorem min_add_eq_topping (item : Stack) (hsum : a.toNat + b.toNat < UInt32.size)
    (hle : a ≤ limit) :
    min (a + b) limit = a + topping limit item b (item.withAmount a) := by
  have htopping := toNat_topping (Stack.isSimilar_withAmount item a) limit b
  have hleNat := UInt32.le_iff_toNat_le.1 hle
  have hlimit := limit.toNat_lt
  rw [Stack.amount_withAmount] at htopping
  apply UInt32.toNat_inj.1
  rw [toNat_min, toNat_add_of_lt hsum, toNat_add_of_lt]
  · omega
  · simp only [UInt32.size]
    omega

/-- Later units first top up the cell that the earlier ones have begun to fill. -/
theorem fill_add (hsum : a.toNat + b.toNat < UInt32.size)
    (hfull : ∀ s, some s ∈ cells → roomIn limit item (some s) = 0) :
    fill limit item (a + b) cells =
      ((pour limit item b (fill limit item a cells).1).1,
        (fill limit item a cells).2 + (pour limit item b (fill limit item a cells).1).2) := by
  induction cells generalizing a b with
  | nil => rfl
  | cons cell cells ih =>
    have hrest : ∀ s, some s ∈ cells → roomIn limit item (some s) = 0 :=
      fun s hs => hfull s (List.mem_cons_of_mem _ hs)
    cases cell with
    | some s =>
      have hs := pour_some_of_full (hfull s List.mem_cons_self) b
      simp only [fill, ih hsum hrest, hs]
    | none =>
      by_cases ha : a = 0
      · rw [ha, UInt32.zero_add, fill_zero, pour, topUp_of_full hfull, UInt32.zero_add]
      · have hab : a + b ≠ 0 := by
          intro hzero
          have hzeroNat := toNat_add_of_lt hsum
          rw [hzero, UInt32.toNat_zero] at hzeroNat
          apply ha
          apply UInt32.toNat_inj.1
          rw [UInt32.toNat_zero]
          omega
        rw [fill_none hab, fill_none ha]
        by_cases hle : a ≤ limit
        · have hmin : min a limit = a := if_pos hle
          have hmoved := min_add_eq_topping item hsum hle
          have hleft : a + b - min (a + b) limit =
              b - topping limit item b (item.withAmount a) := by
            rw [hmoved]
            grind
          rw [hleft, hmoved, hmin, UInt32.sub_self, fill_zero, pour, topUp_some,
            topUp_of_full hrest, UInt32.zero_add]
          rfl
        · have hlt := UInt32.lt_iff_toNat_lt.1 (UInt32.not_le.1 hle)
          have hmin : min a limit = limit := if_neg hle
          have hminAll : min (a + b) limit = limit := by
            apply UInt32.toNat_inj.1
            rw [toNat_min, toNat_add_of_lt hsum]
            omega
          have hleft : a + b - limit = a - limit + b := by grind
          have hbound : (a - limit).toNat + b.toNat < UInt32.size := by
            rw [UInt32.toNat_sub_of_le _ _ (UInt32.le_of_lt (UInt32.not_le.1 hle))]
            omega
          rw [hminAll, hmin, hleft, ih hbound hrest,
            pour_some_of_full (roomIn_withAmount limit item)]

theorem pour_add (limit : UInt32) (item : Stack) (hsum : a.toNat + b.toNat < UInt32.size)
    (cells : List (Option Stack)) :
    pour limit item (a + b) cells =
      ((pour limit item b (pour limit item a cells).1).1,
        (pour limit item a cells).2 + (pour limit item b (pour limit item a cells).1).2) := by
  have htopUp := topUp_add limit item hsum cells
  have hle := (poured_topUp limit item a cells).left_le
  rcases full_topUp limit item a cells with hzero | hfull
  · -- The second pass of the earlier units has nothing to do.
    have hfirst : pour limit item a cells = ((topUp limit item a cells).1, 0) := by
      rw [pour, hzero, fill_zero]
    rw [hfirst, pour, htopUp, hzero, UInt32.zero_add, UInt32.zero_add]
    rfl
  · -- The first pass of the later units has nothing to do.
    rw [topUp_of_full hfull] at htopUp
    rw [pour, htopUp]
    exact fill_add (Nat.lt_of_le_of_lt (Nat.add_le_add_right hle _) hsum) hfull

theorem pour_zero (limit : UInt32) (item : Stack) (cells : List (Option Stack)) :
    pour limit item 0 cells = (cells, 0) := by
  rw [pour, topUp_zero, fill_zero]

/-! ## Inventories -/

theorem topUp_withAmount (limit : UInt32) (item : Stack) (amount left : UInt32)
    (cells : List (Option Stack)) :
    topUp limit (item.withAmount amount) left cells = topUp limit item left cells := by
  induction cells generalizing left with
  | nil => rfl
  | cons cell cells ih =>
    cases cell with
    | none => rw [topUp, topUp, ih]
    | some s =>
      rw [topUp_some, topUp_some, ih]
      rfl

theorem fill_withAmount (limit : UInt32) (item : Stack) (amount left : UInt32)
    (cells : List (Option Stack)) :
    fill limit (item.withAmount amount) left cells = fill limit item left cells := by
  induction cells generalizing left with
  | nil => rfl
  | cons cell cells ih =>
    cases cell with
    | some s => rw [fill, fill, ih]
    | none =>
      by_cases hleft : left = 0
      · rw [hleft, fill_zero, fill_zero]
      · rw [fill_none hleft, fill_none hleft, ih]
        rfl

/-- The inventory with other cells in its storage. -/
def withStorage (inv : Inventory) (cells : List (Option Stack)) : Inventory :=
  { inv with slots := cells ++ inv.slots.drop storageSize }

variable {inv : Inventory}

theorem withStorage_take (inv : Inventory) :
    inv.withStorage (inv.slots.take storageSize) = inv := by
  rw [withStorage, List.take_append_drop]

/-- Other cells as many as the storage has take its place, and the rest of the slots stays. -/
theorem slots_withStorage (h : cells.length = (inv.slots.take storageSize).length) :
    (inv.withStorage cells).slots.take storageSize = cells ∧
      (inv.withStorage cells).slots.drop storageSize = inv.slots.drop storageSize := by
  apply List.append_inj
  · exact List.take_append_drop storageSize (inv.withStorage cells).slots
  · simp only [withStorage, List.length_take, List.length_append, List.length_drop] at h ⊢
    omega

theorem withStorage_withStorage (h : cells.length = (inv.slots.take storageSize).length)
    (others : List (Option Stack)) :
    (inv.withStorage cells).withStorage others = inv.withStorage others := by
  rw [withStorage, (slots_withStorage h).2]
  rfl

theorem add_withAmount (inv : Inventory) (item : Stack) (units : UInt32) :
    inv.add (item.withAmount units) =
      (inv.withStorage
          (pour (inv.limit item.material) item units (inv.slots.take storageSize)).1,
        (pour (inv.limit item.material) item units (inv.slots.take storageSize)).2) := by
  rw [add_eq, pour, fill_withAmount, topUp_withAmount]
  rfl

theorem add_withStorage (h : cells.length = (inv.slots.take storageSize).length) (item : Stack)
    (units : UInt32) :
    (inv.withStorage cells).add (item.withAmount units) =
      (inv.withStorage (pour (inv.limit item.material) item units cells).1,
        (pour (inv.limit item.material) item units cells).2) := by
  rw [add_withAmount, (slots_withStorage h).1, withStorage_withStorage h]
  rfl

/-- Adding some units of an item and then some more comes to the same as adding all of them. -/
theorem add_withAmount_add (inv : Inventory) (item : Stack)
    (hsum : a.toNat + b.toNat < UInt32.size) :
    inv.add (item.withAmount (a + b)) =
      (((inv.add (item.withAmount a)).1.add (item.withAmount b)).1,
        (inv.add (item.withAmount a)).2 +
          ((inv.add (item.withAmount a)).1.add (item.withAmount b)).2) := by
  rw [add_withAmount inv item a, add_withStorage (length_pour _ _ _ _), add_withAmount,
    pour_add _ _ hsum]

theorem add_withAmount_zero (inv : Inventory) (item : Stack) :
    inv.add (item.withAmount 0) = (inv, 0) := by
  rw [add_withAmount, pour_zero, withStorage_take]

/-- Where something is left over, more of it is left over wholly. -/
theorem add_of_left_ne_zero (h : (inv.add (item.withAmount a)).2 ≠ 0) (units : UInt32) :
    (inv.add (item.withAmount a)).1.add (item.withAmount units) =
      ((inv.add (item.withAmount a)).1, units) := by
  rw [add_withAmount inv item a] at h ⊢
  have hclosed := (closed_pour _ item a (inv.slots.take storageSize)).resolve_left h
  rw [add_withStorage (length_pour _ _ _ _), pour_of_closed hclosed]

theorem room_add (inv : Inventory) (item : Stack) (units : UInt32) :
    (inv.add (item.withAmount units)).2 = 0 ∨
      (inv.add (item.withAmount units)).1.room item = 0 := by
  rw [add_withAmount]
  apply (closed_pour _ item units (inv.slots.take storageSize)).imp id
  intro hclosed
  rw [room, (slots_withStorage (length_pour _ _ _ _)).1]
  exact hclosed.sum_roomIn_eq_zero

/-- All units are added by adding a part of them and then the others. -/
theorem add_given (inv : Inventory) (item : Stack) (units : UInt32) {given : UInt32}
    (hgiven : given ≤ units) :
    inv.add (item.withAmount units) =
      (((inv.add (item.withAmount given)).1.add (item.withAmount (units - given))).1,
        (inv.add (item.withAmount given)).2 +
          ((inv.add (item.withAmount given)).1.add (item.withAmount (units - given))).2) := by
  have hsplit : given + (units - given) = units := by grind
  have hsum : given.toNat + (units - given).toNat < UInt32.size := by
    have hle := UInt32.le_iff_toNat_le.1 hgiven
    have hlt := units.toNat_lt
    rw [UInt32.toNat_sub_of_le _ _ hgiven, Nat.add_sub_cancel' hle]
    exact hlt
  have hall := inv.add_withAmount_add item hsum
  rwa [hsplit] at hall

/-- An item that is given stack by stack is added as if it were one stack of all the units, with
the same left over.  Giving stops only where there is no room for any more. -/
theorem distribute_eq_add (inv : Inventory) (item : Stack) (units : UInt32) :
    inv.distribute item units = inv.add (item.withAmount units) ∧
      ((inv.distribute item units).2 = 0 ∨ (inv.distribute item units).1.room item = 0) := by
  have hadd : inv.distribute item units = inv.add (item.withAmount units) := by
    fun_induction distribute inv item units with
    | case1 inv => rw [add_withAmount_zero]
    | case2 inv units hunits given next excess hadd hexcess =>
      have hgiven : given ≤ units := Std.min_le_left
      have hall := inv.add_given item units hgiven
      have hne : (inv.add (item.withAmount given)).2 ≠ 0 := by
        rw [hadd]
        exact fun hzero => UInt32.lt_irrefl _ (hzero ▸ hexcess)
      have hrest := add_of_left_ne_zero hne (units - given)
      rw [hadd] at hall hrest
      rw [hall, hrest, UInt32.add_comm]
    | case3 inv units hunits given next excess hadd hexcess ih =>
      have hgiven : given ≤ units := Std.min_le_left
      have hall := inv.add_given item units hgiven
      have hzero : excess = 0 := UInt32.le_zero_iff.1 (UInt32.not_lt.1 hexcess)
      rw [hadd, hzero, UInt32.zero_add] at hall
      rw [ih, hall]
  rw [hadd]
  exact ⟨rfl, room_add inv item units⟩

end InventoryQuery.Inventory
