import InventoryQuery.Criteria.Selection
/-!
# Going through offered slots

Where air is asked for, one vacant slot decides the selection, wherever it stands among the offers.
Otherwise the selection is the stacks that are not empty and match, in the order of the offers, and
the tally is the sum of their amounts, as far as it fits.
-/

namespace InventoryQuery

theorem Stack.total_le (items : List Stack) : total items ≤ items.length * (UInt32.size - 1) := by
  induction items with
  | nil => exact Nat.le_refl 0
  | cons s items ih =>
    have hamount : s.amount.toNat ≤ UInt32.size - 1 := Nat.le_sub_one_of_lt s.amount.toNat_lt
    rw [total, List.length_cons, Nat.succ_mul]
    omega

theorem Stack.total_perm {items others : List Stack} (h : items.Perm others) :
    total items = total others := by
  induction h with
  | nil => rfl
  | cons s _ ih => rw [total, total, ih]
  | swap first second items =>
    simp only [total]
    omega
  | trans _ _ ihleft ihright => rw [ihleft, ihright]

theorem Stack.total_le_of_sublist {items others : List Stack} (h : items.Sublist others) :
    total items ≤ total others := by
  induction h with
  | slnil => exact Nat.le_refl 0
  | cons s _ ih =>
    rw [total]
    omega
  | cons_cons s _ ih =>
    rw [total, total]
    omega

namespace Tally

/-- The largest sum. -/
def largest : Nat := UInt64.size - 1

theorem toNat_plus (sum : UInt64) (amount : UInt32) :
    (plus sum amount).toNat = min (sum.toNat + amount.toNat) largest := by
  rw [plus, UInt64.ofNatClamp]
  split
  · next hfits =>
    rw [UInt64.toNat_ofNatLT, Nat.min_eq_left]
    exact Nat.le_sub_one_of_lt hfits
  · next hlarge =>
    rw [UInt64.toNat_ofNatLT, Nat.min_eq_right]
    · rfl
    · exact Nat.le_trans (Nat.sub_le _ 1) (Nat.not_lt.1 hlarge)

end Tally

namespace Criteria

variable {c : Criteria} {host : Host}

/-- Whether an offered slot holds nothing. -/
def isVacant (offer : Nat × Option Stack) : Bool := offer.2.all Stack.isEmpty

/-- The stacks among the offers that match, with their slots. -/
def hits (c : Criteria) (host : Host) (offers : List (Nat × Option Stack)) : List (Nat × Stack) :=
  offers.filterMap fun (slot, cell) =>
    (cell.filter fun s => !s.isEmpty && c.matchesStack host s).map fun s => (slot, s)

/-! ## One offer -/

variable {slot : Nat} {cell : Option Stack} {s : Stack} (slots : List Nat) (sum : UInt64)
  (offers : List (Nat × Option Stack))

theorem exists_of_not_isVacant (h : isVacant (slot, cell) = false) :
    ∃ s, cell = some s ∧ s.isEmpty = false := by
  cases cell with
  | none => cases h
  | some s => exact ⟨s, rfl, h⟩

/-- Of a vacant slot nothing is left to those who pass over empty stacks. -/
theorem filter_of_isVacant (h : isVacant (slot, cell) = true) {p : Stack → Bool}
    (hp : ∀ s : Stack, s.isEmpty = true → p s = false) : cell.filter p = none := by
  rw [Option.filter_eq_none_iff]
  intro s hs
  rw [isVacant, hs, Option.all_some] at h
  exact Bool.eq_false_iff.1 (hp s h)

theorem resolveFrom_vacant (h : isVacant (slot, cell) = true) :
    c.resolveFrom host slots sum ((slot, cell) :: offers) =
      if c.asksAir then ⟨[], .unbounded⟩ else c.resolveFrom host slots sum offers := by
  have hnone : cell.filter (fun s => !s.isEmpty) = none :=
    filter_of_isVacant h fun s hs => by rw [hs, Bool.not_true]
  rw [resolveFrom, hnone]

theorem resolveFrom_hit (hs : s.isEmpty = false) (hmatch : c.matchesStack host s = true) :
    c.resolveFrom host slots sum ((slot, some s) :: offers) =
      c.resolveFrom host (slots ++ [slot]) (Tally.plus sum s.amount) offers := by
  simp only [resolveFrom, Option.filter_some, hs, Bool.not_false, if_true, hmatch]

theorem resolveFrom_miss (hs : s.isEmpty = false) (hmatch : c.matchesStack host s = false) :
    c.resolveFrom host slots sum ((slot, some s) :: offers) =
      c.resolveFrom host slots sum offers := by
  simp only [resolveFrom, Option.filter_some, hs, Bool.not_false, if_true, hmatch,
    Bool.false_eq_true, if_false]

theorem hits_vacant (h : isVacant (slot, cell) = true) :
    c.hits host ((slot, cell) :: offers) = c.hits host offers := by
  have hnone : cell.filter (fun s => !s.isEmpty && c.matchesStack host s) = none :=
    filter_of_isVacant h fun s hs => by rw [hs, Bool.not_true, Bool.false_and]
  simp only [hits, List.filterMap_cons, hnone, Option.map_none]

theorem hits_hit (hs : s.isEmpty = false) (hmatch : c.matchesStack host s = true) :
    c.hits host ((slot, some s) :: offers) = (slot, s) :: c.hits host offers := by
  simp only [hits, List.filterMap_cons, Option.filter_some, hs, hmatch, Bool.not_false,
    Bool.and_self, if_true, Option.map_some]

theorem hits_miss (hmatch : c.matchesStack host s = false) :
    c.hits host ((slot, some s) :: offers) = c.hits host offers := by
  simp only [hits, List.filterMap_cons, Option.filter_some, hmatch, Bool.and_false,
    Bool.false_eq_true, if_false, Option.map_none]

/-! ## All offers -/

variable (c host)

/-- Going through offers, whatever is selected in front of them. -/
theorem resolveFrom_eq :
    c.resolveFrom host slots sum offers =
      if c.asksAir ∧ offers.any isVacant then ⟨[], .unbounded⟩
      else ⟨slots ++ (c.hits host offers).map Prod.fst,
        .count (min (sum.toNat + Stack.total ((c.hits host offers).map Prod.snd))
          Tally.largest)⟩ := by
  induction offers generalizing slots sum with
  | nil =>
    have hsum : sum.toNat ≤ Tally.largest := Nat.le_sub_one_of_lt sum.toNat_lt
    simp [resolveFrom, hits, Stack.total, hsum]
  | cons offer offers ih =>
    obtain ⟨slot, cell⟩ := offer
    cases hvacant : isVacant (slot, cell) with
    | true =>
      rw [resolveFrom_vacant slots sum offers hvacant, hits_vacant offers hvacant, List.any_cons,
        hvacant, Bool.true_or, ih]
      cases c.asksAir <;> simp
    | false =>
      obtain ⟨s, rfl, hs⟩ := exists_of_not_isVacant hvacant
      rw [List.any_cons, hvacant, Bool.false_or]
      cases hmatch : c.matchesStack host s with
      | true =>
        rw [resolveFrom_hit slots sum offers hs hmatch, hits_hit offers hs hmatch, ih,
          Tally.toNat_plus, List.map_cons, List.map_cons, Stack.total, List.append_assoc]
        have hsum : min (min (sum.toNat + s.amount.toNat) Tally.largest +
              Stack.total ((c.hits host offers).map Prod.snd)) Tally.largest =
            min (sum.toNat + (s.amount.toNat + Stack.total ((c.hits host offers).map Prod.snd)))
              Tally.largest := by
          omega
        rw [hsum]
        rfl
      | false =>
        rw [resolveFrom_miss slots sum offers hs hmatch, hits_miss offers hmatch, ih]

theorem resolve_eq :
    c.resolve host offers =
      if c.asksAir ∧ offers.any isVacant then ⟨[], .unbounded⟩
      else ⟨(c.hits host offers).map Prod.fst,
        .count (min (Stack.total ((c.hits host offers).map Prod.snd)) Tally.largest)⟩ := by
  rw [resolve, resolveFrom_eq, List.nil_append]
  simp only [UInt64.toNat_zero, Nat.zero_add]

theorem resolve_of_not_asksAir {c : Criteria} (h : c.material ≠ some air) (host : Host)
    (offers : List (Nat × Option Stack)) :
    c.resolve host offers = ⟨(c.hits host offers).map Prod.fst,
      .count (min (Stack.total ((c.hits host offers).map Prod.snd)) Tally.largest)⟩ := by
  rw [resolve_eq, if_neg]
  rintro ⟨hair, -⟩
  exact h (beq_iff_eq.1 hair)

/-- The sum of as many amounts as there are words of 32 bits still fits. -/
theorem total_hits_le (h : offers.length ≤ UInt32.size) :
    Stack.total ((c.hits host offers).map Prod.snd) ≤ Tally.largest := by
  have hlength : ((c.hits host offers).map Prod.snd).length ≤ UInt32.size := by
    rw [List.length_map]
    exact Nat.le_trans (List.length_filterMap_le _ _) h
  calc Stack.total ((c.hits host offers).map Prod.snd)
      ≤ ((c.hits host offers).map Prod.snd).length * (UInt32.size - 1) := Stack.total_le _
    _ ≤ UInt32.size * (UInt32.size - 1) := Nat.mul_le_mul_right _ hlength
    _ ≤ Tally.largest := by decide

/-- The order of the offers makes no difference to the tally, and none to the slots but their
order. -/
theorem resolve_perm {offers others : List (Nat × Option Stack)} (h : offers.Perm others) :
    (c.resolve host offers).tally = (c.resolve host others).tally ∧
      (c.resolve host offers).slots.Perm (c.resolve host others).slots := by
  have hhits : (c.hits host offers).Perm (c.hits host others) := h.filterMap _
  rw [resolve_eq, resolve_eq, h.any_eq]
  split
  · exact ⟨rfl, List.Perm.refl []⟩
  · refine ⟨?_, hhits.map Prod.fst⟩
    dsimp only
    rw [Stack.total_perm (hhits.map Prod.snd)]

/-- Among offers that are not too many the tally is the sum of the amounts. -/
theorem resolve_eq_of_length_le (h : offers.length ≤ UInt32.size) :
    c.resolve host offers =
      if c.asksAir ∧ offers.any isVacant then ⟨[], .unbounded⟩
      else ⟨(c.hits host offers).map Prod.fst,
        .count (Stack.total ((c.hits host offers).map Prod.snd))⟩ := by
  rw [resolve_eq, Nat.min_eq_left (total_hits_le c host offers h)]

end Criteria

end InventoryQuery
