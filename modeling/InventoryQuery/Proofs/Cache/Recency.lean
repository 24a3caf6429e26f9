import InventoryQuery.Proofs.Cache.History
/-!
# The keys that a cache keeps

Without a lifetime, a cache holds the keys that were used last, as many as there is room for.  A key
is there exactly if fewer other keys were used after its last use than fit, and what is stored under
it is what its last build gave.
-/

namespace InventoryQuery.Cache

/-! ## Lists without their repetitions -/

section Lists

variable {β : Type} [BEq β]

/-- Induction along the recursion that drops repetitions: a list after its rest without its head. -/
theorem dropping_induction {motive : List β → Prop} (nil : motive [])
    (cons : ∀ a l, motive (l.filter fun b => b != a) → motive (a :: l)) :
    ∀ l, motive l
  | [] => nil
  | a :: l =>
    have : (l.filter fun b => b != a).length < l.length + 1 :=
      Nat.lt_succ_of_le (List.length_filter_le _ _)
    cons a l (dropping_induction nil cons _)
termination_by l => l.length

theorem eraseDups_cons_bne (a : β) (l : List β) :
    (a :: l).eraseDups = a :: (l.filter fun b => b != a).eraseDups :=
  List.eraseDups_cons

variable [LawfulBEq β]

theorem filter_bne_of_notMem {a : β} {l : List β} (h : a ∉ l) :
    (l.filter fun b => b != a) = l := by
  rw [List.filter_eq_self]
  intro b hb
  rw [bne_iff_ne]
  exact fun heq => h (heq ▸ hb)

theorem filter_bne_cons {a first : β} (h : first ≠ a) (l : List β) :
    ((first :: l).filter fun b => b != a) = first :: l.filter fun b => b != a :=
  List.filter_cons_of_pos (bne_iff_ne.2 h)

theorem notMem_filter_bne (a : β) (l : List β) : a ∉ l.filter fun b => b != a := by
  rw [List.mem_filter, bne_self_eq_false]
  exact fun h => Bool.false_ne_true h.2

theorem nodup_eraseDups (l : List β) : l.eraseDups.Nodup := by
  induction l using dropping_induction with
  | nil => exact List.nodup_nil
  | cons a l ih =>
    rw [eraseDups_cons_bne, List.nodup_cons, List.mem_eraseDups]
    exact ⟨notMem_filter_bne a l, ih⟩

theorem eraseDups_filter_bne (a : β) (l : List β) :
    (l.filter fun b => b != a).eraseDups = l.eraseDups.filter fun b => b != a := by
  induction l using dropping_induction with
  | nil => rfl
  | cons first l ih =>
    rw [eraseDups_cons_bne]
    by_cases hfirst : first = a
    · have hnone : a ∉ (l.filter fun b => b != a).eraseDups :=
        fun h => notMem_filter_bne a l (List.mem_eraseDups.1 h)
      rw [hfirst, List.filter_cons_of_neg (by simp), List.filter_cons_of_neg (by simp),
        filter_bne_of_notMem hnone]
    · rw [filter_bne_cons hfirst, filter_bne_cons hfirst, eraseDups_cons_bne, ← ih,
        List.filter_filter, List.filter_filter]
      simp only [Bool.and_comm]

/-- Of the first `n + 1` elements, `n` are left when one is dropped. -/
theorem take_filter_take {a : β} {l : List β} (h : l.Nodup) (n : Nat) :
    ((l.take (n + 1)).filter fun b => b != a).take n = (l.filter fun b => b != a).take n := by
  induction l generalizing n with
  | nil => rfl
  | cons first l ih =>
    obtain ⟨hfirst, hl⟩ := List.nodup_cons.1 h
    rw [List.take_succ_cons]
    by_cases heq : first = a
    · rw [heq] at hfirst
      have hpart : a ∉ l.take n := fun hmem => hfirst (List.mem_of_mem_take hmem)
      rw [List.filter_cons_of_neg (by simp [heq]), List.filter_cons_of_neg (by simp [heq]),
        filter_bne_of_notMem hfirst, filter_bne_of_notMem hpart, List.take_take, Nat.min_self]
    · rw [filter_bne_cons heq, filter_bne_cons heq]
      cases n with
      | zero => rfl
      | succ n => rw [List.take_succ_cons, List.take_succ_cons, ih hl]

/-- An element moves to the front of a list that is cut off behind. -/
theorem take_front (a : β) {l : List β} (h : l.Nodup) (n : Nat) :
    (a :: (l.take n).filter fun b => b != a).take n = (a :: l.filter fun b => b != a).take n := by
  cases n with
  | zero => rfl
  | succ n => rw [List.take_succ_cons, List.take_succ_cons, take_filter_take h]

theorem takeWhile_filter_bne {a first : β} (h : first ≠ a) (l : List β) :
    ((l.filter fun b => b != first).takeWhile fun b => b != a) =
      (l.takeWhile fun b => b != a).filter fun b => b != first := by
  rw [List.takeWhile_filter]
  congr 2
  funext b
  by_cases hb : b = first
  · simp [hb, h]
  · simp [hb]

/-- An element is among the first `n`, repetitions apart, if fewer than `n` others stand in front of
it. -/
theorem mem_take_eraseDups {a : β} {l : List β} {n : Nat} : a ∈ l.eraseDups.take n ↔
    a ∈ l ∧ (l.takeWhile fun b => b != a).eraseDups.length < n := by
  induction l using dropping_induction generalizing n with
  | nil => simp
  | cons first l ih =>
    rw [eraseDups_cons_bne]
    cases n with
    | zero => simp
    | succ n =>
      rw [List.take_succ_cons, List.mem_cons]
      by_cases hfirst : first = a
      · rw [List.takeWhile_cons_of_neg (by simp [hfirst])]
        simp [hfirst]
      · -- The head stands in front, and its repetitions do not count again.
        have hne : a ≠ first := Ne.symm hfirst
        have htake : ((first :: l).takeWhile fun b => b != a) =
            first :: l.takeWhile fun b => b != a :=
          List.takeWhile_cons_of_pos (bne_iff_ne.2 hfirst)
        rw [htake, eraseDups_cons_bne, ih, takeWhile_filter_bne hfirst, List.mem_filter,
          List.mem_cons, List.length_cons]
        simp [hne]

end Lists

/-! ## The keys that are there -/

variable {α : Type} {c : Cache α}

/-- The keys that were used last are there, as many as there is room for, and in this order. -/
def KeepsLastUsed (c : Cache α) (past : List (Event α)) : Prop :=
  c.keys = (uses past).eraseDups.take c.capacity

theorem keys_front (c : Cache α) (key : Text) (value : α) (built : Nat) :
    ({ c with entries := (key, value, built) :: c.without key } : Cache α).keys =
      key :: c.keys.filter fun other => other != key := by
  rw [keys, List.map_cons, keys_without]

theorem keys_push (c : Cache α) (key : Text) (value : α) (done : Nat) :
    (c.push done key value).keys =
      (key :: c.keys.filter fun other => other != key).take c.capacity := by
  rw [push, keys, List.map_take, List.map_cons, keys_without]

/-- A use moves its key to the front of the ones used last. -/
theorem KeepsLastUsed.use {past : List (Event α)} (h : c.KeepsLastUsed past) (key : Text) :
    (key :: c.keys.filter fun other => other != key).take c.capacity =
      (key :: uses past).eraseDups.take c.capacity := by
  calc (key :: c.keys.filter fun other => other != key).take c.capacity
      = (key :: ((uses past).eraseDups.take c.capacity).filter fun other => other != key).take
          c.capacity := by rw [h]
    _ = (key :: (uses past).eraseDups.filter fun other => other != key).take c.capacity :=
        take_front key (nodup_eraseDups _) _
    _ = (key :: uses past).eraseDups.take c.capacity := by
        rw [eraseDups_cons_bne, eraseDups_filter_bne]

theorem live?_eq_find? (h : c.lifetime = 0) (now : Nat) (key : Text) :
    c.live? now key = c.find? key := by
  have hfresh : ∀ built, c.isExpired now built = false := fun built => by
    rw [isExpired, h]
    rfl
  cases hfind : c.find? key with
  | none =>
    rw [live?, hfind]
    rfl
  | some found => exact live?_eq_some_iff.2 ⟨hfind, hfresh found.2⟩

theorem keepsLastUsed_step {past : List (Event α)} (hlifetime : c.lifetime = 0)
    (h : c.KeepsLastUsed past) (s : Step α) :
    (c.step s).2.KeepsLastUsed ((c.step s).1 :: past) := by
  cases s with
  | contains key => exact h
  | clear => exact List.take_nil.symm
  | get now done key build =>
    cases hlive : c.live? now key with
    | some found =>
      have hmem := contains_iff.1 (contains_of_live hlive)
      rw [step_get_of_live hlive]
      -- An entry that moves takes no more room than before.
      have hfits : (key :: c.keys.filter fun other => other != key).length ≤ c.capacity := by
        have hless := length_without_lt hmem
        have hsize : c.keys.length ≤ c.capacity := h ▸ List.length_take_le _ _
        rw [List.length_cons, ← keys_without, List.length_map]
        rw [keys, List.length_map] at hsize
        exact Nat.le_trans hless hsize
      rw [KeepsLastUsed, keys_front, ← List.take_of_length_le hfits]
      exact h.use key
    | none =>
      rw [step_get_of_not_live hlive]
      cases build key with
      | some value =>
        rw [KeepsLastUsed, keys_push]
        exact h.use key
      | none =>
        rw [live?_eq_find? hlifetime, find?_eq_none_iff] at hlive
        dsimp only
        rw [without_of_notMem hlive]
        exact h

theorem keepsLastUsed_recorded (capacity : Nat) (steps : List (Step α)) :
    (recorded capacity 0 steps).cache.KeepsLastUsed (recorded capacity 0 steps).past := by
  induction steps using List.reverseRecOn with
  | nil => exact List.take_nil.symm
  | append_singleton steps s ih =>
    rw [recorded_concat]
    exact keepsLastUsed_step (settings_recorded capacity 0 steps).2 ih s

/-- What a cache without a lifetime is after its history. -/
structure KeepsRecent (capacity : Nat) (r : Recorded α) : Prop where
  /-- A key is there if it was used and fewer other keys than fit were used after its last use. -/
  contains_iff : ∀ key, r.cache.contains key = true ↔ key ∈ uses r.past ∧
    ((uses r.past).takeWhile fun other => other != key).eraseDups.length < capacity
  size_eq : r.cache.size = min capacity (uses r.past).eraseDups.length
  /-- A key that is there is served what its last build gave. -/
  served : ∀ now done key build, r.cache.contains key = true →
    ∃ value built, lastBuild? key r.past = some (some value, built) ∧
      (r.cache.step (.get now done key build)).1 = .get key (some value) [] done
  /-- For any other key the builder is run once. -/
  built : ∀ now done key build, r.cache.contains key = false →
    (r.cache.step (.get now done key build)).1 = .get key (build key) [key] done
  /-- A builder that gives nothing leaves the cache as it was. -/
  kept : ∀ now done key build, r.cache.contains key = false → build key = none →
    (r.cache.step (.get now done key build)).2 = r.cache

/-- Without a lifetime, the entries that are there are the ones used least long ago. -/
theorem keepsRecent_recorded (capacity : Nat) (steps : List (Step α)) :
    KeepsRecent (max capacity 50) (recorded capacity 0 steps) := by
  have hkeys := keepsLastUsed_recorded capacity steps
  have hfrom := isFrom_recorded capacity 0 steps
  obtain ⟨hcapacity, hlifetime⟩ := settings_recorded capacity 0 steps
  rw [KeepsLastUsed, hcapacity] at hkeys
  generalize recorded capacity 0 steps = r at *
  have hmissing : ∀ now key, r.cache.contains key = false → r.cache.live? now key = none :=
    fun now key hcontains => by
      rw [live?_eq_find? hlifetime, ← Option.isNone_iff_eq_none, ← Option.isSome_eq_false_iff]
      exact hcontains
  exact
    { contains_iff := fun key => by rw [contains_iff, hkeys, mem_take_eraseDups]
      size_eq := by
        rw [size, ← List.length_map Prod.fst, ← List.length_take]
        exact congrArg List.length hkeys
      served := fun now done key build hcontains => by
        obtain ⟨value, built, hfind⟩ := exists_find?_of_contains hcontains
        have hlive := (live?_eq_find? hlifetime now key).trans hfind
        refine ⟨value, built, hfrom.find? hfind, ?_⟩
        rw [step_get_of_live hlive]
      built := fun now done key build hcontains => by
        rw [step_get_of_not_live (hmissing now key hcontains)]
      kept := fun now done key build hcontains hbuild => by
        have hlive := hmissing now key hcontains
        rw [step_get_of_not_live hlive, hbuild]
        rw [live?_eq_find? hlifetime, find?_eq_none_iff] at hlive
        dsimp only
        rw [without_of_notMem hlive] }

end InventoryQuery.Cache
