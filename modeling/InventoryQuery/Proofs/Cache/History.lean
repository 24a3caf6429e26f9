import InventoryQuery.Proofs.Cache.Contents
import Mathlib.Data.List.Induction
/-!
# The history of a cache

A cache lives through look-ups, tests whether a key is there, and clearings, and each of them leaves
an event in its history.  The history alone tells which keys were used and which build of a key was
the last one.  Every entry comes from the last build of its key.
-/

namespace InventoryQuery.Cache

variable {α : Type}

/-! ## Steps and events -/

/-- A call of a cache. -/
inductive Step (α : Type) where
  /-- A look-up when the clock shows `now`; the builder is done at `done` if it is run. -/
  | get (now done : Nat) (key : Text) (build : Text → Option α)
  | contains (key : Text)
  | clear

/-- What the clock shows in a step. -/
def Step.readings : Step α → List Nat
  | .get now done _ _ => [now, done]
  | .contains _ => []
  | .clear => []

/-- What a call came to. -/
inductive Event (α : Type) where
  /-- A look-up, with the keys that the builder was run on. -/
  | get (key : Text) (value : Option α) (runs : List Text) (done : Nat)
  | contains (key : Text) (answer : Bool)
  | clear

/-- A builder that notes the keys it is run on. -/
def noting (build : Text → Option α) (key : Text) : StateM (List Text) (Option α) := do
  modify (key :: ·)
  return build key

/-- The event of a step, and the cache after it. -/
def step (c : Cache α) : Step α → Event α × Cache α
  | .get now done key build =>
    match Id.run ((c.getOrBuildAt now done key (noting build)).run []) with
    | ((value, next), runs) => (.get key value runs done, next)
  | .contains key => (.contains key (c.contains key), c)
  | .clear => (.clear, c.clear)

/-- A cache with its history, the last event in front. -/
structure Recorded (α : Type) where
  cache : Cache α
  past : List (Event α)

def Recorded.step (r : Recorded α) (s : Step α) : Recorded α :=
  ⟨(r.cache.step s).2, (r.cache.step s).1 :: r.past⟩

/-- A new cache after some steps. -/
def recorded (capacity lifetime : Nat) (steps : List (Step α)) : Recorded α :=
  steps.foldl Recorded.step ⟨.empty capacity lifetime, []⟩

/-- What is true of a new cache and kept by every step is true after all steps. -/
theorem recorded_induction {P : Recorded α → Prop} {capacity lifetime : Nat}
    (hempty : P ⟨.empty capacity lifetime, []⟩) (hstep : ∀ r s, P r → P (r.step s))
    (steps : List (Step α)) : P (recorded capacity lifetime steps) :=
  List.foldlRecOn steps Recorded.step hempty fun r h s _ => hstep r s h

theorem recorded_concat (capacity lifetime : Nat) (steps : List (Step α)) (s : Step α) :
    recorded capacity lifetime (steps ++ [s]) = (recorded capacity lifetime steps).step s := by
  rw [recorded, List.foldl_append]
  rfl

/-- The keys whose look-ups had a value since the last clearing, the last one in front. -/
def uses : List (Event α) → List Text
  | [] => []
  | .get key value _ _ :: past => if value.isSome then key :: uses past else uses past
  | .contains _ _ :: past => uses past
  | .clear :: _ => []

/-- The last run of the builder on a key since the last clearing: what it gave, and when. -/
def lastBuild? (key : Text) : List (Event α) → Option (Option α × Nat)
  | [] => none
  | .get other value runs done :: past =>
    if other = key ∧ runs ≠ [] then some (value, done) else lastBuild? key past
  | .contains _ _ :: past => lastBuild? key past
  | .clear :: _ => none

/-! ## Entries and their keys -/

variable {c : Cache α} {now done built : Nat} {key : Text} {value : α} {build : Text → Option α}

def keys (c : Cache α) : List Text := c.entries.map Prod.fst

theorem contains_iff : c.contains key = true ↔ key ∈ c.keys := by
  rw [contains, find?, List.lookup_isSome_iff, keys, List.mem_map]
  exact exists_congr fun entry => and_congr_right fun _ => by rw [beq_iff_eq, eq_comm]

theorem find?_eq_none_iff : c.find? key = none ↔ key ∉ c.keys := by
  rw [← contains_iff, contains, Bool.not_eq_true, Option.isSome_eq_false_iff,
    Option.isNone_iff_eq_none]

theorem exists_find?_of_contains (h : c.contains key = true) :
    ∃ value built, c.find? key = some (value, built) := by
  obtain ⟨found, hfind⟩ := Option.isSome_iff_exists.1 h
  exact ⟨found.1, found.2, hfind⟩

theorem keys_without (c : Cache α) (key : Text) :
    (c.without key).map Prod.fst = c.keys.filter fun other => other != key := by
  rw [keys, List.filter_map]
  rfl

theorem without_of_notMem (h : key ∉ c.keys) : c.without key = c.entries := by
  rw [without, List.filter_eq_self]
  intro entry hentry
  rw [bne_iff_ne]
  exact fun heq => h (heq ▸ List.mem_map_of_mem hentry)

theorem length_without_lt (h : key ∈ c.keys) : (c.without key).length < c.size := by
  obtain ⟨entry, hentry, hkey⟩ := List.mem_map.1 h
  refine List.length_filter_lt_length_iff_exists.2 ⟨entry, hentry, ?_⟩
  rw [hkey, bne_self_eq_false]
  exact Bool.false_ne_true

theorem without_without (c : Cache α) (key : Text) :
    ({ c with entries := c.without key } : Cache α).without key = c.without key :=
  List.filter_filter.trans (by simp only [Bool.and_self]; rfl)

/-! ## Looking up -/

/-- What a look-up finds and can use: the value under the key and the time of its build. -/
def live? (c : Cache α) (now : Nat) (key : Text) : Option (α × Nat) :=
  (c.find? key).filter fun found => !c.isExpired now found.2

theorem live?_eq_some_iff : c.live? now key = some (value, built) ↔
    c.find? key = some (value, built) ∧ c.isExpired now built = false := by
  rw [live?, Option.filter_eq_some_iff, Bool.not_eq_true']

theorem contains_of_live {found : α × Nat} (h : c.live? now key = some found) :
    c.contains key = true := by
  rw [contains, (live?_eq_some_iff.1 h).1]
  rfl

/-- A value that can be used is returned, and its entry moves to the front as it is. -/
theorem step_get_of_live (h : c.live? now key = some (value, built)) :
    c.step (.get now done key build) =
      (.get key (some value) [] done,
        { c with entries := (key, value, built) :: c.without key }) := by
  obtain ⟨hfind, hfresh⟩ := live?_eq_some_iff.1 h
  simp only [step, getOrBuildAt, hfind, hfresh]
  rfl

/-- Otherwise the builder is run, once; what it gives is put in front, and an entry that was there
is gone in any case. -/
theorem step_get_of_not_live (h : c.live? now key = none) :
    c.step (.get now done key build) =
      (.get key (build key) [key] done,
        match build key with
        | some value => c.push done key value
        | none => { c with entries := c.without key }) := by
  cases hfind : c.find? key with
  | none =>
    have hwithout := without_of_notMem (find?_eq_none_iff.1 hfind)
    rw [hwithout]
    simp only [step, getOrBuildAt, hfind, rebuild, noting]
    cases build key <;> rfl
  | some found =>
    have hexpired : c.isExpired now found.2 = true := by
      rw [live?, hfind, Option.filter_some] at h
      simpa using h
    simp only [step, getOrBuildAt, hfind, hexpired, rebuild, noting, push, without_without]
    cases build key <;> rfl

/-- Only a value that can be used is returned without a run of the builder. -/
theorem live_of_event {result : Option α}
    (h : (c.step (.get now done key build)).1 = .get key result [] done) :
    ∃ value built, c.live? now key = some (value, built) ∧ result = some value := by
  cases hlive : c.live? now key with
  | some found =>
    rw [step_get_of_live hlive] at h
    injection h with _ hresult
    exact ⟨found.1, found.2, rfl, hresult.symm⟩
  | none =>
    rw [step_get_of_not_live hlive] at h
    injection h with _ _ hruns
    cases hruns

theorem event_get (c : Cache α) (now done : Nat) (key : Text) (build : Text → Option α) :
    ∃ value runs, (c.step (.get now done key build)).1 = .get key value runs done :=
  ⟨_, _, rfl⟩

/-! ## What every history leaves -/

theorem size_le_step (h : c.size ≤ c.capacity) (s : Step α) :
    (c.step s).2.size ≤ (c.step s).2.capacity := by
  cases s with
  | contains key => exact h
  | clear => exact Nat.zero_le _
  | get now done key build =>
    cases hlive : c.live? now key with
    | some found =>
      rw [step_get_of_live hlive]
      have hmem := contains_iff.1 (contains_of_live hlive)
      exact Nat.le_trans (length_without_lt hmem) h
    | none =>
      rw [step_get_of_not_live hlive]
      cases build key with
      | some value => exact List.length_take_le _ _
      | none => exact Nat.le_trans (List.length_filter_le _ _) h

theorem settings_step (c : Cache α) (s : Step α) :
    (c.step s).2.capacity = c.capacity ∧ (c.step s).2.lifetime = c.lifetime := by
  cases s with
  | contains key => exact ⟨rfl, rfl⟩
  | clear => exact ⟨rfl, rfl⟩
  | get now done key build =>
    cases hlive : c.live? now key with
    | some found =>
      rw [step_get_of_live hlive]
      exact ⟨rfl, rfl⟩
    | none =>
      rw [step_get_of_not_live hlive]
      cases build key <;> exact ⟨rfl, rfl⟩

/-- Every entry is what the last build of its key gave, with the time at which it was done. -/
def IsFrom (c : Cache α) (past : List (Event α)) : Prop :=
  ∀ entry ∈ c.entries, lastBuild? entry.1 past = some (some entry.2.1, entry.2.2)

theorem IsFrom.find? {past : List (Event α)} (h : c.IsFrom past)
    (hfind : c.find? key = some (value, built)) : lastBuild? key past = some (some value, built) :=
  h _ (mem_entries_of_find? hfind)

/-- An entry that is there is the one that the last build of its key left. -/
theorem IsFrom.find?_of_contains {past : List (Event α)} (h : c.IsFrom past)
    (hcontains : c.contains key = true) {result : Option α}
    (hlast : lastBuild? key past = some (result, built)) :
    ∃ value, result = some value ∧ c.find? key = some (value, built) := by
  obtain ⟨value, time, hfind⟩ := exists_find?_of_contains hcontains
  obtain ⟨rfl, rfl⟩ := Prod.mk.inj (Option.some.inj ((h.find? hfind).symm.trans hlast))
  exact ⟨value, rfl, hfind⟩

theorem isFrom_step {past : List (Event α)} (h : c.IsFrom past) (s : Step α) :
    (c.step s).2.IsFrom ((c.step s).1 :: past) := by
  cases s with
  | contains key => exact h
  | clear => exact fun entry hentry => absurd hentry List.not_mem_nil
  | get now done key build =>
    cases hlive : c.live? now key with
    | some found =>
      obtain ⟨value, built⟩ := found
      rw [step_get_of_live hlive]
      intro entry hentry
      rw [lastBuild?, if_neg fun hrun => hrun.2 rfl]
      rcases List.mem_cons.1 hentry with rfl | hentry
      · exact h.find? (live?_eq_some_iff.1 hlive).1
      · exact h entry (List.mem_filter.1 hentry).1
    | none =>
      rw [step_get_of_not_live hlive]
      -- The entries that stay are of other keys, so this build is not theirs.
      have hothers : ∀ entry ∈ c.without key, lastBuild? entry.1
          (.get key (build key) [key] done :: past) = some (some entry.2.1, entry.2.2) := by
        intro entry hentry
        obtain ⟨hentry, hother⟩ := List.mem_filter.1 hentry
        rw [lastBuild?, if_neg fun hrun => bne_iff_ne.1 hother hrun.1.symm]
        exact h entry hentry
      generalize build key = result at hothers ⊢
      cases result with
      | none => exact hothers
      | some value =>
        intro entry hentry
        rcases List.mem_cons.1 (List.mem_of_mem_take hentry) with rfl | hentry
        · exact if_pos ⟨rfl, List.cons_ne_nil _ _⟩
        · exact hothers entry hentry

variable (capacity lifetime : Nat) (steps : List (Step α))

theorem settings_recorded : (recorded capacity lifetime steps).cache.capacity = max capacity 50 ∧
    (recorded capacity lifetime steps).cache.lifetime = lifetime := by
  refine recorded_induction (P := fun r : Recorded α =>
    r.cache.capacity = max capacity 50 ∧ r.cache.lifetime = lifetime) ⟨rfl, rfl⟩
    (fun r s h => ?_) steps
  obtain ⟨hcapacity, hlifetime⟩ := settings_step r.cache s
  exact ⟨hcapacity.trans h.1, hlifetime.trans h.2⟩

theorem size_le_recorded : (recorded capacity lifetime steps).cache.size ≤ max capacity 50 := by
  rw [← (settings_recorded capacity lifetime steps).1]
  exact recorded_induction (P := fun r : Recorded α => r.cache.size ≤ r.cache.capacity)
    (Nat.zero_le _) (fun _ s h => size_le_step h s) steps

theorem isFrom_recorded : (recorded capacity lifetime steps).cache.IsFrom
    (recorded capacity lifetime steps).past :=
  recorded_induction (P := fun r : Recorded α => r.cache.IsFrom r.past)
    (fun _ hentry => absurd hentry List.not_mem_nil) (fun _ s h => isFrom_step h s) steps

end InventoryQuery.Cache
