import InventoryQuery.Proofs.Cache.History
/-!
# Lifetimes of cached values

With a lifetime, a value is served for that long after it was built and no longer, however often it
is used in between.  A look-up that finds it too old builds it anew or is left without it, and the
other entries stay as they are.
-/

namespace InventoryQuery.Cache

variable {α : Type} {c : Cache α} {now done built lifetime : Nat} {key : Text} {value : α}
  {build : Text → Option α}

theorem isExpired_eq_false_iff (h : c.lifetime ≠ 0) :
    c.isExpired now built = false ↔ now - built ≤ c.lifetime := by
  rw [isExpired, bne_iff_ne.2 h, Bool.true_and, decide_eq_false_iff_not, Nat.not_lt]

theorem live?_eq_none_of_lt (hfind : c.find? key = some (value, built))
    (hold : c.lifetime < now - built) (hlifetime : c.lifetime ≠ 0) : c.live? now key = none := by
  cases hlive : c.live? now key with
  | none => rfl
  | some found =>
    obtain ⟨hsame, hfresh⟩ := live?_eq_some_iff.1 hlive
    have htime : built = found.2 := congrArg Prod.snd (Option.some.inj (hfind.symm.trans hsame))
    rw [← htime] at hfresh
    exact absurd ((isExpired_eq_false_iff hlifetime).1 hfresh) (Nat.not_le.2 hold)

/-- A build is done at a time that the clock has shown. -/
theorem mem_readings_of_lastBuild? {capacity : Nat} {steps : List (Step α)} {result : Option α}
    (h : lastBuild? key (recorded capacity lifetime steps).past = some (result, built)) :
    built ∈ steps.flatMap Step.readings := by
  induction steps using List.reverseRecOn with
  | nil => cases h
  | append_singleton steps s ih =>
    rw [List.flatMap_append, List.mem_append]
    rw [recorded_concat, Recorded.step] at h
    cases s with
    | contains other => exact .inl (ih h)
    | clear => cases h
    | get now done other build =>
      obtain ⟨value, runs, hevent⟩ := event_get (recorded capacity lifetime steps).cache now done
        other build
      rw [hevent, lastBuild?] at h
      split at h
      · obtain ⟨-, rfl⟩ := Prod.mk.inj (Option.some.inj h)
        exact .inr (by simp [Step.readings])
      · exact .inl (ih h)

theorem push_of_contains (h : c.contains key = true) (hsize : c.size ≤ c.capacity) :
    c.push done key value = { c with entries := (key, value, done) :: c.without key } := by
  -- The entry that goes leaves room for the one that comes.
  have hroom := length_without_lt (contains_iff.1 h)
  have hfits : ((key, value, done) :: c.without key).length ≤ c.capacity := by
    rw [List.length_cons]
    omega
  rw [push, List.take_of_length_le hfits]

theorem without_front (c : Cache α) (key : Text) (value : α) (built : Nat) :
    ({ c with entries := (key, value, built) :: c.without key } : Cache α).without key =
      c.without key := by
  rw [without, List.filter_cons_of_neg (by simp)]
  exact without_without c key

theorem find?_without (c : Cache α) (key : Text) :
    ({ c with entries := c.without key } : Cache α).find? key = none := by
  rw [find?_eq_none_iff, keys, keys_without, List.mem_filter, bne_self_eq_false]
  exact fun h => Bool.false_ne_true h.2

/-- The other entries stay, in their order, whatever a look-up of a key that is there comes to. -/
theorem without_step_get (h : c.contains key = true) (hsize : c.size ≤ c.capacity) :
    (c.step (.get now done key build)).2.without key = c.without key := by
  cases hlive : c.live? now key with
  | some found =>
    rw [step_get_of_live hlive]
    exact without_front c key found.1 found.2
  | none =>
    rw [step_get_of_not_live hlive]
    cases build key with
    | none => exact without_without c key
    | some value =>
      dsimp only
      rw [push_of_contains h hsize]
      exact without_front c key value done

/-- What is built in place of an entry that is there is found under its key afterwards. -/
theorem find?_step_get (h : c.contains key = true) (hsize : c.size ≤ c.capacity)
    (hlive : c.live? now key = none) :
    (c.step (.get now done key build)).2.find? key =
      (build key).map fun value => (value, done) := by
  rw [step_get_of_not_live hlive]
  cases build key with
  | none => exact find?_without c key
  | some value =>
    dsimp only
    rw [push_of_contains h hsize]
    exact List.lookup_cons_self

/-- What a look-up comes to in a cache whose entries live for a time. -/
structure ServesInTime (capacity lifetime : Nat) (r : Recorded α) (now done : Nat) (key : Text)
    (build : Text → Option α) : Prop where
  /-- What is served without a run of the builder is what its last run gave, since the last clearing
  and at most a lifetime ago. -/
  hit : ∀ result, (r.cache.step (.get now done key build)).1 = .get key result [] done →
    ∃ value built, result = some value ∧ lastBuild? key r.past = some (some value, built) ∧
      built ≤ now ∧ now - built ≤ lifetime
  /-- An entry is served for a lifetime. -/
  fresh : ∀ result built, r.cache.contains key = true →
    lastBuild? key r.past = some (result, built) → now - built ≤ lifetime →
      (r.cache.step (.get now done key build)).1 = .get key result [] done
  /-- For an older entry the builder is run once.  What it gives takes the place of the entry, and
  when it gives nothing the entry is gone. -/
  stale : ∀ result built, r.cache.contains key = true →
    lastBuild? key r.past = some (result, built) → lifetime < now - built →
      (r.cache.step (.get now done key build)).1 = .get key (build key) [key] done ∧
        (r.cache.step (.get now done key build)).2.find? key =
          (build key).map fun value => (value, done)
  others : r.cache.contains key = true →
    (r.cache.step (.get now done key build)).2.without key = r.cache.without key
  size_le : r.cache.size ≤ max capacity 50

/-- No value outlives its time. -/
theorem servesInTime_recorded (capacity : Nat) {lifetime : Nat} (hlifetime : 0 < lifetime)
    (steps : List (Step α)) {now done : Nat} {key : Text} {build : Text → Option α}
    (hclock : ((steps ++ [Step.get now done key build]).flatMap Step.readings).Pairwise (· ≤ ·)) :
    ServesInTime capacity lifetime (recorded capacity lifetime steps) now done key build := by
  have hfrom := isFrom_recorded capacity lifetime steps
  have hsize := size_le_recorded capacity lifetime steps
  obtain ⟨hcapacity, hlife⟩ := settings_recorded capacity lifetime steps
  have hpast : ∀ reading ∈ steps.flatMap Step.readings, reading ≤ now := fun reading hreading => by
    rw [List.flatMap_append, List.pairwise_append] at hclock
    exact hclock.2.2 reading hreading now (by simp [Step.readings])
  have hbuilt : ∀ result built, lastBuild? key (recorded capacity lifetime steps).past =
      some (result, built) → built ≤ now :=
    fun _ _ hlast => hpast _ (mem_readings_of_lastBuild? hlast)
  generalize recorded capacity lifetime steps = r at *
  have hpositive : r.cache.lifetime ≠ 0 := by omega
  exact
    { hit := fun result hevent => by
        obtain ⟨value, built, hlive, rfl⟩ := live_of_event hevent
        obtain ⟨hfind, hexpired⟩ := live?_eq_some_iff.1 hlive
        have hlast := hfrom.find? hfind
        rw [isExpired_eq_false_iff hpositive, hlife] at hexpired
        exact ⟨value, built, rfl, hlast, hbuilt _ _ hlast, hexpired⟩
      fresh := fun result built hcontains hlast hle => by
        obtain ⟨value, rfl, hfind⟩ := hfrom.find?_of_contains hcontains hlast
        have hexpired := (isExpired_eq_false_iff hpositive).2 (hlife.symm ▸ hle)
        rw [step_get_of_live (live?_eq_some_iff.2 ⟨hfind, hexpired⟩)]
      stale := fun result built hcontains hlast hlt => by
        obtain ⟨value, rfl, hfind⟩ := hfrom.find?_of_contains hcontains hlast
        have hlive := live?_eq_none_of_lt hfind (hlife.symm ▸ hlt) hpositive
        refine ⟨?_, find?_step_get hcontains (hcapacity ▸ hsize) hlive⟩
        rw [step_get_of_not_live hlive]
      others := fun hcontains => without_step_get hcontains (hcapacity ▸ hsize)
      size_le := hsize }

/-- A hit eleven units after the start does not keep an entry of lifetime ten, which was built at
one, from being too old a unit later; the builder gives nothing and the entry is gone. -/
theorem servesInTime_recorded_twice_used :
    let a := "a".toList
    let b := "b".toList
    let steps : List (Step Nat) :=
      [.get 0 1 a fun _ => some 5, .get 3 3 b fun _ => some 6, .get 11 11 a fun _ => some 7]
    let r := recorded 2 10 steps
    let build : Text → Option Nat := fun _ => none
    r.cache.contains a = true ∧ lastBuild? a r.past = some (some 5, 1) ∧
      (r.cache.step (.get 12 13 a build)).1 = .get a none [a] 13 ∧
      (r.cache.step (.get 12 13 a build)).2.find? a = none ∧
      (r.cache.step (.get 12 13 a build)).2.without a = [(b, 6, 3)] := by
  intro a b steps r build
  have hcontains : r.cache.contains a = true := by decide
  have hlast : lastBuild? a r.past = some (some 5, 1) := by decide
  have hserved : ServesInTime 2 10 r 12 13 a build :=
    servesInTime_recorded 2 (by decide) steps (by decide)
  obtain ⟨hevent, hfind⟩ := hserved.stale _ _ hcontains hlast (by decide)
  have hothers : r.cache.without a = [(b, 6, 3)] := by decide
  exact ⟨hcontains, hlast, hevent, hfind, (hserved.others hcontains).trans hothers⟩

end InventoryQuery.Cache
