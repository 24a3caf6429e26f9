import InventoryQuery.Cache
/-!
# What a cache holds

A property of keys and values that every built value has is a property of everything the cache
ever holds: uses, evictions, expiry and clearing only drop entries or move them.
-/

namespace InventoryQuery.Cache

universe u

variable {α : Type u} {P : Text → α → Prop} {c : Cache α}

/-- Every entry has the property. -/
def Holds (c : Cache α) (P : Text → α → Prop) : Prop := ∀ entry ∈ c.entries, P entry.1 entry.2.1

theorem holds_empty (capacity lifetime : Nat) : (empty capacity lifetime : Cache α).Holds P :=
  fun _ hentry => absurd hentry List.not_mem_nil

theorem holds_clear (c : Cache α) : c.clear.Holds P :=
  fun _ hentry => absurd hentry List.not_mem_nil

theorem mem_entries_of_find? {key : Text} {value : α} {built : Nat}
    (hfind : c.find? key = some (value, built)) : (key, value, built) ∈ c.entries :=
  Text.mem_of_lookup hfind

namespace Holds

theorem find? (hc : c.Holds P) {key : Text} {value : α} {built : Nat}
    (hfind : c.find? key = some (value, built)) : P key value :=
  hc _ (mem_entries_of_find? hfind)

theorem without (hc : c.Holds P) (key : Text) :
    ({ c with entries := c.without key } : Cache α).Holds P :=
  fun entry hentry => hc entry (List.mem_filter.1 hentry).1

theorem front (hc : c.Holds P) {key : Text} {value : α} (hvalue : P key value) (built : Nat) :
    ({ c with entries := (key, value, built) :: c.without key } : Cache α).Holds P := by
  intro entry hentry
  rcases List.mem_cons.1 hentry with rfl | hentry
  · exact hvalue
  · exact hc.without key entry hentry

theorem push (hc : c.Holds P) {key : Text} {value : α} (hvalue : P key value) (now : Nat) :
    (c.push now key value).Holds P :=
  fun entry hentry => hc.front hvalue now entry (List.mem_of_mem_take hentry)

theorem rebuild (hc : c.Holds P) {key : Text} {build : Text → Id (Option α)}
    (hbuild : ∀ value, build key = some value → P key value) (now : Nat)
    {result : Option α} {next : Cache α} (h : Id.run (c.rebuild now key build) = (result, next)) :
    (∀ value, result = some value → P key value) ∧ next.Holds P := by
  cases hvalue : build key with
  | none =>
    simp only [Cache.rebuild, hvalue, bind, pure, Id.run] at h
    obtain ⟨rfl, rfl⟩ := Prod.mk.inj h
    exact ⟨fun value hsome => absurd hsome (by simp), hc⟩
  | some value =>
    simp only [Cache.rebuild, hvalue, bind, pure, Id.run] at h
    obtain ⟨rfl, rfl⟩ := Prod.mk.inj h
    have hP : P key value := hbuild value hvalue
    exact ⟨fun _ hsome => Option.some.inj hsome ▸ hP, hc.push hP now⟩

/-- A use of the cache hands out values with the property only, and keeps the property. -/
theorem getOrBuild (hc : c.Holds P) {key : Text} {build : Text → Id (Option α)}
    (hbuild : ∀ value, build key = some value → P key value) (now : Nat)
    {result : Option α} {next : Cache α}
    (h : Id.run (c.getOrBuild now key build) = (result, next)) :
    (∀ value, result = some value → P key value) ∧ next.Holds P := by
  unfold Cache.getOrBuild Cache.getOrBuildAt at h
  cases hfind : c.find? key with
  | none =>
    rw [hfind] at h
    exact hc.rebuild hbuild now h
  | some found =>
    obtain ⟨value, built⟩ := found
    simp only [hfind] at h
    split at h
    · exact (hc.without key).rebuild hbuild now h
    · obtain ⟨rfl, rfl⟩ := Prod.mk.inj h
      have hP : P key value := hc.find? hfind
      exact ⟨fun _ hsome => Option.some.inj hsome ▸ hP, hc.front hP built⟩

end Holds

end InventoryQuery.Cache
