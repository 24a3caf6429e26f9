import InventoryQuery.Proofs.Cache.Contents
import InventoryQuery.Proofs.Service.Removal
import InventoryQuery.Service.Session
/-!
# What a request can do to an inventory

A request leaves the inventory as it is, takes away what criteria select, or gives the item that
criteria describe; the last two need to be enabled.  Criteria take something away only if the
request says so: they are not read that way, so they are not cached that way either.
-/

namespace InventoryQuery

open Placeholder (Expander)

namespace Service

/-- No cached criteria take anything away. -/
def AsksOnly (s : Service) : Prop := s.cache.Holds fun _ c => c.removes = false

/-- A service that differs from `s` by what it has cached at most, and has nothing cached that takes
anything away. -/
structure Follows (next s : Service) : Prop where
  config_eq : next.config = s.config
  potions_eq : next.potions = s.potions
  asksOnly : next.AsksOnly

/-- What a request can make of an inventory. -/
inductive Effect (s : Service) (inv : Inventory) : Inventory → Prop
  | kept : Effect s inv inv
  | taken (henabled : s.config.removeEnabled = true) (c : Criteria) :
      Effect s inv (c.take (c.select s.host inv) inv).1
  | given (henabled : s.config.giveEnabled = true) {c : Criteria} {item : Stack}
      (hitem : c.item? s.host = some item) : Effect s inv (give c item inv)

variable {s next : Service} {inv : Inventory}

theorem AsksOnly.follows (h : s.AsksOnly) : s.Follows s := ⟨rfl, rfl, h⟩

theorem Follows.host_eq (h : next.Follows s) : next.host = s.host := by
  rw [host, host, h.config_eq, h.potions_eq]

theorem asksOnly_ofConfig (config : Config) : (ofConfig config).AsksOnly :=
  Cache.holds_empty _ _

theorem asksOnly_clearCache (s : Service) : s.clearCache.AsksOnly := s.cache.holds_clear

/-- Criteria that are looked up do not take anything away. -/
theorem lookUp_asks (hs : s.AsksOnly) (expand : Expander) (now : Nat) (args : Text) :
    (s.lookUp expand now args).1.removes = false ∧ (s.lookUp expand now args).2.Follows s := by
  have hread : (s.readCriteria expand args).removes = false := Criteria.removes_readWith _ _
  have hbuild : ∀ c, some (s.readCriteria expand args) = some c → c.removes = false :=
    fun c hc => Option.some.inj hc ▸ hread
  unfold lookUp
  split
  · split
    · next c cache hget =>
      obtain ⟨hc, hcache⟩ := hs.getOrBuild hbuild now hget
      exact ⟨hc c rfl, rfl, rfl, hcache⟩
    · next cache hget => exact ⟨hread, rfl, rfl, (hs.getOrBuild hbuild now hget).2⟩
  · exact ⟨hread, hs.follows⟩

/-- Criteria of a request take something away only where that is enabled. -/
theorem criteriaOf?_removes (hs : s.AsksOnly) (expand : Expander) (now : Nat) (args : Text) :
    (∀ c ∈ (s.criteriaOf? expand now args).1, c.removes = true → s.config.removeEnabled = true) ∧
      (s.criteriaOf? expand now args).2.Follows s := by
  unfold criteriaOf?
  split
  · split
    · next henabled => exact ⟨fun _ _ _ => henabled, hs.follows⟩
    · exact ⟨fun _ hc => (nomatch hc), hs.follows⟩
  · obtain ⟨hc, hnext⟩ := lookUp_asks hs expand now (Color.paint args)
    refine ⟨fun c hmem hremoves => ?_, hnext⟩
    rw [← Option.some.inj hmem, hc] at hremoves
    cases hremoves

theorem effect_evaluate (hnext : next.Follows s) {c : Criteria}
    (hc : c.removes = true → s.config.removeEnabled = true) (inv : Inventory) :
    s.Effect inv (next.evaluate c inv).2 := by
  unfold evaluate
  dsimp only
  split
  · next hremoves =>
    rw [hnext.host_eq]
    exact .taken (hc hremoves) c
  · exact .kept

theorem effect_check (hs : s.AsksOnly) (expand : Expander) (now : Nat) (args : Text)
    (inv : Inventory) :
    s.Effect inv (s.check expand now args inv).2.2 ∧
      (s.check expand now args inv).2.1.Follows s := by
  obtain ⟨hc, hnext⟩ := criteriaOf?_removes hs expand now args
  unfold check
  split
  · next hcriteria =>
    rw [hcriteria] at hnext
    exact ⟨.kept, hnext⟩
  · next c next hcriteria =>
    rw [hcriteria] at hc hnext
    split
    · exact ⟨.kept, hnext⟩
    · exact ⟨effect_evaluate hnext (hc c rfl) inv, hnext⟩

theorem effect_measure (hs : s.AsksOnly) (expand : Expander) (now : Nat) (args : Text)
    (inv : Inventory) :
    s.Effect inv (s.measure expand now args inv).2.2 ∧
      (s.measure expand now args inv).2.1.Follows s := by
  obtain ⟨hc, hnext⟩ := criteriaOf?_removes hs expand now args
  unfold measure
  split
  · next hcriteria =>
    rw [hcriteria] at hnext
    exact ⟨.kept, hnext⟩
  · next c next hcriteria =>
    rw [hcriteria] at hc hnext
    exact ⟨effect_evaluate hnext (hc c rfl) inv, hnext⟩

theorem effect_answerGive (s : Service) (expand : Expander) (args : Text) (inv : Inventory) :
    s.Effect inv (s.answerGive expand args inv).2 := by
  unfold answerGive
  split
  · next henabled =>
    dsimp only
    split
    · exact .kept
    · next item hitem => exact .given henabled hitem
  · exact .kept

/-- A request has one of the effects, whatever the placeholders bring in, and leaves a service of
which the same can be said. -/
theorem effect_answer (hs : s.AsksOnly) (expand : Expander) (now : Nat) (args : Text)
    (inv : Inventory) :
    s.Effect inv (s.answer expand now args inv).2.2 ∧
      (s.answer expand now args inv).2.1.Follows s := by
  unfold answer
  dsimp only
  split
  · exact ⟨s.effect_answerGive expand _ inv, hs.follows⟩
  · split
    · exact effect_measure hs expand now _ inv
    · exact effect_check hs expand now _ inv

theorem Follows.trans {last : Service} (h : last.Follows next) (hnext : next.Follows s) :
    last.Follows s :=
  ⟨h.config_eq.trans hnext.config_eq, h.potions_eq.trans hnext.potions_eq, h.asksOnly⟩

end Service

namespace Session

theorem follows_step {s : Session} (hs : s.service.AsksOnly) (now : Nat) (step : Step) :
    (s.step now step).2.service.Follows s.service := by
  cases step with
  | request expand args => exact (Service.effect_answer hs expand now args s.inventory).2
  | anonymous args => exact hs.follows
  | clearCache => exact ⟨rfl, rfl, s.service.asksOnly_clearCache⟩
  | edit e => exact hs.follows

/-- Whatever happens in a session, its service keeps to its settings and caches nothing that takes
anything away. -/
theorem follows_after {s : Session} (hs : s.service.AsksOnly) (steps : List (Nat × Step)) :
    (s.after steps).service.Follows s.service := by
  induction steps generalizing s with
  | nil => exact hs.follows
  | cons entry steps ih =>
    have hstep := follows_step hs entry.1 entry.2
    exact (ih hstep.asksOnly).trans hstep

end Session

end InventoryQuery
