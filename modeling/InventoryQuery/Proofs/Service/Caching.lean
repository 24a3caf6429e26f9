import InventoryQuery.Proofs.Cache.Contents
import InventoryQuery.Proofs.Criteria.PlainReading
import InventoryQuery.Proofs.Service.Routing
import InventoryQuery.Service.Session
/-!
# Caching does not show

Criteria are cached under their texts only where the text is plain, and a plain text gives the
same criteria under every table.  So the cache holds, at every moment, what a fresh reading of the
key gives to whoever asks, and two services that differ in their caching alone cannot be told
apart by their answers or by what they do to an inventory.
-/

namespace InventoryQuery

open Placeholder (Expander IsHosted IsPlain)

/-- The settings with everything that is about caching put to fixed values. -/
def Config.withoutCaching (c : Config) : Config :=
  { c with cacheEnabled := false, cacheMaxSize := 0, cacheTtlMillis := 0 }

namespace Service

/-- What is left of a service when its caching is forgotten. -/
def uncached (s : Service) : Service :=
  { s with config := s.config.withoutCaching, cache := .empty 0 0 }

/-- Every cached value is what a reading without placeholders gives for its key, and the key is
plain. -/
def CachesFaithfully (s : Service) : Prop :=
  s.cache.Holds fun key c => IsPlain key ∧ c = Criteria.readWith id key

/-- A service that differs from `s` by what it has cached at most. -/
structure CachedFrom (next s : Service) : Prop where
  uncached_eq : next.uncached = s.uncached
  faithful : next.CachesFaithfully

theorem isDynamic_eq_false_iff {args : Text} : isDynamic args = false ↔ IsPlain args := by
  simp only [isDynamic, List.any_eq_false, Bool.or_eq_true, beq_iff_eq, not_or, and_assoc, IsPlain]

variable {s t : Service}

/-- What does not look at the caching is the same for services that differ in it alone. -/
theorem eq_of_uncached_eq (h : s.uncached = t.uncached) {β : Type} (f : Service → β)
    (hf : ∀ s : Service, f s = f s.uncached) : f s = f t := by
  rw [hf s, hf t, h]

theorem readCriteria_of_isPlain (s : Service) {expand : Expander} (hexpand : IsHosted expand)
    {text : Text} (htext : IsPlain text) : s.readCriteria expand text = Criteria.readWith id text :=
  Criteria.read_eq_of_isPlain hexpand _ htext

/-! ## One service -/

/-- Looking criteria up gives what reading them gives. -/
theorem lookUp_spec (hs : s.CachesFaithfully) {expand : Expander} (hexpand : IsHosted expand)
    (now : Nat) (args : Text) :
    ∃ next, s.lookUp expand now args = (s.readCriteria expand args, next) ∧ next.CachedFrom s := by
  unfold lookUp
  split
  · next hcached =>
    have hplain : IsPlain args := isDynamic_eq_false_iff.1 hcached.2
    have hread := s.readCriteria_of_isPlain hexpand hplain
    have hbuild : ∀ c, some (s.readCriteria expand args) = some c →
        IsPlain args ∧ c = Criteria.readWith id args := fun c hc =>
      ⟨hplain, (Option.some.inj hc).symm.trans hread⟩
    split
    · next c cache hget =>
      obtain ⟨hresult, hnext⟩ := hs.getOrBuild hbuild now hget
      rw [hread, ← (hresult c rfl).2]
      exact ⟨_, rfl, rfl, hnext⟩
    · next cache hget => exact ⟨_, rfl, rfl, (hs.getOrBuild hbuild now hget).2⟩
  · exact ⟨s, rfl, rfl, hs⟩

/-- The criteria that a request for an amount or a decision is about, read afresh. -/
def freshCriteria? (s : Service) (expand : Expander) (args : Text) : Option Criteria :=
  match Text.after? removeStart args with
  | some rest =>
    if s.config.removeEnabled then some (s.readCriteria expand (Color.paint rest)).removing
    else none
  | none => some (s.readCriteria expand (Color.paint args))

theorem criteriaOf?_spec (hs : s.CachesFaithfully) {expand : Expander} (hexpand : IsHosted expand)
    (now : Nat) (args : Text) :
    ∃ next, s.criteriaOf? expand now args = (s.freshCriteria? expand args, next) ∧
      next.CachedFrom s := by
  unfold criteriaOf? freshCriteria?
  cases Text.after? removeStart args with
  | some rest =>
    dsimp only
    split <;> exact ⟨s, rfl, rfl, hs⟩
  | none =>
    obtain ⟨next, hlookUp, hnext⟩ := lookUp_spec hs hexpand now (Color.paint args)
    simp only [hlookUp]
    exact ⟨next, rfl, hnext⟩

/-! ## Two services side by side -/

/-- Two services that differ in their caching alone, and cache faithfully. -/
structure Agrees (s t : Service) : Prop where
  uncached_eq : s.uncached = t.uncached
  left : s.CachesFaithfully
  right : t.CachesFaithfully

theorem Agrees.of_cachedFrom (h : s.Agrees t) {s' t' : Service} (hs : s'.CachedFrom s)
    (ht : t'.CachedFrom t) : s'.Agrees t' :=
  ⟨hs.uncached_eq.trans (h.uncached_eq.trans ht.uncached_eq.symm), hs.faithful, ht.faithful⟩

namespace Agrees

variable (h : s.Agrees t) {expand : Expander} (hexpand : IsHosted expand) (now now' : Nat)
  (args : Text) (inv : Inventory)

include h hexpand

theorem criteriaOf? : ∃ c s' t', s.criteriaOf? expand now args = (c, s') ∧
    t.criteriaOf? expand now' args = (c, t') ∧ s'.Agrees t' := by
  obtain ⟨s', hs, hs'⟩ := criteriaOf?_spec h.left hexpand now args
  obtain ⟨t', ht, ht'⟩ := criteriaOf?_spec h.right hexpand now' args
  rw [eq_of_uncached_eq h.uncached_eq freshCriteria? fun _ => rfl] at hs
  exact ⟨_, s', t', hs, ht, h.of_cachedFrom hs' ht'⟩

theorem check : ∃ decision s' t' next, s.check expand now args inv = (decision, s', next) ∧
    t.check expand now' args inv = (decision, t', next) ∧ s'.Agrees t' := by
  obtain ⟨c, s', t', hs, ht, h'⟩ := h.criteriaOf? hexpand now now' args
  unfold Service.check
  rw [hs, ht]
  cases c with
  | none => exact ⟨none, s', t', inv, rfl, rfl, h'⟩
  | some c =>
    dsimp only
    split
    · exact ⟨some false, s', t', inv, rfl, rfl, h'⟩
    · rw [eq_of_uncached_eq h'.uncached_eq evaluate fun _ => rfl]
      exact ⟨_, s', t', _, rfl, rfl, h'⟩

theorem measure : ∃ tally s' t' next, s.measure expand now args inv = (tally, s', next) ∧
    t.measure expand now' args inv = (tally, t', next) ∧ s'.Agrees t' := by
  obtain ⟨c, s', t', hs, ht, h'⟩ := h.criteriaOf? hexpand now now' args
  unfold Service.measure
  rw [hs, ht]
  cases c with
  | none => exact ⟨none, s', t', inv, rfl, rfl, h'⟩
  | some c =>
    dsimp only
    rw [eq_of_uncached_eq h'.uncached_eq evaluate fun _ => rfl]
    exact ⟨_, s', t', _, rfl, rfl, h'⟩

theorem answer : ∃ text s' t' next, s.answer expand now args inv = (text, s', next) ∧
    t.answer expand now' args inv = (text, t', next) ∧ s'.Agrees t' := by
  have hresolve : s.resolve = t.resolve := eq_of_uncached_eq h.uncached_eq resolve fun _ => rfl
  cases hgive : Text.after? giveStart (t.resolve expand args) with
  | some rest =>
    have hanswer : s.answerGive = t.answerGive :=
      eq_of_uncached_eq h.uncached_eq answerGive fun _ => rfl
    rw [answer_of_give hgive, answer_of_give (hresolve ▸ hgive), hanswer]
    exact ⟨_, s, t, _, rfl, rfl, h⟩
  | none =>
    cases hamount : Text.after? amountStart (t.resolve expand args) with
    | some rest =>
      obtain ⟨tally, s', t', next, hs, ht, h'⟩ := h.measure hexpand now now' rest inv
      rw [answer_of_amount hgive hamount, answer_of_amount (hresolve ▸ hgive) (hresolve ▸ hamount)]
      simp only [answerAmount, hs, ht]
      exact ⟨_, s', t', next, rfl, rfl, h'⟩
    | none =>
      obtain ⟨decision, s', t', next, hs, ht, h'⟩ :=
        h.check hexpand now now' (t.resolve expand args) inv
      have hrender : s.config.render = t.config.render :=
        eq_of_uncached_eq h.uncached_eq (fun s => s.config.render) fun _ => rfl
      rw [answer_of_check hgive hamount, answer_of_check (hresolve ▸ hgive) (hresolve ▸ hamount)]
      simp only [answerCheck, hresolve, hs, ht, hrender]
      exact ⟨_, s', t', next, rfl, rfl, h'⟩

end Agrees

end Service

namespace Session

/-- The player of the step brings no placeholders along, or those of a table. -/
def Step.IsHosted : Step → Prop
  | .request expand _ => Placeholder.IsHosted expand
  | _ => True

/-- Two sessions over one inventory whose services differ in their caching alone. -/
structure Agrees (s t : Session) : Prop where
  service : s.service.Agrees t.service
  inventory_eq : s.inventory = t.inventory

namespace Agrees

variable {s t : Session}

theorem start {a b : Config} (h : a.withoutCaching = b.withoutCaching) (potions : PotionStore)
    (inv : Inventory) : (start a potions inv).Agrees (start b potions inv) where
  service :=
    { uncached_eq := congrArg (fun config => Service.mk config potions (.empty 0 0)) h
      left := Cache.holds_empty _ _
      right := Cache.holds_empty _ _ }
  inventory_eq := rfl

/-- One step gives the same answer on both sides and keeps them alike. -/
theorem step (h : s.Agrees t) {step : Step} (hstep : step.IsHosted) (now now' : Nat) :
    (s.step now step).1 = (t.step now' step).1 ∧
      (s.step now step).2.Agrees (t.step now' step).2 := by
  obtain ⟨s, inv⟩ := s
  obtain ⟨t, inv'⟩ := t
  obtain ⟨h, rfl⟩ := h
  cases step with
  | request expand args =>
    obtain ⟨text, s', t', next, hs, ht, h'⟩ := h.answer hstep now now' args inv
    simp only [Session.step, hs, ht, true_and]
    exact ⟨h', rfl⟩
  | anonymous args => exact ⟨rfl, h, rfl⟩
  | clearCache =>
    exact ⟨rfl, ⟨h.uncached_eq, Cache.holds_clear _, Cache.holds_clear _⟩, rfl⟩
  | edit e => exact ⟨rfl, h, rfl⟩

theorem run (h : s.Agrees t) {left right : List (Nat × Step)}
    (hsteps : left.map Prod.snd = right.map Prod.snd)
    (hhosted : ∀ entry ∈ left, entry.2.IsHosted) : s.run left = t.run right := by
  induction left generalizing s t right with
  | nil =>
    obtain rfl : right = [] := List.map_eq_nil_iff.1 hsteps.symm
    rfl
  | cons entry left ih =>
    obtain ⟨now, step⟩ := entry
    obtain ⟨⟨now', step'⟩, right, rfl, hstep, hrest⟩ := List.map_eq_cons_iff.1 hsteps.symm
    obtain rfl : step' = step := hstep
    obtain ⟨hanswer, h'⟩ := h.step (hhosted _ List.mem_cons_self) now now'
    have htail := ih h' hrest.symm fun entry hentry => hhosted entry (List.mem_cons_of_mem _ hentry)
    simp only [Session.run, hanswer, h'.inventory_eq, htail]

theorem after (h : s.Agrees s) {steps : List (Nat × Step)}
    (hhosted : ∀ entry ∈ steps, entry.2.IsHosted) : (s.after steps).Agrees (s.after steps) := by
  induction steps generalizing s with
  | nil => exact h
  | cons entry steps ih =>
    obtain ⟨-, h'⟩ := h.step (hhosted _ List.mem_cons_self) entry.1 entry.1
    exact ih h' fun entry hentry => hhosted entry (List.mem_cons_of_mem _ hentry)

end Agrees

/-- The service of a session has cached faithfully, whatever the session was. -/
theorem cachesFaithfully_after (config : Config) (potions : PotionStore) (inv : Inventory)
    {steps : List (Nat × Step)} (hhosted : ∀ entry ∈ steps, entry.2.IsHosted) :
    ((start config potions inv).after steps).service.CachesFaithfully :=
  ((Agrees.start rfl potions inv).after hhosted).service.left

/-- Two services whose settings differ in the caching alone give the same answers to the same
steps, and leave the same inventory after each of them, whatever their two clocks show.  At every
moment what a service looks up for a player is what it would read for that player. -/
theorem run_eq_of_withoutCaching_eq {a b : Config} (hconfig : a.withoutCaching = b.withoutCaching)
    (potions : PotionStore) (inv : Inventory) {left right : List (Nat × Step)}
    (hsteps : left.map Prod.snd = right.map Prod.snd)
    (hhosted : ∀ entry ∈ left, entry.2.IsHosted) :
    (start a potions inv).run left = (start b potions inv).run right ∧
      ∀ expand, IsHosted expand → ∀ now args,
        (((start a potions inv).after left).service.lookUp expand now args).1 =
          ((start a potions inv).after left).service.readCriteria expand args := by
  refine ⟨(Agrees.start hconfig potions inv).run hsteps hhosted, ?_⟩
  intro expand hexpand now args
  obtain ⟨next, hlookUp, -⟩ :=
    Service.lookUp_spec (cachesFaithfully_after a potions inv hhosted) hexpand now args
  rw [hlookUp]

/-- Two players use one cache: the text that depends on the player is not kept, and the plain one
is found again for the other player. -/
theorem run_eq_for_two_players :
    let cached : Config := { removeEnabled := true, cacheTtlMillis := 5 }
    let plain : Config := { removeEnabled := true, cacheEnabled := false }
    let seven : Expander := Placeholder.Table.expand (Dict.ofList [("need".toList, "7".toList)])
    let nine : Expander := Placeholder.Table.expand (Dict.ofList [("need".toList, "9".toList)])
    let steps : List Step := [.edit (.put 0 (.plain "DIRT".toList 8)),
      .request seven "mat:DIRT,amt:%need%".toList, .request nine "mat:DIRT,amt:%need%".toList,
      .request nine "mat:DIRT,amt:8".toList, .request seven "mat:DIRT,amt:8".toList, .clearCache,
      .anonymous "mat:DIRT".toList, .request seven "remove_mat:DIRT,amt:%need%".toList]
    let now := [0, 1, 2, 3, 4, 5, 6, 7].zip steps
    let later := [10, 20, 30, 40, 50, 60, 70, 80].zip steps
    cached.withoutCaching = plain.withoutCaching ∧ now.map Prod.snd = later.map Prod.snd ∧
      (∀ entry ∈ now, entry.2.IsHosted) ∧
      (start cached .metadata .empty).run now = (start plain .metadata .empty).run later := by
  intro cached plain seven nine steps now later
  have hhosted : ∀ entry ∈ now, entry.2.IsHosted := by
    have hseven : IsHosted seven := .inr ⟨_, rfl⟩
    have hnine : IsHosted nine := .inr ⟨_, rfl⟩
    simp only [now, steps, List.zip_cons_cons, List.zip_nil_left, List.forall_mem_cons]
    exact ⟨trivial, hseven, hnine, hnine, hseven, trivial, trivial, hseven, by simp⟩
  have hconfig : cached.withoutCaching = plain.withoutCaching := rfl
  have hsteps : now.map Prod.snd = later.map Prod.snd := rfl
  exact ⟨hconfig, hsteps, hhosted,
    (run_eq_of_withoutCaching_eq hconfig .metadata .empty hsteps hhosted).1⟩

end Session

end InventoryQuery
