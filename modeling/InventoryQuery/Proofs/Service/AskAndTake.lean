import InventoryQuery.Proofs.Service.Caching
import InventoryQuery.Proofs.Service.Removal
/-!
# Asking before taking

A request that only asks and the same request that takes away read the same criteria, but decide on
different tallies: asking on what was found, taking on what was taken.  They give the same decision
except where a strict amount is exceeded.  Asking strictly wants the amount to be all there is,
whereas taking strictly is content with having taken it.
-/

namespace InventoryQuery

open Placeholder (Expander IsHosted IsPlain noExpander)
open Inventory (scattered)

/-! ## Decisions -/

namespace Criteria

variable {c : Criteria} {host : Host} {inv next : Inventory} {taken : Bool}

/-- The amount is asked for strictly, and there is more than that, but not air without end. -/
def IsExceeded (c : Criteria) (tally : Tally) : Prop :=
  c.strict = true ∧ ∃ t n, c.amount = some (.exact t) ∧ tally = .count n ∧ t.toNat < n

theorem decides_of_invalid (hamount : c.amount = some .invalid) (tally : Tally) :
    c.decides tally = false := by
  simp only [decides, hamount]

theorem decides_of_exact (hremoves : c.removes = false) {t : UInt32}
    (hamount : c.amount = some (.exact t)) (tally : Tally) :
    c.decides tally = if c.strict then tally.equals t.toNat else tally.atLeast t.toNat := by
  simp only [decides, hamount, hremoves, Bool.false_eq_true, and_false, if_false]

theorem decides_of_all (hamount : c.amount = none) (tally : Tally) :
    c.decides tally = tally.atLeast 1 := by
  simp only [decides, hamount]

/-- Only an amount of zero is decided otherwise for criteria that take away. -/
theorem decides_removing (hzero : c.amount ≠ some (.exact 0)) (tally : Tally) :
    c.removing.decides tally = c.decides tally := by
  have hamount : c.removing.amount = c.amount := rfl
  unfold decides
  rw [hamount]
  split
  · rfl
  · next t ht =>
    have hne : ¬t = 0 := fun h => hzero (h ▸ ht)
    simp only [hne, false_and, if_false]
    rfl
  · rfl

theorem amount_of_isRefused_removing (hzero : c.amount ≠ some (.exact 0))
    (h : c.removing.isRefused = true) : c.amount = some .invalid := by
  have hamount : c.removing.amount = c.amount := rfl
  unfold isRefused at h
  rw [hamount] at h
  split at h
  · assumption
  · next t ht =>
    rw [Bool.and_eq_true, beq_iff_eq] at h
    exact absurd (h.1 ▸ ht) hzero
  · cases h

theorem exists_exact_of_lt_wanted {n : Nat} (h : n < c.wanted n) :
    ∃ t, c.amount = some (.exact t) ∧ n < t.toNat := by
  cases hamount : c.amount with
  | none =>
    rw [wanted_of_all hamount] at h
    omega
  | some target =>
    cases target with
    | invalid =>
      rw [wanted_of_invalid hamount] at h
      omega
    | exact t => exact ⟨t, rfl, wanted_of_exact hamount n ▸ h⟩

theorem not_isExceeded_of_le {t : UInt32} (hamount : c.amount = some (.exact t)) {n : Nat}
    (hle : n ≤ t.toNat) : ¬c.IsExceeded (.count n) := by
  rintro ⟨-, t', n', ht, hn, hlt⟩
  obtain rfl : t = t' := Target.exact.inj (Option.some.inj (hamount.symm.trans ht))
  obtain rfl : n = n' := Tally.count.inj hn
  omega

theorem not_isExceeded_of_all (hamount : c.amount = none) (tally : Tally) :
    ¬c.IsExceeded tally := by
  rintro ⟨-, t, n, ht, -⟩
  cases hamount.symm.trans ht

/-- How an outcome of taking compares with the decision of asking: the two agree, or a strict
amount is exceeded. -/
theorem RemovalOutcome.compare (hremoves : c.removes = false) (hzero : c.amount ≠ some (.exact 0))
    (h : c.removing.RemovalOutcome host inv taken next) :
    taken = c.decides (c.select host inv).tally ∧ ¬c.IsExceeded (c.select host inv).tally ∨
      taken = true ∧ c.decides (c.select host inv).tally = false ∧
        c.IsExceeded (c.select host inv).tally := by
  -- What is selected and what is wanted do not depend on whether it is taken away.
  have hselect : c.removing.select host inv = c.select host inv := c.select_removing host inv
  have hwanted : c.removing.wanted = c.wanted := rfl
  cases h with
  | refused hrefused =>
    have hamount := amount_of_isRefused_removing hzero hrefused
    refine .inl ⟨(decides_of_invalid hamount _).symm, ?_⟩
    rintro ⟨-, t, n, ht, -⟩
    cases hamount.symm.trans ht
  | boundless htally =>
    rw [hselect] at htally
    rw [htally]
    refine .inl ⟨decides_removing hzero _, ?_⟩
    rintro ⟨-, t, n, -, hcount, -⟩
    cases hcount
  | short n htally hlt =>
    rw [hselect] at htally
    rw [hwanted] at hlt
    rw [htally]
    obtain ⟨t, hamount, hlt⟩ := exists_exact_of_lt_wanted hlt
    refine .inl ⟨?_, not_isExceeded_of_le hamount (Nat.le_of_lt hlt)⟩
    rw [decides_of_exact hremoves hamount, Tally.equals, Tally.atLeast]
    split <;> simp <;> omega
  | nothing htally hall =>
    have hamount : c.amount = none := hall
    rw [hselect] at htally
    rw [htally]
    exact .inl ⟨(decides_of_all hamount (.count 0)).symm, not_isExceeded_of_all hamount _⟩
  | taken n htally hpos hle =>
    rw [hselect] at htally
    rw [hwanted] at hpos hle
    rw [htally]
    cases hamount : c.amount with
    | none =>
      rw [wanted_of_all hamount] at hpos
      refine .inl ⟨?_, not_isExceeded_of_all hamount _⟩
      rw [decides_of_all hamount, Tally.atLeast, decide_eq_true hpos]
    | some target =>
      cases target with
      | invalid =>
        rw [wanted_of_invalid hamount] at hpos
        omega
      | exact t =>
        rw [wanted_of_exact hamount] at hle
        rw [decides_of_exact hremoves hamount, Tally.equals, Tally.atLeast]
        cases hstrict : c.strict with
        | false =>
          refine .inl ⟨(decide_eq_true hle).symm, ?_⟩
          rintro ⟨htrue, -⟩
          cases hstrict.symm.trans htrue
        | true =>
          rcases Nat.eq_or_lt_of_le hle with heq | hlt
          · refine .inl ⟨?_, not_isExceeded_of_le hamount (Nat.le_of_eq heq.symm)⟩
            simp [heq]
          · refine .inr ⟨rfl, ?_, hstrict, t, n, hamount, rfl, hlt⟩
            simp
            omega

end Criteria

/-! ## Requests -/

namespace Service

variable {s : Service} {expand : Expander} {text : Text}

/-- The services that sessions of hosted players lead to. -/
def IsReached (s : Service) : Prop :=
  ∃ config potions inv steps, (∀ entry ∈ steps, Session.Step.IsHosted entry.2) ∧
    s = ((Session.start config potions inv).after steps).service

theorem isReached_ofConfig (config : Config) : (ofConfig config).IsReached := by
  refine ⟨config, (ofConfig config).potions, .empty, [], ?_, rfl⟩
  intro entry hentry
  cases hentry

theorem IsReached.cachesFaithfully (h : s.IsReached) : s.CachesFaithfully := by
  obtain ⟨config, potions, inv, steps, hhosted, rfl⟩ := h
  exact Session.cachesFaithfully_after config potions inv hhosted

theorem resolve_eq_self (s : Service) (hexpand : IsHosted expand) (htext : IsPlain text) :
    s.resolve expand text = text :=
  hexpand.settle_eq_self _ htext

theorem isPlain_removeStart : IsPlain removeStart := by decide

/-- A request that only asks is decided on what its criteria select, and leaves the inventory as it
is. -/
theorem check_ask (hs : s.CachesFaithfully) (hexpand : IsHosted expand)
    (hstart : Text.after? removeStart text = none) (now : Nat) (inv : Inventory) :
    ∃ next, s.check expand now text inv =
      (some ((s.readCriteria expand (Color.paint text)).decides
        ((s.readCriteria expand (Color.paint text)).select s.host inv).tally), next, inv) := by
  obtain ⟨next, hcriteria, hnext⟩ := criteriaOf?_spec hs hexpand now text
  rw [freshCriteria?, hstart] at hcriteria
  have hhost : next.host = s.host := eq_of_uncached_eq hnext.uncached_eq host fun _ => rfl
  have hremoves : (s.readCriteria expand (Color.paint text)).removes = false :=
    Criteria.removes_readWith _ _
  refine ⟨next, ?_⟩
  unfold check
  rw [hcriteria]
  dsimp only
  split
  · next hrefused => rw [Criteria.decides_of_isRefused hrefused]
  · rw [evaluate, hremoves, hhost]
    rfl

/-- Asking and taking give the same decision, except where a strict amount is exceeded: then the
answer is no to asking and yes to taking.  Whichever it is, what taking does to the inventory goes
with its own decision. -/
theorem check_compare (hs : s.IsReached) (hremove : s.config.removeEnabled = true)
    (hexpand : IsHosted expand) (htext : IsPlain text)
    (hstart : ∀ start ∈ [giveStart, amountStart, removeStart], Text.after? start text = none)
    (hzero : (s.readCriteria expand (Color.paint text)).amount ≠ some (.exact 0))
    {inv : Inventory} (hinv : inv.Shaped) (now later : Nat) :
    let c := s.readCriteria expand (Color.paint text)
    ∃ asked taken s' next,
      s.check expand now text inv = (some asked, s', inv) ∧
      s.answer expand now text inv = (s.config.render asked, s', inv) ∧
      s.check expand later (removeStart ++ text) inv = (some taken, s, next) ∧
      s.answer expand later (removeStart ++ text) inv = (s.config.render taken, s, next) ∧
      (¬c.IsExceeded (c.select s.host inv).tally → taken = asked) ∧
      (c.IsExceeded (c.select s.host inv).tally → asked = false ∧ taken = true) ∧
      c.removing.Decided s.host inv taken next := by
  intro c
  obtain ⟨hgive, hamount, hplain⟩ : Text.after? giveStart text = none ∧
      Text.after? amountStart text = none ∧ Text.after? removeStart text = none := by
    simpa using hstart
  have hresolve := s.resolve_eq_self hexpand htext
  have hresolveRemove := s.resolve_eq_self hexpand (isPlain_removeStart.append htext)
  obtain ⟨s', hask⟩ := check_ask hs.cachesFaithfully hexpand hplain now inv
  obtain ⟨taken, next, htake, houtcome⟩ := s.check_remove expand hremove hinv later text
  refine ⟨_, taken, s', next, hask, ?_, htake, ?_, ?_⟩
  · rw [← hresolve] at hgive hamount
    rw [answer_of_check hgive hamount, hresolve, answerCheck, hask]
    rfl
  · have hgive : Text.after? giveStart (s.resolve expand (removeStart ++ text)) = none :=
      hresolveRemove.symm ▸ after?_giveStart_remove text
    have hamount : Text.after? amountStart (s.resolve expand (removeStart ++ text)) = none :=
      hresolveRemove.symm ▸ after?_amountStart_remove text
    rw [answer_of_check hgive hamount, hresolveRemove, answerCheck, htake]
    rfl
  · rcases houtcome.compare (Criteria.removes_readWith _ _) hzero with
      ⟨hagree, hwithin⟩ | ⟨hyes, hno, hexceeded⟩
    · exact ⟨fun _ => hagree, fun hexceeded => absurd hexceeded hwithin, houtcome.decided⟩
    · exact ⟨fun hwithin => absurd hexceeded hwithin, fun _ => ⟨hno, hyes⟩, houtcome.decided⟩

/-- Three of eleven, strictly: asking is answered no, and taking is answered yes and takes them. -/
theorem check_compare_scattered :
    let s := ofConfig { removeEnabled := true }
    let text := "mat:DIRT,amt:3,strict".toList
    s.IsReached ∧ IsPlain text ∧ scattered.Shaped ∧
      ∃ s' next, s.answer noExpander 0 text scattered = ("no".toList, s', scattered) ∧
        s.answer noExpander 1 (removeStart ++ text) scattered = ("yes".toList, s, next) ∧
        scattered.Debited next [0, 39, 40] 3 := by
  intro s text
  have hreached : s.IsReached := isReached_ofConfig _
  have hplain : IsPlain text := by decide
  have hcriteria : s.readCriteria noExpander (Color.paint text) =
      { material := some "DIRT".toList, amount := some (.exact 3), strict := true } := by
    decide +kernel
  have hcompare := check_compare hreached rfl (.inl rfl) hplain (by decide)
    (hcriteria ▸ by decide) Inventory.shaped_scattered 0 1
  rw [hcriteria] at hcompare
  obtain ⟨asked, taken, s', next, -, hask, -, htake, -, hexceeded, hdecided⟩ := hcompare
  obtain ⟨rfl, rfl⟩ := hexceeded ⟨rfl, 3, 11, rfl, by decide, by decide⟩
  obtain ⟨n, -, -, -, hnext⟩ := hdecided.taken rfl (by decide)
  exact ⟨hreached, hplain, Inventory.shaped_scattered, s', next, hask, htake, hnext⟩

/-- It is not so that taking is answered yes, and takes something, exactly where asking is answered
yes: not with a strict amount that is exceeded, and not with air. -/
theorem not_taken_iff_asked :
    let s := ofConfig { removeEnabled := true }
    let dirt := "mat:DIRT,amt:3,strict".toList
    let nothing := "mat:AIR".toList
    (∀ text ∈ [dirt, nothing], IsPlain text ∧
      ∀ start ∈ [giveStart, amountStart, removeStart], Text.after? start text = none) ∧
    (s.readCriteria noExpander (Color.paint dirt)).amount = some (.exact 3) ∧
    (s.check noExpander 0 dirt scattered).1 = some false ∧
    (s.check noExpander 0 (removeStart ++ dirt) scattered).1 = some true ∧
    (s.check noExpander 0 (removeStart ++ dirt) scattered).2.2.amountIn [0, 39, 40] = 8 ∧
    (s.readCriteria noExpander (Color.paint nothing)).amount = none ∧
    (s.check noExpander 0 nothing scattered).1 = some true ∧
    (s.check noExpander 0 (removeStart ++ nothing) scattered).1 = some true ∧
    (s.check noExpander 0 (removeStart ++ nothing) scattered).2.2 = scattered := by
  decide +kernel

end Service

end InventoryQuery
