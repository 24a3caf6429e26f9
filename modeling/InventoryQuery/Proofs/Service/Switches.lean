import InventoryQuery.Proofs.Inventory.Remaining
import InventoryQuery.Proofs.Service.Effects
/-!
# The switches cannot be bypassed

Giving and taking away happen only where they are enabled.  No text, no placeholder and nothing that
was cached before makes a request do more; and no request holds another slot, changes a limit or
puts anything where armour and the off-hand are.
-/

namespace InventoryQuery

open Inventory (SameFrame Within scattered storageSize)
open Placeholder (Expander)
open Stack (Remains)

theorem Criteria.drains_take (c : Criteria) (selection : Selection) (inv : Inventory) :
    inv.Drains (c.take selection inv).1 := by
  unfold take
  split
  · exact .refl inv
  · split
    · exact .refl inv
    · exact inv.drains_debit _ _ _

theorem Service.fills_give (c : Criteria) (item : Stack) (inv : Inventory) :
    inv.Fills (give c item inv) := by
  unfold give
  split
  · exact inv.fills_distribute item _
  · exact inv.fills_add item

/-- An inventory was changed as far as the switches allow, and within the storage only when
something was added. -/
structure Config.Allows (config : Config) (inv next : Inventory) : Prop where
  within : config.removeEnabled = false → inv.Within next
  within_back : config.giveEnabled = false → next.Within inv
  frame : inv.SameFrame next
  beyond : ∀ slot, storageSize ≤ slot → Remains (next.item? slot) (inv.item? slot)

namespace Config.Allows

variable {config : Config} {inv next last : Inventory}

theorem refl (config : Config) (inv : Inventory) : config.Allows inv inv :=
  ⟨fun _ => .refl inv, fun _ => .refl inv, .refl inv, fun _ _ => .refl _⟩

theorem trans (h : config.Allows inv next) (hlast : config.Allows next last) :
    config.Allows inv last where
  within hremove := (h.within hremove).trans (hlast.within hremove)
  within_back hgive := (hlast.within_back hgive).trans (h.within_back hgive)
  frame := h.frame.trans hlast.frame
  beyond slot hslot := (hlast.beyond slot hslot).trans (h.beyond slot hslot)

/-- With both switches off there is nothing to allow. -/
theorem eq (h : config.Allows inv next) (hremove : config.removeEnabled = false)
    (hgive : config.giveEnabled = false) : next = inv :=
  h.frame.eq_of_within (h.within hremove) (h.within_back hgive)

end Config.Allows

theorem Service.Effect.allows {s : Service} {inv next : Inventory} (h : s.Effect inv next) :
    s.config.Allows inv next := by
  cases h with
  | kept => exact .refl _ inv
  | taken henabled c =>
    have hdrains := c.drains_take (c.select s.host inv) inv
    refine ⟨fun hdisabled => ?_, fun _ => hdrains.within, hdrains.frame,
      fun slot _ => hdrains.within slot⟩
    rw [henabled] at hdisabled
    cases hdisabled
  | @given henabled c item _ =>
    have hfills := fills_give c item inv
    refine ⟨fun _ => hfills.within, fun hdisabled => ?_, hfills.frame, fun slot hslot => ?_⟩
    · rw [henabled] at hdisabled
      cases hdisabled
    · rw [hfills.beyond slot hslot]
      exact .refl _

namespace Session

/-- A step in which the owner edits the inventory. -/
def Step.isEdit : Step → Bool
  | .edit _ => true
  | _ => false

theorem after_nil (s : Session) : s.after [] = s := rfl

theorem inventory_start (config : Config) (potions : PotionStore) (inv : Inventory) :
    (start config potions inv).inventory = inv := rfl

theorem allows_step {s : Session} (hs : s.service.AsksOnly) (now : Nat) {step : Step}
    (hstep : step.isEdit = false) :
    s.service.config.Allows s.inventory (s.step now step).2.inventory := by
  cases step with
  | request expand args => exact (Service.effect_answer hs expand now args s.inventory).1.allows
  | anonymous args => exact .refl _ _
  | clearCache => exact .refl _ _
  | edit e => cases hstep

theorem allows_after {s : Session} (hs : s.service.AsksOnly) {asked : List (Nat × Step)}
    (hasked : ∀ entry ∈ asked, entry.2.isEdit = false) :
    s.service.config.Allows s.inventory (s.after asked).inventory := by
  induction asked generalizing s with
  | nil => exact .refl _ _
  | cons entry asked ih =>
    obtain ⟨hentry, hrest⟩ := List.forall_mem_cons.1 hasked
    have hnext := follows_step hs entry.1 entry.2
    have hlast := ih hnext.asksOnly hrest
    rw [hnext.config_eq] at hlast
    exact (allows_step hs entry.1 hentry).trans hlast

/-- Whatever happened before, requests take nothing away unless that is enabled, and give nothing
unless that is enabled.  They never hold another slot, change a limit or add anything beyond the
storage. -/
theorem after_requests (config : Config) (potions : PotionStore) (inv : Inventory)
    (before : List (Nat × Step)) {asked : List (Nat × Step)}
    (hasked : ∀ entry ∈ asked, entry.2.isEdit = false) :
    let s := (start config potions inv).after before
    let next := (s.after asked).inventory
    (config.removeEnabled = false → s.inventory.Within next) ∧
      (config.giveEnabled = false → next.Within s.inventory) ∧
      (config.removeEnabled = false → config.giveEnabled = false → next = s.inventory) ∧
      next.heldSlot = s.inventory.heldSlot ∧ next.limits = s.inventory.limits ∧
      ∀ slot, 36 ≤ slot → Remains (next.item? slot) (s.inventory.item? slot) := by
  intro s next
  have hstart : (start config potions inv).service.AsksOnly := Service.asksOnly_ofConfig config
  have hs : s.service.Follows (start config potions inv).service := follows_after hstart before
  have hallows : config.Allows s.inventory next := by
    have h := allows_after hs.asksOnly hasked
    rwa [hs.config_eq] at h
  exact ⟨hallows.within, hallows.within_back, hallows.eq, hallows.frame.heldSlot_eq,
    hallows.frame.limits_eq, hallows.beyond⟩

/-- A gift and a loss, both brought in by placeholders, where only taking away is enabled: some of
the dirt is gone, and nothing was given. -/
theorem after_requests_scattered :
    let expand : Expander := Placeholder.Table.expand (Dict.ofList
      [("gift".toList, "give_mat:DIRT,amt:9".toList), ("loss".toList, "remove_mat:DIRT,amt:4".toList)])
    let asked : List (Nat × Step) :=
      [(0, .request expand "%gift%".toList), (1, .request expand "%loss%".toList)]
    let next := ((start { removeEnabled := true } .metadata scattered).after asked).inventory
    next ≠ scattered ∧ next.Within scattered ∧ next.heldSlot = scattered.heldSlot ∧
      ∀ slot, 36 ≤ slot → Remains (next.item? slot) (scattered.item? slot) := by
  intro expand asked next
  have hasked : ∀ entry ∈ asked, entry.2.isEdit = false := by
    intro entry hentry
    simp only [asked, List.mem_cons, List.not_mem_nil, or_false] at hentry
    rcases hentry with rfl | rfl <;> rfl
  have hnext := after_requests { removeEnabled := true } .metadata scattered [] hasked
  dsimp only [after_nil, inventory_start] at hnext
  obtain ⟨-, hgive, -, hheld, -, hbeyond⟩ := hnext
  have hne : next ≠ scattered := by decide +kernel
  exact ⟨hne, hgive rfl, hheld, hbeyond⟩

end Session

end InventoryQuery
