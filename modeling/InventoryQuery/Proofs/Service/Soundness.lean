import InventoryQuery.Proofs.Criteria.Item
import InventoryQuery.Proofs.Inventory.Soundness
import InventoryQuery.Proofs.Service.Effects
/-!
# What every session keeps to

Requests change an inventory by operations that keep it sound, and what they give is not air, as
long as putting an effect on an item does not make it air.  An owner's edits keep it sound as well,
apart from one: stacks of air that are added, other than those that are put, stay.
-/

namespace InventoryQuery

open Inventory (IsOfItem Sound load?)
open Placeholder (Expander)

variable {P : Stack → Prop} {inv next : Inventory}

theorem Criteria.sound_take (hP : IsOfItem P) (h : inv.Sound P) (c : Criteria)
    (selection : Selection) : (c.take selection inv).1.Sound P := by
  unfold take
  split
  · exact h
  · split
    · exact h
    · exact h.debit hP _ _ _

theorem Service.sound_give (hP : IsOfItem P) (h : inv.Sound P) (c : Criteria) {item : Stack}
    (hitem : P item) : (give c item inv).Sound P := by
  unfold give
  split
  · exact h.distribute hP hitem _
  · exact h.add hP hitem

/-- A request keeps an inventory sound if what it may give has the property. -/
theorem Service.Effect.sound {s : Service} (heffect : s.Effect inv next) (hP : IsOfItem P)
    (h : inv.Sound P) (hgive : ∀ (c : Criteria) item, c.item? s.host = some item → P item) :
    next.Sound P := by
  cases heffect with
  | kept => exact h
  | taken _ c => exact c.sound_take hP h _
  | @given _ c item hitem => exact sound_give hP h c (hgive c item hitem)

namespace Session

/-- What a step puts in other than by a request has the property. -/
def Step.Puts (P : Stack → Prop) : Step → Prop
  | .edit e => e.Puts P
  | _ => True

theorem sound_step {s : Session} (hs : s.service.AsksOnly) (hP : IsOfItem P)
    (h : s.inventory.Sound P)
    (hgive : ∀ (c : Criteria) item, c.item? s.service.host = some item → P item) (now : Nat)
    {step : Step} (hstep : step.Puts P) : (s.step now step).2.inventory.Sound P := by
  cases step with
  | request expand args =>
    exact (Service.effect_answer hs expand now args s.inventory).1.sound hP h hgive
  | anonymous args => exact h
  | clearCache => exact h
  | edit e => exact h.edit hP hstep

theorem sound_after {s : Session} (hs : s.service.AsksOnly) (hP : IsOfItem P)
    (h : s.inventory.Sound P)
    (hgive : ∀ (c : Criteria) item, c.item? s.service.host = some item → P item)
    {steps : List (Nat × Step)} (hsteps : ∀ entry ∈ steps, entry.2.Puts P) :
    (s.after steps).inventory.Sound P := by
  induction steps generalizing s with
  | nil => exact h
  | cons entry steps ih =>
    obtain ⟨hentry, hrest⟩ := List.forall_mem_cons.1 hsteps
    have hnext := follows_step hs entry.1 entry.2
    exact ih hnext.asksOnly (sound_step hs hP h hgive entry.1 hentry)
      (hnext.host_eq ▸ hgive) hrest

/-- Whether the owner adds a stack of air in a step. -/
def Step.addsAir : Step → Bool
  | .edit (.add stack) => stack.material == air
  | _ => false

theorem puts_of_addsAir_eq_false {step : Step} (h : step.addsAir = false) :
    step.Puts fun s => s.material ≠ air := by
  cases step with
  | edit e =>
    cases e with
    | put slot stack => exact fun hempty => (Stack.isEmpty_eq_false_iff.1 hempty).2
    | add stack => exact beq_eq_false_iff_ne.1 h
    | _ => trivial
  | _ => trivial

theorem puts_true (step : Step) : step.Puts fun _ => True := by
  cases step with
  | edit e =>
    cases e with
    | put slot stack => exact fun _ => trivial
    | _ => trivial
  | _ => trivial

/-- From an inventory that was loaded, every session leads to one with its forty-one slots, one of
the hotbar held, limits of one at least, and some amount in every occupied slot.  Where no stack of
air is added, and the host does not make air of an item by putting an effect on it, no occupied slot
is empty. -/
theorem inventory_after {text : Text} {inv : Inventory} (hload : load? text = some inv)
    (config : Config) (potions : PotionStore) (steps : List (Nat × Step)) :
    let next := ((start config potions inv).after steps).inventory
    next.slots.length = 41 ∧ next.heldSlot < 9 ∧ (∀ entry ∈ next.limits.entries, 1 ≤ entry.2) ∧
      (∀ slot s, next.item? slot = some s → s.amount ≠ 0) ∧
      (potions.KeepsItem → (∀ entry ∈ steps, entry.2.addsAir = false) → next.Valid) := by
  intro next
  have hstart : (start config potions inv).service.AsksOnly := Service.asksOnly_ofConfig config
  have hinv := (Inventory.storable_of_load? hload).valid.sound
  have hnext : next.Sound fun _ => True :=
    sound_after hstart (fun _ _ => Iff.rfl) (hinv.weaken fun _ _ => trivial)
      (fun _ _ _ => trivial) fun entry _ => puts_true entry.2
  refine ⟨hnext.shaped.length_slots, hnext.shaped.heldSlot_lt, hnext.one_le_limit,
    hnext.amount_ne_zero, fun hkeeps hsteps => ?_⟩
  have hvalid : next.Sound fun s => s.material ≠ air :=
    sound_after hstart Inventory.isOfItem_ne_air hinv
      (fun _ _ hitem => Criteria.material_ne_air_of_item? hkeeps hitem)
      fun entry hentry => puts_of_addsAir_eq_false (hsteps entry hentry)
  exact hvalid.valid

/-- Edits with nothing to them, a gift that fits and a loss. -/
theorem inventory_after_edits :
    let steps : List (Nat × Step) :=
      [(0, .edit (.put 3 (.plain air 5))), (1, .edit (.setLimit "DIRT".toList 0)),
        (2, .edit (.hold 12)), (3, .edit (.add (.plain "DIRT".toList 3))),
        (4, .edit (.setAmount 1 0)), (5, .request Placeholder.noExpander "give_mat:EGG".toList),
        (6, .request Placeholder.noExpander "remove_mat:DIRT,amt:1".toList)]
    let config : Config := { giveEnabled := true, removeEnabled := true }
    let next := ((start config .metadata .empty).after steps).inventory
    load? "\x7b\x7d".toList = some .empty ∧ PotionStore.metadata.KeepsItem ∧
      next.amountIn (List.range 41) = 2 ∧ next.Valid := by
  intro steps config next
  have hkeeps := PotionStore.isBuiltIn_metadata.keepsItem
  have hload : load? "\x7b\x7d".toList = some .empty := by decide +kernel
  have hsteps : ∀ entry ∈ steps, entry.2.addsAir = false := by decide
  have hamount : next.amountIn (List.range 41) = 2 := by decide +kernel
  exact ⟨hload, hkeeps, hamount,
    (inventory_after hload config .metadata steps).2.2.2.2 hkeeps hsteps⟩

/-- It is not so that no session leads to an empty stack in a slot, even where the host keeps
effects in one of the two given ways. -/
theorem not_valid_after : ¬ ∀ text inv config (potions : PotionStore) steps, potions.IsBuiltIn →
    load? text = some inv → ((start config potions inv).after steps).inventory.Valid := by
  intro hall
  have hload : load? "\x7b\x7d".toList = some .empty := by decide +kernel
  have hvalid := hall _ _ {} .metadata [(0, .edit (.add (.plain air 5)))]
    PotionStore.isBuiltIn_metadata hload
  have hair : some (Stack.plain air 5) ∈ ((start {} .metadata .empty).after
      [(0, .edit (.add (.plain air 5)))]).inventory.slots := by decide +kernel
  cases hvalid.not_isEmpty _ hair

end Session

end InventoryQuery
