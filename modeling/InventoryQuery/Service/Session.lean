import InventoryQuery.Inventory.Edit
import InventoryQuery.Service.Basic
/-!
# Sessions

A service and the inventory of a player over time. Every step happens at a reading of the clock.
-/

namespace InventoryQuery

open Placeholder (Expander)

structure Session where
  service : Service
  inventory : Inventory

namespace Session

/-- The session in which a service with the given settings and an empty cache meets an
inventory. -/
def start (config : Config) (potions : PotionStore) (inv : Inventory) : Session :=
  ⟨(Service.ofConfig config).withPotions potions, inv⟩

/-- One step of a session. Placeholders are those of the player who asks. -/
inductive Step where
  | request (expand : Expander) (args : Text)
  /-- A request without a player. -/
  | anonymous (args : Text)
  | clearCache
  | edit (e : Inventory.Edit)

/-- The session after a step, and the answer if the step is a request. -/
def step (s : Session) (now : Nat) : Step → Option Text × Session
  | .request expand args =>
    match s.service.answer expand now args s.inventory with
    | (text, service, inventory) => (some text, ⟨service, inventory⟩)
  | .anonymous args => (some (Service.echo args), s)
  | .clearCache => (none, { s with service := s.service.clearCache })
  | .edit e => (none, { s with inventory := s.inventory.edit e })

/-- The answers to steps at given times, each with the inventory after the step. -/
def run (s : Session) : List (Nat × Step) → List (Option Text × Inventory)
  | [] => []
  | (now, step) :: steps =>
    match s.step now step with
    | (answer, next) => (answer, next.inventory) :: next.run steps

/-- The session after steps at given times. -/
def after (s : Session) (steps : List (Nat × Step)) : Session :=
  steps.foldl (fun s entry => (s.step entry.1 entry.2).2) s

end Session

end InventoryQuery
