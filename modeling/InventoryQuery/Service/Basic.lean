import InventoryQuery.Criteria.Item
import InventoryQuery.Criteria.Reader
import InventoryQuery.Criteria.Removal
import InventoryQuery.Inventory.Insertion
import InventoryQuery.Service.Color
import InventoryQuery.Service.Config
/-!
# Answering requests

A request is a text about the inventory of a player. What it starts with tells its kind: it gives
items, asks for an amount, or asks for a decision; the last two may take away what they find.
Giving and taking away have to be enabled. The criteria of requests that ask only are cached, as
long as nothing in their text can depend on the player.
-/

namespace InventoryQuery

open Placeholder (Expander)

structure Service where
  config : Config
  potions : PotionStore
  cache : Cache Criteria

namespace Service

/-- A service with an empty cache, on a host that keeps potions as the settings tell. -/
def ofConfig (config : Config) : Service where
  config := config
  potions := if config.useComponents then .component else .metadata
  cache := .empty config.cacheCapacity config.cacheLifetime

theorem isBuiltIn_ofConfig (config : Config) : (ofConfig config).potions.IsBuiltIn := by
  unfold ofConfig
  split
  · exact PotionStore.isBuiltIn_component
  · exact PotionStore.isBuiltIn_metadata

/-- The same service on a host that keeps potions in the given way. -/
def withPotions (s : Service) (potions : PotionStore) : Service := { s with potions := potions }

def host (s : Service) : Host := ⟨s.potions, s.config.useComponents⟩

def clearCache (s : Service) : Service := { s with cache := s.cache.clear }

/-- The number of cached criteria. -/
def cachedEntries (s : Service) : Nat := s.cache.size

def giveStart : Text := "give_".toList

def amountStart : Text := "amount_".toList

def removeStart : Text := "remove_".toList

def giveDisabled : Text :=
  "Give placeholders have been disabled. Check PlaceholderAPI Config.".toList

def removeDisabled : Text :=
  "Remove placeholders have been disabled. Check PlaceholderAPI Config.".toList

/-- The answer to a request without a player: the request itself, as a placeholder. -/
def echo (args : Text) : Text := "%checkitem_".toList ++ args ++ "%".toList

/-- Whether a text has a character that can belong to a placeholder. -/
def isDynamic (args : Text) : Bool := args.any fun c => c == '%' || c == '\x7b' || c == '\x7d'

variable (s : Service) (expand : Expander)

/-- A text with its placeholders expanded as far as the settings tell. -/
def resolve (text : Text) : Text :=
  Placeholder.settle expand s.config.substitutionPasses.toNat text

/-- The criteria that a text gives. -/
def readCriteria (text : Text) : Criteria :=
  Criteria.read expand s.config.substitutionPasses.toNat text

/-- The criteria of a request that asks only, from the cache if they may be there. -/
def lookUp (now : Nat) (args : Text) : Criteria × Service :=
  if s.config.cacheEnabled ∧ isDynamic args = false then
    match Id.run (s.cache.getOrBuild now args fun key => some (s.readCriteria expand key)) with
    | (some c, cache) => (c, { s with cache := cache })
    | (none, cache) => (s.readCriteria expand args, { s with cache := cache })
  else (s.readCriteria expand args, s)

/-- The criteria of a request for an amount or a decision, if it is enabled. -/
def criteriaOf? (now : Nat) (args : Text) : Option Criteria × Service :=
  match Text.after? removeStart args with
  | some rest =>
    if s.config.removeEnabled then
      (some (s.readCriteria expand (Color.paint rest)).removing, s)
    else (none, s)
  | none =>
    match s.lookUp expand now (Color.paint args) with
    | (c, s) => (some c, s)

/-- What criteria come to in an inventory, and the inventory without what they take away. -/
def evaluate (c : Criteria) (inv : Inventory) : Tally × Inventory :=
  let selection := c.select s.host inv
  if c.removes then
    match c.take selection inv with
    | (inv, tally) => (tally, inv)
  else (selection.tally, inv)

/-- Decides a request; there is no decision where the request is not enabled. -/
def check (now : Nat) (args : Text) (inv : Inventory) : Option Bool × Service × Inventory :=
  match s.criteriaOf? expand now args with
  | (none, s) => (none, s, inv)
  | (some c, s) =>
    if c.isRefused then (some false, s, inv)
    else
      match s.evaluate c inv with
      | (tally, inv) => (some (c.decides tally), s, inv)

/-- Finds the amount that a request asks for; there is none where the request is not enabled. -/
def measure (now : Nat) (args : Text) (inv : Inventory) : Option Tally × Service × Inventory :=
  match s.criteriaOf? expand now args with
  | (none, s) => (none, s, inv)
  | (some c, s) =>
    match s.evaluate c inv with
    | (tally, inv) => (some tally, s, inv)

/-- Answers a request for a decision. -/
def answerCheck (now : Nat) (args : Text) (inv : Inventory) : Text × Service × Inventory :=
  match s.check expand now args inv with
  | (decision, next, inv) => ((decision.map s.config.render).getD removeDisabled, next, inv)

/-- Answers a request for an amount. -/
def answerAmount (now : Nat) (args : Text) (inv : Inventory) : Text × Service × Inventory :=
  match s.measure expand now args inv with
  | (tally, next, inv) => ((tally.map Tally.text).getD removeDisabled, next, inv)

/-- Adds the item that criteria describe: the amount that they ask for, or a single one. -/
def give (c : Criteria) (item : Stack) (inv : Inventory) : Inventory :=
  match c.amount with
  | some target => (inv.distribute item target.amount).1
  | none => (inv.add item).1

/-- Answers a request to give items. -/
def answerGive (args : Text) (inv : Inventory) : Text × Inventory :=
  if s.config.giveEnabled then
    let c := s.readCriteria expand (s.resolve expand (Color.paint args))
    match c.item? s.host with
    | none => ("error".toList, inv)
    | some item => ("yes".toList, give c item inv)
  else (giveDisabled, inv)

/-- Answers a request of a player. -/
def answer (now : Nat) (args : Text) (inv : Inventory) : Text × Service × Inventory :=
  let args := s.resolve expand args
  match Text.after? giveStart args with
  | some rest =>
    match s.answerGive expand rest inv with
    | (text, inv) => (text, s, inv)
  | none =>
    match Text.after? amountStart args with
    | some rest => s.answerAmount expand now rest inv
    | none => s.answerCheck expand now args inv

end Service

end InventoryQuery
