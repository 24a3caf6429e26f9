import InventoryQuery.Inventory.Snapshot
import InventoryQuery.Service.Basic
/-!
# The command line

One request about a stored inventory: the file of the inventory and the request, and options for
the settings, for placeholders, and for storing the inventory again afterwards. What the program
does is told here as a function of its arguments, of the files that it can read, and of the order in
which it writes the limits.
-/

namespace InventoryQuery.CommandLine

structure Options where
  inventory : Text
  args : Text
  config : Option Text
  placeholders : Placeholder.Table
  save : Bool
deriving DecidableEq

/-- What was found so far among the arguments. -/
structure Found where
  positional : List Text := []
  config : Option Text := none
  placeholders : Placeholder.Table := ∅
  save : Bool := false

/-- Goes over the arguments; fails where an option lacks its argument. -/
def Found.collect? (found : Found) : List Text → Option Found
  | [] => some found
  | arg :: rest =>
    if arg = "--config".toList then
      match rest with
      | [] => none
      | path :: rest => { found with config := some path }.collect? rest
    else if arg = "--set".toList then
      match rest with
      | [] => none
      | pair :: rest =>
        match Text.cutAt '=' pair with
        | none => none
        | some (token, value) =>
          { found with placeholders := found.placeholders.insert token value }.collect? rest
    else if arg = "--save".toList then { found with save := true }.collect? rest
    else { found with positional := found.positional ++ [arg] }.collect? rest

/-- The options that the arguments give; there must be two arguments that are no options. -/
def options? (argv : List Text) : Option Options :=
  match ({} : Found).collect? argv with
  | some ⟨[inventory, args], config, placeholders, save⟩ =>
    some ⟨inventory, args, config, placeholders, save⟩
  | _ => none

/-- Why a run gives no answer. -/
inductive Failure where
  | unreadable (path : Text)
  | invalid
deriving DecidableEq

/-- The wording of a failure, as far as the system and the reader do not add to it. -/
def Failure.message : Failure → Text
  | .unreadable path => "failed to read ".toList ++ path
  | .invalid => "invalid json".toList

def usage : Text :=
  ("usage: checkitem <inventory.json> <args> [--config <file>] [--set <token>=<value>]... "
    ++ "[--save]").toList

/-- What stands in front of the wording of a failure. -/
def failureStart : Text := "checkitem: ".toList

/-- The text in a file, and the value that it stores. -/
def loadFile {α : Type} (files : Text → Option Text) (load? : Text → Option α) (path : Text) :
    Except Failure α :=
  match files path with
  | none => .error (.unreadable path)
  | some text =>
    match load? text with
    | none => .error .invalid
    | some a => .ok a

/-- The answer to the request, and the text to store in the file of the inventory. -/
structure Outcome where
  answer : Text
  saved : Option Text
deriving DecidableEq

/-- What a run with the given options comes to, for the files that can be read, and in which order
the limits are stored. -/
def run (files : Text → Option Text) (o : Options)
    (order : Dict.Listing UInt32 := .ascending) : Except Failure Outcome := do
  let config ← match o.config with
    | none => pure {}
    | some path => loadFile files Config.load? path
  let inv ← loadFile files Inventory.load? o.inventory
  let (answer, _, inv) := (Service.ofConfig config).answer o.placeholders.expand 0 o.args inv
  return ⟨answer, if o.save then some (inv.save order) else none⟩

end InventoryQuery.CommandLine
