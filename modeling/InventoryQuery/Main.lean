import InventoryQuery.CommandLine
/-!
# The program

Reads the files that the command line names, prints the answer, and stores the inventory.
-/

open InventoryQuery CommandLine

/-- The text in a file, if the file can be read. -/
def readText (path : Text) : IO (Option Text) := do
  try
    return some (← IO.FS.readFile (String.ofList path)).toList
  catch _ => return none

/-- The files that the options name, with their texts. -/
def readNamed (o : Options) : IO (List (Text × Option Text)) :=
  (o.inventory :: o.config.toList).mapM fun path => do return (path, ← readText path)

/-- Writes a text into a file; tells whether that was possible. -/
def writeText (path text : Text) : IO Bool := do
  try
    IO.FS.writeFile (String.ofList path) (String.ofList text)
    return true
  catch _ => return false

/-- Reports a failure. -/
def fail (failure : Failure) : IO UInt32 := do
  IO.eprintln (String.ofList (failureStart ++ failure.message))
  return 1

def main (argv : List String) : IO UInt32 := do
  match options? (argv.map String.toList) with
  | none =>
    IO.eprintln (String.ofList usage)
    return 2
  | some o =>
    let named ← readNamed o
    match run (fun path => (named.lookup path).join) o with
    | .error failure => fail failure
    | .ok outcome =>
      match outcome.saved with
      | none => pure ()
      | some text =>
        if !(← writeText o.inventory text) then return ← fail (.unreadable o.inventory)
      IO.println (String.ofList outcome.answer)
      return 0
