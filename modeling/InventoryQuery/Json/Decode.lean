import InventoryQuery.Dict
import InventoryQuery.Json.Basic
import InventoryQuery.Json.Spelling
import InventoryQuery.Text.Numeral
/-!
# Values in JSON documents

What the parts of a document stand for. Integers are spelled without fraction and exponent, and
minus zero is none. A record is an object, each of whose fields stands in it at most once, next to
members of other names, which do not count; or an array of the fields in their order, of which the
last ones may be missing.
-/

namespace InventoryQuery.Json

variable {α : Type}

/-- The integer that a number spells. -/
def integerOf? : Text → Option Int
  | '-' :: s => match Numeral.ofDigits? s with
    | some (n + 1) => some (Int.negSucc n)
    | _ => none
  | s => (Numeral.ofDigits? s).map Int.ofNat

def integer? : Json → Option Int
  | .number spelling => integerOf? spelling
  | _ => none

def int32? (j : Json) : Option Int32 := j.integer? >>= Numeral.int32?

def natural? (j : Json) : Option Nat :=
  match j.integer? with
  | some (.ofNat n) => some n
  | _ => none

def uint32? (j : Json) : Option UInt32 := j.natural? >>= Numeral.word32?

def uint64? (j : Json) : Option UInt64 := j.natural? >>= Numeral.word64?

def bool? : Json → Option Bool
  | .bool b => some b
  | _ => none

def text? : Json → Option Text
  | .string spelling => unspell? spelling
  | _ => none

/-- A value that may be null. -/
def nullable? (decode : Json → Option α) : Json → Option (Option α)
  | .null => some none
  | j => (decode j).map some

def list? (decode : Json → Option α) : Json → Option (List α)
  | .array items => items.mapM decode
  | _ => none

/-- A map; of equal keys the last one counts. -/
def dict? (decode : Json → Option α) : Json → Option (Dict α)
  | .object members =>
    (members.mapM fun (key, value) => do return (← unspell? key, ← decode value)).map Dict.ofList
  | _ => none

/-- The fields of a record that are given in an object, by name. -/
def fieldsOf? (names : List Text) : List (Text × Json) → Option (List (Text × Json))
  | [] => some []
  | (key, value) :: members => do
    let name ← unspell? key
    let fields ← fieldsOf? names members
    if name ∈ names then
      if (Entries.get? name fields).isSome then none else some ((name, value) :: fields)
    else some fields

/-- The given fields of a record whose fields have the given names. -/
def record? (names : List Text) : Json → Option (List (Text × Json))
  | .object members => fieldsOf? names members
  | .array items => if items.length ≤ names.length then some (names.zip items) else none
  | _ => none

/-- The value of a field that may be missing. -/
def field? (fields : List (Text × Json)) (name : Text) (missing : α)
    (decode : Json → Option α) : Option α :=
  match Entries.get? name fields with
  | none => some missing
  | some j => decode j

/-- The value of a field that must be given. -/
def required? (fields : List (Text × Json)) (name : Text) (decode : Json → Option α) :
    Option α :=
  Entries.get? name fields >>= decode

end InventoryQuery.Json
