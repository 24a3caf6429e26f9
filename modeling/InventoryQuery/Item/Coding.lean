import InventoryQuery.Item.Stack
import InventoryQuery.Json.Decode
/-!
# Stacks in JSON documents

The record of a stack and of its parts, read and written. Writing gives every field, apart from
missing metadata and an empty compound of tags. Only tags can be nested in one another; how deep
they may be depends on what is around the stack, so reading is told how much room there is.
-/

namespace InventoryQuery

open Json (field? required? record? nullable? list? dict?)

/-- The names of the fields of a record, in their order. -/
def fieldNames (names : List String) : List Text := names.map String.toList

namespace Json

def ofNat (n : Nat) : Json := .number (Numeral.digits n)

def ofInt (n : Int) : Json := .number (Numeral.integer n)

def ofText (s : Text) : Json := .string (spell s)

def ofOption {α : Type} (encode : α → Json) : Option α → Json
  | none => .null
  | some a => encode a

/-- An object with the given entries, in the order in which they stand. -/
def ofEntries {α : Type} (encode : α → Json) (entries : List (Text × α)) : Json :=
  .object (entries.map fun (key, value) => (spell key, encode value))

def ofDict {α : Type} (encode : α → Json) (m : Dict α) : Json := ofEntries encode m.entries

end Json

namespace Tag

mutual

def ofJson? : Json → Option Tag
  | .number spelling => (Json.int32? (.number spelling)).map .int
  | .string spelling => (Json.unspell? spelling).map .text
  | .object members => (entriesOfJson? members).map fun entries => .compound (Entries.ofList entries)
  | _ => none

/-- The entries that members give, in the order in which they are written. -/
def entriesOfJson? : List (Text × Json) → Option Compound
  | [] => some []
  | (key, value) :: members =>
    match Json.unspell? key, ofJson? value, entriesOfJson? members with
    | some name, some tag, some entries => some ((name, tag) :: entries)
    | _, _, _ => none

end

mutual

def toJson : Tag → Json
  | .int n => Json.ofInt n.toInt
  | .text s => Json.ofText s
  | .compound entries => .object (membersOfEntries entries)

def membersOfEntries : Compound → List (Text × Json)
  | [] => []
  | (name, tag) :: entries => (Json.spell name, tag.toJson) :: membersOfEntries entries

end

end Tag

namespace Compound

/-- The tags that a document gives, if it is nested no deeper than there is room for. -/
def ofJson? (room : Nat) (j : Json) : Option Compound :=
  if j.depth ≤ room then
    match Tag.ofJson? j with
    | some (.compound c) => some c
    | _ => none
  else none

def toJson (c : Compound) : Json := (Tag.compound c).toJson

end Compound

namespace Potion

def ofJson? (j : Json) : Option Potion := do
  let r ← record? (fieldNames ["type", "extended", "upgraded"]) j
  return {
    kind := ← required? r "type".toList Json.text?
    extended := ← field? r "extended".toList false Json.bool?
    upgraded := ← field? r "upgraded".toList false Json.bool? }

def toJson (p : Potion) : Json :=
  .object [("type".toList, Json.ofText p.kind), ("extended".toList, .bool p.extended),
    ("upgraded".toList, .bool p.upgraded)]

end Potion

namespace Metadata

def ofJson? (j : Json) : Option Metadata := do
  let r ← record? (fieldNames ["display_name", "lore", "custom_model_data", "enchants",
    "stored_enchants", "base_potion"]) j
  return {
    displayName := ← field? r "display_name".toList none (nullable? Json.text?)
    lore := ← field? r "lore".toList [] (list? Json.text?)
    modelData := ← field? r "custom_model_data".toList none (nullable? Json.int32?)
    enchants := ← field? r "enchants".toList ∅ (dict? Json.uint32?)
    storedEnchants :=
      ← field? r "stored_enchants".toList none (nullable? (dict? Json.uint32?))
    basePotion := ← field? r "base_potion".toList none (nullable? Potion.ofJson?) }

def toJson (m : Metadata) : Json :=
  .object [("display_name".toList, Json.ofOption Json.ofText m.displayName),
    ("lore".toList, .array (m.lore.map Json.ofText)),
    ("custom_model_data".toList, Json.ofOption (fun n => Json.ofInt n.toInt) m.modelData),
    ("enchants".toList, Json.ofDict (fun n => Json.ofNat n.toNat) m.enchants),
    ("stored_enchants".toList,
      Json.ofOption (Json.ofDict fun n => Json.ofNat n.toNat) m.storedEnchants),
    ("base_potion".toList, Json.ofOption Potion.toJson m.basePotion)]

end Metadata

namespace Stack

/-- The stack that a document gives; one level of the room that there is for nesting goes to the
stack itself. -/
def ofJson? (room : Nat) (j : Json) : Option Stack := do
  let r ← record? (fieldNames ["material", "amount", "damage", "meta", "tags"]) j
  return {
    material := ← required? r "material".toList Json.text?
    amount := ← field? r "amount".toList 1 Json.uint32?
    damage := ← field? r "damage".toList 0 Json.int32?
    metadata := ← field? r "meta".toList none (nullable? Metadata.ofJson?)
    tags := ← field? r "tags".toList [] (Compound.ofJson? (room - 1)) }

def toJson (s : Stack) : Json :=
  .object (
    [("material".toList, Json.ofText s.material), ("amount".toList, Json.ofNat s.amount.toNat),
      ("damage".toList, Json.ofInt s.damage.toInt)]
    ++ (match s.metadata with
      | none => []
      | some m => [("meta".toList, m.toJson)])
    ++ (if s.tags.isEmpty then [] else [("tags".toList, s.tags.toJson)]))

end Stack

end InventoryQuery
