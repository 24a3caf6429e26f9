import InventoryQuery.Criteria.Clause
import InventoryQuery.Expression.Evaluate
import InventoryQuery.Item.Enchantment
import InventoryQuery.Placeholder.Expansion
import InventoryQuery.Text.Escaped
/-!
# Reading criteria

A criteria text is a list of fields with commas between them. Most fields are a key, a colon that
belongs to the key, and a value; some are bare words. A field that is neither is left out, and so
is one whose value cannot be read, unless the clause has a way to say so.

Placeholders are expanded in the whole text, in every value, and in the parts of values that are
lists themselves. The reader takes the expansion as a function on texts.
-/

namespace InventoryQuery

open Placeholder (bracesToPercent)

/-- The kinds of fields with a value. -/
inductive FieldKey where
  | damage
  | modelData
  | material
  | amountExpression
  | amount
  | nameStarts
  | nameContains
  | nameIs
  | loreContains
  | loreIs
  | materialContains
  | enchantments
  | potionKind
  | potionExtended
  | potionUpgraded
  | tagTexts
  | tagInts
  | slot
deriving DecidableEq

namespace FieldKey

/-- How each kind of field starts. A field is of the first kind that fits. -/
def table : List (Text × FieldKey) :=
  [("data:", .damage),
   ("custommodeldata:", .modelData),
   ("mat:", .material),
   ("amtexpr:", .amountExpression),
   ("amt:", .amount),
   ("namestartswith:", .nameStarts),
   ("namecontains:", .nameContains),
   ("nameequals:", .nameIs),
   ("lorecontains:", .loreContains),
   ("loreequals:", .loreIs),
   ("matcontains:", .materialContains),
   ("enchantments:", .enchantments),
   ("potiontype:", .potionKind),
   ("potionextended:", .potionExtended),
   ("potionupgraded:", .potionUpgraded),
   ("nbtstrings:", .tagTexts),
   ("nbtints:", .tagInts),
   ("inslot:", .slot)].map fun (start, key) => (start.toList, key)

/-- The kind of a field, and its value as it is written. -/
def split? (field : Text) : Option (FieldKey × Text) :=
  table.findSome? fun (start, key) => (Text.after? start field).map fun value => (key, value)

end FieldKey

namespace Clause

/-- The clauses that are bare words. -/
def words : List (Text × Clause) :=
  [("inhand", .bothHands), ("inhand:main", .mainHand), ("inhand:off", .offHand),
   ("strict", .strict), ("enchanted", .enchanted)].map fun (word, clause) => (word.toList, clause)

/-- The start of an expression that is wrapped in a token of its own. -/
def equationStart : Text := "\x7bcmi_equationint_".toList

/-- The expression inside the wrapping token. -/
def equationBody? (s : Text) : Option Text :=
  match Text.after? equationStart s with
  | none => none
  | some rest => if rest.getLast? = some '\x7d' then some rest.dropLast else none

variable (resolve : Text → Text)

/-- The amount that the value of an expression field asks for. -/
def targetOfExpression (value : Text) : Target :=
  let resolved := resolve (Text.trim value)
  let body := (equationBody? resolved).getD resolved
  match Expression.evaluate (resolve (bracesToPercent body)) with
  | .ok n => .exact n
  | .error _ => .invalid

/-- The amount that the value of an amount field asks for. -/
def targetOfNumber (value : Text) : Target :=
  match Numeral.readUInt32? (Text.trim value) with
  | some n => .exact n
  | none => .invalid

/-- An enchantment with the level asked of it; a level that is no number accepts every level. -/
def levelOfSegment? (segment : Text) : Option (Text × Level) :=
  let (token, level) : Text × Option Text :=
    match Text.cutAt '=' segment with
    | some (token, level) => (token, some level)
    | none => (segment, none)
  let key := Enchantment.normalize (resolve token)
  if key = [] then none
  else
    match level.bind fun level => Numeral.readUInt32? (Text.trim (resolve level)) with
    | some n => some (key, .exact n)
    | none => some (key, .any)

/-- A path with what must stand there; a segment without it is left out. -/
def pairOfSegment? {α : Type} (read : Text → Option α) (segment : Text) : Option (Text × α) :=
  match Text.cutAt '=' segment with
  | none => none
  | some (path, value) => (read (resolve value)).map fun a => (resolve path, a)

/-- The map that a list with semicolons gives, segment by segment. -/
def dictOfSegments {α : Type} (read : Text → Option (Text × α)) (value : Text) : Dict α :=
  Dict.ofList ((Escaped.split ';' value).filterMap read)

def isTrue (value : Text) : Bool := Text.sameLetters value "true".toList

/-- The clause of a field whose value, with its placeholders expanded, is given. -/
def ofValue? (value : Text) : FieldKey → Option Clause
  | .damage => (Numeral.readInt32? (Text.trim value)).map .damage
  | .modelData =>
    match Numeral.readInt32? (Text.trim value) with
    | some n => if 0 ≤ n then some (.modelData n) else none
    | none => none
  | .material => some (.material (Text.upper value))
  | .amountExpression => none
  | .amount => some (.amount (targetOfNumber value))
  | .nameStarts => some (.nameStarts value)
  | .nameContains => some (.nameContains value)
  | .nameIs => some (.nameIs value)
  | .loreContains => some (.loreContains value)
  | .loreIs => some (.loreIs value)
  | .materialContains => some (.materialContains value)
  | .enchantments =>
    some (.enchantments (dictOfSegments
      (fun segment => if segment = [] then none else levelOfSegment? resolve segment) value))
  | .potionKind => some (.potionKind (Text.upper value))
  | .potionExtended => some (.potionExtended (isTrue value))
  | .potionUpgraded => some (.potionUpgraded (isTrue value))
  | .tagTexts => some (.tagTexts (dictOfSegments (pairOfSegment? resolve some) value))
  | .tagInts =>
    some (.tagInts (dictOfSegments
      (pairOfSegment? resolve fun s => Numeral.readInt32? (Text.trim s)) value))
  | .slot => some (.slot (Numeral.readUInt64? (Text.trim value)))

/-- The clause of a field. -/
def read? (field : Text) : Option Clause :=
  match FieldKey.split? field with
  | some (.amountExpression, value) => some (.amount (targetOfExpression resolve value))
  | some (key, value) => ofValue? resolve (resolve value) key
  | none => words.lookup field

end Clause

namespace Criteria

/-- A text with a space for every two underscores. -/
def spaced : Text → Text
  | '_' :: '_' :: s => ' ' :: spaced s
  | c :: s => c :: spaced s
  | [] => []

/-- The criteria that a text gives. -/
def readWith (resolve : Text → Text) (text : Text) : Criteria :=
  ofClauses ((Escaped.split ',' (resolve (spaced text))).filterMap (Clause.read? resolve))

/-- Reading never gives criteria that take away. -/
theorem removes_readWith (resolve : Text → Text) (text : Text) :
    (readWith resolve text).removes = false :=
  removes_ofClauses _

/-- The criteria that a text gives for a host and its limit of passes. -/
def read (expand : Placeholder.Expander) (passes : Nat) (text : Text) : Criteria :=
  readWith (Placeholder.settle expand passes) text

end Criteria

end InventoryQuery
