import InventoryQuery.Text.Basic
/-!
# JSON documents

A document as a tree. Numbers, strings and keys are kept the way they are spelled, and members in
the order in which they are written, repeated keys included: what a spelling means, and whether it
has to mean anything, is decided by those who ask for the value.
-/

namespace InventoryQuery

inductive Json where
  | null
  | bool (b : Bool)
  /-- A number as it is spelled. -/
  | number (spelling : Text)
  /-- A string as it is spelled between its quotes. -/
  | string (spelling : Text)
  | array (items : List Json)
  /-- The members with the spellings of their keys. -/
  | object (members : List (Text × Json))

namespace Json

mutual

/-- How many arrays and objects are inside one another at most. -/
def depth : Json → Nat
  | .array items => depthOfItems items + 1
  | .object members => depthOfMembers members + 1
  | _ => 0

def depthOfItems : List Json → Nat
  | [] => 0
  | item :: items => max item.depth (depthOfItems items)

def depthOfMembers : List (Text × Json) → Nat
  | [] => 0
  | (_, value) :: members => max value.depth (depthOfMembers members)

end

/-- How many arrays and objects may be inside one another in a document, counted where its values
are asked for; what nobody asks for is not counted. -/
def maxDepth : Nat := 127

end Json

end InventoryQuery
