import InventoryQuery.Dict
/-!
# Tags

The free-form data of an item: a tree of named tags. The leaves are integers and texts, the inner
nodes are compounds, whose entries have ascending names. A path names a tag by the names of the
compounds around it, from the outermost inwards, with two dots between the names.
-/

namespace InventoryQuery

inductive Tag where
  | int (n : Int32)
  | text (s : Text)
  | compound (entries : List (Text × Tag))

/-- The named tags of one level. -/
abbrev Compound := List (Text × Tag)

namespace Tag

mutual

protected def decEq : (a b : Tag) → Decidable (a = b)
  | .int m, .int n => decidable_of_iff (m = n) (by simp)
  | .text s, .text t => decidable_of_iff (s = t) (by simp)
  | .compound c, .compound d =>
    have := Tag.entriesDecEq c d
    decidable_of_iff (c = d) (by simp)
  | .int _, .text _ | .int _, .compound _ | .text _, .int _ | .text _, .compound _
  | .compound _, .int _ | .compound _, .text _ => isFalse (by simp)

protected def entriesDecEq : (c d : List (Text × Tag)) → Decidable (c = d)
  | [], [] => isTrue rfl
  | [], _ :: _ | _ :: _, [] => isFalse (by simp)
  | (k, a) :: c, (l, b) :: d =>
    have := Tag.decEq a b
    have := Tag.entriesDecEq c d
    decidable_of_iff ((k = l ∧ a = b) ∧ c = d) (by simp)

end

instance : DecidableEq Tag := Tag.decEq

/-- The entries of a compound; other tags have none. -/
def entries : Tag → Compound
  | .compound c => c
  | _ => []

end Tag

namespace Compound

/-- The tag under a name. -/
def get? (c : Compound) (name : Text) : Option Tag := Entries.get? name c

/-- Writes a tag under a name, in place of any tag that is there. -/
def insert (c : Compound) (name : Text) (tag : Tag) : Compound := Entries.insert name tag c

/-- The text under a name, if there is one. -/
def text? (c : Compound) (name : Text) : Option Text :=
  match c.get? name with
  | some (.text s) => some s
  | _ => none

/-- The integer under a name, if there is one. -/
def int? (c : Compound) (name : Text) : Option Int32 :=
  match c.get? name with
  | some (.int n) => some n
  | _ => none

/-- The compound under a name, if there is one. -/
def compound? (c : Compound) (name : Text) : Option Compound :=
  match c.get? name with
  | some (.compound d) => some d
  | _ => none

/-- The entries of the compound under a name; none if no compound is there. -/
def child (c : Compound) (name : Text) : Compound := (c.compound? name).getD []

/-- Makes sure that a compound is under a name, in place of any other tag. -/
def openChild (c : Compound) (name : Text) : Compound := c.insert name (.compound (c.child name))

end Compound

namespace Path

/-- The names in a path: the pieces between pairs of dots, which are taken from left to right. -/
def segments : Text → List Text
  | [] => [[]]
  | [c] => [[c]]
  | c :: d :: s =>
    if c = '.' ∧ d = '.' then [] :: segments s
    else match segments (d :: s) with
      | [] => [[c]]
      | segment :: rest => (c :: segment) :: rest

/-- The text of a path of names. -/
def ofSegments : List Text → Text
  | [] => []
  | [name] => name
  | name :: names => name ++ '.' :: '.' :: ofSegments names

end Path

namespace Compound

/-- Writes a tag under names leading inwards, making compounds on the way where none are. -/
def setAt (c : Compound) (tag : Tag) : List Text → Compound
  | [] => c
  | [name] => c.insert name tag
  | name :: names => c.insert name (.compound ((c.child name).setAt tag names))

/-- The tag under names leading inwards. -/
def getAt? (c : Compound) : List Text → Option Tag
  | [] => none
  | [name] => c.get? name
  | name :: names =>
    match c.compound? name with
    | none => none
    | some d => d.getAt? names

/-- Writes a tag at a path. -/
def setPath (c : Compound) (path : Text) (tag : Tag) : Compound :=
  c.setAt tag (Path.segments path)

/-- The text at a path. -/
def pathText? (c : Compound) (path : Text) : Option Text :=
  match c.getAt? (Path.segments path) with
  | some (.text s) => some s
  | _ => none

/-- The integer at a path. -/
def pathInt? (c : Compound) (path : Text) : Option Int32 :=
  match c.getAt? (Path.segments path) with
  | some (.int n) => some n
  | _ => none

end Compound

/-- The compound that holds the tags of items on hosts with components. -/
def customData : Text := "minecraft:custom_data".toList

end InventoryQuery
