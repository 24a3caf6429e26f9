import InventoryQuery.Dict
/-!
# Criteria

What a request asks of the stacks it is about: a set of predicates, an amount, and where to look.
A predicate that is absent asks nothing.
-/

namespace InventoryQuery

/-- The amount that a request asks for. One that cannot be computed is kept as invalid: the request
then fails. -/
inductive Target where
  | exact (n : UInt32)
  | invalid
deriving DecidableEq

/-- The amount to move for a target; an invalid one moves nothing. -/
def Target.amount : Target → UInt32
  | .exact n => n
  | .invalid => 0

/-- The level that is asked of an enchantment. -/
inductive Level where
  | any
  | exact (n : UInt32)
deriving DecidableEq

def Level.accepts : Level → UInt32 → Bool
  | .any, _ => true
  | .exact n, level => n == level

structure Criteria where
  material : Option Text := none
  damage : Option Int32 := none
  modelData : Option Int32 := none
  amount : Option Target := none
  nameContains : Option Text := none
  nameStarts : Option Text := none
  nameIs : Option Text := none
  loreContains : Option Text := none
  /-- The lines of the lore with bars between them. -/
  loreIs : Option Text := none
  materialContains : Option Text := none
  enchantments : Option (Dict Level) := none
  enchanted : Bool := false
  potionKind : Option Text := none
  potionExtended : Option Bool := none
  potionUpgraded : Option Bool := none
  /-- Texts by the paths at which they must stand. -/
  tagTexts : Option (Dict Text) := none
  /-- Integers by the paths at which they must stand. -/
  tagInts : Option (Dict Int32) := none
  mainHand : Bool := false
  offHand : Bool := false
  slot : Option UInt64 := none
  /-- Accept no name, lore, damage or enchantment that is not asked for. -/
  strict : Bool := false
  /-- Take the matched stacks away. -/
  removes : Bool := false
deriving DecidableEq

namespace Criteria

/-- The same criteria, for taking away what matches. -/
def removing (c : Criteria) : Criteria := { c with removes := true }

def asksName (c : Criteria) : Bool :=
  c.nameContains.isSome || c.nameStarts.isSome || c.nameIs.isSome

def asksLore (c : Criteria) : Bool := c.loreContains.isSome || c.loreIs.isSome

def asksPotion (c : Criteria) : Bool :=
  c.potionKind.isSome || c.potionExtended.isSome || c.potionUpgraded.isSome

def asksTags (c : Criteria) : Bool := c.tagTexts.isSome || c.tagInts.isSome

end Criteria

end InventoryQuery
