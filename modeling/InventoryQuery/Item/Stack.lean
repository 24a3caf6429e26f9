import InventoryQuery.Item.Tag
/-!
# Item stacks

A stack is an amount of one item. Two stacks are of the same item when they agree in everything but
the amount.
-/

namespace InventoryQuery

/-- The effect of a potion. -/
structure Potion where
  kind : Text
  extended : Bool
  upgraded : Bool
deriving DecidableEq

/-- What an item carries beyond its material. Enchantments are keyed by their normalized names. -/
structure Metadata where
  displayName : Option Text
  lore : List Text
  modelData : Option Int32
  enchants : Dict UInt32
  /-- The enchantments kept in a book. -/
  storedEnchants : Option (Dict UInt32)
  basePotion : Option Potion
deriving DecidableEq

namespace Metadata

def empty : Metadata := ⟨none, [], none, ∅, none, none⟩

def hasLore (m : Metadata) : Bool := !m.lore.isEmpty

/-- The stored enchantments of a book, the applied ones of any other item. -/
def enchantments (m : Metadata) : Dict UInt32 := m.storedEnchants.getD m.enchants

def isEnchanted (m : Metadata) : Bool := !m.enchantments.isEmpty

end Metadata

structure Stack where
  material : Text
  amount : UInt32
  damage : Int32
  metadata : Option Metadata
  tags : Compound
deriving DecidableEq

/-- The material of an empty slot. -/
def air : Text := "AIR".toList

namespace Stack

/-- A stack without further properties. -/
def plain (material : Text) (amount : UInt32) : Stack := ⟨material, amount, 0, none, []⟩

/-- Stacks of nothing and stacks of air are empty. -/
def isEmpty (s : Stack) : Bool := s.amount == 0 || s.material == air

/-- The same item in another amount. -/
def withAmount (s : Stack) (amount : UInt32) : Stack := { s with amount := amount }

/-- The sum of the amounts of stacks. -/
def total : List Stack → Nat
  | [] => 0
  | s :: rest => s.amount.toNat + total rest

/-- Whether two stacks are of the same item. -/
def isSimilar (s t : Stack) : Bool :=
  s.material == t.material && s.damage == t.damage && s.metadata == t.metadata
    && s.tags == t.tags

end Stack

end InventoryQuery
