import InventoryQuery.Criteria.Basic
import InventoryQuery.Item.Potion
/-!
# Matching stacks

A stack that is not empty matches criteria when every predicate holds of it. What a predicate needs
and a stack does not have, metadata for instance, is as if it were there and different.
-/

namespace InventoryQuery

/-- What differs between hosts. -/
structure Host where
  potions : PotionStore
  /-- Free-form tags are in a compound of their own. -/
  components : Bool

/-- The compound with the free-form tags of a stack. -/
def Host.tagRoot? (host : Host) (s : Stack) : Option Compound :=
  if host.components then s.tags.compound? customData else some s.tags

namespace Criteria

variable (c : Criteria)

def acceptsMaterial (s : Stack) : Bool :=
  c.material.all (fun m => m == s.material) && c.damage.all (fun d => d == s.damage)
    && c.materialContains.all fun needle => Text.occursIn needle s.material

def acceptsName (name : Option Text) : Bool :=
  c.nameContains.all (fun needle => name.any fun n => Text.occursIn needle n)
    && c.nameStarts.all (fun start => name.any fun n => start.isPrefixOf n)
    && c.nameIs.all fun expected => name == some expected

def acceptsLore (lore : List Text) : Bool :=
  c.loreContains.all (fun needle => lore.any fun line => Text.occursIn needle line)
    && c.loreIs.all fun expected => !lore.isEmpty && Text.joinWith '|' lore == expected

def acceptsMetadata (m : Option Metadata) : Bool :=
  c.modelData.all (fun n => m.any fun m => m.modelData == some n)
    && c.acceptsName (m.bind Metadata.displayName)
    && c.acceptsLore ((m.map Metadata.lore).getD [])

def acceptsEnchantments (m : Option Metadata) : Bool :=
  (c.enchantments.all fun levels => m.any fun m =>
    m.isEnchanted && levels.entries.all fun (key, level) =>
      (m.enchantments.get? key).any level.accepts)
    && (!c.enchanted || m.any Metadata.isEnchanted)

def acceptsPotion (p : Option Potion) : Bool :=
  !c.asksPotion || p.any fun p =>
    c.potionKind.all (fun kind => kind == p.kind)
      && c.potionExtended.all (fun b => b == p.extended)
      && c.potionUpgraded.all fun b => b == p.upgraded

def acceptsTags (root : Option Compound) : Bool :=
  !c.asksTags || root.any fun root =>
    c.tagTexts.all (fun texts => texts.entries.all fun (path, s) => root.pathText? path == some s)
      && c.tagInts.all fun ints => ints.entries.all fun (path, n) => root.pathInt? path == some n

/-- Whether a stack has no name, lore, damage or applied enchantment that is not asked for. -/
def acceptsStrictly (s : Stack) : Bool :=
  (s.damage == 0 || c.damage.isSome)
    && s.metadata.all fun m =>
      (m.displayName.isNone || c.asksName) && (!m.hasLore || c.asksLore)
        && (m.enchants.isEmpty || c.enchantments.isSome || c.enchanted)

/-- Whether every predicate holds of a stack. Strictness needs a material. -/
def matchesStack (host : Host) (s : Stack) : Bool :=
  c.acceptsMaterial s && c.acceptsMetadata s.metadata && c.acceptsEnchantments s.metadata
    && c.acceptsPotion (host.potions.read? s) && c.acceptsTags (host.tagRoot? s)
    && (!c.strict || c.material.isNone || c.acceptsStrictly s)

end Criteria

end InventoryQuery
