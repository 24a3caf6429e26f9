import InventoryQuery.Criteria.Match
/-!
# Items that criteria describe

Criteria with a material describe an item: what they ask for exactly is put on it. What they ask
for in part only, the end of a name for instance, describes nothing.
-/

namespace InventoryQuery.Criteria

/-- The level that is put on an item for a level that is asked for. -/
def levelToPut : Level → UInt32
  | .any => 1
  | .exact n => n

/-- The metadata that criteria describe, apart from the effect of a potion. -/
def metadataToPut (c : Criteria) : Metadata where
  displayName := c.nameIs
  lore := match c.loreIs with
    | none => []
    | some lore => Text.piecesAt '|' lore
  modelData := c.modelData
  enchants := match c.enchantments with
    | none => ∅
    | some levels => levels.map levelToPut
  storedEnchants := none
  basePotion := none

/-- The effect that criteria describe. -/
def potionToPut? (c : Criteria) : Option Potion :=
  c.potionKind.map fun kind =>
    ⟨kind, c.potionExtended.getD false, c.potionUpgraded.getD false⟩

/-- A compound with the tags that criteria ask for; texts first, in the order of their paths. -/
def putTags (c : Criteria) (root : Compound) : Compound :=
  let texts := match c.tagTexts with
    | none => []
    | some texts => texts.entries
  let ints := match c.tagInts with
    | none => []
    | some ints => ints.entries
  let root := texts.foldl (fun root (path, s) => root.setPath path (.text s)) root
  ints.foldl (fun root (path, n) => root.setPath path (.int n)) root

/-- The tags of an item with the ones that criteria ask for, where a host looks for them. -/
def tagsToPut (c : Criteria) (host : Host) (tags : Compound) : Compound :=
  if c.asksTags then
    if host.components then
      tags.insert customData (.compound (c.putTags (tags.child customData)))
    else c.putTags tags
  else tags

/-- One of the item that criteria describe, if they name a material other than air. -/
def item? (c : Criteria) (host : Host) : Option Stack :=
  match c.material with
  | none => none
  | some material =>
    if material = [] ∨ material = air then none
    else
      let plain : Stack := ⟨material, 1, c.damage.getD 0, some c.metadataToPut, []⟩
      let brewed := match c.potionToPut? with
        | none => plain
        | some potion => (host.potions.write plain potion).2
      some { brewed with tags := c.tagsToPut host brewed.tags }

end InventoryQuery.Criteria
