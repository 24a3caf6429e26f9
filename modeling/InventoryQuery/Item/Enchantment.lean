import InventoryQuery.Text.Blank
/-!
# Names of enchantments

An enchantment is known by a lower case key. A token may give it in any case, with a namespace in
front, or by one of the names that were in use before there were keys.
-/

namespace InventoryQuery.Enchantment

/-- The former names of enchantments, with their keys. -/
def formerNames : List (Text × Text) :=
  [("PROTECTION_ENVIRONMENTAL", "protection"),
   ("PROTECTION_FIRE", "fire_protection"),
   ("PROTECTION_FALL", "feather_falling"),
   ("PROTECTION_EXPLOSIONS", "blast_protection"),
   ("PROTECTION_PROJECTILE", "projectile_protection"),
   ("OXYGEN", "respiration"),
   ("WATER_WORKER", "aqua_affinity"),
   ("DAMAGE_ALL", "sharpness"),
   ("DAMAGE_UNDEAD", "smite"),
   ("DAMAGE_ARTHROPODS", "bane_of_arthropods"),
   ("LOOT_BONUS_MOBS", "looting"),
   ("SWEEPING_EDGE", "sweeping_edge"),
   ("DIG_SPEED", "efficiency"),
   ("DURABILITY", "unbreaking"),
   ("LOOT_BONUS_BLOCKS", "fortune"),
   ("ARROW_DAMAGE", "power"),
   ("ARROW_KNOCKBACK", "punch"),
   ("ARROW_FIRE", "flame"),
   ("ARROW_INFINITE", "infinity"),
   ("LUCK", "luck_of_the_sea")].map fun (name, key) => (name.toList, key.toList)

/-- The key of an enchantment without namespace, given in any case. -/
def keyOf (name : Text) : Text :=
  (formerNames.lookup (Text.upper name)).getD (Text.lower name)

/-- A token without the blanks around it and without its namespace, which ends at the first
colon. -/
def bare (token : Text) : Text :=
  match Text.cutAt ':' (Text.trim token) with
  | some (_, name) => name
  | none => Text.trim token

/-- The key that a token gives. -/
def normalize (token : Text) : Text := keyOf (bare token)

end InventoryQuery.Enchantment
