import InventoryQuery.Cache
import InventoryQuery.Json.Decode
import InventoryQuery.Json.Reader
/-!
# Settings

What a service does for its requests, and how it answers. Settings are stored as a JSON record;
fields that are missing keep the values that they have to begin with.
-/

namespace InventoryQuery

structure Config where
  giveEnabled : Bool := false
  removeEnabled : Bool := false
  cacheEnabled : Bool := true
  cacheMaxSize : UInt64 := 500
  cacheTtlMillis : UInt64 := 0
  booleanTrue : Text := "yes".toList
  booleanFalse : Text := "no".toList
  useComponents : Bool := false
  substitutionPasses : UInt64 := 10
deriving DecidableEq

namespace Config

open Json (field? record?)

/-- The capacity of the cache. -/
def cacheCapacity (c : Config) : Nat := max c.cacheMaxSize.toNat Cache.minCapacity

/-- The lifetime of what is cached, in nanoseconds. -/
def cacheLifetime (c : Config) : Nat := c.cacheTtlMillis.toNat * 1000000

/-- The answer for a decision. -/
def render (c : Config) (decision : Bool) : Text :=
  if decision then c.booleanTrue else c.booleanFalse

def ofJson? (j : Json) : Option Config := do
  let r ← record? (["give_enabled", "remove_enabled", "cache_enabled", "cache_max_size",
    "cache_ttl_millis", "boolean_true", "boolean_false", "use_components",
    "substitution_passes"].map String.toList) j
  let start : Config := {}
  return {
    giveEnabled := ← field? r "give_enabled".toList start.giveEnabled Json.bool?
    removeEnabled := ← field? r "remove_enabled".toList start.removeEnabled Json.bool?
    cacheEnabled := ← field? r "cache_enabled".toList start.cacheEnabled Json.bool?
    cacheMaxSize := ← field? r "cache_max_size".toList start.cacheMaxSize Json.uint64?
    cacheTtlMillis := ← field? r "cache_ttl_millis".toList start.cacheTtlMillis Json.uint64?
    booleanTrue := ← field? r "boolean_true".toList start.booleanTrue Json.text?
    booleanFalse := ← field? r "boolean_false".toList start.booleanFalse Json.text?
    useComponents := ← field? r "use_components".toList start.useComponents Json.bool?
    substitutionPasses :=
      ← field? r "substitution_passes".toList start.substitutionPasses Json.uint64? }

/-- The settings that a text stores. -/
def load? (text : Text) : Option Config := Json.read? text >>= ofJson?

end Config

end InventoryQuery
