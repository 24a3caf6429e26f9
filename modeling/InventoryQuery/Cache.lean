import InventoryQuery.Text.Basic
/-!
# A bounded cache

Values that are expensive to build are kept by the text they were built from. When the cache is
full, the entry that was used least recently makes room; an entry past its lifetime counts as
missing and is built again. Times are readings of one clock that does not go back.
-/

namespace InventoryQuery

universe u v

structure Cache (α : Type u) where
  capacity : Nat
  /-- How long an entry is kept; zero stands for no limit. -/
  lifetime : Nat
  /-- The entries with their keys and the times at which they were built, the one that was used
  last in front. -/
  entries : List (Text × α × Nat)

namespace Cache

variable {α : Type u}

/-- The smallest capacity; smaller ones are raised to it. -/
def minCapacity : Nat := 50

def empty (capacity lifetime : Nat) : Cache α := ⟨max capacity minCapacity, lifetime, []⟩

/-- The same cache without its entries. -/
def clear (c : Cache α) : Cache α := { c with entries := [] }

def size (c : Cache α) : Nat := c.entries.length

/-- The value under a key and the time at which it was built. -/
def find? (c : Cache α) (key : Text) : Option (α × Nat) := c.entries.lookup key

/-- Whether there is an entry under a key, past its lifetime or not. -/
def contains (c : Cache α) (key : Text) : Bool := (c.find? key).isSome

/-- The entries without the one under a key. -/
def without (c : Cache α) (key : Text) : List (Text × α × Nat) :=
  c.entries.filter fun entry => entry.1 != key

/-- Whether an entry that was built at `built` is past its lifetime. -/
def isExpired (c : Cache α) (now built : Nat) : Bool :=
  c.lifetime != 0 && c.lifetime < now - built

/-- Puts a new entry in front; the entries that do not fit any more fall out at the end. -/
def push (c : Cache α) (now : Nat) (key : Text) (value : α) : Cache α :=
  { c with entries := ((key, value, now) :: c.without key).take c.capacity }

/-- Builds the value under a key; when nothing could be built, nothing is put in. -/
def rebuild {m : Type u → Type v} [Monad m] (c : Cache α) (now : Nat) (key : Text)
    (build : Text → m (Option α)) : m (Option α × Cache α) := do
  match ← build key with
  | some value => return (some value, c.push now key value)
  | none => return (none, c)

/-- The value under a key, built if none is there to be used. A use moves the entry to the front.
Building may have effects; a value that is there to be used is returned without any. The clock shows
`now` when the key is looked up and `done` when its value has been built. -/
def getOrBuildAt {m : Type u → Type v} [Monad m] (c : Cache α) (now done : Nat) (key : Text)
    (build : Text → m (Option α)) : m (Option α × Cache α) :=
  match c.find? key with
  | some (value, built) =>
    if c.isExpired now built then rebuild { c with entries := c.without key } done key build
    else pure (some value, { c with entries := (key, value, built) :: c.without key })
  | none => c.rebuild done key build

/-- The value under a key, where building takes no time. -/
def getOrBuild {m : Type u → Type v} [Monad m] (c : Cache α) (now : Nat) (key : Text)
    (build : Text → m (Option α)) : m (Option α × Cache α) :=
  c.getOrBuildAt now now key build

end Cache

end InventoryQuery
