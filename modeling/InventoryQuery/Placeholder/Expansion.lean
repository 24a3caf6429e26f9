import InventoryQuery.Dict
import InventoryQuery.Placeholder.Token
/-!
# Expanding placeholders

A host expands the placeholders of a text in passes: the value put in by one pass may contain
placeholders for the next. Passes are made until one of them changes nothing, up to a limit.
-/

namespace InventoryQuery.Placeholder

/-- One pass of a host over a text. -/
abbrev Expander := Text → Text

/-- A host without placeholders. -/
def noExpander : Expander := id

/-- The values of tokens by name. -/
abbrev Table := Dict Text

/-- One pass with a table: tokens in braces first, then tokens in percent signs, also those that
the first values brought in. -/
def Table.expand (table : Table) : Expander := fun s =>
  Marks.percent.replace table.get? (Marks.braces.replace table.get? s)

/-- Up to `passes` passes, fewer if one of them changes nothing. -/
def settleWithin (expand : Expander) : Nat → Text → Text
  | 0, s => s
  | passes + 1, s =>
    let next := expand s
    if next = s then s else settleWithin expand passes next

/-- Passes until nothing changes or the limit is reached; there is always at least one. -/
def settle (expand : Expander) (limit : Nat) (s : Text) : Text :=
  settleWithin expand (max 1 limit) s

/-- Plain tokens in braces written as tokens in percent signs. -/
def bracesToPercent (s : Text) : Text :=
  Marks.plainBraces.replace (fun name => some (Marks.percent.write name)) s

end InventoryQuery.Placeholder
