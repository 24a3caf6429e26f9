import InventoryQuery.Criteria.Basic
/-!
# Clauses of criteria

A clause is what one field of a criteria text asks. Criteria are made by adding clauses one after
another: a later clause replaces an earlier one about the same thing, flags add up.
-/

namespace InventoryQuery

inductive Clause where
  | material (s : Text)
  | damage (n : Int32)
  | modelData (n : Int32)
  | amount (target : Target)
  | nameContains (s : Text)
  | nameStarts (s : Text)
  | nameIs (s : Text)
  | loreContains (s : Text)
  | loreIs (s : Text)
  | materialContains (s : Text)
  | enchantments (levels : Dict Level)
  | enchanted
  | potionKind (s : Text)
  | potionExtended (b : Bool)
  | potionUpgraded (b : Bool)
  | tagTexts (texts : Dict Text)
  | tagInts (ints : Dict Int32)
  | mainHand
  | offHand
  | bothHands
  /-- A slot that is not a number leaves the slot open again. -/
  | slot (n : Option UInt64)
  | strict
deriving DecidableEq

/-- The criteria with one more clause. -/
def Criteria.add (c : Criteria) : Clause → Criteria
  | .material s => { c with material := some s }
  | .damage n => { c with damage := some n }
  | .modelData n => { c with modelData := some n }
  | .amount target => { c with amount := some target }
  | .nameContains s => { c with nameContains := some s }
  | .nameStarts s => { c with nameStarts := some s }
  | .nameIs s => { c with nameIs := some s }
  | .loreContains s => { c with loreContains := some s }
  | .loreIs s => { c with loreIs := some s }
  | .materialContains s => { c with materialContains := some s }
  | .enchantments levels => { c with enchantments := some levels }
  | .enchanted => { c with enchanted := true }
  | .potionKind s => { c with potionKind := some s }
  | .potionExtended b => { c with potionExtended := some b }
  | .potionUpgraded b => { c with potionUpgraded := some b }
  | .tagTexts texts => { c with tagTexts := some texts }
  | .tagInts ints => { c with tagInts := some ints }
  | .mainHand => { c with mainHand := true }
  | .offHand => { c with offHand := true }
  | .bothHands => { c with mainHand := true, offHand := true }
  | .slot n => { c with slot := n }
  | .strict => { c with strict := true }

theorem Criteria.removes_add (c : Criteria) (clause : Clause) :
    (c.add clause).removes = c.removes := by
  cases clause <;> rfl

/-- The criteria that clauses make. -/
def Criteria.ofClauses (clauses : List Clause) : Criteria := clauses.foldl Criteria.add {}

/-- What holds of criteria that ask nothing, and is kept by each of the clauses, holds of the
criteria that they make. -/
theorem Criteria.ofClauses_induction {P : Criteria → Prop} {clauses : List Clause} (hempty : P {})
    (hadd : ∀ c, P c → ∀ clause ∈ clauses, P (c.add clause)) : P (ofClauses clauses) :=
  List.foldlRecOn clauses add hempty hadd

/-- Clauses never make criteria that take away. -/
theorem Criteria.removes_ofClauses (clauses : List Clause) : (ofClauses clauses).removes = false :=
  ofClauses_induction (P := fun c => c.removes = false) rfl fun c hc clause _ =>
    (removes_add c clause).trans hc

end InventoryQuery
