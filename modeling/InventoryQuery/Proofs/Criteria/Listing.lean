import InventoryQuery.Criteria.Clause
import Mathlib.Data.List.Nodup
import Mathlib.Data.List.Forall2
/-!
# Clauses of criteria in any order

Criteria are made of one clause for every predicate they have.  Clauses about different things do
not get in each other's way, so their order makes no difference.
-/

namespace InventoryQuery

/-- A clause, if its flag is set. -/
def Clause.flagged (flag : Bool) (clause : Clause) : Option Clause :=
  if flag then some clause else none

namespace Criteria

/-- One clause, if there is one, for each thing that criteria can ask.  Both hands can be asked for
together or one by one. -/
def options (together : Bool) (c : Criteria) : List (Option Clause) :=
  let hands := together && c.mainHand && c.offHand
  [c.material.map .material, c.damage.map .damage, c.modelData.map .modelData,
    c.amount.map .amount, c.nameContains.map .nameContains, c.nameStarts.map .nameStarts,
    c.nameIs.map .nameIs, c.loreContains.map .loreContains, c.loreIs.map .loreIs,
    c.materialContains.map .materialContains, c.enchantments.map .enchantments,
    Clause.flagged c.enchanted .enchanted, c.potionKind.map .potionKind,
    c.potionExtended.map .potionExtended, c.potionUpgraded.map .potionUpgraded,
    c.tagTexts.map .tagTexts, c.tagInts.map .tagInts,
    Clause.flagged (c.mainHand && !hands) .mainHand, Clause.flagged (c.offHand && !hands) .offHand,
    Clause.flagged hands .bothHands, c.slot.map fun n => .slot (some n),
    Clause.flagged c.strict .strict]

/-- A clause for every predicate that criteria have. -/
def clauses (together : Bool) (c : Criteria) : List Clause := (c.options together).filterMap id

/-- The criteria with one more clause, if there is one. -/
def addOption (c : Criteria) : Option Clause → Criteria
  | none => c
  | some clause => c.add clause

theorem add_comm (c : Criteria) {x y : Clause} (h : x.ctorIdx ≠ y.ctorIdx) :
    (c.add x).add y = (c.add y).add x := by
  cases x <;> cases y <;> first | rfl | exact absurd rfl h

theorem ofClauses_filterMap (options : List (Option Clause)) :
    ofClauses (options.filterMap id) = options.foldl addOption {} := by
  rw [ofClauses, List.foldl_filterMap]
  congr 1
  funext c clause
  cases clause with
  | none => rfl
  | some clause => rfl

section

variable (c : Criteria) (rest : List (Option Clause))

theorem foldl_stackOptions (material : Option Text) (damage modelData : Option Int32)
    (amount : Option Target) :
    (material.map .material :: damage.map .damage :: modelData.map .modelData ::
        amount.map .amount :: rest).foldl addOption
        { c with material := none, damage := none, modelData := none, amount := none } =
      rest.foldl addOption { c with material, damage, modelData, amount } := by
  cases material <;> cases damage <;> cases modelData <;> cases amount <;> rfl

theorem foldl_textOptions
    (nameContains nameStarts nameIs loreContains loreIs materialContains : Option Text) :
    (nameContains.map .nameContains :: nameStarts.map .nameStarts :: nameIs.map .nameIs ::
        loreContains.map .loreContains :: loreIs.map .loreIs ::
        materialContains.map .materialContains :: rest).foldl addOption
        { c with
          nameContains := none, nameStarts := none, nameIs := none, loreContains := none,
          loreIs := none, materialContains := none } =
      rest.foldl addOption
        { c with nameContains, nameStarts, nameIs, loreContains, loreIs, materialContains } := by
  cases nameContains <;> cases nameStarts <;> cases nameIs <;> cases loreContains <;>
    cases loreIs <;> cases materialContains <;> rfl

theorem foldl_magicOptions (enchantments : Option (Dict Level)) (enchanted : Bool)
    (potionKind : Option Text) (potionExtended potionUpgraded : Option Bool) :
    (enchantments.map .enchantments :: Clause.flagged enchanted .enchanted ::
        potionKind.map .potionKind :: potionExtended.map .potionExtended ::
        potionUpgraded.map .potionUpgraded :: rest).foldl addOption
        { c with
          enchantments := none, enchanted := false, potionKind := none, potionExtended := none,
          potionUpgraded := none } =
      rest.foldl addOption
        { c with enchantments, enchanted, potionKind, potionExtended, potionUpgraded } := by
  cases enchantments <;> cases enchanted <;> cases potionKind <;> cases potionExtended <;>
    cases potionUpgraded <;> rfl

theorem foldl_tagOptions (tagTexts : Option (Dict Text)) (tagInts : Option (Dict Int32)) :
    (tagTexts.map .tagTexts :: tagInts.map .tagInts :: rest).foldl addOption
        { c with tagTexts := none, tagInts := none } =
      rest.foldl addOption { c with tagTexts, tagInts } := by
  cases tagTexts <;> cases tagInts <;> rfl

theorem foldl_placeOptions (together mainHand offHand strict : Bool) (slot : Option UInt64) :
    [Clause.flagged (mainHand && !(together && mainHand && offHand)) .mainHand,
      Clause.flagged (offHand && !(together && mainHand && offHand)) .offHand,
      Clause.flagged (together && mainHand && offHand) .bothHands,
      slot.map fun n => .slot (some n), Clause.flagged strict .strict].foldl addOption
        { c with mainHand := false, offHand := false, slot := none, strict := false } =
      { c with mainHand, offHand, slot, strict } := by
  cases together <;> cases mainHand <;> cases offHand <;> cases strict <;> cases slot <;> rfl

end

/-- Criteria that take nothing away are made of their clauses. -/
theorem ofClauses_clauses (together : Bool) {c : Criteria} (h : c.removes = false) :
    ofClauses (c.clauses together) = c := by
  -- The predicates that have been added after each group of clauses.
  let stack : Criteria :=
    { material := c.material, damage := c.damage, modelData := c.modelData, amount := c.amount }
  let texts : Criteria :=
    { stack with
      nameContains := c.nameContains, nameStarts := c.nameStarts, nameIs := c.nameIs,
      loreContains := c.loreContains, loreIs := c.loreIs, materialContains := c.materialContains }
  let magic : Criteria :=
    { texts with
      enchantments := c.enchantments, enchanted := c.enchanted, potionKind := c.potionKind,
      potionExtended := c.potionExtended, potionUpgraded := c.potionUpgraded }
  let tags : Criteria := { magic with tagTexts := c.tagTexts, tagInts := c.tagInts }
  calc ofClauses (c.clauses together)
      = (c.options together).foldl addOption {} := ofClauses_filterMap _
    _ = ((c.options together).drop 4).foldl addOption stack := foldl_stackOptions {} _ _ _ _ _
    _ = ((c.options together).drop 10).foldl addOption texts :=
        foldl_textOptions stack _ _ _ _ _ _ _
    _ = ((c.options together).drop 15).foldl addOption magic := foldl_magicOptions texts _ _ _ _ _ _
    _ = ((c.options together).drop 17).foldl addOption tags := foldl_tagOptions magic _ _ _
    _ = { c with removes := false } := foldl_placeOptions tags together _ _ _ _
    _ = c := by rw [← h]

theorem forall_mem_map {α : Type} {p : Clause → Prop} {f : α → Clause} {o : Option α}
    (h : ∀ a ∈ o, p (f a)) : ∀ x ∈ o.map f, p x := by
  intro x hx
  obtain ⟨a, ha, rfl⟩ := Option.map_eq_some_iff.1 hx
  exact h a ha

theorem forall_mem_flagged {p : Clause → Prop} {flag : Bool} {clause : Clause} (h : p clause) :
    ∀ x ∈ Clause.flagged flag clause, p x := by
  intro x hx
  cases flag with
  | false => cases hx
  | true => exact Option.some.inj hx ▸ h

theorem kinds_options (together : Bool) (c : Criteria) :
    List.Forall₂ (fun clause kind => ∀ x ∈ clause, x.ctorIdx = kind) (c.options together)
      (List.range 22) := by
  repeat' first
    | exact .nil
    | refine .cons ?_ ?_
    | exact forall_mem_flagged rfl
    | apply forall_mem_map; intro _ _; rfl

theorem map_kinds_sublist {options : List (Option Clause)} {kinds : List Nat}
    (h : List.Forall₂ (fun clause kind => ∀ x ∈ clause, x.ctorIdx = kind) options kinds) :
    ((options.filterMap id).map Clause.ctorIdx).Sublist kinds := by
  induction h with
  | nil => exact List.Sublist.refl _
  | @cons clause kind options kinds hkind _ ih =>
    cases clause with
    | none => exact ih.cons kind
    | some x =>
      rw [← hkind x rfl]
      exact ih.cons_cons x.ctorIdx

theorem nodup_kinds_clauses (together : Bool) (c : Criteria) :
    ((c.clauses together).map Clause.ctorIdx).Nodup :=
  (map_kinds_sublist (kinds_options together c)).nodup List.nodup_range

theorem ofClauses_perm {clauses others : List Clause} (hperm : clauses.Perm others)
    (hkinds : (clauses.map Clause.ctorIdx).Nodup) : ofClauses clauses = ofClauses others := by
  apply hperm.foldl_eq'
  intro x hx y hy c
  by_cases hxy : x.ctorIdx = y.ctorIdx
  · rw [List.inj_on_of_nodup_map hkinds hx hy hxy]
  · exact add_comm c hxy

end Criteria
end InventoryQuery
