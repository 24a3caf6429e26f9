import InventoryQuery.Item.Potion
import InventoryQuery.Proofs.Item.Path
import InventoryQuery.Proofs.Text.Letters
/-!
# Effects are read as they are written

A host that keeps effects in the metadata gives back every effect.  An identifier folds the kind and
the two flags into one text in lower case: it gives back an effect whose kind has no small letters,
that is not extended and upgraded at once, and whose kind does not look like a modifier where there
is none.
-/

namespace InventoryQuery

namespace Potion

/-- An identifier tells the effect from all others. -/
structure HasId (p : Potion) : Prop where
  kind_notLower : ∀ c ∈ p.kind, c.isLower = false
  not_both : ¬(p.extended = true ∧ p.upgraded = true)
  /-- Without a modifier the kind does not start like one. -/
  kind_unmarked : p.extended = false → p.upgraded = false →
    ¬"LONG_".toList <+: p.kind ∧ ¬"STRONG_".toList <+: p.kind

variable {p : Potion} {kind mark : Text}

theorem isMaterial_iff {material : Text} :
    isMaterial material = true ↔ material ∈ materials :=
  List.contains_iff_mem

/-! ## Identifiers -/

theorem after?_eq_none (h : ¬mark <+: kind) : Text.after? mark kind = none := by
  rw [Option.eq_none_iff_forall_ne_some]
  intro rest hrest
  exact h ⟨rest, (Text.after?_eq_some_iff.1 hrest).symm⟩

theorem ofId_extended (kind : Text) :
    ofId (namespaceMark ++ (extendedMark ++ kind)) = ⟨Text.upper kind, true, false⟩ := by
  simp only [ofId, Text.after?_append, Option.getD_some]

theorem ofId_upgraded (kind : Text) :
    ofId (namespaceMark ++ (upgradedMark ++ kind)) = ⟨Text.upper kind, false, true⟩ := by
  have hextended : Text.after? extendedMark (upgradedMark ++ kind) = none := rfl
  simp only [ofId, Text.after?_append, Option.getD_some, hextended]

theorem ofId_unmarked (hextended : ¬extendedMark <+: kind) (hupgraded : ¬upgradedMark <+: kind) :
    ofId (namespaceMark ++ kind) = ⟨Text.upper kind, false, false⟩ := by
  simp only [ofId, Text.after?_append, Option.getD_some, after?_eq_none hextended,
    after?_eq_none hupgraded]

theorem prefix_lower_iff (hmark : Text.lower mark = mark) (hkind : Text.upper kind = kind) :
    mark <+: Text.lower kind ↔ Text.upper mark <+: kind := by
  constructor
  · intro h
    have hupper : Text.upper mark <+: Text.upper (Text.lower kind) := h.map Char.toUpper
    rwa [Text.upper_lower, hkind] at hupper
  · intro h
    have hlower : Text.lower (Text.upper mark) <+: Text.lower kind := h.map Char.toLower
    rwa [Text.lower_upper, hmark] at hlower

theorem extendedMark_prefix_iff (hkind : Text.upper kind = kind) :
    extendedMark <+: Text.lower kind ↔ "LONG_".toList <+: kind :=
  prefix_lower_iff (by decide) hkind

theorem upgradedMark_prefix_iff (hkind : Text.upper kind = kind) :
    upgradedMark <+: Text.lower kind ↔ "STRONG_".toList <+: kind :=
  prefix_lower_iff (by decide) hkind

theorem unmarked_of_ofId {other : Text}
    (h : ofId (namespaceMark ++ kind) = ⟨other, false, false⟩) :
    ¬extendedMark <+: kind ∧ ¬upgradedMark <+: kind := by
  constructor
  · rintro ⟨rest, rfl⟩
    rw [ofId_extended] at h
    cases h
  · rintro ⟨rest, rfl⟩
    rw [ofId_upgraded] at h
    cases h

theorem ofId_unmarked_iff : ofId (namespaceMark ++ Text.lower kind) = ⟨kind, false, false⟩ ↔
    (∀ c ∈ kind, c.isLower = false) ∧ ¬"LONG_".toList <+: kind ∧ ¬"STRONG_".toList <+: kind := by
  rw [← Text.upper_eq_self_iff]
  constructor
  · intro h
    obtain ⟨hextended, hupgraded⟩ := unmarked_of_ofId h
    rw [ofId_unmarked hextended hupgraded, Text.upper_lower, mk.injEq] at h
    exact ⟨h.1, mt (extendedMark_prefix_iff h.1).2 hextended,
      mt (upgradedMark_prefix_iff h.1).2 hupgraded⟩
  · rintro ⟨hkind, hlong, hstrong⟩
    rw [ofId_unmarked (mt (extendedMark_prefix_iff hkind).1 hlong)
      (mt (upgradedMark_prefix_iff hkind).1 hstrong), Text.upper_lower, hkind]

/-- The effects that are read from their identifiers. -/
theorem ofId_id_eq_self_iff : ofId p.id = p ↔ p.HasId := by
  obtain ⟨kind, extended, upgraded⟩ := p
  have hkind : Text.upper kind = kind ↔ ∀ c ∈ kind, c.isLower = false := Text.upper_eq_self_iff
  cases extended with
  | true =>
    have hid : ofId (id ⟨kind, true, upgraded⟩) = ⟨Text.upper kind, true, false⟩ := by
      rw [id, if_pos rfl, List.append_assoc, ofId_extended, Text.upper_lower]
    rw [hid]
    cases upgraded with
    | true => exact iff_of_false (by simp) fun h => h.not_both ⟨rfl, rfl⟩
    | false =>
      rw [mk.injEq, hkind]
      exact ⟨fun h => ⟨h.1, by simp, by simp⟩, fun h => ⟨h.kind_notLower, rfl, rfl⟩⟩
  | false =>
    cases upgraded with
    | true =>
      have hid : ofId (id ⟨kind, false, true⟩) = ⟨Text.upper kind, false, true⟩ := by
        rw [id, if_neg Bool.false_ne_true, if_pos rfl, List.append_assoc, ofId_upgraded,
          Text.upper_lower]
      rw [hid, mk.injEq, hkind]
      exact ⟨fun h => ⟨h.1, by simp, by simp⟩, fun h => ⟨h.kind_notLower, rfl, rfl⟩⟩
    | false =>
      have hid : id ⟨kind, false, false⟩ = namespaceMark ++ Text.lower kind := by
        rw [id, if_neg Bool.false_ne_true, if_neg Bool.false_ne_true, List.append_nil]
      rw [hid, ofId_unmarked_iff]
      exact ⟨fun h => ⟨h.1, by simp, fun _ _ => h.2⟩,
        fun h => ⟨h.kind_notLower, h.kind_unmarked rfl rfl⟩⟩

end Potion

namespace PotionStore

open InventoryQuery.Path (Apart segments)

variable {store : PotionStore} {s : Stack} {p : Potion}

namespace IsBuiltIn

variable (hstore : store.IsBuiltIn)

include hstore

theorem isMaterial_of_write (h : (store.write s p).1 = true) :
    Potion.isMaterial s.material = true := by
  by_contra hnot
  rw [hstore.write_of_not_isMaterial hnot] at h
  cases h

/-- Both stores take an effect on the same materials. -/
theorem write_iff : (store.write s p).1 = true ↔ s.material ∈ Potion.materials := by
  rw [← Potion.isMaterial_iff]
  refine ⟨hstore.isMaterial_of_write, fun h => ?_⟩
  rcases hstore with rfl | rfl
  · rw [write_metadata h]
  · rw [write_component h]

theorem write_of_eq_false (h : (store.write s p).1 = false) : (store.write s p).2 = s := by
  have hnot : ¬Potion.isMaterial s.material = true := by
    rw [Potion.isMaterial_iff, ← hstore.write_iff (p := p), h]
    exact Bool.false_ne_true
  rw [hstore.write_of_not_isMaterial hnot]

end IsBuiltIn

theorem read?_write_metadata (h : (metadata.write s p).1 = true) :
    metadata.read? (metadata.write s p).2 = some p := by
  rw [write_metadata (isBuiltIn_metadata.isMaterial_of_write h)]
  rfl

theorem read?_write_component (h : (component.write s p).1 = true) :
    component.read? (component.write s p).2 = some (Potion.ofId p.id) := by
  have hid : (s.tags.setPath Potion.idPath (.text p.id)).pathText? Potion.idPath = some p.id :=
    Compound.pathText?_of_atPath? (Compound.atPath?_setPath_self Potion.idPath)
  rw [write_component (isBuiltIn_component.isMaterial_of_write h)]
  show Option.map Potion.ofId _ = _
  rw [hid, Option.map_some]

/-- Only tags are written for the component, and none of them away from the identifier. -/
theorem frame_write_component (s : Stack) (p : Potion) :
    (component.write s p).2 = { s with tags := (component.write s p).2.tags } ∧
      ∀ path, Apart (segments Potion.idPath) (segments path) →
        (component.write s p).2.tags.atPath? path = s.tags.atPath? path := by
  by_cases h : Potion.isMaterial s.material = true
  · rw [write_component h]
    exact ⟨rfl, fun path => Compound.atPath?_setPath_of_apart⟩
  · rw [isBuiltIn_component.write_of_not_isMaterial h]
    exact ⟨rfl, fun path _ => rfl⟩

/-- Both stores put effects on four materials only, and leave other stacks as they are.  The
metadata gives back every effect that was written, the component exactly those that their identifier
tells; for it nothing but the tags changes, and nothing of these at a path apart from the
identifier. -/
theorem read?_write (s : Stack) (p : Potion) :
    (∀ store : PotionStore, store.IsBuiltIn →
      ((store.write s p).1 = true ↔ s.material ∈
        ["POTION", "SPLASH_POTION", "LINGERING_POTION", "TIPPED_ARROW"].map String.toList) ∧
      ((store.write s p).1 = false → (store.write s p).2 = s)) ∧
    ((metadata.write s p).1 = true → metadata.read? (metadata.write s p).2 = some p) ∧
    ((component.write s p).1 = true →
      (component.read? (component.write s p).2 = some p ↔ p.HasId)) ∧
    (component.write s p).2 = { s with tags := (component.write s p).2.tags } ∧
    ∀ path, Apart (segments Potion.idPath) (segments path) →
      (component.write s p).2.tags.pathText? path = s.tags.pathText? path ∧
        (component.write s p).2.tags.pathInt? path = s.tags.pathInt? path := by
  obtain ⟨hfields, htags⟩ := frame_write_component s p
  refine ⟨fun store hstore => ⟨hstore.write_iff, hstore.write_of_eq_false⟩, read?_write_metadata, ?_, hfields, ?_⟩
  · intro h
    rw [read?_write_component h, Option.some_inj, Potion.ofId_id_eq_self_iff]
  · intro path hpath
    exact Compound.path?_congr (htags path hpath)

/-- A long effect whose kind starts like the other modifier, on arrows that have another tag beside
the identifier and an integer in its place. -/
theorem read?_write_strong_brew :
    let s : Stack := { Stack.plain "TIPPED_ARROW".toList 3 with
      tags := [("minecraft:potion_contents".toList,
        .compound [("custom_color".toList, .int 5), ("potion".toList, .int 1)])] }
    let p : Potion := ⟨"STRONG_BREW".toList, true, false⟩
    let path := "minecraft:potion_contents..custom_color".toList
    ((metadata.write s p).1 = true ∧ (component.write s p).1 = true ∧ p.HasId ∧
        Apart (segments Potion.idPath) (segments path)) ∧
      metadata.read? (metadata.write s p).2 = some p ∧
      component.read? (component.write s p).2 = some p ∧
      (component.write s p).2.tags.pathInt? path = some 5 := by
  intro s p path
  obtain ⟨hmaterial, hmetadata, hcomponent, -, hpaths⟩ := read?_write s p
  have hwritten : ∀ store : PotionStore, store.IsBuiltIn → (store.write s p).1 = true :=
    fun store hstore => (hmaterial store hstore).1.2 (by decide)
  have hmetadataWritten := hwritten metadata isBuiltIn_metadata
  have hcomponentWritten := hwritten component isBuiltIn_component
  have hid : p.HasId :=
    ⟨fun c hc => beq_iff_eq.1 (List.all_eq_true.1
      (by decide : ("STRONG_BREW".toList.all fun c => c.isLower == false) = true) c hc),
      by decide, by simp [p]⟩
  have happart : Apart (segments Potion.idPath) (segments path) := by decide
  refine ⟨⟨hmetadataWritten, hcomponentWritten, hid, happart⟩, hmetadata hmetadataWritten,
    (hcomponent hcomponentWritten).2 hid, ?_⟩
  exact (hpaths path happart).2.trans (by decide)

end PotionStore

end InventoryQuery
