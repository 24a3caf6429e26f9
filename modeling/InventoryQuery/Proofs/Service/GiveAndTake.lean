import InventoryQuery.Proofs.Criteria.Insertion
import InventoryQuery.Proofs.Criteria.Item
import InventoryQuery.Proofs.Service.AskAndTake
import InventoryQuery.Proofs.Service.Color
/-!
# Giving and taking away again

A request to give adds the item that its criteria describe, and the same request to take away takes
what matches them.  Where nothing matched before, and the item does, taking away undoes giving.
-/

namespace InventoryQuery

open Placeholder (Expander IsHosted IsPlain noExpander)
open Inventory (scattered)

namespace Service

variable {s : Service} {expand : Expander} {text : Text} {c : Criteria} {item : Stack}
  {inv given : Inventory}

theorem isPlain_giveStart : IsPlain giveStart := by decide

/-- A request to give without placeholders is answered yes where its criteria describe an item. -/
theorem answer_give (hgive : s.config.giveEnabled = true) (hexpand : IsHosted expand)
    (htext : IsPlain text) (hread : s.readCriteria expand (Color.paint text) = c)
    (hitem : c.item? s.host = some item) (now : Nat) (inv : Inventory) :
    s.answer expand now (giveStart ++ text) inv = ("yes".toList, s, give c item inv) := by
  have hresolve := s.resolve_eq_self hexpand (isPlain_giveStart.append htext)
  have hstart : Text.after? giveStart (s.resolve expand (giveStart ++ text)) = some text := by
    rw [hresolve, Text.after?_append]
  rw [answer_of_give hstart, answerGive, if_pos hgive,
    s.resolve_eq_self hexpand (Color.isPlain_paint htext), hread]
  simp only [hitem]

theorem wanted_one_ne_zero
    (hamount : c.amount = none ∨ ∃ n, c.amount = some (.exact n) ∧ n ≠ 0) : c.wanted 1 ≠ 0 := by
  rcases hamount with hall | ⟨n, hexact, hn⟩
  · rw [Criteria.wanted_of_all hall]
    decide
  · rw [Criteria.wanted_of_exact hexact]
    exact fun hzero => hn (UInt32.toNat_inj.1 hzero)

/-- Where there is room, giving adds the amount that is asked for, or a single item. -/
theorem added_give (hkeeps : s.potions.KeepsItem) (hitem : c.item? s.host = some item)
    (hinv : inv.Shaped) (hlimit : inv.limit item.material ≠ 0)
    (hroom : c.wanted 1 ≤ inv.room item) :
    inv.Added item (c.wanted 1) (give c item inv) 0 := by
  unfold give
  split
  · next target htarget =>
    have hadded := Inventory.added_distribute hinv hlimit target.amount
    have hwanted : c.wanted 1 = target.amount.toNat := by
      rw [Criteria.wanted, htarget]
    rw [hwanted] at hroom ⊢
    rwa [hadded.eq_zero_of_le_room hroom] at hadded
  · next hnone =>
    have hadded := Inventory.added_add hinv hlimit
    have hwanted : c.wanted 1 = item.amount.toNat := by
      rw [Criteria.wanted_of_all hnone, Criteria.amount_of_item? hkeeps hitem]
      rfl
    rw [hwanted] at hroom ⊢
    rwa [hadded.eq_zero_of_le_room hroom] at hadded

theorem isRefused_removing_eq_false
    (hamount : c.amount = none ∨ ∃ n, c.amount = some (.exact n) ∧ n ≠ 0) :
    c.removing.isRefused = false := by
  have hsame : c.removing.amount = c.amount := rfl
  unfold Criteria.isRefused
  rw [hsame]
  rcases hamount with hall | ⟨n, hexact, hn⟩
  · rw [hall]
  · rw [hexact]
    show (n == 0 && c.removing.removes) = false
    rw [beq_eq_false_iff_ne.2 hn, Bool.false_and]

/-- All of what was added is asked for. -/
theorem wanted_wanted_one
    (hamount : c.amount = none ∨ ∃ n, c.amount = some (.exact n) ∧ n ≠ 0) :
    c.wanted (c.wanted 1) = c.wanted 1 := by
  rcases hamount with hall | ⟨n, hexact, -⟩
  · rw [Criteria.wanted_of_all hall, Criteria.wanted_of_all hall]
  · rw [Criteria.wanted_of_exact hexact, Criteria.wanted_of_exact hexact]

/-- A request to take away what was added alone is decided with a yes, and undoes it. -/
theorem check_remove_of_addedAlone (hremove : s.config.removeEnabled = true)
    (hread : s.readCriteria expand (Color.paint text) = c)
    (hamount : c.amount = none ∨ ∃ n, c.amount = some (.exact n) ∧ n ≠ 0)
    (hadded : c.AddedAlone s.host inv item (c.wanted 1) given) (now : Nat) :
    s.check expand now (removeStart ++ text) given = (some true, s, inv) := by
  obtain ⟨decision, next, hcheck, houtcome⟩ :=
    s.check_remove expand hremove hadded.shaped_given now text
  rw [removalCriteria, hread] at houtcome
  -- What is selected and what is wanted do not depend on whether it is taken away.
  have hselect : c.removing.select s.host given =
      ⟨c.matchedSlots s.host given, .count (c.wanted 1)⟩ := by
    have hair : c.asksAir = false := by
      cases hair : c.asksAir with
      | false => rfl
      | true =>
        exact absurd (Criteria.material_eq_air_of_asksAir hair hadded.matches_item)
          hadded.material_ne_air
    rw [← hadded.amountIn_matchedSlots]
    exact Criteria.select_of_not_asksAir hair
  have hwanted : c.removing.wanted = c.wanted := rfl
  have hone := wanted_one_ne_zero hamount
  cases houtcome with
  | refused hrefused => cases (isRefused_removing_eq_false hamount).symm.trans hrefused
  | boundless htally =>
    rw [hselect] at htally
    cases htally
  | short n htally hlt =>
    rw [hselect] at htally
    obtain rfl := Tally.count.inj htally
    rw [hwanted, wanted_wanted_one hamount] at hlt
    exact absurd hlt (Nat.lt_irrefl _)
  | nothing htally =>
    rw [hselect] at htally
    exact absurd (Tally.count.inj htally) hone
  | taken n htally hpos hle next hnext =>
    rw [hselect] at htally hnext
    obtain rfl := Tally.count.inj htally
    rw [hwanted, wanted_wanted_one hamount] at hnext
    rw [hcheck, hadded.eq_of_debited hnext]

/-- Where nothing matches, and there is room for what is asked for, giving an item that matches is
answered yes, taking it away again is answered yes, and the inventory is as it was.  Putting an
effect on the item has to leave its amount alone, and reading one must not hang on that. -/
theorem answer_give_remove (hkeeps : s.potions.KeepsItem)
    (hreads : c.asksPotion = true → s.potions.IgnoresAmount) (hgive : s.config.giveEnabled = true)
    (hremove : s.config.removeEnabled = true) (hexpand : IsHosted expand) (htext : IsPlain text)
    (hread : s.readCriteria expand (Color.paint text) = c) (hsearches : c.SearchesAll)
    (hamount : c.amount = none ∨ ∃ n, c.amount = some (.exact n) ∧ n ≠ 0)
    (hitem : c.item? s.host = some item) (hmatches : c.matchesStack s.host item = true)
    (hinv : inv.Shaped)
    (hnone : ∀ stack, some stack ∈ inv.slots → c.matchesStack s.host stack = false)
    (hroom : c.wanted 1 ≤ inv.room item) (now later : Nat) :
    ∃ given, s.answer expand now (giveStart ++ text) inv = ("yes".toList, s, given) ∧
      s.check expand later (removeStart ++ text) given = (some true, s, inv) ∧
      s.answer expand later (removeStart ++ text) given = (s.config.booleanTrue, s, inv) := by
  have hone := wanted_one_ne_zero hamount
  have hlimit : inv.limit item.material ≠ 0 := Inventory.limit_ne_zero_of_room (by omega)
  have hadded := added_give hkeeps hitem hinv hlimit hroom
  have hair := Criteria.material_ne_air_of_item? hkeeps hitem
  have hcheck := check_remove_of_addedAlone hremove hread hamount
    ⟨hreads, hinv, hsearches, hmatches, hair, hnone, hadded⟩ later
  refine ⟨_, answer_give hgive hexpand htext hread hitem now inv, hcheck, ?_⟩
  have hresolve := s.resolve_eq_self hexpand (isPlain_removeStart.append htext)
  have hnotGive : Text.after? giveStart (s.resolve expand (removeStart ++ text)) = none :=
    hresolve.symm ▸ after?_giveStart_remove text
  have hnotAmount : Text.after? amountStart (s.resolve expand (removeStart ++ text)) = none :=
    hresolve.symm ▸ after?_amountStart_remove text
  rw [answer_of_check hnotGive hnotAmount, hresolve, answerCheck, hcheck]
  rfl

/-- Forty eggs of one name, of which sixteen fit into a slot, next to other things. -/
theorem answer_give_remove_eggs :
    let s := ofConfig { giveEnabled := true, removeEnabled := true }
    let text := "mat:egg,nameequals:&ATen,amt:40,strict".toList
    let c : Criteria :=
      { material := some "EGG".toList, nameIs := some "§aTen".toList, amount := some (.exact 40),
        strict := true }
    let inv := scattered.setLimit "EGG".toList 16
    s.potions.KeepsItem ∧ s.potions.IgnoresAmount ∧ IsPlain text ∧
      s.readCriteria noExpander (Color.paint text) = c ∧ inv.Shaped ∧
      ∃ given, s.answer noExpander 0 (giveStart ++ text) inv = ("yes".toList, s, given) ∧
        s.check noExpander 1 (removeStart ++ text) given = (some true, s, inv) ∧
        s.answer noExpander 1 (removeStart ++ text) given = ("yes".toList, s, inv) := by
  intro s text c inv
  have hstore : s.potions.IsBuiltIn := isBuiltIn_ofConfig _
  have hplain : IsPlain text := by decide
  have hread : s.readCriteria noExpander (Color.paint text) = c := by decide +kernel
  have hinv : inv.Shaped := Inventory.shaped_scattered.setLimit _ _
  have hother : ∀ cell ∈ inv.slots, ∀ stack ∈ cell, c.matchesStack s.host stack = false := by
    decide
  exact ⟨hstore.keepsItem, hstore.ignoresAmount, hplain, hread, hinv,
    answer_give_remove hstore.keepsItem (fun _ => hstore.ignoresAmount) rfl rfl (.inl rfl) hplain
      hread ⟨rfl, rfl, rfl⟩ (.inr ⟨40, rfl, by decide⟩) rfl (by decide) hinv
      (fun stack hstack => hother _ hstack stack rfl) (by decide) 0 1⟩

end Service

end InventoryQuery
