import InventoryQuery.Placeholder.Expansion
/-!
# Plain texts

A text without percent signs and braces has no token in it, so a host that follows a table of
tokens does not change it, however many passes it makes.
-/

namespace InventoryQuery.Placeholder

/-- No character of the text is a mark of a token. -/
def IsPlain (s : Text) : Prop := ∀ c ∈ s, c ≠ '%' ∧ c ≠ '\x7b' ∧ c ≠ '\x7d'

instance (s : Text) : Decidable (IsPlain s) :=
  List.decidableBAll (fun c => c ≠ '%' ∧ c ≠ '\x7b' ∧ c ≠ '\x7d') s

/-- The expanders that a player can bring along: the one without placeholders, and those of the
tables. -/
def IsHosted (expand : Expander) : Prop :=
  expand = noExpander ∨ ∃ table : Table, expand = table.expand

namespace IsPlain

variable {s t : Text}

theorem of_subset (hs : IsPlain s) (hsub : t ⊆ s) : IsPlain t :=
  fun c hc => hs c (hsub hc)

theorem append (hs : IsPlain s) (ht : IsPlain t) : IsPlain (s ++ t) := by
  intro c hc
  rcases List.mem_append.1 hc with hc | hc
  · exact hs c hc
  · exact ht c hc

theorem percent_notMem (hs : IsPlain s) : '%' ∉ s := fun hc => (hs _ hc).1 rfl

theorem brace_notMem (hs : IsPlain s) : '\x7b' ∉ s := fun hc => (hs _ hc).2.1 rfl

end IsPlain

theorem Marks.replace_eq_self {m : Marks} {s : Text} (value : Text → Option Text)
    (hs : m.opening ∉ s) : m.replace value s = s := by
  induction s with
  | nil => rw [Marks.replace]
  | cons c s ih =>
    have hc : ¬c = m.opening := fun hc => hs (hc ▸ List.mem_cons_self)
    have hrest : m.opening ∉ s := fun hmem => hs (List.mem_cons_of_mem _ hmem)
    rw [Marks.replace, if_neg hc, ih hrest]

theorem bracesToPercent_eq_self {s : Text} (hs : IsPlain s) : bracesToPercent s = s :=
  Marks.replace_eq_self _ hs.brace_notMem

theorem Table.expand_eq_self (table : Table) {s : Text} (hs : IsPlain s) : table.expand s = s := by
  have hbraces : Marks.braces.replace table.get? s = s :=
    Marks.replace_eq_self _ hs.brace_notMem
  rw [Table.expand, hbraces]
  exact Marks.replace_eq_self _ hs.percent_notMem

theorem IsHosted.expand_eq_self {expand : Expander} (hexpand : IsHosted expand) {s : Text}
    (hs : IsPlain s) : expand s = s := by
  rcases hexpand with rfl | ⟨table, rfl⟩
  · rfl
  · exact table.expand_eq_self hs

theorem settleWithin_eq_self {expand : Expander} {s : Text} (hs : expand s = s) (passes : Nat) :
    settleWithin expand passes s = s := by
  cases passes with
  | zero => rfl
  | succ passes => simp only [settleWithin, hs, if_true]

theorem settle_eq_self {expand : Expander} {s : Text} (hs : expand s = s) (limit : Nat) :
    settle expand limit s = s :=
  settleWithin_eq_self hs _

theorem IsHosted.settle_eq_self {expand : Expander} (hexpand : IsHosted expand) (limit : Nat)
    {s : Text} (hs : IsPlain s) : settle expand limit s = s :=
  Placeholder.settle_eq_self (hexpand.expand_eq_self hs) limit

end InventoryQuery.Placeholder
