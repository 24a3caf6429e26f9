import InventoryQuery.Text.Basic
/-!
# Readers and what they leave

A reader carries a bound on the length of what it leaves, for its own recursion.  What it reads is
stated without the bound.
-/

namespace InventoryQuery.Text

variable {α : Type} {s rest : Text} {c : Char}

/-- What a reader takes off and what it leaves. -/
def outcome? (reading : Option (α × Rest s)) : Option (α × Text) :=
  reading.map fun taken => (taken.1, taken.2.1)

/-- What a reader goes on to and what it leaves. -/
def outcome (reading : α × RestOrAll s) : α × Text := (reading.1, reading.2.1)

theorem outcome?_eq_some_iff {reading : Option (α × Rest s)} {a : α} :
    outcome? reading = some (a, rest) ↔ ∃ h, reading = some (a, ⟨rest, h⟩) := by
  constructor
  · intro h
    obtain ⟨⟨b, r, hr⟩, rfl, hb⟩ := Option.map_eq_some_iff.1 h
    obtain ⟨rfl, rfl⟩ := Prod.mk.inj hb
    exact ⟨hr, rfl⟩
  · rintro ⟨h, rfl⟩
    rfl

/-- What is taken off and left by a reader that tells the place where it missed something. -/
def found? (reading : Except Text (α × Rest s)) : Option (α × Text) := outcome? reading.toOption

theorem found?_eq_some_iff {reading : Except Text (α × Rest s)} {a : α} :
    found? reading = some (a, rest) ↔ ∃ h, reading = .ok (a, ⟨rest, h⟩) := by
  rw [found?, outcome?_eq_some_iff]
  cases reading with
  | error place => simp [Except.toOption]
  | ok taken => simp [Except.toOption]

theorem afterChar?_eq_some {h : rest.length < s.length} (hs : afterChar? c s = some ⟨rest, h⟩) :
    s = c :: rest := by
  unfold afterChar? at hs
  split at hs
  · cases hs
  · split at hs
    · next hc =>
      simp only [Option.some.injEq, Subtype.mk.injEq] at hs
      rw [hc, hs]
    · cases hs

@[simp] theorem afterChar?_cons (c : Char) (s : Text) :
    afterChar? c (c :: s) = some ⟨s, Nat.lt_add_one s.length⟩ := by
  simp [afterChar?]

theorem afterChar?_eq_none (h : ∀ d ∈ s.head?, d ≠ c) : afterChar? c s = none := by
  unfold afterChar?
  split
  · rfl
  · next d s => exact if_neg (h d rfl)

/-- A run of characters of one kind ends where a text of another kind, or none, follows. -/
theorem takeWhile_append {p : Char → Bool} (hs : ∀ d ∈ s, p d = true)
    (hrest : ∀ d ∈ rest.head?, p d = false) : (s ++ rest).takeWhile p = s := by
  rw [List.takeWhile_append_of_pos hs]
  cases rest with
  | nil => simp
  | cons d rest => simp [hrest d rfl]

theorem dropWhile_append {p : Char → Bool} (hs : ∀ d ∈ s, p d = true)
    (hrest : ∀ d ∈ rest.head?, p d = false) : (s ++ rest).dropWhile p = rest := by
  rw [List.dropWhile_append_of_pos hs]
  cases rest with
  | nil => rfl
  | cons d rest => simp [hrest d rfl]

end InventoryQuery.Text
