import InventoryQuery.Item.Enchantment
import InventoryQuery.Proofs.Text.Letters
/-!
# Keys of enchantments

A key has no capital letters and is no former name of another enchantment.  Two tokens that differ
in the case of letters or in the blanks around them give the same key.  A key gives itself when it
is taken for a token, as long as nothing of it would be taken off: the name behind the first colon
of a token is not searched for another colon, nor are blanks in front of it dropped.
-/

namespace InventoryQuery.Enchantment

variable {name id : Text}

/-! ## The table of former names -/

/-- Neither marks nor blanks. -/
def IsWord (s : Text) : Prop := ∀ c ∈ s, c ≠ ':' ∧ isBlank c = false

instance (s : Text) : Decidable (IsWord s) :=
  List.decidableBAll (fun c => c ≠ ':' ∧ isBlank c = false) s

theorem isWord_of_mem_formerNames {entry : Text × Text} (h : entry ∈ formerNames) :
    IsWord entry.1 ∧ IsWord entry.2 := by
  have hall : ∀ entry ∈ formerNames, IsWord entry.1 ∧ IsWord entry.2 := by decide +kernel
  exact hall entry h

/-- A key is written in lower case, and is its own key where it is a former name. -/
structure IsKey (id : Text) : Prop where
  notUpper : ∀ c ∈ id, c.isUpper = false
  eq_of_former : ∀ key, formerNames.lookup (Text.upper id) = some key → id = key

theorem isKey_of_mem_formerNames {entry : Text × Text} (h : entry ∈ formerNames) :
    IsKey entry.2 := by
  have hall : ∀ entry ∈ formerNames, (entry.2.all fun c => !c.isUpper) = true ∧
      (formerNames.lookup (Text.upper entry.2)).getD entry.2 = entry.2 := by
    decide +kernel
  obtain ⟨hupper, hformer⟩ := hall entry h
  refine ⟨fun c hc => ?_, fun key hkey => ?_⟩
  · have hc' := List.all_eq_true.1 hupper c hc
    rwa [Bool.not_eq_true'] at hc'
  · rw [hkey, Option.getD_some] at hformer
    exact hformer.symm

theorem keyOf_cases (name : Text) :
    formerNames.lookup (Text.upper name) = some (keyOf name) ∨
      formerNames.lookup (Text.upper name) = none ∧ keyOf name = Text.lower name := by
  unfold keyOf
  cases formerNames.lookup (Text.upper name) with
  | some key => exact .inl rfl
  | none => exact .inr ⟨rfl, rfl⟩

theorem isKey_keyOf (name : Text) : IsKey (keyOf name) := by
  rcases keyOf_cases name with hformer | ⟨hnone, hlower⟩
  · exact isKey_of_mem_formerNames (Text.mem_of_lookup hformer)
  · rw [hlower]
    refine ⟨fun c => Text.isUpper_of_mem_lower, fun key hkey => ?_⟩
    rw [Text.upper_lower, hnone] at hkey
    cases hkey

/-- A key is the key of itself. -/
theorem IsKey.keyOf_eq (h : IsKey id) : keyOf id = id := by
  rcases keyOf_cases id with hformer | ⟨-, hlower⟩
  · exact (h.eq_of_former _ hformer).symm
  · rw [hlower, Text.lower_of_forall h.notUpper]

theorem isKey_normalize (token : Text) : IsKey (normalize token) := isKey_keyOf (bare token)

/-! ## Letter case and blanks around a token -/

theorem keyOf_lower (name : Text) : keyOf (Text.lower name) = keyOf name := by
  rw [keyOf, keyOf, Text.upper_lower, Text.lower_lower]

theorem bare_lower (token : Text) : bare (Text.lower token) = Text.lower (bare token) := by
  rw [bare, bare, Text.trim_lower, Text.cutAt_lower (by decide)]
  cases Text.cutAt ':' (Text.trim token) with
  | none => rfl
  | some parts => rfl

theorem normalize_lower (token : Text) : normalize (Text.lower token) = normalize token := by
  rw [normalize, normalize, bare_lower, keyOf_lower]

theorem normalize_of_sameLetters {token other : Text} (h : Text.sameLetters token other = true) :
    normalize other = normalize token := by
  rw [← normalize_lower other, ← normalize_lower token, beq_iff_eq.1 h]

theorem normalize_append {before after : Text} (hbefore : ∀ c ∈ before, isBlank c = true)
    (hafter : ∀ c ∈ after, isBlank c = true) (token : Text) :
    normalize (before ++ token ++ after) = normalize token := by
  rw [normalize, normalize, bare, bare, Text.trim_append hbefore hafter]

/-! ## Names from which nothing is taken off -/

/-- A name without a namespace and without blanks at its ends. -/
structure IsBare (name : Text) : Prop where
  colon_notMem : ':' ∉ name
  head_notBlank : ∀ c ∈ name.head?, isBlank c = false
  last_notBlank : ∀ c ∈ name.getLast?, isBlank c = false

theorem bare_sublist (token : Text) : (bare token).Sublist (Text.trim token) := by
  unfold bare
  cases hcut : Text.cutAt ':' (Text.trim token) with
  | none => exact List.Sublist.refl _
  | some parts =>
    obtain ⟨before, rest⟩ := parts
    rw [Text.cutAt_eq_some hcut]
    exact (List.sublist_cons_self ':' rest).trans (List.sublist_append_right before _)

theorem bare_eq_self_iff : bare name = name ↔ IsBare name := by
  constructor
  · intro h
    have htrim : Text.trim name = name := by
      apply (Text.trim_sublist name).eq_of_length_le
      calc name.length = (bare name).length := by rw [h]
        _ ≤ (Text.trim name).length := (bare_sublist name).length_le
    refine ⟨?_, ?_, ?_⟩
    · rw [← Text.cutAt_eq_none_iff]
      cases hcut : Text.cutAt ':' name with
      | none => rfl
      | some parts =>
        obtain ⟨before, rest⟩ := parts
        rw [bare, htrim, hcut] at h
        have hlength := congrArg List.length (Text.cutAt_eq_some hcut)
        rw [List.length_append, List.length_cons, show rest = name from h] at hlength
        omega
    · intro c hc
      rw [← htrim] at hc
      exact Text.isBlank_of_mem_head?_trim hc
    · intro c hc
      rw [← htrim] at hc
      exact Text.isBlank_of_mem_getLast?_trim hc
  · intro h
    rw [bare, Text.trim_of_ends h.head_notBlank h.last_notBlank,
      Text.cutAt_eq_none h.colon_notMem]

theorem last_bare_notBlank (token : Text) : ∀ c ∈ (bare token).getLast?, isBlank c = false := by
  intro c hc
  unfold bare at hc
  cases hcut : Text.cutAt ':' (Text.trim token) with
  | none =>
    rw [hcut] at hc
    exact Text.isBlank_of_mem_getLast?_trim hc
  | some parts =>
    obtain ⟨before, rest⟩ := parts
    rw [hcut] at hc
    apply Text.isBlank_of_mem_getLast?_trim (s := token)
    rw [Text.cutAt_eq_some hcut, List.getLast?_append, List.getLast?_cons, Option.mem_def.1 hc]
    rfl

theorem IsWord.isBare (h : IsWord name) : IsBare name where
  colon_notMem hmem := (h _ hmem).1 rfl
  head_notBlank c hc := (h c (List.mem_of_mem_head? hc)).2
  last_notBlank c hc := (h c (List.mem_of_mem_getLast? hc)).2

theorem isWord_of_upper (h : IsWord (Text.upper name)) : IsWord name := by
  intro c hc
  obtain ⟨hcolon, hblank⟩ := h c.toUpper (List.mem_map_of_mem hc)
  rw [ne_eq, toUpper_eq_iff (by decide)] at hcolon
  rw [isBlank_toUpper] at hblank
  exact ⟨hcolon, hblank⟩

theorem isBare_lower : IsBare (Text.lower name) ↔ IsBare name := by
  have hcolon : ':' ∈ Text.lower name ↔ ':' ∈ name := by
    simp [Text.lower, toLower_eq_iff]
  have hends : ∀ o : Option Char,
      (∀ c ∈ o.map Char.toLower, isBlank c = false) ↔ ∀ c ∈ o, isBlank c = false := by
    intro o
    cases o with
    | none => simp
    | some c => simp [isBlank_toLower]
  have hhead := hends name.head?
  have hlast := hends name.getLast?
  rw [← List.head?_map] at hhead
  rw [← List.getLast?_map] at hlast
  exact ⟨fun h => ⟨mt hcolon.2 h.colon_notMem, hhead.1 h.head_notBlank, hlast.1 h.last_notBlank⟩,
    fun h => ⟨mt hcolon.1 h.colon_notMem, hhead.2 h.head_notBlank, hlast.2 h.last_notBlank⟩⟩

theorem isBare_keyOf : IsBare (keyOf name) ↔ IsBare name := by
  rcases keyOf_cases name with hformer | ⟨-, hlower⟩
  · obtain ⟨hname, hkey⟩ := isWord_of_mem_formerNames (Text.mem_of_lookup hformer)
    exact iff_of_true hkey.isBare (isWord_of_upper hname).isBare
  · rw [hlower, isBare_lower]

/-- Where the key of what is left of a text is the text again, nothing was taken off. -/
theorem isBare_of_keyOf_bare (h : keyOf (bare id) = id) : IsBare id := by
  rcases keyOf_cases (bare id) with hformer | ⟨-, hlower⟩
  · rw [h] at hformer
    exact (isWord_of_mem_formerNames (Text.mem_of_lookup hformer)).2.isBare
  · have hlength : id.length = (bare id).length := by
      calc id.length = (keyOf (bare id)).length := by rw [h]
        _ = (bare id).length := by rw [hlower, Text.lower, List.length_map]
    have hsublist : (bare id).Sublist id := (bare_sublist id).trans (Text.trim_sublist id)
    exact bare_eq_self_iff.1 (hsublist.eq_of_length_le hlength.le)

theorem normalize_eq_self_iff (h : IsKey id) : normalize id = id ↔ IsBare id := by
  refine ⟨isBare_of_keyOf_bare, fun hbare => ?_⟩
  rw [normalize, bare_eq_self_iff.2 hbare, h.keyOf_eq]

theorem normalize_normalize_iff (token : Text) :
    normalize (normalize token) = normalize token ↔
      ':' ∉ bare token ∧ ∀ c ∈ (bare token).head?, isBlank c = false := by
  rw [normalize_eq_self_iff (isKey_normalize token), normalize, isBare_keyOf]
  constructor
  · intro h
    exact ⟨h.colon_notMem, h.head_notBlank⟩
  · rintro ⟨hcolon, hhead⟩
    exact ⟨hcolon, hhead, last_bare_notBlank token⟩

/-- The key of a token depends neither on the case of its letters nor on blanks around it.  It is
its own key exactly if the name behind the first colon has no further colon and does not begin with
a blank. -/
theorem normalize_settles (token : Text) :
    (normalize (normalize token) = normalize token ↔
        ':' ∉ bare token ∧ ∀ c ∈ (bare token).head?, isBlank c = false) ∧
      (∀ other, Text.sameLetters token other = true → normalize other = normalize token) ∧
      ∀ before after : Text, (∀ c ∈ before, isBlank c = true) → (∀ c ∈ after, isBlank c = true) →
        normalize (before ++ token ++ after) = normalize token := by
  refine ⟨normalize_normalize_iff token, ?_, ?_⟩
  · intro other hother
    exact normalize_of_sameLetters hother
  · intro before after hbefore hafter
    exact normalize_append hbefore hafter token

/-- A former name in another case, with a namespace in front and blanks around it. -/
theorem normalize_settles_luck :
    let token := "minecraft:luck".toList
    let other := "MineCraft:LucK".toList
    let before := "\t ".toList
    let after := "\n".toList
    (Text.sameLetters token other = true ∧ (∀ c ∈ before, isBlank c = true) ∧
        ∀ c ∈ after, isBlank c = true) ∧
      normalize token = "luck_of_the_sea".toList ∧
      normalize (normalize token) = normalize token ∧
      normalize other = normalize token ∧
      normalize (before ++ token ++ after) = normalize token := by
  intro token other before after
  have hother : Text.sameLetters token other = true := by decide
  have hbefore : ∀ c ∈ before, isBlank c = true := List.all_eq_true.1 (by decide)
  have hafter : ∀ c ∈ after, isBlank c = true := List.all_eq_true.1 (by decide)
  have hbare : bare token = "luck".toList := by decide
  obtain ⟨hkey, hcase, hblanks⟩ := normalize_settles token
  rw [hbare] at hkey
  refine ⟨⟨hother, hbefore, hafter⟩, by decide +kernel, hkey.2 ⟨by decide, ?_⟩, hcase other hother,
    hblanks before after hbefore hafter⟩
  rintro c hc
  obtain rfl := Option.some.inj hc
  rfl

/-- A blank between the colon and a former name stays in front of the name, which is then not
known; taken for a token again, it is. -/
theorem not_normalize_normalize :
    normalize "minecraft: DAMAGE_ALL".toList = " damage_all".toList ∧
      normalize " damage_all".toList = "sharpness".toList ∧
      ¬ ∀ token, normalize (normalize token) = normalize token := by
  have hfirst : normalize "minecraft: DAMAGE_ALL".toList = " damage_all".toList := by
    decide +kernel
  have hsecond : normalize " damage_all".toList = "sharpness".toList := by decide +kernel
  refine ⟨hfirst, hsecond, fun h => ?_⟩
  have hagain := h "minecraft: DAMAGE_ALL".toList
  rw [hfirst, hsecond] at hagain
  exact absurd hagain (by decide)

end InventoryQuery.Enchantment
