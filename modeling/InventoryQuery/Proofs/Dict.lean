import InventoryQuery.Dict
/-!
# Maps and the lists they are made of

Entries written one after another in the order of their keys are kept as they are, so a map is made
of its own entries; and what is found under a key is the entry with that key.
-/

namespace InventoryQuery

variable {α β : Type}

namespace Entries

theorem insert_of_forall_lt {key : Text} {value : α} {entries : List (Text × α)}
    (h : ∀ entry ∈ entries, entry.1 < key) :
    insert key value entries = entries ++ [(key, value)] := by
  induction entries with
  | nil => rfl
  | cons head entries ih =>
    obtain ⟨k, old⟩ := head
    obtain ⟨hk, hrest⟩ := List.forall_mem_cons.1 h
    have hne : key ≠ k := fun heq => List.lt_irrefl k (heq ▸ hk)
    rw [insert, if_neg (fun hlt => List.lt_irrefl k (List.lt_trans hk hlt)), if_neg hne, ih hrest,
      List.cons_append]

/-- Of two values written under one key, the later one counts. -/
theorem insert_insert (key : Text) (first second : α) (entries : List (Text × α)) :
    insert key second (insert key first entries) = insert key second entries := by
  induction entries with
  | nil => simp only [insert, List.lt_irrefl, if_false, if_true]
  | cons head entries ih =>
    obtain ⟨k, old⟩ := head
    by_cases hlt : key < k
    · simp only [insert, if_pos hlt, List.lt_irrefl, if_false, if_true]
    · by_cases heq : key = k
      · subst heq
        simp only [insert, if_neg hlt, if_true]
      · simp only [insert, if_neg hlt, if_neg heq, ih]

theorem foldl_insert_of_ascending {entries before : List (Text × α)}
    (h : Ascending (before ++ entries)) :
    entries.foldl (fun acc entry => insert entry.1 entry.2 acc) before = before ++ entries := by
  induction entries generalizing before with
  | nil => rw [List.foldl_nil, List.append_nil]
  | cons entry entries ih =>
    have hlt : ∀ other ∈ before, other.1 < entry.1 := fun other hother =>
      (List.pairwise_append.1 h).2.2 other hother entry List.mem_cons_self
    rw [List.append_cons] at h
    rw [List.foldl_cons, insert_of_forall_lt hlt, ih h, ← List.append_cons]

/-- Entries in order are what they describe. -/
theorem ofList_of_ascending {entries : List (Text × α)} (h : Ascending entries) :
    ofList entries = entries := by
  have hall : Ascending ([] ++ entries) := h
  rw [ofList, foldl_insert_of_ascending hall, List.nil_append]

theorem ascending_foldl_insert (entries : List (Text × α)) {before : List (Text × α)}
    (h : Ascending before) :
    Ascending (entries.foldl (fun acc entry => insert entry.1 entry.2 acc) before) := by
  induction entries generalizing before with
  | nil => exact h
  | cons entry entries ih => exact ih (ascending_insert entry.1 entry.2 h)

theorem ascending_ofList (entries : List (Text × α)) : Ascending (ofList entries) :=
  ascending_foldl_insert entries List.Pairwise.nil

theorem mem_foldl_insert {entry : Text × α} {entries before : List (Text × α)}
    (h : entry ∈ entries.foldl (fun acc entry => insert entry.1 entry.2 acc) before) :
    entry ∈ before ∨ entry ∈ entries := by
  induction entries generalizing before with
  | nil => exact .inl h
  | cons head entries ih =>
    rcases ih h with h | h
    · rcases mem_insert h with rfl | h
      · exact .inr List.mem_cons_self
      · exact .inl h
    · exact .inr (List.mem_cons_of_mem _ h)

theorem mem_of_mem_ofList {entry : Text × α} {entries : List (Text × α)}
    (h : entry ∈ ofList entries) : entry ∈ entries := by
  rcases mem_foldl_insert h with h | h
  · cases h
  · exact h

theorem perm_insert {key : Text} {value : α} {entries : List (Text × α)}
    (h : key ∉ entries.map Prod.fst) :
    (insert key value entries).Perm ((key, value) :: entries) := by
  induction entries with
  | nil => exact List.Perm.refl _
  | cons head entries ih =>
    obtain ⟨k, old⟩ := head
    obtain ⟨hk, hrest⟩ := not_or.1 (mt List.mem_cons.2 h)
    by_cases hlt : key < k
    · rw [insert, if_pos hlt]
    · rw [insert, if_neg hlt, if_neg hk]
      exact ((ih hrest).cons (k, old)).trans (List.Perm.swap _ _ _)

theorem perm_foldl_insert {entries before : List (Text × α)}
    (h : ((entries ++ before).map Prod.fst).Nodup) :
    (entries.foldl (fun acc entry => insert entry.1 entry.2 acc) before).Perm
      (entries ++ before) := by
  induction entries generalizing before with
  | nil => exact List.Perm.refl _
  | cons entry entries ih =>
    have hentry : entry.1 ∉ (entries ++ before).map Prod.fst := (List.nodup_cons.1 h).1
    rw [List.map_append, List.mem_append] at hentry
    have hinsert : (insert entry.1 entry.2 before).Perm (entry :: before) :=
      perm_insert fun hbefore => hentry (.inr hbefore)
    have hmove : (entries ++ insert entry.1 entry.2 before).Perm (entry :: (entries ++ before)) :=
      (hinsert.append_left entries).trans List.perm_middle
    exact (ih ((hmove.map Prod.fst).nodup_iff.2 h)).trans hmove

theorem nodup_keys {entries : List (Text × α)} (h : Ascending entries) :
    (entries.map Prod.fst).Nodup := by
  rw [List.Nodup, List.pairwise_map]
  apply List.Pairwise.imp _ h
  intro a b hlt heq
  rw [heq] at hlt
  exact List.lt_irrefl b.1 hlt

theorem ofList_of_perm {entries sorted : List (Text × α)} (hsorted : Ascending sorted)
    (h : entries.Perm sorted) : ofList entries = sorted := by
  have hkeys : ((entries ++ []).map Prod.fst).Nodup := by
    rw [List.append_nil, (h.map Prod.fst).nodup_iff]
    exact nodup_keys hsorted
  have hperm : (ofList entries).Perm sorted := by
    have hentries := perm_foldl_insert hkeys
    rw [List.append_nil] at hentries
    exact hentries.trans h
  exact hperm.eq_of_pairwise
    (fun a b _ _ hab hba => absurd (List.lt_trans hab hba) (List.lt_irrefl _))
    (ascending_ofList entries) hsorted

theorem get?_eq_none {key : Text} {entries : List (Text × α)}
    (h : ∀ entry ∈ entries, key ≠ entry.1) : get? key entries = none := by
  induction entries with
  | nil => rfl
  | cons head entries ih =>
    obtain ⟨hhead, hrest⟩ := List.forall_mem_cons.1 h
    rw [get?, if_neg hhead, ih hrest]

theorem get?_of_mem {key : Text} {value : α} {entries : List (Text × α)}
    (hascending : Ascending entries) (h : (key, value) ∈ entries) :
    get? key entries = some value := by
  induction entries with
  | nil => cases h
  | cons head entries ih =>
    obtain ⟨k, old⟩ := head
    obtain ⟨hk, hrest⟩ := List.pairwise_cons.1 hascending
    rcases List.mem_cons.1 h with h | h
    · obtain ⟨rfl, rfl⟩ := Prod.mk.inj h
      exact if_pos rfl
    · have hne : key ≠ k := fun heq => List.lt_irrefl k (heq ▸ hk _ h)
      rw [get?, if_neg hne, ih hrest h]

theorem mem_of_get? {key : Text} {value : α} {entries : List (Text × α)}
    (h : get? key entries = some value) : (key, value) ∈ entries := by
  induction entries with
  | nil => cases h
  | cons head entries ih =>
    obtain ⟨k, old⟩ := head
    unfold get? at h
    split at h
    · next hkey =>
      rw [hkey, ← Option.some.inj h]
      exact List.mem_cons_self
    · exact List.mem_cons_of_mem _ (ih h)

theorem get?_map (f : α → β) (key : Text) (entries : List (Text × α)) :
    get? key (entries.map fun entry => (entry.1, f entry.2)) = (get? key entries).map f := by
  induction entries with
  | nil => rfl
  | cons head entries ih =>
    obtain ⟨k, old⟩ := head
    simp only [List.map_cons, get?]
    split
    · rfl
    · exact ih

end Entries

namespace Dict

theorem entries_foldl_insert (entries : List (Text × α)) (m : Dict α) :
    (entries.foldl (fun m entry => m.insert entry.1 entry.2) m).entries =
      entries.foldl (fun acc entry => Entries.insert entry.1 entry.2 acc) m.entries := by
  induction entries generalizing m with
  | nil => rfl
  | cons entry entries ih => exact ih (m.insert entry.1 entry.2)

theorem entries_ofList (entries : List (Text × α)) :
    (ofList entries).entries = Entries.ofList entries :=
  entries_foldl_insert entries ∅

/-- A map is made of its entries. -/
@[simp] theorem ofList_entries (m : Dict α) : ofList m.entries = m := by
  ext1
  rw [entries_ofList, Entries.ofList_of_ascending m.ascending]

/-- The order in which the entries of a map are written makes no difference. -/
theorem ofList_of_perm {entries : List (Text × α)} {m : Dict α} (h : entries.Perm m.entries) :
    ofList entries = m := by
  ext1
  rw [entries_ofList, Entries.ofList_of_perm m.ascending h]

/-- The entries of a map, written one after another with other values. -/
theorem foldl_insert_map (f : α → β) (m : Dict α) :
    m.entries.foldl (fun n entry => n.insert entry.1 (f entry.2)) ∅ = m.map f := by
  have hmap := ofList_entries (m.map f)
  rwa [ofList, map, List.foldl_map] at hmap

theorem map_eq_self {f : α → α} {m : Dict α} (h : ∀ entry ∈ m.entries, f entry.2 = entry.2) :
    m.map f = m := by
  ext1
  calc (m.map f).entries = m.entries.map id :=
        List.map_congr_left fun entry hentry => by rw [h entry hentry, id_eq]
    _ = m.entries := List.map_id m.entries

theorem get?_of_mem {m : Dict α} {key : Text} {value : α} (h : (key, value) ∈ m.entries) :
    m.get? key = some value :=
  Entries.get?_of_mem m.ascending h

theorem mem_of_get? {m : Dict α} {key : Text} {value : α} (h : m.get? key = some value) :
    (key, value) ∈ m.entries :=
  Entries.mem_of_get? h

theorem get?_map (f : α → β) (m : Dict α) (key : Text) : (m.map f).get? key = (m.get? key).map f :=
  Entries.get?_map f key m.entries

end Dict

end InventoryQuery
