import InventoryQuery.Item.Coding
import InventoryQuery.Proofs.Dict
import InventoryQuery.Proofs.Json.Document
/-!
# Values that are written are read back

Each way of writing a value is undone by the way of reading it, and gives a document in this
library's own spelling.  A record is read back from fields that are written in their order, of which
some may be left out.
-/

namespace InventoryQuery.Json

variable {α : Type}

theorem depthOfMembers_le_iff {members : List (Text × Json)} {depth : Nat} :
    depthOfMembers members ≤ depth ↔ ∀ member ∈ members, member.2.depth ≤ depth := by
  induction members with
  | nil => simp [depthOfMembers]
  | cons member members ih =>
    rw [depthOfMembers, Nat.max_le, ih, List.forall_mem_cons]

/-! ## Numbers and texts -/

theorem integerOf?_integer (n : Int) : integerOf? (Numeral.integer n) = some n := by
  cases n with
  | ofNat n =>
    have hdigits := Numeral.ofDigits?_digits n
    obtain ⟨c, s, hcons, hc⟩ := exists_digits_eq_cons n
    rw [Numeral.integer]
    rw [hcons] at hdigits ⊢
    rw [integerOf?, hdigits]
    · rfl
    · intro _ h
      rw [(List.cons.inj h).1] at hc
      cases hc
  | negSucc n => rw [Numeral.integer, integerOf?, Numeral.ofDigits?_digits]

@[simp] theorem integer?_ofInt (n : Int) : (ofInt n).integer? = some n := integerOf?_integer n

@[simp] theorem natural?_ofNat (n : Nat) : (ofNat n).natural? = some n := by
  have hinteger : (ofNat n).integer? = some (Int.ofNat n) := integerOf?_integer (Int.ofNat n)
  rw [natural?, hinteger]

@[simp] theorem int32?_ofInt (n : Int32) : int32? (ofInt n.toInt) = some n := by
  rw [int32?, integer?_ofInt, Option.bind_eq_bind, Option.bind_some, Numeral.int32?_toInt]

@[simp] theorem uint32?_ofNat (n : UInt32) : uint32? (ofNat n.toNat) = some n := by
  rw [uint32?, natural?_ofNat, Option.bind_eq_bind, Option.bind_some, Numeral.word32?_toNat]

@[simp] theorem text?_ofText (s : Text) : (ofText s).text? = some s := unspell?_spell s

theorem canonical_ofNat (n : Nat) : (ofNat n).Canonical := .number (Int.ofNat n)

theorem canonical_ofInt (n : Int) : (ofInt n).Canonical := .number n

theorem canonical_ofText (s : Text) : (ofText s).Canonical := .string s

/-! ## Options, lists and maps -/

/-- Where all are read, each one is. -/
theorem exists_of_mapM {β : Type} {decode : β → Option α} {l : List β} {out : List α}
    (h : l.mapM decode = some out) : ∀ b ∈ l, ∃ a, decode b = some a := by
  induction l generalizing out with
  | nil => exact fun _ hb => nomatch hb
  | cons b l ih =>
    simp only [List.mapM_cons, Option.bind_eq_bind, Option.bind_eq_some_iff] at h
    obtain ⟨a, ha, rest, hrest, -⟩ := h
    exact List.forall_mem_cons.2 ⟨⟨a, ha⟩, ih hrest⟩

theorem mapM_map_eq_some {β : Type} {encode : α → β} {decode : β → Option α} {l : List α}
    (h : ∀ a ∈ l, decode (encode a) = some a) : (l.map encode).mapM decode = some l := by
  induction l with
  | nil => rfl
  | cons a l ih =>
    obtain ⟨ha, hl⟩ := List.forall_mem_cons.1 h
    rw [List.map_cons, List.mapM_cons, ha, ih hl]
    rfl

section

variable {encode : α → Json} {decode : Json → Option α}

theorem nullable?_ofOption (hdecode : ∀ a, decode (encode a) = some a)
    (hnull : ∀ a, encode a ≠ .null) (o : Option α) :
    nullable? decode (ofOption encode o) = some o := by
  cases o with
  | none => rfl
  | some a => rw [ofOption, nullable?, hdecode a, Option.map_some]; exact hnull a

theorem list?_array (hdecode : ∀ a, decode (encode a) = some a) (l : List α) :
    list? decode (.array (l.map encode)) = some l :=
  mapM_map_eq_some fun a _ => hdecode a

/-- A map is read back from its entries, in whatever order they are written. -/
theorem dict?_ofEntries (hdecode : ∀ a, decode (encode a) = some a) {entries : List (Text × α)}
    {m : Dict α} (h : entries.Perm m.entries) : dict? decode (ofEntries encode entries) = some m := by
  rw [ofEntries, dict?, mapM_map_eq_some, Option.map_some, Dict.ofList_of_perm h]
  rintro ⟨key, a⟩ -
  simp [hdecode]

theorem dict?_ofDict (hdecode : ∀ a, decode (encode a) = some a) (m : Dict α) :
    dict? decode (ofDict encode m) = some m :=
  dict?_ofEntries hdecode (.refl _)

theorem canonical_ofOption (hencode : ∀ a, (encode a).Canonical) (o : Option α) :
    (ofOption encode o).Canonical := by
  cases o with
  | none => exact .null
  | some a => exact hencode a

theorem canonical_array (hencode : ∀ a, (encode a).Canonical) (l : List α) :
    (array (l.map encode)).Canonical := by
  refine .array _ fun item hitem => ?_
  obtain ⟨a, -, rfl⟩ := List.mem_map.1 hitem
  exact hencode a

theorem canonical_ofEntries (hencode : ∀ a, (encode a).Canonical) (entries : List (Text × α)) :
    (ofEntries encode entries).Canonical := by
  refine .object _ (fun member hmember => ?_) fun member hmember => ?_
  all_goals obtain ⟨entry, -, rfl⟩ := List.mem_map.1 hmember
  · exact ⟨entry.1, rfl⟩
  · exact hencode entry.2

theorem canonical_ofDict (hencode : ∀ a, (encode a).Canonical) (m : Dict α) :
    (ofDict encode m).Canonical :=
  canonical_ofEntries hencode m.entries

end

/-! ## Records -/

/-- Names of fields: each stands once, and is its own spelling. -/
def AreFieldNames (names : List Text) : Prop :=
  names.Nodup ∧ ∀ name ∈ names, spell name = name

instance (names : List Text) : Decidable (AreFieldNames names) :=
  inferInstanceAs (Decidable (_ ∧ _))

section

variable {names : List Text} {members : List (Text × Json)}

theorem fieldsOf?_eq_self (hraw : ∀ member ∈ members, spell member.1 = member.1)
    (hmem : ∀ member ∈ members, member.1 ∈ names) (hnodup : (members.map Prod.fst).Nodup) :
    fieldsOf? names members = some members := by
  induction members with
  | nil => rfl
  | cons member members ih =>
    obtain ⟨key, value⟩ := member
    obtain ⟨hkeyRaw, hraw⟩ := List.forall_mem_cons.1 hraw
    obtain ⟨hkeyMem, hmem⟩ := List.forall_mem_cons.1 hmem
    obtain ⟨hkey, hnodup⟩ := List.nodup_cons.1 hnodup
    have hunspell : unspell? key = some key := by
      have hspell := unspell?_spell key
      rwa [hkeyRaw] at hspell
    have hnone : Entries.get? key members = none :=
      Entries.get?_eq_none fun member hmember heq =>
        hkey (List.mem_map.2 ⟨member, hmember, heq.symm⟩)
    rw [fieldsOf?, hunspell, ih hraw hmem hnodup]
    simp [hkeyMem, hnone]

/-- Fields that are written in their order are the given fields. -/
theorem record?_object (hnames : AreFieldNames names)
    (hmembers : (members.map Prod.fst).Sublist names) :
    record? names (.object members) = some members := by
  have hmem : ∀ member ∈ members, member.1 ∈ names := fun member hmember =>
    hmembers.subset (List.mem_map_of_mem hmember)
  exact fieldsOf?_eq_self (fun member hmember => hnames.2 _ (hmem member hmember)) hmem
    (hmembers.nodup hnames.1)

theorem canonical_record (hnames : AreFieldNames names)
    (hmembers : (members.map Prod.fst).Sublist names)
    (hvalues : ∀ member ∈ members, Canonical member.2) : (object members).Canonical := by
  refine .object members (fun member hmember => ⟨member.1, ?_⟩) hvalues
  exact (hnames.2 _ (hmembers.subset (List.mem_map_of_mem hmember))).symm

variable {fields : List (Text × Json)} {name : Text} {j : Json}

theorem field?_of_get? (h : Entries.get? name fields = some j) (missing : α)
    (decode : Json → Option α) : field? fields name missing decode = decode j := by
  rw [field?, h]

theorem required?_of_get? (h : Entries.get? name fields = some j) (decode : Json → Option α) :
    required? fields name decode = decode j := by
  rw [required?, h]
  rfl

end

end InventoryQuery.Json
