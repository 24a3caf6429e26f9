import InventoryQuery.CommandLine
import InventoryQuery.Proofs.Inventory.Reading
import InventoryQuery.Proofs.Item.Nesting
import InventoryQuery.Proofs.Service.GiveAndTake
import InventoryQuery.Proofs.Service.Soundness
/-!
# Whether a stored inventory can be loaded

A run that stores the inventory writes what its request made of it, however deep the tags of an item
are nested that the request gave.  So the text is loaded as the same inventory, or it is not loaded
at all: then the request gave an item with a tag at a path that is too long.
-/

namespace InventoryQuery

open Inventory (IsWritable NestsWithin Sound load?)

namespace Service

variable {s : Service} {inv next : Inventory} {room : Nat}

theorem Effect.sound_isWritable (hstore : s.potions.IsBuiltIn) (heffect : s.Effect inv next)
    (h : inv.Sound IsWritable) : next.Sound IsWritable :=
  heffect.sound Inventory.isOfItem_isWritable h fun _ _ hitem =>
    have ⟨room, htags⟩ := Criteria.exists_storable_item? hstore hitem
    ⟨Criteria.material_ne_air_of_item? hstore.keepsItem hitem, room + 1, htags⟩

/-- Only a gift with a long path in it can nest tags deeper than there is room for. -/
theorem Effect.given_of_not_nestsWithin (hstore : s.potions.IsBuiltIn)
    (heffect : s.Effect inv next) (h : inv.Sound (Stack.Storable (room + 1))) (hroom : 2 ≤ room)
    (hdeep : ¬ next.NestsWithin room) :
    s.config.giveEnabled = true ∧ ∃ (c : Criteria) (item : Stack), c.item? s.host = some item ∧
      next = give c item inv ∧ ∃ entry ∈ c.tagsAsked, room < s.host.nesting entry.1 := by
  have hstorable := Inventory.isOfItem_storable (room + 1)
  cases heffect with
  | kept => exact absurd h.nestsWithin hdeep
  | taken _ c => exact absurd (c.sound_take hstorable h _).nestsWithin hdeep
  | @given henabled c item hitem =>
    refine ⟨henabled, c, item, hitem, rfl, ?_⟩
    by_contra hshort
    have hpaths : ∀ entry ∈ c.tagsAsked, s.host.nesting entry.1 ≤ room := fun entry hentry =>
      Nat.le_of_not_lt fun hlong => hshort ⟨entry, hentry, hlong⟩
    have hitem : item.Storable (room + 1) := Criteria.storable_item? hstore hitem hroom hpaths
    exact hdeep (sound_give hstorable h c hitem).nestsWithin

end Service

namespace CommandLine

/-- The settings of a run. -/
def settings (files : Text → Option Text) (o : Options) : Except Failure Config :=
  match o.config with
  | none => .ok {}
  | some path => loadFile files Config.load? path

/-- What a run with given settings and a given inventory comes to. -/
def finish (o : Options) (config : Config) (inv : Inventory) : Text × Inventory :=
  let reply := (Service.ofConfig config).answer o.placeholders.expand 0 o.args inv
  (reply.1, reply.2.2)

variable {files : Text → Option Text} {o : Options} {order : Dict.Listing UInt32}
  {answer text : Text}

theorem load?_of_loadFile {α : Type} {load? : Text → Option α} {path : Text} {a : α}
    (h : loadFile files load? path = .ok a) :
    ∃ text, files path = some text ∧ load? text = some a := by
  unfold loadFile at h
  split at h
  · cases h
  · next text hfile =>
    split at h
    · cases h
    · next b hload =>
      cases h
      exact ⟨text, hfile, hload⟩

theorem run_eq (files : Text → Option Text) (o : Options) (order : Dict.Listing UInt32) :
    run files o order = do
      let config ← settings files o
      let inv ← loadFile files load? o.inventory
      return ⟨(finish o config inv).1,
        if o.save then some ((finish o config inv).2.save order) else none⟩ := by
  unfold run settings
  cases o.config <;> rfl

theorem bind_eq_ok {ε α β : Type} {x : Except ε α} {f : α → Except ε β} {b : β}
    (h : (x >>= f) = .ok b) : ∃ a, x = .ok a ∧ f a = .ok b := by
  cases x with
  | error e => cases h
  | ok a => exact ⟨a, rfl, h⟩

/-- A run that stores an inventory without failure. -/
theorem run_eq_ok {config : Config} {inv : Inventory} (hconfig : settings files o = .ok config)
    (hinv : loadFile files load? o.inventory = .ok inv) (hsave : o.save = true)
    (order : Dict.Listing UInt32) : run files o order =
      .ok ⟨(finish o config inv).1, some ((finish o config inv).2.save order)⟩ := by
  rw [run_eq, hconfig, hinv, hsave]
  rfl

theorem saved_eq (h : run files o order = .ok ⟨answer, some text⟩) :
    ∃ config inv, settings files o = .ok config ∧ loadFile files load? o.inventory = .ok inv ∧
      text = (finish o config inv).2.save order := by
  rw [run_eq] at h
  obtain ⟨config, hconfig, h⟩ := bind_eq_ok h
  obtain ⟨inv, hinv, h⟩ := bind_eq_ok h
  refine ⟨config, inv, hconfig, hinv, ?_⟩
  have hsaved := congrArg Outcome.saved (Except.ok.inj h)
  dsimp only at hsaved
  split at hsaved
  · exact (Option.some.inj hsaved).symm
  · cases hsaved

/-- What a run stores, in whatever order the limits are there, is loaded as the inventory that its
request led to, unless this is nested too deep.  Then it is not loaded at all, and the request gave
an item with a path in its tags that is longer than what the reader has room for. -/
theorem load?_saved (h : run files o order = .ok ⟨answer, some text⟩) :
    ∃ config inv, settings files o = .ok config ∧ loadFile files load? o.inventory = .ok inv ∧
      ((finish o config inv).2.NestsWithin (Json.maxDepth - 3) →
        load? text = some (finish o config inv).2) ∧
      (¬ (finish o config inv).2.NestsWithin (Json.maxDepth - 3) →
        load? text = none ∧ config.giveEnabled = true ∧
          ∃ (c : Criteria) (item : Stack), c.item? (Service.ofConfig config).host = some item ∧
            (finish o config inv).2 = Service.give c item inv ∧
            ∃ entry ∈ c.tagsAsked,
              Json.maxDepth - 3 < (Service.ofConfig config).host.nesting entry.1) := by
  obtain ⟨config, inv, hconfig, hinv, rfl⟩ := saved_eq h
  obtain ⟨stored, -, hload⟩ := load?_of_loadFile hinv
  have hstorable := Inventory.storable_of_load? hload
  have heffect := (Service.effect_answer (Service.asksOnly_ofConfig config) o.placeholders.expand 0
    o.args inv).1
  have hstore := Service.isBuiltIn_ofConfig config
  have hwritable := heffect.sound_isWritable hstore hstorable.sound_isWritable
  refine ⟨config, inv, hconfig, hinv, fun hnests => ?_, fun hdeep => ?_⟩
  · exact Inventory.load?_save_of_nestsWithin hwritable hnests order
  · obtain ⟨henabled, hgiven⟩ :=
      heffect.given_of_not_nestsWithin hstore hstorable.sound_storable (by decide) hdeep
    exact ⟨Inventory.load?_save_eq_none hwritable hdeep order, henabled, hgiven⟩

/-! ## Sticks with nested tags -/

open Placeholder (IsPlain)

/-- A gift that is described without placeholders. -/
theorem finish_give {config : Config} {inv : Inventory} {c : Criteria} {item : Stack}
    (henabled : config.giveEnabled = true) (hargs : o.args = Service.giveStart ++ text)
    (htext : IsPlain text) (hread : Criteria.readWith id (Color.paint text) = c)
    (hitem : c.item? (Service.ofConfig config).host = some item) :
    finish o config inv = ("yes".toList, Service.give c item inv) := by
  have hreadCriteria : (Service.ofConfig config).readCriteria o.placeholders.expand
      (Color.paint text) = c :=
    (Criteria.read_eq_of_isPlain (.inr ⟨_, rfl⟩) _ (Color.isPlain_paint htext)).trans hread
  rw [finish, hargs, Service.answer_give henabled (.inr ⟨_, rfl⟩) htext hreadCriteria hitem]

/-- The path of a name inside itself. -/
def nestedPath (length : Nat) : Text := Path.ofSegments (List.replicate length "a".toList)

/-- Describes a stick with a text at a nested path. -/
def nestedText (length : Nat) : Text :=
  "mat:STICK,nbtstrings:".toList ++ nestedPath length ++ "=x".toList

def nestedCriteria (length : Nat) : Criteria where
  material := some "STICK".toList
  tagTexts := some (Dict.ofList [(nestedPath length, "x".toList)])

def nestedStick (length : Nat) : Stack where
  material := "STICK".toList
  amount := 1
  damage := 0
  metadata := some .empty
  tags := Compound.setPath [] (nestedPath length) (.text "x".toList)

/-- The inventory that the gift leads to. -/
def nestedInventory (length : Nat) : Inventory :=
  Service.give (nestedCriteria length) (nestedStick length) .empty

def givingConfig : Config := { giveEnabled := true }

/-- An empty inventory, and settings with which requests give items. -/
def givingFiles (path : Text) : Option Text :=
  if path = "inv".toList then some "\x7b\x7d".toList
  else if path = "config".toList then some "\x7b\"give_enabled\":true\x7d".toList
  else none

def givingArgs (length : Nat) : List Text :=
  ["inv".toList, Service.giveStart ++ nestedText length, "--config".toList, "config".toList,
    "--save".toList]

def givingOptions (length : Nat) : Options where
  inventory := "inv".toList
  args := Service.giveStart ++ nestedText length
  config := some "config".toList
  placeholders := ∅
  save := true

theorem settings_givingFiles (length : Nat) :
    settings givingFiles (givingOptions length) = .ok givingConfig := by
  show loadFile givingFiles Config.load? "config".toList = .ok givingConfig
  decide +kernel

theorem loadFile_givingFiles : loadFile givingFiles load? "inv".toList = .ok .empty := by
  decide +kernel

/-- What has to be checked of a length for the run to give the stick. -/
structure IsGiven (length : Nat) : Prop where
  isPlain : IsPlain (nestedText length)
  read_eq : Criteria.readWith id (Color.paint (nestedText length)) = nestedCriteria length

variable {length : Nat}

theorem IsGiven.finish_eq (h : IsGiven length) :
    finish (givingOptions length) givingConfig .empty =
      ("yes".toList, nestedInventory length) :=
  finish_give rfl rfl h.isPlain h.read_eq rfl

theorem IsGiven.run_eq (h : IsGiven length) (order : Dict.Listing UInt32) :
    run givingFiles (givingOptions length) order =
      .ok ⟨"yes".toList, some ((nestedInventory length).save order)⟩ := by
  rw [run_eq_ok (settings_givingFiles length) loadFile_givingFiles rfl, h.finish_eq]

/-- With a path of a hundred and twenty-four names, what is stored can be loaded. -/
theorem load?_saved_nested :
    run givingFiles (givingOptions 124) =
        .ok ⟨"yes".toList, some (nestedInventory 124).save⟩ ∧
      load? (nestedInventory 124).save = some (nestedInventory 124) := by
  have hgiven : IsGiven 124 := ⟨by decide +kernel, by decide +kernel⟩
  obtain ⟨config, inv, hconfig, hinv, hload, -⟩ := load?_saved (hgiven.run_eq .ascending)
  obtain rfl := Except.ok.inj ((settings_givingFiles 124).symm.trans hconfig)
  obtain rfl := Except.ok.inj (loadFile_givingFiles.symm.trans hinv)
  rw [hgiven.finish_eq] at hload
  have hnests : ∀ cell ∈ (nestedInventory 124).slots, ∀ stack ∈ cell,
      stack.tags.toJson.depth ≤ Json.maxDepth - 3 := by decide +kernel
  exact ⟨hgiven.run_eq .ascending, hload fun stack hstack => hnests _ hstack stack rfl⟩

/-- With one more name, the stored inventory is replaced by a text that cannot be loaded. -/
theorem load?_saved_eq_none :
    options? (givingArgs 125) = some (givingOptions 125) ∧ ∀ order,
      run givingFiles (givingOptions 125) order =
        .ok ⟨"yes".toList, some ((nestedInventory 125).save order)⟩ ∧
      load? ((nestedInventory 125).save order) = none := by
  have hgiven : IsGiven 125 := ⟨by decide +kernel, by decide +kernel⟩
  refine ⟨by decide +kernel, fun order => ⟨hgiven.run_eq order, ?_⟩⟩
  obtain ⟨_, -, hload⟩ := load?_of_loadFile loadFile_givingFiles
  have heffect : (Service.ofConfig givingConfig).Effect .empty (nestedInventory 125) :=
    .given rfl rfl
  have hwritable := heffect.sound_isWritable (Service.isBuiltIn_ofConfig givingConfig)
    (Inventory.storable_of_load? hload).sound_isWritable
  have hdeep : ¬(nestedInventory 125).NestsWithin (Json.maxDepth - 3) := by
    intro hnests
    have hitem : (nestedInventory 125).item? 0 = some (nestedStick 125) := by decide +kernel
    have hdepth : (nestedStick 125).tags.toJson.depth = 125 := by decide +kernel
    have hle := hnests _ (Inventory.mem_slots_of_item? hitem)
    rw [hdepth] at hle
    exact absurd hle (by decide)
  exact Inventory.load?_save_eq_none hwritable hdeep order

end CommandLine

end InventoryQuery
