import BlockFlow.Proofs.Disk
import BlockFlow.Proofs.Json.Record
import BlockFlow.Soak.Storage

/-!
# Settings that are stored and loaded

Settings are stored wherever a text can be, and those whose sizes fit a machine word are loaded as
they were stored. If entries are removed from their text, at the top or within the settings of a
part, just these settings have their defaults. Settings are loaded from nothing but a well-typed
value: one entry of the wrong type or out of range and all settings are the defaults
(`loads_stored`).

For each of the three records `ofJson?_without` reads what was written, without some of the names,
and `wellTyped_of_ofJson?` says what can be read at all.
-/

set_option autoImplicit false

namespace BlockFlow

open Json

/-! ## The ratio -/

theorem Json.written_ofFloat (x : Float) : (Json.ofFloat x).Written := by
  unfold Json.ofFloat
  split
  · rename_i n hn
    exact .number (NumberStyle.wellFormed_of_ofFloat? hn)
  · exact .null

theorem Json.without_ofFloat (removed : List String) (x : Float) :
    (Json.ofFloat x).without removed = .ofFloat x := by
  unfold Json.ofFloat
  split <;> rfl

/-! ## The sizes of the double buffer -/

namespace DoubleBufferConfig

variable {c : DoubleBufferConfig}

/-- Every size fits a machine word. -/
structure Fits (c : DoubleBufferConfig) : Prop where
  outerSize : c.outerSize < wordBound
  innerSize : c.innerSize < wordBound
  delay : c.delay < wordBound
  inputChannels : c.inputChannels < wordBound
  outputChannels : c.outputChannels < wordBound

/-- The sizes with the defaults in place of those of these names. -/
def withDefaults (removed : List String) (c : DoubleBufferConfig) : DoubleBufferConfig :=
  let default : DoubleBufferConfig := {}
  { outerSize := if "outerSize" ∈ removed then default.outerSize else c.outerSize
    innerSize := if "innerSize" ∈ removed then default.innerSize else c.innerSize
    delay := if "delay" ∈ removed then default.delay else c.delay
    inputChannels := if "inputChannels" ∈ removed then default.inputChannels else c.inputChannels
    outputChannels :=
      if "outputChannels" ∈ removed then default.outputChannels else c.outputChannels }

/-- The sizes are natural numbers that fit a word. -/
def schema : Schema := fieldNames.map fun name => (name, IsNat wordBound)

theorem members_members (c : DoubleBufferConfig) : Members c.members := by
  have hnames : c.members.map Prod.fst = fieldNames := rfl
  exact .of_names hnames (by decide) (by decide)

theorem written_toJson (c : DoubleBufferConfig) : c.toJson.Written := by
  refine written_record c.members_members ?_
  simp only [members, List.forall_mem_cons]
  exact ⟨written_ofNat _, written_ofNat _, written_ofNat _, written_ofNat _, written_ofNat _,
    List.forall_mem_nil _⟩

theorem ofJson?_without (h : c.Fits) (removed : List String) :
    ofJson? (c.toJson.without removed) = some (c.withDefaults removed) := by
  rw [toJson, ofJson?, fields?_without c.members_members]
  simp only [fieldNames, List.map_cons, List.map_nil, Option.bind_eq_bind, Option.bind_some]
  rw [orDefault_size c.members "outerSize" rfl h.outerSize, Option.bind_some,
    orDefault_size c.members "innerSize" rfl h.innerSize, Option.bind_some,
    orDefault_size c.members "delay" rfl h.delay, Option.bind_some,
    orDefault_size c.members "inputChannels" rfl h.inputChannels, Option.bind_some,
    orDefault_size c.members "outputChannels" rfl h.outputChannels, Option.bind_some]
  rfl

/-- Sizes are read from nothing but a well-typed value. -/
theorem wellTyped_of_ofJson? {v : Json} (h : ofJson? v = some c) : v.WellTyped schema := by
  obtain ⟨fs, hfs, h⟩ := Option.bind_eq_some_iff.1 h
  split at h
  · obtain ⟨_, houter, h⟩ := Option.bind_eq_some_iff.1 h
    obtain ⟨_, hinner, h⟩ := Option.bind_eq_some_iff.1 h
    obtain ⟨_, hdelay, h⟩ := Option.bind_eq_some_iff.1 h
    obtain ⟨_, hinput, h⟩ := Option.bind_eq_some_iff.1 h
    obtain ⟨_, houtput, h⟩ := Option.bind_eq_some_iff.1 h
    exact wellTyped_of_fields? hfs (.cons (isNat_of_size houter) (.cons (isNat_of_size hinner)
      (.cons (isNat_of_size hdelay) (.cons (isNat_of_size hinput)
      (.cons (isNat_of_size houtput) .nil)))))
  · exact nomatch h

end DoubleBufferConfig

/-! ## The settings of the drifting ring -/

namespace DriftConfig

variable {c : DriftConfig}

/-- Every size fits a machine word. The limits are words of their own. -/
structure Fits (c : DriftConfig) : Prop where
  minFillCount : c.minFillCount < wordBound
  desiredFillCount : c.desiredFillCount < wordBound
  maxFillCount : c.maxFillCount < wordBound

/-- The settings with the defaults in place of those of these names. -/
def withDefaults (removed : List String) (c : DriftConfig) : DriftConfig :=
  let default : DriftConfig := {}
  { minFillCount := if "minFillCount" ∈ removed then default.minFillCount else c.minFillCount
    desiredFillCount :=
      if "desiredFillCount" ∈ removed then default.desiredFillCount else c.desiredFillCount
    maxFillCount := if "maxFillCount" ∈ removed then default.maxFillCount else c.maxFillCount
    maxWriterXruns :=
      if "maxWriterXrunsInSuccession" ∈ removed then default.maxWriterXruns else c.maxWriterXruns
    maxReaderXruns :=
      if "maxReaderXrunsInSuccession" ∈ removed then default.maxReaderXruns
      else c.maxReaderXruns }

/-- The sizes fit a 64-bit word and the limits a 32-bit word. -/
def schema : Schema :=
  [("minFillCount", IsNat wordBound), ("desiredFillCount", IsNat wordBound),
    ("maxFillCount", IsNat wordBound), ("maxWriterXrunsInSuccession", IsNat UInt32.size),
    ("maxReaderXrunsInSuccession", IsNat UInt32.size)]

theorem members_members (c : DriftConfig) : Members c.members := by
  have hnames : c.members.map Prod.fst = fieldNames := rfl
  exact .of_names hnames (by decide) (by decide)

theorem written_toJson (c : DriftConfig) : c.toJson.Written := by
  refine written_record c.members_members ?_
  simp only [members, List.forall_mem_cons]
  exact ⟨written_ofNat _, written_ofNat _, written_ofNat _, written_ofNat _, written_ofNat _,
    List.forall_mem_nil _⟩

theorem ofJson?_without (h : c.Fits) (removed : List String) :
    ofJson? (c.toJson.without removed) = some (c.withDefaults removed) := by
  rw [toJson, ofJson?, fields?_without c.members_members]
  simp only [fieldNames, List.map_cons, List.map_nil, Option.bind_eq_bind, Option.bind_some]
  rw [orDefault_size c.members "minFillCount" rfl h.minFillCount, Option.bind_some,
    orDefault_size c.members "desiredFillCount" rfl h.desiredFillCount, Option.bind_some,
    orDefault_size c.members "maxFillCount" rfl h.maxFillCount, Option.bind_some,
    orDefault_limit c.members "maxWriterXrunsInSuccession" rfl, Option.bind_some,
    orDefault_limit c.members "maxReaderXrunsInSuccession" rfl, Option.bind_some]
  rfl

/-- Settings are read from nothing but a well-typed value. -/
theorem wellTyped_of_ofJson? {v : Json} (h : ofJson? v = some c) : v.WellTyped schema := by
  obtain ⟨fs, hfs, h⟩ := Option.bind_eq_some_iff.1 h
  split at h
  · obtain ⟨_, hmin, h⟩ := Option.bind_eq_some_iff.1 h
    obtain ⟨_, hdesired, h⟩ := Option.bind_eq_some_iff.1 h
    obtain ⟨_, hmax, h⟩ := Option.bind_eq_some_iff.1 h
    obtain ⟨_, hwriter, h⟩ := Option.bind_eq_some_iff.1 h
    obtain ⟨_, hreader, h⟩ := Option.bind_eq_some_iff.1 h
    exact wellTyped_of_fields? hfs (.cons (isNat_of_size hmin) (.cons (isNat_of_size hdesired)
      (.cons (isNat_of_size hmax) (.cons (isNat_of_limit hwriter)
      (.cons (isNat_of_limit hreader) .nil)))))
  · exact nomatch h

end DriftConfig

/-! ## The settings of a run -/

namespace SoakConfig

variable {c : SoakConfig}

/-- Every size fits a machine word, those of the parts included. -/
structure Fits (c : SoakConfig) : Prop where
  doubleBuffer : c.doubleBuffer.Fits
  drift : c.drift.Fits
  blocks : c.blocks < wordBound
  configInterval : c.configInterval < wordBound
  statsCapacity : c.statsCapacity < wordBound

/-- The settings with the defaults in place of those of these names. -/
def withDefaults (removed : List String) (c : SoakConfig) : SoakConfig :=
  let default : SoakConfig := {}
  { doubleBuffer :=
      if "doubleBuffer" ∈ removed then default.doubleBuffer
      else c.doubleBuffer.withDefaults removed
    drift := if "drift" ∈ removed then default.drift else c.drift.withDefaults removed
    blocks := if "blocks" ∈ removed then default.blocks else c.blocks
    producerRateRatio :=
      if "producerRateRatio" ∈ removed then default.producerRateRatio else c.producerRateRatio
    configInterval :=
      if "configIntervalBlocks" ∈ removed then default.configInterval else c.configInterval
    statsCapacity :=
      if "statsChannelCapacity" ∈ removed then default.statsCapacity else c.statsCapacity }

/-- The settings of the parts are records themselves, the ratio is a number, and the others are
natural numbers that fit a word. -/
def schema : Schema :=
  [("doubleBuffer", WellTyped DoubleBufferConfig.schema), ("drift", WellTyped DriftConfig.schema),
    ("blocks", IsNat wordBound), ("producerRateRatio", IsFloat),
    ("configIntervalBlocks", IsNat wordBound), ("statsChannelCapacity", IsNat wordBound)]

theorem members_members (c : SoakConfig) : Members c.members := by
  have hnames : c.members.map Prod.fst = fieldNames := rfl
  exact .of_names hnames (by decide) (by decide)

theorem ofJson?_without (h : c.Fits)
    (hratio : (Json.ofFloat c.producerRateRatio).toFloat? = some c.producerRateRatio)
    (removed : List String) :
    ofJson? (c.toJson.without removed) = some (c.withDefaults removed) := by
  rw [toJson, ofJson?, fields?_without c.members_members]
  simp only [fieldNames, List.map_cons, List.map_nil, Option.bind_eq_bind, Option.bind_some]
  rw [orDefault_without c.members "doubleBuffer" rfl
      (DoubleBufferConfig.ofJson?_without h.doubleBuffer removed), Option.bind_some,
    orDefault_without c.members "drift" rfl (DriftConfig.ofJson?_without h.drift removed),
    Option.bind_some,
    orDefault_size c.members "blocks" rfl h.blocks, Option.bind_some,
    orDefault_without c.members "producerRateRatio" rfl ((without_ofFloat _ _).symm ▸ hratio),
    Option.bind_some,
    orDefault_size c.members "configIntervalBlocks" rfl h.configInterval, Option.bind_some,
    orDefault_size c.members "statsChannelCapacity" rfl h.statsCapacity, Option.bind_some]
  rfl

-- no two entries of the text have the same name, so that each can be removed alone
example : (fieldNames ++ DoubleBufferConfig.fieldNames ++ DriftConfig.fieldNames).Nodup := by
  decide

/-- Settings are read from nothing but a well-typed value. -/
theorem wellTyped_of_ofJson? {v : Json} (h : ofJson? v = some c) : v.WellTyped schema := by
  obtain ⟨fs, hfs, h⟩ := Option.bind_eq_some_iff.1 h
  split at h
  · obtain ⟨_, hdouble, h⟩ := Option.bind_eq_some_iff.1 h
    obtain ⟨_, hdrift, h⟩ := Option.bind_eq_some_iff.1 h
    obtain ⟨_, hblocks, h⟩ := Option.bind_eq_some_iff.1 h
    obtain ⟨_, hratio, h⟩ := Option.bind_eq_some_iff.1 h
    obtain ⟨_, hinterval, h⟩ := Option.bind_eq_some_iff.1 h
    obtain ⟨_, hcapacity, h⟩ := Option.bind_eq_some_iff.1 h
    exact wellTyped_of_fields? hfs
      (.cons (takes_of_orDefault DoubleBufferConfig.wellTyped_of_ofJson? hdouble)
      (.cons (takes_of_orDefault DriftConfig.wellTyped_of_ofJson? hdrift)
      (.cons (isNat_of_size hblocks) (.cons (takes_of_orDefault isFloat_of_toFloat? hratio)
      (.cons (isNat_of_size hinterval) (.cons (isNat_of_size hcapacity) .nil))))))
  · exact nomatch h

theorem written_toJson (c : SoakConfig) : c.toJson.Written := by
  refine written_record c.members_members ?_
  simp only [members, List.forall_mem_cons]
  exact ⟨c.doubleBuffer.written_toJson, c.drift.written_toJson, written_ofNat _,
    written_ofFloat _, written_ofNat _, written_ofNat _, List.forall_mem_nil _⟩

/-- A file that holds the text is loaded as these settings, which leaves the file as it is. -/
def LoadsAs (text : String) (c : SoakConfig) : Prop :=
  ∀ (s : Session) (path : String), s.disk.read? s.folder path = some text.toUTF8 →
    (load path : StateM Session SoakConfig) s = (c, s)

theorem loadsAs_ofText? (text : String) : LoadsAs text ((ofText? text).getD {}) := by
  intro s path hread
  have htext : String.fromUTF8? text.toUTF8 = some text := dif_pos text.isValidUTF8
  show (ofFile (s.disk.read? s.folder path), s) = _
  rw [hread, ofFile, Option.bind_some, htext]
  rfl

theorem loadsAs_of_tokens (h : c.Fits)
    (hratio : (Json.ofFloat c.producerRateRatio).toFloat? = some c.producerRateRatio)
    {removed : List String} {text : String}
    (htext : Token.scan text.toList = Token.scan (c.toJson.without removed).pretty.toList) :
    LoadsAs text (c.withDefaults removed) := by
  have hwritten : (c.toJson.without removed).Written := c.written_toJson.without
  have hparse : Json.parse text = some (c.toJson.without removed) :=
    hwritten.parse_of_scan (htext.trans hwritten.scan_pretty)
  have hloads := loadsAs_ofText? text
  rw [ofText?, hparse, Option.bind_some, ofJson?_without h hratio] at hloads
  exact hloads

theorem loadsAs_toText (h : c.Fits)
    (hratio : (Json.ofFloat c.producerRateRatio).toFloat? = some c.producerRateRatio) :
    LoadsAs c.toText c := by
  have htext : c.toText = (c.toJson.without []).pretty := by
    rw [c.written_toJson.without_nil, toText]
  have hloads := loadsAs_of_tokens h hratio (congrArg (fun text => Token.scan text.toList) htext)
  simpa [withDefaults, DoubleBufferConfig.withDefaults, DriftConfig.withDefaults] using hloads

theorem loadsAs_default {text : String}
    (h : ∀ v, Json.parse text = some v → ¬WellTyped schema v) : LoadsAs text {} := by
  have hloads := loadsAs_ofText? text
  have hnone : ofText? text = none := by
    rw [ofText?, Option.bind_eq_none_iff]
    intro v hv
    -- whatever is read at all is read from a well-typed value
    cases hread : ofJson? v with
    | none => rfl
    | some c => exact absurd (wellTyped_of_ofJson? hread) (h v hv)
  rw [hnone] at hloads
  exact hloads

/-- What was stored at a path is the text of the settings. -/
theorem read?_of_save {path : String} {s s' : Session}
    (h : (save path c : StateM Session Outcome) s = (.ok (), s')) :
    s'.disk.read? s'.folder path = some c.toText.toUTF8 := by
  unfold save at h
  match hstored : (storeText path c.toText : StateM Session (Except IoError Unit)) s with
  | (.ok (), stored) =>
    simp only [bind, StateT.bind, hstored] at h
    obtain rfl : stored = s' := congrArg Prod.snd h
    exact Session.read?_of_storeText hstored
  | (.error e, stored) =>
    simp only [bind, StateT.bind, hstored] at h
    have hfails : (Except.error (.io e) : Outcome) = .ok () := congrArg Prod.fst h
    exact nomatch hfails

/-- Settings are stored at a path where a text can be. -/
theorem exists_save_eq {s : Session} {path : String} (h : s.CanStore path) (c : SoakConfig) :
    ∃ s', (save path c : StateM Session Outcome) s = (.ok (), s') := by
  obtain ⟨s', hstored⟩ := h.exists_storeText_eq c.toText
  refine ⟨s', ?_⟩
  unfold save
  simp only [bind, StateT.bind, hstored]
  rfl

/-- Settings are stored wherever a text can be. If their sizes fit a machine word, and their ratio
is read back as it is written, they are loaded as they were stored. If some of the names are removed
from the text, at any level, the settings of these names have their defaults and the others are as
stored; how the rest is laid out does not matter. A text that is no record of settings, or that
gives a field something that it does not take, is loaded as the defaults of all settings. -/
theorem loads_stored (hfits : c.Fits)
    (hratio : (Json.ofFloat c.producerRateRatio).toFloat? = some c.producerRateRatio) :
    (∀ (path : String) (s : Session), s.CanStore path →
        ∃ s', (save path c : StateM Session Outcome) s = (.ok (), s')) ∧
      (∀ (path : String) (s s' : Session),
        (save path c : StateM Session Outcome) s = (.ok (), s') →
          s'.disk.read? s'.folder path = some c.toText.toUTF8 ∧
            (load path : StateM Session SoakConfig) s' = (c, s')) ∧
      LoadsAs c.toText c ∧
      (∀ (removed : List String) (text : String),
        Token.scan text.toList = Token.scan (c.toJson.without removed).pretty.toList →
          LoadsAs text (c.withDefaults removed)) ∧
      ∀ text : String, (∀ v, Json.parse text = some v → ¬WellTyped schema v) →
        LoadsAs text {} := by
  refine ⟨fun _ _ h => exists_save_eq h c, fun path s s' hsave => ?_, loadsAs_toText hfits hratio,
    fun removed text => loadsAs_of_tokens hfits hratio, fun text => loadsAs_default⟩
  have hread := read?_of_save hsave
  exact ⟨hread, loadsAs_toText hfits hratio s' path hread⟩

theorem toBits_injective : Function.Injective Float.toBits := by
  rintro ⟨⟨x, hx⟩⟩ ⟨⟨y, hy⟩⟩ (h : x = y)
  subst h
  rfl

/-- Settings with a limit that is the largest word. -/
def widest : SoakConfig :=
  { drift := { maxFillCount := 300, maxReaderXruns := 4294967295 }, blocks := 7
    producerRateRatio := 1.25 }

/-- All names but those on the way to that limit. -/
def others : List String :=
  ["doubleBuffer", "minFillCount", "desiredFillCount", "maxFillCount",
    "maxWriterXrunsInSuccession", "blocks", "producerRateRatio", "configIntervalBlocks",
    "statsChannelCapacity"]

/-- Settings with a limit that is too large by one. -/
def tooWide : Json :=
  .record [("blocks", .ofNat 7),
    ("drift", .record [("maxReaderXrunsInSuccession", .ofNat 4294967296)])]

/-- Settings are stored in a folder that does not exist yet, and loaded from there. The largest
limit is loaded from a text that gives nothing else; the number after it makes all settings the
defaults. -/
theorem loads_stored_widest :
    (∃ s, (save "runs/./soak.json" widest : StateM Session Outcome) (.start ["home"]) =
        (.ok (), s) ∧
      s.disk.read? s.folder "runs/./soak.json" = some widest.toText.toUTF8 ∧
      (load "runs/./soak.json" : StateM Session SoakConfig) s = (widest, s)) ∧
    LoadsAs widest.toText widest ∧
      LoadsAs "\x7b\"drift\": \x7b \"maxReaderXrunsInSuccession\": 4294967295 \x7d\x7d"
        { drift := { maxReaderXruns := 4294967295 } } ∧
      LoadsAs tooWide.pretty {} := by
  have hfits : widest.Fits := ⟨by constructor <;> decide, by constructor <;> decide, by decide,
    by decide, by decide⟩
  have hratio : (Json.ofFloat widest.producerRateRatio).toFloat? = some widest.producerRateRatio :=
    Option.map_injective toBits_injective (by decide +kernel)
  obtain ⟨hstores, hread, htext, hwithout, hill⟩ := loads_stored hfits hratio
  have hpath : (Session.start ["home"]).CanStore "runs/./soak.json" :=
    ⟨rfl, ⟨["runs", "."], "soak.json", by decide +kernel, by decide⟩,
      "runs", _, by decide +kernel, rfl, fun place hplace => by cases hplace; exact nofun⟩
  obtain ⟨s, hsave⟩ := hstores _ _ hpath
  refine ⟨⟨s, hsave, hread _ _ _ hsave⟩, htext, hwithout others _ (by decide +kernel),
    hill _ fun v hv hwell => ?_⟩
  have hwritten : tooWide.Written := by
    refine written_record (.of_names rfl (by decide) (by decide)) ?_
    simp only [List.forall_mem_cons]
    refine ⟨written_ofNat 7, written_record (.of_names rfl (by decide) (by decide)) ?_,
      List.forall_mem_nil _⟩
    simp only [List.forall_mem_cons]
    exact ⟨written_ofNat _, List.forall_mem_nil _⟩
  obtain rfl := Option.some.inj (hwritten.parse_pretty.symm.trans hv)
  have hdrift := hwell.field
    (show schema[1]? = some ("drift", WellTyped DriftConfig.schema) from rfl)
    (.member (.tail _ List.mem_cons_self) rfl)
  have hlimit := hdrift.field
    (show DriftConfig.schema[4]? = some (_, IsNat UInt32.size) from rfl)
    (.member List.mem_cons_self rfl)
  exact absurd (isNat_ofNat.1 hlimit) (by decide)

end SoakConfig

end BlockFlow
