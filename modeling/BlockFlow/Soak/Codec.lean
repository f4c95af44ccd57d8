import BlockFlow.DoubleBuffer.Codec
import BlockFlow.DriftingRing.Codec
import BlockFlow.Json.Printer
import BlockFlow.Json.Reader
import BlockFlow.Soak.Config

/-!
# The settings of a soak run in JSON

`SoakConfig.ofFile` never fails: a file that is missing, is no text or does not hold settings
stands for the default settings.
-/

set_option autoImplicit false

namespace BlockFlow

/-- A number; infinities and non-numbers have no numeral and are written as `null`. -/
def Json.ofFloat (x : Float) : Json :=
  match NumberStyle.stored.ofFloat? x with
  | some n => .number n
  | none => .null

namespace SoakConfig

/-- The names of the settings. -/
def fieldNames : List String :=
  ["doubleBuffer", "drift", "blocks", "producerRateRatio", "configIntervalBlocks",
    "statsChannelCapacity"]

/-- Reads the settings. Those that are not given have their defaults. -/
def ofJson? (v : Json) : Option SoakConfig := do
  let default : SoakConfig := {}
  match ← v.fields? fieldNames with
  | [doubleBuffer, drift, blocks, producerRateRatio, configInterval, statsCapacity] =>
    return {
      doubleBuffer := ←
        Json.orDefault DoubleBufferConfig.ofJson? default.doubleBuffer doubleBuffer
      drift := ← Json.orDefault DriftConfig.ofJson? default.drift drift
      blocks := ← Json.orDefault Json.toSize? default.blocks blocks
      producerRateRatio := ←
        Json.orDefault Json.toFloat? default.producerRateRatio producerRateRatio
      configInterval := ← Json.orDefault Json.toSize? default.configInterval configInterval
      statsCapacity := ← Json.orDefault Json.toSize? default.statsCapacity statsCapacity }
  | _ => none

/-- The members of the settings as an object. -/
def members (c : SoakConfig) : List (String × Json) :=
  [("doubleBuffer", c.doubleBuffer.toJson), ("drift", c.drift.toJson),
    ("blocks", .ofNat c.blocks), ("producerRateRatio", .ofFloat c.producerRateRatio),
    ("configIntervalBlocks", .ofNat c.configInterval),
    ("statsChannelCapacity", .ofNat c.statsCapacity)]

/-- Writes the settings. -/
def toJson (c : SoakConfig) : Json := .record c.members

/-- Reads the settings from a text. -/
def ofText? (text : String) : Option SoakConfig := (Json.parse text).bind ofJson?

/-- The text of the settings in a file. -/
def toText (c : SoakConfig) : String := c.toJson.pretty

/-- The settings that a file holds, if there is one and it holds any; the defaults otherwise. -/
def ofFile (content : Option ByteArray) : SoakConfig :=
  ((content.bind String.fromUTF8?).bind ofText?).getD {}

end SoakConfig

end BlockFlow
