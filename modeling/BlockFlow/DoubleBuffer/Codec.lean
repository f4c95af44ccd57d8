import BlockFlow.DoubleBuffer.Config
import BlockFlow.Json.Record

/-!
# The sizes of a double buffer in JSON
-/

set_option autoImplicit false

namespace BlockFlow.DoubleBufferConfig

/-- The names of the sizes. -/
def fieldNames : List String :=
  ["outerSize", "innerSize", "delay", "inputChannels", "outputChannels"]

/-- Reads the sizes. Those that are not given have their defaults. -/
def ofJson? (v : Json) : Option DoubleBufferConfig := do
  let default : DoubleBufferConfig := {}
  match ← v.fields? fieldNames with
  | [outerSize, innerSize, delay, inputChannels, outputChannels] =>
    return {
      outerSize := ← Json.orDefault Json.toSize? default.outerSize outerSize
      innerSize := ← Json.orDefault Json.toSize? default.innerSize innerSize
      delay := ← Json.orDefault Json.toSize? default.delay delay
      inputChannels := ← Json.orDefault Json.toSize? default.inputChannels inputChannels
      outputChannels := ← Json.orDefault Json.toSize? default.outputChannels outputChannels }
  | _ => none

/-- The members of the sizes as an object. -/
def members (c : DoubleBufferConfig) : List (String × Json) :=
  [("outerSize", .ofNat c.outerSize), ("innerSize", .ofNat c.innerSize),
    ("delay", .ofNat c.delay), ("inputChannels", .ofNat c.inputChannels),
    ("outputChannels", .ofNat c.outputChannels)]

/-- Writes the sizes. -/
def toJson (c : DoubleBufferConfig) : Json := .record c.members

end BlockFlow.DoubleBufferConfig
