import BlockFlow.DriftingRing.Config
import BlockFlow.Json.Record

/-!
# The settings and counters of a drifting ring in JSON
-/

set_option autoImplicit false

namespace BlockFlow

namespace DriftConfig

/-- The names of the settings. -/
def fieldNames : List String :=
  ["minFillCount", "desiredFillCount", "maxFillCount", "maxWriterXrunsInSuccession",
    "maxReaderXrunsInSuccession"]

/-- Reads the settings. Those that are not given have their defaults. -/
def ofJson? (v : Json) : Option DriftConfig := do
  let default : DriftConfig := {}
  match ← v.fields? fieldNames with
  | [minFill, desiredFill, maxFill, maxWriter, maxReader] =>
    return {
      minFillCount := ← Json.orDefault Json.toSize? default.minFillCount minFill
      desiredFillCount := ← Json.orDefault Json.toSize? default.desiredFillCount desiredFill
      maxFillCount := ← Json.orDefault Json.toSize? default.maxFillCount maxFill
      maxWriterXruns := ← Json.orDefault Json.toUInt32? default.maxWriterXruns maxWriter
      maxReaderXruns := ← Json.orDefault Json.toUInt32? default.maxReaderXruns maxReader }
  | _ => none

/-- The members of the settings as an object. -/
def members (c : DriftConfig) : List (String × Json) :=
  [("minFillCount", .ofNat c.minFillCount), ("desiredFillCount", .ofNat c.desiredFillCount),
    ("maxFillCount", .ofNat c.maxFillCount),
    ("maxWriterXrunsInSuccession", .ofNat c.maxWriterXruns.toNat),
    ("maxReaderXrunsInSuccession", .ofNat c.maxReaderXruns.toNat)]

/-- Writes the settings. -/
def toJson (c : DriftConfig) : Json := .record c.members

end DriftConfig

namespace XrunStats

/-- The names of the counters. -/
def fieldNames : List String :=
  ["writerXrunsTotal", "readerXrunsTotal", "writerXrunsSinceStart", "readerXrunsSinceStart",
    "writerXrunsInSuccession", "readerXrunsInSuccession", "running", "startupZeros"]

/-- Reads the counters. All of them have to be given. -/
def ofJson? (v : Json) : Option XrunStats := do
  match ← v.fields? fieldNames with
  | [writerTotal, readerTotal, writerSinceStart, readerSinceStart, writerInSuccession,
      readerInSuccession, running, startupZeros] =>
    return {
      writerTotal := ← Json.required Json.toUInt64? writerTotal
      readerTotal := ← Json.required Json.toUInt64? readerTotal
      writerSinceStart := ← Json.required Json.toUInt64? writerSinceStart
      readerSinceStart := ← Json.required Json.toUInt64? readerSinceStart
      writerInSuccession := ← Json.required Json.toUInt32? writerInSuccession
      readerInSuccession := ← Json.required Json.toUInt32? readerInSuccession
      running := ← Json.required Json.toBool? running
      startupZeros := ← Json.required Json.toSize? startupZeros }
  | _ => none

/-- Writes the counters. -/
def toJson (s : XrunStats) : Json :=
  .record
    [("writerXrunsTotal", .ofNat s.writerTotal.toNat),
      ("readerXrunsTotal", .ofNat s.readerTotal.toNat),
      ("writerXrunsSinceStart", .ofNat s.writerSinceStart.toNat),
      ("readerXrunsSinceStart", .ofNat s.readerSinceStart.toNat),
      ("writerXrunsInSuccession", .ofNat s.writerInSuccession.toNat),
      ("readerXrunsInSuccession", .ofNat s.readerInSuccession.toNat),
      ("running", .bool s.running),
      ("startupZeros", .ofNat s.startupZeros)]

end XrunStats

end BlockFlow
