import BlockFlow.DriftingRing.Codec
import BlockFlow.Soak.Codec

/-!
# What a soak run reports
-/

set_option autoImplicit false

namespace BlockFlow

/-- The result of a soak run. -/
structure SoakReport where
  blocksProcessed : Nat
  innerBlocksProcessed : Nat
  configsPublished : Nat
  configsObserved : Nat
  /-- Published gains that are not freed yet. -/
  liveConfigNodes : Nat
  /-- Frames from the first signal that went in to the first that came out. -/
  measuredLatency : Option Nat
  expectedLatency : Nat
  drift : XrunStats
  /-- Stops of the drifting ring. -/
  driftStops : Nat
  snapshotsReceived : Nat
  snapshotsDropped : Nat
  /-- Most xruns in succession. -/
  peakWriterXruns : UInt32
  peakReaderXruns : UInt32
  deriving DecidableEq, Repr

namespace SoakReport

/-- Writes the report of a run that took so many milliseconds. -/
def toJson (r : SoakReport) (elapsed : Float) : Json :=
  .record
    [("blocksProcessed", .ofNat r.blocksProcessed),
      ("innerBlocksProcessed", .ofNat r.innerBlocksProcessed),
      ("configsPublished", .ofNat r.configsPublished),
      ("configsObserved", .ofNat r.configsObserved),
      ("configNodesLiveAtEnd", .ofNat r.liveConfigNodes),
      ("measuredLatencyFrames", (r.measuredLatency.map Json.ofNat).getD .null),
      ("expectedLatencyFrames", .ofNat r.expectedLatency),
      ("drift", r.drift.toJson),
      ("driftStops", .ofNat r.driftStops),
      ("statsSnapshotsReceived", .ofNat r.snapshotsReceived),
      ("statsSnapshotsDropped", .ofNat r.snapshotsDropped),
      ("peakWriterXrunsInSuccession", .ofNat r.peakWriterXruns.toNat),
      ("peakReaderXrunsInSuccession", .ofNat r.peakReaderXruns.toNat),
      ("elapsedMs", .ofFloat elapsed)]

/-- The report in one line. -/
def summary (r : SoakReport) : String :=
  s!"Done. blocks={r.blocksProcessed} latency={Text.optional toString r.measuredLatency}" ++
    s!" (expected {r.expectedLatency}) writer_xruns={r.drift.writerTotal.toNat}" ++
    s!" reader_xruns={r.drift.readerTotal.toNat}" ++
    s!" configs={r.configsObserved}/{r.configsPublished}"

end SoakReport

end BlockFlow
