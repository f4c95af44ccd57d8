import BlockFlow.DoubleBuffer.Pipeline
import BlockFlow.DriftingRing.Basic
import BlockFlow.Handoff
import BlockFlow.Soak.Report

/-!
# A soak run

A producer writes a ramp into a drifting ring at a rate of its own. The outer stage reads a block
from the ring and sends it through a double buffer, whose inner stage changes the gain. New gains
are handed over now and then. After each block a snapshot of the counters of the ring is sent to a
monitor, which gets it before the next one is sent.

Samples are whole numbers. On the way out they count quarters of a unit, so that every gain is
whole too.
-/

set_option autoImplicit false

namespace BlockFlow

/-- A gain, in quarters, and its number. -/
structure Gain where
  version : Nat
  quarters : Nat
  deriving DecidableEq, Repr

/-- The gain with a number. It is never zero, so that a signal stays one. -/
def Gain.ofVersion (version : Nat) : Gain := { version, quarters := 2 + version % 4 }

/-- What the inner stage keeps: the gains handed to it, the number of the gain used last, and how
often that changed. -/
structure GainStage where
  configs : Handoff Gain
  lastVersion : Option Nat
  observed : Nat

namespace GainStage

/-- The inner stage before its first block, with the first gain published. -/
def start : GainStage :=
  { configs := (Handoff.empty.push (.ofVersion 0)).2, lastVersion := none, observed := 0 }

/-- Publishes the gain with a number. -/
def publish (s : GainStage) (version : Nat) : GainStage :=
  { s with configs := (s.configs.push (.ofVersion version)).2 }

/-- The newest gain. -/
def newest (configs : Handoff Gain) : Gain := configs.latest.getD (.ofVersion 0)

/-- Looks for the newest gain and applies it to a block. -/
def apply (config : DoubleBufferConfig) : BlockFunction GainStage Nat :=
  fun s block =>
    let configs := s.configs.poll
    let gain := newest configs
    (Interleaved.mix config.inputChannels config.outputChannels (· * gain.quarters)
      config.innerSize block,
      { configs
        lastVersion := some gain.version
        observed := if s.lastVersion = some gain.version then s.observed else s.observed + 1 })

end GainStage

/-- What the monitor makes of the snapshots it gets. -/
structure DriftMonitor where
  received : Nat := 0
  /-- How often a running ring was found stopped. -/
  stops : Nat := 0
  peakWriter : UInt32 := 0
  peakReader : UInt32 := 0
  wasRunning : Bool := false
  deriving DecidableEq, Repr

/-- The monitor gets another snapshot. -/
def DriftMonitor.observe (m : DriftMonitor) (s : XrunStats) : DriftMonitor :=
  { received := m.received + 1
    stops := if m.wasRunning && !s.running then m.stops + 1 else m.stops
    peakWriter := max m.peakWriter s.writerInSuccession
    peakReader := max m.peakReader s.readerInSuccession
    wasRunning := s.running }

/-- The channel of snapshots and the monitor at its end. -/
structure Inbox where
  /-- Snapshots that the monitor has still to get, oldest first. -/
  waiting : List XrunStats := []
  monitor : DriftMonitor := {}
  /-- Snapshots that found the channel full. -/
  dropped : Nat := 0
  deriving DecidableEq, Repr

namespace Inbox

/-- The monitor gets up to `n` of the snapshots that wait. -/
def take (q : Inbox) (n : Nat) : Inbox :=
  { q with
    waiting := q.waiting.drop n
    monitor := (q.waiting.take n).foldl DriftMonitor.observe q.monitor }

/-- A snapshot is sent, and dropped if as many wait as the channel has room for. -/
def send (capacity : Nat) (q : Inbox) (s : XrunStats) : Inbox :=
  if q.waiting.length < capacity then
    { q with waiting := q.waiting ++ [s] }
  else
    { q with dropped := q.dropped + 1 }

/-- The monitor gets up to `n` snapshots before another one is sent. -/
def step (capacity n : Nat) (q : Inbox) (s : XrunStats) : Inbox := (q.take n).send capacity s

/-- The monitor when nothing more is sent and it has got all that waited. -/
def close (q : Inbox) : DriftMonitor := (q.take q.waiting.length).monitor

end Inbox

namespace Soak

/-- The sample of the producer's frame `i`. It is never zero. -/
def rampAt (i : Nat) : Nat := i % 1000000 + 1

/-- A producer: from what it keeps, the frames of its next burst and what it keeps then. -/
abbrev Producer (β : Type) := β → Nat × β

/-- The producer that gains `perBlock` frames a block and owes the part of a frame left over. -/
def steadyProducer (perBlock : Float) : Producer Float := fun owed =>
  let due := owed + perBlock
  let whole := due.toUInt64
  (whole.toNat, due - whole.toFloat)

/-- The producer of a run. -/
def producer (c : SoakConfig) : Producer Float :=
  steadyProducer (c.doubleBuffer.outerSize.toUInt64.toFloat * c.producerRateRatio)

/-- A run between two blocks. -/
structure State where
  drift : DriftingRing Nat
  pipeline : Pipeline GainStage Nat
  inbox : Inbox
  blocks : Nat
  /-- Frames written by the producer. -/
  produced : Nat
  /-- Number of the newest gain. -/
  version : Nat
  /-- Frame in which the first signal went into the double buffer. -/
  firstIn : Option Nat
  /-- Frame in which the first signal came out of it. -/
  firstOut : Option Nat

/-- How a run ends without a report. -/
inductive Halt where
  /-- A part of it fails. -/
  | failed (e : FifoError)
  /-- There is no memory for the channel of snapshots, which takes the whole program down. -/
  | aborted

/-- What is told of a run without a report. An aborted one tells nothing itself, the host does. -/
def Halt.error : Halt → FifoError
  | failed e => e
  | aborted => .other ⟨"memory allocation failed", []⟩

instance : MonadLift (Except FifoError) (Except Halt) where
  monadLift := Except.mapError .failed

/-- Builds the parts of a run. The blocks that the stages work on take no more memory than the FIFOs
that they pass through. -/
def build [Memory] (c : SoakConfig) : Except FifoError State := do
  c.validate
  let buffer ← DoubleBuffer.make c.doubleBuffer 0
  let drift ← DriftingRing.make (← c.driftInSamples) 0
  return {
    drift, pipeline := .start buffer .start, inbox := {}, blocks := 0, produced := 0,
    version := 0, firstIn := none, firstOut := none }

/-- Builds the parts of a run, and the channel of snapshots last. -/
def start [Memory] (c : SoakConfig) : Except Halt State := do
  let built ← build c
  if Memory.hasChannel c.statsCapacity then return built else throw .aborted

namespace State

/-- The frame of the first signal, once there was one: known already, or in the block of this
turn. -/
def probe (s : State) (c : SoakConfig) (known : Option Nat) (channels : Nat) (block : List Nat) :
    Option Nat :=
  known.or ((Interleaved.firstFrame? (· != 0) channels c.doubleBuffer.outerSize block).map
    (s.blocks * c.doubleBuffer.outerSize + ·))

/-- The producer writes a burst, and the outer stage takes a block from the ring. -/
def exchange (s : State) (c : SoakConfig) (burst : Nat) : List Nat × State :=
  let ramp := (List.range burst).map fun i => rampAt (s.produced + i)
  let written := s.drift.write (Interleaved.spreadAll c.doubleBuffer.inputChannels ramp)
  let taken := written.1.read (c.doubleBuffer.outerSize * c.doubleBuffer.inputChannels)
  (taken.1, { s with drift := taken.2.1, produced := s.produced + burst })

/-- Publishes the next gain if it is time to. -/
def publish (s : State) (c : SoakConfig) : State :=
  if s.blocks % c.configInterval = 0 then
    { s with
      version := s.version + 1
      pipeline := { s.pipeline with state := s.pipeline.state.publish (s.version + 1) } }
  else
    s

/-- One turn of the outer stage. -/
def turn (s : State) (c : SoakConfig) (burst : Nat) : Except FifoError State :=
  let exchanged := s.exchange c burst
  let input := exchanged.1
  let s := exchanged.2
  let sizes := c.doubleBuffer
  let done := s.pipeline.process (GainStage.apply sizes) input
    (List.replicate (sizes.outerSize * sizes.outputChannels) 0) sizes.outerSize
  match done.outcome with
  | .error e => .error e
  | .ok () =>
    .ok (publish { s with
      pipeline := done.after
      inbox := s.inbox.step c.statsCapacity 1 s.drift.stats
      blocks := s.blocks + 1
      firstIn := s.probe c s.firstIn sizes.inputChannels input
      firstOut := s.probe c s.firstOut sizes.outputChannels done.buffer } c)

/-- Frames between the two first signals. -/
def latency (s : State) : Option Nat :=
  match s.firstIn, s.firstOut with
  | some i, some o => if i ≤ o then some (o - i) else none
  | _, _ => none

/-- The report at the end of a run. -/
def report (s : State) (c : SoakConfig) : SoakReport :=
  let monitor := s.inbox.close
  { blocksProcessed := s.blocks
    innerBlocksProcessed := s.pipeline.delivered
    configsPublished := s.version
    configsObserved := s.pipeline.state.observed
    liveConfigNodes := s.pipeline.state.configs.liveNodes
    measuredLatency := s.latency
    expectedLatency := c.doubleBuffer.delay
    drift := s.drift.stats
    driftStops := monitor.stops
    snapshotsReceived := monitor.received
    snapshotsDropped := s.inbox.dropped
    peakWriterXruns := monitor.peakWriter
    peakReaderXruns := monitor.peakReader }

/-- The inner stage is released. It may end with no other error than the one it is released
with. -/
def release (s : State) (c : SoakConfig) : Except FifoError State :=
  let pipeline := s.pipeline.finish (GainStage.apply c.doubleBuffer)
    (.cancelled .reader "soak run finished")
  match pipeline.innerEnd? with
  | some e => if e.isCancellation then .ok { s with pipeline } else .error e
  | none => .ok { s with pipeline }

end State

/-- The turns of so many blocks. -/
def drive {β : Type} (c : SoakConfig) (next : Producer β) :
    Nat → β → State → Except FifoError State
  | 0, _, s => .ok s
  | n + 1, b, s =>
    match s.turn c (next b).1 with
    | .error e => .error e
    | .ok s' => drive c next n (next b).2 s'

/-- The run with some producer. -/
def runWith [Memory] {β : Type} (c : SoakConfig) (next : Producer β) (b : β) :
    Except Halt SoakReport := do
  let started ← start c
  let driven ← drive c next c.blocks b started
  let released ← driven.release c
  return released.report c

/-- The run with these settings. -/
def run [Memory] (c : SoakConfig) : Except FifoError SoakReport :=
  (runWith c (producer c) 0).mapError Halt.error

end Soak

end BlockFlow
