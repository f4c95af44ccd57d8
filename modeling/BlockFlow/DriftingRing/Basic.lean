import BlockFlow.DriftingRing.Config
import BlockFlow.Event
import BlockFlow.Ring.Basic

/-!
# A ring that tolerates drift

The writer and the reader of a drifting ring run on clocks of their own. The ring runs once both
have called it; it then owes the reader some startup silence. A write that does not fit drops the
excess, and a read that would leave too little is padded with silence. Both count as xruns, and
too many in succession stop the ring, as does `stop`. While the ring is stopped writes are dropped
and reads return silence.
-/

set_option autoImplicit false

namespace BlockFlow

universe u

variable {α : Type u}

/-- What a drifting ring keeps about one party: whether it has called since the last stop, its
xruns in all, since the last start and in succession, and how many in succession it may have. -/
structure Party where
  started : Bool := false
  total : UInt64 := 0
  sinceStart : UInt64 := 0
  inSuccession : UInt32 := 0
  limit : UInt32
  deriving DecidableEq, Repr

namespace Party

/-- The counters at a start. -/
def resetCounts (p : Party) : Party := { p with sinceStart := 0, inSuccession := 0 }

/-- One more xrun. -/
def xrun (p : Party) : Party :=
  { p with
    total := p.total + 1
    sinceStart := p.sinceStart + 1
    inSuccession := p.inSuccession + 1 }

/-- A transfer in full ends a succession of xruns. -/
def fullTransfer (p : Party) : Party := { p with inSuccession := 0 }

/-- Whether the party has more xruns in succession than it may have. -/
def overLimit (p : Party) : Bool := p.limit < p.inSuccession

end Party

/-- A ring with a start and stop policy. -/
structure DriftingRing (α : Type u) where
  ring : Ring α
  minFillCount : Nat
  desiredFillCount : Nat
  writer : Party
  reader : Party
  /-- Stands for silence. -/
  null : α
  /-- Silent elements that the reader has still to be given before anything stored. -/
  startupZeros : Nat

namespace DriftingRing

/-- A stopped, empty ring over the given storage. -/
def ofRing (config : DriftConfig) (null : α) (ring : Ring α) : DriftingRing α :=
  { ring
    minFillCount := config.minFillCount
    desiredFillCount := config.desiredFillCount
    writer := { limit := config.maxWriterXruns }
    reader := { limit := config.maxReaderXruns }
    null
    startupZeros := config.desiredFillCount }

/-- A stopped ring with the given settings, its slots filled with silence. -/
def make [Memory] (config : DriftConfig) (null : α) : Except FifoError (DriftingRing α) :=
  match config.validate with
  | .error e => .error e
  | .ok () => (Ring.make config.maxFillCount null).map (ofRing config null)

/-- Most elements the ring can hold. -/
def capacity (d : DriftingRing α) : Nat := d.ring.capacity

/-- Stored elements and silence still owed to the reader. -/
def fillCount (d : DriftingRing α) : Nat := d.ring.fillCount + d.startupZeros

/-- Free slots, less the silence still owed to the reader. -/
def availableSpace (d : DriftingRing α) : Nat := d.ring.availableSpace - d.startupZeros

/-- Whether both parties have called since the last stop. -/
def isRunning (d : DriftingRing α) : Bool := d.writer.started && d.reader.started

/-- The party on a side. -/
def party (d : DriftingRing α) : Side → Party
  | .writer => d.writer
  | .reader => d.reader

/-- Changes the party on a side. -/
def updateParty (d : DriftingRing α) (side : Side) (f : Party → Party) : DriftingRing α :=
  match side with
  | .writer => { d with writer := f d.writer }
  | .reader => { d with reader := f d.reader }

/-- Changes how many xruns in succession a party may have. -/
def setLimit (d : DriftingRing α) (side : Side) (limit : UInt32) : DriftingRing α :=
  d.updateParty side fun p => { p with limit }

/-- Stops the ring. Each party starts again with its next call. -/
def stop (d : DriftingRing α) : DriftingRing α :=
  (d.updateParty .writer fun p => { p with started := false }).updateParty .reader
    fun p => { p with started := false }

/-- The ring when a party starts: empty, all startup silence owed, and the counters since the
start at zero. -/
def starting (d : DriftingRing α) : DriftingRing α :=
  { d with
    ring := d.ring.clear
    startupZeros := d.desiredFillCount
    writer := d.writer.resetCounts
    reader := d.reader.resetCounts }

/-- A party enters the ring. Its first call since the last stop starts it. -/
def enter (d : DriftingRing α) (side : Side) : DriftingRing α × List LogEvent :=
  if (d.party side).started then
    (d, [])
  else
    (d.starting.updateParty side fun p => { p with started := true },
      [.driftStarting d.desiredFillCount])

/-- Keeps count after a transfer: an xrun if it was short, and a stop if that was one too many. -/
def account (d : DriftingRing α) (side : Side) (short : Bool) : DriftingRing α × List LogEvent :=
  if short then
    let d := d.updateParty side Party.xrun
    if (d.party side).overLimit then
      (d.stop, [.tooManyXruns side d.writer.total.toNat d.reader.total.toNat, .driftStopped])
    else
      (d, [])
  else
    (d.updateParty side Party.fullTransfer, [])

/-- Stores elements in the ring below. They are chosen to fit. -/
def store (d : DriftingRing α) (data : List α) : DriftingRing α × List LogEvent :=
  match d.ring.push data with
  | .ok ring => ({ d with ring }, [])
  | .error e => (d, [.driftOutOfStep .writer e])

/-- Takes elements from the ring below. There are chosen to be enough; silence would stand in
for them. -/
def fetch (d : DriftingRing α) (n : Nat) : List α × DriftingRing α × List LogEvent :=
  match d.ring.pull n with
  | .ok (block, ring) => (block, { d with ring }, [])
  | .error e => (List.replicate n d.null, d, [.driftOutOfStep .reader e])

/-- Offers `data` to the reader. -/
def write (d : DriftingRing α) (data : List α) : DriftingRing α × List LogEvent :=
  let entry := d.enter .writer
  if entry.1.isRunning then
    let transferred := min entry.1.availableSpace data.length
    let stored := entry.1.store (data.take transferred)
    let counted := stored.1.account .writer (decide (transferred < data.length))
    (counted.1, entry.2 ++ stored.2 ++ counted.2)
  else
    entry

/-- What a read of a running ring hands over: how many elements in all, and how many of them
are startup silence. -/
def share (d : DriftingRing α) (n : Nat) : Nat × Nat :=
  let transferred := min (d.fillCount - d.minFillCount) n
  (transferred, min d.startupZeros transferred)

/-- Delivers `n` elements: startup silence first, then stored elements, then padding. -/
def read (d : DriftingRing α) (n : Nat) : List α × DriftingRing α × List LogEvent :=
  let entry := d.enter .reader
  if entry.1.isRunning then
    let transferred := (entry.1.share n).1
    let zeros := (entry.1.share n).2
    let owed := { entry.1 with startupZeros := entry.1.startupZeros - zeros }
    let fetched := owed.fetch (transferred - zeros)
    let counted := fetched.2.1.account .reader (decide (transferred < n))
    (List.replicate zeros d.null ++ fetched.1 ++ List.replicate (n - transferred) d.null,
      counted.1, entry.2 ++ fetched.2.2 ++ counted.2)
  else
    (List.replicate n d.null, entry)

/-- The counters. -/
def stats (d : DriftingRing α) : XrunStats :=
  { writerTotal := d.writer.total
    readerTotal := d.reader.total
    writerSinceStart := d.writer.sinceStart
    readerSinceStart := d.reader.sinceStart
    writerInSuccession := d.writer.inSuccession
    readerInSuccession := d.reader.inSuccession
    running := d.isRunning
    startupZeros := d.startupZeros }

/-- One call on a drifting ring. A read asks for a number of elements. -/
inductive Call (α : Type u) where
  | write (data : List α)
  | read (n : Nat)
  | stop
  | setLimit (side : Side) (limit : UInt32)

/-- What a call leaves behind: the buffer of a read, everything logged, and the ring. -/
structure Step (α : Type u) where
  buffer : List α
  log : List LogEvent
  after : DriftingRing α

/-- Makes a call. No call fails: what cannot be transferred is an xrun. -/
def Call.run : Call α → DriftingRing α → Step α
  | .write data, d =>
    let result := d.write data
    { buffer := [], log := result.2, after := result.1 }
  | .read n, d =>
    let result := d.read n
    { buffer := result.1, log := result.2.2, after := result.2.1 }
  | .stop, d => { buffer := [], log := [.driftStopped], after := d.stop }
  | .setLimit side limit, d => { buffer := [], log := [], after := d.setLimit side limit }

/-- The ring as a written record. -/
def describe (render : α → String) (d : DriftingRing α) : String :=
  Text.record "DriftingRingBuffer"
    [("ring", d.ring.describe render),
      ("min_fill_count", toString d.minFillCount),
      ("desired_fill_count", toString d.desiredFillCount),
      ("writer_started", toString d.writer.started),
      ("reader_started", toString d.reader.started),
      ("writer_xruns_total", toString d.writer.total.toNat),
      ("reader_xruns_total", toString d.reader.total.toNat),
      ("writer_xruns_since_start", toString d.writer.sinceStart.toNat),
      ("reader_xruns_since_start", toString d.reader.sinceStart.toNat),
      ("writer_xruns_in_succession", toString d.writer.inSuccession.toNat),
      ("reader_xruns_in_succession", toString d.reader.inSuccession.toNat),
      ("max_writer_xruns_in_succession", toString d.writer.limit.toNat),
      ("max_reader_xruns_in_succession", toString d.reader.limit.toNat),
      ("null", render d.null),
      ("startup_zeros", toString d.startupZeros)]

end DriftingRing

end BlockFlow
