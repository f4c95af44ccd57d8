import BlockFlow.DoubleBuffer.Config
import BlockFlow.Event
import BlockFlow.SharedFifo

/-!
# Two FIFOs between two block sizes

The outer stage pushes input and takes output in blocks of up to `outerSize` frames, the inner
stage takes input and delivers output in blocks of exactly `innerSize` frames. The output FIFO
starts out with `delay` frames, so that results come back exactly that much later.

Each call of a stage is a list of transfers. `DoubleBuffer.proceed` makes as many of them as can
be made now and tells where the call stands.
-/

set_option autoImplicit false

namespace BlockFlow

universe u

variable {F : Type u → Type u} {α : Type u}

/-- The two lanes of a double buffer, each with a FIFO of its own. -/
inductive Lane where
  | input
  | output
  deriving DecidableEq, Repr

/-- The name of the FIFO. -/
def Lane.name : Lane → String
  | input => "input"
  | output => "output"

/-- A signal sent by one of the two FIFOs. -/
structure LaneSignal where
  lane : Lane
  signal : Signal
  deriving DecidableEq, Repr

/-- The signal with the name of its FIFO. -/
def LaneSignal.name (s : LaneSignal) : String := s.lane.name ++ "." ++ s.signal.name

/-- The two stages that a double buffer connects. -/
inductive Stage where
  | inner
  | outer
  deriving DecidableEq, Repr

/-- A double buffer: its sizes, the FIFOs, and the first error each stage was told to fail
with. -/
structure DoubleBuffer (F : Type u → Type u) (α : Type u) where
  config : DoubleBufferConfig
  fifoSize : Nat
  input : F α
  output : F α
  innerError : Option FifoError
  outerError : Option FifoError

/-- A transfer of samples between a stage and a FIFO. -/
inductive Transfer (α : Type u) where
  | push (lane : Lane) (block : List α)
  | pull (lane : Lane) (n : Nat)

/-- The party of the FIFO that makes the transfer. -/
def Transfer.side : Transfer α → Side
  | push .. => .writer
  | pull .. => .reader

/-- The FIFO of the transfer. -/
def Transfer.lane : Transfer α → Lane
  | push lane _ => lane
  | pull lane _ => lane

namespace DoubleBuffer

/-- The FIFO of a lane. -/
def fifo (db : DoubleBuffer F α) : Lane → F α
  | .input => db.input
  | .output => db.output

/-- Replaces the FIFO of a lane. -/
def setFifo (db : DoubleBuffer F α) (f : F α) : Lane → DoubleBuffer F α
  | .input => { db with input := f }
  | .output => { db with output := f }

/-- The first error a stage was told to fail with. -/
def stageError (db : DoubleBuffer F α) : Stage → Option FifoError
  | .inner => db.innerError
  | .outer => db.outerError

section

variable [SharedFifo F]

/-- Builds both FIFOs and stores `delay` frames of `fill` in the output FIFO. -/
def make [Memory] (config : DoubleBufferConfig) (fill : α) : Except FifoError (DoubleBuffer F α) :=
  match config.validate with
  | .error e => .error e
  | .ok () =>
    match config.fifoSize with
    | .error e => .error e
    | .ok fifoSize =>
      match SharedFifo.make (F := F) (fifoSize * config.inputChannels) fill with
      | .error e => .error e
      | .ok input =>
        match SharedFifo.make (F := F) (fifoSize * config.outputChannels) fill with
        | .error e => .error e
        | .ok empty =>
          let silence := List.replicate (config.delay * config.outputChannels) fill
          match SharedFifo.tryPush empty silence with
          | .done output =>
            .ok { config, fifoSize, input, output, innerError := none, outerError := none }
          | .failed e => .error e
          | .blocked =>
            .error (.capacityExceeded silence.length (SharedFifo.availableSpace empty))

/-- What is logged when a double buffer is built. -/
def makeLog (config : DoubleBufferConfig) : List LogEvent :=
  match config.validate with
  | .error _ => []
  | .ok () =>
    if config.delay < config.minimumDelay then
      [.delayTooSmall config.delay config.minimumDelay]
    else
      []

variable (F) in
/-- The signals sent while a double buffer is built: one for the block stored in the output
FIFO. -/
def makeSignals : List LaneSignal :=
  if SharedFifo.blocking F then [⟨.output, .increment⟩] else []

/-- Asks for one transfer. A pull puts what it takes in front of `out`, in place of as many
elements. -/
def attempt (db : DoubleBuffer F α) (out : List α) :
    Transfer α → Attempt (List α × DoubleBuffer F α)
  | .push lane block =>
    (SharedFifo.tryPush (db.fifo lane) block).map fun f => (out, db.setFifo f lane)
  | .pull lane n =>
    (SharedFifo.tryPull (db.fifo lane) n).map fun taken =>
      (taken.1 ++ out.drop taken.1.length, db.setFifo taken.2 lane)

/-- How far a call has come. -/
inductive Standing (α : Type u) where
  | finished
  | failed (error : FifoError)
  /-- The next transfer has to wait. -/
  | waiting (next : Transfer α) (rest : List (Transfer α))

/-- A call after the transfers that could be made: where it stands, its buffer, the signals
sent, and the double buffer. -/
structure Progress (F : Type u → Type u) (α : Type u) where
  standing : Standing α
  buffer : List α
  signals : List LaneSignal
  after : DoubleBuffer F α

/-- The signal sent after a transfer, if the FIFOs send any. -/
def transferSignals (t : Transfer α) : List LaneSignal :=
  if SharedFifo.blocking F then [⟨t.lane, .transferred t.side⟩] else []

/-- Makes transfers in order until one fails or has to wait. -/
def proceed : List (Transfer α) → List α → DoubleBuffer F α → Progress F α
  | [], out, db => { standing := .finished, buffer := out, signals := [], after := db }
  | t :: ts, out, db =>
    match db.attempt out t with
    | .done (out', db') =>
      let rest := proceed ts out' db'
      { rest with signals := transferSignals (F := F) t ++ rest.signals }
    | .failed e => { standing := .failed e, buffer := out, signals := [], after := db }
    | .blocked => { standing := .waiting t ts, buffer := out, signals := [], after := db }

/-- The transfers of an outer call: push `frames` frames of `input`, then take as many frames of
output into a buffer of `outLength` samples. Where nobody waits, missing output is reported
before any input is stored, so that the call can be made again with the same input. -/
def processTransfers (db : DoubleBuffer F α) (input : List α) (outLength frames : Nat) :
    Except FifoError (List (Transfer α)) :=
  match db.outerError with
  | some e => .error e.duplicate
  | none =>
    if db.config.outerSize < frames then
      .error (.config
        s!"{frames} frames exceed the outer block size {db.config.outerSize}")
    else
      let inLen := frames * db.config.inputChannels
      let outLen := frames * db.config.outputChannels
      let available := SharedFifo.fillCount db.output
      if input.length < inLen ∨ outLength < outLen then
        .error (.config (s!"block of {frames} frames needs {inLen} input and {outLen} output " ++
          s!"samples, got {input.length} and {outLength}"))
      else if SharedFifo.blocking F = false ∧ available < outLen then
        .error (.insufficientData outLen available)
      else
        .ok [.push .input (input.take inLen), .pull .output outLen]

/-- The transfer of an inner call that takes one inner block into a buffer of `outLength`
samples. -/
def supplyTransfers (db : DoubleBuffer F α) (outLength : Nat) :
    Except FifoError (List (Transfer α)) :=
  match db.innerError with
  | some e => .error e.duplicate
  | none =>
    let len := db.config.innerSize * db.config.inputChannels
    if outLength < len then
      .error (.config s!"inner input buffer holds {outLength} samples, needs {len}")
    else
      .ok [.pull .input len]

/-- The transfer of an inner call that delivers one inner block from the front of `data`. -/
def deliverTransfers (db : DoubleBuffer F α) (data : List α) :
    Except FifoError (List (Transfer α)) :=
  match db.innerError with
  | some e => .error e.duplicate
  | none =>
    let len := db.config.innerSize * db.config.outputChannels
    if data.length < len then
      .error (.config s!"inner output buffer holds {data.length} samples, needs {len}")
    else
      .ok [.push .output (data.take len)]

/-- Tells a stage to fail: arms the two FIFO sides at which the stage can wait, and keeps the
first such error. -/
def provoke (db : DoubleBuffer F α) (stage : Stage) (error : FifoError) : DoubleBuffer F α :=
  match stage with
  | .inner =>
    { db with
      input := SharedFifo.setError db.input .reader error.duplicate
      output := SharedFifo.setError db.output .writer error.duplicate
      innerError := db.innerError.or (some error) }
  | .outer =>
    { db with
      input := SharedFifo.setError db.input .writer error.duplicate
      output := SharedFifo.setError db.output .reader error.duplicate
      outerError := db.outerError.or (some error) }

variable (F) in
/-- What is logged when a stage is told to fail. -/
def provokeLog (stage : Stage) (error : FifoError) : List LogEvent :=
  let arming (side : Side) : List LogEvent :=
    if SharedFifo.blocking F then [.arming side error.duplicate] else []
  match stage with
  | .inner => .provokingInner error :: (arming .reader ++ arming .writer)
  | .outer => .provokingOuter error :: (arming .writer ++ arming .reader)

variable (F) in
/-- The signals sent when a stage is told to fail. -/
def provokeSignals : List LaneSignal :=
  if SharedFifo.blocking F then [⟨.input, .wakeAll⟩, ⟨.output, .wakeAll⟩] else []

/-- Frames waiting for the inner stage. -/
def inputFill (db : DoubleBuffer F α) : Nat :=
  SharedFifo.fillCount db.input / db.config.inputChannels

/-- Frames waiting for the outer stage. -/
def outputFill (db : DoubleBuffer F α) : Nat :=
  SharedFifo.fillCount db.output / db.config.outputChannels

/-- Frames of input that can be stored. -/
def inputSpace (db : DoubleBuffer F α) : Nat :=
  SharedFifo.availableSpace db.input / db.config.inputChannels

/-- Frames of output that can be stored. -/
def outputSpace (db : DoubleBuffer F α) : Nat :=
  SharedFifo.availableSpace db.output / db.config.outputChannels

end

/-- The double buffer as a written record, without its FIFOs. -/
def describe (db : DoubleBuffer F α) : String :=
  Text.openRecord "DoubleBuffer"
    [("config", db.config.describe),
      ("inner_error", Text.optional FifoError.describe db.innerError),
      ("outer_error", Text.optional FifoError.describe db.outerError)]

end DoubleBuffer

end BlockFlow
