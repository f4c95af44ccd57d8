import BlockFlow.BlockingRing.Script
import BlockFlow.DoubleBuffer.Basic
import BlockFlow.Interleaved

/-!
# An outer and an inner stage at work on one double buffer

The inner stage runs on its own: it takes an inner block, computes a block of output from it, and
delivers that, again and again until a transfer fails. The outer stage makes the calls it is told
to. Each call takes the inner stage along as far as it can go, and the two of them wait for each
other only if neither can move.
-/

set_option autoImplicit false

namespace BlockFlow

universe u v

variable {σ : Type v} {α : Type u}

/-- What an inner stage computes from a block of input: a block of output and its next state. -/
abbrev BlockFunction (σ : Type v) (α : Type u) := σ → List α → List α × σ

/-- Where the inner stage stands. -/
inductive InnerPhase (α : Type u) where
  /-- It asks for a block of input. -/
  | supplying
  /-- It has a block of output to deliver. -/
  | delivering (block : List α)
  /-- A transfer has failed and the stage is over. -/
  | ended (error : FifoError)

/-- A double buffer, the inner stage on it, and how many blocks that stage has delivered. -/
structure Pipeline (σ : Type v) (α : Type u) where
  buffer : DoubleBuffer BlockingRing α
  phase : InnerPhase α
  state : σ
  delivered : Nat

/-- What an outer call leaves behind. -/
structure Processed (σ : Type v) (α : Type u) where
  outcome : Outcome
  buffer : List α
  after : Pipeline σ α

namespace Pipeline

/-- The inner stage before its first block. -/
def start (buffer : DoubleBuffer BlockingRing α) (state : σ) : Pipeline σ α :=
  { buffer, phase := .supplying, state, delivered := 0 }

/-- The inner stage when the transfer of its call has been tried: it fails, waits, or goes on. -/
def afterTransfer (p : Pipeline σ α) (progress : DoubleBuffer.Progress BlockingRing α)
    (goOn : Pipeline σ α → List α → Pipeline σ α) : Option (Pipeline σ α) :=
  match progress.standing with
  | .finished => some (goOn { p with buffer := progress.after } progress.buffer)
  | .failed e => some { p with buffer := progress.after, phase := .ended e }
  | .waiting _ _ => none

/-- The inner stage has its block of input. -/
def supplied (f : BlockFunction σ α) (p : Pipeline σ α) (block : List α) : Pipeline σ α :=
  let result := f p.state block
  { p with phase := .delivering result.1, state := result.2 }

/-- The inner stage has delivered its block of output. -/
def handedOver (p : Pipeline σ α) (_ : List α) : Pipeline σ α :=
  { p with phase := .supplying, delivered := p.delivered + 1 }

/-- The next transfer of the inner stage, unless it has to wait or the stage is over. -/
def innerMove? (f : BlockFunction σ α) (p : Pipeline σ α) : Option (Pipeline σ α) :=
  match p.phase with
  | .supplying =>
    match p.buffer.supplyTransfers
        (p.buffer.config.innerSize * p.buffer.config.inputChannels) with
    | .error e => some { p with phase := .ended e }
    | .ok ts => p.afterTransfer (p.buffer.proceed ts []) (supplied f)
  | .delivering block =>
    match p.buffer.deliverTransfers block with
    | .error e => some { p with phase := .ended e }
    | .ok ts => p.afterTransfer (p.buffer.proceed ts []) handedOver
  | .ended _ => none

/-- More than the moves that the inner stage can make before the outer stage makes another. Each
takes a frame of input at least, or delivers a block, or ends the stage. -/
def pending (p : Pipeline σ α) : Nat :=
  match p.phase with
  | .supplying => 2 * p.buffer.inputFill + 1
  | .delivering _ => 2 * p.buffer.inputFill + 2
  | .ended _ => 0

/-- At most `n` moves of the inner stage. -/
def settleFor (f : BlockFunction σ α) : Nat → Pipeline σ α → Pipeline σ α
  | 0, p => p
  | n + 1, p =>
    match p.innerMove? f with
    | none => p
    | some p' => settleFor f n p'

/-- The inner stage goes as far as it can. -/
def settle (f : BlockFunction σ α) (p : Pipeline σ α) : Pipeline σ α := p.settleFor f p.pending

/-- Tells a stage to fail. -/
def provoke (p : Pipeline σ α) (stage : Stage) (error : FifoError) : Pipeline σ α :=
  { p with buffer := p.buffer.provoke stage error }

/-- The outer stage waits and the inner stage cannot move: the outer stage is told to fail, and
raises that error when it looks again. -/
def stalled (t : Transfer α) (out : List α) (p : Pipeline σ α) : Processed σ α :=
  let error := FifoError.cancelled t.side stallReason
  { outcome := .error error.duplicate.duplicate, buffer := out, after := p.provoke .outer error }

/-- Makes the transfers of an outer call. The inner stage goes ahead of each. -/
def carryOn (f : BlockFunction σ α) :
    List (Transfer α) → List α → Pipeline σ α → Processed σ α
  | [], out, p => { outcome := .ok (), buffer := out, after := p }
  | t :: ts, out, p =>
    let p := p.settle f
    match p.buffer.attempt out t with
    | .done (out', buffer) => carryOn f ts out' { p with buffer }
    | .failed e => { outcome := .error e, buffer := out, after := p }
    | .blocked => stalled t out p

/-- An outer call with `frames` frames of `input` and a buffer `out`. -/
def process (f : BlockFunction σ α) (p : Pipeline σ α) (input out : List α) (frames : Nat) :
    Processed σ α :=
  match p.buffer.processTransfers input out.length frames with
  | .error e => { outcome := .error e, buffer := out, after := p }
  | .ok ts => carryOn f ts out p

/-- One call of the outer stage. -/
structure OuterCall (α : Type u) where
  input : List α
  out : List α
  frames : Nat

/-- Makes outer calls one after the other; how each ended, with its buffer, and the pipeline at
the end. -/
def processAll (f : BlockFunction σ α) :
    List (OuterCall α) → Pipeline σ α → List (Outcome × List α) × Pipeline σ α
  | [], p => ([], p)
  | c :: cs, p =>
    let done := p.process f c.input c.out c.frames
    let rest := processAll f cs done.after
    ((done.outcome, done.buffer) :: rest.1, rest.2)

/-- Tells the inner stage to fail and lets it come to its end. -/
def finish (f : BlockFunction σ α) (p : Pipeline σ α) (error : FifoError) : Pipeline σ α :=
  (p.provoke .inner error).settle f

/-- The error that ended the inner stage. -/
def innerEnd? (p : Pipeline σ α) : Option FifoError :=
  match p.phase with
  | .ended e => some e
  | _ => none

/-- The calls of an outer stage that feeds `next 0`, `next 1`, … and counts on over all calls,
one call for each number of frames. Every buffer is filled with `blank`. -/
def feed (config : DoubleBufferConfig) (next : Nat → α) (blank : α) :
    Nat → List Nat → List (OuterCall α)
  | _, [] => []
  | offset, frames :: rest =>
    let length := frames * config.inputChannels
    { input := (List.range length).map fun i => next (offset + i)
      out := List.replicate (frames * config.outputChannels) blank
      frames } :: feed config next blank (offset + length) rest

end Pipeline

/-- An inner stage without a state that changes every sample alike and mixes the channels. -/
def DoubleBufferConfig.mixer (config : DoubleBufferConfig) (change : α → α) :
    BlockFunction Unit α :=
  fun _ block =>
    (Interleaved.mix config.inputChannels config.outputChannels change config.innerSize block, ())

end BlockFlow
