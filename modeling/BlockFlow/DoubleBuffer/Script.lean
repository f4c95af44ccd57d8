import BlockFlow.BlockingRing.Script
import BlockFlow.DoubleBuffer.Basic

/-!
# Calls on a double buffer that run while another call waits

Where the FIFOs of a double buffer block, the calls of both stages can wait. A script says which
calls run in each wait. A wait for which no group of calls is left tells the waiting stage to
fail.
-/

set_option autoImplicit false

namespace BlockFlow.DoubleBuffer

universe u

variable {F : Type u → Type u} {α : Type u}

/-- A call, with the groups of calls that run in its waits. -/
inductive Call (α : Type u) where
  | process (input out : List α) (frames : Nat) (waits : List (List (Call α)))
  | supply (out : List α) (waits : List (List (Call α)))
  | deliver (data : List α) (waits : List (List (Call α)))
  | provoke (stage : Stage) (error : FifoError)
  /-- Looks at the double buffer and changes nothing. -/
  | inspect

/-- What a call leaves behind: how it ended, its buffer, the signals it sent, the steps of each
group that ran, everything logged from its start to its end, and the double buffer. -/
structure Step (F : Type u → Type u) (α : Type u) where
  outcome : Outcome
  buffer : List α
  signals : List LaneSignal
  during : List (List (Step F α))
  log : List LogEvent
  after : DoubleBuffer F α

namespace Step

/-- A call that ends without waiting any more. -/
def ended (outcome : Outcome) (p : Progress F α) : Step F α :=
  { outcome, buffer := p.buffer, signals := p.signals, during := [], log := [], after := p.after }

/-- A call that is refused before its first transfer. -/
def refused (error : FifoError) (out : List α) (db : DoubleBuffer F α) : Step F α :=
  { outcome := .error error, buffer := out, signals := [], during := [], log := [], after := db }

/-- A call that waits with no group left: its stage is told to fail, and the call raises that
error when it looks again. -/
def stalled [SharedFifo F] (stage : Stage) (t : Transfer α) (p : Progress F α) : Step F α :=
  let error := FifoError.cancelled t.side stallReason
  { outcome := .error error.duplicate.duplicate
    buffer := p.buffer
    signals := p.signals ++ ⟨t.lane, .waiting t.side⟩ :: provokeSignals F
    during := []
    log := provokeLog F stage error
    after := p.after.provoke stage error }

/-- A call that came as far as `p`, waited while a group ran with these steps, and went on as
`rest`. -/
def afterWait (t : Transfer α) (p : Progress F α) (group : List (Step F α)) (rest : Step F α) :
    Step F α :=
  { rest with
    signals := p.signals ++ ⟨t.lane, .waiting t.side⟩ :: rest.signals
    during := group :: rest.during
    log := group.flatMap Step.log ++ rest.log }

end Step

variable [SharedFifo F]

mutual

/-- Makes a call. -/
def Call.run : Call α → DoubleBuffer F α → Step F α
  | .process input out frames waits, db =>
    match db.processTransfers input out.length frames with
    | .error e => .refused e out db
    | .ok ts => carryOn .outer waits ts out db
  | .supply out waits, db =>
    match db.supplyTransfers out.length with
    | .error e => .refused e out db
    | .ok ts => carryOn .inner waits ts out db
  | .deliver data waits, db =>
    match db.deliverTransfers data with
    | .error e => .refused e [] db
    | .ok ts => carryOn .inner waits ts [] db
  | .provoke stage error, db =>
    { outcome := .ok (), buffer := [], signals := provokeSignals F, during := [],
      log := provokeLog F stage error, after := db.provoke stage error }
  | .inspect, db =>
    { outcome := .ok (), buffer := [], signals := [], during := [], log := [], after := db }

/-- Makes the transfers of a call of `stage`, waiting as often as there are groups for it. -/
def carryOn (stage : Stage) :
    List (List (Call α)) → List (Transfer α) → List α → DoubleBuffer F α → Step F α
  | [], ts, out, db =>
    let p := db.proceed ts out
    match p.standing with
    | .finished => .ended (.ok ()) p
    | .failed e => .ended (.error e) p
    | .waiting t _ => .stalled stage t p
  | group :: waits, ts, out, db =>
    let p := db.proceed ts out
    match p.standing with
    | .finished => .ended (.ok ()) p
    | .failed e => .ended (.error e) p
    | .waiting t rest =>
      let inner := runAll group p.after
      .afterWait t p inner.1 (carryOn stage waits (t :: rest) p.buffer inner.2)

/-- Makes calls one after the other; the steps and the double buffer at the end. -/
def runAll : List (Call α) → DoubleBuffer F α → List (Step F α) × DoubleBuffer F α
  | [], db => ([], db)
  | c :: cs, db =>
    let step := c.run db
    let rest := runAll cs step.after
    (step :: rest.1, rest.2)

end

end BlockFlow.DoubleBuffer
