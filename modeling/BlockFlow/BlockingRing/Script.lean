import BlockFlow.BlockingRing.Basic
import BlockFlow.Event

/-!
# Calls that run while another call waits

While a call on a blocking ring waits, the ring is free for others. A script says which calls
run there: each wait runs the next group of calls and then looks again, and a wait for which no
group is left arms a cancellation for the party that waits.
-/

set_option autoImplicit false

namespace BlockFlow

universe u

variable {α : Type u}

/-- The reason given when a party waits and nothing is left to happen. -/
def stallReason : String := "stalled"

namespace BlockingRing

/-- A transfer that a party asks for. A read brings the buffer that it fills. -/
inductive Transfer (α : Type u) where
  | write (data : List α)
  | read (out : List α)

namespace Transfer

/-- The party that makes the transfer. -/
def side : Transfer α → Side
  | write _ => .writer
  | read _ => .reader

/-- The buffer before the transfer. -/
def buffer : Transfer α → List α
  | write _ => []
  | read out => out

/-- Asks the ring for the transfer; the buffer and the ring after it. -/
def attempt (b : BlockingRing α) : Transfer α → Attempt (List α × BlockingRing α)
  | write data => (b.tryPush data).map fun b' => ([], b')
  | read out => b.tryPull out.length

end Transfer

/-- A call, with the groups of calls that run in its waits. -/
inductive Call (α : Type u) where
  | transfer (request : Transfer α) (waits : List (List (Call α)))
  | setError (side : Side) (error : FifoError)

/-- What a call leaves behind: how it ended, the buffer of a read, the signals it sent, the
steps of each group that ran, everything logged from its start to its end, and the ring. -/
structure Step (α : Type u) where
  outcome : Outcome
  buffer : List α
  signals : List Signal
  during : List (List (Step α))
  log : List LogEvent
  after : BlockingRing α

namespace Step

/-- The last part of a call that was served. -/
def served (side : Side) (buffer : List α) (after : BlockingRing α) : Step α :=
  { outcome := .ok (), buffer, signals := [.transferred side], during := [], log := [], after }

/-- The last part of a call that fails. -/
def refused (error : FifoError) (buffer : List α) (after : BlockingRing α) : Step α :=
  { outcome := .error error, buffer, signals := [], during := [], log := [], after }

/-- The last part of a call that waits with no group left: its party is armed with a
cancellation, which the call raises when it looks again. -/
def stalled (side : Side) (buffer : List α) (b : BlockingRing α) : Step α :=
  let error := FifoError.cancelled side stallReason
  { outcome := .error error.duplicate
    buffer
    signals := [.waiting side, .wakeAll]
    during := []
    log := [.arming side error]
    after := b.setError side error }

/-- A call that waited once more before `rest`: the group ran with these steps. -/
def afterWait (side : Side) (group : List (Step α)) (rest : Step α) : Step α :=
  { rest with
    signals := .waiting side :: rest.signals
    during := group :: rest.during
    log := group.flatMap Step.log ++ rest.log }

end Step

mutual

/-- Makes a call. -/
def Call.run : Call α → BlockingRing α → Step α
  | .transfer request waits, b => transfer request waits b
  | .setError side error, b =>
    { outcome := .ok (), buffer := [], signals := [.wakeAll], during := [],
      log := [.arming side error], after := b.setError side error }

/-- Makes a transfer, waiting as often as there are groups for it. -/
def transfer (request : Transfer α) : List (List (Call α)) → BlockingRing α → Step α
  | [], b =>
    match request.attempt b with
    | .done (buffer, b') => .served request.side buffer b'
    | .failed e => .refused e request.buffer b
    | .blocked => .stalled request.side request.buffer b
  | group :: waits, b =>
    match request.attempt b with
    | .done (buffer, b') => .served request.side buffer b'
    | .failed e => .refused e request.buffer b
    | .blocked =>
      let inner := runAll group b
      .afterWait request.side inner.1 (transfer request waits inner.2)

/-- Makes calls one after the other; the steps and the ring at the end. -/
def runAll : List (Call α) → BlockingRing α → List (Step α) × BlockingRing α
  | [], b => ([], b)
  | c :: cs, b =>
    let step := c.run b
    let rest := runAll cs step.after
    (step :: rest.1, rest.2)

end

end BlockingRing

end BlockFlow
