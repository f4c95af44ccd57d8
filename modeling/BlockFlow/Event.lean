import BlockFlow.Error

/-!
# Events that are logged

Everything the library reports while it runs, as data. `LogEvent.message` is the wording and
`LogEvent.fields` the values that go with it.
-/

set_option autoImplicit false

namespace BlockFlow

/-- How important an event is. -/
inductive LogLevel where
  | debug
  | info
  | warn
  | error
  deriving DecidableEq, Repr

/-- The name of the level. -/
def LogLevel.name : LogLevel → String
  | debug => "DEBUG"
  | info => "INFO"
  | warn => "WARN"
  | error => "ERROR"

/-- A value logged with an event. -/
inductive LogValue where
  | number (n : Nat)
  | text (s : String)
  deriving DecidableEq, Repr

/-- The events of the library. -/
inductive LogEvent where
  /-- A party enters a drifting ring for the first time since it stopped. -/
  | driftStarting (desiredFillCount : Nat)
  /-- A party had more xruns in succession than its limit. -/
  | tooManyXruns (side : Side) (writerTotal readerTotal : Nat)
  /-- A drifting ring stopped. -/
  | driftStopped
  /-- The ring under a drifting ring refused a transfer that should have fitted. -/
  | driftOutOfStep (side : Side) (error : FifoError)
  /-- A party of a blocking ring is armed with an error. -/
  | arming (side : Side) (error : FifoError)
  /-- A double buffer is built with a delay that may stall its inner stage. -/
  | delayTooSmall (delay minimum : Nat)
  /-- The inner stage of a double buffer is told to fail. -/
  | provokingInner (error : FifoError)
  /-- The outer stage of a double buffer is told to fail. -/
  | provokingOuter (error : FifoError)
  /-- A push freed configurations that the consumer had left behind. -/
  | reclaimed (freed : Nat)
  deriving DecidableEq, Repr

namespace LogEvent

/-- The level of the event. -/
def level : LogEvent → LogLevel
  | driftStarting _ => .debug
  | tooManyXruns .. => .warn
  | driftStopped => .debug
  | driftOutOfStep .. => .error
  | arming .. => .info
  | delayTooSmall .. => .warn
  | provokingInner _ => .info
  | provokingOuter _ => .info
  | reclaimed _ => .debug

/-- The text of the event. -/
def message : LogEvent → String
  | driftStarting _ => "drifting FIFO starting"
  | tooManyXruns .. => "too many xruns in succession, stopping drifting FIFO"
  | driftStopped => "drifting FIFO stopped"
  | driftOutOfStep .writer e => "drifting FIFO bookkeeping out of sync on write: " ++ e.message
  | driftOutOfStep .reader e => "drifting FIFO bookkeeping out of sync on read: " ++ e.message
  | arming .. => "arming FIFO cancellation"
  | delayTooSmall .. => "double buffer delay too small, inner stage may stall"
  | provokingInner _ => "provoking inner stage error"
  | provokingOuter _ => "provoking outer stage error"
  | reclaimed _ => "reclaimed abandoned configurations"

/-- The values logged with the event, by name. -/
def fields : LogEvent → List (String × LogValue)
  | driftStarting desired => [("desired_fill_count", .number desired)]
  | tooManyXruns side writerTotal readerTotal =>
    [("side", .text side.name), ("writer_xruns_total", .number writerTotal),
      ("reader_xruns_total", .number readerTotal)]
  | driftStopped => []
  | driftOutOfStep .. => []
  | arming side e => [("side", .text side.name), ("error", .text e.message)]
  | delayTooSmall delay minimum => [("delay", .number delay), ("minimum", .number minimum)]
  | provokingInner e => [("error", .text e.message)]
  | provokingOuter e => [("error", .text e.message)]
  | reclaimed freed => [("freed", .number freed)]

end LogEvent

end BlockFlow
