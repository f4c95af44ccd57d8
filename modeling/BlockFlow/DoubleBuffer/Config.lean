import BlockFlow.Error
import BlockFlow.Size

/-!
# Sizes of a double buffer
-/

set_option autoImplicit false

namespace BlockFlow

/-- The greatest common divisor of two numbers, by Euclid's loop. -/
@[semireducible]
def euclid (a b : Nat) : Nat :=
  if b = 0 then a else euclid b (a % b)
termination_by b
decreasing_by exact Nat.mod_lt a (Nat.pos_of_ne_zero ‹_›)

/-- The sizes of a double buffer, in frames. A frame has one sample for each channel. -/
structure DoubleBufferConfig where
  /-- Most frames the outer stage moves at a time. -/
  outerSize : Nat := 256
  /-- Frames the inner stage moves at a time. -/
  innerSize : Nat := 512
  /-- Added latency. -/
  delay : Nat := 256
  inputChannels : Nat := 1
  outputChannels : Nat := 1
  deriving DecidableEq, Repr

namespace DoubleBufferConfig

/-- The smallest delay with which the stages never stall in steady state, once the sizes are
validated. -/
def minimumDelay (c : DoubleBufferConfig) : Nat :=
  c.innerSize - euclid c.innerSize c.outerSize

/-- The smallest delay with which the stages never stall. It does not exist for an inner size of
zero beside a positive outer size, where the difference would be negative. -/
def minimumDelay? (c : DoubleBufferConfig) : Option Nat :=
  if euclid c.innerSize c.outerSize ≤ c.innerSize then some c.minimumDelay else none

/-- Frames each FIFO of the double buffer can hold. -/
def fifoSize (c : DoubleBufferConfig) : Except FifoError Nat :=
  match checkedAdd? (max c.outerSize c.innerSize) c.delay with
  | some size => .ok size
  | none => .error (.construction s!"double buffer delay {c.delay} overflows the FIFO size")

/-- Refuses sizes that a double buffer cannot work with at all. A delay below the minimum is
none of them. -/
def validate (c : DoubleBufferConfig) : Outcome :=
  if c.outerSize = 0 ∨ c.innerSize = 0 then
    .error (.config
      s!"block sizes must be positive (outer {c.outerSize}, inner {c.innerSize})")
  else if c.inputChannels = 0 ∨ c.outputChannels = 0 then
    .error (.config
      s!"channel counts must be positive (input {c.inputChannels}, output {c.outputChannels})")
  else
    match c.fifoSize with
    | .error e => .error e
    | .ok size =>
      match checkedMul? size (max c.inputChannels c.outputChannels) with
      | some _ => .ok ()
      | none => .error (.construction "double buffer FIFO size overflows")

/-- The sizes as a written record. -/
def describe (c : DoubleBufferConfig) : String :=
  Text.record "DoubleBufferConfig"
    [("outer_size", toString c.outerSize), ("inner_size", toString c.innerSize),
      ("delay", toString c.delay), ("input_channels", toString c.inputChannels),
      ("output_channels", toString c.outputChannels)]

end DoubleBufferConfig

end BlockFlow
