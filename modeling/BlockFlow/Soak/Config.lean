import BlockFlow.Decimal.Layout
import BlockFlow.DoubleBuffer.Config
import BlockFlow.DriftingRing.Config

/-!
# Settings of a soak run

A soak run drives a double buffer behind a drifting ring for a number of blocks. It refuses more
settings than its parts do: with a delay below the minimum the stages would wait for each other
for ever.
-/

set_option autoImplicit false

namespace BlockFlow

/-- The settings of a soak run. The sizes of the drifting ring are in frames. -/
structure SoakConfig where
  doubleBuffer : DoubleBufferConfig := {}
  drift : DriftConfig := {}
  /-- Outer blocks to process. -/
  blocks : Nat := 2000
  /-- Rate of the producer over the rate of the consumer. -/
  producerRateRatio : Float := 1.0005
  /-- Outer blocks from one published gain to the next. -/
  configInterval : Nat := 100
  /-- Snapshots of the counters that can wait for the monitor. -/
  statsCapacity : Nat := 64
  deriving BEq, Repr

namespace SoakConfig

/-- A number of frames in samples of so many channels. -/
def scale (channels frames : Nat) : Except FifoError Nat :=
  match checkedMul? frames channels with
  | some samples => .ok samples
  | none =>
    .error (.config s!"drift size of {frames} frames overflows with {channels} channels")

/-- The settings of the drifting ring in interleaved samples. -/
def driftInSamples (c : SoakConfig) : Except FifoError DriftConfig :=
  let channels := c.doubleBuffer.inputChannels
  match scale channels c.drift.minFillCount with
  | .error e => .error e
  | .ok minFillCount =>
    match scale channels c.drift.desiredFillCount with
    | .error e => .error e
    | .ok desiredFillCount =>
      match scale channels c.drift.maxFillCount with
      | .error e => .error e
      | .ok maxFillCount => .ok { c.drift with minFillCount, desiredFillCount, maxFillCount }

/-- Refuses a delay with which the stages would wait for each other. -/
def validateDelay (c : SoakConfig) : Outcome :=
  let minimum := c.doubleBuffer.minimumDelay
  if c.doubleBuffer.delay < minimum then
    .error (.config s!"delay {c.doubleBuffer.delay} is below the stall-free minimum {minimum}")
  else
    .ok ()

/-- Refuses a rate ratio that is not a positive number. -/
def validateRatio (c : SoakConfig) : Outcome :=
  if c.producerRateRatio.isFinite && 0 < c.producerRateRatio then
    .ok ()
  else
    .error (.config
      s!"producer rate ratio must be positive, got {spokenFloat c.producerRateRatio}")

/-- Refuses an interval or a capacity of zero. -/
def validateCounts (c : SoakConfig) : Outcome :=
  if c.configInterval = 0 ∨ c.statsCapacity = 0 then
    .error (.config "config interval and stats channel capacity must be positive")
  else
    .ok ()

/-- Refuses settings with which a soak run could not be made or would not end. Of several faults
the first is reported, in this order. -/
def validate (c : SoakConfig) : Outcome := do
  c.doubleBuffer.validate
  c.validateDelay
  c.drift.validate
  discard c.driftInSamples
  c.validateRatio
  c.validateCounts

end SoakConfig

end BlockFlow
