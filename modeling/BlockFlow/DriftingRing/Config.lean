import BlockFlow.Error

/-!
# Settings and counters of a drifting ring
-/

set_option autoImplicit false

namespace BlockFlow

/-- Xruns in succession that a party may have before the ring stops, unless set otherwise. -/
def defaultXrunLimit : UInt32 := 10

/-- The settings of a drifting ring, in elements. -/
structure DriftConfig where
  /-- Reads leave at least this many elements. -/
  minFillCount : Nat := 0
  /-- Silence owed to the reader at every start. -/
  desiredFillCount : Nat := 256
  /-- Capacity. -/
  maxFillCount : Nat := 1024
  /-- Xruns in succession that the writer may have. -/
  maxWriterXruns : UInt32 := defaultXrunLimit
  /-- Xruns in succession that the reader may have. -/
  maxReaderXruns : UInt32 := defaultXrunLimit
  deriving DecidableEq, Repr

/-- Refuses settings other than `minFillCount ≤ desiredFillCount ≤ maxFillCount`. -/
def DriftConfig.validate (c : DriftConfig) : Outcome :=
  if c.desiredFillCount < c.minFillCount then
    .error (.construction
      s!"desired fill count {c.desiredFillCount} is below minimum fill count {c.minFillCount}")
  else if c.maxFillCount < c.desiredFillCount then
    .error (.construction
      s!"desired fill count {c.desiredFillCount} exceeds capacity {c.maxFillCount}")
  else
    .ok ()

theorem DriftConfig.validate_eq_ok_iff {c : DriftConfig} : c.validate = .ok () ↔
    c.minFillCount ≤ c.desiredFillCount ∧ c.desiredFillCount ≤ c.maxFillCount := by
  rw [← Nat.not_lt, ← Nat.not_lt (a := c.maxFillCount), validate]
  split
  · next hlow => simp [hlow]
  · next hlow =>
    split
    · next hhigh => simp [hhigh]
    · next hhigh => simp [hlow, hhigh]

/-- A copy of the counters of a drifting ring. -/
structure XrunStats where
  writerTotal : UInt64 := 0
  readerTotal : UInt64 := 0
  writerSinceStart : UInt64 := 0
  readerSinceStart : UInt64 := 0
  writerInSuccession : UInt32 := 0
  readerInSuccession : UInt32 := 0
  running : Bool := false
  startupZeros : Nat := 0
  deriving DecidableEq, Repr

end BlockFlow
