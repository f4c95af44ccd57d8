import BlockFlow.Proofs.BoundedFifo
import BlockFlow.Proofs.DoubleBuffer.Config
import BlockFlow.Proofs.DoubleBuffer.Transfers

/-!
# Validated sizes fit machine words

Validation checks one sum and one product: that the frames of a FIFO fit a word, and so do their
samples, with the channels of the wider lane. Every other number of samples that a double buffer
computes is for no more frames and no more channels, so that it fits as well (`NeverWraps`). The
frames stored in the output FIFO at first are no more than it holds, so that construction fails
after validation only where one of the two FIFOs cannot be made (`Built`). Both are put together in
`sizes_of_validate`.
-/

set_option autoImplicit false

namespace BlockFlow

universe u

namespace DoubleBufferConfig

variable {config : DoubleBufferConfig} {size : Nat}

theorem channels_le_max (config : DoubleBufferConfig) (lane : Lane) :
    config.channels lane ≤ max config.inputChannels config.outputChannels := by
  cases lane with
  | input => exact Nat.le_max_left ..
  | output => exact Nat.le_max_right ..

theorem channels_pos (h : config.validate = .ok ()) (lane : Lane) : 0 < config.channels lane := by
  obtain ⟨-, -, hinput, houtput⟩ := pos_of_validate h
  cases lane with
  | input => exact hinput
  | output => exact houtput

/-- Sizes of which no number that a double buffer computes from them needs a larger word. -/
structure NeverWraps (config : DoubleBufferConfig) (size : Nat) : Prop where
  /-- The frames that a FIFO holds. -/
  fifoSize : config.fifoSize = .ok size
  /-- The divisor is no larger than the inner size from which it is subtracted. -/
  minimumDelay : config.minimumDelay? = some config.minimumDelay
  /-- The samples that a FIFO holds. -/
  fifo : ∀ lane, size * config.channels lane < wordBound
  /-- The samples stored in the output FIFO at first. -/
  silence : config.delay * config.channels .output < wordBound
  /-- The samples of an outer call, for any number of frames that is let through. -/
  outer : ∀ frames, ¬ config.outerSize < frames → ∀ lane, frames * config.channels lane < wordBound
  /-- The samples of an inner call. -/
  inner : ∀ lane, config.innerSize * config.channels lane < wordBound
  /-- Samples are divided into frames by a positive number. -/
  divides : ∀ lane, 0 < config.channels lane

/-- The subtraction in the minimum delay is one of natural numbers. -/
theorem minimumDelay?_of_pos (hinner : 0 < config.innerSize) :
    config.minimumDelay? = some config.minimumDelay := by
  rw [minimumDelay?, euclid_eq_gcd]
  exact if_pos (Nat.gcd_le_left config.outerSize hinner)

theorem neverWraps_of_validate (h : config.validate = .ok ()) :
    ∃ size, config.NeverWraps size := by
  obtain ⟨size, hsize, -, hsamples⟩ := fits_of_validate h
  obtain ⟨-, hinner, -, -⟩ := pos_of_validate h
  have hframes := fifoSize_eq_ok hsize
  -- no more frames than a FIFO holds have no more samples than the wider lane needs for it
  have hfits (frames : Nat) (hle : frames ≤ size) (lane : Lane) :
      frames * config.channels lane < wordBound :=
    Nat.lt_of_le_of_lt (Nat.mul_le_mul hle (config.channels_le_max lane)) hsamples
  exact ⟨size,
    { fifoSize := hsize
      minimumDelay := minimumDelay?_of_pos hinner
      fifo := hfits size le_rfl
      silence := hfits config.delay (by omega) .output
      outer := fun frames hlet => hfits frames (by omega)
      inner := hfits config.innerSize (by omega)
      divides := channels_pos h }⟩

end DoubleBufferConfig

/-! ## Construction -/

namespace DoubleBuffer

/-- How a double buffer with FIFOs for `size` frames comes about, or why it does not: only because
one of the FIFOs cannot be made. -/
inductive Built [Memory] (F : Type u → Type u) [SharedFifo F] {α : Type u}
    (config : DoubleBufferConfig) (size : Nat) (fill : α) :
    Except FifoError (DoubleBuffer F α) → Prop where
  | noInput {e : FifoError}
      (hinput : SharedFifo.make (F := F) (size * config.inputChannels) fill = .error e) :
      Built F config size fill (.error e)
  | noOutput {input : F α} {e : FifoError}
      (hinput : SharedFifo.make (size * config.inputChannels) fill = .ok input)
      (houtput : SharedFifo.make (F := F) (size * config.outputChannels) fill = .error e) :
      Built F config size fill (.error e)
  | filled {input empty output : F α}
      (hinput : SharedFifo.make (size * config.inputChannels) fill = .ok input)
      (houtput : SharedFifo.make (size * config.outputChannels) fill = .ok empty)
      (hpush : SharedFifo.tryPush empty
        (List.replicate (config.delay * config.outputChannels) fill) = .done output) :
      Built F config size fill (.ok
        { config, fifoSize := size, input, output, innerError := none, outerError := none })

section

variable {F : Type u → Type u} [SharedFifo F] [LawfulFifo F] [BoundedFifo F] {α : Type u}
  {config : DoubleBufferConfig} {size : Nat}

/-- There is space for the first frames in a FIFO that is larger by a whole block. -/
theorem tryPush_silence [Memory] (hsize : config.fifoSize = .ok size) {fill : α} {empty : F α}
    (hempty : SharedFifo.make (size * config.outputChannels) fill = .ok empty) :
    ∃ output, SharedFifo.tryPush empty
      (List.replicate (config.delay * config.outputChannels) fill) = .done output := by
  refine BoundedFifo.tryPush_of_le (LawfulFifo.valid_make hempty) ?_
  rw [List.length_replicate, BoundedFifo.availableSpace_make hempty,
    DoubleBufferConfig.fifoSize_eq_ok hsize]
  exact Nat.mul_le_mul_right _ (Nat.le_add_left ..)

theorem built_of_validate [Memory] (hvalidate : config.validate = .ok ())
    (hsize : config.fifoSize = .ok size) (fill : α) :
    Built F config size fill (make config fill) := by
  simp only [make, hvalidate, hsize]
  cases hinput : SharedFifo.make (F := F) (size * config.inputChannels) fill with
  | error e => exact .noInput hinput
  | ok input =>
    cases hempty : SharedFifo.make (F := F) (size * config.outputChannels) fill with
    | error e => exact .noOutput hinput hempty
    | ok empty =>
      obtain ⟨output, hpush⟩ := tryPush_silence hsize hempty
      simp only [hpush]
      exact .filled hinput hempty hpush

end

/-- Sizes that are validated never need a larger word, up to the largest sizes that are, and a
double buffer of either kind is made with them unless one of its FIFOs cannot be. -/
theorem sizes_of_validate [Memory] {config : DoubleBufferConfig}
    (hvalidate : config.validate = .ok ()) :
    ∃ size, config.NeverWraps size ∧ ∀ {α : Type u} (fill : α),
      Built LockFreeRing config size fill (make config fill) ∧
        Built BlockingRing config size fill (make config fill) := by
  obtain ⟨size, hnever⟩ := DoubleBufferConfig.neverWraps_of_validate hvalidate
  exact ⟨size, hnever, fun fill => ⟨built_of_validate hvalidate hnever.fifoSize fill,
    built_of_validate hvalidate hnever.fifoSize fill⟩⟩

/-- With three input channels a FIFO holds at most a third of the largest word, which is a multiple
of three, in frames. The sizes with which it would hold that many are validated, and with one more
frame of delay they are not. With a small delay the double buffer is made. -/
theorem sizes_of_validate_largest :
    let largest : DoubleBufferConfig := ⟨3, 5, 6148914691236517200, 3, 2⟩
    let small : DoubleBufferConfig := ⟨3, 5, 2, 3, 2⟩
    largest.validate = .ok () ∧ { largest with delay := largest.delay + 1 }.validate ≠ .ok () ∧
      largest.NeverWraps 6148914691236517205 ∧
      Built LockFreeRing largest 6148914691236517205 0 (make largest 0) ∧
      small.validate = .ok () ∧ small.NeverWraps 7 ∧
      ∃ db : DoubleBuffer BlockingRing Nat, make small 0 = .ok db ∧
        Built BlockingRing small 7 0 (.ok db) := by
  intro largest small
  have hlargest : largest.validate = .ok () := by
    simp [largest, DoubleBufferConfig.validate, DoubleBufferConfig.fifoSize, checkedAdd?,
      checkedMul?, wordBound]
  have hlarger : { largest with delay := largest.delay + 1 }.validate ≠ .ok () := by
    simp [largest, DoubleBufferConfig.validate, DoubleBufferConfig.fifoSize, checkedAdd?,
      checkedMul?, wordBound]
  have hlargestSize : largest.fifoSize = .ok 6148914691236517205 := by
    simp [largest, DoubleBufferConfig.fifoSize, checkedAdd?, wordBound]
  have hsmall : small.validate = .ok () := rfl
  have hsmallSize : small.fifoSize = .ok 7 := rfl
  obtain ⟨n, hnever, hbuilt⟩ := sizes_of_validate hlargest
  obtain ⟨m, hneverSmall, hbuiltSmall⟩ := sizes_of_validate hsmall
  cases hnever.fifoSize.symm.trans hlargestSize
  cases hneverSmall.fifoSize.symm.trans hsmallSize
  obtain ⟨db, hdb⟩ : ∃ db : DoubleBuffer BlockingRing Nat, make small 0 = .ok db := ⟨_, rfl⟩
  exact ⟨hlargest, hlarger, hnever, (hbuilt 0).1, hsmall, hneverSmall, db, hdb,
    hdb ▸ (hbuiltSmall 0).2⟩

end DoubleBuffer

end BlockFlow
