import BlockFlow.Proofs.BlockingRing.Queue
import BlockFlow.Proofs.DoubleBuffer.Config
import BlockFlow.Proofs.DoubleBuffer.Transfers
import BlockFlow.Proofs.DriftingRing.Stream
import BlockFlow.Soak.Run

/-!
# The sizes of a validated run

Every number of samples that a run computes from validated settings fits a machine word
(`exists_sized`). A FIFO has one slot more than it holds elements, and no check counts that
slot: settings are accepted with which a FIFO would hold as many elements as the largest word says,
and its number of slots is no word any more. A run with validated settings starts, or there is no
memory for the slots of one of its three FIFOs, or one of them is of that size
(`start_of_validate`).
-/

set_option autoImplicit false

namespace BlockFlow

/-! ## Validation -/

namespace SoakConfig

variable {c : SoakConfig}

/-- A number of frames is scaled if its samples fit a word. -/
theorem scale_eq_ok {channels frames samples : Nat} :
    scale channels frames = .ok samples ↔ frames * channels = samples ∧ samples < wordBound := by
  rw [← checkedMul?_eq_some, scale]
  cases checkedMul? frames channels <;> simp

/-- The sizes of the drifting ring in samples. Each of them fits a word. -/
theorem driftInSamples_eq_ok {drift : DriftConfig} (h : c.driftInSamples = .ok drift) :
    drift = { c.drift with
        minFillCount := c.drift.minFillCount * c.doubleBuffer.inputChannels
        desiredFillCount := c.drift.desiredFillCount * c.doubleBuffer.inputChannels
        maxFillCount := c.drift.maxFillCount * c.doubleBuffer.inputChannels } ∧
      drift.minFillCount < wordBound ∧ drift.desiredFillCount < wordBound ∧
      drift.maxFillCount < wordBound := by
  unfold driftInSamples at h
  cases hmin : scale c.doubleBuffer.inputChannels c.drift.minFillCount with
  | error e =>
    simp only [hmin] at h
    cases h
  | ok minFillCount =>
    cases hdesired : scale c.doubleBuffer.inputChannels c.drift.desiredFillCount with
    | error e =>
      simp only [hmin, hdesired] at h
      cases h
    | ok desiredFillCount =>
      cases hmax : scale c.doubleBuffer.inputChannels c.drift.maxFillCount with
      | error e =>
        simp only [hmin, hdesired, hmax] at h
        cases h
      | ok maxFillCount =>
        simp only [hmin, hdesired, hmax] at h
        cases h
        obtain ⟨rfl, hminLt⟩ := scale_eq_ok.1 hmin
        obtain ⟨rfl, hdesiredLt⟩ := scale_eq_ok.1 hdesired
        obtain ⟨rfl, hmaxLt⟩ := scale_eq_ok.1 hmax
        exact ⟨rfl, hminLt, hdesiredLt, hmaxLt⟩

theorem validateDelay_eq_ok :
    c.validateDelay = .ok () ↔ c.doubleBuffer.minimumDelay ≤ c.doubleBuffer.delay := by
  rw [validateDelay]
  by_cases hless : c.doubleBuffer.delay < c.doubleBuffer.minimumDelay
  · simp [hless]
  · simp [hless, Nat.le_of_not_lt hless]

/-- What validated settings have passed. -/
theorem validate_eq_ok (h : c.validate = .ok ()) :
    c.doubleBuffer.validate = .ok () ∧ c.validateDelay = .ok () ∧ c.drift.validate = .ok () ∧
      (∃ drift, c.driftInSamples = .ok drift) ∧ c.validateRatio = .ok () ∧
      c.validateCounts = .ok () := by
  simp only [validate, bind_eq_ok] at h
  obtain ⟨⟨⟩, hbuffer, ⟨⟩, hdelay, ⟨⟩, hdrift, ⟨⟩, hsamples, ⟨⟩, hratio, hcounts⟩ := h
  refine ⟨hbuffer, hdelay, hdrift, ?_, hratio, hcounts⟩
  cases h : c.driftInSamples with
  | error e =>
    rw [h] at hsamples
    cases hsamples
  | ok drift => exact ⟨drift, rfl⟩

end SoakConfig

/-! ## Construction -/

/-- A double buffer with validated sizes is refused only if one of its FIFOs is: the frames that are
stored at first always fit. -/
theorem DoubleBuffer.make_of_validate [Memory] {α : Type} {config : DoubleBufferConfig} {size : Nat}
    (hvalidate : config.validate = .ok ()) (hsize : config.fifoSize = .ok size) (fill : α) :
    (DoubleBuffer.make config fill : Except FifoError (DoubleBuffer BlockingRing α)) = do
      let input ← BlockingRing.make (size * config.inputChannels) fill
      let empty ← BlockingRing.make (size * config.outputChannels) fill
      let silence := List.replicate (config.delay * config.outputChannels) fill
      return { config, fifoSize := size, input, output := empty.append silence,
               innerError := none, outerError := none } := by
  simp only [DoubleBuffer.make, hvalidate, hsize, SharedFifo.make, SharedFifo.tryPush]
  cases hinput : BlockingRing.make (size * config.inputChannels) fill with
  | error e => rfl
  | ok input =>
    cases hempty : BlockingRing.make (size * config.outputChannels) fill with
    | error e => rfl
    | ok empty =>
      obtain ⟨ring, hring, hnew⟩ := BlockingRing.make_eq_ok hempty
      have hvalid : empty.ring.Valid := by
        rw [hnew]
        exact Ring.Valid.of_make hring
      have hfits : (List.replicate (config.delay * config.outputChannels) fill).length ≤
          empty.availableSpace := by
        rw [hnew, List.length_replicate]
        show _ ≤ ring.capacity - ring.fillCount
        rw [Ring.fillCount_of_make hring, Ring.capacity_of_make hring,
          DoubleBufferConfig.fifoSize_eq_ok hsize]
        exact Nat.mul_le_mul_right _ (Nat.le_add_left ..)
      simp only [BlockingRing.tryPush_of_le hvalid hfits]
      rfl

namespace Soak

variable {c : SoakConfig} {s : State}

/-- A part of a run that has a result has it in the run. -/
theorem liftM_eq_ok {α : Type} {x : Except FifoError α} {a : α} :
    (liftM x : Except Halt α) = .ok a ↔ x = .ok a := by
  cases x with
  | error e =>
    constructor <;>
      · intro h
        cases h
  | ok b =>
    constructor <;>
      · intro h
        cases h
        rfl

/-- A run starts where its parts are built and there is memory for the channel of snapshots. -/
theorem start_eq_ok_iff [Memory] :
    start c = .ok s ↔ build c = .ok s ∧ Memory.hasChannel c.statsCapacity = true := by
  unfold start
  cases hbuild : build c with
  | error e =>
    constructor
    · intro h
      cases h
    · rintro ⟨h, -⟩
      cases h
  | ok built =>
    cases hchannel : Memory.hasChannel c.statsCapacity with
    | false =>
      constructor
      · intro h
        cases h
      · rintro ⟨-, h⟩
        cases h
    | true =>
      constructor
      · intro h
        cases h
        exact ⟨rfl, rfl⟩
      · rintro ⟨h, -⟩
        cases h
        rfl

/-- A run is aborted only for want of a channel. -/
theorem start_of_build_ok [Memory] (h : build c = .ok s)
    (hchannel : Memory.hasChannel c.statsCapacity = false) : start c = .error .aborted := by
  rw [start, h, hchannel]
  rfl

theorem start_of_build_error [Memory] {e : FifoError} (h : build c = .error e) :
    start c = .error (.failed e) := by
  rw [start, h]
  rfl

/-- The parts of a run at its start. -/
theorem start_eq_ok [Memory] (h : start c = .ok s) :
    c.validate = .ok () ∧ ∃ buffer drift ring,
      DoubleBuffer.make c.doubleBuffer 0 = .ok buffer ∧ c.driftInSamples = .ok drift ∧
        DriftingRing.make drift 0 = .ok ring ∧
        s = { drift := ring, pipeline := .start buffer .start, inbox := {}, blocks := 0,
              produced := 0, version := 0, firstIn := none, firstOut := none } := by
  have hbuild := (start_eq_ok_iff.1 h).1
  simp only [build, bind_eq_ok] at hbuild
  obtain ⟨⟨⟩, hvalidate, buffer, hbuffer, drift, hdrift, ring, hring, hs⟩ := hbuild
  exact ⟨hvalidate, buffer, drift, ring, hbuffer, hdrift, hring, (Except.ok.inj hs).symm⟩

/-- A run with validated settings is built from a double buffer and a ring with its sizes in
samples. -/
theorem build_eq [Memory] {drift : DriftConfig} (hvalidate : c.validate = .ok ())
    (hdrift : c.driftInSamples = .ok drift) :
    build c = do
      let buffer ← DoubleBuffer.make c.doubleBuffer 0
      let ring ← DriftingRing.make drift 0
      return {
        drift := ring, pipeline := .start buffer .start, inbox := {}, blocks := 0, produced := 0,
        version := 0, firstIn := none, firstOut := none } := by
  rw [build, hvalidate, hdrift]
  rfl

/-- The capacities of the three FIFOs of a run, in samples. -/
def capacities (c : SoakConfig) (size : Nat) (drift : DriftConfig) : List Nat :=
  [size * c.doubleBuffer.inputChannels, size * c.doubleBuffer.outputChannels, drift.maxFillCount]

/-- The sizes that a run computes: `size` frames for each FIFO of the double buffer, and `drift` for
the ring in samples. -/
structure Sized (c : SoakConfig) (size : Nat) (drift : DriftConfig) : Prop where
  fifoSize : c.doubleBuffer.fifoSize = .ok size
  driftInSamples : c.driftInSamples = .ok drift
  size_lt : size < wordBound
  delay_lt : c.doubleBuffer.delay * c.doubleBuffer.outputChannels < wordBound
  minFillCount_lt : drift.minFillCount < wordBound
  desiredFillCount_lt : drift.desiredFillCount < wordBound
  capacity_lt : ∀ n ∈ capacities c size drift, n < wordBound
  min_le_desired : drift.minFillCount ≤ drift.desiredFillCount
  desired_le_max : drift.desiredFillCount ≤ drift.maxFillCount

/-- Validated settings have sizes, and each of them fits a word. -/
theorem exists_sized (h : c.validate = .ok ()) : ∃ size drift, Sized c size drift := by
  obtain ⟨hbuffer, -, hvalid, ⟨drift, hdrift⟩, -⟩ := SoakConfig.validate_eq_ok h
  obtain ⟨size, hsize, hsizeLt, hproduct⟩ := DoubleBufferConfig.fits_of_validate hbuffer
  obtain ⟨hsamples, hmin, hdesired, hmax⟩ := SoakConfig.driftInSamples_eq_ok hdrift
  obtain ⟨hlow, hhigh⟩ := DriftConfig.validate_eq_ok_iff.1 hvalid
  have hinput := Nat.lt_of_le_of_lt (Nat.mul_le_mul_left size (Nat.le_max_left ..)) hproduct
  have houtput := Nat.lt_of_le_of_lt (Nat.mul_le_mul_left size (Nat.le_max_right ..)) hproduct
  have hdelay : c.doubleBuffer.delay ≤ size := by
    rw [DoubleBufferConfig.fifoSize_eq_ok hsize]
    exact Nat.le_add_left ..
  refine ⟨size, drift, ?_⟩
  exact
    { fifoSize := hsize
      driftInSamples := hdrift
      size_lt := hsizeLt
      delay_lt := Nat.lt_of_le_of_lt (Nat.mul_le_mul_right _ hdelay) houtput
      minFillCount_lt := hmin
      desiredFillCount_lt := hdesired
      capacity_lt := by
        intro n hn
        simp only [capacities, List.mem_cons, List.not_mem_nil, or_false] at hn
        rcases hn with rfl | rfl | rfl
        · exact hinput
        · exact houtput
        · exact hmax
      min_le_desired := by
        rw [hsamples]
        exact Nat.mul_le_mul_right _ hlow
      desired_le_max := by
        rw [hsamples]
        exact Nat.mul_le_mul_right _ hhigh }

/-- The parts of a run with validated settings are built, or it is refused for one of its FIFOs that
cannot be stored. -/
theorem build_of_sized [Memory] {size : Nat} {drift : DriftConfig} (hvalidate : c.validate = .ok ())
    (h : Sized c size drift) :
    ((∀ n ∈ capacities c size drift, Ring.Storable n) ∧ ∃ s, build c = .ok s) ∨
      ∃ n ∈ capacities c size drift, ¬ Ring.Storable n ∧
        build c = .error (Ring.storageError n) := by
  have hbuffer := (SoakConfig.validate_eq_ok hvalidate).1
  have hdrift : drift.validate = .ok () :=
    DriftConfig.validate_eq_ok_iff.2 ⟨h.min_le_desired, h.desired_le_max⟩
  have hbuild := build_eq hvalidate h.driftInSamples
  rw [DoubleBuffer.make_of_validate hbuffer h.fifoSize] at hbuild
  simp only [DriftingRing.make_of_validate hdrift] at hbuild
  by_cases hin : Ring.Storable (size * c.doubleBuffer.inputChannels)
  · obtain ⟨input, hinput⟩ := BlockingRing.make_of_storable hin 0
    by_cases hout : Ring.Storable (size * c.doubleBuffer.outputChannels)
    · obtain ⟨output, houtput⟩ := BlockingRing.make_of_storable hout 0
      by_cases hmax : Ring.Storable drift.maxFillCount
      · obtain ⟨ring, hring⟩ := Ring.make_of_storable hmax 0
        rw [hinput, houtput, hring] at hbuild
        exact .inl ⟨by simp [capacities, hin, hout, hmax], _, hbuild⟩
      · rw [hinput, houtput, Ring.make_of_not_storable hmax] at hbuild
        exact .inr ⟨drift.maxFillCount, by simp [capacities], hmax, hbuild⟩
    · rw [hinput, BlockingRing.make_of_not_storable hout] at hbuild
      exact .inr ⟨_, by simp [capacities], hout, hbuild⟩
  · rw [BlockingRing.make_of_not_storable hin] at hbuild
    exact .inr ⟨_, by simp [capacities], hin, hbuild⟩

/-- The ways in which the start of a run can end, once `size` and `drift` are the sizes that it
computes. -/
inductive Started [Memory] (c : SoakConfig) (size : Nat) (drift : DriftConfig) :
    Except Halt State → Prop where
  | starts {s : State} (hstored : ∀ n ∈ capacities c size drift, Ring.Storable n)
      (hchannel : Memory.hasChannel c.statsCapacity = true) : Started c size drift (.ok s)
  /-- There is no memory for the slots of a FIFO, whose number is a word. -/
  | noSlots {n : Nat} (hn : n ∈ capacities c size drift) (hword : n + 1 < wordBound)
      (hmemory : Memory.hasSlots (n + 1) = false) :
      Started c size drift (.error (.failed (.outOfMemory n)))
  /-- There is no memory for the channel of snapshots. -/
  | noChannel (hstored : ∀ n ∈ capacities c size drift, Ring.Storable n)
      (hchannel : Memory.hasChannel c.statsCapacity = false) :
      Started c size drift (.error .aborted)
  /-- A FIFO would hold as many samples as the largest word says. -/
  | noCursors {n : Nat} (hn : n ∈ capacities c size drift) (hlargest : n + 1 = wordBound) :
      Started c size drift (.error (.failed (.cursorOverflow n)))

theorem started_of_sized [Memory] {size : Nat} {drift : DriftConfig}
    (hvalidate : c.validate = .ok ()) (h : Sized c size drift) :
    Started c size drift (start c) := by
  rcases build_of_sized hvalidate h with ⟨hstored, built, hbuilt⟩ | ⟨n, hn, hnot, hrefused⟩
  · cases hchannel : Memory.hasChannel c.statsCapacity with
    | false =>
      rw [start_of_build_ok hbuilt hchannel]
      exact .noChannel hstored hchannel
    | true =>
      rw [start_eq_ok_iff.2 ⟨hbuilt, hchannel⟩]
      exact .starts hstored hchannel
  · rw [start_of_build_error hrefused, Ring.storageError]
    by_cases hword : n + 1 < wordBound
    · rw [if_pos hword]
      exact .noSlots hn hword (Bool.eq_false_iff.2 fun hmemory => hnot ⟨hword, hmemory⟩)
    · rw [if_neg hword]
      exact .noCursors hn (Nat.le_antisymm (h.capacity_lt n hn) (Nat.le_of_not_lt hword))

/-- With memory for all its FIFOs and for its channel a run starts. -/
theorem Started.exists_eq_ok [Memory] {size : Nat} {drift : DriftConfig} {r : Except Halt State}
    (h : Started c size drift r) (hstored : ∀ n ∈ capacities c size drift, Ring.Storable n)
    (hchannel : Memory.hasChannel c.statsCapacity = true) : ∃ s, r = .ok s := by
  cases h with
  | starts => exact ⟨_, rfl⟩
  | noSlots hn hword hmemory => simp [(hstored _ hn).2] at hmemory
  | noChannel _ hnone => simp [hchannel] at hnone
  | noCursors hn hlargest => exact absurd (hstored _ hn).1 (Nat.not_lt.2 hlargest.ge)

/-- A run with a FIFO that cannot be stored is refused for such a FIFO. -/
theorem Started.exists_eq_error [Memory] {size : Nat} {drift : DriftConfig} {r : Except Halt State}
    (h : Started c size drift r) {n : Nat} (hn : n ∈ capacities c size drift)
    (hnot : ¬ Ring.Storable n) :
    ∃ n ∈ capacities c size drift, ¬ Ring.Storable n ∧
      r = .error (.failed (Ring.storageError n)) := by
  cases h with
  | starts hstored => exact absurd (hstored n hn) hnot
  | @noSlots n hn hword hmemory =>
    refine ⟨n, hn, fun hstored => by simp [hstored.2] at hmemory, ?_⟩
    rw [Ring.storageError, if_pos hword]
  | noChannel hstored => exact absurd (hstored n hn) hnot
  | @noCursors n hn hlargest =>
    have hword : ¬ n + 1 < wordBound := Nat.not_lt.2 hlargest.ge
    refine ⟨n, hn, fun hstored => hword hstored.1, ?_⟩
    rw [Ring.storageError, if_neg hword]

/-- Validated settings have sizes that fit words, and the sizes of the ring are in order. What a run
needs beyond them is one slot more for each FIFO and a channel. The run starts where there is memory
for those; it ends at once for lack of memory; or it is refused because a FIFO would hold as many
samples as the largest word says, and no word says its number of slots. -/
theorem start_of_validate [Memory] (h : c.validate = .ok ()) :
    ∃ size drift, Sized c size drift ∧ Started c size drift (start c) := by
  obtain ⟨size, drift, hsized⟩ := exists_sized h
  exact ⟨size, drift, hsized, started_of_sized h hsized⟩

/-- The default settings need 1025 slots for the largest FIFO. The run starts where there are as
many, and with one slot less there is no memory for it. -/
theorem start_of_validate_default :
    let c : SoakConfig := {}
    c.validate = .ok () ∧ (∃ s, @start (.upTo 1025) c = .ok s) ∧
      @start (.upTo 1024) c = .error (.failed (.outOfMemory 1024)) := by
  intro c
  have hvalidate : c.validate = .ok () := by decide +kernel
  have hcapacities : capacities c 768 c.drift = [768, 768, 1024] := rfl
  have hmost : ∀ n ∈ capacities c 768 c.drift, n ≤ 1024 := by simp [hcapacities]
  have hends : ∀ memory : Memory, @Started memory c 768 c.drift (@start memory c) := by
    intro memory
    have hsize : c.doubleBuffer.fifoSize = .ok 768 := rfl
    have hdrift : c.driftInSamples = .ok c.drift := by decide +kernel
    obtain ⟨size, drift, hsized, hends⟩ := start_of_validate hvalidate
    cases hsize.symm.trans hsized.fifoSize
    cases hdrift.symm.trans hsized.driftInSamples
    exact hends
  refine ⟨hvalidate, ?_, ?_⟩
  · refine @Started.exists_eq_ok c (.upTo 1025) _ _ _ (hends _) (fun n hn => ?_) rfl
    have hle := Nat.add_le_add_right (hmost n hn) 1
    exact ⟨Nat.lt_of_le_of_lt hle (by decide), decide_eq_true hle⟩
  · have hnot : ¬ @Ring.Storable (.upTo 1024) 1024 := fun h =>
      absurd (of_decide_eq_true h.2) (Nat.not_succ_le_self 1024)
    obtain ⟨n, hn, hrefused, hstart⟩ :=
      @Started.exists_eq_error c (.upTo 1024) _ _ _ (hends _) 1024 (by simp [hcapacities]) hnot
    obtain rfl : n = 1024 := by
      refine Nat.le_antisymm (hmost n hn) (Nat.le_of_not_lt fun hless => hrefused ⟨?_, ?_⟩)
      · exact Nat.lt_trans (Nat.succ_lt_succ hless) (by decide)
      · exact decide_eq_true hless
    exact hstart

/-- Settings with a drifting ring that holds as many samples as the largest word says. -/
def largestRing : SoakConfig :=
  { doubleBuffer := { outerSize := 1, innerSize := 1, delay := 0 }
    drift := { maxFillCount := 18446744073709551615 } }

/-- Settings whose drifting ring has a number of slots that is no word pass validation. The run is
refused for that and not for lack of memory, of which two slots for each other FIFO are enough. -/
theorem accepts_overflowing_storage :
    largestRing.validate = .ok () ∧ largestRing.driftInSamples = .ok largestRing.drift ∧
      ¬ largestRing.drift.maxFillCount + 1 < wordBound ∧
      ∀ memory : Memory, memory.hasSlots 2 = true →
        @start memory largestRing = .error (.failed (.cursorOverflow 18446744073709551615)) ∧
          (∀ n, @start memory largestRing ≠ .error (.failed (.outOfMemory n))) ∧
          @start memory largestRing ≠ .error .aborted := by
  have hvalidate : largestRing.validate = .ok () := rfl
  have hdrift : largestRing.driftInSamples = .ok largestRing.drift := rfl
  have hlargest : ¬ largestRing.drift.maxFillCount + 1 < wordBound := by decide
  refine ⟨hvalidate, hdrift, hlargest, fun memory hmemory => ?_⟩
  have hrefused : @start memory largestRing =
      .error (.failed (.cursorOverflow 18446744073709551615)) := by
    obtain ⟨size, drift, hsized⟩ := exists_sized hvalidate
    obtain rfl : 1 = size := by
      have hsize : largestRing.doubleBuffer.fifoSize = .ok 1 := rfl
      exact Except.ok.inj (hsize.symm.trans hsized.fifoSize)
    cases hdrift.symm.trans hsized.driftInSamples
    have hcapacities : capacities largestRing 1 largestRing.drift =
      [1, 1, 18446744073709551615] := rfl
    have hends := @started_of_sized _ memory _ _ hvalidate hsized
    obtain ⟨n, hn, hnot, hstart⟩ := hends.exists_eq_error (n := 18446744073709551615)
      (by simp [hcapacities]) fun h => hlargest h.1
    simp only [hcapacities, List.mem_cons, List.not_mem_nil, or_false] at hn
    rcases hn with rfl | rfl | rfl
    · exact absurd ⟨by decide, hmemory⟩ hnot
    · exact absurd ⟨by decide, hmemory⟩ hnot
    · exact hstart
  rw [hrefused]
  refine ⟨rfl, fun n h => ?_, fun h => nomatch h⟩
  -- the two messages begin with different letters
  have hmessage := FifoError.construction.inj (Halt.failed.inj (Except.error.inj h))
  have hletters := congrArg (fun m : String => m.toList.head?) hmessage
  simp [toString] at hletters

end Soak

end BlockFlow
