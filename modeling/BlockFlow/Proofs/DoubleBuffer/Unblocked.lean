import BlockFlow.Proofs.DoubleBuffer.Config
import BlockFlow.Proofs.DoubleBuffer.Script
import BlockFlow.Proofs.DoubleBuffer.Transfers
import BlockFlow.Proofs.SharedFifo

/-!
# Calls on FIFOs on which nobody waits

Over shared rings a transfer of a double buffer is made at once or fails, so that no call ever
waits. A call that is let through and whose transfers are possible makes all of them. As long as
all calls move whole frames, what they do to the two FIFOs is counted in frames (`Holds`).
-/

set_option autoImplicit false

namespace BlockFlow

universe u

variable {α : Type u}

/-! ## Frames in a shared ring -/

namespace LockFreeRing

/-- The ring has room for `size` frames of `channels` samples each and stores `n` of them. -/
structure Frames (channels size n : Nat) (f : LockFreeRing α) : Prop where
  quiet : f.Quiet
  capacity_eq : f.capacity = size * channels
  fillCount_eq : f.fillCount = n * channels

section Frames

variable {f : LockFreeRing α} {channels size n k : Nat}

theorem Frames.of_make [Memory] {fill : α}
    (hmake : LockFreeRing.make (size * channels) fill = .ok f) :
    f.Frames channels size 0 := by
  obtain ⟨r, hr, rfl⟩ := make_eq_ok hmake
  refine ⟨⟨Ring.Valid.of_make hr, rfl, rfl⟩, Ring.capacity_of_make hr, ?_⟩
  rw [Nat.zero_mul]
  exact Ring.fillCount_of_make hr

theorem Frames.le_availableSpace (h : f.Frames channels size n) (hroom : n + k ≤ size) :
    k * channels ≤ f.availableSpace := by
  have hmul := Nat.mul_le_mul_right channels hroom
  rw [Nat.add_mul] at hmul
  rw [availableSpace, h.capacity_eq, h.fillCount_eq]
  omega

theorem Frames.le_fillCount_iff (h : f.Frames channels size n) (hchannels : 0 < channels) :
    k * channels ≤ f.fillCount ↔ k ≤ n := by
  rw [h.fillCount_eq]
  exact Nat.mul_le_mul_right_iff hchannels

theorem Frames.append (h : f.Frames channels size n) (hroom : n + k ≤ size) {data : List α}
    (hlength : data.length = k * channels) : (f.append data).Frames channels size (n + k) := by
  have hfits : data.length ≤ f.availableSpace := by
    rw [hlength]
    exact h.le_availableSpace hroom
  have hcapacity : (f.append data).capacity = f.capacity := Ring.capacity_append f.ring data
  have hfill : (f.append data).fillCount = f.fillCount + data.length :=
    h.quiet.valid.fillCount_append hfits
  refine ⟨h.quiet.append data, hcapacity.trans h.capacity_eq, ?_⟩
  rw [hfill, h.fillCount_eq, hlength, Nat.add_mul]

theorem Frames.discard (h : f.Frames channels size n) (hthere : k ≤ n) :
    (f.discard (k * channels)).Frames channels size (n - k) := by
  have hle : k * channels ≤ f.fillCount := by
    rw [h.fillCount_eq]
    exact Nat.mul_le_mul_right channels hthere
  have hfill : (f.discard (k * channels)).fillCount = f.fillCount - k * channels :=
    h.quiet.valid.fillCount_discard hle
  refine ⟨h.quiet.discard _, h.capacity_eq, ?_⟩
  rw [hfill, h.fillCount_eq, Nat.sub_mul]

end Frames

end LockFreeRing

namespace DoubleBuffer

/-! ## Transfers -/

section Transfers

variable {db : DoubleBuffer LockFreeRing α}

theorem attempt_push_of_le {lane : Lane} (hquiet : (db.fifo lane).Quiet) {block : List α}
    (hfits : block.length ≤ (db.fifo lane).availableSpace) (out : List α) :
    db.attempt out (.push lane block) =
      .done (out, db.setFifo ((db.fifo lane).append block) lane) := by
  have hpush : SharedFifo.tryPush (db.fifo lane) block = .done ((db.fifo lane).append block) :=
    congrArg Attempt.ofExcept (LockFreeRing.push_of_le hquiet.valid hquiet.writerFree hfits)
  rw [attempt, hpush]
  rfl

theorem attempt_pull_of_le {lane : Lane} (hquiet : (db.fifo lane).Quiet) {n : Nat}
    (hthere : n ≤ (db.fifo lane).fillCount) (out : List α) :
    db.attempt out (.pull lane n) =
      .done ((db.fifo lane).ring.contents.take n ++ out.drop n,
        db.setFifo ((db.fifo lane).discard n) lane) := by
  have hpull : SharedFifo.tryPull (db.fifo lane) n =
      .done ((db.fifo lane).ring.contents.take n, (db.fifo lane).discard n) :=
    congrArg Attempt.ofExcept (LockFreeRing.pull_of_le hquiet.valid hquiet.readerFree hthere)
  have hlength : ((db.fifo lane).ring.contents.take n).length = n :=
    hquiet.valid.length_take_contents hthere
  rw [attempt, hpull]
  show Attempt.done (_ ++ out.drop ((db.fifo lane).ring.contents.take n).length, _) = _
  rw [hlength]

theorem attempt_pull_of_lt {lane : Lane} (hquiet : (db.fifo lane).Quiet) {n : Nat}
    (hshort : (db.fifo lane).fillCount < n) (out : List α) :
    db.attempt out (.pull lane n) = .failed (.insufficientData n (db.fifo lane).fillCount) := by
  have hpull : SharedFifo.tryPull (db.fifo lane) n =
      .failed (.insufficientData n (db.fifo lane).fillCount) :=
    congrArg Attempt.ofExcept (LockFreeRing.pull_of_lt hquiet.readerFree hshort)
  rw [attempt, hpull]
  rfl

/-- A shared ring never makes anybody wait. -/
theorem attempt_ne_blocked (t : Transfer α) (out : List α) : db.attempt out t ≠ .blocked := by
  cases t with
  | push lane block =>
    show ((Attempt.ofExcept ((db.fifo lane).push block)).map _) ≠ _
    cases (db.fifo lane).push block <;> nofun
  | pull lane n =>
    show ((Attempt.ofExcept ((db.fifo lane).pull n)).map _) ≠ _
    cases (db.fifo lane).pull n <;> nofun

/-- Over shared rings a transfer that is made sends nothing. -/
theorem proceed_of_done {db' : DoubleBuffer LockFreeRing α} {t : Transfer α} {out out' : List α}
    (hdone : db.attempt out t = .done (out', db')) (ts : List (Transfer α)) :
    db.proceed (t :: ts) out = db'.proceed ts out' := by
  rw [proceed, hdone]
  rfl

theorem standing_proceed_ne_waiting {ts : List (Transfer α)} {out : List α} (t : Transfer α)
    (rest : List (Transfer α)) : (db.proceed ts out).standing ≠ .waiting t rest := by
  induction ts generalizing db out with
  | nil => nofun
  | cons next ts ih =>
    cases hattempt : db.attempt out next with
    | done result =>
      rw [proceed_of_done hattempt]
      exact ih
    | failed e =>
      rw [proceed_of_failed hattempt]
      nofun
    | blocked => exact absurd hattempt (attempt_ne_blocked next out)

end Transfers

/-! ## Calls -/

section Calls

variable {db : DoubleBuffer LockFreeRing α} {stage : Stage} {ts : List (Transfer α)} {out : List α}

theorem carryOn_eq_ended {p : Progress LockFreeRing α} (hproceed : db.proceed ts out = p)
    (hfinished : p.standing = .finished) (waits : List (List (Call α))) :
    carryOn stage waits ts out db = .ended (.ok ()) p := by
  subst hproceed
  exact carryOn_of_finished hfinished waits

/-- An outer call that is let through stores its input, if there is space for it, and fetches its
output. -/
theorem run_process_of_le (hinput : db.input.Quiet) (houtput : db.output.Quiet)
    {input : List α} {frames : Nat}
    (hts : db.processTransfers input out.length frames = .ok ts)
    (hfits : frames * db.config.inputChannels ≤ db.input.availableSpace)
    (waits : List (List (Call α))) :
    (Call.process input out frames waits).run db = .ended (.ok ())
      { standing := .finished
        buffer := db.output.ring.contents.take (frames * db.config.outputChannels) ++
          out.drop (frames * db.config.outputChannels)
        signals := []
        after := { db with
          input := db.input.append (input.take (frames * db.config.inputChannels))
          output := db.output.discard (frames * db.config.outputChannels) } } := by
  obtain ⟨-, -, hlong, -, hthere, rfl⟩ := processTransfers_eq_ok.1 hts
  have hlength : (input.take (frames * db.config.inputChannels)).length ≤
      (db.fifo .input).availableSpace := by
    rw [List.length_take_of_le hlong]
    exact hfits
  have hstore := attempt_push_of_le (show (db.fifo .input).Quiet from hinput) hlength out
  -- the input that was stored leaves the output FIFO alone
  have houtput' : ((db.setFifo (db.input.append
      (input.take (frames * db.config.inputChannels))) .input).fifo .output).Quiet := houtput
  have hfetch := attempt_pull_of_le houtput' (hthere rfl) out
  have hproceed := (proceed_of_done hstore _).trans (proceed_of_done hfetch [])
  rw [Call.run, hts]
  exact carryOn_eq_ended hproceed rfl waits

/-- A call for an inner block of input that is let through takes it, if it is there. -/
theorem run_supply_of_le (hinput : db.input.Quiet)
    (hts : db.supplyTransfers out.length = .ok ts)
    (hthere : db.config.innerSize * db.config.inputChannels ≤ db.input.fillCount)
    (waits : List (List (Call α))) :
    (Call.supply out waits).run db = .ended (.ok ())
      { standing := .finished
        buffer := db.input.ring.contents.take (db.config.innerSize * db.config.inputChannels) ++
          out.drop (db.config.innerSize * db.config.inputChannels)
        signals := []
        after := { db with
          input := db.input.discard (db.config.innerSize * db.config.inputChannels) } } := by
  obtain ⟨-, -, rfl⟩ := supplyTransfers_eq_ok.1 hts
  have hfetch := attempt_pull_of_le (show (db.fifo .input).Quiet from hinput) hthere out
  rw [Call.run, hts]
  exact carryOn_eq_ended (proceed_of_done hfetch []) rfl waits

/-- It fails if the block is not there. -/
theorem run_supply_of_lt (hinput : db.input.Quiet)
    (hts : db.supplyTransfers out.length = .ok ts)
    (hshort : db.input.fillCount < db.config.innerSize * db.config.inputChannels)
    (waits : List (List (Call α))) :
    (Call.supply out waits).run db =
      .refused (.insufficientData (db.config.innerSize * db.config.inputChannels)
        db.input.fillCount) out db := by
  obtain ⟨-, -, rfl⟩ := supplyTransfers_eq_ok.1 hts
  have hfetch := attempt_pull_of_lt (show (db.fifo .input).Quiet from hinput) hshort out
  have hproceed := proceed_of_failed hfetch []
  rw [Call.run, hts]
  exact (carryOn_of_failed (congrArg Progress.standing hproceed) waits).trans
    (congrArg (Step.ended (.error _)) hproceed)

/-- A delivery that is let through stores its block, if there is space for it. -/
theorem run_deliver_of_le (houtput : db.output.Quiet) {data : List α}
    (hts : db.deliverTransfers data = .ok ts)
    (hfits : db.config.innerSize * db.config.outputChannels ≤ db.output.availableSpace)
    (waits : List (List (Call α))) :
    (Call.deliver data waits).run db = .ended (.ok ())
      { standing := .finished
        buffer := []
        signals := []
        after := { db with
          output := db.output.append
            (data.take (db.config.innerSize * db.config.outputChannels)) } } := by
  obtain ⟨-, hlong, rfl⟩ := deliverTransfers_eq_ok.1 hts
  have hlength : (data.take (db.config.innerSize * db.config.outputChannels)).length ≤
      (db.fifo .output).availableSpace := by
    rw [List.length_take_of_le hlong]
    exact hfits
  have hstore := attempt_push_of_le (show (db.fifo .output).Quiet from houtput) hlength []
  rw [Call.run, hts]
  exact carryOn_eq_ended (proceed_of_done hstore []) rfl waits

/-- Over shared rings a call ends where its transfers leave it. -/
theorem carryOn_ended (waits : List (List (Call α))) :
    ∃ outcome, carryOn stage waits ts out db = .ended outcome (db.proceed ts out) := by
  cases hstanding : (db.proceed ts out).standing with
  | finished => exact ⟨_, carryOn_of_finished hstanding waits⟩
  | failed e => exact ⟨_, carryOn_of_failed hstanding waits⟩
  | waiting t rest => exact absurd hstanding (standing_proceed_ne_waiting t rest)

/-- Only `provoke` tells a stage to fail. -/
theorem stageError_run {c : Call α} (hc : ∀ stage error, c ≠ .provoke stage error) :
    (c.run db).after.stageError = db.stageError := by
  have hcarryOn : ∀ (stage : Stage) (waits : List (List (Call α))) (ts : List (Transfer α))
      (out : List α), (carryOn stage waits ts out db).after.stageError = db.stageError := by
    intro stage waits ts out
    obtain ⟨outcome, hended⟩ := carryOn_ended waits
    exact (congrArg (fun step => step.after.stageError) hended).trans (stageError_proceed ts out)
  cases c with
  | process input out frames waits =>
    rw [Call.run]
    cases db.processTransfers input out.length frames with
    | error e => rfl
    | ok ts => exact hcarryOn .outer waits ts out
  | supply out waits =>
    rw [Call.run]
    cases db.supplyTransfers out.length with
    | error e => rfl
    | ok ts => exact hcarryOn .inner waits ts out
  | deliver data waits =>
    rw [Call.run]
    cases db.deliverTransfers data with
    | error e => rfl
    | ok ts => exact hcarryOn .inner waits ts []
  | provoke stage error => exact absurd rfl (hc stage error)
  | inspect => rfl

end Calls

/-! ## Frames in a double buffer -/

/-- A double buffer of these sizes stores `n` frames of input and `m` frames of output. -/
structure Holds (config : DoubleBufferConfig) (n m : Nat) (db : DoubleBuffer LockFreeRing α) :
    Prop where
  validated : config.validate = .ok ()
  config_eq : db.config = config
  input : db.input.Frames config.inputChannels
    (max config.outerSize config.innerSize + config.delay) n
  output : db.output.Frames config.outputChannels
    (max config.outerSize config.innerSize + config.delay) m

section Holds

variable {config : DoubleBufferConfig} {db : DoubleBuffer LockFreeRing α} {n m : Nat}

/-- A new double buffer stores the frames of the delay. -/
theorem Holds.of_make [Memory] {fill : α} (hmake : make config fill = .ok db) :
    Holds config 0 config.delay db := by
  obtain ⟨size, hsize, empty, hvalidate, hinput, hempty, hpush, hconfig, -, -⟩ :=
    make_eq_ok hmake
  rw [DoubleBufferConfig.fifoSize_eq_ok hsize] at hinput hempty
  have hnew := LockFreeRing.Frames.of_make hempty
  -- the silence fits, since there is room for the delay beside the larger block
  have hroom : 0 + config.delay ≤ max config.outerSize config.innerSize + config.delay := by omega
  obtain ⟨-, houtput⟩ := hnew.quiet.push_eq_ok (Attempt.ofExcept_eq_done.1 hpush)
  have hlength : (List.replicate (config.delay * config.outputChannels) fill).length =
      config.delay * config.outputChannels := List.length_replicate
  have hsilence := hnew.append hroom hlength
  rw [Nat.zero_add, ← houtput] at hsilence
  exact ⟨hvalidate, hconfig, .of_make hinput, hsilence⟩

theorem Holds.inputFill_eq (h : Holds config n m db) : db.inputFill = n := by
  obtain ⟨-, -, hchannels, -⟩ := DoubleBufferConfig.pos_of_validate h.validated
  have hfill : SharedFifo.fillCount db.input = n * config.inputChannels := h.input.fillCount_eq
  rw [inputFill, h.config_eq, hfill, Nat.mul_div_cancel n hchannels]

theorem Holds.outputFill_eq (h : Holds config n m db) : db.outputFill = m := by
  obtain ⟨-, -, -, hchannels⟩ := DoubleBufferConfig.pos_of_validate h.validated
  have hfill : SharedFifo.fillCount db.output = m * config.outputChannels := h.output.fillCount_eq
  rw [outputFill, h.config_eq, hfill, Nat.mul_div_cancel m hchannels]

variable {input out : List α} {frames : Nat} {ts : List (Transfer α)}

/-- An outer call whose slices hold its frames only needs its output to be there. -/
theorem Holds.processTransfers_eq (h : Holds config n m db) (huntold : db.outerError = none)
    (hframes : frames ≤ config.outerSize)
    (hinput : frames * config.inputChannels ≤ input.length)
    (hout : frames * config.outputChannels ≤ out.length) :
    db.processTransfers input out.length frames =
      if frames ≤ m then
        .ok [.push .input (input.take (frames * config.inputChannels)),
          .pull .output (frames * config.outputChannels)]
      else
        .error (.insufficientData (frames * config.outputChannels)
          (m * config.outputChannels)) := by
  obtain ⟨-, -, -, hchannels⟩ := DoubleBufferConfig.pos_of_validate h.validated
  have hfill : SharedFifo.fillCount db.output = m * config.outputChannels := h.output.fillCount_eq
  by_cases hserved : frames ≤ m
  · rw [if_pos hserved]
    refine processTransfers_eq_ok.2 ⟨huntold, ?_⟩
    rw [h.config_eq]
    exact ⟨hframes, hinput, hout, fun _ => (h.output.le_fillCount_iff hchannels).2 hserved, rfl⟩
  · have hslices : ¬ (input.length < frames * config.inputChannels ∨
        out.length < frames * config.outputChannels) := by omega
    have hshort : m * config.outputChannels < frames * config.outputChannels :=
      Nat.mul_lt_mul_of_pos_right (Nat.lt_of_not_le hserved) hchannels
    rw [if_neg hserved, processTransfers, huntold, h.config_eq]
    simp only [if_neg (Nat.not_lt.2 hframes), if_neg hslices, hfill]
    exact if_pos ⟨rfl, hshort⟩

theorem Holds.run_process (h : Holds config n m db)
    (hts : db.processTransfers input out.length frames = .ok ts)
    (hroom : n + frames ≤ max config.outerSize config.innerSize + config.delay)
    (waits : List (List (Call α))) :
    ((Call.process input out frames waits).run db).outcome = .ok () ∧ frames ≤ m ∧
      Holds config (n + frames) (m - frames)
        ((Call.process input out frames waits).run db).after := by
  obtain ⟨-, -, -, hchannels⟩ := DoubleBufferConfig.pos_of_validate h.validated
  obtain ⟨-, -, hlong, -, hthere, -⟩ := processTransfers_eq_ok.1 hts
  have hfits := h.input.le_availableSpace hroom
  rw [← h.config_eq] at hfits
  rw [h.config_eq] at hlong hthere
  have hserved := (h.output.le_fillCount_iff hchannels).1 (hthere rfl)
  rw [run_process_of_le h.input.quiet h.output.quiet hts hfits, h.config_eq]
  exact ⟨rfl, hserved, h.validated, rfl,
    h.input.append hroom (List.length_take_of_le hlong), h.output.discard hserved⟩

/-- How an outer call ends whose slices hold its frames, if there is room for its input. -/
theorem Holds.outcome_process (h : Holds config n m db) (huntold : db.outerError = none)
    (hframes : frames ≤ config.outerSize)
    (hinput : frames * config.inputChannels ≤ input.length)
    (hout : frames * config.outputChannels ≤ out.length)
    (hroom : n + frames ≤ max config.outerSize config.innerSize + config.delay)
    (waits : List (List (Call α))) :
    ((Call.process input out frames waits).run db).outcome =
      if frames ≤ m then .ok ()
      else .error (.insufficientData (frames * config.outputChannels)
        (m * config.outputChannels)) := by
  have hts := h.processTransfers_eq huntold hframes hinput hout
  by_cases hthere : frames ≤ m
  · rw [if_pos hthere] at hts ⊢
    exact (h.run_process hts hroom waits).1
  · rw [if_neg hthere] at hts ⊢
    rw [Call.run, hts]
    rfl

theorem Holds.run_supply (h : Holds config n m db) (hts : db.supplyTransfers out.length = .ok ts)
    (hthere : config.innerSize ≤ n) (waits : List (List (Call α))) :
    ((Call.supply out waits).run db).outcome = .ok () ∧
      ((Call.supply out waits).run db).buffer.length = out.length ∧
      Holds config (n - config.innerSize) m ((Call.supply out waits).run db).after := by
  obtain ⟨-, -, hchannels, -⟩ := DoubleBufferConfig.pos_of_validate h.validated
  obtain ⟨-, hlong, -⟩ := supplyTransfers_eq_ok.1 hts
  have hle := (h.input.le_fillCount_iff hchannels).2 hthere
  have htaken : (db.input.ring.contents.take (config.innerSize * config.inputChannels)).length =
      config.innerSize * config.inputChannels :=
    h.input.quiet.valid.length_take_contents hle
  rw [← h.config_eq] at hle
  rw [run_supply_of_le h.input.quiet hts hle, h.config_eq]
  refine ⟨rfl, ?_, h.validated, rfl, h.input.discard hthere, h.output⟩
  rw [h.config_eq] at hlong
  show (List.take _ db.input.ring.contents ++ List.drop _ out).length = _
  rw [List.length_append, htaken, List.length_drop]
  omega

theorem Holds.run_supply_short (h : Holds config n m db)
    (hts : db.supplyTransfers out.length = .ok ts) (hshort : n < config.innerSize)
    (waits : List (List (Call α))) :
    (Call.supply out waits).run db =
      .refused (.insufficientData (config.innerSize * config.inputChannels)
        (n * config.inputChannels)) out db := by
  obtain ⟨-, -, hchannels, -⟩ := DoubleBufferConfig.pos_of_validate h.validated
  have hlt : db.input.fillCount < config.innerSize * config.inputChannels := by
    rw [h.input.fillCount_eq]
    exact Nat.mul_lt_mul_of_pos_right hshort hchannels
  rw [← h.config_eq] at hlt
  rw [run_supply_of_lt h.input.quiet hts hlt, h.config_eq, h.input.fillCount_eq]

theorem Holds.run_deliver (h : Holds config n m db) {data : List α}
    (hts : db.deliverTransfers data = .ok ts)
    (hroom : m + config.innerSize ≤ max config.outerSize config.innerSize + config.delay)
    (waits : List (List (Call α))) :
    ((Call.deliver data waits).run db).outcome = .ok () ∧
      Holds config n (m + config.innerSize) ((Call.deliver data waits).run db).after := by
  obtain ⟨-, hlong, -⟩ := deliverTransfers_eq_ok.1 hts
  have hfits := h.output.le_availableSpace hroom
  rw [← h.config_eq] at hfits
  rw [h.config_eq] at hlong
  rw [run_deliver_of_le h.output.quiet hts hfits, h.config_eq]
  exact ⟨rfl, h.validated, rfl, h.input,
    h.output.append hroom (List.length_take_of_le hlong)⟩

end Holds

end DoubleBuffer

end BlockFlow
