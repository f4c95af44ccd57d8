import BlockFlow.Proofs.DoubleBuffer.Stream
import BlockFlow.Proofs.DoubleBuffer.Unblocked

/-!
# An outer call happens as a whole or not at all

Where nobody waits, an outer call that fails leaves the double buffer and its own buffer as they
were, so that it can be made again (`exchanges_or_fails`). There are five reasons for it to fail
(`Fault`), and the last of them, that its input does not fit, is found before anything is stored.
Its output is looked for before that, and the input that is stored leaves the output FIFO alone: the
second of the two transfers never fails.
-/

set_option autoImplicit false

namespace BlockFlow.DoubleBuffer

universe u

variable {α : Type u}

/-! ## Reasons to fail -/

/-- The refusal of more frames than an outer block has. -/
def tooManyFrames (config : DoubleBufferConfig) (frames : Nat) : FifoError :=
  .config s!"{frames} frames exceed the outer block size {config.outerSize}"

/-- The refusal of slices that do not hold the frames. -/
def shortSlices (config : DoubleBufferConfig) (frames inLength outLength : Nat) : FifoError :=
  let inLen := frames * config.inputChannels
  let outLen := frames * config.outputChannels
  .config (s!"block of {frames} frames needs {inLen} input and {outLen} output " ++
    s!"samples, got {inLength} and {outLength}")

/-- Why an outer call fails where nobody waits, with the error that it returns. -/
inductive Fault (db : DoubleBuffer LockFreeRing α) (input : List α) (outLength frames : Nat) :
    FifoError → Prop
  | told {first : FifoError} : db.outerError = some first →
      Fault db input outLength frames first.duplicate
  | frames : db.config.outerSize < frames →
      Fault db input outLength frames (tooManyFrames db.config frames)
  | slices : input.length < frames * db.config.inputChannels ∨
        outLength < frames * db.config.outputChannels →
      Fault db input outLength frames (shortSlices db.config frames input.length outLength)
  | missing : db.output.fillCount < frames * db.config.outputChannels →
      Fault db input outLength frames
        (.insufficientData (frames * db.config.outputChannels) db.output.fillCount)
  | full : db.input.availableSpace < frames * db.config.inputChannels →
      Fault db input outLength frames
        (.capacityExceeded (frames * db.config.inputChannels) db.input.availableSpace)

/-- An outer call has moved exactly its frames: its input is stored behind what was there, its
output is the front of what was there, and beyond that its buffer is as it was. -/
structure Exchanged (db : DoubleBuffer LockFreeRing α) (input out : List α) (frames : Nat)
    (out' : List α) (db' : DoubleBuffer LockFreeRing α) : Prop where
  input_eq : db'.contents .input =
    db.contents .input ++ input.take (frames * db.config.inputChannels)
  output_eq : db.contents .output =
    out'.take (frames * db.config.outputChannels) ++ db'.contents .output
  inputFill_eq : db'.input.fillCount = db.input.fillCount + frames * db.config.inputChannels
  outputFill_eq : db'.output.fillCount + frames * db.config.outputChannels = db.output.fillCount
  length_eq : out'.length = out.length
  beyond_eq : out'.drop (frames * db.config.outputChannels) =
    out.drop (frames * db.config.outputChannels)

/-! ## One outer call -/

section Call

variable {db : DoubleBuffer LockFreeRing α} {input out : List α} {frames : Nat}
  {ts : List (Transfer α)}

/-- The checks before the first transfer find four of the reasons. -/
theorem fault_of_processTransfers {outLength : Nat} {e : FifoError}
    (hrefused : db.processTransfers input outLength frames = .error e) :
    Fault db input outLength frames e := by
  unfold processTransfers at hrefused
  cases htold : db.outerError with
  | some first =>
    rw [htold] at hrefused
    cases hrefused
    exact .told htold
  | none =>
    rw [htold] at hrefused
    simp only at hrefused
    split_ifs at hrefused with hframes hslices hmissing
    · cases hrefused
      exact .frames hframes
    · cases hrefused
      exact .slices hslices
    · cases hrefused
      exact .missing hmissing.2

theorem attempt_push_of_lt {lane : Lane} (hquiet : (db.fifo lane).Quiet) {block : List α}
    (hlong : (db.fifo lane).availableSpace < block.length) (out : List α) :
    db.attempt out (.push lane block) =
      .failed (.capacityExceeded block.length (db.fifo lane).availableSpace) := by
  have hpush : SharedFifo.tryPush (db.fifo lane) block =
      .failed (.capacityExceeded block.length (db.fifo lane).availableSpace) :=
    congrArg Attempt.ofExcept (LockFreeRing.push_of_lt hquiet.writerFree hlong)
  rw [attempt, hpush]
  rfl

/-- An outer call that is let through fails before its first transfer if its input does not fit. -/
theorem run_process_of_lt (hinput : db.input.Quiet)
    (hts : db.processTransfers input out.length frames = .ok ts)
    (hlong : db.input.availableSpace < frames * db.config.inputChannels)
    (waits : List (List (Call α))) :
    (Call.process input out frames waits).run db =
      .refused (.capacityExceeded (frames * db.config.inputChannels) db.input.availableSpace)
        out db := by
  obtain ⟨-, -, hlength, -, -, rfl⟩ := processTransfers_eq_ok.1 hts
  have hblock : (input.take (frames * db.config.inputChannels)).length =
      frames * db.config.inputChannels := List.length_take_of_le hlength
  have hstore := attempt_push_of_lt (show (db.fifo .input).Quiet from hinput)
    (hblock.symm ▸ hlong) out
  rw [hblock] at hstore
  have hproceed := proceed_of_failed hstore
    [.pull .output (frames * db.config.outputChannels)]
  rw [Call.run, hts]
  exact (carryOn_of_failed (congrArg Progress.standing hproceed) waits).trans
    (congrArg (Step.ended (.error _)) hproceed)

/-- An outer call that makes both transfers has moved exactly its frames. -/
theorem exchanged_of_le (hinput : db.input.Quiet) (houtput : db.output.Quiet)
    (hts : db.processTransfers input out.length frames = .ok ts)
    (hfits : frames * db.config.inputChannels ≤ db.input.availableSpace)
    (waits : List (List (Call α))) :
    ((Call.process input out frames waits).run db).outcome = .ok () ∧
      Exchanged db input out frames ((Call.process input out frames waits).run db).buffer
        ((Call.process input out frames waits).run db).after := by
  obtain ⟨-, -, hlong, hslice, hthere, -⟩ := processTransfers_eq_ok.1 hts
  have hblock : (input.take (frames * db.config.inputChannels)).length =
      frames * db.config.inputChannels := List.length_take_of_le hlong
  have hroom : (input.take (frames * db.config.inputChannels)).length ≤
      db.input.ring.availableSpace := by
    rw [hblock]
    exact hfits
  have htaken : (db.output.ring.contents.take (frames * db.config.outputChannels)).length =
      frames * db.config.outputChannels := houtput.valid.length_take_contents (hthere rfl)
  rw [run_process_of_le hinput houtput hts hfits]
  refine ⟨rfl, hinput.valid.contents_append hroom, ?_, ?_, ?_, ?_, List.drop_left' htaken⟩
  · show db.output.ring.contents = List.take _ (_ ++ _) ++ (db.output.ring.discard _).contents
    rw [List.take_left' htaken, houtput.valid.contents_discard (hthere rfl),
      List.take_append_drop]
  · exact (hinput.valid.fillCount_append hroom).trans (congrArg (_ + ·) hblock)
  · have hfill := houtput.valid.fillCount_discard (hthere rfl)
    show (db.output.ring.discard _).fillCount + _ = db.output.ring.fillCount
    rw [hfill]
    exact Nat.sub_add_cancel (hthere rfl)
  · show (List.take _ db.output.ring.contents ++ List.drop _ out).length = _
    rw [List.length_append, htaken, List.length_drop]
    exact Nat.add_sub_of_le hslice

/-- An outer call is refused for one of the reasons, or it moves exactly its frames. -/
theorem refused_or_exchanged (hinput : db.input.Quiet) (houtput : db.output.Quiet)
    (input out : List α) (frames : Nat) (waits : List (List (Call α))) :
    (∃ e, (Call.process input out frames waits).run db = .refused e out db ∧
      Fault db input out.length frames e) ∨
    (((Call.process input out frames waits).run db).outcome = .ok () ∧
      Exchanged db input out frames ((Call.process input out frames waits).run db).buffer
        ((Call.process input out frames waits).run db).after) := by
  cases hts : db.processTransfers input out.length frames with
  | error e =>
    refine .inl ⟨e, ?_, fault_of_processTransfers hts⟩
    rw [Call.run, hts]
  | ok ts =>
    by_cases hfits : frames * db.config.inputChannels ≤ db.input.availableSpace
    · exact .inr (exchanged_of_le hinput houtput hts hfits waits)
    · have hlong := Nat.lt_of_not_le hfits
      exact .inl ⟨_, run_process_of_lt hinput hts hlong waits, .full hlong⟩

/-- Once the input is stored, the output is still there, and the call is finished. -/
theorem finished_of_stored (houtput : db.output.Quiet) {t : Transfer α}
    (hts : db.processTransfers input out.length frames = .ok (t :: ts))
    {out' : List α} {stored : DoubleBuffer LockFreeRing α}
    (hstored : db.attempt out t = .done (out', stored)) :
    (stored.proceed ts out').standing = .finished := by
  obtain ⟨-, -, -, -, hthere, heq⟩ := processTransfers_eq_ok.1 hts
  cases heq
  obtain ⟨f, -, rfl, rfl⟩ := attempt_push_eq_done hstored
  -- the transfer changed the input FIFO only
  have houtput' : ((db.setFifo f .input).fifo .output).Quiet := houtput
  have hfetch := attempt_pull_of_le houtput' (hthere rfl) out'
  rw [proceed_of_done hfetch []]
  rfl

end Call

/-! ## Whole runs -/

/-- After any calls nobody holds a claim and the cursors are slots. -/
theorem quiet_runAll [Memory] {config : DoubleBufferConfig} {fill : α}
    {db : DoubleBuffer LockFreeRing α}
    (hmake : make config fill = .ok db) (calls : List (Call α)) (lane : Lane) :
    ((runAll calls db).2.fifo lane).Quiet :=
  (passes_run.2.2 calls db (valid_of_make hmake).1).valid lane

/-- After any calls on a double buffer where nobody waits, an outer call with any slices and any
number of frames either fails, for a reason that it finds, and then leaves both FIFOs with their
slots and cursors and its own buffer as they were; or it succeeds and has moved exactly its frames.
Once its input is stored, its output is always there. -/
theorem exchanges_or_fails [Memory] {config : DoubleBufferConfig} {fill : α}
    {db : DoubleBuffer LockFreeRing α} (hmake : make config fill = .ok db) (calls : List (Call α))
    (input out : List α) (frames : Nat) (waits : List (List (Call α))) :
    let before := (runAll calls db).2
    let step := (Call.process input out frames waits).run before
    (∀ e, step.outcome = .error e →
      step.after = before ∧ step.buffer = out ∧ Fault before input out.length frames e) ∧
      (step.outcome = .ok () → Exchanged before input out frames step.buffer step.after) ∧
      ∀ t ts, before.processTransfers input out.length frames = .ok (t :: ts) →
        ∀ out' stored, before.attempt out t = .done (out', stored) →
          (stored.proceed ts out').standing = .finished := by
  intro before step
  have hinput : before.input.Quiet := quiet_runAll hmake calls .input
  have houtput : before.output.Quiet := quiet_runAll hmake calls .output
  refine ⟨?_, ?_, fun t ts hts out' stored hstored => finished_of_stored houtput hts hstored⟩
  · intro e herror
    rcases refused_or_exchanged hinput houtput input out frames waits with
      ⟨refusal, hrefused, hfault⟩ | ⟨hok, -⟩
    · have hstep : step = .refused refusal out before := hrefused
      rw [hstep] at herror ⊢
      cases herror
      exact ⟨rfl, rfl, hfault⟩
    · cases hok.symm.trans herror
  · intro hok
    rcases refused_or_exchanged hinput houtput input out frames waits with
      ⟨refusal, hrefused, -⟩ | ⟨-, hexchanged⟩
    · have hstep : step = .refused refusal out before := hrefused
      rw [hstep] at hok
      cases hok
    · exact hexchanged

/-- Sizes with room for four frames in either FIFO. -/
def fourFrames : DoubleBufferConfig :=
  { outerSize := 2, innerSize := 3, delay := 1, inputChannels := 1, outputChannels := 2 }

/-- An inner stage that delivers what it has never taken, and takes nothing. -/
def neverTaken : List (Call Nat) :=
  [.deliver [1, 1, 2, 2, 3, 3] [], .process [1, 2] [0, 0, 0, 0] 2 [],
    .process [3, 4] [0, 0, 0, 0] 2 [], .deliver [4, 4, 5, 5, 6, 6] []]

/-- The outer call that finds no room for its input is refused, though its output is there. -/
theorem exchanges_or_fails_full :
    ∃ db : DoubleBuffer LockFreeRing Nat, make fourFrames 0 = .ok db ∧
      ((Call.process [5] [8, 8, 9] 1 []).run (runAll neverTaken db).2).outcome =
        .error (.capacityExceeded 1 0) ∧
      ((Call.process [5] [8, 8, 9] 1 []).run (runAll neverTaken db).2).after =
        (runAll neverTaken db).2 ∧
      ((Call.process [5] [8, 8, 9] 1 []).run (runAll neverTaken db).2).buffer = [8, 8, 9] ∧
      ((Call.process [7] [8, 8, 9] 1 []).run db).outcome = .ok () ∧
      Exchanged db [7] [8, 8, 9] 1 ((Call.process [7] [8, 8, 9] 1 []).run db).buffer
        ((Call.process [7] [8, 8, 9] 1 []).run db).after := by
  obtain ⟨db, hmake⟩ : ∃ db : DoubleBuffer LockFreeRing Nat, make fourFrames 0 = .ok db := ⟨_, rfl⟩
  obtain ⟨hfails, -⟩ := exchanges_or_fails hmake neverTaken [5] [8, 8, 9] 1 []
  obtain ⟨-, hmoves, -⟩ := exchanges_or_fails hmake [] [7] [8, 8, 9] 1 []
  have hfull : ((Call.process [5] [8, 8, 9] 1 []).run (runAll neverTaken db).2).outcome =
      .error (.capacityExceeded 1 0) := by
    cases hmake
    rfl
  have hfirst : ((Call.process [7] [8, 8, 9] 1 []).run db).outcome = .ok () := by
    cases hmake
    rfl
  obtain ⟨hafter, hbuffer, -⟩ := hfails _ hfull
  exact ⟨db, hmake, hfull, hafter, hbuffer, hfirst, hmoves hfirst⟩

end BlockFlow.DoubleBuffer
