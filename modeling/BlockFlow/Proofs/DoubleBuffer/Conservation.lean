import BlockFlow.Proofs.DoubleBuffer.Unblocked

/-!
# Frames are conserved where nobody waits

Take a new double buffer over shared rings and any calls on it, as long as the inner stage delivers
no block that it has not taken before (`Disciplined`). Every frame that went in is then stored, in
the hands of the inner stage or delivered, and every frame that came out was part of the delay or
of a delivered block (`Balanced`). So what is stored and what is in hand always makes up the delay,
and neither FIFO is ever too small (`conserves_frames`).
-/

set_option autoImplicit false

namespace BlockFlow.DoubleBuffer

universe u

variable {F : Type u → Type u} {α : Type u}

/-! ## What calls have done -/

/-- What the calls that succeeded have done: frames that the outer stage has moved, and blocks that
the inner stage has taken and delivered. -/
structure Tally where
  processed : Nat := 0
  supplied : Nat := 0
  delivered : Nat := 0
  deriving DecidableEq, Repr

/-- Counts a call that ended like this. A call that failed does not count. -/
def Tally.record (t : Tally) : Call α → Outcome → Tally
  | .process _ _ frames _, .ok () => { t with processed := t.processed + frames }
  | .supply _ _, .ok () => { t with supplied := t.supplied + 1 }
  | .deliver _ _, .ok () => { t with delivered := t.delivered + 1 }
  | _, _ => t

theorem Tally.record_error (t : Tally) (c : Call α) (e : FifoError) :
    t.record c (.error e) = t := by
  cases c <;> rfl

/-- Whether the inner stage may make the call: it may deliver a block only if it has one. -/
def Tally.Allows (t : Tally) : Call α → Prop
  | .deliver _ _ => t.delivered + 1 ≤ t.supplied
  | _ => True

instance (t : Tally) : (c : Call α) → Decidable (t.Allows c)
  | .deliver _ _ => inferInstanceAs (Decidable (t.delivered + 1 ≤ t.supplied))
  | .process .. | .supply .. | .provoke .. | .inspect => .isTrue trivial

section

variable [SharedFifo F]

/-- What calls made one after the other have done in the end, when `t` was done before them. -/
def tally : List (Call α) → Tally → DoubleBuffer F α → Tally
  | [], t, _ => t
  | c :: cs, t, db => tally cs (t.record c (c.run db).outcome) (c.run db).after

/-- Each of the calls is one that the inner stage may make when it is its turn. -/
def Disciplined : List (Call α) → Tally → DoubleBuffer F α → Prop
  | [], _, _ => True
  | c :: cs, t, db => t.Allows c ∧ Disciplined cs (t.record c (c.run db).outcome) (c.run db).after

instance : (calls : List (Call α)) → (t : Tally) → (db : DoubleBuffer F α) →
    Decidable (Disciplined calls t db)
  | [], _, _ => .isTrue trivial
  | c :: cs, t, db =>
    have := instDecidableDisciplined cs (t.record c (c.run db).outcome) (c.run db).after
    inferInstanceAs (Decidable (t.Allows c ∧ _))

end

/-! ## Calls that fail for a provoked error -/

section Told

variable {stage : Stage} {e : FifoError} {requested available : Nat}

/-- Only the first error counts. -/
theorem told_provoke [SharedFifo F] {db : DoubleBuffer F α} {stage' : Stage} {error : FifoError}
    (htold : (db.provoke stage' error).stageError stage = some e) :
    db.stageError stage = some e ∨ stage' = stage ∧ error = e := by
  have hfirst : ∀ kept : Option FifoError, kept.or (some error) = some e →
      kept = some e ∨ error = e := by
    rintro (_ | first) hor
    · exact .inr (Option.some.inj hor)
    · exact .inl hor
  cases stage' <;> cases stage
  · exact (hfirst _ htold).imp id fun heq => ⟨rfl, heq⟩
  · exact .inl htold
  · exact .inl htold
  · exact (hfirst _ htold).imp id fun heq => ⟨rfl, heq⟩

/-- By induction over the calls: a stage that was told to fail was told so by one of them. -/
theorem told_runAll {calls : List (Call α)} {db : DoubleBuffer LockFreeRing α}
    (htold : (runAll calls db).2.stageError stage = some e) :
    db.stageError stage = some e ∨ .provoke stage e ∈ calls := by
  induction calls generalizing db with
  | nil => exact .inl htold
  | cons c cs ih =>
    rw [runAll] at htold
    rcases ih htold with hfirst | hlater
    · -- of all calls only `provoke` changes what a stage was told
      by_cases hc : ∃ stage error, c = .provoke stage error
      · obtain ⟨stage', error, rfl⟩ := hc
        rw [Call.run] at hfirst
        rcases told_provoke hfirst with hbefore | ⟨rfl, rfl⟩
        · exact .inl hbefore
        · exact .inr (List.mem_cons_self ..)
      · rw [stageError_run fun stage error heq => hc ⟨stage, error, heq⟩] at hfirst
        exact .inl hfirst
    · exact .inr (List.mem_cons_of_mem c hlater)

theorem eq_of_duplicate_eq (h : e.duplicate = .capacityExceeded requested available) :
    e = .capacityExceeded requested available := by
  cases e <;> cases h
  rfl

/-- Checks that find no FIFO full themselves say so only for a stage that was told to. -/
theorem told_of_checked {told : Option FifoError} {checked : Except FifoError (List (Transfer α))}
    (htold : ∀ first, told = some first → checked = .error first.duplicate)
    (huntold : told = none → checked ≠ .error (.capacityExceeded requested available))
    (hfull : checked = .error (.capacityExceeded requested available)) :
    told = some (.capacityExceeded requested available) := by
  cases told with
  | none => exact absurd hfull (huntold rfl)
  | some first =>
    rw [htold first rfl] at hfull
    rw [eq_of_duplicate_eq (Except.error.inj hfull)]

theorem told_of_processTransfers [SharedFifo F] {db : DoubleBuffer F α} {input : List α}
    {outLength frames : Nat}
    (hfull : db.processTransfers input outLength frames =
      .error (.capacityExceeded requested available)) :
    db.outerError = some (.capacityExceeded requested available) := by
  refine told_of_checked (fun first htold => processTransfers_of_told htold ..) ?_ hfull
  intro huntold h
  rw [processTransfers, huntold] at h
  simp only at h
  split_ifs at h <;> cases h

theorem told_of_supplyTransfers {db : DoubleBuffer F α} {outLength : Nat}
    (hfull : db.supplyTransfers outLength = .error (.capacityExceeded requested available)) :
    db.innerError = some (.capacityExceeded requested available) := by
  refine told_of_checked (fun first htold => supplyTransfers_of_told htold _) ?_ hfull
  intro huntold h
  rw [supplyTransfers, huntold] at h
  simp only at h
  split_ifs at h
  cases h

theorem told_of_deliverTransfers {db : DoubleBuffer F α} {data : List α}
    (hfull : db.deliverTransfers data = .error (.capacityExceeded requested available)) :
    db.innerError = some (.capacityExceeded requested available) := by
  refine told_of_checked (fun first htold => deliverTransfers_of_told htold _) ?_ hfull
  intro huntold h
  rw [deliverTransfers, huntold] at h
  simp only at h
  split_ifs at h
  cases h

end Told

/-! ## Where the frames are -/

/-- The invariant of a disciplined run: `n` frames of input and `m` frames of output are stored when
`t` has been done. -/
structure Balanced (config : DoubleBufferConfig) (t : Tally) (n m : Nat)
    (db : DoubleBuffer LockFreeRing α) : Prop extends Holds config n m db where
  input_sum : n + config.innerSize * t.supplied = t.processed
  output_sum : m + t.processed = config.delay + config.innerSize * t.delivered
  delivered_le : t.delivered ≤ t.supplied

section Balanced

variable {config : DoubleBufferConfig} {t : Tally} {n m frames : Nat}
  {db : DoubleBuffer LockFreeRing α}

theorem Balanced.start [Memory] {fill : α} (hmake : make config fill = .ok db) :
    Balanced config {} 0 config.delay db :=
  ⟨.of_make hmake, by simp, by simp, Nat.le_refl 0⟩

/-- What is stored and what the inner stage has in hand make up the delay. -/
theorem Balanced.total (h : Balanced config t n m db) :
    n + config.innerSize * (t.supplied - t.delivered) + m = config.delay := by
  have hinput := h.input_sum
  have houtput := h.output_sum
  have hmul := Nat.mul_le_mul_left config.innerSize h.delivered_le
  -- what went in and came out is the same, and drops out of the sum of both
  rw [Nat.mul_sub]
  omega

/-- What was delivered was taken, and what was taken had come in. -/
theorem Balanced.delivered_mul_le (h : Balanced config t n m db) :
    t.delivered * config.innerSize ≤ t.processed := by
  have hinput := h.input_sum
  have hmul := Nat.mul_le_mul_left config.innerSize h.delivered_le
  rw [Nat.mul_comm]
  omega

/-- What went out was part of the delay or delivered. -/
theorem Balanced.processed_le (h : Balanced config t n m db) :
    t.processed ≤ t.delivered * config.innerSize + config.delay := by
  have houtput := h.output_sum
  rw [Nat.mul_comm]
  omega

/-- No more than `delay` frames of input are ever stored, so that an outer block fits beside
them. -/
theorem Balanced.room_store (h : Balanced config t n m db) (hframes : frames ≤ config.outerSize) :
    n + frames ≤ max config.outerSize config.innerSize + config.delay := by
  have htotal := h.total
  omega

/-- The block to be delivered is part of the delay and not yet stored. -/
theorem Balanced.room_deliver (h : Balanced config t n m db)
    (hallows : t.delivered + 1 ≤ t.supplied) :
    m + config.innerSize ≤ max config.outerSize config.innerSize + config.delay := by
  have htotal := h.total
  have hhand : config.innerSize * 1 ≤ config.innerSize * (t.supplied - t.delivered) :=
    Nat.mul_le_mul_left _ (Nat.le_sub_of_add_le' hallows)
  omega

end Balanced

/-! ## One call -/

/-- The call keeps the balance, and it finds no FIFO full: it reports so only if its stage was told
to. -/
structure Keeps (config : DoubleBufferConfig) (t : Tally) (c : Call α)
    (db : DoubleBuffer LockFreeRing α) : Prop where
  balanced : ∃ n m, Balanced config (t.record c (c.run db).outcome) n m (c.run db).after
  told_of_full : ∀ requested available,
    (c.run db).outcome = .error (.capacityExceeded requested available) →
      ∃ stage, db.stageError stage = some (.capacityExceeded requested available)

section Keeps

variable {config : DoubleBufferConfig} {t : Tally} {n m frames : Nat}
  {db : DoubleBuffer LockFreeRing α} {c : Call α} {out : List α}

theorem Keeps.of_ok (houtcome : (c.run db).outcome = .ok ())
    (hnext : Balanced config (t.record c (.ok ())) n m (c.run db).after) : Keeps config t c db := by
  refine ⟨⟨n, m, ?_⟩, ?_⟩
  · rw [houtcome]
    exact hnext
  · intro requested available hfull
    cases houtcome.symm.trans hfull

theorem Keeps.of_refused (h : Balanced config t n m db) {e : FifoError}
    (hrun : c.run db = .refused e out db)
    (htold : ∀ requested available, e = .capacityExceeded requested available →
      ∃ stage, db.stageError stage = some (.capacityExceeded requested available)) :
    Keeps config t c db := by
  refine ⟨⟨n, m, ?_⟩, ?_⟩
  · rw [hrun]
    exact (t.record_error c e).symm ▸ h
  · intro requested available hfull
    rw [hrun] at hfull
    exact htold requested available (Except.error.inj hfull)

theorem Balanced.keeps_process (h : Balanced config t n m db) (input out : List α) (frames : Nat)
    (waits : List (List (Call α))) : Keeps config t (.process input out frames waits) db := by
  have hinput := h.input_sum
  have houtput := h.output_sum
  cases hts : db.processTransfers input out.length frames with
  | error e =>
    apply Keeps.of_refused h (show _ = Step.refused e out db by rw [Call.run, hts])
    rintro requested available rfl
    exact ⟨.outer, told_of_processTransfers hts⟩
  | ok ts =>
    -- the output is there and there is room for the input, so both transfers are made
    obtain ⟨-, hframes, -⟩ := processTransfers_eq_ok.1 hts
    rw [h.config_eq] at hframes
    obtain ⟨houtcome, hthere, hholds⟩ := h.run_process hts (h.room_store hframes) waits
    refine .of_ok houtcome ⟨hholds, ?_, ?_, h.delivered_le⟩
    · show n + frames + config.innerSize * t.supplied = t.processed + frames
      omega
    · show m - frames + (t.processed + frames) = config.delay + config.innerSize * t.delivered
      omega

theorem Balanced.keeps_supply (h : Balanced config t n m db) (out : List α)
    (waits : List (List (Call α))) : Keeps config t (.supply out waits) db := by
  have hinput := h.input_sum
  cases hts : db.supplyTransfers out.length with
  | error e =>
    apply Keeps.of_refused h (show _ = Step.refused e out db by rw [Call.run, hts])
    rintro requested available rfl
    exact ⟨.inner, told_of_supplyTransfers hts⟩
  | ok ts =>
    rcases Nat.lt_or_ge n config.innerSize with hshort | hthere
    · apply Keeps.of_refused h (h.run_supply_short hts hshort waits)
      intro requested available hfull
      cases hfull
    · obtain ⟨houtcome, -, hholds⟩ := h.run_supply hts hthere waits
      refine .of_ok houtcome ⟨hholds, ?_, h.output_sum, Nat.le_succ_of_le h.delivered_le⟩
      show n - config.innerSize + config.innerSize * (t.supplied + 1) = t.processed
      rw [Nat.mul_succ]
      omega

theorem Balanced.keeps_deliver (h : Balanced config t n m db)
    (hallows : t.delivered + 1 ≤ t.supplied) (data : List α) (waits : List (List (Call α))) :
    Keeps config t (.deliver data waits) db := by
  have houtput := h.output_sum
  cases hts : db.deliverTransfers data with
  | error e =>
    apply Keeps.of_refused h (show _ = Step.refused e [] db by rw [Call.run, hts])
    rintro requested available rfl
    exact ⟨.inner, told_of_deliverTransfers hts⟩
  | ok ts =>
    obtain ⟨houtcome, hholds⟩ := h.run_deliver hts (h.room_deliver hallows) waits
    refine .of_ok houtcome ⟨hholds, h.input_sum, ?_, hallows⟩
    show m + config.innerSize + t.processed = config.delay + config.innerSize * (t.delivered + 1)
    rw [Nat.mul_succ]
    omega

/-- Every call keeps the balance, whether it succeeds or fails. -/
theorem Balanced.keeps (h : Balanced config t n m db) (hallows : t.Allows c) :
    Keeps config t c db := by
  cases c with
  | process input out frames waits => exact h.keeps_process input out frames waits
  | supply out waits => exact h.keeps_supply out waits
  | deliver data waits => exact h.keeps_deliver hallows data waits
  | provoke stage error =>
    -- nobody waits, so the FIFOs are not told
    have hholds : Holds config n m (db.provoke stage error) := by
      cases stage <;> exact ⟨h.validated, h.config_eq, h.input, h.output⟩
    exact .of_ok rfl ⟨hholds, h.input_sum, h.output_sum, h.delivered_le⟩
  | inspect => exact .of_ok rfl h

/-! ## Runs -/

/-- By induction over the calls: a disciplined run keeps the balance at every moment, and its next
call is one that the inner stage may make. -/
theorem Balanced.runAll {calls : List (Call α)} (h : Balanced config t n m db)
    (hdisciplined : Disciplined calls t db) (k : Nat) :
    (∃ n' m', Balanced config (tally (calls.take k) t db) n' m'
      (DoubleBuffer.runAll (calls.take k) db).2) ∧
      ∀ c, calls[k]? = some c → (tally (calls.take k) t db).Allows c := by
  induction calls generalizing t n m db k with
  | nil =>
    rw [List.take_nil]
    exact ⟨⟨n, m, h⟩, nofun⟩
  | cons c cs ih =>
    obtain ⟨hallows, hrest⟩ := hdisciplined
    cases k with
    | zero =>
      refine ⟨⟨n, m, h⟩, ?_⟩
      intro c' hc'
      cases hc'
      exact hallows
    | succ k =>
      obtain ⟨n', m', hnext⟩ := (h.keeps hallows).balanced
      rw [List.take_succ_cons, tally, DoubleBuffer.runAll]
      exact ih hnext hrest k

end Keeps

/-! ## What the stages can rely on -/

/-- At every moment of a disciplined run on a new double buffer over shared rings, the frames of
input that are stored, the blocks that the inner stage has in hand and the frames of output that are
stored make up the delay, and the inner stage is behind the outer stage by no more than the delay.
No call of the run ever finds a FIFO full: it reports so only if somebody told its stage to. A
delivery of a whole block always succeeds, and an outer call with slices for its frames fails only
if they are not all there. -/
theorem conserves_frames [Memory] {config : DoubleBufferConfig} {fill : α}
    {db : DoubleBuffer LockFreeRing α}
    (hmake : make config fill = .ok db) {calls : List (Call α)}
    (hdisciplined : Disciplined calls {} db) (k : Nat) :
    let t := tally (calls.take k) {} db
    let s := (runAll (calls.take k) db).2
    t.delivered ≤ t.supplied ∧
      s.inputFill + config.innerSize * (t.supplied - t.delivered) + s.outputFill = config.delay ∧
      t.delivered * config.innerSize ≤ t.processed ∧
      t.processed ≤ t.delivered * config.innerSize + config.delay ∧
      (∀ c requested available, calls[k]? = some c →
        (c.run s).outcome = .error (.capacityExceeded requested available) →
        ∃ stage, .provoke stage (.capacityExceeded requested available) ∈ calls.take k) ∧
      (∀ data waits, calls[k]? = some (.deliver data waits) → s.innerError = none →
        config.innerSize * config.outputChannels ≤ data.length →
        ((Call.deliver data waits).run s).outcome = .ok ()) ∧
      ∀ input out frames waits, calls[k]? = some (.process input out frames waits) →
        s.outerError = none → frames ≤ config.outerSize →
        frames * config.inputChannels ≤ input.length →
        frames * config.outputChannels ≤ out.length →
        ((Call.process input out frames waits).run s).outcome =
          if frames ≤ s.outputFill then .ok ()
          else .error (.insufficientData (frames * config.outputChannels)
            (s.outputFill * config.outputChannels)) := by
  intro t s
  obtain ⟨-, -, -, -, -, -, -, -, hinner, houter⟩ := make_eq_ok hmake
  obtain ⟨⟨n, m, h⟩, hnext⟩ := (Balanced.start hmake).runAll hdisciplined k
  refine ⟨h.delivered_le, ?_, h.delivered_mul_le, h.processed_le, ?_, ?_, ?_⟩
  · rw [h.inputFill_eq, h.outputFill_eq]
    exact h.total
  · intro c requested available hc hfull
    obtain ⟨stage, htold⟩ := (h.keeps (hnext c hc)).told_of_full requested available hfull
    rcases told_runAll htold with hfirst | hcall
    · cases stage with
      | inner =>
        cases hinner.symm.trans hfirst
      | outer =>
        cases houter.symm.trans hfirst
    · exact ⟨stage, hcall⟩
  · intro data waits hc huntold hlong
    rw [← h.config_eq] at hlong
    have hts := deliverTransfers_eq_ok.2 ⟨huntold, hlong, rfl⟩
    exact (h.run_deliver hts (h.room_deliver (hnext _ hc)) waits).1
  · intro input out frames waits hc huntold hframes hlong hlength
    rw [h.outputFill_eq]
    exact h.outcome_process huntold hframes hlong hlength (h.room_store hframes) waits

/-- An inner stage that is late: the third outer call fails, and the first delivery is too short.
The second is made when all of the delay is in hand. -/
theorem conserves_frames_late :
    let config : DoubleBufferConfig :=
      { outerSize := 1, innerSize := 2, delay := 2, inputChannels := 1, outputChannels := 2 }
    let calls : List (Call Nat) :=
      [.process [1] [9, 9] 1 [], .process [2] [9, 9] 1 [], .process [3] [9, 9] 1 [],
        .supply [9, 9] [], .deliver [7] [], .deliver [7, 7, 8, 8] []]
    let db : DoubleBuffer LockFreeRing Nat :=
      { config
        fifoSize := 4
        input := ⟨#[0, 0, 0, 0, 0], 0, 0, false, false⟩
        output := ⟨#[0, 0, 0, 0, 0, 0, 0, 0, 0], 4, 0, false, false⟩
        innerError := none
        outerError := none }
    let s := (runAll (calls.take 5) db).2
    make config 0 = .ok db ∧ Disciplined calls {} db ∧
      tally (calls.take 5) {} db = { processed := 2, supplied := 1, delivered := 0 } ∧
      s.inputFill + 2 * 1 + s.outputFill = 2 ∧
      ((Call.deliver [7, 7, 8, 8] []).run s).outcome = .ok () := by
  intro config calls db s
  have hmake : make config 0 = .ok db := rfl
  have hdisciplined : Disciplined calls {} db := by decide +kernel
  have htally : tally (calls.take 5) {} db = { processed := 2, supplied := 1, delivered := 0 } := by
    decide +kernel
  have huntold : s.innerError = none := by decide +kernel
  obtain ⟨-, hsum, -, -, -, hdelivers, -⟩ := conserves_frames hmake hdisciplined 5
  rw [htally] at hsum
  exact ⟨hmake, hdisciplined, htally, hsum, hdelivers _ _ rfl huntold (by decide)⟩

end BlockFlow.DoubleBuffer
