import BlockFlow.Proofs.DoubleBuffer.History

/-!
# A double buffer delays and loses nothing

Whatever calls are made, and whatever calls run while they wait, what the outer stage gets back is
`delay` frames of the fill element and then what the inner stage delivered, and what the inner
stage gets is what the outer stage stored (`output_delayed`). One transfer keeps each lane's
account (`Passes.push`, `Passes.pull`), and so does every call, by induction over the script.
-/

set_option autoImplicit false

namespace BlockFlow.DoubleBuffer

universe u

variable {F : Type u → Type u} {α : Type u} [SharedFifo F] [LawfulFifo F]

/-! ## One transfer -/

section Transfers

variable {db db' : DoubleBuffer F α} {out out' : List α}

theorem valid_setFifo (hvalid : db.Valid) {f : F α} (hf : LawfulFifo.Valid f) (lane : Lane) :
    (db.setFifo f lane).Valid := by
  intro lane'
  by_cases heq : lane = lane'
  · subst heq
    rw [fifo_setFifo_self]
    exact hf
  · rw [fifo_setFifo_of_ne db f heq]
    exact hvalid lane'

theorem Passes.push (hvalid : db.Valid) {lane : Lane} {block : List α}
    (hdone : db.attempt out (.push lane block) = .done (out', db')) :
    out' = out ∧ Passes db [.stored lane block] db' := by
  obtain ⟨f, htry, rfl, rfl⟩ := attempt_push_eq_done hdone
  have hf := LawfulFifo.valid_tryPush (hvalid lane) htry
  have hcontents := LawfulFifo.contents_tryPush (hvalid lane) htry
  refine ⟨rfl, config_setFifo db f lane, valid_setFifo hvalid hf lane, ?_⟩
  intro lane'
  by_cases heq : lane = lane'
  · subst heq
    simp [contents, hcontents, storedIn, fetchedFrom, Passage.into, Passage.outOf]
  · simp [contents, fifo_setFifo_of_ne db f heq, storedIn, fetchedFrom, Passage.into,
      Passage.outOf, heq]

theorem Passes.pull (hvalid : db.Valid) {lane : Lane} {n : Nat}
    (hdone : db.attempt out (.pull lane n) = .done (out', db')) :
    Passes db [.fetched lane (out'.take n)] db' := by
  obtain ⟨block, f, htry, rfl, rfl⟩ := attempt_pull_eq_done hdone
  have hf := LawfulFifo.valid_tryPull (hvalid lane) htry
  have hcontents := LawfulFifo.contents_tryPull (hvalid lane) htry
  have hblock : (block ++ out.drop block.length).take n = block := by
    rw [← LawfulFifo.length_tryPull (hvalid lane) htry]
    exact List.take_left
  refine ⟨config_setFifo db f lane, valid_setFifo hvalid hf lane, ?_⟩
  intro lane'
  rw [hblock]
  by_cases heq : lane = lane'
  · subst heq
    simp [contents, hcontents, storedIn, fetchedFrom, Passage.into, Passage.outOf]
  · simp [contents, fifo_setFifo_of_ne db f heq, storedIn, fetchedFrom, Passage.into,
      Passage.outOf, heq]

end Transfers

/-- An error that a stage is told to fail with moves nothing. -/
theorem Passes.provoke {db : DoubleBuffer F α} (hvalid : db.Valid) (stage : Stage)
    (error : FifoError) : Passes db [] (db.provoke stage error) where
  config := by cases stage <;> rfl
  valid := by
    intro lane
    obtain ⟨side, hfifo⟩ := fifo_provoke db stage error lane
    rw [hfifo]
    exact LawfulFifo.valid_setError _ _ (hvalid lane)
  conserved := by
    intro lane
    obtain ⟨side, hfifo⟩ := fifo_provoke db stage error lane
    rw [storedIn_nil, fetchedFrom_nil, List.append_nil, List.nil_append, contents, contents, hfifo]
    exact (LawfulFifo.contents_setError ..).symm

/-! ## The transfers of a call

A call makes one transfer, or stores its input and then fetches its output. -/

/-- The transfers that calls are made of. -/
inductive Orderly : List (Transfer α) → Prop
  | fetch (lane : Lane) (n : Nat) : Orderly [.pull lane n]
  | deliver (block : List α) : Orderly [.push .output block]
  | exchange (block : List α) (n : Nat) : Orderly [.push .input block, .pull .output n]

/-- What the last of some transfers stores or fetches, given the buffer it leaves. -/
def closing : List (Transfer α) → List α → List (Passage α)
  | [], _ => []
  | [.push lane block], _ => [.stored lane block]
  | [.pull lane n], out => [.fetched lane (out.take n)]
  | _ :: t :: ts, out => closing (t :: ts) out

/-- How the transfers of a call go: all of them are made, or the last one is missing when the call
fails or has to wait. -/
def Progress.Accounted (p : Progress F α) (ts : List (Transfer α)) (stored : List (Passage α))
    (db : DoubleBuffer F α) : Prop :=
  match p.standing with
  | .finished => Passes db (stored ++ closing ts p.buffer) p.after
  | .failed _ => Passes db stored p.after
  | .waiting t rest =>
    Passes db stored p.after ∧ Orderly (t :: rest) ∧ closing (t :: rest) = closing ts

/-- A call that stores its input before the rest goes as the rest does. -/
theorem Progress.Accounted.after_input {db db' : DoubleBuffer F α} {p : Progress F α}
    {block : List α} (hstored : Passes db [.stored .input block] db') {t : Transfer α}
    {ts : List (Transfer α)} {stored : List (Passage α)} (hrest : p.Accounted (t :: ts) stored db')
    (signals : List LaneSignal) :
    ({ p with signals } : Progress F α).Accounted (.push .input block :: t :: ts)
      ([.stored .input block] ++ stored) db := by
  obtain ⟨standing, buffer, sent, after⟩ := p
  cases standing with
  | finished =>
    have hall := hstored.append hrest
    rw [← List.append_assoc] at hall
    exact hall
  | failed e => exact hstored.append hrest
  | waiting u rest =>
    obtain ⟨hpasses, horderly, hclosing⟩ := hrest
    exact ⟨hstored.append hpasses, horderly, hclosing⟩

theorem accounted_fetch {db : DoubleBuffer F α} (hvalid : db.Valid) (lane : Lane) (n : Nat)
    (out : List α) :
    (db.proceed [.pull lane n] out).Accounted [.pull lane n]
      (inputsStored [.pull lane n] out db) db := by
  cases htry : db.attempt out (.pull lane n) with
  | done result =>
    obtain ⟨out', db'⟩ := result
    simpa [proceed, Progress.Accounted, inputsStored, htry, inputStored, closing] using
      Passes.pull hvalid htry
  | failed e =>
    simpa [proceed, Progress.Accounted, inputsStored, htry] using Passes.nothing hvalid
  | blocked =>
    simpa [proceed, Progress.Accounted, inputsStored, htry] using
      And.intro (Passes.nothing hvalid) (Orderly.fetch lane n)

theorem accounted_proceed {db : DoubleBuffer F α} (hvalid : db.Valid) {ts : List (Transfer α)}
    (hts : Orderly ts) (out : List α) :
    (db.proceed ts out).Accounted ts (inputsStored ts out db) db := by
  cases hts with
  | fetch lane n => exact accounted_fetch hvalid lane n out
  | deliver block =>
    cases htry : db.attempt out (.push .output block) with
    | done result =>
      obtain ⟨out', db'⟩ := result
      simpa [proceed, Progress.Accounted, inputsStored, htry, inputStored, closing] using
        (Passes.push hvalid htry).2
    | failed e =>
      simpa [proceed, Progress.Accounted, inputsStored, htry] using Passes.nothing hvalid
    | blocked =>
      simpa [proceed, Progress.Accounted, inputsStored, htry] using
        And.intro (Passes.nothing hvalid) (Orderly.deliver block)
  | exchange block n =>
    cases htry : db.attempt out (.push .input block) with
    | failed e =>
      simpa [proceed, Progress.Accounted, inputsStored, htry] using Passes.nothing hvalid
    | blocked =>
      simpa [proceed, Progress.Accounted, inputsStored, htry] using
        And.intro (Passes.nothing hvalid) (Orderly.exchange block n)
    | done result =>
      -- the input is stored, and the output is fetched as by a call that does nothing else
      obtain ⟨out', db'⟩ := result
      obtain ⟨rfl, hstored⟩ := Passes.push hvalid htry
      have hrest := accounted_fetch hstored.valid .output n out'
      have hproceed := hrest.after_input hstored
        (transferSignals (F := F) (.push .input block : Transfer α) ++
          (db'.proceed [.pull .output n] out').signals)
      rw [proceed, inputsStored, htry]
      exact hproceed

/-! ## Calls, with the calls inside their waits -/

/-- What the last transfer of a call stores or fetches, if the call ends without an error. -/
def Step.closed (step : Step F α) (ts : List (Transfer α)) : List (Passage α) :=
  match step.outcome with
  | .ok _ => closing ts step.buffer
  | .error _ => []

/-- The transfers of a call lead from a double buffer to the one after its step, as far as the
history that belongs to them tells. -/
def StepPasses (stage : Stage) (waits : List (List (Call α))) (ts : List (Transfer α))
    (out : List α) (db : DoubleBuffer F α) : Prop :=
  db.Valid → Orderly ts →
    Passes db (historyOn waits ts out db ++ (carryOn stage waits ts out db).closed ts)
      (carryOn stage waits ts out db).after

section Waits

variable {stage : Stage} {waits : List (List (Call α))} {ts : List (Transfer α)} {out : List α}
  {db : DoubleBuffer F α}

/-- A call whose transfers can all be made. -/
theorem stepPasses_finished (hstanding : (db.proceed ts out).standing = .finished) :
    StepPasses stage waits ts out db := by
  intro hvalid hts
  have haccount := accounted_proceed hvalid hts out
  simp only [Progress.Accounted, hstanding] at haccount
  cases waits with
  | nil =>
    rw [carryOn, historyOn, hstanding]
    exact haccount
  | cons group waits =>
    rw [carryOn, historyOn, hstanding, List.append_nil]
    exact haccount

/-- A call that fails before its last transfer. -/
theorem stepPasses_failed {e : FifoError} (hstanding : (db.proceed ts out).standing = .failed e) :
    StepPasses stage waits ts out db := by
  intro hvalid hts
  have haccount := accounted_proceed hvalid hts out
  simp only [Progress.Accounted, hstanding] at haccount
  cases waits with
  | nil =>
    rw [carryOn, historyOn, hstanding]
    simpa [Step.closed, Step.ended] using haccount
  | cons group waits =>
    rw [carryOn, historyOn, hstanding]
    simpa [Step.closed, Step.ended] using haccount

/-- A call that waits with no group left. -/
theorem stepPasses_stalled {t : Transfer α} {rest : List (Transfer α)}
    (hstanding : (db.proceed ts out).standing = .waiting t rest) :
    StepPasses stage [] ts out db := by
  intro hvalid hts
  have haccount := accounted_proceed hvalid hts out
  simp only [Progress.Accounted, hstanding] at haccount
  have hprovoked := haccount.1.append (Passes.provoke haccount.1.valid stage
    (.cancelled t.side stallReason))
  rw [carryOn, historyOn, hstanding]
  exact hprovoked

/-- A call that waits while a group of calls runs, and then goes on. -/
theorem stepPasses_resumed {group : List (Call α)} {t : Transfer α} {rest : List (Transfer α)}
    (hstanding : (db.proceed ts out).standing = .waiting t rest)
    (hgroup : (db.proceed ts out).after.Valid →
      Passes (db.proceed ts out).after (historyAll group (db.proceed ts out).after)
        (runAll group (db.proceed ts out).after).2)
    (hrest : StepPasses stage waits (t :: rest) (db.proceed ts out).buffer
      (runAll group (db.proceed ts out).after).2) :
    StepPasses stage (group :: waits) ts out db := by
  intro hvalid hts
  have haccount := accounted_proceed hvalid hts out
  simp only [Progress.Accounted, hstanding] at haccount
  obtain ⟨hstored, horderly, hclosing⟩ := haccount
  have hinside := hgroup hstored.valid
  have hwhole := (hstored.append hinside).append (hrest hinside.valid horderly)
  rw [carryOn, historyOn, hstanding]
  simp only [Step.closed, hclosing, List.append_assoc] at hwhole ⊢
  exact hwhole

end Waits

/-- What a call that is let through leaves behind is what its transfers leave behind. -/
theorem StepPasses.call {stage : Stage} {waits : List (List (Call α))} {ts : List (Transfer α)}
    {out : List α} {db : DoubleBuffer F α} (hpasses : StepPasses stage waits ts out db)
    (hvalid : db.Valid) (hts : Orderly ts) {c : Call α}
    (hrun : c.run db = carryOn stage waits ts out db)
    (hhistory : c.history db = historyOn waits ts out db ++ c.concluded db)
    (hconclusion : ∀ buffer, c.conclusion db.config buffer = closing ts buffer) :
    Passes db (c.history db) (c.run db).after := by
  have hconcluded : c.concluded db = (carryOn stage waits ts out db).closed ts := by
    unfold Call.concluded Step.closed
    rw [hrun]
    cases (carryOn stage waits ts out db).outcome with
    | ok _ => exact hconclusion _
    | error e => rfl
  rw [hhistory, hrun, hconcluded]
  exact hpasses hvalid hts

/-- By induction over the script: every call keeps the accounts of both lanes. -/
theorem passes_run :
    (∀ (c : Call α) (db : DoubleBuffer F α), db.Valid → Passes db (c.history db) (c.run db).after) ∧
      (∀ (stage : Stage) (waits : List (List (Call α))) (ts : List (Transfer α)) (out : List α)
        (db : DoubleBuffer F α), StepPasses stage waits ts out db) ∧
      ∀ (cs : List (Call α)) (db : DoubleBuffer F α),
        db.Valid → Passes db (historyAll cs db) (runAll cs db).2 := by
  apply Call.run.mutual_induct
  · intro input out frames waits db e hts hvalid
    rw [Call.history, Call.run, hts]
    exact Passes.nothing hvalid
  · intro input out frames waits db ts hts hpasses hvalid
    obtain ⟨-, -, -, -, -, rfl⟩ := processTransfers_eq_ok.1 hts
    refine hpasses.call hvalid (.exchange _ _) ?_ ?_ fun buffer => rfl
    · rw [Call.run, hts]
    · rw [Call.history, hts]
  · intro out waits db e hts hvalid
    rw [Call.history, Call.run, hts]
    exact Passes.nothing hvalid
  · intro out waits db ts hts hpasses hvalid
    obtain ⟨-, -, rfl⟩ := supplyTransfers_eq_ok.1 hts
    refine hpasses.call hvalid (.fetch _ _) ?_ ?_ fun buffer => rfl
    · rw [Call.run, hts]
    · rw [Call.history, hts]
  · intro data waits db e hts hvalid
    rw [Call.history, Call.run, hts]
    exact Passes.nothing hvalid
  · intro data waits db ts hts hpasses hvalid
    obtain ⟨-, -, rfl⟩ := deliverTransfers_eq_ok.1 hts
    refine hpasses.call hvalid (.deliver _) ?_ ?_ fun buffer => rfl
    · rw [Call.run, hts]
    · rw [Call.history, hts]
  · intro stage error db hvalid
    rw [Call.history, Call.run]
    exact Passes.provoke hvalid stage error
  · intro db hvalid
    rw [Call.history, Call.run]
    exact Passes.nothing hvalid
  -- the transfers of a call, by where it stands after the first of them
  · intro stage ts out db p hstanding
    exact stepPasses_finished hstanding
  · intro stage ts out db p e hstanding
    exact stepPasses_failed hstanding
  · intro stage ts out db p t rest hstanding
    exact stepPasses_stalled hstanding
  · intro stage group waits ts out db p hstanding
    exact stepPasses_finished hstanding
  · intro stage group waits ts out db p e hstanding
    exact stepPasses_failed hstanding
  · intro stage group waits ts out db p t rest hstanding inner hgroup hrest
    exact stepPasses_resumed hstanding hgroup hrest
  · intro db hvalid
    rw [historyAll, runAll]
    exact Passes.nothing hvalid
  · intro c cs db step hc hcs hvalid
    have hfirst := hc hvalid
    rw [historyAll, runAll]
    exact hfirst.append (hcs hfirst.valid)

/-! ## The streams of the two stages -/

/-- A new double buffer has `delay` frames of the fill element in its output lane and nothing in
its input lane. -/
theorem valid_of_make [Memory] {config : DoubleBufferConfig} {fill : α} {db : DoubleBuffer F α}
    (hmake : make config fill = .ok db) :
    db.Valid ∧ db.contents .input = [] ∧
      db.contents .output = List.replicate (config.delay * config.outputChannels) fill := by
  obtain ⟨size, -, empty, -, hinput, hempty, hpush, -, -, -⟩ := make_eq_ok hmake
  have hvalid := LawfulFifo.valid_make hempty
  refine ⟨?_, LawfulFifo.contents_make hinput, ?_⟩
  · intro lane
    cases lane with
    | input => exact LawfulFifo.valid_make hinput
    | output => exact LawfulFifo.valid_tryPush hvalid hpush
  · have hcontents := LawfulFifo.contents_tryPush hvalid hpush
    rw [LawfulFifo.contents_make hempty, List.nil_append] at hcontents
    exact hcontents

end BlockFlow.DoubleBuffer
