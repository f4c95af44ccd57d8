import BlockFlow.Proofs.DoubleBuffer.Provoked

/-!
# Whoever waits for a stage that is told to fail is woken

On blocking FIFOs a stage is told to fail at the two FIFOs where it can wait. Each of them is told
as by a call of its own: it keeps the error, logs it and wakes everyone who waits on it
(`armsAt_provoke`). Where a stage is told while some calls run, one of them or of those in their
waits tells it. By induction over the script, everyone who waits on either FIFO is woken then
(`sends_wakeAll_run`).
-/

set_option autoImplicit false

namespace BlockFlow.DoubleBuffer

universe u

variable {α : Type u}

/-! ## One FIFO -/

/-- The signals that the FIFO of a lane sends. -/
def signalsOn (lane : Lane) (sent : List LaneSignal) : List Signal :=
  sent.filterMap fun s => if s.lane = lane then some s.signal else none

theorem mem_signalsOn {lane : Lane} {sent : List LaneSignal} {signal : Signal} :
    signal ∈ signalsOn lane sent ↔ ⟨lane, signal⟩ ∈ sent := by
  constructor
  · intro hmem
    obtain ⟨s, hs, hsome⟩ := List.mem_filterMap.1 hmem
    split at hsome
    · next hlane =>
      cases hlane
      cases hsome
      exact hs
    · cases hsome
  · intro hmem
    exact List.mem_filterMap.2 ⟨_, hmem, if_pos rfl⟩

/-- The call that tells a stage to fail is, at the FIFO of a lane, the call that arms a party there:
it leaves the same FIFO, sends the same signals and logs the same error. -/
structure ArmsAt (db : DoubleBuffer BlockingRing α) (stage : Stage) (error : FifoError)
    (lane : Lane) (side : Side) : Prop where
  after : ((Call.provoke stage error).run db).after.fifo lane =
    ((BlockingRing.Call.setError side error.duplicate).run (db.fifo lane)).after
  signals : signalsOn lane ((Call.provoke stage error).run db).signals =
    ((BlockingRing.Call.setError side error.duplicate).run (db.fifo lane)).signals
  log : ((BlockingRing.Call.setError side error.duplicate).run (db.fifo lane)).log ⊆
    ((Call.provoke stage error).run db).log

theorem armsAt_provoke (db : DoubleBuffer BlockingRing α) {stage : Stage} (error : FifoError)
    {lane : Lane} {side : Side} (hside : stageAt lane side = stage) :
    ArmsAt db stage error lane side := by
  subst hside
  refine ⟨?_, ?_, ?_⟩ <;> rw [Call.run, BlockingRing.Call.run]
  · cases lane <;> cases side <;> rfl
  · cases lane <;> rfl
  · cases lane <;> cases side <;> simp [provokeLog, stageAt, SharedFifo.blocking]

/-- A FIFO that arms a party wakes everyone who waits on it. -/
theorem ArmsAt.wakeAll_mem {db : DoubleBuffer BlockingRing α} {stage : Stage} {error : FifoError}
    {lane : Lane} {side : Side} (h : ArmsAt db stage error lane side) :
    ⟨lane, .wakeAll⟩ ∈ ((Call.provoke stage error).run db).signals := by
  have hsent := h.signals
  rw [BlockingRing.Call.run] at hsent
  rw [← mem_signalsOn, hsent]
  exact List.mem_singleton_self _

/-- Each stage can wait at both FIFOs. -/
theorem exists_stageAt_eq (lane : Lane) (stage : Stage) : ∃ side, stageAt lane side = stage := by
  cases lane <;> cases stage
  · exact ⟨.reader, rfl⟩
  · exact ⟨.writer, rfl⟩
  · exact ⟨.writer, rfl⟩
  · exact ⟨.reader, rfl⟩

/-- Telling a stage wakes everyone who waits on either FIFO. -/
theorem wakeAll_mem_provokeSignals (db : DoubleBuffer BlockingRing α) (stage : Stage)
    (error : FifoError) (lane : Lane) :
    ⟨lane, .wakeAll⟩ ∈ provokeSignals BlockingRing.{u} := by
  obtain ⟨side, hside⟩ := exists_stageAt_eq lane stage
  have hwoken := (armsAt_provoke db error hside).wakeAll_mem
  rwa [Call.run] at hwoken

/-! ## A script -/

/-- The signal is sent in a step, or in one of those inside its waits. -/
inductive Step.Sends (sent : LaneSignal) : Step BlockingRing α → Prop where
  | own {step : Step BlockingRing α} (h : sent ∈ step.signals) : Step.Sends sent step
  | inside {step s : Step BlockingRing α} {group : List (Step BlockingRing α)}
      (hgroup : group ∈ step.during) (hs : s ∈ group) (h : Step.Sends sent s) :
      Step.Sends sent step

section Waits

variable {sent : LaneSignal} {t : Transfer α} {p : Progress BlockingRing α}
  {group : List (Step BlockingRing α)} {rest : Step BlockingRing α}

theorem Step.sends_afterWait_of_group {s : Step BlockingRing α} (hs : s ∈ group)
    (h : s.Sends sent) : (Step.afterWait t p group rest).Sends sent :=
  .inside List.mem_cons_self hs h

theorem Step.Sends.afterWait (h : rest.Sends sent) :
    (Step.afterWait t p group rest).Sends sent := by
  cases h with
  | own hsent => exact .own (List.mem_append_right _ (List.mem_cons_of_mem _ hsent))
  | inside hgroup hs hsends => exact .inside (List.mem_cons_of_mem _ hgroup) hs hsends

end Waits

/-- By induction over the script: where a stage is told to fail, everyone who waits on either FIFO
is woken. -/
theorem sends_wakeAll_run (stage : Stage) (lane : Lane) :
    (∀ (c : Call α) (db : DoubleBuffer BlockingRing α),
      provokedIn stage (c.run db).log ≠ [] → (c.run db).Sends ⟨lane, .wakeAll⟩) ∧
      (∀ (of : Stage) (waits : List (List (Call α))) (ts : List (Transfer α)) (out : List α)
        (db : DoubleBuffer BlockingRing α),
          provokedIn stage (carryOn of waits ts out db).log ≠ [] →
            (carryOn of waits ts out db).Sends ⟨lane, .wakeAll⟩) ∧
      ∀ (cs : List (Call α)) (db : DoubleBuffer BlockingRing α),
        provokedIn stage ((runAll cs db).1.flatMap Step.log) ≠ [] →
          ∃ s ∈ (runAll cs db).1, s.Sends ⟨lane, .wakeAll⟩ := by
  -- a call that ends where its transfers leave it tells nobody
  have untold {P : Prop} : provokedIn stage [] ≠ [] → P := fun h => absurd rfl h
  apply Call.run.mutual_induct
  -- each stage's call is refused at once, or comes down to its transfers
  · intro input out frames waits db e hts
    rw [Call.run, hts]
    exact untold
  · intro input out frames waits db ts hts ih
    rw [Call.run, hts]
    exact ih
  · intro out waits db e hts
    rw [Call.run, hts]
    exact untold
  · intro out waits db ts hts ih
    rw [Call.run, hts]
    exact ih
  · intro data waits db e hts
    rw [Call.run, hts]
    exact untold
  · intro data waits db ts hts ih
    rw [Call.run, hts]
    exact ih
  · intro stage' error db _
    rw [Call.run]
    exact .own (wakeAll_mem_provokeSignals db stage' error lane)
  · intro db
    rw [Call.run]
    exact untold
  -- the transfers of a call with no group left, by where they stand
  · intro of ts out db p hstanding
    rw [carryOn, hstanding]
    exact untold
  · intro of ts out db p e hstanding
    rw [carryOn, hstanding]
    exact untold
  · intro of ts out db p t rest hstanding _
    rw [carryOn, hstanding]
    have hwoken := wakeAll_mem_provokeSignals p.after of (.cancelled t.side stallReason) lane
    exact .own (List.mem_append_right _ (List.mem_cons_of_mem _ hwoken))
  -- and with a group for the next wait
  · intro of group waits ts out db p hstanding
    rw [carryOn, hstanding]
    exact untold
  · intro of group waits ts out db p e hstanding
    rw [carryOn, hstanding]
    exact untold
  · intro of group waits ts out db p t rest hstanding inner hgroup hrest htold
    rw [carryOn, hstanding] at htold ⊢
    by_cases hinside : provokedIn stage (inner.1.flatMap Step.log) = []
    · refine (hrest fun hlater => htold ?_).afterWait
      exact (provokedIn_append ..).trans (List.append_eq_nil_iff.2 ⟨hinside, hlater⟩)
    · obtain ⟨s, hs, hsends⟩ := hgroup hinside
      exact Step.sends_afterWait_of_group hs hsends
  · intro db
    exact untold
  · intro c cs db step hc hcs htold
    rw [runAll, List.flatMap_cons, provokedIn_append] at htold
    rw [runAll]
    by_cases hfirst : provokedIn stage step.log = []
    · obtain ⟨s, hs, hsends⟩ := hcs fun hlater => htold (List.append_eq_nil_iff.2 ⟨hfirst, hlater⟩)
      exact ⟨s, List.mem_cons_of_mem _ hs, hsends⟩
    · exact ⟨step, List.mem_cons_self, hc hfirst⟩

end BlockFlow.DoubleBuffer
