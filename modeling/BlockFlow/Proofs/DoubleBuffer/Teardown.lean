import BlockFlow.Proofs.DoubleBuffer.Waking

/-!
# A stage that is told to fail is let go, and the other one is left alone

On blocking FIFOs a stage is told to fail so that it comes to its end wherever it stands. A call
that it begins afterwards fails at once. A call that waits is woken and looks once more: it makes
the transfers it has left as long as they are possible, fails at the first that is not, and does not
wait again (`Told.looks_once`, `Told.ends_carryOn`).

The other stage notices nothing. What it sees of the double buffer stays as it is (`Without`), and
so each of its calls goes as if the stage had not been told and only made no more calls
(`run_without`). For every moment of every script both are put together in `releases_told`.
-/

set_option autoImplicit false

namespace BlockFlow.DoubleBuffer

universe u

variable {α : Type u}

/-! ## The last look of a stage that was told -/

/-- How a call goes whose transfers can all be looked at now: it makes the first of them, `made`,
and ends because none is left or because the next one is not possible. -/
structure EndsNow (db : DoubleBuffer BlockingRing α) (stage : Stage) (ts : List (Transfer α))
    (out : List α) (made left : List (Transfer α)) (outcome : Outcome) : Prop where
  split : made ++ left = ts
  made_all : (db.proceed made out).standing = .finished
  /-- Whatever groups are left for its waits, none runs. -/
  no_wait : ∀ waits : List (List (Call α)),
    carryOn stage waits ts out db = .ended outcome (db.proceed made out)
  outcome_eq : left = [] ∧ outcome = .ok () ∨
    ∃ t rest e, left = t :: rest ∧ ¬ (db.proceed made out).after.Possible t ∧ outcome = .error e

section Told

variable {config : DoubleBufferConfig} {past : List LogEvent} {db : DoubleBuffer BlockingRing α}
  {stage : Stage} {t : Transfer α} {ts : List (Transfer α)}

/-- A side of a FIFO is armed as soon as its stage was told to fail. -/
theorem Told.armed (h : Told config past db) (htold : provokedIn stage past ≠ []) {lane : Lane}
    {side : Side} (hstage : stageAt lane side = stage) :
    ∃ e, (db.fifo lane).armed side = some e := by
  have hlast := h.last lane side
  rw [hstage, List.getLast?_eq_some_getLast htold] at hlast
  exact ⟨_, hlast⟩

/-- A transfer that is held up fails if its stage was told to. -/
theorem Told.attempt_of_not_possible (h : Told config past db) (htold : provokedIn stage past ≠ [])
    (ht : stageAt t.lane t.side = stage ∧ count t ≤ laneCapacity config t.lane)
    (hnot : ¬ db.Possible t) (out : List α) : ∃ e, db.attempt out t = .failed e := by
  obtain ⟨e, harmed⟩ := h.armed htold ht.1
  have hheld := DoubleBuffer.attempt_of_not_possible hnot
    ((h.capacity t.lane).symm ▸ ht.2) out
  rw [BlockingRing.holdUp_of_armed harmed] at hheld
  exact ⟨_, hheld⟩

/-- A transfer that is possible comes before those of the rest of the call. -/
theorem Told.proceed_cons (h : Told config past db) (hpossible : db.Possible t)
    (ts : List (Transfer α)) (out : List α) :
    db.proceed (t :: ts) out =
      { (db.performed t).proceed ts (db.filled out t) with
        signals := transferSignals (F := BlockingRing) t ++
          ((db.performed t).proceed ts (db.filled out t)).signals } := by
  rw [DoubleBuffer.proceed, attempt_of_possible h.valid hpossible]

/-- By induction over the transfers: those that can be made are made, and the first that cannot is
refused. -/
theorem Told.proceed_split (h : Told config past db) (htold : provokedIn stage past ≠ [])
    (hts : OfStage config stage ts) (out : List α) :
    ∃ made left standing, made ++ left = ts ∧ (db.proceed made out).standing = .finished ∧
      db.proceed ts out = { db.proceed made out with standing } ∧
      (left = [] ∧ standing = .finished ∨
        ∃ t rest e, left = t :: rest ∧ ¬ (db.proceed made out).after.Possible t ∧
          standing = .failed e) := by
  induction ts generalizing db out with
  | nil => exact ⟨[], [], .finished, rfl, rfl, rfl, .inl ⟨rfl, rfl⟩⟩
  | cons t ts ih =>
    by_cases hpossible : db.Possible t
    · have hrest : OfStage config stage ts := fun u hu => hts u (List.mem_cons_of_mem t hu)
      obtain ⟨made, left, standing, hsplit, hmade, hproceed, hends⟩ :=
        ih (h.performed t) hrest (db.filled out t)
      refine ⟨t :: made, left, standing, congrArg (t :: ·) hsplit, ?_, ?_, ?_⟩
      · rw [h.proceed_cons hpossible]
        exact hmade
      · rw [h.proceed_cons hpossible, h.proceed_cons hpossible, hproceed]
      · rw [h.proceed_cons hpossible]
        exact hends
    · have ht := hts t List.mem_cons_self
      obtain ⟨e, hfailed⟩ := h.attempt_of_not_possible htold ht hpossible out
      refine ⟨[], t :: ts, .failed e, rfl, rfl, ?_, .inr ⟨t, ts, e, rfl, hpossible, rfl⟩⟩
      exact proceed_of_failed hfailed ts

/-- A call that waited and looks again after its stage was told does not wait any more. -/
theorem Told.looks_once (h : Told config past db) (htold : provokedIn stage past ≠ [])
    (hts : OfStage config stage ts) (out : List α) :
    ∃ made left outcome, db.EndsNow stage ts out made left outcome := by
  obtain ⟨made, left, standing, hsplit, hmade, hproceed, hends⟩ := h.proceed_split htold hts out
  have hstanding : (db.proceed ts out).standing = standing := by rw [hproceed]
  rcases hends with ⟨hleft, rfl⟩ | ⟨t, rest, e, hleft, hnot, rfl⟩
  · refine ⟨made, left, .ok (), hsplit, hmade, ?_, .inl ⟨hleft, rfl⟩⟩
    intro waits
    rw [carryOn_of_finished hstanding, hproceed]
    rfl
  · refine ⟨made, left, .error e, hsplit, hmade, ?_, .inr ⟨t, rest, e, hleft, hnot, rfl⟩⟩
    intro waits
    rw [carryOn_of_failed hstanding, hproceed]
    rfl

/-- The one transfer that a call has left is made if it is possible. -/
theorem Told.carryOn_of_possible (h : Told config past db) (hpossible : db.Possible t)
    (waits : List (List (Call α))) (out : List α) :
    carryOn stage waits [t] out db =
      .ended (.ok ()) ⟨.finished, db.filled out t, transferSignals (F := BlockingRing) t,
        db.performed t⟩ := by
  have hproceed := h.proceed_cons hpossible [] out
  have hstanding : (db.proceed [t] out).standing = .finished := by
    rw [hproceed]
    rfl
  rw [carryOn_of_finished hstanding, hproceed]
  simp only [DoubleBuffer.proceed, List.append_nil]

/-- Otherwise the call fails with nothing transferred. -/
theorem Told.carryOn_of_not_possible (h : Told config past db)
    (htold : provokedIn stage past ≠ []) (hts : OfStage config stage (t :: ts))
    (hnot : ¬ db.Possible t) (out : List α) :
    ∃ e, ∀ waits : List (List (Call α)),
      carryOn stage waits (t :: ts) out db = .refused e out db := by
  obtain ⟨e, hfailed⟩ := h.attempt_of_not_possible htold (hts t List.mem_cons_self) hnot out
  have hproceed := proceed_of_failed hfailed ts
  have hstanding : (db.proceed (t :: ts) out).standing = .failed e := by rw [hproceed]
  refine ⟨e, fun waits => ?_⟩
  rw [carryOn_of_failed hstanding, hproceed]
  rfl

end Told

/-! ## The waits of a call -/

/-- The signal says that a party starts to wait. -/
def startsWait (sent : LaneSignal) : Bool :=
  sent.signal == .waiting .reader || sent.signal == .waiting .writer

/-- How often a call started to wait. -/
def Step.waitCount (s : Step BlockingRing α) : Nat := s.signals.countP startsWait

/-- The double buffer as a group of calls left it. -/
def leftBy (group : List (Step BlockingRing α)) : Option (DoubleBuffer BlockingRing α) :=
  group.getLast?.map Step.after

/-- How a call with the transfers `ts` goes whose stage is told to fail while `group` runs in its
wait: the wait is the last one, and the call ends with the look that it takes at what the group
left. -/
structure EndsAfter (stage : Stage) (ts : List (Transfer α))
    (before : List (List (Step BlockingRing α))) (group : List (Step BlockingRing α))
    (step : Step BlockingRing α) : Prop where
  last_group : step.during = before ++ [group]
  last_wait : step.waitCount = before.length + 1
  /-- In the group everyone who waits on either FIFO is woken, and so the call looks. -/
  woken : ∀ lane, ∃ s ∈ group, s.Sends ⟨lane, .wakeAll⟩
  last_look : ∃ db rest out made left, leftBy group = some db ∧ rest ≠ [] ∧ rest <:+ ts ∧
    db.EndsNow stage rest out made left step.outcome ∧
    step.buffer = (db.proceed made out).buffer ∧ step.after = (db.proceed made out).after

theorem startsWait_transferred (lane : Lane) (side : Side) :
    startsWait ⟨lane, .transferred side⟩ = false := by
  cases side <;> rfl

theorem startsWait_waiting (lane : Lane) (side : Side) :
    startsWait ⟨lane, .waiting side⟩ = true := by
  cases side <;> rfl

/-- Nobody waits in the middle of the transfers that can be made. -/
theorem countP_signals_proceed (ts : List (Transfer α)) (out : List α)
    (db : DoubleBuffer BlockingRing α) : (db.proceed ts out).signals.countP startsWait = 0 := by
  induction ts generalizing out db with
  | nil => rfl
  | cons t ts ih =>
    rw [proceed]
    cases db.attempt out t with
    | done result =>
      have hfirst : (transferSignals (F := BlockingRing) t).countP startsWait = 0 := by
        simp [transferSignals, startsWait_transferred, SharedFifo.blocking]
      rw [List.countP_append, hfirst, ih]
    | failed e => rfl
    | blocked => rfl

theorem leftBy_runAll {cs : List (Call α)} {db : DoubleBuffer BlockingRing α}
    (hne : (runAll cs db).1 ≠ []) : leftBy (runAll cs db).1 = some (runAll cs db).2 := by
  induction cs generalizing db with
  | nil => exact absurd rfl hne
  | cons c cs ih =>
    rw [runAll]
    cases cs with
    | nil => rfl
    | cons c' cs =>
      have hrest : (runAll (c' :: cs) (c.run db).after).1 ≠ [] := by
        rw [runAll]
        exact List.cons_ne_nil _ _
      exact (congrArg (Option.map Step.after) (List.getLast?_cons_of_ne_nil hrest)).trans (ih hrest)

section Waits

variable {config : DoubleBufferConfig} {stage : Stage}

/-- A call that does not wait runs no group. -/
theorem during_of_not_waiting {db : DoubleBuffer BlockingRing α} {ts : List (Transfer α)}
    {out : List α} (hstanding : ∀ t rest, (db.proceed ts out).standing ≠ .waiting t rest)
    (waits : List (List (Call α))) : (carryOn stage waits ts out db).during = [] := by
  cases hstands : (db.proceed ts out).standing with
  | finished => rw [carryOn_of_finished hstands, Step.ended]
  | failed e => rw [carryOn_of_failed hstands, Step.ended]
  | waiting t rest => exact absurd hstands (hstanding t rest)

/-- A call that has to wait at once runs its first group. -/
theorem during_of_waiting (c : Call α) (db : DoubleBuffer BlockingRing α) {ts : List (Transfer α)}
    {group : List (Call α)} {waits : List (List (Call α))} {t : Transfer α}
    {rest : List (Transfer α)} (hstage : c.stage? = some stage) (hchecked : c.checked db = .ok ts)
    (hwaits : c.waits = group :: waits)
    (hstanding : (db.proceed ts c.out).standing = .waiting t rest) :
    ∃ later, (c.run db).during = [] ++ (runAll group (db.proceed ts c.out).after).1 :: later := by
  rw [c.run_of_checked_ok hstage hchecked, hwaits, carryOn, hstanding]
  exact ⟨_, rfl⟩

/-- By induction over the waits, of which the one in which the stage is told is the last. -/
theorem Told.ends_carryOn {group : List (Step BlockingRing α)}
    {after : List (List (Step BlockingRing α))} :
    ∀ (waits : List (List (Call α))) {before : List (List (Step BlockingRing α))}
      {ts : List (Transfer α)} {out : List α} {past : List LogEvent}
      {db : DoubleBuffer BlockingRing α}, Told config past db → OfStage config stage ts →
      (carryOn stage waits ts out db).during = before ++ group :: after →
      provokedIn stage (group.flatMap Step.log) ≠ [] →
      EndsAfter stage ts before group (carryOn stage waits ts out db) := by
  intro waits
  induction waits with
  | nil =>
    intro before ts out past db h hts hduring htold
    -- no group is left to run
    have hnone : (carryOn stage [] ts out db).during = [] := by
      rw [carryOn]
      split <;> rfl
    rw [hnone] at hduring
    exact absurd hduring.symm (by simp)
  | cons calls waits ih =>
    intro before ts out past db h hts hduring htold
    by_cases hwaits : ∃ t rest, (db.proceed ts out).standing = .waiting t rest
    · obtain ⟨t, rest, hstanding⟩ := hwaits
      have hrest := h.explained_proceed hts out
      rw [hstanding] at hrest
      have hinside := (told_run config).2.2 calls _ past (h.proceed ts out)
      have hsuffix := suffix_of_waiting hstanding
      rw [carryOn, hstanding] at hduring ⊢
      cases before with
      | nil =>
        -- the group in which the stage is told, after which the call looks once more
        obtain ⟨rfl, hnothing⟩ := List.cons_eq_cons.1 hduring
        have hnow : provokedIn stage
            (past ++ (runAll calls (db.proceed ts out).after).1.flatMap Step.log) ≠ [] := by
          rw [provokedIn_append]
          exact List.append_ne_nil_of_right_ne_nil _ htold
        obtain ⟨made, left, outcome, hends⟩ :=
          hinside.looks_once hnow hrest (db.proceed ts out).buffer
        have hgroup : (runAll calls (db.proceed ts out).after).1 ≠ [] := by
          rintro hempty
          rw [hempty] at htold
          exact htold rfl
        simp only [Step.afterWait, hends.no_wait waits]
        have hwoken := fun lane => (sends_wakeAll_run stage lane).2.2 calls _ htold
        refine ⟨rfl, ?_, hwoken, _, t :: rest, _, made, left, leftBy_runAll hgroup,
          List.cons_ne_nil t rest, hsuffix, hends, rfl, rfl⟩
        simp [Step.waitCount, Step.ended, countP_signals_proceed, startsWait_waiting]
      | cons first before =>
        obtain ⟨rfl, hlater⟩ := List.cons_eq_cons.1 hduring
        have hends := ih hinside hrest hlater htold
        obtain ⟨db', rest', out', made, left, hleft, hne, hsuffix', hlook, hbuffer, hafter⟩ :=
          hends.last_look
        refine ⟨congrArg (_ :: ·) hends.last_group, ?_, hends.woken, db', rest', out', made, left,
          hleft, hne, hsuffix'.trans hsuffix, hlook, hbuffer, hafter⟩
        have hcount := hends.last_wait
        simp only [Step.waitCount] at hcount
        simp [Step.waitCount, Step.afterWait, countP_signals_proceed, startsWait_waiting, hcount]
    · rw [during_of_not_waiting (fun t rest hstanding => hwaits ⟨t, rest, hstanding⟩)] at hduring
      exact absurd hduring.symm (by simp)

end Waits

/-! ## What the other stage sees -/

/-- `db'` differs from `db` in nothing but what `stage` was told. -/
structure Without (stage : Stage) (db db' : DoubleBuffer BlockingRing α) : Prop where
  config_eq : db'.config = db.config
  fifoSize_eq : db'.fifoSize = db.fifoSize
  /-- The slots and the cursors of both FIFOs are the same. -/
  ring_eq : ∀ lane, (db'.fifo lane).ring = (db.fifo lane).ring
  /-- So is every error at a side where another stage can wait. -/
  armed_eq : ∀ lane side, stageAt lane side ≠ stage →
    (db'.fifo lane).armed side = (db.fifo lane).armed side
  stageError_eq : ∀ stage', stage' ≠ stage → db'.stageError stage' = db.stageError stage'

namespace Without

variable {stage : Stage} {db db' : DoubleBuffer BlockingRing α}

theorem refl (stage : Stage) (db : DoubleBuffer BlockingRing α) : Without stage db db :=
  ⟨rfl, rfl, fun _ => rfl, fun _ _ _ => rfl, fun _ _ => rfl⟩

/-- An error for the stage itself makes no difference. -/
theorem provoke_self (h : Without stage db db') (error : FifoError) :
    Without stage db (db'.provoke stage error) where
  config_eq := by
    rw [← h.config_eq]
    cases stage <;> rfl
  fifoSize_eq := by
    rw [← h.fifoSize_eq]
    cases stage <;> rfl
  ring_eq := fun lane => (ring_provoke db' stage error lane).trans (h.ring_eq lane)
  armed_eq := by
    intro lane side hne
    rw [armed_provoke, if_neg (Ne.symm hne), h.armed_eq lane side hne]
  stageError_eq := by
    intro stage' hne
    rw [stageError_provoke, if_neg (Ne.symm hne), Option.or_none, h.stageError_eq stage' hne]

/-- An error that is told to a stage in both is the same in both. -/
theorem provoke (h : Without stage db db') (stage' : Stage) (error : FifoError) :
    Without stage (db.provoke stage' error) (db'.provoke stage' error) where
  config_eq := by
    cases stage' <;> exact h.config_eq
  fifoSize_eq := by
    cases stage' <;> exact h.fifoSize_eq
  ring_eq := by
    intro lane
    rw [ring_provoke, ring_provoke, h.ring_eq]
  armed_eq := by
    intro lane side hne
    rw [armed_provoke, armed_provoke, h.armed_eq lane side hne]
  stageError_eq := by
    intro other hne
    rw [stageError_provoke, stageError_provoke, h.stageError_eq other hne]

theorem fillCount_eq (h : Without stage db db') (lane : Lane) :
    (db'.fifo lane).fillCount = (db.fifo lane).fillCount :=
  congrArg Ring.fillCount (h.ring_eq lane)

theorem availableSpace_eq (h : Without stage db db') (lane : Lane) :
    (db'.fifo lane).availableSpace = (db.fifo lane).availableSpace :=
  congrArg Ring.availableSpace (h.ring_eq lane)

theorem possible_iff (h : Without stage db db') (t : Transfer α) :
    db'.Possible t ↔ db.Possible t := by
  cases t with
  | push lane block => rw [Possible, Possible, h.availableSpace_eq]
  | pull lane n => rw [Possible, Possible, h.fillCount_eq]

theorem filled_eq (h : Without stage db db') (out : List α) (t : Transfer α) :
    db'.filled out t = db.filled out t := by
  cases t with
  | push lane block => rfl
  | pull lane n => rw [filled, filled, h.ring_eq]

/-- Both sides stay alike when the same transfer is made. -/
theorem performed (h : Without stage db db') (t : Transfer α) :
    Without stage (db.performed t) (db'.performed t) where
  config_eq := by
    rw [config_performed, config_performed, h.config_eq]
  fifoSize_eq := by
    cases hlane : t.lane <;> simp only [DoubleBuffer.performed, hlane] <;> exact h.fifoSize_eq
  ring_eq := by
    intro lane
    by_cases heq : t.lane = lane
    · subst heq
      rw [fifo_performed_self, fifo_performed_self]
      cases t with
      | push lane block =>
        exact congrArg (Ring.append · block) (h.ring_eq lane)
      | pull lane n => exact congrArg (Ring.discard · n) (h.ring_eq lane)
    · rw [fifo_performed_of_ne db' t heq, fifo_performed_of_ne db t heq, h.ring_eq]
  armed_eq := by
    intro lane side hne
    by_cases heq : t.lane = lane
    · subst heq
      rw [fifo_performed_self, fifo_performed_self, armed_onFifo, armed_onFifo,
        h.armed_eq t.lane side hne]
    · rw [fifo_performed_of_ne db' t heq, fifo_performed_of_ne db t heq,
        h.armed_eq lane side hne]
  stageError_eq := by
    rintro (_ | _) hne
    · exact (innerError_performed db' t).trans
        ((h.stageError_eq .inner hne).trans (innerError_performed db t).symm)
    · exact (outerError_performed db' t).trans
        ((h.stageError_eq .outer hne).trans (outerError_performed db t).symm)

end Without

/-! ## Calls of the other stage -/

/-- How far a call comes is the same, and the double buffers still differ in nothing but what
`stage` was told. -/
structure SameProgress (stage : Stage) (p p' : Progress BlockingRing α) : Prop where
  standing_eq : p'.standing = p.standing
  buffer_eq : p'.buffer = p.buffer
  signals_eq : p'.signals = p.signals
  after : Without stage p.after p'.after

section Progress

variable {config : DoubleBufferConfig} {past : List LogEvent} {stage other : Stage}
  {db db' : DoubleBuffer BlockingRing α} {ts : List (Transfer α)}

/-- By induction over the transfers, each of which finds the same FIFO and the same error. -/
theorem Without.proceed (h : Without stage db db') (hdb : Told config past db)
    (hother : other ≠ stage) (hts : OfStage config other ts) (out : List α) :
    SameProgress stage (db.proceed ts out) (db'.proceed ts out) := by
  induction ts generalizing db db' out with
  | nil => exact ⟨rfl, rfl, rfl, h⟩
  | cons t ts ih =>
    have hvalid : ∀ lane, (db'.fifo lane).ring.Valid := by
      intro lane
      rw [h.ring_eq]
      exact hdb.valid lane
    rw [DoubleBuffer.proceed, DoubleBuffer.proceed]
    by_cases hpossible : db.Possible t
    · have hrest := ih (h.performed t) (hdb.performed t)
        (fun u hu => hts u (List.mem_cons_of_mem t hu)) (db.filled out t)
      rw [attempt_of_possible hdb.valid hpossible,
        attempt_of_possible hvalid ((h.possible_iff t).2 hpossible), h.filled_eq]
      exact ⟨hrest.standing_eq, hrest.buffer_eq, congrArg (_ ++ ·) hrest.signals_eq, hrest.after⟩
    · obtain ⟨hstage, hcount⟩ := hts t List.mem_cons_self
      have hcapacity : count t ≤ (db.fifo t.lane).capacity := (hdb.capacity t.lane).symm ▸ hcount
      have hcapacity' : count t ≤ (db'.fifo t.lane).capacity :=
        hcapacity.trans (congrArg Ring.capacity (h.ring_eq t.lane)).ge
      have hheld : (db'.fifo t.lane).holdUp t.side =
          ((db.fifo t.lane).holdUp t.side : Attempt (List α × DoubleBuffer BlockingRing α)) := by
        rw [BlockingRing.holdUp, BlockingRing.holdUp,
          h.armed_eq t.lane t.side (hstage.symm ▸ hother)]
      rw [attempt_of_not_possible hpossible hcapacity,
        attempt_of_not_possible ((h.possible_iff t).not.2 hpossible) hcapacity', hheld]
      cases hanswer : (db.fifo t.lane).holdUp t.side with
      | done result => exact absurd hanswer (BlockingRing.holdUp_ne_done _ _ result)
      | failed e => exact ⟨rfl, rfl, rfl, h⟩
      | blocked => exact ⟨rfl, rfl, rfl, h⟩

/-- A call of the other stage is let through or refused as before. -/
theorem Without.checked (h : Without stage db db') {c : Call α} (hstage : c.stage? = some other)
    (hother : other ≠ stage) : c.checked db' = c.checked db := by
  have htold := h.stageError_eq other hother
  cases c with
  | process input out frames waits =>
    cases hstage
    have hfill : SharedFifo.fillCount db'.output = SharedFifo.fillCount db.output :=
      h.fillCount_eq .output
    simp only [Call.checked, processTransfers, h.config_eq, hfill,
      show db'.outerError = db.outerError from htold]
  | supply out waits =>
    cases hstage
    simp only [Call.checked, supplyTransfers, h.config_eq,
      show db'.innerError = db.innerError from htold]
  | deliver data waits =>
    cases hstage
    simp only [Call.checked, deliverTransfers, h.config_eq,
      show db'.innerError = db.innerError from htold]
  | provoke stage' error => cases hstage
  | inspect => cases hstage

/-- The transfers of a call that is let through are ones its stage can make. -/
theorem ofStage_of_checked {c : Call α} (hstage : c.stage? = some stage)
    (hchecked : c.checked db = .ok ts) : OfStage db.config stage ts := by
  cases huntold : db.stageError stage with
  | some e =>
    rw [c.checked_of_told hstage huntold] at hchecked
    cases hchecked
  | none =>
    by_cases hfits : c.Fits db.config
    · obtain ⟨ts', hchecked', hts⟩ := c.checked_of_fits hstage huntold hfits
      rw [hchecked] at hchecked'
      cases hchecked'
      exact hts
    · obtain ⟨text, hrefused⟩ := c.checked_of_not_fits hstage huntold hfits
      rw [hrefused] at hchecked
      cases hchecked

end Progress

/-! ## A script without the calls of a stage -/

mutual

/-- The call when `stage` makes no calls in its waits. -/
def Call.without (stage : Stage) : Call α → Call α
  | .process input out frames waits => .process input out frames (withoutWaits stage waits)
  | .supply out waits => .supply out (withoutWaits stage waits)
  | .deliver data waits => .deliver data (withoutWaits stage waits)
  | .provoke stage' error => .provoke stage' error
  | .inspect => .inspect

/-- The groups without the calls of `stage`. -/
def withoutWaits (stage : Stage) : List (List (Call α)) → List (List (Call α))
  | [] => []
  | group :: waits => withoutGroup stage group :: withoutWaits stage waits

/-- The group without the calls of `stage`. -/
def withoutGroup (stage : Stage) : List (Call α) → List (Call α)
  | [] => []
  | c :: cs =>
    if c.stage? = some stage then withoutGroup stage cs
    else c.without stage :: withoutGroup stage cs

end

namespace Call

variable (c : Call α) (stage : Stage)

@[simp] theorem stage?_without : (c.without stage).stage? = c.stage? := by
  cases c <;> rfl

@[simp] theorem out_without : (c.without stage).out = c.out := by
  cases c <;> rfl

@[simp] theorem waits_without : (c.without stage).waits = withoutWaits stage c.waits := by
  cases c <;> rfl

@[simp] theorem checked_without (db : DoubleBuffer BlockingRing α) :
    (c.without stage).checked db = c.checked db := by
  cases c <;> rfl

end Call

/-- `stage` was told to fail in `db'`, and this is all that `db'` has over `db`. -/
structure Gone (stage : Stage) (db db' : DoubleBuffer BlockingRing α) : Prop
    extends Without stage db db' where
  told : ∃ first, db'.stageError stage = some first

/-- Two calls that cannot be told apart by their outcome, their buffer and what they signal and
log, and leave the same behind but for what `stage` was told. -/
structure Undisturbed (stage : Stage) (step step' : Step BlockingRing α) : Prop where
  outcome_eq : step'.outcome = step.outcome
  buffer_eq : step'.buffer = step.buffer
  signals_eq : step'.signals = step.signals
  log_eq : step'.log = step.log
  after : Gone stage step.after step'.after

/-- A wait leaves no trace of `stage` if the group in it logs the same and the rest of the call goes
alike. -/
theorem Undisturbed.afterWait {stage : Stage} {p p' : Progress BlockingRing α}
    {group group' : List (Step BlockingRing α)} {rest rest' : Step BlockingRing α} (t : Transfer α)
    (hp : SameProgress stage p p')
    (hlog : group'.flatMap Step.log = group.flatMap Step.log)
    (hrest : Undisturbed stage rest rest') :
    Undisturbed stage (.afterWait t p group rest) (.afterWait t p' group' rest') where
  outcome_eq := hrest.outcome_eq
  buffer_eq := hrest.buffer_eq
  signals_eq := by simp only [Step.afterWait, hp.signals_eq, hrest.signals_eq]
  log_eq := by simp only [Step.afterWait, hlog, hrest.log_eq]
  after := hrest.after

section Gone

variable {config : DoubleBufferConfig} {past : List LogEvent} {stage other : Stage}
  {db db' : DoubleBuffer BlockingRing α} {ts : List (Transfer α)} {c : Call α}

/-- The error itself is all that telling the stage adds. -/
theorem Gone.of_provoke (h : Without stage db db') (error : FifoError) :
    Gone stage db (db'.provoke stage error) where
  toWithout := h.provoke_self error
  told := by
    rw [stageError_provoke, if_pos rfl]
    cases db'.stageError stage <;> exact ⟨_, rfl⟩

theorem Gone.provoke (h : Gone stage db db') (stage' : Stage) (error : FifoError) :
    Gone stage (db.provoke stage' error) (db'.provoke stage' error) where
  toWithout := h.toWithout.provoke stage' error
  told := by
    obtain ⟨first, htold⟩ := h.told
    rw [stageError_provoke, htold]
    exact ⟨first, rfl⟩

/-- As long as both come equally far, the stage that was told stays so. -/
theorem Gone.of_progress (h : Gone stage db db') {out : List α}
    (hprogress : SameProgress stage (db.proceed ts out) (db'.proceed ts out)) :
    Gone stage (db.proceed ts out).after (db'.proceed ts out).after where
  toWithout := hprogress.after
  told := by
    rw [stageError_proceed]
    exact h.told

/-- A call of the stage itself is refused and leaves everything as it is. -/
theorem Gone.run_self (h : Gone stage db db') (hstage : c.stage? = some stage) :
    ∃ e, c.run db' = .refused e c.out db' := by
  obtain ⟨first, htold⟩ := h.told
  exact ⟨_, c.run_of_checked_error hstage (c.checked_of_told hstage htold)⟩

/-- A call of the other stage that is refused is so in both. -/
theorem Gone.undisturbed_of_error (h : Gone stage db db') (hstage : c.stage? = some other)
    (hother : other ≠ stage) {e : FifoError} (hchecked : c.checked db' = .error e) :
    Undisturbed stage ((c.without stage).run db) (c.run db') := by
  have hchecked' : (c.without stage).checked db = .error e := by
    rw [Call.checked_without, ← h.checked hstage hother, hchecked]
  rw [c.run_of_checked_error hstage hchecked,
    Call.run_of_checked_error ((c.stage?_without stage).trans hstage) hchecked',
    Call.out_without]
  exact ⟨rfl, rfl, rfl, rfl, h⟩

/-- A call of the other stage that makes its transfers makes the same ones in both. -/
theorem Gone.undisturbed_of_ok (h : Gone stage db db') (hdb : Told config past db)
    (hstage : c.stage? = some other) (hother : other ≠ stage) (hchecked : c.checked db' = .ok ts)
    (hcarryOn : OfStage config other ts →
      Undisturbed stage (carryOn other (withoutWaits stage c.waits) ts c.out db)
        (carryOn other c.waits ts c.out db')) :
    Undisturbed stage ((c.without stage).run db) (c.run db') := by
  have hchecked' : c.checked db = .ok ts := by
    rw [← h.checked hstage hother, hchecked]
  rw [c.run_of_checked_ok hstage hchecked,
    Call.run_of_checked_ok ((c.stage?_without stage).trans hstage)
      ((c.checked_without stage db).trans hchecked'),
    Call.out_without, Call.waits_without]
  exact hcarryOn (hdb.config_eq ▸ ofStage_of_checked hstage hchecked')

end Gone

/-- By induction over the script: where one stage was told to fail, the calls of the other go as
they would without any call of the first. -/
theorem run_without (config : DoubleBufferConfig) (stage : Stage) :
    (∀ (c : Call α) (db' db : DoubleBuffer BlockingRing α) (past : List LogEvent),
      c.stage? ≠ some stage → Told config past db → Gone stage db db' →
        Undisturbed stage ((c.without stage).run db) (c.run db')) ∧
      (∀ (other : Stage) (waits : List (List (Call α))) (ts : List (Transfer α)) (out : List α)
        (db' db : DoubleBuffer BlockingRing α) (past : List LogEvent), other ≠ stage →
          OfStage config other ts → Told config past db → Gone stage db db' →
            Undisturbed stage (carryOn other (withoutWaits stage waits) ts out db)
              (carryOn other waits ts out db')) ∧
      ∀ (cs : List (Call α)) (db' db : DoubleBuffer BlockingRing α) (past : List LogEvent),
        Told config past db → Gone stage db db' →
          (runAll cs db').1.flatMap Step.log =
              (runAll (withoutGroup stage cs) db).1.flatMap Step.log ∧
            Gone stage (runAll (withoutGroup stage cs) db).2 (runAll cs db').2 := by
  have other_of {c : Call α} {other : Stage} (hstage : c.stage? = some other)
      (hne : c.stage? ≠ some stage) : other ≠ stage := by
    rintro rfl
    exact hne hstage
  apply Call.run.mutual_induct
  -- each stage's call is refused at once, or comes down to its transfers
  · intro input out frames waits db' e hts db past hne hdb h
    exact h.undisturbed_of_error rfl (other_of rfl hne) hts
  · intro input out frames waits db' ts hts ih db past hne hdb h
    have hother := other_of rfl hne
    exact h.undisturbed_of_ok hdb rfl hother hts fun hofStage => ih db past hother hofStage hdb h
  · intro out waits db' e hts db past hne hdb h
    exact h.undisturbed_of_error rfl (other_of rfl hne) hts
  · intro out waits db' ts hts ih db past hne hdb h
    have hother := other_of rfl hne
    exact h.undisturbed_of_ok hdb rfl hother hts fun hofStage => ih db past hother hofStage hdb h
  · intro data waits db' e hts db past hne hdb h
    exact h.undisturbed_of_error rfl (other_of rfl hne) hts
  · intro data waits db' ts hts ih db past hne hdb h
    have hother := other_of rfl hne
    exact h.undisturbed_of_ok hdb rfl hother hts fun hofStage => ih db past hother hofStage hdb h
  · intro stage' error db' db past hne hdb h
    rw [Call.without, Call.run, Call.run]
    exact ⟨rfl, rfl, rfl, rfl, h.provoke stage' error⟩
  · intro db' db past hne hdb h
    rw [Call.without, Call.run, Call.run]
    exact ⟨rfl, rfl, rfl, rfl, h⟩
  -- the transfers of a call with no group left, by where they stand
  · intro other ts out db' p' hstanding db past hother hts hdb h
    have hp := h.proceed hdb hother hts out
    rw [carryOn_of_finished hstanding, carryOn_of_finished (hp.standing_eq ▸ hstanding)]
    exact ⟨rfl, hp.buffer_eq, hp.signals_eq, rfl, h.of_progress hp⟩
  · intro other ts out db' p' e hstanding db past hother hts hdb h
    have hp := h.proceed hdb hother hts out
    rw [carryOn_of_failed hstanding, carryOn_of_failed (hp.standing_eq ▸ hstanding)]
    exact ⟨rfl, hp.buffer_eq, hp.signals_eq, rfl, h.of_progress hp⟩
  · intro other ts out db' p' t rest hstanding db past hother hts hdb h
    have hp := h.proceed hdb hother hts out
    have hstanding' := hp.standing_eq.symm.trans hstanding
    rw [withoutWaits, carryOn, hstanding', carryOn, hstanding]
    exact ⟨rfl, hp.buffer_eq, congrArg (· ++ _) hp.signals_eq, rfl, (h.of_progress hp).provoke _ _⟩
  -- and with a group for the next wait
  · intro other group waits ts out db' p' hstanding db past hother hts hdb h
    have hp := h.proceed hdb hother hts out
    rw [carryOn_of_finished hstanding, carryOn_of_finished (hp.standing_eq ▸ hstanding)]
    exact ⟨rfl, hp.buffer_eq, hp.signals_eq, rfl, h.of_progress hp⟩
  · intro other group waits ts out db' p' e hstanding db past hother hts hdb h
    have hp := h.proceed hdb hother hts out
    rw [carryOn_of_failed hstanding, carryOn_of_failed (hp.standing_eq ▸ hstanding)]
    exact ⟨rfl, hp.buffer_eq, hp.signals_eq, rfl, h.of_progress hp⟩
  · intro other group waits ts out db' p' t rest hstanding inner hgroup hrest db past hother
      hts hdb h
    have hp := h.proceed hdb hother hts out
    have hstanding' := hp.standing_eq.symm.trans hstanding
    -- the group finds the same double buffer, and so does the rest of the call after it
    have hwaiting := hdb.explained_proceed hts out
    rw [hstanding'] at hwaiting
    have hinside := (told_run config).2.2 (withoutGroup stage group) _ past (hdb.proceed ts out)
    obtain ⟨hlog, hgone⟩ := hgroup _ past (hdb.proceed ts out) (h.of_progress hp)
    have hlater := hrest _ _ hother hwaiting hinside hgone
    rw [withoutWaits, carryOn, hstanding', carryOn, hstanding]
    refine .afterWait t hp hlog ?_
    rw [← hp.buffer_eq]
    exact hlater
  · intro db' db past hdb h
    exact ⟨rfl, h⟩
  · intro c cs db' step hc hcs db past hdb h
    by_cases hstage : c.stage? = some stage
    · obtain ⟨e, hrefused⟩ := h.run_self hstage
      rw [show step.after = db' from congrArg Step.after hrefused] at hcs
      rw [withoutGroup, if_pos hstage, runAll, hrefused]
      exact hcs db past hdb h
    · have hcall := hc db past hstage hdb h
      have htold := (told_run config).1 (c.without stage) db past hdb
      obtain ⟨hlog, hgone⟩ := hcs _ _ htold hcall.after
      rw [withoutGroup, if_neg hstage, runAll, runAll]
      refine ⟨?_, hgone⟩
      rw [List.flatMap_cons, List.flatMap_cons, hlog, hcall.log_eq]

/-! ## Every moment of a script -/

/-- How many transfers a call of the stage makes. -/
def transferCount : Stage → Nat
  | .inner => 1
  | .outer => 2

theorem length_of_checked {c : Call α} {stage : Stage} {db : DoubleBuffer BlockingRing α}
    {ts : List (Transfer α)} (hstage : c.stage? = some stage) (hchecked : c.checked db = .ok ts) :
    ts.length = transferCount stage := by
  cases c with
  | process input out frames waits =>
    cases hstage
    obtain ⟨-, -, -, -, -, rfl⟩ := processTransfers_eq_ok.1 hchecked
    rfl
  | supply out waits =>
    cases hstage
    obtain ⟨-, -, rfl⟩ := supplyTransfers_eq_ok.1 hchecked
    rfl
  | deliver data waits =>
    cases hstage
    obtain ⟨-, -, rfl⟩ := deliverTransfers_eq_ok.1 hchecked
    rfl
  | provoke stage' error => cases hstage
  | inspect => cases hstage

/-- How `stage` is let go, when `past` was logged before. -/
structure LetsGo (config : DoubleBufferConfig) (past : List LogEvent)
    (db : DoubleBuffer BlockingRing α) (stage : Stage) : Prop where
  /-- The stage is told at each FIFO as by a call of the FIFO, which wakes everyone who waits. -/
  tells : ∀ error lane side, stageAt lane side = stage → ArmsAt db stage error lane side
  /-- A call that begins after the stage was told fails at once: it does not wait, and its buffer
  and the double buffer stay as they are. -/
  begins : provokedIn stage past ≠ [] → ∀ c : Call α, c.stage? = some stage →
    ∃ e, c.run db = .refused e c.out db
  /-- A call that looks again after the stage was told does not wait any more. -/
  looks : provokedIn stage past ≠ [] → ∀ ts out, OfStage config stage ts →
    ∃ made left outcome, db.EndsNow stage ts out made left outcome
  /-- If it has one transfer left, it makes it if it is possible now, and else fails with nothing
  transferred. -/
  completes : provokedIn stage past ≠ [] → ∀ t out, OfStage config stage [t] →
    (db.Possible t ∧ ∀ waits : List (List (Call α)), carryOn stage waits [t] out db =
      .ended (.ok ()) ⟨.finished, db.filled out t, transferSignals (F := BlockingRing) t,
        db.performed t⟩) ∨
    (¬ db.Possible t ∧ ∃ e, ∀ waits : List (List (Call α)),
      carryOn stage waits [t] out db = .refused e out db)
  /-- A call in whose wait the stage is told does not wait again. -/
  waits : ∀ c : Call α, c.stage? = some stage → ∀ before group after,
    (c.run db).during = before ++ group :: after →
    provokedIn stage (group.flatMap Step.log) ≠ [] →
    ∃ ts, c.checked db = .ok ts ∧ ts.length = transferCount stage ∧
      EndsAfter stage ts before group (c.run db)

theorem Told.letsGo {config : DoubleBufferConfig} {past : List LogEvent}
    {db : DoubleBuffer BlockingRing α} (h : Told config past db) (stage : Stage) :
    LetsGo config past db stage where
  tells := fun error _ _ hside => armsAt_provoke db error hside
  begins := by
    intro htold c hstage
    have hfirst := h.first stage
    rw [List.head?_eq_some_head htold] at hfirst
    exact ⟨_, c.run_of_checked_error hstage (c.checked_of_told hstage hfirst)⟩
  looks := fun htold _ out hts => h.looks_once htold hts out
  completes := by
    intro htold t out hts
    by_cases hpossible : db.Possible t
    · exact .inl ⟨hpossible, fun waits => h.carryOn_of_possible hpossible waits out⟩
    · exact .inr ⟨hpossible, h.carryOn_of_not_possible htold hts hpossible out⟩
  waits := by
    intro c hstage before group after hduring htold
    cases hchecked : c.checked db with
    | error e =>
      rw [c.run_of_checked_error hstage hchecked] at hduring
      exact absurd hduring.symm (by simp [Step.refused])
    | ok ts =>
      have hts : OfStage config stage ts := h.config_eq ▸ ofStage_of_checked hstage hchecked
      rw [c.run_of_checked_ok hstage hchecked] at hduring ⊢
      exact ⟨ts, rfl, length_of_checked hstage hchecked, h.ends_carryOn c.waits hts hduring htold⟩

/-- What it means for the other stage that `stage` is told to fail. -/
structure Spares (config : DoubleBufferConfig) (db : DoubleBuffer BlockingRing α) (stage : Stage)
    (error : FifoError) : Prop where
  /-- Neither FIFO changes, nor any error of the other stage. -/
  without : Without stage db (db.provoke stage error)
  /-- A call that begins goes as if `stage` had not been told and made no more calls. -/
  begins : ∀ c : Call α, c.stage? ≠ some stage →
    Undisturbed stage ((c.without stage).run db) (c.run (db.provoke stage error))
  /-- So does what is left of a call that waits when `stage` is told. -/
  looks : ∀ (other : Stage) (waits : List (List (Call α))) (ts : List (Transfer α)) (out : List α),
    other ≠ stage → OfStage config other ts →
      Undisturbed stage (carryOn other (withoutWaits stage waits) ts out db)
        (carryOn other waits ts out (db.provoke stage error))

theorem Told.spares {config : DoubleBufferConfig} {past : List LogEvent}
    {db : DoubleBuffer BlockingRing α} (h : Told config past db) (stage : Stage)
    (error : FifoError) : Spares config db stage error where
  without := (Without.refl stage db).provoke_self error
  begins := fun c hne =>
    (run_without config stage).1 c _ db past hne h (.of_provoke (.refl stage db) error)
  looks := fun other waits ts out hother hts =>
    (run_without config stage).2.1 other waits ts out _ db past hother hts h
      (.of_provoke (.refl stage db) error)

/-- A new double buffer on blocking FIFOs, and any script of calls on it, in whose waits any other
calls run. From the moment on at which a stage is told to fail, its calls fail at once when they
begin. When they have begun and wait they are woken, and never wait again. The other stage is left
alone: nothing that it sees of the double buffer changes, and its calls go as if the stage that was
told had merely stopped making calls. -/
theorem releases_told [Memory] {config : DoubleBufferConfig} {fill : α}
    {db₀ : DoubleBuffer BlockingRing α}
    (hmake : make config fill = .ok db₀) :
    (∀ calls, Moment db₀ ((runAll calls db₀).1.flatMap Step.log) (runAll calls db₀).2) ∧
      ∀ past db, Moment db₀ past db → ∀ stage,
        LetsGo config past db stage ∧ ∀ error, Spares config db stage error := by
  refine ⟨fun calls => Moment.start.runAll calls, ?_⟩
  intro past db hmoment stage
  have htold := hmoment.told (.start hmake)
  exact ⟨htold.letsGo stage, fun error => htold.spares stage error⟩

/-- Two inner calls wait for input and are told to fail. The first finds its block when it looks
again and takes it, the second does not, and the group that would have brought it does not run.
The next inner call fails at once, while the outer stage makes the call that it would have made. -/
theorem releases_told_waiting :
    let config : DoubleBufferConfig := { outerSize := 2, innerSize := 2, delay := 2 }
    let db₀ : DoubleBuffer BlockingRing Nat :=
      { config
        fifoSize := 4
        input := ⟨⟨#[0, 0, 0, 0, 0], 0, 0⟩, none, none⟩
        output := ⟨⟨#[0, 0, 0, 0, 0], 2, 0⟩, none, none⟩
        innerError := none
        outerError := none }
    let error : FifoError := .cancelled .reader "teardown"
    let process : Call Nat := .process [7, 8] [1, 1] 2 []
    let served : Call Nat := .supply [0, 0] [[process, .provoke .inner error]]
    let starved : Call Nat := .supply [0, 0] [[.provoke .inner error], [process]]
    let db : DoubleBuffer BlockingRing Nat := (starved.run db₀).after
    make config 0 = .ok db₀ ∧
      (∃ group, EndsAfter .inner [.pull .input 2] [] group (served.run db₀)) ∧
      (served.run db₀).outcome = .ok () ∧ (served.run db₀).buffer = [7, 8] ∧
      (∃ group, EndsAfter .inner [.pull .input 2] [] group (starved.run db₀)) ∧
      (starved.run db₀).outcome = .error error ∧ (starved.run db₀).buffer = [0, 0] ∧
      Moment db₀ (starved.run db₀).log db ∧
      (∃ e, (Call.deliver [5, 6] []).run db = .refused e [] db) ∧
      Undisturbed .inner ((process.without .inner).run db₀)
        (process.run (db₀.provoke .inner error)) ∧
      (process.run (db₀.provoke .inner error)).buffer = [0, 0] := by
  intro config db₀ error process served starved db
  have hmake : make config 0 = .ok db₀ := rfl
  obtain ⟨-, hmoments⟩ := releases_told hmake
  obtain ⟨hinner, hspares⟩ := hmoments [] db₀ .start .inner
  have hmoment : Moment db₀ (starved.run db₀).log db := Moment.start.call starved
  obtain ⟨hafter, -⟩ := hmoments _ db hmoment .inner
  have hserved : ∃ group, EndsAfter .inner [.pull .input 2] [] group (served.run db₀) := by
    obtain ⟨later, hduring⟩ := during_of_waiting served db₀ rfl rfl rfl rfl
    obtain ⟨ts, hchecked, -, hends⟩ :=
      hinner.waits served rfl [] _ later hduring (by decide +kernel)
    cases hchecked
    exact ⟨_, hends⟩
  have hstarved : ∃ group, EndsAfter .inner [.pull .input 2] [] group (starved.run db₀) := by
    obtain ⟨later, hduring⟩ := during_of_waiting starved db₀ rfl rfl rfl rfl
    obtain ⟨ts, hchecked, -, hends⟩ :=
      hinner.waits starved rfl [] _ later hduring (by decide +kernel)
    cases hchecked
    exact ⟨_, hends⟩
  exact ⟨hmake, hserved, by decide +kernel, by decide +kernel, hstarved, by decide +kernel,
    by decide +kernel, hmoment,
    hafter.begins (by decide +kernel) (.deliver [5, 6] []) rfl,
    (hspares error).begins process (by decide), by decide +kernel⟩

end BlockFlow.DoubleBuffer
