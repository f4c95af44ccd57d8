import BlockFlow.Proofs.DoubleBuffer.Script
import BlockFlow.Proofs.DoubleBuffer.Stall
import BlockFlow.Proofs.Error

/-!
# Which error a stage raises that was told to fail

On blocking FIFOs an error that a stage is told to fail with is kept in three places. The double
buffer keeps the first one, and each of the two FIFO sides at which the stage can wait keeps the
last one (`Told`). A call that begins after the stage was told raises the first. A call that waits
when the stage is told looks at the FIFO and raises the last one that came before it looked
(`raises_provoked`), so that it can raise another error than the one the double buffer reports
(`raises_second_of_two`).
-/

set_option autoImplicit false

namespace BlockFlow

universe u

variable {α : Type u}

namespace DoubleBuffer

/-! ## Errors in the log -/

/-- The error that an event tells a stage to fail with. -/
def provokedBy (stage : Stage) : LogEvent → Option FifoError
  | .provokingInner e => if stage = .inner then some e else none
  | .provokingOuter e => if stage = .outer then some e else none
  | _ => none

/-- The errors that a stage was told to fail with, in order. -/
def provokedIn (stage : Stage) (log : List LogEvent) : List FifoError :=
  log.filterMap (provokedBy stage)

@[simp] theorem provokedIn_append (stage : Stage) (log log' : List LogEvent) :
    provokedIn stage (log ++ log') = provokedIn stage log ++ provokedIn stage log' :=
  List.filterMap_append

@[simp] theorem provokedIn_provokeLog (stage stage' : Stage) (error : FifoError) :
    provokedIn stage (provokeLog BlockingRing.{u} stage' error) =
      if stage' = stage then [error] else [] := by
  cases stage <;> cases stage' <;> rfl

/-! ## Errors in the double buffer -/

/-- The stage that can wait at a side of a FIFO. -/
def stageAt : Lane → Side → Stage
  | .input, .reader => .inner
  | .input, .writer => .outer
  | .output, .writer => .inner
  | .output, .reader => .outer

theorem stageError_provoke (db : DoubleBuffer BlockingRing α) (stage stage' : Stage)
    (error : FifoError) :
    (db.provoke stage' error).stageError stage =
      (db.stageError stage).or (if stage' = stage then some error else none) := by
  cases stage <;> cases stage' <;> simp [provoke, stageError]

theorem armed_provoke (db : DoubleBuffer BlockingRing α) (stage : Stage) (error : FifoError)
    (lane : Lane) (side : Side) :
    ((db.provoke stage error).fifo lane).armed side =
      if stage = stageAt lane side then some error.duplicate else (db.fifo lane).armed side := by
  cases stage <;> cases lane <;> cases side <;> rfl

theorem ring_provoke (db : DoubleBuffer BlockingRing α) (stage : Stage) (error : FifoError)
    (lane : Lane) : ((db.provoke stage error).fifo lane).ring = (db.fifo lane).ring := by
  cases stage <;> cases lane <;> rfl

/-- Samples that the FIFO of a lane can hold, by the sizes. -/
def laneCapacity (config : DoubleBufferConfig) (lane : Lane) : Nat :=
  (max config.outerSize config.innerSize + config.delay) * config.channels lane

/-- What the log of a double buffer says of it. The double buffer keeps the first error each stage
was told to fail with, and its FIFOs keep the last. -/
structure Told (config : DoubleBufferConfig) (past : List LogEvent)
    (db : DoubleBuffer BlockingRing α) : Prop where
  config_eq : db.config = config
  valid : ∀ lane, (db.fifo lane).ring.Valid
  capacity : ∀ lane, (db.fifo lane).capacity = laneCapacity config lane
  first : ∀ stage, db.stageError stage = (provokedIn stage past).head?
  last : ∀ lane side, (db.fifo lane).armed side =
    (provokedIn (stageAt lane side) past).getLast?.map FifoError.duplicate

namespace Told

variable {config : DoubleBufferConfig} {past : List LogEvent} {db : DoubleBuffer BlockingRing α}

/-- Nobody was told anything by a new double buffer. -/
theorem start [Memory] {fill : α} (hmake : make config fill = .ok db) : Told config [] db := by
  obtain ⟨-, -, -, -, -, -, -, hconfig, -, -⟩ := make_eq_ok hmake
  obtain ⟨r, r', hr, hr', -, hinput, houtput⟩ := Parties.rings_of_make hmake
  have hready := Parties.ready_of_make hmake
  refine ⟨hconfig, hready.valid, ?_, ?_, ?_⟩
  · rintro (_ | _)
    · show db.input.capacity = _
      rw [hinput]
      exact Ring.capacity_of_make hr
    · show db.output.capacity = _
      rw [houtput]
      exact (Ring.capacity_append ..).trans (Ring.capacity_of_make hr')
  · rintro (_ | _)
    · exact hready.innerUntold
    · exact hready.outerUntold
  · rintro lane (_ | _)
    · exact hready.readerUnarmed lane
    · exact hready.writerUnarmed lane

/-- A transfer changes what is stored and nothing else. -/
theorem performed (h : Told config past db) (t : Transfer α) :
    Told config past (db.performed t) where
  config_eq := (config_performed db t).trans h.config_eq
  valid := by
    intro lane
    exact forall_fifo_performed (p := fun b => b.ring.Valid) h.valid (fun _ => valid_onFifo) lane
  capacity := by
    intro lane
    rw [capacity_performed, h.capacity lane]
  first := by
    rintro (_ | _)
    · exact (innerError_performed db t).trans (h.first .inner)
    · exact (outerError_performed db t).trans (h.first .outer)
  last := by
    intro lane side
    rw [← h.last lane side]
    by_cases heq : t.lane = lane
    · subst heq
      rw [fifo_performed_self, armed_onFifo]
    · rw [fifo_performed_of_ne db t heq]

/-- One more error is the last one at the FIFOs of its stage, and the first only if there was
none. -/
theorem provoke (h : Told config past db) (stage : Stage) (error : FifoError) :
    Told config (past ++ provokeLog BlockingRing.{u} stage error) (db.provoke stage error) where
  config_eq := by
    rw [← h.config_eq]
    cases stage <;> rfl
  valid := by
    intro lane
    rw [ring_provoke]
    exact h.valid lane
  capacity := by
    intro lane
    rw [← h.capacity lane]
    unfold BlockingRing.capacity
    rw [ring_provoke]
  first := by
    intro stage'
    -- an error that is kept already stays
    rw [stageError_provoke, h.first, provokedIn_append, provokedIn_provokeLog, List.head?_append]
    by_cases heq : stage = stage' <;> simp [heq]
  last := by
    intro lane side
    -- an error that is armed already is replaced
    rw [armed_provoke, h.last, provokedIn_append, provokedIn_provokeLog, List.getLast?_append]
    by_cases heq : stage = stageAt lane side <;> simp [heq]

end Told

/-! ## The transfers of a call -/

/-- Transfers that a call of a stage can be made of: each is at a side where the stage can wait,
and fits into its FIFO. -/
def OfStage (config : DoubleBufferConfig) (stage : Stage) (ts : List (Transfer α)) : Prop :=
  ∀ t ∈ ts, stageAt t.lane t.side = stage ∧ count t ≤ laneCapacity config t.lane

/-- The error is a copy of the last one that the stage was told to fail with. -/
def IsLast (stage : Stage) (log : List LogEvent) (e : FifoError) : Prop :=
  ∃ latest, (provokedIn stage log).getLast? = some latest ∧ e = latest.duplicate

/-- How the transfers of a call of a stage can stand: a call that fails raises the error its stage
was last told to fail with. -/
def Standing.Explained (config : DoubleBufferConfig) (stage : Stage) (past : List LogEvent) :
    Standing α → Prop
  | .finished => True
  | .failed e => IsLast stage past e
  | .waiting t rest => OfStage config stage (t :: rest)

section Calls

variable {config : DoubleBufferConfig} {past : List LogEvent} {db : DoubleBuffer BlockingRing α}
  {stage : Stage} {ts : List (Transfer α)}

/-- By induction over the transfers, all of which are made but perhaps the last one looked at. -/
theorem Told.proceed (h : Told config past db) (ts : List (Transfer α)) (out : List α) :
    Told config past (db.proceed ts out).after := by
  induction ts generalizing db out with
  | nil => exact h
  | cons t ts ih =>
    rw [DoubleBuffer.proceed]
    cases htry : db.attempt out t with
    | done result =>
      cases (attempt_of_possible h.valid (possible_of_attempt_eq_done htry) out).symm.trans htry
      exact ih (h.performed t) _
    | failed e => exact h
    | blocked => exact h

/-- A transfer that is held up fails with the last error of its stage, or waits. -/
theorem Told.explained_attempt (h : Told config past db) {t : Transfer α}
    (hts : OfStage config stage (t :: ts)) (hnot : ¬ db.Possible t) (out : List α) :
    (db.proceed (t :: ts) out).standing.Explained config stage past := by
  obtain ⟨hstage, hcount⟩ := hts t List.mem_cons_self
  have hheld := attempt_of_not_possible hnot ((h.capacity t.lane).symm ▸ hcount) out
  -- the side at which the transfer is held up is armed with what this stage was told last
  have hlast := h.last t.lane t.side
  rw [hstage] at hlast
  cases harmed : (db.fifo t.lane).armed t.side with
  | none =>
    rw [BlockingRing.holdUp_of_unarmed harmed] at hheld
    rw [DoubleBuffer.proceed, hheld]
    exact hts
  | some error =>
    rw [BlockingRing.holdUp_of_armed harmed] at hheld
    rw [harmed] at hlast
    obtain ⟨latest, hlatest, rfl⟩ := Option.map_eq_some_iff.1 hlast.symm
    rw [DoubleBuffer.proceed, hheld]
    exact ⟨latest, hlatest, latest.duplicate_duplicate⟩

/-- By induction over the transfers, of which the last one looked at is held up or none is. -/
theorem Told.explained_proceed (h : Told config past db) (hts : OfStage config stage ts)
    (out : List α) : (db.proceed ts out).standing.Explained config stage past := by
  induction ts generalizing db out with
  | nil => exact trivial
  | cons t ts ih =>
    by_cases hpossible : db.Possible t
    · rw [DoubleBuffer.proceed, attempt_of_possible h.valid hpossible]
      exact ih (h.performed t) (fun u hu => hts u (List.mem_cons_of_mem t hu)) _
    · exact h.explained_attempt hts hpossible out

/-- Every call adds its log to what the double buffer was told. -/
theorem told_run (config : DoubleBufferConfig) :
    (∀ (c : Call α) (db : DoubleBuffer BlockingRing α) (past : List LogEvent),
      Told config past db → Told config (past ++ (c.run db).log) (c.run db).after) ∧
      (∀ (stage : Stage) (waits : List (List (Call α))) (ts : List (Transfer α)) (out : List α)
        (db : DoubleBuffer BlockingRing α) (past : List LogEvent), Told config past db →
          Told config (past ++ (carryOn stage waits ts out db).log)
            (carryOn stage waits ts out db).after) ∧
      ∀ (cs : List (Call α)) (db : DoubleBuffer BlockingRing α) (past : List LogEvent),
        Told config past db →
          Told config (past ++ (runAll cs db).1.flatMap Step.log) (runAll cs db).2 :=
  logged_run (fun h ts out => h.proceed ts out) fun h stage error => h.provoke stage error

/-- A call that does not wait raises the error its stage was last told to fail with. -/
theorem Told.isLast_of_not_waiting (h : Told config past db) (hts : OfStage config stage ts)
    {out : List α} (hstanding : ∀ t rest, (db.proceed ts out).standing ≠ .waiting t rest)
    (waits : List (List (Call α))) {e : FifoError}
    (herror : (carryOn stage waits ts out db).outcome = .error e) :
    IsLast stage (past ++ (carryOn stage waits ts out db).log) e := by
  have hexplained := h.explained_proceed hts out
  cases hstands : (db.proceed ts out).standing with
  | finished =>
    rw [carryOn_of_finished hstands] at herror
    cases herror
  | failed e' =>
    rw [hstands] at hexplained
    rw [carryOn_of_failed hstands] at herror ⊢
    cases herror
    exact (List.append_nil past).symm ▸ hexplained
  | waiting t rest => exact absurd hstands (hstanding t rest)

/-- By induction over the waits: a call that fails while it makes its transfers raises the error
its stage was last told to fail with when it looked. -/
theorem Told.isLast_carryOn {e : FifoError} :
    ∀ (waits : List (List (Call α))) {ts : List (Transfer α)} {out : List α} {past : List LogEvent}
      {db : DoubleBuffer BlockingRing α}, Told config past db → OfStage config stage ts →
      (carryOn stage waits ts out db).outcome = .error e →
      IsLast stage (past ++ (carryOn stage waits ts out db).log) e := by
  intro waits
  induction waits with
  | nil =>
    intro ts out past db h hts herror
    by_cases hwaits : ∃ t rest, (db.proceed ts out).standing = .waiting t rest
    · obtain ⟨t, rest, hstanding⟩ := hwaits
      -- nothing is left to happen, so that the call itself tells its stage to fail
      rw [carryOn, hstanding] at herror ⊢
      cases herror
      refine ⟨.cancelled t.side stallReason, ?_, rfl⟩
      simp [Step.stalled]
    · exact h.isLast_of_not_waiting hts (fun t rest hstanding => hwaits ⟨t, rest, hstanding⟩)
        [] herror
  | cons group waits ih =>
    intro ts out past db h hts herror
    by_cases hwaits : ∃ t rest, (db.proceed ts out).standing = .waiting t rest
    · obtain ⟨t, rest, hstanding⟩ := hwaits
      have hrest := h.explained_proceed hts out
      rw [hstanding] at hrest
      -- the rest of the call begins with all that the group was told in its past
      have hinside := (told_run config).2.2 group _ past (h.proceed ts out)
      rw [carryOn, hstanding] at herror ⊢
      simp only [Step.afterWait, ← List.append_assoc]
      exact ih hinside hrest herror
    · exact h.isLast_of_not_waiting hts (fun t rest hstanding => hwaits ⟨t, rest, hstanding⟩)
        (group :: waits) herror

end Calls

/-! ## Calls -/

/-- Frames of a block of either stage fit into the FIFOs. -/
theorem mul_le_laneCapacity {config : DoubleBufferConfig} {n : Nat}
    (hn : n ≤ max config.outerSize config.innerSize) (lane : Lane) :
    n * config.channels lane ≤ laneCapacity config lane :=
  Nat.mul_le_mul_right _ (hn.trans (Nat.le_add_right ..))

namespace Call

/-- The stage that makes the call. -/
def stage? : Call α → Option Stage
  | process .. => some .outer
  | supply .. => some .inner
  | deliver .. => some .inner
  | provoke .. => none
  | inspect => none

/-- The buffer that the call fills. -/
def out : Call α → List α
  | process _ out _ _ => out
  | supply out _ => out
  | _ => []

/-- The groups of calls that run in its waits. -/
def waits : Call α → List (List (Call α))
  | process _ _ _ waits => waits
  | supply _ waits => waits
  | deliver _ waits => waits
  | _ => []

/-- The transfers of the call, or why it is refused before the first of them. -/
def checked (db : DoubleBuffer BlockingRing α) : Call α → Except FifoError (List (Transfer α))
  | process input out frames _ => db.processTransfers input out.length frames
  | supply out _ => db.supplyTransfers out.length
  | deliver data _ => db.deliverTransfers data
  | _ => .ok []

/-- The slices of the call hold the frames that it moves. -/
def Fits (config : DoubleBufferConfig) : Call α → Prop
  | process input out frames _ =>
    frames ≤ config.outerSize ∧ frames * config.inputChannels ≤ input.length ∧
      frames * config.outputChannels ≤ out.length
  | supply out _ => config.innerSize * config.inputChannels ≤ out.length
  | deliver data _ => config.innerSize * config.outputChannels ≤ data.length
  | _ => True

section

variable {c : Call α} {stage : Stage} {db : DoubleBuffer BlockingRing α}

/-- The calls of both stages go alike: they are refused or make their transfers. -/
theorem run_eq (hstage : c.stage? = some stage) :
    c.run db =
      match c.checked db with
      | .error e => .refused e c.out db
      | .ok ts => carryOn stage c.waits ts c.out db := by
  cases c with
  | process input out frames waits =>
    cases hstage
    rw [Call.run]
    rfl
  | supply out waits =>
    cases hstage
    rw [Call.run]
    rfl
  | deliver data waits =>
    cases hstage
    rw [Call.run]
    rfl
  | provoke stage' error => cases hstage
  | inspect => cases hstage

theorem run_of_checked_error (hstage : c.stage? = some stage) {e : FifoError}
    (hchecked : c.checked db = .error e) : c.run db = .refused e c.out db := by
  rw [run_eq hstage, hchecked]

theorem run_of_checked_ok (hstage : c.stage? = some stage) {ts : List (Transfer α)}
    (hchecked : c.checked db = .ok ts) : c.run db = carryOn stage c.waits ts c.out db := by
  rw [run_eq hstage, hchecked]

/-- A stage that was told to fail is refused with a copy of the error kept for it. -/
theorem checked_of_told (hstage : c.stage? = some stage) {first : FifoError}
    (htold : db.stageError stage = some first) : c.checked db = .error first.duplicate := by
  cases c with
  | process input out frames waits =>
    cases hstage
    exact processTransfers_of_told htold input out.length frames
  | supply out waits =>
    cases hstage
    exact supplyTransfers_of_told htold out.length
  | deliver data waits =>
    cases hstage
    exact deliverTransfers_of_told htold data
  | provoke stage' error => cases hstage
  | inspect => cases hstage

/-- A call whose slices hold its frames is let through, unless its stage was told to fail. -/
theorem checked_of_fits (hstage : c.stage? = some stage) (huntold : db.stageError stage = none)
    (hfits : c.Fits db.config) :
    ∃ ts, c.checked db = .ok ts ∧ OfStage db.config stage ts := by
  cases c with
  | process input out frames waits =>
    cases hstage
    obtain ⟨hframes, hinput, hout⟩ := hfits
    refine ⟨_, processTransfers_eq_ok.2 ⟨huntold, hframes, hinput, hout, nofun, rfl⟩, ?_⟩
    have hle : frames ≤ max db.config.outerSize db.config.innerSize := le_max_of_le_left hframes
    simp only [OfStage, List.forall_mem_cons]
    refine ⟨⟨rfl, ?_⟩, ⟨rfl, mul_le_laneCapacity hle .output⟩, nofun⟩
    exact (List.length_take_le _ _).trans (mul_le_laneCapacity hle .input)
  | supply out waits =>
    cases hstage
    refine ⟨_, supplyTransfers_eq_ok.2 ⟨huntold, hfits, rfl⟩, ?_⟩
    simp only [OfStage, List.forall_mem_cons]
    exact ⟨⟨rfl, mul_le_laneCapacity (le_max_right ..) .input⟩, nofun⟩
  | deliver data waits =>
    cases hstage
    refine ⟨_, deliverTransfers_eq_ok.2 ⟨huntold, hfits, rfl⟩, ?_⟩
    simp only [OfStage, List.forall_mem_cons]
    refine ⟨⟨rfl, ?_⟩, nofun⟩
    exact (List.length_take_le _ _).trans (mul_le_laneCapacity (le_max_right ..) .output)
  | provoke stage' error => cases hstage
  | inspect => cases hstage

/-- A call whose slices are too short is refused for that. -/
theorem checked_of_not_fits (hstage : c.stage? = some stage)
    (huntold : db.stageError stage = none) (hnot : ¬ c.Fits db.config) :
    ∃ text, c.checked db = .error (.config text) := by
  cases c with
  | process input out frames waits =>
    cases hstage
    rw [checked, processTransfers, show db.outerError = none from huntold]
    by_cases hframes : db.config.outerSize < frames
    · exact ⟨_, if_pos hframes⟩
    · have hshort : input.length < frames * db.config.inputChannels ∨
          out.length < frames * db.config.outputChannels := by
        simp only [Fits] at hnot
        omega
      simp only [if_neg hframes, if_pos hshort]
      exact ⟨_, rfl⟩
  | supply out waits =>
    cases hstage
    rw [checked, supplyTransfers, show db.innerError = none from huntold]
    exact ⟨_, if_pos (Nat.lt_of_not_le hnot)⟩
  | deliver data waits =>
    cases hstage
    rw [checked, deliverTransfers, show db.innerError = none from huntold]
    exact ⟨_, if_pos (Nat.lt_of_not_le hnot)⟩
  | provoke stage' error => cases hstage
  | inspect => cases hstage

end

end Call

/-! ## Moments -/

/-- The points of a script on a double buffer that began as `db₀` at which a call can be made, each
with what was logged until then: between two calls, or inside the wait of a call that has come as
far as the transfers it has left. -/
inductive Moment (db₀ : DoubleBuffer BlockingRing α) :
    List LogEvent → DoubleBuffer BlockingRing α → Prop where
  | start : Moment db₀ [] db₀
  | call (c : Call α) {past : List LogEvent} {db : DoubleBuffer BlockingRing α}
      (before : Moment db₀ past db) : Moment db₀ (past ++ (c.run db).log) (c.run db).after
  | wait (ts : List (Transfer α)) (out : List α) {past : List LogEvent}
      {db : DoubleBuffer BlockingRing α} {t : Transfer α} {rest : List (Transfer α)}
      (before : Moment db₀ past db) (hstanding : (db.proceed ts out).standing = .waiting t rest) :
      Moment db₀ past (db.proceed ts out).after

/-- By induction over the calls: when they have been made it is a moment again. -/
theorem Moment.runAll {db₀ : DoubleBuffer BlockingRing α} :
    ∀ (calls : List (Call α)) {past : List LogEvent} {db : DoubleBuffer BlockingRing α},
      Moment db₀ past db →
        Moment db₀ (past ++ (DoubleBuffer.runAll calls db).1.flatMap Step.log)
          (DoubleBuffer.runAll calls db).2
  | [], past, db, h => by
    rw [DoubleBuffer.runAll, List.flatMap_nil, List.append_nil]
    exact h
  | c :: cs, past, db, h => by
    rw [DoubleBuffer.runAll, List.flatMap_cons, ← List.append_assoc]
    exact (h.call c).runAll cs

theorem Moment.told {config : DoubleBufferConfig} {past : List LogEvent}
    {db₀ db : DoubleBuffer BlockingRing α} (h : Told config [] db₀) (hmoment : Moment db₀ past db) :
    Told config past db := by
  induction hmoment with
  | start => exact h
  | call c before ih => exact (told_run config).1 c _ _ ih
  | wait ts out before hstanding ih => exact ih.proceed ts out

/-- How a call of a stage goes when `past` was logged before it. -/
structure Call.Raises (config : DoubleBufferConfig) (past : List LogEvent)
    (db : DoubleBuffer BlockingRing α) (stage : Stage) (c : Call α) : Prop where
  /-- If the stage was told to fail before, it raises the first error at once. -/
  first : ∀ first, (provokedIn stage past).head? = some first →
    c.run db = .refused first.duplicate c.out db
  /-- If the stage was not told and the slices of the call are too short, it raises that. -/
  unfit : provokedIn stage past = [] → ¬ c.Fits config →
    ∃ text, c.run db = .refused (.config text) c.out db
  /-- Otherwise it can only raise an error that the stage is told while the call waits, and raises
  the last one. -/
  last : provokedIn stage past = [] → c.Fits config → ∀ e, (c.run db).outcome = .error e →
    IsLast stage (c.run db).log e
  /-- The double buffer reports the first error in each case. -/
  reported : (c.run db).after.stageError stage =
    (provokedIn stage (past ++ (c.run db).log)).head?

theorem Told.raises {config : DoubleBufferConfig} {past : List LogEvent}
    {db : DoubleBuffer BlockingRing α} (h : Told config past db) {stage : Stage} {c : Call α}
    (hstage : c.stage? = some stage) : c.Raises config past db stage := by
  have hfirst := h.first stage
  refine ⟨?_, ?_, ?_, ((told_run config).1 c db past h).first stage⟩
  · intro first htold
    exact c.run_of_checked_error hstage (c.checked_of_told hstage (hfirst.trans htold))
  · intro huntold hnot
    rw [huntold] at hfirst
    obtain ⟨text, hchecked⟩ := c.checked_of_not_fits hstage hfirst (h.config_eq ▸ hnot)
    exact ⟨text, c.run_of_checked_error hstage hchecked⟩
  · intro huntold hfits e herror
    rw [huntold] at hfirst
    obtain ⟨ts, hchecked, hts⟩ := c.checked_of_fits hstage hfirst (h.config_eq ▸ hfits)
    rw [c.run_of_checked_ok hstage hchecked] at herror ⊢
    have hlast := h.isLast_carryOn c.waits (h.config_eq ▸ hts) herror
    rwa [IsLast, provokedIn_append, huntold] at hlast

/-- A new double buffer on blocking FIFOs, and any script of calls on it, in whose waits any other
calls run. At every moment the double buffer reports the first error each stage was told to fail
with, and each stage is armed with the last one. So a call raises the first error if its stage was
told before, and the last one if its stage is told while it waits. -/
theorem raises_provoked [Memory] {config : DoubleBufferConfig} {fill : α}
    {db₀ : DoubleBuffer BlockingRing α} (hmake : make config fill = .ok db₀) :
    (∀ calls, Moment db₀ ((runAll calls db₀).1.flatMap Step.log) (runAll calls db₀).2) ∧
      ∀ past db, Moment db₀ past db →
        Told config past db ∧
          ∀ (c : Call α) stage, c.stage? = some stage → c.Raises config past db stage := by
  refine ⟨fun calls => Moment.start.runAll calls, ?_⟩
  intro past db hmoment
  have htold := hmoment.told (.start hmake)
  exact ⟨htold, fun c stage hstage => htold.raises hstage⟩

/-- An inner call waits for input. Two errors come while it waits, and it raises the second. The
next inner call raises the first, and so does one whose slice is too short. -/
theorem raises_provoked_twice :
    let config : DoubleBufferConfig := { outerSize := 2, innerSize := 2, delay := 2 }
    let db₀ : DoubleBuffer BlockingRing Nat :=
      { config
        fifoSize := 4
        input := ⟨⟨#[0, 0, 0, 0, 0], 0, 0⟩, none, none⟩
        output := ⟨⟨#[0, 0, 0, 0, 0], 2, 0⟩, none, none⟩
        innerError := none
        outerError := none }
    let first : FifoError := .cancelled .reader "first"
    let second : FifoError := .cancelled .reader "second"
    let supply : Call Nat := .supply [0, 0] [[.provoke .inner first, .provoke .inner second]]
    let db : DoubleBuffer BlockingRing Nat := (supply.run db₀).after
    make config 0 = .ok db₀ ∧ (supply.run db₀).outcome = .error second ∧
      IsLast .inner (supply.run db₀).log second ∧
      Moment db₀ (supply.run db₀).log db ∧ db.innerError = some first ∧
      (Call.deliver [5, 6] []).run db = .refused first [] db ∧
      (∃ text, (Call.supply [0] []).run db₀ = .refused (.config text) [0] db₀) ∧
      (Call.supply [0] []).run db = .refused first [0] db := by
  intro config db₀ first second supply db
  have hmake : make config 0 = .ok db₀ := rfl
  obtain ⟨-, hmoments⟩ := raises_provoked hmake
  have hmoment : Moment db₀ (supply.run db₀).log db := Moment.start.call supply
  obtain ⟨-, hstart⟩ := hmoments [] db₀ .start
  obtain ⟨htold, hafter⟩ := hmoments _ db hmoment
  have herror : (supply.run db₀).outcome = .error second := rfl
  have hprovoked : (provokedIn .inner (supply.run db₀).log).head? = some first := rfl
  refine ⟨hmake, herror, (hstart supply .inner rfl).last rfl (Nat.le_refl 2) second herror, hmoment,
    (htold.first .inner).trans hprovoked, ?_, ?_, ?_⟩
  · exact (hafter (.deliver [5, 6] []) .inner rfl).first first hprovoked
  · exact (hstart (.supply [0] []) .inner rfl).unfit rfl (Nat.not_succ_le_self 1)
  · exact (hafter (.supply [0] []) .inner rfl).first first hprovoked

/-- It is not always the first error that a stage raises. If the stage is told twice while a call
waits, the FIFO at which it waits has forgotten the first error, though the double buffer still
reports it. -/
theorem raises_second_of_two :
    ¬ ∀ (config : DoubleBufferConfig) (fill : Nat) (db₀ : DoubleBuffer BlockingRing Nat),
      make config fill = .ok db₀ → ∀ past db, Moment db₀ past db →
        ∀ (c : Call Nat) stage e, c.stage? = some stage → c.Fits config →
          (c.run db).outcome = .error e →
          ∃ first, (provokedIn stage (past ++ (c.run db).log)).head? = some first ∧
            (c.run db).after.stageError stage = some first ∧ e = first.duplicate := by
  intro hfirst
  have hmake : make { outerSize := 2, innerSize := 2, delay := 2 } 0 =
      .ok ({
        config := { outerSize := 2, innerSize := 2, delay := 2 }
        fifoSize := 4
        input := ⟨⟨#[0, 0, 0, 0, 0], 0, 0⟩, none, none⟩
        output := ⟨⟨#[0, 0, 0, 0, 0], 2, 0⟩, none, none⟩
        innerError := none
        outerError := none } : DoubleBuffer BlockingRing Nat) := rfl
  obtain ⟨first, hprovoked, -, herror⟩ := hfirst _ _ _ hmake [] _ .start
    (.supply [0, 0] [[.provoke .inner (.cancelled .reader "first"),
      .provoke .inner (.cancelled .reader "second")]])
    .inner (.cancelled .reader "second") rfl (Nat.le_refl 2) rfl
  cases (show some (FifoError.cancelled .reader "first") = some first from hprovoked)
  exact absurd herror (by decide)

end DoubleBuffer

end BlockFlow
