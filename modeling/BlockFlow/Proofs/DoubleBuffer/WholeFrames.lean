import BlockFlow.Proofs.DoubleBuffer.Blocking
import BlockFlow.Proofs.DoubleBuffer.Sizes
import BlockFlow.Proofs.DoubleBuffer.Stream
import Mathlib.Logic.Relation

/-!
# A double buffer stores whole frames

A call may bring slices of any length, and it may fail or be cancelled between its transfers, but
each transfer it makes is of whole frames of its lane (`OfCall.dvd_count`). All that happens to a
double buffer are such transfers, each made as a whole or not at all, and stages that are told to
fail (`Changes`), so that its FIFOs store whole frames at all times (`Framed.becomes`). The states
that a script passes through, those inside its waits and between the transfers of its calls
included, come about so (`visits_run`). In each of them the frames stored and the frames for which
there is space are all the frames that the FIFO holds (`wholeFrames_of_make`).
-/

set_option autoImplicit false

namespace BlockFlow.DoubleBuffer

universe u

variable {F : Type u → Type u} {α : Type u}

/-! ## What happens to a double buffer -/

/-- The transfers of the calls that a double buffer of these sizes lets through. Of a longer slice
they store the front. -/
inductive OfCall (config : DoubleBufferConfig) : Transfer α → Prop where
  | store (input : List α) {frames : Nat} (hframes : frames ≤ config.outerSize)
      (hinput : frames * config.inputChannels ≤ input.length) :
      OfCall config (.push .input (input.take (frames * config.inputChannels)))
  | fetch {frames : Nat} (hframes : frames ≤ config.outerSize) :
      OfCall config (.pull .output (frames * config.outputChannels))
  | supply : OfCall config (.pull .input (config.innerSize * config.inputChannels))
  | deliver (data : List α) (hdata : config.innerSize * config.outputChannels ≤ data.length) :
      OfCall config (.push .output (data.take (config.innerSize * config.outputChannels)))

/-- Whatever the slices of a call, each of its transfers is of whole frames. -/
theorem OfCall.dvd_count {config : DoubleBufferConfig} {t : Transfer α} (h : OfCall config t) :
    config.channels t.lane ∣ count t := by
  cases h with
  | store input hframes hinput =>
    rw [count, List.length_take_of_le hinput]
    exact Nat.dvd_mul_left ..
  | fetch hframes => exact Nat.dvd_mul_left ..
  | supply => exact Nat.dvd_mul_left ..
  | deliver data hdata =>
    rw [count, List.length_take_of_le hdata]
    exact Nat.dvd_mul_left ..

section Calls

variable {db : DoubleBuffer F α} {ts : List (Transfer α)}

theorem ofCall_of_processTransfers [SharedFifo F] {input : List α} {outLength frames : Nat}
    (hts : db.processTransfers input outLength frames = .ok ts) : ∀ t ∈ ts, OfCall db.config t := by
  obtain ⟨-, hframes, hinput, -, -, rfl⟩ := processTransfers_eq_ok.1 hts
  simp only [List.forall_mem_cons]
  exact ⟨.store input hframes hinput, .fetch hframes, nofun⟩

theorem ofCall_of_supplyTransfers {outLength : Nat}
    (hts : db.supplyTransfers outLength = .ok ts) : ∀ t ∈ ts, OfCall db.config t := by
  obtain ⟨-, -, rfl⟩ := supplyTransfers_eq_ok.1 hts
  simp only [List.forall_mem_cons]
  exact ⟨.supply, nofun⟩

theorem ofCall_of_deliverTransfers {data : List α}
    (hts : db.deliverTransfers data = .ok ts) : ∀ t ∈ ts, OfCall db.config t := by
  obtain ⟨-, hdata, rfl⟩ := deliverTransfers_eq_ok.1 hts
  simp only [List.forall_mem_cons]
  exact ⟨.deliver data hdata, nofun⟩

end Calls

section Steps

variable [SharedFifo F]

/-- What happens to a double buffer at a time: one transfer of a call is made, or a stage is told to
fail. -/
inductive Changes : DoubleBuffer F α → DoubleBuffer F α → Prop where
  | transfer {db db' : DoubleBuffer F α} {t : Transfer α} {out out' : List α}
      (hcall : OfCall db.config t) (hdone : db.attempt out t = .done (out', db')) : Changes db db'
  | provoke (db : DoubleBuffer F α) (stage : Stage) (error : FifoError) :
      Changes db (db.provoke stage error)

/-- What a double buffer can become, whatever calls are made on it and in whatever order they make
their transfers. -/
abbrev Becomes : DoubleBuffer F α → DoubleBuffer F α → Prop := Relation.ReflTransGen Changes

theorem Changes.config_eq {db db' : DoubleBuffer F α} (h : Changes db db') :
    db'.config = db.config := by
  cases h with
  | transfer hcall hdone =>
    obtain ⟨f, rfl⟩ := exists_setFifo_of_attempt hdone
    exact config_setFifo ..
  | provoke stage error => cases stage <;> rfl

theorem Becomes.config_eq {db db' : DoubleBuffer F α} (h : Becomes db db') :
    db'.config = db.config := by
  induction h with
  | refl => rfl
  | tail _ hchange ih => exact hchange.config_eq.trans ih

/-! ## The states of a script -/

/-- The double buffer after each transfer that `proceed` makes. -/
def passed : List (Transfer α) → List α → DoubleBuffer F α → List (DoubleBuffer F α)
  | [], _, _ => []
  | t :: ts, out, db =>
    match db.attempt out t with
    | .done (out', db') => db' :: passed ts out' db'
    | .failed _ => []
    | .blocked => []

mutual

/-- Every state that a double buffer passes through while a call is made, in order: after each
transfer of the call, whenever a stage is told to fail, and so for the calls in its waits. -/
def Call.states : Call α → DoubleBuffer F α → List (DoubleBuffer F α)
  | .process input out frames waits, db =>
    match db.processTransfers input out.length frames with
    | .error _ => []
    | .ok ts => statesOn .outer waits ts out db
  | .supply out waits, db =>
    match db.supplyTransfers out.length with
    | .error _ => []
    | .ok ts => statesOn .inner waits ts out db
  | .deliver data waits, db =>
    match db.deliverTransfers data with
    | .error _ => []
    | .ok ts => statesOn .inner waits ts [] db
  | .provoke stage error, db => [db.provoke stage error]
  | .inspect, _ => []

/-- The states while a call makes its transfers. -/
def statesOn (stage : Stage) : List (List (Call α)) → List (Transfer α) → List α →
    DoubleBuffer F α → List (DoubleBuffer F α)
  | [], ts, out, db =>
    let p := db.proceed ts out
    passed ts out db ++
      match p.standing with
      | .finished => []
      | .failed _ => []
      | .waiting t _ => [p.after.provoke stage (.cancelled t.side stallReason)]
  | group :: waits, ts, out, db =>
    let p := db.proceed ts out
    passed ts out db ++
      match p.standing with
      | .finished => []
      | .failed _ => []
      | .waiting t rest =>
        statesAll group p.after ++
          statesOn stage waits (t :: rest) p.buffer (runAll group p.after).2

/-- The states while calls are made one after the other. -/
def statesAll : List (Call α) → DoubleBuffer F α → List (DoubleBuffer F α)
  | [], _ => []
  | c :: cs, db => c.states db ++ statesAll cs (c.run db).after

end

/-- A double buffer becomes each of `states`, and in the end is the last of them, or is unchanged
if there are none. -/
structure Visits (db : DoubleBuffer F α) (states : List (DoubleBuffer F α))
    (db' : DoubleBuffer F α) : Prop where
  becomes : ∀ s ∈ states, Becomes db s
  last : db' ∈ db :: states

namespace Visits

variable {db db' db'' : DoubleBuffer F α} {states states' : List (DoubleBuffer F α)}

theorem nothing (db : DoubleBuffer F α) : Visits db [] db where
  becomes := fun _ hs => absurd hs List.not_mem_nil
  last := List.mem_cons_self

theorem becomes_last (h : Visits db states db') : Becomes db db' := by
  rcases List.mem_cons.1 h.last with rfl | hmem
  · exact .refl
  · exact h.becomes db' hmem

theorem single (hchange : Changes db db') : Visits db [db'] db' where
  becomes := by
    intro s hs
    obtain rfl := List.mem_singleton.1 hs
    exact .single hchange
  last := List.mem_cons_of_mem db List.mem_cons_self

theorem append (first : Visits db states db') (second : Visits db' states' db'') :
    Visits db (states ++ states') db'' where
  becomes := by
    intro s hs
    rcases List.mem_append.1 hs with hs | hs
    · exact first.becomes s hs
    · exact first.becomes_last.trans (second.becomes s hs)
  last := by
    rcases List.mem_cons.1 second.last with rfl | hmem
    · exact List.mem_append_left states' first.last
    · exact List.mem_cons_of_mem db (List.mem_append_right states hmem)

end Visits

/-- By induction over the transfers of a call. -/
theorem visits_proceed {ts : List (Transfer α)} {db : DoubleBuffer F α}
    (hts : ∀ t ∈ ts, OfCall db.config t) (out : List α) :
    Visits db (passed ts out db) (db.proceed ts out).after := by
  induction ts generalizing db out with
  | nil => exact .nothing db
  | cons t ts ih =>
    rw [passed, proceed]
    cases hattempt : db.attempt out t with
    | done result =>
      obtain ⟨out', db'⟩ := result
      have hchange : Changes db db' := .transfer (hts t List.mem_cons_self) hattempt
      have hrest : ∀ u ∈ ts, OfCall db'.config u := by
        rw [hchange.config_eq]
        exact fun u hu => hts u (List.mem_cons_of_mem t hu)
      exact (Visits.single hchange).append (ih hrest out')
    | failed e => exact .nothing db
    | blocked => exact .nothing db

/-- By induction over the script: a double buffer becomes every state that it passes through. -/
theorem visits_run :
    (∀ (c : Call α) (db : DoubleBuffer F α), Visits db (c.states db) (c.run db).after) ∧
      (∀ (stage : Stage) (waits : List (List (Call α))) (ts : List (Transfer α)) (out : List α)
        (db : DoubleBuffer F α), (∀ t ∈ ts, OfCall db.config t) →
          Visits db (statesOn stage waits ts out db) (carryOn stage waits ts out db).after) ∧
      ∀ (cs : List (Call α)) (db : DoubleBuffer F α),
        Visits db (statesAll cs db) (runAll cs db).2 := by
  apply Call.run.mutual_induct
  -- each stage's call is refused at once, or comes down to its transfers
  · intro input out frames waits db e hts
    rw [Call.states, Call.run, hts]
    exact .nothing db
  · intro input out frames waits db ts hts ih
    rw [Call.states, Call.run, hts]
    exact ih (ofCall_of_processTransfers hts)
  · intro out waits db e hts
    rw [Call.states, Call.run, hts]
    exact .nothing db
  · intro out waits db ts hts ih
    rw [Call.states, Call.run, hts]
    exact ih (ofCall_of_supplyTransfers hts)
  · intro data waits db e hts
    rw [Call.states, Call.run, hts]
    exact .nothing db
  · intro data waits db ts hts ih
    rw [Call.states, Call.run, hts]
    exact ih (ofCall_of_deliverTransfers hts)
  · intro stage error db
    rw [Call.states, Call.run]
    exact .single (.provoke db stage error)
  · intro db
    rw [Call.states, Call.run]
    exact .nothing db
  -- the transfers of a call with no group left, by where they stand
  · intro stage ts out db p hstanding hts
    rw [statesOn, carryOn, hstanding, List.append_nil]
    exact visits_proceed hts out
  · intro stage ts out db p e hstanding hts
    rw [statesOn, carryOn, hstanding, List.append_nil]
    exact visits_proceed hts out
  · intro stage ts out db p t rest hstanding hts
    rw [statesOn, carryOn, hstanding]
    exact (visits_proceed hts out).append (.single (.provoke _ stage _))
  -- and with a group for the next wait
  · intro stage group waits ts out db p hstanding hts
    rw [statesOn, carryOn, hstanding, List.append_nil]
    exact visits_proceed hts out
  · intro stage group waits ts out db p e hstanding hts
    rw [statesOn, carryOn, hstanding, List.append_nil]
    exact visits_proceed hts out
  · intro stage group waits ts out db p t rest hstanding inner hgroup hrest hts
    have hinside := (visits_proceed hts out).append hgroup
    have hleft : ∀ u ∈ t :: rest, OfCall (runAll group p.after).2.config u := by
      rw [hinside.becomes_last.config_eq]
      exact fun u hu => hts u ((suffix_of_waiting hstanding).subset hu)
    rw [statesOn, carryOn, hstanding]
    simp only [← List.append_assoc]
    exact hinside.append (hrest hleft)
  · intro db
    rw [statesAll, runAll]
    exact .nothing db
  · intro c cs db step hc hcs
    rw [statesAll, runAll]
    exact hc.append hcs

end Steps

/-! ## Whole frames -/

section Framed

variable [SharedFifo F] [LawfulFifo F] [BoundedFifo F] {db db' : DoubleBuffer F α}

/-- What every change keeps: each FIFO has room for as many frames as the sizes say, and stores
whole frames. -/
structure Framed (db : DoubleBuffer F α) : Prop where
  validated : db.config.validate = .ok ()
  fifoSize : db.config.fifoSize = .ok db.fifoSize
  valid : db.Valid
  capacity : ∀ lane,
    BoundedFifo.capacity (db.fifo lane) = db.fifoSize * db.config.channels lane
  whole : ∀ lane, db.config.channels lane ∣ SharedFifo.fillCount (db.fifo lane)

/-- A FIFO may take the place of another one of its size if it stores whole frames as well. -/
theorem Framed.setFifo (h : db.Framed) {f : F α} {lane : Lane} (hvalid : LawfulFifo.Valid f)
    (hcapacity : BoundedFifo.capacity f = BoundedFifo.capacity (db.fifo lane))
    (hwhole : db.config.channels lane ∣ SharedFifo.fillCount f) : (db.setFifo f lane).Framed := by
  have hconfig := config_setFifo db f lane
  have hsize := fifoSize_setFifo db f lane
  refine ⟨hconfig ▸ h.validated, ?_, valid_setFifo h.valid hvalid lane, ?_, ?_⟩
  · rw [hconfig, hsize]
    exact h.fifoSize
  · intro lane'
    rw [hconfig, hsize, ← h.capacity lane']
    by_cases heq : lane = lane'
    · subst heq
      rw [fifo_setFifo_self, hcapacity]
    · rw [fifo_setFifo_of_ne db f heq]
  · intro lane'
    rw [hconfig]
    by_cases heq : lane = lane'
    · subst heq
      rw [fifo_setFifo_self]
      exact hwhole
    · rw [fifo_setFifo_of_ne db f heq]
      exact h.whole lane'

/-- A transfer of whole frames is made as a whole or not at all. -/
theorem Framed.transfer (h : db.Framed) {t : Transfer α} {out out' : List α}
    (hdvd : db.config.channels t.lane ∣ count t) (hdone : db.attempt out t = .done (out', db')) :
    db'.Framed := by
  cases t with
  | push lane block =>
    obtain ⟨f, hpush, -, rfl⟩ := attempt_push_eq_done hdone
    have hvalid := h.valid lane
    refine h.setFifo (LawfulFifo.valid_tryPush hvalid hpush)
      (BoundedFifo.capacity_tryPush hvalid hpush) ?_
    rw [LawfulFifo.fillCount_tryPush hvalid hpush]
    exact Nat.dvd_add (h.whole lane) hdvd
  | pull lane n =>
    obtain ⟨block, f, hpull, -, rfl⟩ := attempt_pull_eq_done hdone
    have hvalid := h.valid lane
    refine h.setFifo (LawfulFifo.valid_tryPull hvalid hpull)
      (BoundedFifo.capacity_tryPull hvalid hpull) ?_
    have hwhole := h.whole lane
    rw [LawfulFifo.fillCount_tryPull hvalid hpull] at hwhole
    exact (Nat.dvd_add_right hdvd).1 hwhole

/-- A stage that is told to fail moves nothing. -/
theorem Framed.provoke (h : db.Framed) (stage : Stage) (error : FifoError) :
    (db.provoke stage error).Framed := by
  have hvalid := (Passes.provoke h.valid stage error).valid
  have hconfig : (db.provoke stage error).config = db.config := by cases stage <;> rfl
  have hsize : (db.provoke stage error).fifoSize = db.fifoSize := by cases stage <;> rfl
  refine ⟨hconfig ▸ h.validated, ?_, hvalid, ?_, ?_⟩
  · rw [hconfig, hsize]
    exact h.fifoSize
  · intro lane
    obtain ⟨side, hfifo⟩ := fifo_provoke db stage error lane
    rw [hconfig, hsize, hfifo, BoundedFifo.capacity_setError]
    exact h.capacity lane
  · intro lane
    obtain ⟨side, hfifo⟩ := fifo_provoke db stage error lane
    rw [hconfig, hfifo, LawfulFifo.fillCount_setError (h.valid lane)]
    exact h.whole lane

theorem Framed.changes (h : db.Framed) (hchange : Changes db db') : db'.Framed := by
  cases hchange with
  | transfer hcall hdone => exact h.transfer hcall.dvd_count hdone
  | provoke stage error => exact h.provoke stage error

/-- By induction over what happens to it. -/
theorem Framed.becomes (h : db.Framed) (hbecomes : Becomes db db') : db'.Framed := by
  induction hbecomes with
  | refl => exact h
  | tail _ hchange ih => exact ih.changes hchange

/-- A new double buffer stores the frames of its delay. -/
theorem Framed.of_make [Memory] {config : DoubleBufferConfig} {fill : α}
    (hmake : make config fill = .ok db) : db.Framed := by
  obtain ⟨-, -, -, hvalidate, -⟩ := make_eq_ok hmake
  obtain ⟨size, hsizes⟩ := DoubleBufferConfig.neverWraps_of_validate hvalidate
  have hbuilt := built_of_validate (F := F) hvalidate hsizes.fifoSize fill
  rw [hmake] at hbuilt
  obtain ⟨hvalid, hinput, houtput⟩ := valid_of_make hmake
  have hfillInput := hvalid.fillCount_input
  have hfillOutput := hvalid.fillCount_output
  rw [hinput] at hfillInput
  rw [houtput, List.length_replicate] at hfillOutput
  cases hbuilt with
  | filled hnew hempty hpush =>
    refine ⟨hvalidate, hsizes.fifoSize, hvalid, ?_, ?_⟩
    · rintro (_ | _)
      · exact BoundedFifo.capacity_make hnew
      · exact (BoundedFifo.capacity_tryPush (LawfulFifo.valid_make hempty) hpush).trans
          (BoundedFifo.capacity_make hempty)
    · rintro (_ | _)
      · exact hfillInput ▸ Nat.dvd_zero _
      · exact hfillOutput ▸ Nat.dvd_mul_left ..

/-- The space in a FIFO is for whole frames as well. -/
theorem Framed.dvd_availableSpace (h : db.Framed) (lane : Lane) :
    db.config.channels lane ∣ SharedFifo.availableSpace (db.fifo lane) := by
  have hsum := BoundedFifo.fillCount_add_availableSpace (h.valid lane)
  rw [h.capacity lane] at hsum
  exact (Nat.dvd_add_right (h.whole lane)).1 (hsum ▸ Nat.dvd_mul_left ..)

/-- The frames stored and those for which there is space are all that the FIFO holds. -/
theorem Framed.frames_add_frames (h : db.Framed) (lane : Lane) :
    SharedFifo.fillCount (db.fifo lane) / db.config.channels lane +
        SharedFifo.availableSpace (db.fifo lane) / db.config.channels lane = db.fifoSize := by
  rw [← Nat.add_div_of_dvd_right (h.whole lane),
    BoundedFifo.fillCount_add_availableSpace (h.valid lane), h.capacity lane]
  exact Nat.mul_div_cancel _ (DoubleBufferConfig.channels_pos h.validated lane)

end Framed

/-- The frame counts of a double buffer tell all that it stores. -/
structure WholeFrames [SharedFifo F] (db : DoubleBuffer F α) : Prop where
  /-- Each FIFO holds as many frames as the sizes say. -/
  fifoSize : db.config.fifoSize = .ok db.fifoSize
  inputFill : db.inputFill * db.config.inputChannels = SharedFifo.fillCount db.input
  outputFill : db.outputFill * db.config.outputChannels = SharedFifo.fillCount db.output
  inputSpace : db.inputSpace * db.config.inputChannels = SharedFifo.availableSpace db.input
  outputSpace : db.outputSpace * db.config.outputChannels = SharedFifo.availableSpace db.output
  input : db.inputFill + db.inputSpace = db.fifoSize
  output : db.outputFill + db.outputSpace = db.fifoSize

theorem Framed.wholeFrames [SharedFifo F] [LawfulFifo F] [BoundedFifo F] {db : DoubleBuffer F α}
    (h : db.Framed) : db.WholeFrames where
  fifoSize := h.fifoSize
  inputFill := Nat.div_mul_cancel (h.whole .input)
  outputFill := Nat.div_mul_cancel (h.whole .output)
  inputSpace := Nat.div_mul_cancel (h.dvd_availableSpace .input)
  outputSpace := Nat.div_mul_cancel (h.dvd_availableSpace .output)
  input := h.frames_add_frames .input
  output := h.frames_add_frames .output

/-- A double buffer stores whole frames for good: whatever it becomes, and so in every state that
it passes through while any calls are made on it, up to the one in which they leave it. -/
structure KeepsFrames [SharedFifo F] (db₀ : DoubleBuffer F α) : Prop where
  becomes : ∀ db, Becomes db₀ db → db.WholeFrames
  script : ∀ calls, ∀ db ∈ db₀ :: statesAll calls db₀, db.WholeFrames
  last : ∀ calls, (runAll calls db₀).2 ∈ db₀ :: statesAll calls db₀

theorem keepsFrames_of_make [Memory] [SharedFifo F] [LawfulFifo F] [BoundedFifo F]
    {config : DoubleBufferConfig} {fill : α} {db₀ : DoubleBuffer F α}
    (hmake : make config fill = .ok db₀) : db₀.KeepsFrames where
  becomes := fun _ hbecomes => ((Framed.of_make hmake).becomes hbecomes).wholeFrames
  script := by
    intro calls db hdb
    rcases List.mem_cons.1 hdb with rfl | hdb
    · exact (Framed.of_make hmake).wholeFrames
    · exact ((Framed.of_make hmake).becomes ((visits_run.2.2 calls db₀).becomes db hdb)).wholeFrames
  last := fun calls => (visits_run.2.2 calls db₀).last

/-- Both FIFOs of a double buffer, of either kind, store whole frames in every state, whatever calls
are made on it, with slices of any length, one after the other or inside each other's waits, and
wherever they fail. -/
theorem wholeFrames_of_make [Memory] (config : DoubleBufferConfig) (fill : α) :
    (∀ db₀ : DoubleBuffer LockFreeRing α, make config fill = .ok db₀ → db₀.KeepsFrames) ∧
      ∀ db₀ : DoubleBuffer BlockingRing α, make config fill = .ok db₀ → db₀.KeepsFrames :=
  ⟨fun _ hmake => keepsFrames_of_make hmake, fun _ hmake => keepsFrames_of_make hmake⟩

/-- An outer call brings two and a half frames of input. It stores two and waits for output, while
a delivery is refused that is too short, and then it is cancelled. The two frames stay, and the
frame of the delay is still there. -/
theorem wholeFrames_of_make_cancelled :
    let config : DoubleBufferConfig :=
      { outerSize := 2, innerSize := 3, delay := 1, inputChannels := 2, outputChannels := 1 }
    let calls : List (Call Nat) := [.process [1, 2, 3, 4, 5] [0, 0, 0] 2 [[.deliver [7] []]]]
    let db₀ : DoubleBuffer BlockingRing Nat :=
      { config
        fifoSize := 4
        input := ⟨⟨#[0, 0, 0, 0, 0, 0, 0, 0, 0], 0, 0⟩, none, none⟩
        output := ⟨⟨#[0, 0, 0, 0, 0], 1, 0⟩, none, none⟩
        innerError := none
        outerError := none }
    let db := (runAll calls db₀).2
    make config 0 = .ok db₀ ∧ db₀.KeepsFrames ∧ db ∈ db₀ :: statesAll calls db₀ ∧
      db.WholeFrames ∧
      (runAll calls db₀).1.map Step.outcome = [.error (.cancelled .reader stallReason)] ∧
      SharedFifo.fillCount db.input = 4 ∧ db.inputFill = 2 ∧ db.inputSpace = 2 ∧
      db.outputFill = 1 ∧ db.outputSpace = 3 := by
  intro config calls db₀ db
  have hmake : make config 0 = .ok db₀ := rfl
  have hkeeps := (wholeFrames_of_make config 0).2 db₀ hmake
  have hlast := hkeeps.last calls
  refine ⟨hmake, hkeeps, hlast, hkeeps.script calls db hlast, ?_, ?_, ?_, ?_, ?_, ?_⟩
  · simp only [calls, db₀, config]
    rfl
  · decide
  · decide
  · decide
  · decide
  · decide

end BlockFlow.DoubleBuffer
