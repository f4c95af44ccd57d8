import BlockFlow.Proofs.BlockingRing.Notices

/-!
# Whatever happens while a call waits

While a call on a blocking ring waits, any other calls may run, on either side, and wait in their
turn. A `Moment` is any point of such a script at which a call can be made: between two calls or
inside a wait of any number of them. At every moment what was stored has been fetched or is still
stored, in order. From every moment a transfer goes in one of few ways (`Transfer.Goes`): it is
larger than the ring and refused at once, or it is served at once, or it fails with the error armed
last for its party while it cannot be served, or it waits (`never_tears`).
-/

set_option autoImplicit false

namespace BlockFlow.BlockingRing

universe u

variable {α : Type u}

/-! ## Transfers that wait -/

section Transfers

variable {b : BlockingRing α} {request : Transfer α}

/-- A transfer of more than the ring can hold is refused at once. -/
theorem transfer_of_capacity_lt (hlong : b.capacity < request.count)
    (waits : List (List (Call α))) :
    transfer request waits b =
      .refused (oversize b.capacity request.side request.count) request.buffer b := by
  cases waits with
  | nil => rw [transfer, attempt_of_capacity_lt hlong]
  | cons group waits => rw [transfer, attempt_of_capacity_lt hlong]

/-- A transfer that can be served is served at once, whatever its party is armed with. -/
theorem transfer_of_serves (h : b.ring.Valid) (hserves : b.Serves request)
    (waits : List (List (Call α))) :
    transfer request waits b = .served request.side (b.served request).1 (b.served request).2 := by
  cases waits with
  | nil => rw [transfer, attempt_of_serves h hserves]
  | cons group waits => rw [transfer, attempt_of_serves h hserves]

/-- A transfer that cannot be served fails at once if its party is armed. -/
theorem transfer_of_armed (hle : request.count ≤ b.capacity) (hnot : ¬ b.Serves request)
    {error : FifoError} (harmed : b.armed request.side = some error)
    (waits : List (List (Call α))) :
    transfer request waits b = .refused error.duplicate request.buffer b := by
  have hattempt : request.attempt b = .failed error.duplicate :=
    (attempt_of_not_serves hle hnot).trans (holdUp_of_armed harmed)
  cases waits with
  | nil => rw [transfer, hattempt]
  | cons group waits => rw [transfer, hattempt]

/-- A transfer that waits goes on from what the calls in its wait leave behind. -/
theorem transfer_cons_of_blocked (hblocked : request.attempt b = .blocked)
    (group : List (Call α)) (waits : List (List (Call α))) :
    transfer request (group :: waits) b =
      .afterWait request.side (runAll group b).1 (transfer request waits (runAll group b).2) := by
  rw [transfer, hblocked]

end Transfers

/-- How the step of a transfer that fits into a ring fails. It leaves its buffer as it was and tells
of no transfer. Its error is a copy of the one its party is armed with, and at that moment it cannot
be served. -/
structure Step.FailsHeldUp (s : Step α) (request : Transfer α) (e : FifoError) : Prop where
  buffer : s.buffer = request.buffer
  signals : ∀ side, Signal.transferred side ∉ s.signals
  armed : ∃ error, s.after.armed request.side = some error ∧ e = error.duplicate
  unserved : ¬ s.after.Serves request

theorem waiting_ne_transferred (side side' : Side) :
    Signal.transferred side ≠ Signal.waiting side' := by
  cases side <;> cases side' <;> exact nofun

/-- One more wait before a failure changes nothing of it. -/
theorem Step.FailsHeldUp.afterWait {rest : Step α} {request : Transfer α} {e : FifoError}
    (h : rest.FailsHeldUp request e) (group : List (Step α)) :
    (Step.afterWait request.side group rest).FailsHeldUp request e where
  buffer := h.buffer
  signals := by
    intro side hmem
    rcases List.mem_cons.1 hmem with heq | hmem
    · exact waiting_ne_transferred side request.side heq
    · exact h.signals side hmem
  armed := h.armed
  unserved := h.unserved

theorem serves_setError {b : BlockingRing α} (side : Side) (error : FifoError)
    (request : Transfer α) : (b.setError side error).Serves request ↔ b.Serves request := by
  cases side <;> cases request <;> exact Iff.rfl

/-- A transfer that does not wait fails only where it is held up. -/
theorem failsHeldUp_of_not_blocked {b : BlockingRing α} (h : b.ring.Valid) {request : Transfer α}
    (hle : request.count ≤ b.capacity) (hmoves : request.attempt b ≠ .blocked)
    (waits : List (List (Call α))) {e : FifoError}
    (herror : (transfer request waits b).outcome = .error e) :
    (transfer request waits b).FailsHeldUp request e := by
  by_cases hserves : b.Serves request
  · rw [transfer_of_serves h hserves] at herror
    cases herror
  cases harmed : b.armed request.side with
  | none =>
    exact absurd ((attempt_of_not_serves hle hserves).trans (holdUp_of_unarmed harmed)) hmoves
  | some error =>
    rw [transfer_of_armed hle hserves harmed] at herror ⊢
    cases herror
    exact ⟨rfl, fun side => List.not_mem_nil, ⟨error, harmed, rfl⟩, hserves⟩

/-- A transfer that waits with nothing left to happen fails, and so it does not wait forever. -/
theorem failsHeldUp_of_stalled {b : BlockingRing α} {request : Transfer α}
    (hnot : ¬ b.Serves request) :
    (Step.stalled request.side request.buffer b).FailsHeldUp request
      (FifoError.cancelled request.side stallReason).duplicate where
  buffer := rfl
  signals := by
    intro side hmem
    cases side <;> cases request <;>
      simp [Step.stalled, Signal.transferred, Signal.waiting, Transfer.side] at hmem
  armed := by
    refine ⟨.cancelled request.side stallReason, ?_, rfl⟩
    show (b.setError request.side _).armed request.side = _
    cases request.side <;> rfl
  unserved := by
    show ¬ (b.setError request.side _).Serves request
    rwa [serves_setError]

/-- By induction over the waits: a transfer that fits fails only where it is held up. -/
theorem failsHeldUp_of_error {request : Transfer α} {e : FifoError} :
    ∀ (waits : List (List (Call α))) {b : BlockingRing α}, b.ring.Valid →
      request.count ≤ b.capacity → (transfer request waits b).outcome = .error e →
      (transfer request waits b).FailsHeldUp request e := by
  intro waits
  induction waits with
  | nil =>
    intro b h hle herror
    by_cases hblocked : request.attempt b = .blocked
    · rw [transfer, hblocked] at herror ⊢
      cases herror
      exact failsHeldUp_of_stalled (attempt_eq_blocked h hblocked).2.1
    · exact failsHeldUp_of_not_blocked h hle hblocked [] herror
  | cons group waits ih =>
    intro b h hle herror
    by_cases hblocked : request.attempt b = .blocked
    · -- whatever runs in the wait leaves a valid ring of the same size to go on with
      have hinside := passes_run.2.2 group b h
      rw [transfer_cons_of_blocked hblocked] at herror ⊢
      exact (ih hinside.valid (hinside.capacity ▸ hle) herror).afterWait _
    · exact failsHeldUp_of_not_blocked h hle hblocked (group :: waits) herror

/-- How a transfer succeeds. Its buffer is as long as it was, and the last thing that happens is
that the whole block is stored or fetched. -/
structure Transfer.Succeeds (request : Transfer α) (waits : List (List (Call α)))
    (b : BlockingRing α) : Prop where
  length : (transfer request waits b).buffer.length = request.buffer.length
  last : ∃ inside, noticesOn request waits b =
    inside ++ [request.notice (transfer request waits b).buffer]

theorem succeeds_of_done {b : BlockingRing α} (h : b.ring.Valid) {request : Transfer α}
    {result : List α × BlockingRing α} (hdone : request.attempt b = .done result)
    (waits : List (List (Call α))) : request.Succeeds waits b := by
  obtain ⟨hserves, rfl⟩ := attempt_eq_done h hdone
  have hnotices : noticesOn request waits b = [request.notice (b.served request).1] := by
    cases waits with
    | nil => rw [noticesOn, hdone]
    | cons group waits => rw [noticesOn, hdone]
  refine ⟨?_, [], ?_⟩
  · rw [transfer_of_serves h hserves]
    exact length_served h hserves
  · rw [transfer_of_serves h hserves, hnotices]
    rfl

/-- By induction over the waits: what a transfer that succeeds does last is the transfer. -/
theorem succeeds_of_ok {request : Transfer α} :
    ∀ (waits : List (List (Call α))) {b : BlockingRing α}, b.ring.Valid →
      (transfer request waits b).outcome = .ok () → request.Succeeds waits b := by
  intro waits
  induction waits with
  | nil =>
    intro b h hok
    cases hattempt : request.attempt b with
    | done result => exact succeeds_of_done h hattempt []
    | failed e =>
      rw [transfer, hattempt] at hok
      cases hok
    | blocked =>
      rw [transfer, hattempt] at hok
      cases hok
  | cons group waits ih =>
    intro b h hok
    cases hattempt : request.attempt b with
    | done result => exact succeeds_of_done h hattempt (group :: waits)
    | failed e =>
      rw [transfer, hattempt] at hok
      cases hok
    | blocked =>
      have hstep := transfer_cons_of_blocked hattempt group waits
      rw [hstep] at hok
      obtain ⟨hlength, inside, hinside⟩ := ih (passes_run.2.2 group b h).valid hok
      -- what runs in the wait comes before all that the rest of the transfer does
      refine ⟨hstep ▸ hlength, .waits request.side :: (noticesAll group b ++ inside), ?_⟩
      rw [hstep, noticesOn, hattempt]
      simp only [hinside, List.cons_append, List.append_assoc]
      rfl

/-! ## Moments -/

/-- The points of a script on a ring that began as `b₀` at which a call can be made, each with what
has happened until then. A call that cannot be served has begun to wait there any number of times,
whether or not anything happened since it looked last. -/
inductive Moment (b₀ : BlockingRing α) : List (Notice α) → BlockingRing α → Prop where
  | start : Moment b₀ [] b₀
  | call (c : Call α) {past : List (Notice α)} {b : BlockingRing α} (before : Moment b₀ past b) :
      Moment b₀ (past ++ c.notices b) (c.run b).after
  | wait (request : Transfer α) {past : List (Notice α)} {b : BlockingRing α}
      (before : Moment b₀ past b) (hblocked : request.attempt b = .blocked) :
      Moment b₀ (past ++ [.waits request.side]) b

theorem Moment.passes {b₀ b : BlockingRing α} {past : List (Notice α)} (h : b₀.ring.Valid)
    (hmoment : Moment b₀ past b) : Passes b₀ past b := by
  induction hmoment with
  | start => exact .nothing h
  | call c before ih => exact ih.append (passes_run.1 c _ ih.valid)
  | wait request before hblocked ih => exact ih.append (.waits ih.valid request.side)

/-- By induction over the calls: when they have been made it is a moment again. -/
theorem Moment.runAll {b₀ : BlockingRing α} :
    ∀ (calls : List (Call α)) {past : List (Notice α)} {b : BlockingRing α}, Moment b₀ past b →
      Moment b₀ (past ++ noticesAll calls b) (BlockingRing.runAll calls b).2
  | [], past, b, h => by
    rw [noticesAll, List.append_nil]
    exact h
  | c :: cs, past, b, h => by
    rw [noticesAll, ← List.append_assoc]
    exact (h.call c).runAll cs

/-! ### Every call of a script -/

mutual

/-- Something is true whenever the call, or a call inside its waits, is made. -/
def Call.Each (P : List (Notice α) → BlockingRing α → Prop) :
    Call α → List (Notice α) → BlockingRing α → Prop
  | .transfer request waits, past, b => P past b ∧ eachOn P request waits past b
  | .setError _ _, past, b => P past b

/-- Something is true whenever a call inside these waits of a transfer is made. -/
def eachOn (P : List (Notice α) → BlockingRing α → Prop) (request : Transfer α) :
    List (List (Call α)) → List (Notice α) → BlockingRing α → Prop
  | [], _, _ => True
  | group :: waits, past, b =>
    request.attempt b = .blocked →
      eachAll P group (past ++ [.waits request.side]) b ∧
        eachOn P request waits (past ++ [.waits request.side] ++ noticesAll group b)
          (runAll group b).2

/-- Something is true whenever one of the calls, or a call inside their waits, is made. -/
def eachAll (P : List (Notice α) → BlockingRing α → Prop) :
    List (Call α) → List (Notice α) → BlockingRing α → Prop
  | [], _, _ => True
  | c :: cs, past, b => c.Each P past b ∧ eachAll P cs (past ++ c.notices b) (c.run b).after

end

/-- By induction over the script: every call in it, inside whatever waits, is made at a moment. -/
theorem each_moment (b₀ : BlockingRing α) :
    (∀ (c : Call α) (past : List (Notice α)) (b : BlockingRing α),
      Moment b₀ past b → c.Each (Moment b₀) past b) ∧
      (∀ (request : Transfer α) (waits : List (List (Call α))) (past : List (Notice α))
        (b : BlockingRing α), Moment b₀ past b → eachOn (Moment b₀) request waits past b) ∧
      ∀ (cs : List (Call α)) (past : List (Notice α)) (b : BlockingRing α),
        Moment b₀ past b → eachAll (Moment b₀) cs past b := by
  apply Call.Each.mutual_induct
  · intro request waits past b ih h
    rw [Call.Each]
    exact ⟨h, ih h⟩
  · intro side error past b h
    rw [Call.Each]
    exact h
  · intro request past b h
    rw [eachOn]
    trivial
  · intro request group waits past b hgroup hrest h
    rw [eachOn]
    -- the wait begins a moment, and its group ends at the next one
    intro hblocked
    have hwait := h.wait request hblocked
    exact ⟨hgroup hwait, hrest (hwait.runAll group)⟩
  · intro past b h
    rw [eachAll]
    trivial
  · intro c cs past b hc hcs h
    rw [eachAll]
    exact ⟨hc h, hcs (h.call c)⟩

/-! ## How transfers go -/

/-- What is known of a ring for `capacity` elements when `past` has happened on it. -/
structure Account (capacity : Nat) (past : List (Notice α)) (b : BlockingRing α) : Prop where
  conserved : storedBy past = fetchedBy past ++ b.ring.contents
  capacity : b.capacity = capacity
  armed : ∀ side, b.armed side = (errorsFor side past).getLast?
  /-- Where a write goes ahead, the ring takes it. -/
  push : ∀ data, data.length ≤ b.availableSpace → ∃ r, b.ring.push data = .ok r
  /-- Where a read goes ahead, the ring has it. -/
  pull : ∀ n, n ≤ b.fillCount → ∃ taken, b.ring.pull n = .ok taken

/-- How a transfer on a ring for `capacity` elements goes, when `past` has happened on it and the
calls in `waits` are made while it waits. -/
structure Transfer.Goes (capacity : Nat) (past : List (Notice α)) (b : BlockingRing α)
    (request : Transfer α) (waits : List (List (Call α))) : Prop where
  /-- Refused at once if it is larger than the ring, whatever else. -/
  oversize : capacity < request.count →
    transfer request waits b =
      .refused (oversize capacity request.side request.count) request.buffer b
  /-- Served at once if it can be served, whatever its party is armed with. -/
  served : b.Serves request →
    transfer request waits b = .served request.side (b.served request).1 (b.served request).2
  /-- Refused at once if it cannot be served and its party is armed. -/
  heldUp : request.count ≤ capacity → ¬ b.Serves request →
    ∀ error, (errorsFor request.side past).getLast? = some error →
      transfer request waits b = .refused error.duplicate request.buffer b
  /-- If it succeeds, in the end the whole block is stored or fetched. -/
  succeeded : (transfer request waits b).outcome = .ok () → request.Succeeds waits b
  /-- If it fails though it fits, it moved nothing, and raised the error armed last. -/
  failed : request.count ≤ capacity → ∀ e, (transfer request waits b).outcome = .error e →
    (transfer request waits b).FailsHeldUp request e ∧
      ∃ error, (errorsFor request.side (past ++ noticesOn request waits b)).getLast? = some error ∧
        e = error.duplicate

section Moments

variable {capacity : Nat} {fill : α} {b₀ b : BlockingRing α} {past : List (Notice α)}

theorem account_of_moment [Memory] (hmake : make capacity fill = .ok b₀)
    (hmoment : Moment b₀ past b) :
    Account capacity past b := by
  obtain ⟨r, hr, rfl⟩ := make_eq_ok hmake
  have hpasses := hmoment.passes (.of_make hr)
  refine ⟨?_, hpasses.capacity.trans (Ring.capacity_of_make hr), ?_, ?_, ?_⟩
  · have hconserved := hpasses.conserved
    rwa [Ring.contents_of_make hr, List.nil_append] at hconserved
  · intro side
    rw [hpasses.armed side]
    cases side <;> exact Option.or_none
  · intro data hfits
    exact ⟨_, hpasses.valid.push_of_le hfits⟩
  · intro n hn
    exact ⟨_, hpasses.valid.pull_of_le hn⟩

theorem goes_of_account (h : b.ring.Valid) (haccount : Account capacity past b)
    (request : Transfer α) (waits : List (List (Call α))) :
    request.Goes capacity past b waits := by
  obtain ⟨-, rfl, harmed, -, -⟩ := haccount
  refine ⟨fun hlong => transfer_of_capacity_lt hlong waits,
    fun hserves => transfer_of_serves h hserves waits, ?_, succeeds_of_ok waits h, ?_⟩
  · intro hle hnot error hlast
    exact transfer_of_armed hle hnot ((harmed request.side).trans hlast) waits
  · intro hle e herror
    have hfails := failsHeldUp_of_error waits h hle herror
    obtain ⟨error, hafter, rfl⟩ := hfails.armed
    refine ⟨hfails, error, ?_, rfl⟩
    -- what is armed in the end was armed while the transfer waited, or else before it
    rw [errorsFor_append, List.getLast?_append, ← harmed, ← hafter,
      (passes_run.2.1 request waits b h).armed]

end Moments

/-- A new blocking ring, and any script of calls on it, in whose waits any other calls run. Every
call is made at a moment. At every moment what was stored has been fetched or is still stored, in
the order in which the ring tells of it; each party is armed with the error armed for it last; and
the ring underneath refuses nothing that goes ahead. From every moment every transfer goes as
`Transfer.Goes` says: refused for its length, or served, or failed with the error armed last while
it could not be served. -/
theorem never_tears [Memory] {capacity : Nat} {fill : α} {b₀ : BlockingRing α}
    (hmake : make capacity fill = .ok b₀) :
    (∀ calls, Moment b₀ (noticesAll calls b₀) (runAll calls b₀).2 ∧
      eachAll (Moment b₀) calls [] b₀ ∧
      (noticesAll calls b₀).map Notice.signal = signalsOf (runAll calls b₀).1) ∧
      ∀ past b, Moment b₀ past b →
        Account capacity past b ∧
          ∀ (request : Transfer α) (waits : List (List (Call α))),
            request.Goes capacity past b waits := by
  refine ⟨fun calls => ⟨.runAll calls .start, (each_moment b₀).2.2 calls [] b₀ .start,
    map_signal_notices.2.2 calls b₀⟩, ?_⟩
  intro past b hmoment
  have haccount := account_of_moment hmake hmoment
  refine ⟨haccount, goes_of_account ?_ haccount⟩
  obtain ⟨r, hr, rfl⟩ := make_eq_ok hmake
  exact (hmoment.passes (.of_make hr)).valid

/-- A read of two elements waits on an empty ring for two. Another read overtakes it and takes the
first element, so that one is left. From there the first read goes on through an idle wake-up until
one more element comes, while a read of three is refused, a read of one is served, and a read of two
fails with the second of two errors if these are armed before it looks again. -/
theorem never_tears_overtaken :
    let b₀ : BlockingRing Nat := ⟨⟨#[0, 0, 0], 0, 0⟩, none, none⟩
    let b : BlockingRing Nat := ⟨⟨#[1, 2, 0], 2, 1⟩, none, none⟩
    let late : FifoError := .cancelled .writer "late"
    let b' : BlockingRing Nat := ⟨⟨#[1, 2, 0], 2, 1⟩, some late, none⟩
    let overtaking : List (Call Nat) :=
      [.transfer (.write [1]) [], .transfer (.read [0]) [], .transfer (.write [2]) []]
    let past : List (Notice Nat) := .waits .reader :: noticesAll overtaking b₀
    let arming : List (Call Nat) :=
      [.setError .reader (.cancelled .writer "early"), .setError .reader late]
    let past' : List (Notice Nat) := past ++ [.waits .reader] ++ noticesAll arming b
    make 2 0 = .ok b₀ ∧ Moment b₀ past b ∧ Account 2 past b ∧
      transfer (.read [0, 0, 0]) [] b = .refused (oversize 2 .reader 3) [0, 0, 0] b ∧
      transfer (.read [0]) [] b = .served .reader [2] (b.discard 1) ∧
      (Transfer.read [0, 0]).Succeeds [[], [.transfer (.write [3]) []]] b ∧
      (transfer (.read [0, 0]) [arming] b).FailsHeldUp (.read [0, 0]) late ∧
      Moment b₀ past' b' ∧ transfer (.read [0, 0]) [] b' = .refused late [0, 0] b' := by
  intro b₀ b late b' overtaking past arming past'
  have hmake : make 2 0 = .ok b₀ := rfl
  have hwait : (Transfer.read [0, 0]).attempt b₀ = .blocked := rfl
  -- a run is computed once the names of its data are unfolded
  have hovertaken : (runAll overtaking b₀).2 = b := by
    simp only [overtaking, b₀, b]
    rfl
  have hmoment : Moment b₀ past b :=
    hovertaken ▸ (Moment.start.wait (.read [0, 0]) hwait).runAll overtaking
  have hagain : (Transfer.read [0, 0]).attempt b = .blocked := rfl
  have hlate : (runAll arming b).2 = b' := by
    simp only [arming, b, b']
    rfl
  have harmed : Moment b₀ past' b' :=
    hlate ▸ (hmoment.wait (.read [0, 0]) hagain).runAll arming
  obtain ⟨haccount, hgoes⟩ := (never_tears hmake).2 past b hmoment
  obtain ⟨-, hgoesArmed⟩ := (never_tears hmake).2 past' b' harmed
  have hfits : (Transfer.read [0, 0]).count ≤ 2 := le_rfl
  have hone : b.Serves (.read [0]) := Nat.le_refl 1
  have htwo : ¬ b'.Serves (.read [0, 0]) := Nat.not_succ_le_self 1
  have hlast : (errorsFor .reader past').getLast? = some late := by
    simp only [past', past, arming, overtaking, b, b₀]
    rfl
  have hserved :
      (transfer (.read [0, 0]) [[], [.transfer (.write [3]) []]] b).outcome = .ok () := by
    simp only [b]
    rfl
  have hfailed : (transfer (.read [0, 0]) [arming] b).outcome = .error late := by
    simp only [arming, b]
    rfl
  exact ⟨hmake, hmoment, haccount, (hgoes (.read [0, 0, 0]) []).oversize (Nat.lt_succ_self 2),
    (hgoes (.read [0]) []).served hone, (hgoes (.read [0, 0]) _).succeeded hserved,
    ((hgoes (.read [0, 0]) [arming]).failed hfits late hfailed).1, harmed,
    (hgoesArmed (.read [0, 0]) []).heldUp hfits htwo late hlast⟩

end BlockFlow.BlockingRing
