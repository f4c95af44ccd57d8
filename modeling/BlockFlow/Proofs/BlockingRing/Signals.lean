import BlockFlow.Proofs.BlockingRing.Waits
import Mathlib.Data.List.Chain

/-!
# The signals of a blocking ring

A transfer on a blocking ring looks whether it can be served, and waits where it cannot and its
party is not armed. `Transfer.waitsOf` lists these waits, each with the ring at the look before it,
the signals sent in it, and the ring at the look after it. Of its own a transfer sends one signal
for every wait, and one in the end if it succeeds (`Transfer.Tells`). No wait ends unheard: between
a look at which a transfer cannot be served and one at which it can, the other party tells of a
transfer (`transferred_mem_of_serves`). All of this holds of every call of every script
(`tells_of_make`).
-/

set_option autoImplicit false

namespace BlockFlow.BlockingRing

universe u

variable {α : Type u}

/-! ## Nothing changes unheard -/

section Unheard

variable {b b' : BlockingRing α} {ns : List (Notice α)}

theorem Notice.stored_of_signal_ne {n : Notice α} (h : n.signal ≠ .transferred .writer) :
    n.stored = [] := by
  cases n with
  | stores block => exact absurd rfl h
  | waits side => rfl
  | fetches block => rfl
  | arms side error => rfl

theorem Notice.fetched_of_signal_ne {n : Notice α} (h : n.signal ≠ .transferred .reader) :
    n.fetched = [] := by
  cases n with
  | fetches block => exact absurd rfl h
  | waits side => rfl
  | stores block => rfl
  | arms side error => rfl

theorem Notice.errorFor_of_signal_ne {n : Notice α} (side : Side) (h : n.signal ≠ .wakeAll) :
    n.errorFor side = none := by
  cases n with
  | arms s error => exact absurd rfl h
  | waits s => rfl
  | stores block => rfl
  | fetches block => rfl

/-- Where the writer tells of no transfer, nothing is stored. -/
theorem storedBy_eq_nil (h : .transferred .writer ∉ ns.map Notice.signal) : storedBy ns = [] :=
  List.flatMap_eq_nil_iff.2 fun _ hn =>
    Notice.stored_of_signal_ne fun heq => h (heq ▸ List.mem_map_of_mem hn)

/-- Where the reader tells of no transfer, nothing is fetched. -/
theorem fetchedBy_eq_nil (h : .transferred .reader ∉ ns.map Notice.signal) : fetchedBy ns = [] :=
  List.flatMap_eq_nil_iff.2 fun _ hn =>
    Notice.fetched_of_signal_ne fun heq => h (heq ▸ List.mem_map_of_mem hn)

/-- Where nobody is woken, nobody is armed. -/
theorem errorsFor_eq_nil (side : Side) (h : .wakeAll ∉ ns.map Notice.signal) :
    errorsFor side ns = [] :=
  List.filterMap_eq_nil_iff.2 fun _ hn =>
    Notice.errorFor_of_signal_ne side fun heq => h (heq ▸ List.mem_map_of_mem hn)

/-- What can be read grows only by a write, and the space only by a read. A transfer that cannot be
served and then can has heard of one by the other party. -/
theorem Passes.transferred_mem_of_serves (h : b.ring.Valid) (hpasses : Passes b ns b')
    {request : Transfer α} (hnot : ¬ b.Serves request) (hserves : b'.Serves request) :
    .transferred request.side.other ∈ ns.map Notice.signal := by
  by_contra hunheard
  have hlengths := congrArg List.length hpasses.conserved
  have hcapacity := hpasses.capacity
  have hsum := h.fillCount_add_availableSpace
  have hsum' := hpasses.valid.fillCount_add_availableSpace
  have hlength := h.length_contents
  have hlength' := hpasses.valid.length_contents
  cases request with
  | write data =>
    rw [fetchedBy_eq_nil hunheard, List.length_append, List.nil_append] at hlengths
    unfold Serves availableSpace at hnot hserves
    unfold BlockingRing.capacity at hcapacity
    omega
  | read out =>
    rw [storedBy_eq_nil hunheard, List.append_nil, List.length_append] at hlengths
    unfold Serves fillCount at hnot hserves
    omega

/-- A party that becomes armed is woken. -/
theorem Passes.wakeAll_mem_of_armed (hpasses : Passes b ns b') {side : Side}
    (hunarmed : b.armed side = none) (harmed : b'.armed side ≠ none) :
    .wakeAll ∈ ns.map Notice.signal := by
  by_contra hunheard
  rw [hpasses.armed side, errorsFor_eq_nil side hunheard, hunarmed] at harmed
  exact harmed rfl

end Unheard

/-! ## The waits of a transfer -/

/-- One wait of a transfer: the ring when it looked and had to wait, the signals that others sent
while it waited, and the ring when it looked again. -/
structure Wait (α : Type u) where
  found : BlockingRing α
  heard : List Signal
  next : BlockingRing α

namespace Transfer

/-- The waits of a transfer in whose waits these groups of calls run, in order. In a wait for which
no group is left all that happens is that its party is armed. -/
def waitsOf (request : Transfer α) : List (List (Call α)) → BlockingRing α → List (Wait α)
  | [], b =>
    match request.attempt b with
    | .blocked =>
      [⟨b, [.wakeAll], b.setError request.side (.cancelled request.side stallReason)⟩]
    | _ => []
  | group :: waits, b =>
    match request.attempt b with
    | .blocked =>
      ⟨b, signalsOf (runAll group b).1, (runAll group b).2⟩ ::
        request.waitsOf waits (runAll group b).2
    | _ => []

/-- The ring when a transfer looked last. -/
def lastLook (request : Transfer α) (waits : List (List (Call α))) (b : BlockingRing α) :
    BlockingRing α :=
  (request.waitsOf waits b).getLast?.elim b Wait.next

/-- What a transfer tells when it ends: that it was made, if it was. -/
def ending (request : Transfer α) : Outcome → List Signal
  | .ok () => [.transferred request.side]
  | .error _ => []

/-- What a transfer sends that waited `n` times where `groups` groups of calls were to run: that
its party is armed, if it waited once more. -/
def cancellation (groups n : Nat) : List Signal := if groups < n then [.wakeAll] else []

/-- A transfer is answered when it looks last. -/
inductive Answered (request : Transfer α) (b : BlockingRing α) : Outcome → Prop where
  | done {result : List α × BlockingRing α} (h : request.attempt b = .done result) :
      Answered request b (.ok ())
  | failed {e : FifoError} (h : request.attempt b = .failed e) : Answered request b (.error e)

/-- How a wait comes about and how it ends. -/
structure WaitsDuly (request : Transfer α) (w : Wait α) : Prop where
  /-- The request fits into the ring. -/
  fits : request.count ≤ w.found.capacity
  /-- It cannot be served. -/
  unserved : ¬ w.found.Serves request
  /-- Its party is not armed. -/
  unarmed : w.found.armed request.side = none
  /-- If it can be served at the next look, the other party told of a transfer. -/
  served : w.next.Serves request → .transferred request.side.other ∈ w.heard
  /-- If its party is armed at the next look, everyone was woken. -/
  armed : w.next.armed request.side ≠ none → .wakeAll ∈ w.heard

/-- How a transfer tells of itself and when it waits, if these groups of calls run in its waits. -/
structure Tells (request : Transfer α) (waits : List (List (Call α))) (b : BlockingRing α) :
    Prop where
  /-- Of its own it sends one signal for each wait, and in the end one if it succeeds. -/
  signals : (transfer request waits b).signals =
    List.replicate (request.waitsOf waits b).length (.waiting request.side) ++
      cancellation waits.length (request.waitsOf waits b).length ++
      request.ending (transfer request waits b).outcome
  /-- With those of the calls in its waits, each of these follows the wait it is sent in. -/
  all : (transfer request waits b).allSignals =
    ((request.waitsOf waits b).flatMap fun w => .waiting request.side :: w.heard) ++
      request.ending (transfer request waits b).outcome
  /-- It waits at most once more than there are groups. -/
  returns : (request.waitsOf waits b).length ≤ waits.length + 1
  /-- It looks first when it is called. -/
  first : ∀ w ∈ (request.waitsOf waits b).head?, w.found = b
  /-- Each wait goes on from the look with which the one before it ends. -/
  chain : (request.waitsOf waits b).IsChain fun w w' => w'.found = w.next
  /-- The last look answers it. -/
  answered : request.Answered (request.lastLook waits b) (transfer request waits b).outcome
  duly : ∀ w ∈ request.waitsOf waits b, request.WaitsDuly w

end Transfer

/-! ### Transfers tell of themselves -/

section Transfers

variable {b : BlockingRing α} {request : Transfer α}

theorem waitsOf_of_not_blocked (h : request.attempt b ≠ .blocked) (waits : List (List (Call α))) :
    request.waitsOf waits b = [] := by
  cases hattempt : request.attempt b with
  | done result => cases waits <;> rw [Transfer.waitsOf, hattempt]
  | failed e => cases waits <;> rw [Transfer.waitsOf, hattempt]
  | blocked => exact absurd hattempt h

theorem waitsOf_nil_of_blocked (h : request.attempt b = .blocked) :
    request.waitsOf [] b =
      [⟨b, [.wakeAll], b.setError request.side (.cancelled request.side stallReason)⟩] := by
  rw [Transfer.waitsOf, h]

theorem waitsOf_cons_of_blocked (h : request.attempt b = .blocked) (group : List (Call α))
    (waits : List (List (Call α))) :
    request.waitsOf (group :: waits) b =
      ⟨b, signalsOf (runAll group b).1, (runAll group b).2⟩ ::
        request.waitsOf waits (runAll group b).2 := by
  rw [Transfer.waitsOf, h]

theorem lastLook_of_not_blocked (h : request.attempt b ≠ .blocked)
    (waits : List (List (Call α))) : request.lastLook waits b = b := by
  rw [Transfer.lastLook, waitsOf_of_not_blocked h]
  rfl

theorem lastLook_cons_of_blocked (h : request.attempt b = .blocked) (group : List (Call α))
    (waits : List (List (Call α))) :
    request.lastLook (group :: waits) b = request.lastLook waits (runAll group b).2 := by
  rw [Transfer.lastLook, waitsOf_cons_of_blocked h, Transfer.lastLook]
  cases request.waitsOf waits (runAll group b).2 with
  | nil => rfl
  | cons w ws => rw [List.getLast?_cons_cons]; rfl

theorem first_found (waits : List (List (Call α))) :
    ∀ w ∈ (request.waitsOf waits b).head?, w.found = b := by
  intro w hw
  by_cases hblocked : request.attempt b = .blocked
  · cases waits with
    | nil =>
      rw [waitsOf_nil_of_blocked hblocked] at hw
      cases hw
      rfl
    | cons group waits =>
      rw [waitsOf_cons_of_blocked hblocked] at hw
      cases hw
      rfl
  · rw [waitsOf_of_not_blocked hblocked] at hw
    cases hw

/-- A transfer that is answered when it looks first sends nothing but its ending. -/
theorem tells_of_answered {step : Step α} {waits : List (List (Call α))}
    (hmoves : request.attempt b ≠ .blocked) (hstep : transfer request waits b = step)
    (hsignals : step.signals = request.ending step.outcome) (hduring : step.during = [])
    (hanswered : request.Answered b step.outcome) : request.Tells waits b := by
  have hwaits := waitsOf_of_not_blocked hmoves waits
  have hall : step.allSignals = step.signals := by
    cases step
    cases hduring
    rw [Step.allSignals, signalsAround]
  refine ⟨?_, ?_, ?_, first_found waits, ?_, ?_, ?_⟩
  · rw [hstep, hwaits, hsignals]
    rfl
  · rw [hstep, hwaits, hall, hsignals]
    rfl
  · rw [hwaits]
    exact Nat.zero_le _
  · rw [hwaits]
    exact .nil
  · rw [hstep, lastLook_of_not_blocked hmoves]
    exact hanswered
  · rw [hwaits]
    exact fun w hw => absurd hw List.not_mem_nil

theorem tells_of_not_blocked (h : request.attempt b ≠ .blocked) (waits : List (List (Call α))) :
    request.Tells waits b := by
  cases hattempt : request.attempt b with
  | done result =>
    have hstep : transfer request waits b = .served request.side result.1 result.2 := by
      cases waits <;> rw [transfer, hattempt]
    exact tells_of_answered h hstep rfl rfl (.done hattempt)
  | failed e =>
    have hstep : transfer request waits b = .refused e request.buffer b := by
      cases waits <;> rw [transfer, hattempt]
    exact tells_of_answered h hstep rfl rfl (.failed hattempt)
  | blocked => exact absurd hattempt h

/-- A transfer waits only where it fits, cannot be served and its party is not armed, so that what
it finds when it looks again was told while it waited. -/
theorem waitsDuly_of_passes {b' : BlockingRing α} {ns : List (Notice α)} {heard : List Signal}
    (h : b.ring.Valid) (hblocked : request.attempt b = .blocked) (hpasses : Passes b ns b')
    (hheard : ns.map Notice.signal = heard) : request.WaitsDuly ⟨b, heard, b'⟩ := by
  obtain ⟨hfits, hnot, hunarmed⟩ := attempt_eq_blocked h hblocked
  exact
    { fits := hfits
      unserved := hnot
      unarmed := hunarmed
      served := fun hserves => hheard ▸ hpasses.transferred_mem_of_serves h hnot hserves
      armed := fun harmed => hheard ▸ hpasses.wakeAll_mem_of_armed hunarmed harmed }

/-- A transfer that waits with nothing left to happen finds its party armed when it looks again. -/
theorem attempt_of_stalled (h : b.ring.Valid) (hblocked : request.attempt b = .blocked) :
    request.attempt (b.setError request.side (.cancelled request.side stallReason)) =
      .failed (FifoError.cancelled request.side stallReason).duplicate := by
  obtain ⟨hfits, hnot, -⟩ := attempt_eq_blocked h hblocked
  rw [attempt_of_not_serves _ (mt (serves_setError _ _ _).1 hnot)]
  · refine holdUp_of_armed ?_
    cases request <;> rfl
  · cases request <;> exact hfits

theorem tells_of_stalled (h : b.ring.Valid) (hblocked : request.attempt b = .blocked) :
    request.Tells [] b := by
  have hwaits := waitsOf_nil_of_blocked hblocked
  have hstep : transfer request [] b = .stalled request.side request.buffer b := by
    rw [transfer, hblocked]
  refine ⟨?_, ?_, ?_, first_found [], ?_, ?_, ?_⟩
  · rw [hstep, hwaits]
    rfl
  · rw [hstep, hwaits]
    rfl
  · rw [hwaits]
    exact le_rfl
  · rw [hwaits]
    exact .singleton _
  · rw [hstep, Transfer.lastLook, hwaits]
    exact .failed (attempt_of_stalled h hblocked)
  · rw [hwaits]
    intro w hw
    obtain rfl := List.mem_singleton.1 hw
    exact waitsDuly_of_passes h hblocked (.arms h request.side _) rfl

/-- One more wait before a transfer that tells of itself. -/
theorem Transfer.Tells.afterWait (h : b.ring.Valid) (hblocked : request.attempt b = .blocked)
    {group : List (Call α)} {waits : List (List (Call α))}
    (rest : request.Tells waits (runAll group b).2) : request.Tells (group :: waits) b := by
  have hwaits := waitsOf_cons_of_blocked hblocked group waits
  have hstep := transfer_cons_of_blocked hblocked group waits
  refine ⟨?_, ?_, ?_, first_found _, ?_, ?_, ?_⟩
  · rw [hstep, hwaits]
    show _ :: (transfer request waits (runAll group b).2).signals = _
    rw [rest.signals, List.length_cons, List.replicate_succ]
    simp only [Transfer.cancellation, List.length_cons, Nat.add_lt_add_iff_right]
    rfl
  · rw [hstep, hwaits, allSignals_afterWait, rest.all, List.flatMap_cons]
    simp only [List.cons_append, List.append_assoc]
    rfl
  · rw [hwaits]
    exact Nat.succ_le_succ rest.returns
  · rw [hwaits]
    exact rest.chain.cons rest.first
  · rw [hstep, lastLook_cons_of_blocked hblocked]
    exact rest.answered
  · rw [hwaits]
    intro w hw
    rcases List.mem_cons.1 hw with rfl | hw
    · exact waitsDuly_of_passes h hblocked (passes_run.2.2 group b h)
        (map_signal_notices.2.2 group b)
    · exact rest.duly w hw

/-- By induction over the groups that run in its waits: every transfer tells of itself. -/
theorem tells_transfer :
    ∀ (waits : List (List (Call α))) {b : BlockingRing α}, b.ring.Valid →
      request.Tells waits b := by
  intro waits
  induction waits with
  | nil =>
    intro b h
    by_cases hblocked : request.attempt b = .blocked
    · exact tells_of_stalled h hblocked
    · exact tells_of_not_blocked hblocked []
  | cons group waits ih =>
    intro b h
    by_cases hblocked : request.attempt b = .blocked
    · exact (ih (passes_run.2.2 group b h).valid).afterWait h hblocked
    · exact tells_of_not_blocked hblocked (group :: waits)

end Transfers

/-- A new blocking ring, and any script of calls on it, in whose waits any other calls run. Every
call is made at a moment. At every moment a call that arms a party sends one signal to wake
everyone, and every transfer, whatever calls run in its waits, tells of itself: it waits only where
it cannot be served and its party is not armed, at most once more than there are groups for its
waits, and then it is answered; its own signals are one for each wait, and one more if it succeeds;
and none of its waits ends unheard. -/
theorem tells_of_make [Memory] {capacity : Nat} {fill : α} {b₀ : BlockingRing α}
    (hmake : make capacity fill = .ok b₀) :
    (∀ calls, eachAll (Moment b₀) calls [] b₀) ∧
      ∀ past b, Moment b₀ past b →
        (∀ side error, ((Call.setError side error).run b).signals = [.wakeAll]) ∧
          ∀ (request : Transfer α) (waits : List (List (Call α))), request.Tells waits b := by
  refine ⟨fun calls => (each_moment b₀).2.2 calls [] b₀ .start, ?_⟩
  intro past b hmoment
  refine ⟨fun side error => rfl, fun request waits => tells_transfer waits ?_⟩
  obtain ⟨r, hr, rfl⟩ := make_eq_ok hmake
  exact (hmoment.passes (.of_make hr)).valid

/-- On an empty ring for two elements a read of two waits through an idle wake-up, and then through
a write that it hears of. With nothing to happen in its waits it waits once, and with a write of
one element it waits twice; then it is cancelled. -/
theorem tells_of_make_two :
    let b₀ : BlockingRing Nat := ⟨⟨#[0, 0, 0], 0, 0⟩, none, none⟩
    let read : Transfer Nat := .read [0, 0]
    let waits : List (List (Call Nat)) := [[], [.transfer (.write [1, 2]) []]]
    let short : List (List (Call Nat)) := [[.transfer (.write [1]) []]]
    make 2 0 = .ok b₀ ∧
      read.Tells waits b₀ ∧ (transfer read waits b₀).outcome = .ok () ∧
      (transfer read waits b₀).signals = [.waitForIncrease, .waitForIncrease, .decrement] ∧
      (read.waitsOf waits b₀).map Wait.heard = [[], [.increment]] ∧
      read.Tells [] b₀ ∧ (transfer read [] b₀).signals = [.waitForIncrease, .wakeAll] ∧
      read.Tells short b₀ ∧
      (transfer read short b₀).allSignals =
        [.waitForIncrease, .increment, .waitForIncrease, .wakeAll] := by
  intro b₀ read waits short
  have hmake : make 2 0 = .ok b₀ := rfl
  have htells := ((tells_of_make hmake).2 [] b₀ .start).2 read
  refine ⟨hmake, htells waits, ?_, ?_, ?_, htells [], ?_, htells short, ?_⟩
  · simp only [read, waits, b₀]
    rfl
  · simp only [read, waits, b₀]
    rfl
  · simp only [read, waits, b₀]
    rfl
  · simp only [read, b₀]
    rfl
  · simp only [read, short, b₀]
    rfl

end BlockFlow.BlockingRing
