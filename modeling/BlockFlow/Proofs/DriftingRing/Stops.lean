import BlockFlow.Proofs.DriftingRing.Stream
import BlockFlow.Proofs.DriftingRing.Parties

/-!
# Stops in a write and a read

A write followed by a read stops a drifting ring at most once, since the ring does not start again
before both parties have called. If the ring runs before the two calls, it stops in them exactly if
it is stopped after them. If it is stopped before, it may start and stop again in the same two calls
(`Sound.stopsIn_block`), but only where a single xrun is one too many
(`Sound.stopsIn_block_of_stopped`).
-/

set_option autoImplicit false

namespace BlockFlow.DriftingRing

universe u

variable {α : Type u}

/-- How often a ring goes from running to stopped in some calls. -/
def stopsIn : List (Call α) → DriftingRing α → Nat
  | [], _ => 0
  | c :: cs, d =>
    (if (c.entered d).isRunning && !(c.run d).after.isRunning then 1 else 0) +
      stopsIn cs (c.run d).after

theorem stopsIn_append (cs cs' : List (Call α)) (d : DriftingRing α) :
    stopsIn (cs ++ cs') d = stopsIn cs d + stopsIn cs' (after cs d) := by
  induction cs generalizing d with
  | nil => exact (Nat.zero_add _).symm
  | cons c cs ih =>
    rw [List.cons_append, stopsIn, stopsIn, ih, Nat.add_assoc]
    rfl

section

variable {config : DriftConfig} {null : α} {d : DriftingRing α} {c : Call α} {side : Side}

/-- Whether a ring runs after a call in which it ran. -/
theorem Sound.isRunning_run_eq (hd : Sound config null d) (hc : c.party? = some side)
    (hruns : (c.entered d).isRunning = true) :
    (c.run d).after.isRunning = !c.stopsShort d side := by
  have hiff := hd.isRunning_run hruns
  rw [hd.driftStopped_mem_log hc] at hiff
  cases hstops : c.stopsShort d side with
  | true => exact hiff.2 hstops
  | false =>
    cases hafter : (c.run d).after.isRunning with
    | true => rfl
    | false => exact absurd (hiff.1 hafter) (by simp [hstops])

/-- A call that stops the ring leaves no party started. -/
theorem Sound.not_started_of_stopsShort (hd : Sound config null d) (hc : c.party? = some side)
    (hstops : c.stopsShort d side = true) (s : Side) :
    ((c.run d).after.party s).started = false := by
  rw [(hd.counters_run hc s).1, hstops, Bool.not_true, Bool.and_false]

/-- No call changes a limit but the one that sets it. -/
theorem Sound.limit_run (hd : Sound config null d) (hc : c.party? = some side) (s : Side) :
    ((c.run d).after.party s).limit = (d.party s).limit := by
  rw [(hd.counters_run hc s).2.1, Call.entered_of_party? hc, limit_enter]

/-- The call that starts the ring starts both counts anew. -/
theorem inSuccession_of_opens (hc : c.party? = some side) (hstopped : d.isRunning = false)
    (hruns : (c.entered d).isRunning = true) (s : Side) :
    ((c.entered d).party s).inSuccession = 0 := by
  rw [Call.entered_of_party? hc] at hruns ⊢
  rw [party_enter, not_started_of_opens hstopped hruns]
  rfl

/-- A ring that neither party has started is not running once one of them has entered. -/
theorem isRunning_enter_of_not_started (hnone : ∀ s, (d.party s).started = false) (side : Side) :
    (d.enter side).1.isRunning = false := by
  cases hruns : (d.enter side).1.isRunning with
  | false => rfl
  | true =>
    have hother := isRunning_iff.1 hruns side.other
    rw [started_enter, hnone] at hother
    cases side <;> cases hother

/-! ## The first xrun -/

/-- A party has had no xrun in succession since the ring was started, if it was. -/
def Fresh (d : DriftingRing α) (s : Side) : Prop :=
  d.isRunning = false ∨ (d.party s).inSuccession = 0

theorem Fresh.entered {s : Side} (hfresh : d.Fresh s) (hc : c.party? = some side)
    (hruns : (c.entered d).isRunning = true) : ((c.entered d).party s).inSuccession = 0 := by
  cases hbefore : d.isRunning with
  | false => exact inSuccession_of_opens hc hbefore hruns s
  | true =>
    rw [entered_of_isRunning hbefore]
    exact hfresh.resolve_left (by simp [hbefore])

/-- The call of one party changes nothing of this for the other one. -/
theorem Sound.fresh_run (hd : Sound config null d) (hc : c.party? = some side) {s : Side}
    (hother : s ≠ side) (hfresh : d.Fresh s) : (c.run d).after.Fresh s := by
  cases hafter : (c.run d).after.isRunning with
  | false => exact .inl hafter
  | true =>
    refine .inr ?_
    have hentered := hfresh.entered hc (isRunning_entered_of_after hafter)
    rw [(hd.counters_run hc s).2.2.2.2]
    simp only [Call.isFull, Call.isXrun, decide_eq_false hother, Bool.and_false, Bool.false_and,
      Bool.false_eq_true, if_false]
    exact hentered

/-- A first xrun stops the ring only if the party may have none. -/
theorem Fresh.stopsShort_eq_false (hfresh : d.Fresh side) (hc : c.party? = some side)
    (hlimit : 0 < (d.party side).limit) : c.stopsShort d side = false := by
  cases hruns : (c.entered d).isRunning with
  | false => rw [Call.stopsShort, hruns, Bool.false_and]
  | true =>
    have hlt : ¬ (d.party side).limit < 0 + 1 := by
      rw [UInt32.lt_iff_toNat_lt] at hlimit ⊢
      exact Nat.not_lt.2 hlimit
    rw [Call.stopsShort, stopsCounting, Party.overLimit_xrun, hfresh.entered hc hruns,
      Call.entered_of_party? hc, limit_enter, decide_eq_false hlt, Bool.and_false, Bool.and_false]

theorem Sound.stopsIn_cons_of_goes (hd : Sound config null d) (hc : c.party? = some side)
    (hgoes : c.stopsShort d side = false) (cs : List (Call α)) :
    stopsIn (c :: cs) d = stopsIn cs (c.run d).after := by
  rw [stopsIn]
  cases hruns : (c.entered d).isRunning with
  | false => simp
  | true => simp [hd.isRunning_run_eq hc hruns, hgoes]

end

/-! ## A write and a read -/

/-- A write and the read that follows it. -/
def block (data : List α) (n : Nat) : List (Call α) := [.write data, .read n]

section Block

variable {config : DriftConfig} {null : α} {d : DriftingRing α} (data : List α) (n : Nat)

/-- After a write that stops the ring the reader enters alone. -/
theorem Sound.isRunning_read_of_stopsShort (hd : Sound config null d)
    (hstops : (Call.write data).stopsShort d .writer = true) :
    ((Call.read n).entered ((Call.write data).run d).after).isRunning = false ∧
      (DriftingRing.after (block data n) d).isRunning = false := by
  have hread : ((Call.read n).entered ((Call.write data).run d).after).isRunning = false :=
    isRunning_enter_of_not_started (hd.not_started_of_stopsShort rfl hstops) .reader
  refine ⟨hread, ?_⟩
  show ((Call.read n).run ((Call.write data).run d).after).after.isRunning = false
  rw [(run_of_stopped rfl hread).1]
  exact hread

/-- A write and a read stop a ring at most once. -/
theorem Sound.stopsIn_block_le_one (hd : Sound config null d) : stopsIn (block data n) d ≤ 1 := by
  cases hstops : (Call.write data).stopsShort d .writer with
  | true =>
    simp only [block, stopsIn, (hd.isRunning_read_of_stopsShort data n hstops).1, Bool.false_and,
      Bool.false_eq_true, if_false]
    split <;> simp
  | false =>
    rw [block, hd.stopsIn_cons_of_goes rfl hstops, stopsIn, stopsIn]
    split <;> simp

/-- A write and a read on a running ring stop it once if it does not run afterwards, and never if it
does. -/
theorem Sound.stopsIn_block_of_running (hd : Sound config null d) (hruns : d.isRunning = true) :
    stopsIn (block data n) d =
      if (DriftingRing.after (block data n) d).isRunning then 0 else 1 := by
  have hentered : (Call.write data).entered d = d := entered_of_isRunning hruns _
  have hwrite := hd.isRunning_run_eq (c := .write data) rfl (hentered.symm ▸ hruns)
  cases hstops : (Call.write data).stopsShort d .writer with
  | true =>
    obtain ⟨hread, hafter⟩ := hd.isRunning_read_of_stopsShort data n hstops
    rw [hstops] at hwrite
    rw [hafter]
    simp [block, stopsIn, hentered, hruns, hwrite, hread]
  | false =>
    rw [hstops] at hwrite
    have hread : (Call.read n).entered ((Call.write data).run d).after =
        ((Call.write data).run d).after := entered_of_isRunning hwrite _
    rw [block, hd.stopsIn_cons_of_goes rfl hstops, stopsIn, hread, hwrite]
    show _ = if ((Call.read n).run ((Call.write data).run d).after).after.isRunning then 0 else 1
    cases ((Call.read n).run ((Call.write data).run d).after).after.isRunning <;> rfl

/-- A write and a read on a stopped ring do not stop it again where either party may have an
xrun. -/
theorem Sound.stopsIn_block_of_stopped (hd : Sound config null d) (hstopped : d.isRunning = false)
    (hlimits : ∀ s, 0 < (d.party s).limit) : stopsIn (block data n) d = 0 := by
  have hfresh : ∀ s, d.Fresh s := fun s => .inl hstopped
  have hwrite : (Call.write data).stopsShort d .writer = false :=
    (hfresh .writer).stopsShort_eq_false rfl (hlimits .writer)
  have hread : (Call.read n).stopsShort ((Call.write data).run d).after .reader = false := by
    have hparty : (Call.write data).party? = some .writer := rfl
    apply (hd.fresh_run hparty (by decide) (hfresh .reader)).stopsShort_eq_false rfl
    rw [hd.limit_run hparty]
    exact hlimits .reader
  rw [block, hd.stopsIn_cons_of_goes rfl hwrite, (hd.run _).stopsIn_cons_of_goes rfl hread, stopsIn]

/-- Whether a ring that is stopped before some calls stops in them once more. -/
def hidesStop (calls : List (Call α)) (d : DriftingRing α) : Bool :=
  !d.isRunning && decide (0 < stopsIn calls d)

/-- The stops in a write and a read: the one that shows in the ring before and after, and the one
that does not. -/
theorem Sound.stopsIn_block (hd : Sound config null d) :
    stopsIn (block data n) d =
      (if d.isRunning && !(DriftingRing.after (block data n) d).isRunning then 1 else 0) +
        if hidesStop (block data n) d then 1 else 0 := by
  unfold hidesStop
  cases hruns : d.isRunning with
  | true =>
    rw [hd.stopsIn_block_of_running data n hruns]
    cases (DriftingRing.after (block data n) d).isRunning <;> rfl
  | false =>
    have hle := hd.stopsIn_block_le_one data n
    by_cases hpos : 0 < stopsIn (block data n) d
    · simp [hpos]
      omega
    · simp [hpos]
      omega

/-- A write and a read change no limit. -/
theorem Sound.limit_block (hd : Sound config null d) (s : Side) :
    ((DriftingRing.after (block data n) d).party s).limit = (d.party s).limit := by
  have hwrite : (Call.write data).party? = some .writer := rfl
  have hread : (Call.read n : Call α).party? = some .reader := rfl
  show (((Call.read n).run ((Call.write data).run d).after).after.party s).limit = _
  rw [(hd.run _).limit_run hread, hd.limit_run hwrite]

end Block

/-! ## One write and one read after the other

A pair says what is written and how many elements are then read. -/

/-- The calls of some writes and reads. -/
def inTurn (blocks : List (List α × Nat)) : List (Call α) := blocks.flatMap fun b => block b.1 b.2

/-- The ring after each read. -/
def afterEach : List (List α × Nat) → DriftingRing α → List (DriftingRing α)
  | [], _ => []
  | b :: rest, d => after (block b.1 b.2) d :: afterEach rest (after (block b.1 b.2) d)

/-- How often a ring that is stopped before a write stops once more before the next one. -/
def hiddenStops : List (List α × Nat) → DriftingRing α → Nat
  | [], _ => 0
  | b :: rest, d =>
    (if hidesStop (block b.1 b.2) d then 1 else 0) + hiddenStops rest (after (block b.1 b.2) d)

theorem length_afterEach (blocks : List (List α × Nat)) (d : DriftingRing α) :
    (afterEach blocks d).length = blocks.length := by
  induction blocks generalizing d with
  | nil => rfl
  | cons b rest ih => exact congrArg (· + 1) (ih _)

/-- No stop is hidden where either party may have an xrun. -/
theorem Sound.hiddenStops_eq_zero {config : DriftConfig} {null : α} {d : DriftingRing α}
    (hd : Sound config null d) (hlimits : ∀ s, 0 < (d.party s).limit)
    (blocks : List (List α × Nat)) : hiddenStops blocks d = 0 := by
  induction blocks generalizing d with
  | nil => rfl
  | cons b rest ih =>
    have hshown : hidesStop (block b.1 b.2) d = false := by
      cases hruns : d.isRunning with
      | true => rw [hidesStop, hruns, Bool.not_true, Bool.false_and]
      | false =>
        rw [hidesStop, hd.stopsIn_block_of_stopped b.1 b.2 hruns hlimits, decide_eq_false
          (Nat.lt_irrefl 0), Bool.and_false]
    have hrest := ih (hd.after (block b.1 b.2)) fun s => by
      rw [hd.limit_block]
      exact hlimits s
    rw [hiddenStops, hrest, hshown]
    rfl

end BlockFlow.DriftingRing
