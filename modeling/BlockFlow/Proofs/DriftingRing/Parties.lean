import BlockFlow.Proofs.DriftingRing.Transfer

/-!
# What one call does to the parties

A call on a drifting ring lets its party enter, makes its transfer if the ring runs, and keeps
count of it. The two parties are touched by entering and by keeping count only, and the log says no
more than that (`Sound.write_eq`, `Sound.read_eq`). From this follows what one call makes of the
flags and the counters of either party (`Sound.counters_run`) and when the ring stops in it
(`Sound.driftStopped_mem_log`).
-/

set_option autoImplicit false

namespace BlockFlow

universe u

variable {α : Type u}

/-- Xruns in succession that a party may have, as the settings say. -/
def DriftConfig.xrunLimit (c : DriftConfig) : Side → UInt32
  | .writer => c.maxWriterXruns
  | .reader => c.maxReaderXruns

/-- The party after a transfer, short or in full. -/
def Party.counted (p : Party) (short : Bool) : Party := if short then p.xrun else p.fullTransfer

@[simp] theorem Party.started_counted (p : Party) (short : Bool) :
    (p.counted short).started = p.started := by
  cases short <;> rfl

@[simp] theorem Party.limit_counted (p : Party) (short : Bool) :
    (p.counted short).limit = p.limit := by
  cases short <;> rfl

theorem Party.overLimit_xrun (p : Party) :
    p.xrun.overLimit = decide (p.limit < p.inSuccession + 1) := rfl

namespace DriftingRing

/-! ## Either party -/

section Either

variable (d : DriftingRing α) (side s : Side)

/-- A new ring gives each party the limit of the settings. -/
theorem limit_ofRing (config : DriftConfig) (null : α) (ring : Ring α) (s : Side) :
    ((ofRing config null ring).party s).limit = config.xrunLimit s := by
  cases s <;> rfl

theorem party_updateParty (f : Party → Party) :
    (d.updateParty side f).party s = if s = side then f (d.party s) else d.party s := by
  cases side <;> cases s <;> rfl

theorem party_stop : d.stop.party s = { d.party s with started := false } := by
  cases s <;> rfl

theorem party_starting : d.starting.party s = (d.party s).resetCounts := by
  cases s <;> rfl

variable {d}

theorem isRunning_iff : d.isRunning = true ↔ ∀ s, (d.party s).started = true := by
  rw [isRunning, Bool.and_eq_true]
  constructor
  · rintro ⟨hwriter, hreader⟩ (_ | _)
    · exact hreader
    · exact hwriter
  · exact fun h => ⟨h .writer, h .reader⟩

/-- The parties decide whether a ring runs. -/
theorem isRunning_congr {d' : DriftingRing α}
    (h : ∀ s, (d'.party s).started = (d.party s).started) : d'.isRunning = d.isRunning := by
  have hw : d'.writer.started = d.writer.started := h .writer
  have hr : d'.reader.started = d.reader.started := h .reader
  rw [isRunning, isRunning, hw, hr]

end Either

/-! ## Entering -/

/-- The first call of a party since the last stop starts both parties' counts anew. -/
theorem party_enter (d : DriftingRing α) (side s : Side) :
    (d.enter side).1.party s =
      if (d.party side).started then d.party s
      else
        { (d.party s).resetCounts with started := decide (s = side) || (d.party s).started } := by
  unfold enter
  split
  · rfl
  · show (d.starting.updateParty side fun p => { p with started := true }).party s = _
    rw [party_updateParty, party_starting]
    by_cases hs : s = side
    · rw [if_pos hs, decide_eq_true hs, Bool.true_or]
    · rw [if_neg hs, decide_eq_false hs, Bool.false_or]
      rfl

/-- A party that has entered has started. The other one is as it was. -/
theorem started_enter (d : DriftingRing α) (side s : Side) :
    ((d.enter side).1.party s).started = (decide (s = side) || (d.party s).started) := by
  rw [party_enter]
  split
  · next hstarted =>
    by_cases hs : s = side
    · rw [hs, hstarted, Bool.or_true]
    · rw [decide_eq_false hs, Bool.false_or]
  · rfl

@[simp] theorem limit_enter (d : DriftingRing α) (side s : Side) :
    ((d.enter side).1.party s).limit = (d.party s).limit := by
  rw [party_enter]
  split <;> rfl

/-- Entering is logged as a start or not at all. -/
theorem eq_driftStarting_of_mem_log_enter {d : DriftingRing α} {side : Side} {event : LogEvent}
    (h : event ∈ (d.enter side).2) : event = .driftStarting d.desiredFillCount := by
  unfold enter at h
  split at h
  · cases h
  · exact List.mem_singleton.1 h

/-! ## Keeping count -/

/-- Whether the ring stops when it keeps count of a transfer. -/
def stopsCounting (d : DriftingRing α) (side : Side) (short : Bool) : Bool :=
  short && (d.party side).xrun.overLimit

theorem party_account (d : DriftingRing α) (side : Side) (short : Bool) (s : Side) :
    (d.account side short).1.party s =
      { if s = side then (d.party s).counted short else d.party s with
        started := (d.party s).started && !d.stopsCounting side short } := by
  have hcounted : ∀ short, (if s = side then (d.party s).counted short else d.party s).started =
      (d.party s).started := fun short => by
    split
    · exact Party.started_counted ..
    · rfl
  unfold account stopsCounting
  cases short with
  | false =>
    simp only [Bool.false_eq_true, if_false, Bool.false_and, Bool.not_false, Bool.and_true]
    rw [party_updateParty, ← hcounted false]
    rfl
  | true =>
    have hxrun : ∀ s, (d.updateParty side Party.xrun).party s =
        if s = side then (d.party s).counted true else d.party s :=
      fun s => party_updateParty d side s Party.xrun
    have hown : (d.updateParty side Party.xrun).party side = (d.party side).xrun := by
      rw [hxrun, if_pos rfl]
      rfl
    simp only [if_true, Bool.true_and, hown]
    split
    · next hover =>
      rw [party_stop, hxrun, hover, Bool.not_true, Bool.and_false]
    · next hover =>
      rw [hxrun, Bool.eq_false_iff.2 hover, Bool.not_false, Bool.and_true, ← hcounted true]

theorem driftStopped_mem_log_account (d : DriftingRing α) (side : Side) (short : Bool) :
    LogEvent.driftStopped ∈ (d.account side short).2 ↔ d.stopsCounting side short = true := by
  unfold account stopsCounting
  cases short with
  | false => simp
  | true =>
    have hown : (d.updateParty side Party.xrun).party side = (d.party side).xrun := by
      rw [party_updateParty, if_pos rfl]
    simp only [if_true, Bool.true_and, hown]
    split
    · next hover => simp [hover]
    · next hover => simp [Bool.eq_false_iff.2 hover]

/-- Keeping count never reports a transfer that did not fit. -/
theorem driftOutOfStep_notMem_log_account (d : DriftingRing α) (side : Side) (short : Bool)
    (of : Side) (e : FifoError) : LogEvent.driftOutOfStep of e ∉ (d.account side short).2 := by
  unfold account
  cases short with
  | false => simp
  | true =>
    simp only [if_true]
    split <;> simp

/-! ## Whole calls -/

section Calls

variable {config : DriftConfig} {null : α} {d : DriftingRing α}

/-- The ring once it has taken what fits of a block. -/
def afterStoring (d : DriftingRing α) (data : List α) : DriftingRing α :=
  { d with ring := d.ring.append (data.take (min d.availableSpace data.length)) }

/-- The ring once it has handed over the next `n` elements. -/
def afterDelivery (d : DriftingRing α) (n : Nat) : DriftingRing α :=
  { d.afterSilence n with ring := d.ring.discard (n - min d.startupZeros n) }

@[simp] theorem party_afterStoring (d : DriftingRing α) (data : List α) (s : Side) :
    (d.afterStoring data).party s = d.party s := by
  cases s <;> rfl

@[simp] theorem party_afterDelivery (d : DriftingRing α) (n : Nat) (s : Side) :
    (d.afterDelivery n).party s = d.party s := by
  cases s <;> rfl

/-- A write on a running ring stores what fits and keeps count of it. -/
theorem Sound.write_eq (hd : Sound config null d) (hruns : (d.enter .writer).1.isRunning = true)
    (data : List α) :
    d.write data =
      let e := (d.enter .writer).1
      let counted := (e.afterStoring data).account .writer
        (decide (min e.availableSpace data.length < data.length))
      (counted.1, (d.enter .writer).2 ++ counted.2) := by
  have hsound := hd.enter .writer
  have hfits : (data.take (min (d.enter .writer).1.availableSpace data.length)).length ≤
      (d.enter .writer).1.availableSpace := by
    simp
  simp only [DriftingRing.write, hruns, if_true, hsound.store_eq hfits, List.append_nil]
  rfl

/-- A read of a running ring takes what there is to deliver and keeps count of it. -/
theorem Sound.read_eq (hd : Sound config null d) (hruns : (d.enter .reader).1.isRunning = true)
    (n : Nat) :
    (d.read n).2 =
      let e := (d.enter .reader).1
      let counted := (e.afterDelivery (e.delivery n)).account .reader (decide (e.delivery n < n))
      (counted.1, (d.enter .reader).2 ++ counted.2) := by
  have hfetch := (hd.enter .reader).fetch_eq ((d.enter .reader).1.delivery_le n)
  simp only [delivery, afterSilence] at hfetch
  simp only [DriftingRing.read, hruns, if_true, share, hfetch, List.append_nil]
  rfl

/-- The party that makes a call. -/
def Call.party? : Call α → Option Side
  | .write _ => some .writer
  | .read _ => some .reader
  | .stop => none
  | .setLimit _ _ => none

/-- How many elements a call asks to transfer. -/
def Call.asked : Call α → Nat
  | .write data => data.length
  | .read n => n
  | .stop => 0
  | .setLimit _ _ => 0

/-- How many elements a call transfers if the ring runs. -/
def Call.moved : Call α → DriftingRing α → Nat
  | .write data, d => ((Call.write data).accepted d).length
  | .read n, d => ((Call.read n).delivered d).length
  | .stop, _ => 0
  | .setLimit _ _, _ => 0

/-- Whether a call transfers fewer elements than asked. -/
def Call.short (c : Call α) (d : DriftingRing α) : Bool := decide (c.moved d < c.asked)

theorem Call.entered_of_party? {c : Call α} {side : Side} (hc : c.party? = some side)
    (d : DriftingRing α) : c.entered d = (d.enter side).1 := by
  cases c with
  | write data =>
    cases hc
    rfl
  | read n =>
    cases hc
    rfl
  | stop => cases hc
  | setLimit of limit => cases hc

/-- What a call on a running ring makes of the parties and of the log is what keeping count of its
transfer does. -/
theorem Sound.run_of_running (hd : Sound config null d) {c : Call α} {side : Side}
    (hc : c.party? = some side) (hruns : (c.entered d).isRunning = true) :
    ∃ e : DriftingRing α, (∀ s, e.party s = (c.entered d).party s) ∧
      (c.run d).after = (e.account side (c.short d)).1 ∧
      (c.run d).log = (d.enter side).2 ++ (e.account side (c.short d)).2 := by
  cases c with
  | write data =>
    cases hc
    have hshort : (Call.write data).short d =
        decide (min (d.enter .writer).1.availableSpace data.length < data.length) := by
      show decide ((data.take _).length < data.length) = _
      rw [List.length_take, min_assoc, min_self]
      rfl
    refine ⟨(d.enter .writer).1.afterStoring data, party_afterStoring _ data, ?_, ?_⟩
    · show (d.write data).1 = _
      rw [hd.write_eq hruns, hshort]
    · show (d.write data).2 = _
      rw [hd.write_eq hruns, hshort]
  | read n =>
    cases hc
    have hshort : (Call.read n).short d = decide ((d.enter .reader).1.delivery n < n) := by
      show decide (((Call.read n).delivered d).length < n) = _
      rw [(hd.delivered_read rfl hruns n).2]
    refine ⟨(d.enter .reader).1.afterDelivery ((d.enter .reader).1.delivery n),
      party_afterDelivery _ _, ?_, ?_⟩
    · show (d.read n).2.1 = _
      rw [hd.read_eq hruns, hshort]
    · show (d.read n).2.2 = _
      rw [hd.read_eq hruns, hshort]
  | stop => cases hc
  | setLimit of limit => cases hc

/-- Whether the call of a party finds the ring running and stops it. -/
def Call.stopsShort (c : Call α) (d : DriftingRing α) (side : Side) : Bool :=
  (c.entered d).isRunning && (c.entered d).stopsCounting side (c.short d)

/-- The parties after a call on a running ring: its own has counted the transfer, and if that was
one xrun too many neither is started any longer. -/
theorem Sound.party_run (hd : Sound config null d) {c : Call α} {side : Side}
    (hc : c.party? = some side) (hruns : (c.entered d).isRunning = true) (s : Side) :
    (c.run d).after.party s =
      { if s = side then ((c.entered d).party s).counted (c.short d) else (c.entered d).party s with
        started := !c.stopsShort d side } := by
  obtain ⟨e, hparty, hafter, -⟩ := hd.run_of_running hc hruns
  have hstops : e.stopsCounting side (c.short d) = c.stopsShort d side := by
    rw [Call.stopsShort, hruns, Bool.true_and, stopsCounting, stopsCounting, hparty]
  rw [hafter, party_account, hparty, hstops, isRunning_iff.1 hruns s, Bool.true_and]

/-- A call that does not find the ring running does no more than let its party enter. -/
theorem run_of_stopped {c : Call α} {side : Side} (hc : c.party? = some side)
    (hstopped : (c.entered d).isRunning = false) :
    (c.run d).after = (d.enter side).1 ∧ (c.run d).log = (d.enter side).2 := by
  cases c with
  | write data =>
    cases hc
    have hwrite := write_of_stopped hstopped data
    exact ⟨congrArg Prod.fst hwrite, congrArg Prod.snd hwrite⟩
  | read n =>
    cases hc
    have hread := read_of_stopped hstopped n
    exact ⟨congrArg (fun r => r.2.1) hread, congrArg (fun r => r.2.2) hread⟩
  | stop => cases hc
  | setLimit of limit => cases hc

/-- Whether the call of `side` is an xrun of the party `s`. -/
def Call.isXrun (c : Call α) (d : DriftingRing α) (side s : Side) : Bool :=
  (c.entered d).isRunning && decide (s = side) && c.short d

/-- Whether the call of `side` is a transfer in full of the party `s`. -/
def Call.isFull (c : Call α) (d : DriftingRing α) (side s : Side) : Bool :=
  (c.entered d).isRunning && decide (s = side) && !c.short d

/-- What one call of `side` makes of either party, once it has entered. -/
theorem Sound.counters_run (hd : Sound config null d) {c : Call α} {side : Side}
    (hc : c.party? = some side) (s : Side) :
    let p := (c.entered d).party s
    let q := (c.run d).after.party s
    q.started = (p.started && !c.stopsShort d side) ∧ q.limit = p.limit ∧
      q.total = (if c.isXrun d side s then p.total + 1 else p.total) ∧
      q.sinceStart = (if c.isXrun d side s then p.sinceStart + 1 else p.sinceStart) ∧
      q.inSuccession = if c.isFull d side s then 0
        else if c.isXrun d side s then p.inSuccession + 1 else p.inSuccession := by
  intro p q
  cases hruns : (c.entered d).isRunning with
  | false =>
    have hq : q = p := by
      show (c.run d).after.party s = (c.entered d).party s
      rw [(run_of_stopped hc hruns).1, Call.entered_of_party? hc]
    simp [hq, Call.stopsShort, Call.isXrun, Call.isFull, hruns]
  | true =>
    have hp : p.started = true := isRunning_iff.1 hruns s
    have hq : q = _ := hd.party_run hc hruns s
    by_cases hs : s = side
    · subst hs
      rw [if_pos rfl] at hq
      cases hshort : c.short d <;>
        simp [hq, hp, hruns, hshort, Call.isXrun, Call.isFull, Party.counted, Party.xrun,
          Party.fullTransfer, p]
    · rw [if_neg hs] at hq
      simp [hq, hp, hs, Call.isXrun, Call.isFull, p]

/-- The call of a party stops the ring exactly if it finds it running and is one xrun too many. -/
theorem Sound.driftStopped_mem_log (hd : Sound config null d) {c : Call α} {side : Side}
    (hc : c.party? = some side) :
    LogEvent.driftStopped ∈ (c.run d).log ↔ c.stopsShort d side = true := by
  have hentry : LogEvent.driftStopped ∉ (d.enter side).2 := fun h =>
    nomatch eq_driftStarting_of_mem_log_enter h
  cases hruns : (c.entered d).isRunning with
  | false =>
    rw [(run_of_stopped hc hruns).2, Call.stopsShort, hruns, Bool.false_and]
    exact ⟨fun h => absurd h hentry, fun h => nomatch h⟩
  | true =>
    obtain ⟨e, hparty, -, hlog⟩ := hd.run_of_running hc hruns
    rw [hlog, List.mem_append, or_iff_right hentry, driftStopped_mem_log_account, Call.stopsShort,
      hruns, Bool.true_and, stopsCounting, stopsCounting, hparty]

/-- A ring that runs in a call is stopped after it exactly if it stops in it. -/
theorem Sound.isRunning_run (hd : Sound config null d) {c : Call α}
    (hruns : (c.entered d).isRunning = true) :
    (c.run d).after.isRunning = false ↔ LogEvent.driftStopped ∈ (c.run d).log := by
  cases hc : c.party? with
  | none =>
    cases c with
    | write data => cases hc
    | read n => cases hc
    | stop => exact ⟨fun _ => List.mem_cons_self, fun _ => rfl⟩
    | setLimit side limit =>
      have hafter : (d.setLimit side limit).isRunning = d.isRunning :=
        isRunning_congr fun s => by
          rw [setLimit, party_updateParty]
          split <;> rfl
      rw [Call.entered_setLimit] at hruns
      exact ⟨fun h => absurd (hafter.symm.trans h) (by simp [hruns]), fun h => nomatch h⟩
  | some side =>
    have hstarted : ∀ s, ((c.run d).after.party s).started = !c.stopsShort d side := fun s => by
      rw [(hd.counters_run hc s).1, isRunning_iff.1 hruns s, Bool.true_and]
    rw [hd.driftStopped_mem_log hc, ← Bool.not_eq_true, isRunning_iff]
    constructor
    · intro h
      by_contra hgoes
      exact h fun s => by rw [hstarted, Bool.eq_false_iff.2 hgoes, Bool.not_false]
    · intro hstops h
      have hwriter := h .writer
      rw [hstarted, hstops] at hwriter
      cases hwriter

/-- No call reports that the ring below refused a transfer. -/
theorem Sound.driftOutOfStep_notMem_log (hd : Sound config null d) (c : Call α) (of : Side)
    (e : FifoError) : LogEvent.driftOutOfStep of e ∉ (c.run d).log := by
  cases hc : c.party? with
  | none =>
    cases c with
    | write data => cases hc
    | read n => cases hc
    | stop => exact fun h => nomatch List.mem_singleton.1 h
    | setLimit of limit => exact List.not_mem_nil
  | some side =>
    have hentry : LogEvent.driftOutOfStep of e ∉ (d.enter side).2 := fun h =>
      nomatch eq_driftStarting_of_mem_log_enter h
    cases hruns : (c.entered d).isRunning with
    | false =>
      rw [(run_of_stopped hc hruns).2]
      exact hentry
    | true =>
      obtain ⟨e', -, -, hlog⟩ := hd.run_of_running hc hruns
      rw [hlog, List.mem_append, not_or]
      exact ⟨hentry, driftOutOfStep_notMem_log_account e' side _ of e⟩

end Calls

end DriftingRing

end BlockFlow
