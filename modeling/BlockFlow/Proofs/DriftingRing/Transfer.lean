import BlockFlow.DriftingRing.Basic
import BlockFlow.Proofs.Ring.Queue

/-!
# What one call moves through a drifting ring

What a drifting ring has still to deliver is the silence that it owes and then what it stores
(`pending`). A call on a running ring appends what it accepts to that list and takes what it
delivers from its front, also if it stops the ring (`pending_append_accepted`). A call that sets
the second of the two started flags finds nothing pending but the startup silence
(`pending_entered_of_opens`). A read fills its buffer with what it delivers and pads the rest with
silence (`buffer_eq`).
-/

set_option autoImplicit false

namespace BlockFlow.DriftingRing

universe u

variable {α : Type u}

/-- What a ring with these settings keeps true: its settings, and that what it stores and the
silence that it owes fit together. -/
structure Sound (config : DriftConfig) (null : α) (d : DriftingRing α) : Prop where
  valid : d.ring.Valid
  fits : d.ring.fillCount + d.startupZeros ≤ d.ring.capacity
  desired_le : config.desiredFillCount ≤ d.ring.capacity
  desired : d.desiredFillCount = config.desiredFillCount
  silence : d.null = null

/-- What remains to be delivered: the silence still owed, then what is stored, oldest first. -/
def pending (d : DriftingRing α) : List α :=
  List.replicate d.startupZeros d.null ++ d.ring.contents

/-- The ring as the transfer of a call finds it, once the party has entered. -/
def Call.entered : Call α → DriftingRing α → DriftingRing α
  | .write _, d => (d.enter .writer).1
  | .read _, d => (d.enter .reader).1
  | .stop, d => d
  | .setLimit _ _, d => d

@[simp] theorem Call.entered_stop (d : DriftingRing α) : (Call.stop : Call α).entered d = d := rfl

@[simp] theorem Call.entered_setLimit (d : DriftingRing α) (side : Side) (limit : UInt32) :
    (Call.setLimit side limit : Call α).entered d = d := rfl

/-- Elements that a read of `n` elements delivers. -/
def delivery (d : DriftingRing α) (n : Nat) : Nat := min (d.fillCount - d.minFillCount) n

/-- The part of its data that a running ring accepts from a call. -/
def Call.accepted : Call α → DriftingRing α → List α
  | .write data, d => data.take (min ((Call.write data).entered d).availableSpace data.length)
  | .read _, _ => []
  | .stop, _ => []
  | .setLimit _ _, _ => []

/-- The part of its buffer that a running ring delivers to a call. -/
def Call.delivered : Call α → DriftingRing α → List α
  | .write _, _ => []
  | .read n, d => ((Call.read n).run d).buffer.take (((Call.read n : Call α).entered d).delivery n)
  | .stop, _ => []
  | .setLimit _ _, _ => []

/-! ## The parties apart

Entering and keeping count change flags and counters. Everything else about the stream is in the
ring below, the silence owed and the settings. -/

/-- The two rings differ at most in what they keep about their parties. -/
structure SameStream (d d' : DriftingRing α) : Prop where
  ring : d'.ring = d.ring
  startupZeros : d'.startupZeros = d.startupZeros
  null : d'.null = d.null
  minFillCount : d'.minFillCount = d.minFillCount
  desiredFillCount : d'.desiredFillCount = d.desiredFillCount

namespace SameStream

variable {config : DriftConfig} {null : α} {d d' d'' : DriftingRing α}

theorem refl (d : DriftingRing α) : SameStream d d := ⟨rfl, rfl, rfl, rfl, rfl⟩

theorem trans (h : SameStream d d') (h' : SameStream d' d'') : SameStream d d'' where
  ring := h'.ring.trans h.ring
  startupZeros := h'.startupZeros.trans h.startupZeros
  null := h'.null.trans h.null
  minFillCount := h'.minFillCount.trans h.minFillCount
  desiredFillCount := h'.desiredFillCount.trans h.desiredFillCount

theorem pending (h : SameStream d d') : d'.pending = d.pending := by
  rw [DriftingRing.pending, DriftingRing.pending, h.ring, h.startupZeros, h.null]

theorem sound (h : SameStream d d') (hd : Sound config null d) : Sound config null d' where
  valid := by
    rw [h.ring]
    exact hd.valid
  fits := by
    rw [h.ring, h.startupZeros]
    exact hd.fits
  desired_le := by
    rw [h.ring]
    exact hd.desired_le
  desired := h.desiredFillCount.trans hd.desired
  silence := h.null.trans hd.silence

end SameStream

theorem sameStream_updateParty (d : DriftingRing α) (side : Side) (f : Party → Party) :
    SameStream d (d.updateParty side f) := by
  cases side <;> exact ⟨rfl, rfl, rfl, rfl, rfl⟩

theorem sameStream_stop (d : DriftingRing α) : SameStream d d.stop :=
  (sameStream_updateParty d .writer _).trans (sameStream_updateParty _ .reader _)

theorem sameStream_setLimit (d : DriftingRing α) (side : Side) (limit : UInt32) :
    SameStream d (d.setLimit side limit) :=
  sameStream_updateParty d side fun p => { p with limit }

theorem sameStream_account (d : DriftingRing α) (side : Side) (short : Bool) :
    SameStream d (d.account side short).1 := by
  unfold account
  cases short with
  | false => exact sameStream_updateParty d side _
  | true =>
    have hxrun := sameStream_updateParty d side Party.xrun
    simp only [if_true]
    split
    · exact hxrun.trans (sameStream_stop _)
    · exact hxrun

/-! ## Entering -/

section Enter

variable {config : DriftConfig} {null : α} {d : DriftingRing α} {side : Side}

theorem enter_of_started (h : (d.party side).started = true) : (d.enter side).1 = d := by
  rw [enter, if_pos h]

theorem sameStream_enter_of_not_started (h : (d.party side).started = false) :
    SameStream d.starting (d.enter side).1 := by
  have hnot : ¬ (d.party side).started = true := by
    rw [h]
    exact Bool.false_ne_true
  rw [enter, if_neg hnot]
  exact sameStream_updateParty d.starting side fun p => { p with started := true }

/-- A start drops what was stored and owes all the startup silence again. -/
theorem pending_starting (d : DriftingRing α) :
    d.starting.pending = List.replicate d.desiredFillCount d.null := by
  simp [pending, starting]

theorem Sound.starting (hd : Sound config null d) : Sound config null d.starting where
  valid := hd.valid.clear
  fits := by
    show d.ring.clear.fillCount + d.desiredFillCount ≤ d.ring.clear.capacity
    rw [Ring.fillCount_clear, Ring.capacity_clear, Nat.zero_add, hd.desired]
    exact hd.desired_le
  desired_le := hd.desired_le
  desired := hd.desired
  silence := hd.silence

theorem Sound.enter (hd : Sound config null d) (side : Side) :
    Sound config null (d.enter side).1 := by
  cases hstarted : (d.party side).started with
  | true =>
    rw [enter_of_started hstarted]
    exact hd
  | false => exact (sameStream_enter_of_not_started hstarted).sound hd.starting

theorem started_of_isRunning (h : d.isRunning = true) (side : Side) :
    (d.party side).started = true := by
  rw [isRunning, Bool.and_eq_true] at h
  cases side with
  | writer => exact h.1
  | reader => exact h.2

/-- A party that finds the ring stopped and leaves it running has started it. -/
theorem not_started_of_opens (hstopped : d.isRunning = false)
    (hruns : (d.enter side).1.isRunning = true) : (d.party side).started = false := by
  cases hstarted : (d.party side).started with
  | false => rfl
  | true =>
    rw [enter_of_started hstarted, hstopped] at hruns
    cases hruns

end Enter

section Entered

variable {config : DriftConfig} {null : α} {d : DriftingRing α}

/-- On a running ring both parties have entered. -/
theorem entered_of_isRunning (h : d.isRunning = true) (c : Call α) : c.entered d = d := by
  cases c with
  | write data => exact enter_of_started (started_of_isRunning h .writer)
  | read n => exact enter_of_started (started_of_isRunning h .reader)
  | stop => rfl
  | setLimit side limit => rfl

/-- The call that sets the second started flag finds the ring empty but for the startup silence,
whatever was stored before. -/
theorem pending_entered_of_opens (hd : Sound config null d) {c : Call α}
    (hstopped : d.isRunning = false) (hruns : (c.entered d).isRunning = true) :
    (c.entered d).pending = List.replicate config.desiredFillCount null := by
  -- only a write or a read can start the ring
  obtain ⟨side, hside⟩ : ∃ side, c.entered d = (d.enter side).1 := by
    cases c with
    | write data => exact ⟨.writer, rfl⟩
    | read n => exact ⟨.reader, rfl⟩
    | stop =>
      rw [Call.entered_stop, hstopped] at hruns
      cases hruns
    | setLimit side limit =>
      rw [Call.entered_setLimit, hstopped] at hruns
      cases hruns
  rw [hside] at hruns ⊢
  have hnot := not_started_of_opens hstopped hruns
  rw [(sameStream_enter_of_not_started hnot).pending, pending_starting, hd.desired, hd.silence]

end Entered

/-! ## Counts -/

section Counts

variable {config : DriftConfig} {null : α} {d : DriftingRing α}

/-- As much remains to be delivered as the fill count says. -/
theorem Sound.length_pending (hd : Sound config null d) : d.pending.length = d.fillCount := by
  rw [pending, List.length_append, List.length_replicate, hd.valid.length_contents, fillCount,
    Nat.add_comm]

/-- What the ring accepts fits into the ring below, beside the silence owed. -/
theorem Sound.le_availableSpace (hd : Sound config null d) {n : Nat} (hn : n ≤ d.availableSpace) :
    n ≤ d.ring.availableSpace ∧ d.ring.fillCount + n + d.startupZeros ≤ d.ring.capacity := by
  have hsum := hd.valid.fillCount_add_availableSpace
  have hfits := hd.fits
  unfold availableSpace at hn
  omega

/-- The stored part of a delivery is there. -/
theorem stored_share_le (d : DriftingRing α) {n : Nat} (hn : n ≤ d.fillCount) :
    n - min d.startupZeros n ≤ d.ring.fillCount := by
  unfold fillCount at hn
  omega

end Counts

/-! ## Transfers on a running ring -/

section Transfers

variable {config : DriftConfig} {null : α} {d : DriftingRing α}

/-- The ring below takes what fits. -/
theorem Sound.store_eq (hd : Sound config null d) {data : List α}
    (hfits : data.length ≤ d.availableSpace) :
    d.store data = ({ d with ring := d.ring.append data }, []) := by
  rw [DriftingRing.store, hd.valid.push_of_le (hd.le_availableSpace hfits).1]

/-- What fits is stored behind what is there. -/
theorem Sound.store (hd : Sound config null d) {data : List α}
    (hfits : data.length ≤ d.availableSpace) :
    (d.store data).1.pending = d.pending ++ data ∧ Sound config null (d.store data).1 := by
  obtain ⟨hroom, hsum⟩ := hd.le_availableSpace hfits
  rw [hd.store_eq hfits]
  constructor
  · show _ ++ (d.ring.append data).contents = _
    rw [hd.valid.contents_append hroom, pending, List.append_assoc]
  · exact
      { valid := hd.valid.append data
        fits := by
          show (d.ring.append data).fillCount + d.startupZeros ≤ (d.ring.append data).capacity
          rw [hd.valid.fillCount_append hroom, Ring.capacity_append]
          exact hsum
        desired_le := by
          show config.desiredFillCount ≤ (d.ring.append data).capacity
          rw [Ring.capacity_append]
          exact hd.desired_le
        desired := hd.desired
        silence := hd.silence }

/-- The ring once it has handed over the silence among its next `n` elements. -/
def afterSilence (d : DriftingRing α) (n : Nat) : DriftingRing α :=
  { d with startupZeros := d.startupZeros - min d.startupZeros n }

/-- The ring below hands over the stored part of a delivery. -/
theorem Sound.fetch_eq (hd : Sound config null d) {n : Nat} (hn : n ≤ d.fillCount) :
    (d.afterSilence n).fetch (n - min d.startupZeros n) =
      (d.ring.contents.take (n - min d.startupZeros n),
        { d.afterSilence n with ring := d.ring.discard (n - min d.startupZeros n) }, []) := by
  have hpull := hd.valid.pull_of_le (stored_share_le d hn)
  simp only [DriftingRing.fetch, afterSilence, hpull]

/-- What is handed over is the front of what is pending, first the silence and then what is
stored. -/
theorem Sound.fetch (hd : Sound config null d) {n : Nat} (hn : n ≤ d.fillCount) :
    let fetched := (d.afterSilence n).fetch (n - min d.startupZeros n)
    List.replicate (min d.startupZeros n) d.null ++ fetched.1 = d.pending.take n ∧
      fetched.2.1.pending = d.pending.drop n ∧ Sound config null fetched.2.1 := by
  have hthere := stored_share_le d hn
  simp only [hd.fetch_eq hn]
  refine ⟨?_, ?_, ?_⟩
  · -- either the silence is used up, or nothing stored is reached
    rw [pending, List.take_append, List.take_replicate, List.length_replicate]
    congr 2 <;> omega
  · show List.replicate (d.startupZeros - min d.startupZeros n) d.null ++
      (d.ring.discard _).contents = _
    rw [hd.valid.contents_discard hthere, pending, List.drop_append, List.drop_replicate,
      List.length_replicate]
    congr 2 <;> omega
  · have hfits := hd.fits
    exact
      { valid := hd.valid.discard _
        fits := by
          show (d.ring.discard _).fillCount + (d.startupZeros - _) ≤ d.ring.capacity
          rw [hd.valid.fillCount_discard hthere]
          omega
        desired_le := hd.desired_le
        desired := hd.desired
        silence := hd.silence }

end Transfers

/-! ## Calls -/

section Calls

variable {config : DriftConfig} {null : α} {d : DriftingRing α}

theorem null_enter (d : DriftingRing α) (side : Side) : (d.enter side).1.null = d.null := by
  cases hstarted : (d.party side).started with
  | true => rw [enter_of_started hstarted]
  | false => exact (sameStream_enter_of_not_started hstarted).null

theorem write_of_isRunning {e : DriftingRing α} (he : (d.enter .writer).1 = e)
    (hruns : e.isRunning = true) (data : List α) :
    SameStream (e.store (data.take (min e.availableSpace data.length))).1 (d.write data).1 := by
  unfold write
  simp only [he, hruns, if_true]
  exact sameStream_account ..

theorem read_of_isRunning {e : DriftingRing α} (he : (d.enter .reader).1 = e)
    (hruns : e.isRunning = true) (n : Nat) :
    let fetched := (e.afterSilence (e.delivery n)).fetch
      (e.delivery n - min e.startupZeros (e.delivery n))
    (d.read n).1 = List.replicate (min e.startupZeros (e.delivery n)) d.null ++ fetched.1 ++
        List.replicate (n - e.delivery n) d.null ∧
      SameStream fetched.2.1 (d.read n).2.1 := by
  unfold read
  simp only [he, hruns, if_true]
  exact ⟨rfl, sameStream_account ..⟩

theorem write_of_stopped (hstopped : (d.enter .writer).1.isRunning = false) (data : List α) :
    d.write data = d.enter .writer := by
  unfold write
  simp only [hstopped, Bool.false_eq_true, if_false]

theorem read_of_stopped (hstopped : (d.enter .reader).1.isRunning = false) (n : Nat) :
    d.read n = (List.replicate n d.null, d.enter .reader) := by
  unfold read
  simp only [hstopped, Bool.false_eq_true, if_false]

/-- A write on a running ring appends what fits. -/
theorem Sound.write (hd : Sound config null d) {e : DriftingRing α}
    (he : (d.enter .writer).1 = e) (hruns : e.isRunning = true) (data : List α) :
    (d.write data).1.pending = e.pending ++ data.take (min e.availableSpace data.length) ∧
      Sound config null (d.write data).1 := by
  have hsame := write_of_isRunning he hruns data
  have hsound : Sound config null e := he ▸ hd.enter .writer
  have hfits : (data.take (min e.availableSpace data.length)).length ≤ e.availableSpace := by
    simp
  obtain ⟨hpending, hstored⟩ := hsound.store hfits
  rw [hsame.pending]
  exact ⟨hpending, hsame.sound hstored⟩

theorem delivery_le (d : DriftingRing α) (n : Nat) : d.delivery n ≤ d.fillCount := by
  unfold delivery
  omega

/-- A read on a running ring takes from the front of what is pending, and pads with silence. -/
theorem Sound.read (hd : Sound config null d) {e : DriftingRing α}
    (he : (d.enter .reader).1 = e) (hruns : e.isRunning = true) (n : Nat) :
    (d.read n).1 = e.pending.take (e.delivery n) ++ List.replicate (n - e.delivery n) null ∧
      (d.read n).2.1.pending = e.pending.drop (e.delivery n) ∧
      Sound config null (d.read n).2.1 := by
  obtain ⟨hbuffer, hsame⟩ := read_of_isRunning he hruns n
  have hsound : Sound config null e := he ▸ hd.enter .reader
  obtain ⟨hfront, hrest, hfetched⟩ := hsound.fetch (e.delivery_le n)
  have hnull : e.null = d.null := he ▸ null_enter d .reader
  rw [hnull] at hfront
  refine ⟨?_, hsame.pending.trans hrest, hsame.sound hfetched⟩
  rw [hbuffer, hfront, hd.silence]

/-- Every call keeps the settings, and what is stored and owed fits together. -/
theorem Sound.run (hd : Sound config null d) (c : Call α) : Sound config null (c.run d).after := by
  cases c with
  | write data =>
    cases hruns : (d.enter .writer).1.isRunning with
    | true => exact (hd.write rfl hruns data).2
    | false =>
      show Sound config null (d.write data).1
      rw [write_of_stopped hruns]
      exact hd.enter .writer
  | read n =>
    cases hruns : (d.enter .reader).1.isRunning with
    | true => exact (hd.read rfl hruns n).2.2
    | false =>
      show Sound config null (d.read n).2.1
      rw [read_of_stopped hruns]
      exact hd.enter .reader
  | stop => exact (sameStream_stop d).sound hd
  | setLimit side limit => exact (sameStream_setLimit d side limit).sound hd

/-- What a read of a running ring delivers is the front of what is pending. -/
theorem Sound.delivered_read (hd : Sound config null d) {e : DriftingRing α}
    (he : (d.enter .reader).1 = e) (hruns : e.isRunning = true) (n : Nat) :
    (Call.read n).delivered d = e.pending.take (e.delivery n) ∧
      ((Call.read n).delivered d).length = e.delivery n := by
  have hsound : Sound config null e := he ▸ hd.enter .reader
  have hlength : (e.pending.take (e.delivery n)).length = e.delivery n := by
    rw [List.length_take, hsound.length_pending]
    exact Nat.min_eq_left (e.delivery_le n)
  have htake : (Call.read n).delivered d = e.pending.take (e.delivery n) := by
    show (d.read n).1.take ((d.enter .reader).1.delivery n) = _
    rw [he, (hd.read he hruns n).1]
    exact List.take_left' hlength
  rw [htake]
  exact ⟨rfl, hlength⟩

/-- A call on a running ring appends what it accepts to what is pending and takes what it delivers
from the front. This is so even if the call stops the ring. -/
theorem Sound.pending_append_accepted (hd : Sound config null d) {c : Call α}
    (hruns : (c.entered d).isRunning = true) :
    (c.entered d).pending ++ c.accepted d = c.delivered d ++ (c.run d).after.pending := by
  cases c with
  | write data => exact (hd.write rfl hruns data).1.symm
  | read n =>
    have hrest : ((Call.read n).run d).after.pending =
        (d.enter .reader).1.pending.drop ((d.enter .reader).1.delivery n) :=
      (hd.read rfl hruns n).2.1
    rw [(hd.delivered_read rfl hruns n).1, hrest, List.take_append_drop]
    exact List.append_nil _
  | stop =>
    rw [Call.entered_stop, ← (sameStream_stop d).pending]
    exact List.append_nil _
  | setLimit side limit =>
    rw [Call.entered_setLimit, ← (sameStream_setLimit d side limit).pending]
    exact List.append_nil _

/-- A read that finds the ring stopped gets silence only. -/
theorem Sound.buffer_of_stopped (hd : Sound config null d) {n : Nat}
    (hstopped : ((Call.read n : Call α).entered d).isRunning = false) :
    ((Call.read n).run d).buffer = List.replicate n null := by
  show (d.read n).1 = _
  rw [read_of_stopped hstopped, hd.silence]

/-- The buffer of a read is what the read delivers and then silence. -/
theorem Sound.buffer_eq (hd : Sound config null d) (n : Nat) :
    ((Call.read n).run d).buffer = (Call.read n).delivered d ++
      List.replicate (n - ((Call.read n).delivered d).length) null := by
  cases hruns : (d.enter .reader).1.isRunning with
  | false =>
    have hbuffer := hd.buffer_of_stopped (n := n) hruns
    rw [Call.delivered, hbuffer, List.take_replicate, List.length_replicate,
      List.replicate_append_replicate]
    congr 1
    omega
  | true =>
    obtain ⟨htake, hlength⟩ := hd.delivered_read rfl hruns n
    rw [hlength, htake]
    exact (hd.read rfl hruns n).1

/-- A ring that runs after a call has run during the call. -/
theorem isRunning_entered_of_after {c : Call α} (h : (c.run d).after.isRunning = true) :
    (c.entered d).isRunning = true := by
  cases c with
  | write data =>
    cases hruns : (d.enter .writer).1.isRunning with
    | true => exact hruns
    | false =>
      have hafter : (d.write data).1.isRunning = true := h
      rw [write_of_stopped hruns, hruns] at hafter
      cases hafter
  | read n =>
    cases hruns : (d.enter .reader).1.isRunning with
    | true => exact hruns
    | false =>
      have hafter : (d.read n).2.1.isRunning = true := h
      rw [read_of_stopped hruns, hruns] at hafter
      cases hafter
  | stop => cases h
  | setLimit side limit =>
    cases side with
    | writer => exact h
    | reader => exact h

end Calls

end BlockFlow.DriftingRing
