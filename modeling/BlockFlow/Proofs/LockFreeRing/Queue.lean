import BlockFlow.LockFreeRing.Overlap
import BlockFlow.Proofs.Ring.Queue

/-!
# The ring under a shared ring

A shared ring is a plain ring with two claims. `LockFreeRing.ring` forgets the claims, and the
parts of a call, claim, copy and publication, are described by what they do to that ring: an
accepted write appends to it and an accepted read discards from it.
-/

set_option autoImplicit false

namespace BlockFlow.LockFreeRing

universe u

variable {α : Type u}

/-- The ring that the two sides share. -/
def ring (f : LockFreeRing α) : Ring α := { slots := f.slots, write := f.write, read := f.read }

/-- The shared ring with a block appended and its cursor published. -/
def append (f : LockFreeRing α) (data : List α) : LockFreeRing α :=
  { f with
    slots := (copyIn f.slots f.write data).1
    write := (f.write + data.length) % f.slots.size }

/-- The shared ring with the oldest `n` elements given back to the writer. -/
def discard (f : LockFreeRing α) (n : Nat) : LockFreeRing α :=
  { f with read := (f.read + n) % f.slots.size }

@[simp] theorem ring_discard (f : LockFreeRing α) (n : Nat) :
    (f.discard n).ring = f.ring.discard n := rfl

/-! ## The parts of a call -/

section Parts

variable {f : LockFreeRing α}

/-- The claim of another call stays as it is. -/
theorem takeClaim_of_claimed (side : Side) (hclaimed : f.isClaimed side = true) :
    f.takeClaim side = .error (concurrentUse side, f) := by
  have hsame : f.setClaimed side true = f := by
    obtain ⟨slots, write, read, writerBusy, readerBusy⟩ := f
    cases side with
    | writer =>
      cases hclaimed
      rfl
    | reader =>
      cases hclaimed
      rfl
  rw [takeClaim, if_pos hclaimed, hsame]

theorem takeClaim_of_free (side : Side) (hfree : f.isClaimed side = false) :
    f.takeClaim side = .ok (f.setClaimed side true) := by
  rw [takeClaim, hfree]
  rfl

/-- A claim that is taken and given back was free before and is free again. -/
theorem giveBack_setClaimed (side : Side) (hfree : f.isClaimed side = false) :
    (f.setClaimed side true).giveBack side = f := by
  obtain ⟨slots, write, read, writerBusy, readerBusy⟩ := f
  cases side with
  | writer =>
    cases hfree
    rfl
  | reader =>
    cases hfree
    rfl

theorem claimWriter_of_busy (hbusy : f.writerBusy = true) (n : Nat) :
    f.claimWriter n = .error (concurrentUse .writer, f) := by
  rw [claimWriter, takeClaim_of_claimed .writer hbusy]

theorem claimWriter_of_lt (hfree : f.writerBusy = false) {n : Nat} (hlong : f.availableSpace < n) :
    f.claimWriter n = .error (.capacityExceeded n f.availableSpace, f) := by
  rw [claimWriter, takeClaim_of_free .writer hfree]
  simp only
  rw [giveBack_setClaimed .writer hfree]
  exact if_pos hlong

theorem claimWriter_of_le (hfree : f.writerBusy = false) {n : Nat} (hfits : n ≤ f.availableSpace) :
    f.claimWriter n = .ok { f with writerBusy := true } := by
  rw [claimWriter, takeClaim_of_free .writer hfree]
  exact if_neg (Nat.not_lt.2 hfits)

theorem claimReader_of_busy (hbusy : f.readerBusy = true) (n : Nat) :
    f.claimReader n = .error (concurrentUse .reader, f) := by
  rw [claimReader, takeClaim_of_claimed .reader hbusy]

theorem claimReader_of_lt (hfree : f.readerBusy = false) {n : Nat} (hlong : f.fillCount < n) :
    f.claimReader n = .error (.insufficientData n f.fillCount, f) := by
  rw [claimReader, takeClaim_of_free .reader hfree]
  simp only
  rw [giveBack_setClaimed .reader hfree]
  exact if_pos hlong

theorem claimReader_of_le (hfree : f.readerBusy = false) {n : Nat} (hn : n ≤ f.fillCount) :
    f.claimReader n = .ok { f with readerBusy := true } := by
  rw [claimReader, takeClaim_of_free .reader hfree]
  exact if_neg (Nat.not_lt.2 hn)

/-- A call that is refused leaves the ring and both claims as it found them. -/
theorem eq_of_claimWriter_eq_error {e : FifoError} {left : LockFreeRing α} {n : Nat}
    (h : f.claimWriter n = .error (e, left)) : left = f := by
  cases hbusy : f.writerBusy with
  | true =>
    rw [claimWriter_of_busy hbusy] at h
    cases h
    rfl
  | false =>
    by_cases hfits : n ≤ f.availableSpace
    · rw [claimWriter_of_le hbusy hfits] at h
      cases h
    · rw [claimWriter_of_lt hbusy (Nat.lt_of_not_le hfits)] at h
      cases h
      rfl

theorem eq_of_claimReader_eq_error {e : FifoError} {left : LockFreeRing α} {n : Nat}
    (h : f.claimReader n = .error (e, left)) : left = f := by
  cases hbusy : f.readerBusy with
  | true =>
    rw [claimReader_of_busy hbusy] at h
    cases h
    rfl
  | false =>
    by_cases hthere : n ≤ f.fillCount
    · rw [claimReader_of_le hbusy hthere] at h
      cases h
    · rw [claimReader_of_lt hbusy (Nat.lt_of_not_le hthere)] at h
      cases h
      rfl

/-- A write that starts at the published cursor appends. -/
theorem finishWrite_eq (h : f.ring.Valid) (data : List α) :
    f.finishWrite f.write data = { f.append data with writerBusy := false } := by
  have hend : (copyIn f.slots f.write data).2 = (f.write + data.length) % f.slots.size :=
    copyIn_snd h.write_lt data
  simp only [finishWrite, append, hend]
  rfl

/-- A read that starts at the published cursor takes the window behind it. -/
theorem finishRead_eq (h : f.ring.Valid) (n : Nat) :
    f.finishRead f.read n =
      (window f.slots f.read n, { f.discard n with readerBusy := false }) := by
  have hcopy : copyOut f.slots f.read n =
      (window f.slots f.read n, (f.read + n) % f.slots.size) := copyOut_eq h.read_lt n
  simp only [finishRead, discard, hcopy]
  rfl

/-- A read of elements that are there takes the front of the queue. -/
theorem window_eq_take (h : f.ring.Valid) {n : Nat} (hn : n ≤ f.fillCount) :
    window f.slots f.read n = f.ring.contents.take n :=
  (take_window h.size_pos _ hn).symm

end Parts

/-! ## Calls that nothing overlaps -/

section Alone

variable {f : LockFreeRing α}

theorem push_of_le (h : f.ring.Valid) (hfree : f.writerBusy = false) {data : List α}
    (hfits : data.length ≤ f.availableSpace) : f.push data = .ok (f.append data) := by
  have hclaimed : ({ f with writerBusy := true } : LockFreeRing α).ring.Valid := h
  have hfinish := finishWrite_eq hclaimed data
  rw [push, claimWriter_of_le hfree hfits]
  show Except.ok _ = _
  rw [hfinish]
  simp [append, ← hfree]

theorem push_of_lt (hfree : f.writerBusy = false) {data : List α}
    (hlong : f.availableSpace < data.length) :
    f.push data = .error (.capacityExceeded data.length f.availableSpace) := by
  rw [push, claimWriter_of_lt hfree hlong]

theorem pull_of_le (h : f.ring.Valid) (hfree : f.readerBusy = false) {n : Nat}
    (hn : n ≤ f.fillCount) : f.pull n = .ok (f.ring.contents.take n, f.discard n) := by
  have hclaimed : ({ f with readerBusy := true } : LockFreeRing α).ring.Valid := h
  have hfinish := finishRead_eq hclaimed n
  rw [pull, claimReader_of_le hfree hn]
  show Except.ok _ = _
  rw [hfinish, ← window_eq_take h hn]
  simp [discard, ← hfree]

theorem pull_of_lt (hfree : f.readerBusy = false) {n : Nat} (hlong : f.fillCount < n) :
    f.pull n = .error (.insufficientData n f.fillCount) := by
  rw [pull, claimReader_of_lt hfree hlong]

/-- The cursors are slots, and no call is in progress. -/
structure Quiet (f : LockFreeRing α) : Prop where
  valid : f.ring.Valid
  writerFree : f.writerBusy = false
  readerFree : f.readerBusy = false

theorem Quiet.append (h : f.Quiet) (data : List α) : (f.append data).Quiet :=
  ⟨h.valid.append data, h.writerFree, h.readerFree⟩

theorem Quiet.discard (h : f.Quiet) (n : Nat) : (f.discard n).Quiet :=
  ⟨h.valid.discard n, h.writerFree, h.readerFree⟩

/-- An accepted push fits and appends. -/
theorem Quiet.push_eq_ok {f' : LockFreeRing α} (h : f.Quiet) {data : List α}
    (hpush : f.push data = .ok f') : data.length ≤ f.availableSpace ∧ f' = f.append data := by
  by_cases hfits : data.length ≤ f.availableSpace
  · rw [push_of_le h.valid h.writerFree hfits] at hpush
    cases hpush
    exact ⟨hfits, rfl⟩
  · rw [push_of_lt h.writerFree (Nat.lt_of_not_le hfits)] at hpush
    cases hpush

/-- An accepted pull takes elements that are there. -/
theorem Quiet.pull_eq_ok {f' : LockFreeRing α} (h : f.Quiet) {n : Nat} {block : List α}
    (hpull : f.pull n = .ok (block, f')) :
    n ≤ f.fillCount ∧ block = f.ring.contents.take n ∧ f' = f.discard n := by
  by_cases hthere : n ≤ f.fillCount
  · rw [pull_of_le h.valid h.readerFree hthere] at hpull
    cases hpull
    exact ⟨hthere, rfl, rfl⟩
  · rw [pull_of_lt h.readerFree (Nat.lt_of_not_le hthere)] at hpull
    cases hpull

end Alone

/-! ## Runs -/

/-- A shared ring that some calls, with any calls inside them, leave behind. It starts out as a
plain ring with whatever that holds. -/
inductive Reachable : LockFreeRing α → Prop
  | share {r : Ring α} : r.Reachable → Reachable (ofRing r)
  | call {f : LockFreeRing α} (c : Call α) : Reachable f → Reachable (c.run f).after

/-- A new shared ring shares a new ring. -/
theorem make_eq_ok [Memory] {capacity : Nat} {fill : α} {f : LockFreeRing α}
    (h : make capacity fill = .ok f) : ∃ r, Ring.make capacity fill = .ok r ∧ f = ofRing r := by
  unfold make at h
  cases hr : Ring.make capacity fill with
  | error e => rw [hr] at h; cases h
  | ok r =>
    rw [hr] at h
    cases h
    exact ⟨r, rfl, rfl⟩

theorem Reachable.make [Memory] {capacity : Nat} {fill : α} {f : LockFreeRing α}
    (h : make capacity fill = .ok f) : Reachable f := by
  obtain ⟨r, hr, rfl⟩ := make_eq_ok h
  exact .share (.make hr)

end BlockFlow.LockFreeRing
