import BlockFlow.BlockingRing.Basic
import BlockFlow.Proofs.Ring.Queue

/-!
# A blocking ring is a bounded queue

Where nobody is armed, a transfer on a blocking ring is either done, or waits for the other party,
or is larger than the ring and refused. A transfer that is done appends to the ring or takes from
its front, whatever the parties are armed with.
-/

set_option autoImplicit false

namespace BlockFlow.BlockingRing

universe u

variable {α : Type u}

/-- The blocking ring after a write that was done. -/
def append (b : BlockingRing α) (data : List α) : BlockingRing α :=
  { b with ring := b.ring.append data }

/-- The blocking ring after a read of `n` elements that was done. -/
def discard (b : BlockingRing α) (n : Nat) : BlockingRing α :=
  { b with ring := b.ring.discard n }

section Transfers

variable {b : BlockingRing α}

/-- A block that fits is appended. -/
theorem tryPush_of_le (h : b.ring.Valid) {data : List α} (hfits : data.length ≤ b.availableSpace) :
    b.tryPush data = .done (b.append data) := by
  have hsum := h.fillCount_add_availableSpace
  have hcapacity : ¬ b.capacity < data.length := by
    unfold availableSpace at hfits
    unfold capacity
    omega
  have hpush : b.ring.push data = .ok (b.ring.append data) := h.push_of_le hfits
  rw [tryPush, if_neg hcapacity, if_neg (by omega), hpush]
  rfl

/-- Elements that are there are taken from the front. -/
theorem tryPull_of_le (h : b.ring.Valid) {n : Nat} (hn : n ≤ b.fillCount) :
    b.tryPull n = .done (b.ring.contents.take n, b.discard n) := by
  have hcapacity : ¬ b.capacity < n := by
    have hle := h.fillCount_le
    unfold fillCount at hn
    unfold capacity
    omega
  have hpull : b.ring.pull n = .ok (b.ring.contents.take n, b.ring.discard n) := h.pull_of_le hn
  rw [tryPull, if_neg hcapacity, if_neg (by omega), hpull]
  rfl

theorem holdUp_of_armed {σ : Type u} {side : Side} {error : FifoError}
    (harmed : b.armed side = some error) :
    (b.holdUp side : Attempt σ) = .failed error.duplicate := by
  rw [holdUp, harmed]

theorem holdUp_of_unarmed {σ : Type u} {side : Side} (harmed : b.armed side = none) :
    (b.holdUp side : Attempt σ) = .blocked := by
  rw [holdUp, harmed]

theorem map_holdUp {σ τ : Type u} (b : BlockingRing α) (side : Side) (f : σ → τ) :
    (b.holdUp side).map f = b.holdUp side := by
  unfold holdUp
  cases b.armed side <;> rfl

/-- A write for which there is no space yet is held up. -/
theorem tryPush_of_not_le {data : List α} (hle : data.length ≤ b.capacity)
    (hlong : b.availableSpace < data.length) : b.tryPush data = b.holdUp .writer := by
  rw [tryPush, if_neg (Nat.not_lt_of_le hle), if_pos hlong]

/-- A read of elements that are not there yet is held up. -/
theorem tryPull_of_not_le {n : Nat} (hle : n ≤ b.capacity) (hlong : b.fillCount < n) :
    b.tryPull n = b.holdUp .reader := by
  rw [tryPull, if_neg (Nat.not_lt_of_le hle), if_pos hlong]

/-- A write for which there is no space yet waits, unless an error is armed. -/
theorem tryPush_of_lt (hunarmed : b.writerError = none) {data : List α}
    (hle : data.length ≤ b.capacity) (hlong : b.availableSpace < data.length) :
    b.tryPush data = .blocked :=
  (tryPush_of_not_le hle hlong).trans (holdUp_of_unarmed hunarmed)

/-- A read of elements that are not there yet waits, unless an error is armed. -/
theorem tryPull_of_lt (hunarmed : b.readerError = none) {n : Nat} (hle : n ≤ b.capacity)
    (hlong : b.fillCount < n) : b.tryPull n = .blocked :=
  (tryPull_of_not_le hle hlong).trans (holdUp_of_unarmed hunarmed)

/-- How a transfer of more than the ring can hold is refused. -/
def oversize (capacity : Nat) : Side → Nat → FifoError
  | .writer, n => .config s!"write of {n} elements can never fit a FIFO of {capacity}"
  | .reader, n => .config s!"read of {n} elements can never be served by a FIFO of {capacity}"

/-- A write of more than the ring can hold is refused, whatever the parties are armed with. -/
theorem tryPush_of_capacity_lt {data : List α} (hlong : b.capacity < data.length) :
    b.tryPush data = .failed (oversize b.capacity .writer data.length) :=
  if_pos hlong

/-- A read of more than the ring can hold is refused, whatever the parties are armed with. -/
theorem tryPull_of_capacity_lt {n : Nat} (hlong : b.capacity < n) :
    b.tryPull n = .failed (oversize b.capacity .reader n) :=
  if_pos hlong

theorem holdUp_ne_done {σ : Type u} (b : BlockingRing α) (side : Side) (result : σ) :
    b.holdUp side ≠ .done result := by
  unfold holdUp
  split <;> exact nofun

/-- Only a block that fits is stored. -/
theorem le_of_tryPush_eq_done {data : List α} {b' : BlockingRing α}
    (hdone : b.tryPush data = .done b') : data.length ≤ b.availableSpace := by
  unfold tryPush at hdone
  split at hdone
  · cases hdone
  · split at hdone
    · exact absurd hdone (holdUp_ne_done b _ _)
    · next hfits => exact Nat.le_of_not_lt hfits

/-- Only elements that are there are taken. -/
theorem le_of_tryPull_eq_done {n : Nat} {taken : List α × BlockingRing α}
    (hdone : b.tryPull n = .done taken) : n ≤ b.fillCount := by
  unfold tryPull at hdone
  split at hdone
  · cases hdone
  · split at hdone
    · exact absurd hdone (holdUp_ne_done b _ _)
    · next hthere => exact Nat.le_of_not_lt hthere

/-- Only a write for which there is no space waits. -/
theorem lt_of_tryPush_eq_blocked {data : List α} (h : b.ring.Valid)
    (hblocked : b.tryPush data = .blocked) : b.availableSpace < data.length := by
  apply Nat.lt_of_not_le
  intro hfits
  rw [tryPush_of_le h hfits] at hblocked
  cases hblocked

/-- Only a read of elements that are not there waits. -/
theorem lt_of_tryPull_eq_blocked {n : Nat} (h : b.ring.Valid)
    (hblocked : b.tryPull n = .blocked) : b.fillCount < n := by
  apply Nat.lt_of_not_le
  intro hthere
  rw [tryPull_of_le h hthere] at hblocked
  cases hblocked

end Transfers

/-! ## A write and a read in either order -/

section Order

variable {b : BlockingRing α} {data : List α} {n : Nat}

@[simp] theorem capacity_append (b : BlockingRing α) (data : List α) :
    (b.append data).capacity = b.capacity := Ring.capacity_append ..

@[simp] theorem capacity_discard (b : BlockingRing α) (n : Nat) :
    (b.discard n).capacity = b.capacity := Ring.capacity_discard ..

/-- A write changes slots and the write cursor, a read the read cursor. -/
theorem append_discard (b : BlockingRing α) (data : List α) (n : Nat) :
    (b.append data).discard n = (b.discard n).append data := by
  simp only [append, discard, Ring.discard, Ring.size_append]
  rfl

/-- A write leaves the elements that a read asks for where they were. -/
theorem le_fillCount_append (h : b.ring.Valid) (hfits : data.length ≤ b.availableSpace)
    (hn : n ≤ b.fillCount) : n ≤ (b.append data).fillCount := by
  have hfill : (b.append data).fillCount = b.fillCount + data.length := h.fillCount_append hfits
  omega

/-- A read makes space. -/
theorem le_availableSpace_discard (h : b.ring.Valid) (hn : n ≤ b.fillCount)
    (hfits : data.length ≤ b.availableSpace) : data.length ≤ (b.discard n).availableSpace := by
  have hfill : (b.discard n).fillCount = b.fillCount - n := h.fillCount_discard hn
  have hsum : b.fillCount + b.availableSpace = b.capacity := h.fillCount_add_availableSpace
  have hsum' : (b.discard n).fillCount + (b.discard n).availableSpace = (b.discard n).capacity :=
    (h.discard n).fillCount_add_availableSpace
  rw [capacity_discard] at hsum'
  omega

/-- A write leaves the oldest elements the oldest. -/
theorem take_contents_append (h : b.ring.Valid) (hfits : data.length ≤ b.availableSpace)
    (hn : n ≤ b.fillCount) :
    (b.append data).ring.contents.take n = b.ring.contents.take n := by
  have hcontents : (b.append data).ring.contents = b.ring.contents ++ data :=
    h.contents_append hfits
  have hlength : n ≤ b.ring.contents.length := by
    rw [h.length_contents]
    exact hn
  rw [hcontents, List.take_append_of_le_length hlength]

end Order

@[simp] theorem ring_setError (b : BlockingRing α) (side : Side) (error : FifoError) :
    (b.setError side error).ring = b.ring := by
  cases side <;> rfl

/-- A new blocking ring is a new ring with nobody armed. -/
theorem make_eq_ok [Memory] {capacity : Nat} {fill : α} {b : BlockingRing α}
    (h : make capacity fill = .ok b) :
    ∃ r, Ring.make capacity fill = .ok r ∧
      b = { ring := r, readerError := none, writerError := none } := by
  simp only [make, bind_eq_ok] at h
  obtain ⟨r, hr, hb⟩ := h
  exact ⟨r, hr, (Except.ok.inj hb).symm⟩

theorem make_of_storable [Memory] {capacity : Nat} (h : Ring.Storable capacity) (fill : α) :
    ∃ b, make capacity fill = .ok b := by
  obtain ⟨r, hr⟩ := Ring.make_of_storable h fill
  rw [make, hr]
  exact ⟨_, rfl⟩

theorem make_of_not_storable [Memory] {capacity : Nat} (h : ¬ Ring.Storable capacity) (fill : α) :
    make capacity fill = .error (Ring.storageError capacity) := by
  rw [make, Ring.make_of_not_storable h]
  rfl

end BlockFlow.BlockingRing
