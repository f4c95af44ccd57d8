import BlockFlow.Proofs.Ring.Window
import BlockFlow.Ring.Basic

/-!
# A ring is a bounded queue

`Ring.contents` is what a ring stores, oldest first. A push that fits appends to it, a pull of
elements that are there takes from its front, and every other push or pull is refused
(`push_of_le`, `push_of_lt`, `pull_of_le`, `pull_of_lt`). The cursors stay inside the storage
over every run of calls (`Reachable.valid`).
-/

set_option autoImplicit false

namespace BlockFlow.Ring

universe u

variable {α : Type u}

/-- The cursors are slots of the storage. -/
structure Valid (r : Ring α) : Prop where
  write_lt : r.write < r.slots.size
  read_lt : r.read < r.slots.size

/-- What the ring stores, oldest first. -/
def contents (r : Ring α) : List α := window r.slots r.read r.fillCount

/-- The ring after a write that fits. -/
def append (r : Ring α) (data : List α) : Ring α :=
  { r with
    slots := (copyIn r.slots r.write data).1
    write := (r.write + data.length) % r.slots.size }

/-- The ring after a read of `n` elements that are there. -/
def discard (r : Ring α) (n : Nat) : Ring α :=
  { r with read := (r.read + n) % r.slots.size }

/-! ## Counts -/

section Counts

variable {r : Ring α}

theorem Valid.size_pos (h : r.Valid) : 0 < r.slots.size :=
  Nat.zero_lt_of_lt h.write_lt

theorem Valid.fillCount_lt (h : r.Valid) : r.fillCount < r.slots.size :=
  fillBetween_lt h.write_lt h.read_lt

theorem Valid.size_eq (h : r.Valid) : r.slots.size = r.capacity + 1 := by
  have := h.size_pos
  unfold capacity
  omega

theorem Valid.fillCount_le (h : r.Valid) : r.fillCount ≤ r.capacity := by
  have hlt := h.fillCount_lt
  rw [h.size_eq] at hlt
  omega

theorem Valid.fillCount_add_availableSpace (h : r.Valid) :
    r.fillCount + r.availableSpace = r.capacity :=
  Nat.add_sub_of_le h.fillCount_le

theorem Valid.length_contents (h : r.Valid) : r.contents.length = r.fillCount :=
  length_window h.size_pos ..

theorem Valid.length_take_contents (h : r.Valid) {n : Nat} (hn : n ≤ r.fillCount) :
    (r.contents.take n).length = n := by
  rw [← h.length_contents] at hn
  exact List.length_take_of_le hn

end Counts

/-! ## Appending -/

section Append

variable {r : Ring α} {data : List α}

@[simp] theorem size_append (r : Ring α) (data : List α) :
    (r.append data).slots.size = r.slots.size := size_copyIn ..

@[simp] theorem read_append (r : Ring α) (data : List α) : (r.append data).read = r.read := rfl

@[simp] theorem capacity_append (r : Ring α) (data : List α) :
    (r.append data).capacity = r.capacity := by
  simp [capacity]

theorem Valid.append (h : r.Valid) (data : List α) : (r.append data).Valid where
  write_lt := by
    rw [size_append]
    exact Nat.mod_lt _ h.size_pos
  read_lt := by
    rw [size_append]
    exact h.read_lt

/-- A block that fits leaves one slot unused. -/
theorem Valid.fillCount_add_lt (h : r.Valid) (hfits : data.length ≤ r.availableSpace) :
    r.fillCount + data.length < r.slots.size := by
  have hsum := h.fillCount_add_availableSpace
  rw [h.size_eq]
  omega

theorem Valid.fillCount_append (h : r.Valid) (hfits : data.length ≤ r.availableSpace) :
    (r.append data).fillCount = r.fillCount + data.length := by
  have hadvance := fillBetween_advance_write h.write_lt h.read_lt (h.fillCount_add_lt hfits)
  rw [← size_append r data] at hadvance
  simpa [fillCount, Ring.append] using hadvance

theorem Valid.contents_append (h : r.Valid) (hfits : data.length ≤ r.availableSpace) :
    (r.append data).contents = r.contents ++ data := by
  have hroom := h.fillCount_add_lt hfits
  have hwrite : (r.read + r.fillCount) % r.slots.size = r.write :=
    read_add_fillBetween h.write_lt h.read_lt
  rw [contents, h.fillCount_append hfits, window_add, size_append, read_append, hwrite]
  congr 1
  · -- what was stored lies ahead of the copy
    show window (copyIn r.slots r.write data).1 r.read r.fillCount = _
    rw [← hwrite]
    exact window_copyIn_of_fits h.read_lt hroom.le
  · -- what is new is what was copied in
    exact window_copyIn h.write_lt (by omega)

/-- A block that fits is appended. -/
theorem Valid.push_of_le (h : r.Valid) (hfits : data.length ≤ r.availableSpace) :
    r.push data = .ok (r.append data) := by
  have hroom := h.fillCount_add_lt hfits
  rw [push, if_neg (by omega)]
  show Except.ok { r with slots := _, write := _ } = _
  rw [blit_blit_eq_copyIn h.write_lt (by omega)]
  rfl

/-- A block that does not fit is refused. -/
theorem push_of_lt (hlong : r.availableSpace < data.length) :
    r.push data = .error (.capacityExceeded data.length r.availableSpace) :=
  if_pos hlong

end Append

/-! ## Discarding -/

section Discard

variable {r : Ring α} {n : Nat}

@[simp] theorem capacity_discard (r : Ring α) (n : Nat) : (r.discard n).capacity = r.capacity := rfl

theorem Valid.discard (h : r.Valid) (n : Nat) : (r.discard n).Valid where
  write_lt := h.write_lt
  read_lt := Nat.mod_lt _ h.size_pos

theorem Valid.fillCount_discard (h : r.Valid) (hn : n ≤ r.fillCount) :
    (r.discard n).fillCount = r.fillCount - n :=
  fillBetween_advance_read h.write_lt h.read_lt hn

theorem Valid.contents_discard (h : r.Valid) (hn : n ≤ r.fillCount) :
    (r.discard n).contents = r.contents.drop n := by
  rw [contents, h.fillCount_discard hn, contents, drop_window h.size_pos _ hn]
  rfl

/-- Elements that are there are taken from the front. -/
theorem Valid.pull_of_le (h : r.Valid) (hn : n ≤ r.fillCount) :
    r.pull n = .ok (r.contents.take n, r.discard n) := by
  have hsize := h.fillCount_lt
  rw [pull, if_neg (by omega)]
  show Except.ok (_ ++ _, r.discard n) = _
  rw [slice_append_slice h.read_lt (by omega), contents, take_window h.size_pos _ hn]

/-- A read of more than is there is refused. -/
theorem pull_of_lt (hlong : r.fillCount < n) :
    r.pull n = .error (.insufficientData n r.fillCount) :=
  if_pos hlong

end Discard

/-! ## Clearing -/

section Clear

variable {r : Ring α}

theorem Valid.clear (h : r.Valid) : r.clear.Valid := ⟨h.write_lt, h.write_lt⟩

@[simp] theorem fillCount_clear (r : Ring α) : r.clear.fillCount = 0 := fillBetween_self ..

@[simp] theorem capacity_clear (r : Ring α) : r.clear.capacity = r.capacity := rfl

@[simp] theorem contents_clear (r : Ring α) : r.clear.contents = [] := by
  rw [contents, fillCount_clear, window_zero]

end Clear

/-! ## Runs -/

/-- A ring that some calls on a new ring leave behind. -/
inductive Reachable : Ring α → Prop
  | make [Memory] {capacity : Nat} {fill : α} {r : Ring α} :
      make capacity fill = .ok r → Reachable r
  | call {r : Ring α} (c : Call α) : Reachable r → Reachable (c.run r).after

/-- The slots of a new FIFO, where there is memory for them. -/
theorem allocate_eq_ok [Memory] {capacity : Nat} {fill : α} {slots : Array α}
    (h : allocate capacity fill = .ok slots) : slots = Array.replicate (capacity + 1) fill := by
  unfold allocate checkedAdd? at h
  split at h
  · cases h
  · next size hsize =>
    have hsum : capacity + 1 = size := (Option.ite_some_none_eq_some.1 hsize).2
    split at h
    · cases h
      rw [hsum]
    · cases h

/-- There are cursors and memory for the slots of a FIFO of this capacity. -/
def Storable [Memory] (capacity : Nat) : Prop :=
  capacity + 1 < wordBound ∧ Memory.hasSlots (capacity + 1) = true

/-- Where a FIFO can be stored, a smaller one can. -/
theorem Storable.of_le [Memory] {m n : Nat} (h : Storable n) (hle : m ≤ n) : Storable m :=
  ⟨Nat.lt_of_le_of_lt (Nat.add_le_add_right hle 1) h.1,
    Memory.hasSlots_of_le (Nat.add_le_add_right hle 1) h.2⟩

/-- The error for storage that is not to be had. -/
def storageError (capacity : Nat) : FifoError :=
  if capacity + 1 < wordBound then .outOfMemory capacity else .cursorOverflow capacity

theorem allocate_of_storable [Memory] {capacity : Nat} (h : Storable capacity) (fill : α) :
    allocate capacity fill = .ok (Array.replicate (capacity + 1) fill) := by
  rw [allocate, checkedAdd?_eq_some.2 ⟨rfl, h.1⟩]
  exact if_pos h.2

theorem allocate_of_not_storable [Memory] {capacity : Nat} (h : ¬ Storable capacity) (fill : α) :
    allocate capacity fill = .error (storageError capacity) := by
  unfold allocate storageError checkedAdd?
  by_cases hword : capacity + 1 < wordBound
  · rw [if_pos hword, if_pos hword]
    exact if_neg fun hmemory => h ⟨hword, hmemory⟩
  · rw [if_neg hword, if_neg hword]

/-- A new ring is empty and has the capacity that was asked for. -/
theorem make_eq_ok [Memory] {capacity : Nat} {fill : α} {r : Ring α}
    (h : make capacity fill = .ok r) :
    r = { slots := Array.replicate (capacity + 1) fill, write := 0, read := 0 } := by
  simp only [make, bind_eq_ok] at h
  obtain ⟨slots, hslots, hr⟩ := h
  rw [allocate_eq_ok hslots] at hr
  exact (Except.ok.inj hr).symm

theorem make_of_storable [Memory] {capacity : Nat} (h : Storable capacity) (fill : α) :
    ∃ r, make capacity fill = .ok r := by
  rw [make, allocate_of_storable h]
  exact ⟨_, rfl⟩

theorem make_of_not_storable [Memory] {capacity : Nat} (h : ¬ Storable capacity) (fill : α) :
    make capacity fill = .error (storageError capacity) := by
  rw [make, allocate_of_not_storable h]
  rfl

/-- A ring that was made could be stored. -/
theorem storable_of_make [Memory] {capacity : Nat} {fill : α} {r : Ring α}
    (h : make capacity fill = .ok r) : Storable capacity := by
  by_contra hnot
  rw [make_of_not_storable hnot] at h
  cases h

theorem Valid.of_make [Memory] {capacity : Nat} {fill : α} {r : Ring α}
    (h : make capacity fill = .ok r) :
    r.Valid := by
  rw [make_eq_ok h]
  constructor <;> simp

theorem capacity_of_make [Memory] {capacity : Nat} {fill : α} {r : Ring α}
    (h : make capacity fill = .ok r) : r.capacity = capacity := by
  rw [make_eq_ok h]
  simp [Ring.capacity]

theorem contents_of_make [Memory] {capacity : Nat} {fill : α} {r : Ring α}
    (h : make capacity fill = .ok r) : r.contents = [] := by
  rw [make_eq_ok h]
  simp [contents, fillCount, fillBetween_self]

theorem fillCount_of_make [Memory] {capacity : Nat} {fill : α} {r : Ring α}
    (h : make capacity fill = .ok r) : r.fillCount = 0 := by
  rw [← (Valid.of_make h).length_contents, contents_of_make h]
  rfl

/-- Every call keeps the cursors inside the storage. -/
theorem Valid.run {r : Ring α} (h : r.Valid) (c : Call α) : (c.run r).after.Valid := by
  cases c with
  | write data =>
    by_cases hfits : data.length ≤ r.availableSpace
    · simpa [Call.run, h.push_of_le hfits] using h.append data
    · simpa [Call.run, push_of_lt (Nat.lt_of_not_le hfits)] using h
  | read out =>
    by_cases hn : out.length ≤ r.fillCount
    · simpa [Call.run, h.pull_of_le hn] using h.discard out.length
    · simpa [Call.run, pull_of_lt (Nat.lt_of_not_le hn)] using h
  | clear => exact h.clear

theorem Reachable.valid {r : Ring α} (h : r.Reachable) : r.Valid := by
  induction h with
  | make h => exact Valid.of_make h
  | call c _ ih => exact ih.run c

end BlockFlow.Ring
