import BlockFlow.Proofs.Ring.Queue

/-!
# Calls on a ring and on a bounded queue

`Call.onQueue` says what a call gets from a queue that holds at most so many elements: it is served
as a whole or refused with the numbers that tell why. A ring answers as the queue that it stores,
call after call (`Valid.view_run`, `Valid.views_eq`), and what a call has no business with stays as
it was (`Spares`). `refines_queue` puts this together for every run on a new ring.
-/

set_option autoImplicit false

namespace BlockFlow.Ring

universe u

variable {α : Type u}

/-! ## Bounded queues -/

/-- What a call on a queue leaves behind: how it ended, the buffer of a read, and the queue. -/
structure QueueStep (α : Type u) where
  outcome : Outcome
  buffer : List α
  after : List α

/-- Makes a call on a queue that holds at most `capacity` elements. -/
def Call.onQueue (capacity : Nat) (queue : List α) : Call α → QueueStep α
  | .write data =>
    if data.length ≤ capacity - queue.length then
      { outcome := .ok (), buffer := [], after := queue ++ data }
    else
      { outcome := .error (.capacityExceeded data.length (capacity - queue.length)), buffer := []
        after := queue }
  | .read out =>
    if out.length ≤ queue.length then
      { outcome := .ok (), buffer := queue.take out.length, after := queue.drop out.length }
    else
      { outcome := .error (.insufficientData out.length queue.length), buffer := out
        after := queue }
  | .clear => { outcome := .ok (), buffer := [], after := [] }

/-- Makes calls on a queue one after the other. -/
def onQueueAll (capacity : Nat) : List (Call α) → List α → List (QueueStep α)
  | [], _ => []
  | c :: cs, queue =>
    let step := c.onQueue capacity queue
    step :: onQueueAll capacity cs step.after

/-! ## Runs of a ring -/

/-- What is seen of a step: of the ring, only what it stores. -/
def Step.view (s : Step α) : QueueStep α :=
  { outcome := s.outcome, buffer := s.buffer, after := s.after.contents }

/-- What is seen of calls made one after the other. -/
def views : List (Call α) → Ring α → List (QueueStep α)
  | [], _ => []
  | c :: cs, r => (c.run r).view :: views cs (c.run r).after

/-- The ring after some calls. -/
def after : List (Call α) → Ring α → Ring α
  | [], r => r
  | c :: cs, r => after cs (c.run r).after

/-- The numbers that a ring reports fit what it stores. -/
structure Counts (capacity : Nat) (r : Ring α) : Prop where
  capacity_eq : r.capacity = capacity
  fillCount_eq : r.fillCount = r.contents.length
  fillCount_le : r.fillCount ≤ capacity
  fillCount_add_availableSpace : r.fillCount + r.availableSpace = capacity
  isEmpty_iff : r.isEmpty = true ↔ r.fillCount = 0
  write_lt : r.write < r.slots.size
  read_lt : r.read < r.slots.size
  /-- The elements lie one after the other from the read cursor on, around the storage. -/
  getElem?_contents : ∀ k < r.fillCount,
    r.contents[k]? = r.slots[(r.read + k) % r.slots.size]?

/-- What a call leaves as it was. -/
structure Spares (c : Call α) (r : Ring α) : Prop where
  of_error : ∀ e, (c.run r).outcome = .error e → (c.run r).after = r
  /-- Reads and clears change no slot. -/
  slots_eq : (∀ data, c ≠ .write data) → (c.run r).after.slots = r.slots
  /-- No call changes a slot with an element that is not read. -/
  unread_eq : ∀ k < r.fillCount, (c.run r).after.slots[(r.read + k) % r.slots.size]? =
    r.slots[(r.read + k) % r.slots.size]?

section Calls

variable {r : Ring α}

theorem Valid.run_write_of_le (h : r.Valid) {data : List α}
    (hfits : data.length ≤ r.availableSpace) :
    (Call.write data).run r = { outcome := .ok (), buffer := [], after := r.append data } := by
  rw [Call.run, h.push_of_le hfits]

theorem run_write_of_lt {data : List α} (hlong : r.availableSpace < data.length) :
    (Call.write data).run r =
      { outcome := .error (.capacityExceeded data.length r.availableSpace), buffer := []
        after := r } := by
  rw [Call.run, push_of_lt hlong]

theorem Valid.run_read_of_le (h : r.Valid) {out : List α} (hn : out.length ≤ r.fillCount) :
    (Call.read out).run r =
      { outcome := .ok (), buffer := r.contents.take out.length
        after := r.discard out.length } := by
  rw [Call.run, h.pull_of_le hn]

theorem run_read_of_lt {out : List α} (hlong : r.fillCount < out.length) :
    (Call.read out).run r =
      { outcome := .error (.insufficientData out.length r.fillCount), buffer := out
        after := r } := by
  rw [Call.run, pull_of_lt hlong]

theorem Valid.capacity_run (h : r.Valid) (c : Call α) :
    (c.run r).after.capacity = r.capacity := by
  cases c with
  | write data =>
    by_cases hfits : data.length ≤ r.availableSpace
    · rw [h.run_write_of_le hfits, capacity_append]
    · rw [run_write_of_lt (Nat.lt_of_not_le hfits)]
  | read out =>
    by_cases hn : out.length ≤ r.fillCount
    · rw [h.run_read_of_le hn, capacity_discard]
    · rw [run_read_of_lt (Nat.lt_of_not_le hn)]
  | clear => rfl

/-- A ring answers a call as the queue that it stores. -/
theorem Valid.view_run (h : r.Valid) (c : Call α) :
    (c.run r).view = c.onQueue r.capacity r.contents := by
  have hspace : r.availableSpace = r.capacity - r.contents.length := by
    rw [h.length_contents, availableSpace]
  cases c with
  | write data =>
    rw [Call.onQueue, ← hspace]
    by_cases hfits : data.length ≤ r.availableSpace
    · rw [if_pos hfits, h.run_write_of_le hfits, Step.view, h.contents_append hfits]
    · rw [if_neg hfits, run_write_of_lt (Nat.lt_of_not_le hfits), Step.view]
  | read out =>
    rw [Call.onQueue, h.length_contents]
    by_cases hn : out.length ≤ r.fillCount
    · rw [if_pos hn, h.run_read_of_le hn, Step.view, h.contents_discard hn]
    · rw [if_neg hn, run_read_of_lt (Nat.lt_of_not_le hn), Step.view]
  | clear => rw [Call.onQueue, Call.run, Step.view, contents_clear]

/-- By induction over the calls: a ring answers them all as the queue that it stores. -/
theorem Valid.views_eq (h : r.Valid) (calls : List (Call α)) :
    views calls r = onQueueAll r.capacity calls r.contents := by
  induction calls generalizing r with
  | nil => rfl
  | cons c cs ih =>
    have hview := h.view_run c
    have hrest := ih (h.run c)
    have hafter : (c.run r).after.contents = (c.onQueue r.capacity r.contents).after :=
      congrArg QueueStep.after hview
    rw [h.capacity_run c, hafter] at hrest
    rw [views, onQueueAll, hview, hrest]

theorem Valid.after (h : r.Valid) (calls : List (Call α)) :
    (Ring.after calls r).Valid ∧ (Ring.after calls r).capacity = r.capacity := by
  induction calls generalizing r with
  | nil => exact ⟨h, rfl⟩
  | cons c cs ih =>
    obtain ⟨hvalid, hcapacity⟩ := ih (h.run c)
    exact ⟨hvalid, hcapacity.trans (h.capacity_run c)⟩

end Calls

/-! ## What a call leaves alone -/

section Spared

variable {r : Ring α} {c : Call α}

/-- A call that changes no slot, and nothing at all if it fails. -/
theorem Spares.of_slots_eq (hslots : (c.run r).after.slots = r.slots)
    (herror : ∀ e, (c.run r).outcome = .error e → (c.run r).after = r) : Spares c r where
  of_error := herror
  slots_eq _ := hslots
  unread_eq _ _ := by rw [hslots]

/-- The elements that are stored stay where they are while a block is appended. -/
theorem Valid.getElem?_slots_append (h : r.Valid) {data : List α}
    (hfits : data.length ≤ r.availableSpace) {k : Nat} (hk : k < r.fillCount) :
    (r.append data).slots[(r.read + k) % r.slots.size]? =
      r.slots[(r.read + k) % r.slots.size]? := by
  have hfill := h.fillCount_append hfits
  have hmore : k < (r.append data).fillCount := by omega
  have hsize : (r.append data).slots.size = r.slots.size := size_append ..
  -- both are element `k` of what the ring stores
  have hnew : (r.append data).contents[k]? =
      (r.append data).slots[(r.read + k) % r.slots.size]? := by
    rw [contents, getElem?_window (hsize.symm ▸ h.size_pos) hmore, hsize, read_append]
  have hold : r.contents[k]? = r.slots[(r.read + k) % r.slots.size]? :=
    getElem?_window h.size_pos hk
  rw [← hnew, ← hold, h.contents_append hfits, List.getElem?_append_left]
  rw [h.length_contents]
  exact hk

theorem Valid.spares (h : r.Valid) (c : Call α) : Spares c r := by
  cases c with
  | write data =>
    by_cases hfits : data.length ≤ r.availableSpace
    · have hrun := h.run_write_of_le hfits
      refine ⟨fun e he => ?_, fun hother => absurd rfl (hother data), fun k hk => ?_⟩
      · rw [hrun] at he
        cases he
      · rw [hrun]
        exact h.getElem?_slots_append hfits hk
    · have hrun := run_write_of_lt (Nat.lt_of_not_le hfits)
      apply Spares.of_slots_eq
      · rw [hrun]
      · intro e _
        rw [hrun]
  | read out =>
    by_cases hn : out.length ≤ r.fillCount
    · have hrun := h.run_read_of_le hn
      apply Spares.of_slots_eq
      · rw [hrun]
        rfl
      · intro e he
        rw [hrun] at he
        cases he
    · have hrun := run_read_of_lt (Nat.lt_of_not_le hn)
      apply Spares.of_slots_eq
      · rw [hrun]
      · intro e _
        rw [hrun]
  | clear => exact Spares.of_slots_eq rfl nofun

/-- The cursors meet only where nothing is stored. -/
theorem Valid.isEmpty_iff (h : r.Valid) : r.isEmpty = true ↔ r.fillCount = 0 := by
  have hwrite := h.write_lt
  have hread := h.read_lt
  rw [isEmpty, beq_iff_eq, fillCount, fillBetween]
  split <;> omega

theorem Valid.counts (h : r.Valid) : Counts r.capacity r where
  capacity_eq := rfl
  fillCount_eq := h.length_contents.symm
  fillCount_le := h.fillCount_le
  fillCount_add_availableSpace := h.fillCount_add_availableSpace
  isEmpty_iff := h.isEmpty_iff
  write_lt := h.write_lt
  read_lt := h.read_lt
  getElem?_contents _ hk := getElem?_window h.size_pos hk

end Spared

/-- A new ring answers any calls as a queue that holds at most `capacity` elements. After them its
counts fit what it stores, and the next call spares what it has no business with: all of the ring
if it fails, the slots if it is no write, and in any case the slots that are not read yet. -/
theorem refines_queue [Memory] {capacity : Nat} {fill : α} {r : Ring α}
    (hmake : make capacity fill = .ok r) (calls : List (Call α)) :
    views calls r = onQueueAll capacity calls [] ∧ Counts capacity (after calls r) ∧
      ∀ c, Spares c (after calls r) := by
  have hvalid := Valid.of_make hmake
  obtain ⟨hafter, hcapacity⟩ := hvalid.after calls
  rw [capacity_of_make hmake] at hcapacity
  refine ⟨?_, hcapacity ▸ hafter.counts, hafter.spares⟩
  rw [hvalid.views_eq, capacity_of_make hmake, contents_of_make hmake]

/-- Blocks that go around the end of a ring for two elements, with a write and a read that are
refused. -/
theorem refines_queue_around :
    let r : Ring Nat := { slots := #[0, 0, 0], write := 0, read := 0 }
    let calls : List (Call Nat) :=
      [.write [1, 2], .read [9], .write [3, 4], .write [3], .read [9, 9, 9], .read [9, 9], .clear]
    make 2 0 = .ok r ∧ views calls r = onQueueAll 2 calls [] ∧
      onQueueAll 2 calls [] =
        [⟨.ok (), [], [1, 2]⟩, ⟨.ok (), [1], [2]⟩, ⟨.error (.capacityExceeded 2 1), [], [2]⟩,
          ⟨.ok (), [], [2, 3]⟩, ⟨.error (.insufficientData 3 2), [9, 9, 9], [2, 3]⟩,
          ⟨.ok (), [2, 3], []⟩, ⟨.ok (), [], []⟩] := by
  intro r calls
  have hmake : make 2 0 = .ok r := rfl
  exact ⟨hmake, (refines_queue hmake calls).1, rfl⟩

end BlockFlow.Ring
