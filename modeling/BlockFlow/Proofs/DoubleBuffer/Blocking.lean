import BlockFlow.Proofs.BlockingRing.Queue
import BlockFlow.Proofs.DoubleBuffer.Transfers

/-!
# Transfers on blocking FIFOs

On a double buffer with blocking FIFOs and no stage told to fail, a transfer is made if it is
possible (`Possible`) and otherwise waits. Two transfers that do not belong to the same side of
the same FIFO do not disturb each other: made in either order, they move the same samples and
leave the same double buffer (`Possible.after`, `performed_comm`). As long as all transfers on a
lane are of whole frames, so is what its FIFO stores (`Ready.frames_push`, `Ready.frames_pull`).
-/

set_option autoImplicit false

namespace BlockFlow.DoubleBuffer

universe u

variable {α : Type u}

/-- No stage was told to fail, and the cursors of both FIFOs are inside their storage. -/
structure Ready (db : DoubleBuffer BlockingRing α) : Prop where
  valid : ∀ lane, (db.fifo lane).ring.Valid
  readerUnarmed : ∀ lane, (db.fifo lane).readerError = none
  writerUnarmed : ∀ lane, (db.fifo lane).writerError = none
  innerUntold : db.innerError = none
  outerUntold : db.outerError = none

/-- There is space for what the transfer stores, or what it fetches is there. -/
def Possible (db : DoubleBuffer BlockingRing α) : Transfer α → Prop
  | .push lane block => block.length ≤ (db.fifo lane).availableSpace
  | .pull lane n => n ≤ (db.fifo lane).fillCount

/-- What a transfer makes of its FIFO. -/
def onFifo : Transfer α → BlockingRing α → BlockingRing α
  | .push _ block, b => b.append block
  | .pull _ n, b => b.discard n

/-- The double buffer after a transfer. -/
def performed (db : DoubleBuffer BlockingRing α) (t : Transfer α) : DoubleBuffer BlockingRing α :=
  db.setFifo (onFifo t (db.fifo t.lane)) t.lane

/-- The buffer of a call after a transfer. -/
def filled (db : DoubleBuffer BlockingRing α) (out : List α) : Transfer α → List α
  | .push _ _ => out
  | .pull lane n => (db.fifo lane).ring.contents.take n ++ out.drop n

/-- Samples that the transfer moves. -/
def count : Transfer α → Nat
  | .push _ block => block.length
  | .pull _ n => n

section Attempts

variable {db : DoubleBuffer BlockingRing α} {t : Transfer α}

/-- A transfer that is possible is made, whatever anybody is armed with. -/
theorem attempt_of_possible (hvalid : ∀ lane, (db.fifo lane).ring.Valid)
    (hpossible : db.Possible t) (out : List α) :
    db.attempt out t = .done (db.filled out t, db.performed t) := by
  cases t with
  | push lane block =>
    have hpush : SharedFifo.tryPush (db.fifo lane) block =
        .done ((db.fifo lane).append block) :=
      BlockingRing.tryPush_of_le (hvalid lane) hpossible
    rw [attempt, hpush]
    rfl
  | pull lane n =>
    have hpull : SharedFifo.tryPull (db.fifo lane) n =
        .done ((db.fifo lane).ring.contents.take n, (db.fifo lane).discard n) :=
      BlockingRing.tryPull_of_le (hvalid lane) hpossible
    have hlength : ((db.fifo lane).ring.contents.take n).length = n :=
      (hvalid lane).length_take_contents hpossible
    rw [attempt, hpull]
    show Attempt.done (_ ++ out.drop ((db.fifo lane).ring.contents.take n).length, _) = _
    rw [hlength]
    rfl

/-- Only a transfer that is possible is made. -/
theorem possible_of_attempt_eq_done {out : List α}
    {result : List α × DoubleBuffer BlockingRing α} (hdone : db.attempt out t = .done result) :
    db.Possible t := by
  cases t with
  | push lane block =>
    cases hpush : SharedFifo.tryPush (db.fifo lane) block with
    | done f => exact BlockingRing.le_of_tryPush_eq_done hpush
    | failed e =>
      rw [attempt, hpush] at hdone
      cases hdone
    | blocked =>
      rw [attempt, hpush] at hdone
      cases hdone
  | pull lane n =>
    cases hpull : SharedFifo.tryPull (db.fifo lane) n with
    | done taken => exact BlockingRing.le_of_tryPull_eq_done hpull
    | failed e =>
      rw [attempt, hpull] at hdone
      cases hdone
    | blocked =>
      rw [attempt, hpull] at hdone
      cases hdone

/-- A transfer that is not possible is held up, unless it is larger than the FIFO. -/
theorem attempt_of_not_possible (hnot : ¬ db.Possible t)
    (hcount : count t ≤ (db.fifo t.lane).capacity) (out : List α) :
    db.attempt out t = (db.fifo t.lane).holdUp t.side := by
  cases t with
  | push lane block =>
    have hpush : SharedFifo.tryPush (db.fifo lane) block = (db.fifo lane).holdUp .writer :=
      BlockingRing.tryPush_of_not_le hcount (Nat.lt_of_not_le hnot)
    rw [attempt, hpush]
    exact BlockingRing.map_holdUp ..
  | pull lane n =>
    have hpull : SharedFifo.tryPull (db.fifo lane) n = (db.fifo lane).holdUp .reader :=
      BlockingRing.tryPull_of_not_le hcount (Nat.lt_of_not_le hnot)
    rw [attempt, hpull]
    exact BlockingRing.map_holdUp ..

/-- A transfer that is possible is made. -/
theorem Ready.attempt_of_possible (h : db.Ready) (hpossible : db.Possible t) (out : List α) :
    db.attempt out t = .done (db.filled out t, db.performed t) :=
  DoubleBuffer.attempt_of_possible h.valid hpossible out

/-- A transfer that is not possible waits, unless it is larger than the FIFO. -/
theorem Ready.attempt_of_not_possible (h : db.Ready) (hnot : ¬ db.Possible t)
    (hcount : count t ≤ (db.fifo t.lane).capacity) (out : List α) :
    db.attempt out t = .blocked := by
  rw [DoubleBuffer.attempt_of_not_possible hnot hcount]
  cases t with
  | push lane block => exact BlockingRing.holdUp_of_unarmed (h.writerUnarmed lane)
  | pull lane n => exact BlockingRing.holdUp_of_unarmed (h.readerUnarmed lane)

end Attempts

/-! ## One transfer -/

section Performed

variable (db : DoubleBuffer BlockingRing α) (t : Transfer α)

@[simp] theorem config_performed : (db.performed t).config = db.config := config_setFifo ..

@[simp] theorem innerError_performed : (db.performed t).innerError = db.innerError :=
  innerError_setFifo ..

@[simp] theorem outerError_performed : (db.performed t).outerError = db.outerError :=
  outerError_setFifo ..

theorem fifo_performed_self : (db.performed t).fifo t.lane = onFifo t (db.fifo t.lane) :=
  fifo_setFifo_self ..

@[simp] theorem fifo_performed_push (lane : Lane) (block : List α) :
    (db.performed (.push lane block)).fifo lane = (db.fifo lane).append block :=
  fifo_setFifo_self ..

@[simp] theorem fifo_performed_pull (lane : Lane) (n : Nat) :
    (db.performed (.pull lane n)).fifo lane = (db.fifo lane).discard n :=
  fifo_setFifo_self ..

theorem fifo_performed_of_ne {lane : Lane} (hne : t.lane ≠ lane) :
    (db.performed t).fifo lane = db.fifo lane :=
  fifo_setFifo_of_ne db _ hne

variable {db t}

/-- What is true of every FIFO and kept by the transfer is true of every FIFO after it. -/
theorem forall_fifo_performed {p : BlockingRing α → Prop} (h : ∀ lane, p (db.fifo lane))
    (hkept : ∀ b, p b → p (onFifo t b)) (lane : Lane) : p ((db.performed t).fifo lane) := by
  by_cases heq : t.lane = lane
  · subst heq
    rw [fifo_performed_self]
    exact hkept _ (h t.lane)
  · rw [fifo_performed_of_ne db t heq]
    exact h lane

theorem valid_onFifo {b : BlockingRing α} (h : b.ring.Valid) : (onFifo t b).ring.Valid := by
  cases t with
  | push lane block => exact h.append block
  | pull lane n => exact h.discard n

@[simp] theorem capacity_onFifo (t : Transfer α) (b : BlockingRing α) :
    (onFifo t b).capacity = b.capacity := by
  cases t with
  | push lane block => exact b.capacity_append block
  | pull lane n => exact b.capacity_discard n

@[simp] theorem readerError_onFifo (t : Transfer α) (b : BlockingRing α) :
    (onFifo t b).readerError = b.readerError := by
  cases t <;> rfl

@[simp] theorem writerError_onFifo (t : Transfer α) (b : BlockingRing α) :
    (onFifo t b).writerError = b.writerError := by
  cases t <;> rfl

theorem armed_onFifo (t : Transfer α) (b : BlockingRing α) (side : Side) :
    (onFifo t b).armed side = b.armed side := by
  cases side
  · exact readerError_onFifo t b
  · exact writerError_onFifo t b

theorem Ready.performed (h : db.Ready) (t : Transfer α) : (db.performed t).Ready where
  valid := forall_fifo_performed (p := fun b => b.ring.Valid) h.valid fun _ hb => valid_onFifo hb
  readerUnarmed := forall_fifo_performed (p := fun b => b.readerError = none) h.readerUnarmed
    fun b hb => (readerError_onFifo t b).trans hb
  writerUnarmed := forall_fifo_performed (p := fun b => b.writerError = none) h.writerUnarmed
    fun b hb => (writerError_onFifo t b).trans hb
  innerUntold := (innerError_performed db t).trans h.innerUntold
  outerUntold := (outerError_performed db t).trans h.outerUntold

@[simp] theorem capacity_performed (db : DoubleBuffer BlockingRing α) (t : Transfer α)
    (lane : Lane) : ((db.performed t).fifo lane).capacity = (db.fifo lane).capacity := by
  by_cases heq : t.lane = lane
  · subst heq
    rw [fifo_performed_self, capacity_onFifo]
  · rw [fifo_performed_of_ne db t heq]

theorem Ready.fillCount_push (h : db.Ready) {lane : Lane} {block : List α}
    (hblock : db.Possible (.push lane block)) :
    ((db.performed (.push lane block)).fifo lane).fillCount =
      (db.fifo lane).fillCount + block.length := by
  rw [fifo_performed_push]
  exact (h.valid lane).fillCount_append hblock

theorem Ready.fillCount_pull (h : db.Ready) {lane : Lane} {n : Nat}
    (hn : db.Possible (.pull lane n)) :
    ((db.performed (.pull lane n)).fifo lane).fillCount = (db.fifo lane).fillCount - n := by
  rw [fifo_performed_pull]
  exact (h.valid lane).fillCount_discard hn

theorem Ready.fillCount_add_availableSpace (h : db.Ready) (lane : Lane) :
    (db.fifo lane).fillCount + (db.fifo lane).availableSpace = (db.fifo lane).capacity :=
  (h.valid lane).fillCount_add_availableSpace

end Performed

/-! ## Transfers of whole frames -/

section Frames

variable {db : DoubleBuffer BlockingRing α} {lane : Lane} {block : List α}
  {n size channels frames : Nat}

/-- There is space for a block as long as the FIFO has room for its frames. -/
theorem Ready.possible_push_of_frames (h : db.Ready)
    (hfill : (db.fifo lane).fillCount = n * channels)
    (hcapacity : (db.fifo lane).capacity = size * channels)
    (hblock : block.length = frames * channels) (hfits : n + frames ≤ size) :
    db.Possible (.push lane block) := by
  have hsum := h.fillCount_add_availableSpace lane
  have hscaled := Nat.mul_le_mul_right channels hfits
  rw [Nat.add_mul] at hscaled
  show block.length ≤ (db.fifo lane).availableSpace
  omega

theorem possible_pull_of_frames (hfill : (db.fifo lane).fillCount = n * channels)
    (hthere : frames ≤ n) : db.Possible (.pull lane (frames * channels)) := by
  show frames * channels ≤ (db.fifo lane).fillCount
  rw [hfill]
  exact Nat.mul_le_mul_right channels hthere

/-- Only frames that are there are fetched. -/
theorem frames_le_of_possible_pull (hpossible : db.Possible (.pull lane (frames * channels)))
    (hfill : (db.fifo lane).fillCount = n * channels) (hchannels : 0 < channels) :
    frames ≤ n := by
  have hthere : frames * channels ≤ (db.fifo lane).fillCount := hpossible
  rw [hfill] at hthere
  exact Nat.le_of_mul_le_mul_right hthere hchannels

theorem Ready.frames_push (h : db.Ready) (hfill : (db.fifo lane).fillCount = n * channels)
    (hblock : block.length = frames * channels) (hpossible : db.Possible (.push lane block)) :
    ((db.performed (.push lane block)).fifo lane).fillCount = (n + frames) * channels := by
  rw [h.fillCount_push hpossible, hfill, hblock, Nat.add_mul]

theorem Ready.frames_pull (h : db.Ready) (hfill : (db.fifo lane).fillCount = n * channels)
    (hpossible : db.Possible (.pull lane (frames * channels))) :
    ((db.performed (.pull lane (frames * channels))).fifo lane).fillCount =
      (n - frames) * channels := by
  rw [h.fillCount_pull hpossible, hfill, Nat.sub_mul]

/-- A transfer leaves the frames of the other lane alone. -/
theorem frames_of_ne {t : Transfer α} (hfill : (db.fifo lane).fillCount = n * channels)
    (hne : t.lane ≠ lane) : ((db.performed t).fifo lane).fillCount = n * channels := by
  rw [fifo_performed_of_ne db t hne]
  exact hfill

end Frames

/-! ## Two transfers -/

/-- The transfers belong to different FIFOs, or to different sides of one. -/
def Apart (t u : Transfer α) : Prop := t.lane ≠ u.lane ∨ t.side ≠ u.side

theorem Apart.symm {t u : Transfer α} (h : Apart t u) : Apart u t := h.imp Ne.symm Ne.symm

section Apart

variable {db : DoubleBuffer BlockingRing α} {t u : Transfer α}

theorem possible_congr {db' : DoubleBuffer BlockingRing α} (h : db'.fifo t.lane = db.fifo t.lane) :
    db'.Possible t ↔ db.Possible t := by
  cases t with
  | push lane block =>
    show block.length ≤ (db'.fifo lane).availableSpace ↔
      block.length ≤ (db.fifo lane).availableSpace
    rw [show db'.fifo lane = db.fifo lane from h]
  | pull lane n =>
    show n ≤ (db'.fifo lane).fillCount ↔ n ≤ (db.fifo lane).fillCount
    rw [show db'.fifo lane = db.fifo lane from h]

/-- A write leaves what a read on the same FIFO asks for where it was. -/
theorem possible_pull_after_push (h : db.Ready) {lane : Lane} {block : List α} {n : Nat}
    (hblock : db.Possible (.push lane block)) (hn : db.Possible (.pull lane n)) :
    (db.performed (.push lane block)).Possible (.pull lane n) := by
  rw [Possible, fifo_performed_push]
  exact BlockingRing.le_fillCount_append (h.valid lane) hblock hn

/-- A read gives a write on the same FIFO more space. -/
theorem possible_push_after_pull (h : db.Ready) {lane : Lane} {block : List α} {n : Nat}
    (hn : db.Possible (.pull lane n)) (hblock : db.Possible (.push lane block)) :
    (db.performed (.pull lane n)).Possible (.push lane block) := by
  rw [Possible, fifo_performed_pull]
  exact BlockingRing.le_availableSpace_discard (h.valid lane) hn hblock

/-- A transfer stays possible while another one is made. -/
theorem Possible.after (hu : db.Possible u) (h : db.Ready) (ht : db.Possible t)
    (hapart : Apart t u) : (db.performed t).Possible u := by
  by_cases hlane : t.lane = u.lane
  · rcases hapart with hne | hside
    · exact absurd hlane hne
    -- on one FIFO the two are a write and a read, in either order
    rcases t with ⟨lane, block⟩ | ⟨lane, n⟩ <;> rcases u with ⟨lane', block'⟩ | ⟨lane', n'⟩
    · exact absurd rfl hside
    · obtain rfl : lane = lane' := hlane
      exact possible_pull_after_push h ht hu
    · obtain rfl : lane = lane' := hlane
      exact possible_push_after_pull h ht hu
    · exact absurd rfl hside
  · exact (possible_congr (fifo_performed_of_ne db t hlane)).2 hu

/-- A transfer moves the same samples after another one. -/
theorem filled_performed (h : db.Ready) (ht : db.Possible t) (hu : db.Possible u)
    (hapart : Apart t u) (out : List α) : (db.performed t).filled out u = db.filled out u := by
  rcases u with ⟨lane, block⟩ | ⟨lane, n⟩
  · rfl
  by_cases hlane : t.lane = lane
  · subst hlane
    rcases hapart with hne | hside
    · exact absurd rfl hne
    rcases t with ⟨lane, block⟩ | ⟨lane, n'⟩
    · -- a write appends, so the front stays as it is
      have hfront := BlockingRing.take_contents_append (h.valid lane) ht hu
      show ((db.performed (.push lane block)).fifo lane).ring.contents.take n ++ out.drop n = _
      rw [fifo_performed_push, hfront]
      rfl
    · exact absurd rfl hside
  · show ((db.performed t).fifo lane).ring.contents.take n ++ _ = _
    rw [fifo_performed_of_ne db t hlane]
    rfl

/-- The sides of one FIFO change different parts of it. -/
theorem onFifo_comm (hside : t.side ≠ u.side) (b : BlockingRing α) :
    onFifo u (onFifo t b) = onFifo t (onFifo u b) := by
  rcases t with ⟨lane, block⟩ | ⟨lane, n⟩ <;> rcases u with ⟨lane', block'⟩ | ⟨lane', n'⟩
  · exact absurd rfl hside
  · exact b.append_discard block n'
  · exact (b.append_discard block' n).symm
  · exact absurd rfl hside

/-- In either order two transfers leave the same double buffer. -/
theorem performed_comm (hapart : Apart t u) :
    (db.performed t).performed u = (db.performed u).performed t := by
  by_cases hlane : t.lane = u.lane
  · rcases hapart with hne | hside
    · exact absurd hlane hne
    simp only [performed, hlane, fifo_setFifo_self, setFifo_setFifo_self, onFifo_comm hside]
  · simp only [performed]
    rw [fifo_setFifo_of_ne _ _ hlane, fifo_setFifo_of_ne _ _ (Ne.symm hlane),
      setFifo_comm _ _ _ hlane]

end Apart

end BlockFlow.DoubleBuffer
