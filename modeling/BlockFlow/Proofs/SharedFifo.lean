import BlockFlow.Proofs.BlockingRing.Queue
import BlockFlow.Proofs.LockFreeRing.Queue

/-!
# What the FIFOs under a double buffer have in common

`LawfulFifo` says that a FIFO stands for a list: a transfer that is done appends to that list or
takes from its front. It leaves open when a transfer is done, refused or has to wait, so that the
FIFO on which nobody waits and the one on which the parties wait for each other both satisfy it.
-/

set_option autoImplicit false

namespace BlockFlow

universe u

/-- A FIFO that stands for the list of what it stores, as long as it is valid. -/
class LawfulFifo (F : Type u → Type u) [SharedFifo F] where
  /-- What every call keeps true. -/
  Valid {α : Type u} : F α → Prop
  /-- What the FIFO stores, oldest first. -/
  contents {α : Type u} : F α → List α
  valid_make [Memory] {α : Type u} {capacity : Nat} {fill : α} {f : F α} :
    SharedFifo.make capacity fill = .ok f → Valid f
  contents_make [Memory] {α : Type u} {capacity : Nat} {fill : α} {f : F α} :
    SharedFifo.make capacity fill = .ok f → contents f = []
  fillCount_eq {α : Type u} {f : F α} :
    Valid f → SharedFifo.fillCount f = (contents f).length
  valid_tryPush {α : Type u} {f f' : F α} {data : List α} :
    Valid f → SharedFifo.tryPush f data = .done f' → Valid f'
  contents_tryPush {α : Type u} {f f' : F α} {data : List α} :
    Valid f → SharedFifo.tryPush f data = .done f' → contents f' = contents f ++ data
  valid_tryPull {α : Type u} {f f' : F α} {n : Nat} {block : List α} :
    Valid f → SharedFifo.tryPull f n = .done (block, f') → Valid f'
  contents_tryPull {α : Type u} {f f' : F α} {n : Nat} {block : List α} :
    Valid f → SharedFifo.tryPull f n = .done (block, f') → contents f = block ++ contents f'
  length_tryPull {α : Type u} {f f' : F α} {n : Nat} {block : List α} :
    Valid f → SharedFifo.tryPull f n = .done (block, f') → block.length = n
  valid_setError {α : Type u} {f : F α} (side : Side) (error : FifoError) :
    Valid f → Valid (SharedFifo.setError f side error)
  contents_setError {α : Type u} (f : F α) (side : Side) (error : FifoError) :
    contents (SharedFifo.setError f side error) = contents f

variable {α : Type u}

/-! ## Counts -/

namespace LawfulFifo

variable {F : Type u → Type u} [SharedFifo F] [LawfulFifo F] {f f' : F α}

theorem fillCount_tryPush (h : Valid f) {data : List α}
    (hdone : SharedFifo.tryPush f data = .done f') :
    SharedFifo.fillCount f' = SharedFifo.fillCount f + data.length := by
  rw [fillCount_eq (valid_tryPush h hdone), contents_tryPush h hdone, List.length_append,
    fillCount_eq h]

theorem fillCount_tryPull (h : Valid f) {n : Nat} {block : List α}
    (hdone : SharedFifo.tryPull f n = .done (block, f')) :
    SharedFifo.fillCount f = n + SharedFifo.fillCount f' := by
  rw [fillCount_eq h, contents_tryPull h hdone, List.length_append, length_tryPull h hdone,
    fillCount_eq (valid_tryPull h hdone)]

theorem fillCount_setError (h : Valid f) (side : Side) (error : FifoError) :
    SharedFifo.fillCount (SharedFifo.setError f side error) = SharedFifo.fillCount f := by
  rw [fillCount_eq (valid_setError side error h), contents_setError, fillCount_eq h]

end LawfulFifo

theorem Attempt.ofExcept_eq_done {σ : Type u} {result : Except FifoError σ} {s : σ} :
    Attempt.ofExcept result = .done s ↔ result = .ok s := by
  cases result with
  | error e =>
    constructor
    · intro hdone
      cases hdone
    · intro hok
      cases hok
  | ok t =>
    constructor
    · intro hdone
      cases hdone
      rfl
    · intro hok
      cases hok
      rfl

/-! ## The shared ring -/

instance : LawfulFifo LockFreeRing where
  Valid f := f.Quiet
  contents f := f.ring.contents
  valid_make h := by
    obtain ⟨r, hr, rfl⟩ := LockFreeRing.make_eq_ok h
    exact ⟨Ring.Valid.of_make hr, rfl, rfl⟩
  contents_make h := by
    obtain ⟨r, hr, rfl⟩ := LockFreeRing.make_eq_ok h
    exact Ring.contents_of_make hr
  fillCount_eq h := h.valid.length_contents.symm
  valid_tryPush h hdone := by
    obtain ⟨-, rfl⟩ := h.push_eq_ok (Attempt.ofExcept_eq_done.1 hdone)
    exact h.append _
  contents_tryPush h hdone := by
    obtain ⟨hfits, rfl⟩ := h.push_eq_ok (Attempt.ofExcept_eq_done.1 hdone)
    exact h.valid.contents_append hfits
  valid_tryPull h hdone := by
    obtain ⟨-, -, rfl⟩ := h.pull_eq_ok (Attempt.ofExcept_eq_done.1 hdone)
    exact h.discard _
  contents_tryPull h hdone := by
    obtain ⟨hthere, rfl, rfl⟩ := h.pull_eq_ok (Attempt.ofExcept_eq_done.1 hdone)
    rw [LockFreeRing.ring_discard, h.valid.contents_discard hthere, List.take_append_drop]
  length_tryPull h hdone := by
    obtain ⟨hthere, rfl, rfl⟩ := h.pull_eq_ok (Attempt.ofExcept_eq_done.1 hdone)
    exact h.valid.length_take_contents hthere
  valid_setError _ _ h := h
  contents_setError _ _ _ := rfl

/-! ## The blocking ring -/

instance : LawfulFifo BlockingRing where
  Valid b := b.ring.Valid
  contents b := b.ring.contents
  valid_make h := by
    obtain ⟨r, hr, rfl⟩ := BlockingRing.make_eq_ok h
    exact Ring.Valid.of_make hr
  contents_make h := by
    obtain ⟨r, hr, rfl⟩ := BlockingRing.make_eq_ok h
    exact Ring.contents_of_make hr
  fillCount_eq h := h.length_contents.symm
  valid_tryPush h hdone := by
    cases (BlockingRing.tryPush_of_le h (BlockingRing.le_of_tryPush_eq_done hdone)).symm.trans hdone
    exact h.append _
  contents_tryPush h hdone := by
    have hfits := BlockingRing.le_of_tryPush_eq_done hdone
    cases (BlockingRing.tryPush_of_le h hfits).symm.trans hdone
    exact h.contents_append hfits
  valid_tryPull h hdone := by
    cases (BlockingRing.tryPull_of_le h (BlockingRing.le_of_tryPull_eq_done hdone)).symm.trans hdone
    exact h.discard _
  contents_tryPull {α b b' n block} h hdone := by
    have hthere := BlockingRing.le_of_tryPull_eq_done hdone
    cases (BlockingRing.tryPull_of_le h hthere).symm.trans hdone
    show b.ring.contents = b.ring.contents.take n ++ (b.ring.discard n).contents
    rw [h.contents_discard hthere, List.take_append_drop]
  length_tryPull h hdone := by
    have hthere := BlockingRing.le_of_tryPull_eq_done hdone
    cases (BlockingRing.tryPull_of_le h hthere).symm.trans hdone
    exact h.length_take_contents hthere
  valid_setError {α b} side error h := by
    show (b.setError side error).ring.Valid
    rw [BlockingRing.ring_setError]
    exact h
  contents_setError b side error := by
    show (b.setError side error).ring.contents = _
    rw [BlockingRing.ring_setError]

end BlockFlow
