import BlockFlow.Proofs.SharedFifo

/-!
# What the FIFOs under a double buffer can hold

`BoundedFifo` says that a FIFO has a capacity that no call changes, which what is stored and the
space left add up to, and that a block for which there is space is always stored. Like `LawfulFifo`,
both kinds of FIFO satisfy it.
-/

set_option autoImplicit false

namespace BlockFlow

universe u

/-- A FIFO of fixed capacity. -/
class BoundedFifo (F : Type u → Type u) [SharedFifo F] [LawfulFifo F] where
  /-- Most elements the FIFO can hold. -/
  capacity {α : Type u} : F α → Nat
  capacity_make [Memory] {α : Type u} {n : Nat} {fill : α} {f : F α} :
    SharedFifo.make n fill = .ok f → capacity f = n
  fillCount_add_availableSpace {α : Type u} {f : F α} :
    LawfulFifo.Valid f → SharedFifo.fillCount f + SharedFifo.availableSpace f = capacity f
  capacity_tryPush {α : Type u} {f f' : F α} {data : List α} :
    LawfulFifo.Valid f → SharedFifo.tryPush f data = .done f' → capacity f' = capacity f
  capacity_tryPull {α : Type u} {f f' : F α} {n : Nat} {block : List α} :
    LawfulFifo.Valid f → SharedFifo.tryPull f n = .done (block, f') → capacity f' = capacity f
  capacity_setError {α : Type u} (f : F α) (side : Side) (error : FifoError) :
    capacity (SharedFifo.setError f side error) = capacity f
  tryPush_of_le {α : Type u} {f : F α} {data : List α} :
    LawfulFifo.Valid f → data.length ≤ SharedFifo.availableSpace f →
      ∃ f', SharedFifo.tryPush f data = .done f'

/-- A new FIFO has space for as many elements as it was made for. -/
theorem BoundedFifo.availableSpace_make [Memory] {F : Type u → Type u} [SharedFifo F] [LawfulFifo F]
    [BoundedFifo F] {α : Type u} {n : Nat} {fill : α} {f : F α}
    (h : SharedFifo.make n fill = .ok f) : SharedFifo.availableSpace f = n := by
  have hvalid := LawfulFifo.valid_make h
  have hsum := fillCount_add_availableSpace hvalid
  rwa [LawfulFifo.fillCount_eq hvalid, LawfulFifo.contents_make h, List.length_nil, Nat.zero_add,
    capacity_make h] at hsum

instance : BoundedFifo LockFreeRing where
  capacity f := f.capacity
  capacity_make h := by
    obtain ⟨r, hr, rfl⟩ := LockFreeRing.make_eq_ok h
    exact Ring.capacity_of_make hr
  fillCount_add_availableSpace h := h.valid.fillCount_add_availableSpace
  capacity_tryPush {α f f' data} h hdone := by
    obtain ⟨-, rfl⟩ := h.push_eq_ok (Attempt.ofExcept_eq_done.1 hdone)
    exact Ring.capacity_append f.ring data
  capacity_tryPull h hdone := by
    obtain ⟨-, -, rfl⟩ := h.pull_eq_ok (Attempt.ofExcept_eq_done.1 hdone)
    rfl
  capacity_setError _ _ _ := rfl
  tryPush_of_le h hfits :=
    ⟨_, Attempt.ofExcept_eq_done.2 (LockFreeRing.push_of_le h.valid h.writerFree hfits)⟩

instance : BoundedFifo BlockingRing where
  capacity b := b.capacity
  capacity_make h := by
    obtain ⟨r, hr, rfl⟩ := BlockingRing.make_eq_ok h
    exact Ring.capacity_of_make hr
  fillCount_add_availableSpace h := h.fillCount_add_availableSpace
  capacity_tryPush h hdone := by
    cases (BlockingRing.tryPush_of_le h (BlockingRing.le_of_tryPush_eq_done hdone)).symm.trans hdone
    exact BlockingRing.capacity_append ..
  capacity_tryPull h hdone := by
    cases (BlockingRing.tryPull_of_le h (BlockingRing.le_of_tryPull_eq_done hdone)).symm.trans hdone
    exact BlockingRing.capacity_discard ..
  capacity_setError b side error := by
    unfold BlockingRing.capacity
    exact congrArg Ring.capacity (BlockingRing.ring_setError b side error)
  tryPush_of_le h hfits := ⟨_, BlockingRing.tryPush_of_le h hfits⟩

end BlockFlow
