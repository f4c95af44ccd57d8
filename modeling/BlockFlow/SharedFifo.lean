import BlockFlow.LockFreeRing.Basic

/-!
# FIFOs shared by a writer and a reader

What a double buffer needs of the FIFOs under it. A transfer is asked for with `tryPush` or
`tryPull` and is either done, or refused, or has to wait; only a blocking FIFO ever makes a
party wait, sends signals and can be armed with an error.
-/

set_option autoImplicit false

namespace BlockFlow

universe u

/-- The answer to a request for a transfer. -/
inductive Attempt (σ : Type u) where
  /-- The transfer took place. -/
  | done (result : σ)
  /-- The transfer did not take place and the call fails. -/
  | failed (error : FifoError)
  /-- The transfer cannot take place yet. -/
  | blocked

namespace Attempt

variable {σ τ : Type u}

/-- Changes the result of a transfer that took place. -/
def map (f : σ → τ) : Attempt σ → Attempt τ
  | done s => done (f s)
  | failed e => failed e
  | blocked => blocked

/-- The answer of a FIFO on which nobody ever waits. -/
def ofExcept : Except FifoError σ → Attempt σ
  | .ok s => done s
  | .error e => failed e

end Attempt

/-- What a blocking FIFO tells the two parties through its condition variables. -/
inductive Signal where
  /-- The writer starts to wait for space. -/
  | waitForDecrease
  /-- The reader starts to wait for data. -/
  | waitForIncrease
  /-- The writer has stored a block. -/
  | increment
  /-- The reader has taken a block. -/
  | decrement
  /-- Everyone who waits is to look again. -/
  | wakeAll
  deriving DecidableEq, Repr

namespace Signal

/-- The name of the signal. -/
def name : Signal → String
  | waitForDecrease => "wait_for_decrease"
  | waitForIncrease => "wait_for_increase"
  | increment => "increment"
  | decrement => "decrement"
  | wakeAll => "wake_all"

/-- The signal by which a party says that it starts to wait. -/
def waiting : Side → Signal
  | .writer => waitForDecrease
  | .reader => waitForIncrease

/-- The signal by which a party says that it made a transfer. -/
def transferred : Side → Signal
  | .writer => increment
  | .reader => decrement

end Signal

/-- A FIFO between one writer and one reader. -/
class SharedFifo (F : Type u → Type u) where
  /-- Whether a transfer that cannot take place waits instead of failing. -/
  blocking : Bool
  /-- An empty FIFO for `capacity` elements, its slots filled with copies of an element. -/
  make {α : Type u} [Memory] (capacity : Nat) (fill : α) : Except FifoError (F α)
  /-- Asks for all of a block to be appended. -/
  tryPush {α : Type u} (f : F α) (data : List α) : Attempt (F α)
  /-- Asks for the oldest `n` elements. -/
  tryPull {α : Type u} (f : F α) (n : Nat) : Attempt (List α × F α)
  /-- Elements that can be read. -/
  fillCount {α : Type u} (f : F α) : Nat
  /-- Elements that can be written. -/
  availableSpace {α : Type u} (f : F α) : Nat
  /-- Arms the error that a party raises instead of waiting. A FIFO on which nobody waits has
  no use for it. -/
  setError {α : Type u} (f : F α) (side : Side) (error : FifoError) : F α

instance : SharedFifo LockFreeRing where
  blocking := false
  make := LockFreeRing.make
  tryPush f data := .ofExcept (f.push data)
  tryPull f n := .ofExcept (f.pull n)
  fillCount := LockFreeRing.fillCount
  availableSpace := LockFreeRing.availableSpace
  setError f _ _ := f

end BlockFlow
