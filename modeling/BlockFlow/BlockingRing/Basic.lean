import BlockFlow.SharedFifo

/-!
# A ring on which the parties wait

A write that does not fit waits for the reader, a read that cannot be served waits for the
writer. A party can be armed with an error, which it raises whenever it would have to wait.
-/

set_option autoImplicit false

namespace BlockFlow

universe u

variable {α : Type u}

/-- A ring with the error armed for each party. -/
structure BlockingRing (α : Type u) where
  ring : Ring α
  readerError : Option FifoError
  writerError : Option FifoError

namespace BlockingRing

/-- An empty ring for `capacity` elements, its slots copies of `fill`, and nobody armed. -/
def make [Memory] (capacity : Nat) (fill : α) : Except FifoError (BlockingRing α) := do
  let ring ← Ring.make capacity fill
  return { ring, readerError := none, writerError := none }

/-- Most elements the ring can hold. -/
def capacity (b : BlockingRing α) : Nat := b.ring.capacity

/-- Elements that can be read. -/
def fillCount (b : BlockingRing α) : Nat := b.ring.fillCount

/-- Elements that can be written. -/
def availableSpace (b : BlockingRing α) : Nat := b.ring.availableSpace

/-- The error armed for a party. -/
def armed (b : BlockingRing α) : Side → Option FifoError
  | .reader => b.readerError
  | .writer => b.writerError

/-- Arms an error for a party. It replaces the one armed before. -/
def setError (b : BlockingRing α) (side : Side) (error : FifoError) : BlockingRing α :=
  match side with
  | .reader => { b with readerError := some error }
  | .writer => { b with writerError := some error }

/-- What a party does that cannot be served: it raises the error it is armed with, or waits. -/
def holdUp {σ : Type u} (b : BlockingRing α) (side : Side) : Attempt σ :=
  match b.armed side with
  | some e => .failed e.duplicate
  | none => .blocked

/-- Asks for all of `data` to be appended. A block larger than the ring could never fit and is
refused. -/
def tryPush (b : BlockingRing α) (data : List α) : Attempt (BlockingRing α) :=
  if b.capacity < data.length then
    .failed (.config
      s!"write of {data.length} elements can never fit a FIFO of {b.capacity}")
  else if b.availableSpace < data.length then
    b.holdUp .writer
  else
    (Attempt.ofExcept (b.ring.push data)).map fun ring => { b with ring }

/-- Asks for the oldest `n` elements. A read of more than the ring can hold could never be
served and is refused. -/
def tryPull (b : BlockingRing α) (n : Nat) : Attempt (List α × BlockingRing α) :=
  if b.capacity < n then
    .failed (.config s!"read of {n} elements can never be served by a FIFO of {b.capacity}")
  else if b.fillCount < n then
    b.holdUp .reader
  else
    (Attempt.ofExcept (b.ring.pull n)).map fun taken => (taken.1, { b with ring := taken.2 })

instance : SharedFifo BlockingRing where
  blocking := true
  make := BlockingRing.make
  tryPush := BlockingRing.tryPush
  tryPull := BlockingRing.tryPull
  fillCount := BlockingRing.fillCount
  availableSpace := BlockingRing.availableSpace
  setError := BlockingRing.setError

end BlockingRing

end BlockFlow
