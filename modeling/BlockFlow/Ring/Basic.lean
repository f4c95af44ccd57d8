import BlockFlow.Ring.Slots

/-!
# A ring for a single actor

The plainest FIFO: a block is written or read as a whole or not at all. The other FIFOs of the
library add sharing, waiting and tolerance to drift to the same storage.
-/

set_option autoImplicit false

namespace BlockFlow

universe u

variable {α : Type u}

/-- A FIFO of fixed capacity: its slots, the slot written next and the slot read next. -/
structure Ring (α : Type u) where
  slots : Array α
  write : Nat
  read : Nat

namespace Ring

/-- An empty ring for `capacity` elements whose slots are copies of `fill`. -/
def make [Memory] (capacity : Nat) (fill : α) : Except FifoError (Ring α) := do
  let slots ← allocate capacity fill
  return { slots, write := 0, read := 0 }

/-- Most elements the ring can hold. -/
def capacity (r : Ring α) : Nat := r.slots.size - 1

/-- Elements that can be read. -/
def fillCount (r : Ring α) : Nat := fillBetween r.write r.read r.slots.size

/-- Elements that can be written. -/
def availableSpace (r : Ring α) : Nat := r.capacity - r.fillCount

/-- Whether nothing is stored. -/
def isEmpty (r : Ring α) : Bool := r.write == r.read

/-- Appends all of `data`, in at most two runs of slots, or fails if it does not fit. -/
def push (r : Ring α) (data : List α) : Except FifoError (Ring α) :=
  if r.availableSpace < data.length then
    .error (.capacityExceeded data.length r.availableSpace)
  else
    let first := min (r.slots.size - r.write) data.length
    .ok { r with
      slots := blit (blit r.slots r.write (data.take first)) 0 (data.drop first)
      write := (r.write + data.length) % r.slots.size }

/-- Takes the oldest `n` elements, from at most two runs of slots, or fails if fewer are
stored. -/
def pull (r : Ring α) (n : Nat) : Except FifoError (List α × Ring α) :=
  if r.fillCount < n then
    .error (.insufficientData n r.fillCount)
  else
    let first := min (r.slots.size - r.read) n
    .ok (slice r.slots r.read first ++ slice r.slots 0 (n - first),
      { r with read := (r.read + n) % r.slots.size })

/-- Drops everything stored at once. -/
def clear (r : Ring α) : Ring α := { r with read := r.write }

/-- One call on a ring. A read brings the buffer that it fills. -/
inductive Call (α : Type u) where
  | write (data : List α)
  | read (out : List α)
  | clear

/-- What a call leaves behind: how it ended, the buffer of a read, and the ring. -/
structure Step (α : Type u) where
  outcome : Outcome
  buffer : List α
  after : Ring α

/-- Makes a call. A call that fails leaves the ring and the buffer as they were. -/
def Call.run : Call α → Ring α → Step α
  | .write data, r =>
    match r.push data with
    | .ok r' => ⟨.ok (), [], r'⟩
    | .error e => ⟨.error e, [], r⟩
  | .read out, r =>
    match r.pull out.length with
    | .ok (block, r') => ⟨.ok (), block, r'⟩
    | .error e => ⟨.error e, out, r⟩
  | .clear, r => ⟨.ok (), [], r.clear⟩

/-- The ring as a written record. -/
def describe (render : α → String) (r : Ring α) : String :=
  Text.record "RingBuffer"
    [("buf", "[" ++ Text.commaSeparated (r.slots.toList.map render) ++ "]"),
      ("write", toString r.write), ("read", toString r.read)]

end Ring

end BlockFlow
