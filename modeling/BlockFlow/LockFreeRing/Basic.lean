import BlockFlow.Ring.Basic

/-!
# A ring shared by one writer and one reader

The writer and the reader use the ring at the same time. Each owns one cursor and publishes it
after its copy; each claims its side for the duration of a call, so that a second call on the
same side is refused instead of racing.
-/

set_option autoImplicit false

namespace BlockFlow

universe u

variable {α : Type u}

/-- The shared ring: slots, the published cursors, and whether a call is in progress on each
side. -/
structure LockFreeRing (α : Type u) where
  slots : Array α
  write : Nat
  read : Nat
  writerBusy : Bool
  readerBusy : Bool

namespace LockFreeRing

/-- Shares a ring, with its contents and cursors. -/
def ofRing (r : Ring α) : LockFreeRing α :=
  { slots := r.slots, write := r.write, read := r.read, writerBusy := false, readerBusy := false }

/-- An empty shared ring for `capacity` elements whose slots are copies of `fill`. -/
def make [Memory] (capacity : Nat) (fill : α) : Except FifoError (LockFreeRing α) :=
  (Ring.make capacity fill).map ofRing

/-- Most elements the ring can hold. -/
def capacity (f : LockFreeRing α) : Nat := f.slots.size - 1

/-- Elements that can be read, by the published cursors. -/
def fillCount (f : LockFreeRing α) : Nat := fillBetween f.write f.read f.slots.size

/-- Elements that can be written, by the published cursors. -/
def availableSpace (f : LockFreeRing α) : Nat := f.capacity - f.fillCount

/-- The refusal of a call on a side where another call is in progress. -/
def concurrentUse (side : Side) : FifoError :=
  .config s!"concurrent {side.name} on a single-{side.name} FIFO"

/-- Whether the claim on a side is taken. -/
def isClaimed (f : LockFreeRing α) : Side → Bool
  | .writer => f.writerBusy
  | .reader => f.readerBusy

/-- Sets the flag that stands for the claim on a side. -/
def setClaimed (f : LockFreeRing α) (side : Side) (claimed : Bool) : LockFreeRing α :=
  match side with
  | .writer => { f with writerBusy := claimed }
  | .reader => { f with readerBusy := claimed }

/-- Gives the claim on a side back. -/
def giveBack (f : LockFreeRing α) (side : Side) : LockFreeRing α := f.setClaimed side false

/-- The part of a call before its copy. If it refuses the call, it leaves a ring behind as well. -/
abbrev Opening (α : Type u) := Except (FifoError × LockFreeRing α) (LockFreeRing α)

/-- Takes the claim on a side: sets its flag, and refuses the call if another one had set it. -/
def takeClaim (f : LockFreeRing α) (side : Side) : Opening α :=
  let claimed := f.setClaimed side true
  if f.isClaimed side then .error (concurrentUse side, claimed) else .ok claimed

/-- Starts a write of `n` elements: takes the claim of the writer and checks the space. If there is
too little of it, the claim is given back. -/
def claimWriter (f : LockFreeRing α) (n : Nat) : Opening α :=
  match f.takeClaim .writer with
  | .error refused => .error refused
  | .ok claimed =>
    if claimed.availableSpace < n then
      .error (.capacityExceeded n claimed.availableSpace, claimed.giveBack .writer)
    else
      .ok claimed

/-- Starts a read of `n` elements: takes the claim of the reader and checks the fill count. If too
little is there, the claim is given back. -/
def claimReader (f : LockFreeRing α) (n : Nat) : Opening α :=
  match f.takeClaim .reader with
  | .error refused => .error refused
  | .ok claimed =>
    if claimed.fillCount < n then
      .error (.insufficientData n claimed.fillCount, claimed.giveBack .reader)
    else
      .ok claimed

/-- Finishes a write that started at slot `start`: copies, publishes the cursor and gives the
claim back. -/
def finishWrite (f : LockFreeRing α) (start : Nat) (data : List α) : LockFreeRing α :=
  let copied := copyIn f.slots start data
  giveBack { f with slots := copied.1, write := copied.2 } .writer

/-- Finishes a read of `n` elements that started at slot `start`. -/
def finishRead (f : LockFreeRing α) (start n : Nat) : List α × LockFreeRing α :=
  let copied := copyOut f.slots start n
  (copied.1, giveBack { f with read := copied.2 } .reader)

/-- Appends all of `data`, or fails if the reader has not released enough space. -/
def push (f : LockFreeRing α) (data : List α) : Except FifoError (LockFreeRing α) :=
  match f.claimWriter data.length with
  | .error (e, _) => .error e
  | .ok claimed => .ok (claimed.finishWrite f.write data)

/-- Takes the oldest `n` elements, or fails if the writer has not published enough. -/
def pull (f : LockFreeRing α) (n : Nat) : Except FifoError (List α × LockFreeRing α) :=
  match f.claimReader n with
  | .error (e, _) => .error e
  | .ok claimed => .ok (claimed.finishRead f.read n)

/-- The ring as a written record, without its contents. -/
def describe (f : LockFreeRing α) : String :=
  Text.openRecord "LockFreeRingBuffer"
    [("max_fill_count", toString f.capacity), ("write", toString f.write),
      ("read", toString f.read)]

end LockFreeRing

end BlockFlow
