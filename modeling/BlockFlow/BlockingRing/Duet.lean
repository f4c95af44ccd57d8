import BlockFlow.BlockingRing.Basic

/-!
# One writer and one reader at work

A writer with a list of blocks and a reader with a list of buffers share a blocking ring. Either
party moves when its next call is served or refused; `Duet.run` lets them move until both wait or
are finished.
-/

set_option autoImplicit false

namespace BlockFlow

universe u

variable {α : Type u}

/-- Two parties on one ring: the calls each has still to make and the calls each has made. -/
structure Duet (α : Type u) where
  ring : BlockingRing α
  writes : List (List α)
  reads : List (List α)
  written : List Outcome
  taken : List (Outcome × List α)

namespace Duet

/-- Both parties before their first call. -/
def start (ring : BlockingRing α) (writes reads : List (List α)) : Duet α :=
  { ring, writes, reads, written := [], taken := [] }

/-- The writer's next call, unless it is finished or has to wait. -/
def writerMove? (d : Duet α) : Option (Duet α) :=
  match d.writes with
  | [] => none
  | data :: writes =>
    match d.ring.tryPush data with
    | .done ring => some { d with ring, writes, written := d.written ++ [.ok ()] }
    | .failed e => some { d with writes, written := d.written ++ [.error e] }
    | .blocked => none

/-- The reader's next call, unless it is finished or has to wait. -/
def readerMove? (d : Duet α) : Option (Duet α) :=
  match d.reads with
  | [] => none
  | out :: reads =>
    match d.ring.tryPull out.length with
    | .done (block, ring) => some { d with ring, reads, taken := d.taken ++ [(.ok (), block)] }
    | .failed e => some { d with reads, taken := d.taken ++ [(.error e, out)] }
    | .blocked => none

/-- Calls not made yet. -/
def pending (d : Duet α) : Nat := d.writes.length + d.reads.length

/-- At most `n` moves, the writer's before the reader's. -/
def runFor : Nat → Duet α → Duet α
  | 0, d => d
  | n + 1, d =>
    match d.writerMove? with
    | some d' => runFor n d'
    | none =>
      match d.readerMove? with
      | some d' => runFor n d'
      | none => d

/-- Lets both parties move until neither can. Every move makes one pending call. -/
def run (d : Duet α) : Duet α := runFor d.pending d

end Duet

end BlockFlow
