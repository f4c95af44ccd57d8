import BlockFlow.LockFreeRing.Basic

/-!
# Calls that overlap on a shared ring

A call is in progress from its claim to the release of the claim, and other calls may run to
completion at the moment it copies its first element. Each of them may in turn have calls
inside it, so a call is a tree.
-/

set_option autoImplicit false

namespace BlockFlow.LockFreeRing

universe u

variable {α : Type u}

/-- A call with the calls that run while it is in progress. A read brings the buffer that it
fills. -/
inductive Call (α : Type u) where
  | write (data : List α) (during : List (Call α))
  | read (out : List α) (during : List (Call α))
  /-- Looks at the ring and changes nothing. -/
  | inspect

/-- What a call leaves behind: how it ended, the buffer of a read, the steps of the calls inside
it, if it got as far as copying an element, and the ring. -/
structure Step (α : Type u) where
  outcome : Outcome
  buffer : List α
  during : Option (List (Step α))
  after : LockFreeRing α

mutual

/-- Makes a call. A call that copies nothing, because it is refused or empty, never runs the
calls inside it. -/
def Call.run : Call α → LockFreeRing α → Step α
  | .write data during, f =>
    match f.claimWriter data.length with
    | .error (e, left) => ⟨.error e, [], none, left⟩
    | .ok claimed =>
      match data with
      | [] => ⟨.ok (), [], none, claimed.finishWrite f.write []⟩
      | x :: xs =>
        let inner := runAll during claimed
        ⟨.ok (), [], some inner.1, inner.2.finishWrite f.write (x :: xs)⟩
  | .read out during, f =>
    match f.claimReader out.length with
    | .error (e, left) => ⟨.error e, out, none, left⟩
    | .ok claimed =>
      match out with
      | [] => ⟨.ok (), [], none, (claimed.finishRead f.read 0).2⟩
      | x :: xs =>
        let inner := runAll during claimed
        let taken := inner.2.finishRead f.read (x :: xs).length
        ⟨.ok (), taken.1, some inner.1, taken.2⟩
  | .inspect, f => ⟨.ok (), [], none, f⟩

/-- Makes calls one after the other; the steps and the ring at the end. -/
def runAll : List (Call α) → LockFreeRing α → List (Step α) × LockFreeRing α
  | [], f => ([], f)
  | c :: cs, f =>
    let step := c.run f
    let rest := runAll cs step.after
    (step :: rest.1, rest.2)

end

end BlockFlow.LockFreeRing
