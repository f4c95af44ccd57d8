import BlockFlow.Proofs.LockFreeRing.Sequential
import BlockFlow.Proofs.Ring.Refinement

/-!
# A shared ring beside the ring that it shares

A plain ring copies in two runs of slots and finds its next cursor by a remainder; a shared ring
copies slot by slot and compares each cursor with the end of the storage. As long as the calls are
made one after the other the two cannot be told apart: every call ends alike, with the same buffer,
and leaves the same counts, slots and cursors (`run_ofRing` for one call, `sights_ofRing` for all
that follow the moment in which a ring is shared).
-/

set_option autoImplicit false

namespace BlockFlow

universe u

variable {α : Type u}

/-- A write or a read that nothing overlaps. A read brings the buffer that it fills. -/
inductive SoloCall (α : Type u) where
  | write (data : List α)
  | read (out : List α)

namespace SoloCall

/-- The call made on a plain ring. -/
def onRing : SoloCall α → Ring.Call α
  | write data => .write data
  | read out => .read out

/-- The call made on a shared ring. -/
def onShared : SoloCall α → LockFreeRing.Call α
  | write data => .write data []
  | read out => .read out []

end SoloCall

/-- All that can be seen of a call and of the ring that it leaves behind. -/
structure Sight (α : Type u) where
  outcome : Outcome
  buffer : List α
  fillCount : Nat
  availableSpace : Nat
  capacity : Nat
  slots : Array α
  write : Nat
  read : Nat

namespace Ring

/-- What is seen of a step of a plain ring. -/
def Step.sight (s : Step α) : Sight α :=
  { outcome := s.outcome
    buffer := s.buffer
    fillCount := s.after.fillCount
    availableSpace := s.after.availableSpace
    capacity := s.after.capacity
    slots := s.after.slots
    write := s.after.write
    read := s.after.read }

/-- What is seen of calls made on a plain ring one after the other. -/
def sights : List (SoloCall α) → Ring α → List (Sight α)
  | [], _ => []
  | c :: cs, r => (c.onRing.run r).sight :: sights cs (c.onRing.run r).after

end Ring

namespace LockFreeRing

/-- What is seen of a step of a shared ring. -/
def Step.sight (s : Step α) : Sight α :=
  { outcome := s.outcome
    buffer := s.buffer
    fillCount := s.after.fillCount
    availableSpace := s.after.availableSpace
    capacity := s.after.capacity
    slots := s.after.slots
    write := s.after.write
    read := s.after.read }

/-- What is seen of calls made on a shared ring one after the other. -/
def sights : List (SoloCall α) → LockFreeRing α → List (Sight α)
  | [], _ => []
  | c :: cs, f => (c.onShared.run f).sight :: sights cs (c.onShared.run f).after

/-- A step of a shared ring ends as a step of a plain one and leaves that ring shared, with no
claim taken. -/
structure Step.Alike (s : Step α) (t : Ring.Step α) : Prop where
  outcome : s.outcome = t.outcome
  buffer : s.buffer = t.buffer
  after : s.after = ofRing t.after

/-- Steps that are alike are seen alike: the counts of a shared ring are those of the ring that it
shares. -/
theorem Step.Alike.sight {s : Step α} {t : Ring.Step α} (h : s.Alike t) : s.sight = t.sight := by
  obtain ⟨outcome, buffer, during, after⟩ := s
  obtain ⟨rfl, rfl, rfl⟩ := h
  rfl

/-! ## One call -/

section Call

variable {r : Ring α}

/-- A block that fits is stored by either ring in the same slots. -/
theorem alike_write_of_le (hr : r.Valid) {data : List α} (hfits : data.length ≤ r.availableSpace) :
    ((Call.write data []).run (ofRing r)).Alike ((Ring.Call.write data).run r) := by
  have hclaim : (ofRing r).claimWriter data.length = .ok { ofRing r with writerBusy := true } :=
    claimWriter_of_le rfl hfits
  have hvalid : ({ ofRing r with writerBusy := true } : LockFreeRing α).ring.Valid := hr
  have hfinish : ({ ofRing r with writerBusy := true } : LockFreeRing α).finishWrite r.write data =
      ofRing (r.append data) := finishWrite_eq hvalid data
  rw [hr.run_write_of_le hfits]
  cases data with
  | nil =>
    rw [run_write_nil hclaim]
    exact ⟨rfl, rfl, hfinish⟩
  | cons x xs =>
    rw [run_write_cons hclaim]
    exact ⟨rfl, rfl, hfinish⟩

/-- Elements that are there are copied from the same slots. -/
theorem alike_read_of_le (hr : r.Valid) {out : List α} (hn : out.length ≤ r.fillCount) :
    ((Call.read out []).run (ofRing r)).Alike ((Ring.Call.read out).run r) := by
  have hclaim : (ofRing r).claimReader out.length = .ok { ofRing r with readerBusy := true } :=
    claimReader_of_le rfl hn
  have hvalid : ({ ofRing r with readerBusy := true } : LockFreeRing α).ring.Valid := hr
  have hfinish : ({ ofRing r with readerBusy := true } : LockFreeRing α).finishRead r.read
      out.length = (r.contents.take out.length, ofRing (r.discard out.length)) := by
    have hwindow : window r.slots r.read out.length = r.contents.take out.length :=
      window_eq_take hvalid hn
    rw [← hwindow]
    exact finishRead_eq hvalid out.length
  rw [hr.run_read_of_le hn]
  cases out with
  | nil =>
    rw [run_read_nil hclaim]
    exact ⟨rfl, rfl, congrArg Prod.snd hfinish⟩
  | cons x xs =>
    rw [run_read_cons hclaim]
    exact ⟨rfl, congrArg Prod.fst hfinish, congrArg Prod.snd hfinish⟩

/-- A call on a shared ring is a call on the ring that it shares, also if it is refused. -/
theorem run_ofRing (hr : r.Valid) (c : SoloCall α) :
    (c.onShared.run (ofRing r)).Alike (c.onRing.run r) := by
  cases c with
  | write data =>
    by_cases hfits : data.length ≤ r.availableSpace
    · exact alike_write_of_le hr hfits
    · have hlong := Nat.lt_of_not_le hfits
      have hclaim : (ofRing r).claimWriter data.length =
          .error (.capacityExceeded data.length r.availableSpace, ofRing r) :=
        claimWriter_of_lt rfl hlong
      show ((Call.write data []).run _).Alike ((Ring.Call.write data).run r)
      rw [run_write_refused hclaim, Ring.run_write_of_lt hlong]
      exact ⟨rfl, rfl, rfl⟩
  | read out =>
    by_cases hn : out.length ≤ r.fillCount
    · exact alike_read_of_le hr hn
    · have hlong := Nat.lt_of_not_le hn
      have hclaim : (ofRing r).claimReader out.length =
          .error (.insufficientData out.length r.fillCount, ofRing r) :=
        claimReader_of_lt rfl hlong
      show ((Call.read out []).run _).Alike ((Ring.Call.read out).run r)
      rw [run_read_refused hclaim, Ring.run_read_of_lt hlong]
      exact ⟨rfl, rfl, rfl⟩

end Call

/-! ## Runs -/

/-- Call after call, a shared ring is seen as the ring that it shares. -/
theorem sights_of_valid {r : Ring α} (hr : r.Valid) (calls : List (SoloCall α)) :
    sights calls (ofRing r) = Ring.sights calls r := by
  induction calls generalizing r with
  | nil => rfl
  | cons c cs ih =>
    have hstep := run_ofRing hr c
    rw [sights, Ring.sights, hstep.sight, hstep.after, ih (hr.run c.onRing)]

/-- Whatever was done with a plain ring before it is shared, whole and refused calls made one after
the other from then on end alike on the shared ring and on the plain one. They have the same
outcomes and errors and fill the same buffers, and after each of them the counts, the capacity, the
slots and the cursors are the same. -/
theorem sights_ofRing [Memory] {capacity : Nat} {fill : α} {r : Ring α}
    (hmake : Ring.make capacity fill = .ok r) (before : List (Ring.Call α))
    (calls : List (SoloCall α)) :
    sights calls (ofRing (Ring.after before r)) = Ring.sights calls (Ring.after before r) :=
  sights_of_valid ((Ring.Valid.of_make hmake).after before).1 calls

/-- A full ring for two elements, with a write cursor that has gone around. -/
def goneAround : Ring Nat := { slots := #[1, 2, 3], write := 0, read := 1 }

/-- Calls that reach the end of the storage and cross it. Two of them are refused. -/
def pastTheEnd : List (SoloCall Nat) :=
  [.write [4], .read [9], .write [4], .read [9, 9, 9], .read [9, 9]]

/-- A ring that is shared after it has gone around. -/
theorem sights_ofRing_around :
    Ring.make 2 0 = .ok { slots := #[0, 0, 0], write := 0, read := 0 } ∧
      Ring.after [.write [1, 2], .read [9], .write [3]]
        { slots := #[0, 0, 0], write := 0, read := 0 } = goneAround ∧
      sights pastTheEnd (ofRing goneAround) = Ring.sights pastTheEnd goneAround ∧
      sights pastTheEnd (ofRing goneAround) =
        [⟨.error (.capacityExceeded 1 0), [], 2, 0, 2, #[1, 2, 3], 0, 1⟩,
          ⟨.ok (), [2], 1, 1, 2, #[1, 2, 3], 0, 2⟩,
          ⟨.ok (), [], 2, 0, 2, #[4, 2, 3], 1, 2⟩,
          ⟨.error (.insufficientData 3 2), [9, 9, 9], 2, 0, 2, #[4, 2, 3], 1, 2⟩,
          ⟨.ok (), [3, 4], 0, 2, 2, #[4, 2, 3], 1, 1⟩] := by
  have hmake : Ring.make 2 0 = .ok { slots := #[0, 0, 0], write := 0, read := 0 } := rfl
  have hafter : Ring.after [.write [1, 2], .read [9], .write [3]]
      { slots := #[0, 0, 0], write := 0, read := 0 } = goneAround := rfl
  have hsights := sights_ofRing hmake [.write [1, 2], .read [9], .write [3]] pastTheEnd
  rw [hafter] at hsights
  exact ⟨hmake, hafter, hsights, rfl⟩

end LockFreeRing

end BlockFlow
