import BlockFlow.BlockingRing.Script
import BlockFlow.Proofs.BlockingRing.Queue

/-!
# What happens on a blocking ring, in order

A call on a blocking ring may wait, and other calls run in its waits. The notices of a script are
what happens in it, in the order in which the ring sends its signals: a party starts to wait, a
block is stored or fetched, an error is armed (`map_signal_notices`). Whatever the script, what was
stored before and since then has been fetched or is still stored, and each party is armed with the
error armed last (`Passes`, `passes_run`).
-/

set_option autoImplicit false

namespace BlockFlow.BlockingRing

universe u

variable {α : Type u}

/-- What the ring tells the parties with a signal. -/
inductive Notice (α : Type u) where
  | waits (side : Side)
  | stores (block : List α)
  | fetches (block : List α)
  | arms (side : Side) (error : FifoError)

namespace Notice

/-- The signal that tells of it. -/
def signal : Notice α → Signal
  | waits side => .waiting side
  | stores _ => .transferred .writer
  | fetches _ => .transferred .reader
  | arms _ _ => .wakeAll

/-- What is stored. -/
def stored : Notice α → List α
  | stores block => block
  | _ => []

/-- What is fetched. -/
def fetched : Notice α → List α
  | fetches block => block
  | _ => []

/-- The error that is armed for a party. -/
def errorFor (side : Side) : Notice α → Option FifoError
  | arms s error => if s = side then some error else none
  | _ => none

end Notice

/-- Everything stored, in order. -/
def storedBy (notices : List (Notice α)) : List α := notices.flatMap Notice.stored

/-- Everything fetched, in order. -/
def fetchedBy (notices : List (Notice α)) : List α := notices.flatMap Notice.fetched

/-- The errors armed for a party, in order. -/
def errorsFor (side : Side) (notices : List (Notice α)) : List FifoError :=
  notices.filterMap (Notice.errorFor side)

@[simp] theorem storedBy_append (ns ns' : List (Notice α)) :
    storedBy (ns ++ ns') = storedBy ns ++ storedBy ns' :=
  List.flatMap_append

@[simp] theorem fetchedBy_append (ns ns' : List (Notice α)) :
    fetchedBy (ns ++ ns') = fetchedBy ns ++ fetchedBy ns' :=
  List.flatMap_append

@[simp] theorem errorsFor_append (side : Side) (ns ns' : List (Notice α)) :
    errorsFor side (ns ++ ns') = errorsFor side ns ++ errorsFor side ns' :=
  List.filterMap_append

/-! ## One request -/

/-- Elements that a transfer moves. -/
def Transfer.count : Transfer α → Nat
  | write data => data.length
  | read out => out.length

/-- What a transfer that was done is told as, given the buffer it leaves. -/
def Transfer.notice : Transfer α → List α → Notice α
  | write data, _ => .stores data
  | read _, buffer => .fetches buffer

/-- There is space for what the transfer stores, or what it fetches is there. -/
def Serves (b : BlockingRing α) : Transfer α → Prop
  | .write data => data.length ≤ b.availableSpace
  | .read out => out.length ≤ b.fillCount

/-- The buffer and the ring after a transfer that was done. -/
def served (b : BlockingRing α) : Transfer α → List α × BlockingRing α
  | .write data => ([], b.append data)
  | .read out => (b.ring.contents.take out.length, b.discard out.length)

section Attempts

variable {b : BlockingRing α} {t : Transfer α}

theorem attempt_of_serves (h : b.ring.Valid) (hserves : b.Serves t) :
    t.attempt b = .done (b.served t) := by
  cases t with
  | write data =>
    rw [Transfer.attempt, tryPush_of_le h hserves]
    rfl
  | read out => exact tryPull_of_le h hserves

theorem attempt_of_capacity_lt (hlong : b.capacity < t.count) :
    t.attempt b = .failed (oversize b.capacity t.side t.count) := by
  cases t with
  | write data =>
    rw [Transfer.attempt, tryPush_of_capacity_lt hlong]
    rfl
  | read out => exact tryPull_of_capacity_lt hlong

/-- A transfer that fits but cannot be served is held up. -/
theorem attempt_of_not_serves (hle : t.count ≤ b.capacity) (hnot : ¬ b.Serves t) :
    t.attempt b = b.holdUp t.side := by
  cases t with
  | write data =>
    rw [Transfer.attempt, tryPush_of_not_le hle (Nat.lt_of_not_le hnot)]
    exact map_holdUp b .writer _
  | read out => exact tryPull_of_not_le hle (Nat.lt_of_not_le hnot)

/-- A transfer is done if and only if it can be served. -/
theorem attempt_eq_done (h : b.ring.Valid) {result : List α × BlockingRing α}
    (hdone : t.attempt b = .done result) : b.Serves t ∧ result = b.served t := by
  by_cases hserves : b.Serves t
  · rw [attempt_of_serves h hserves] at hdone
    cases hdone
    exact ⟨hserves, rfl⟩
  · by_cases hle : t.count ≤ b.capacity
    · rw [attempt_of_not_serves hle hserves] at hdone
      exact absurd hdone (holdUp_ne_done b _ _)
    · rw [attempt_of_capacity_lt (Nat.lt_of_not_le hle)] at hdone
      cases hdone

/-- A read that was done has filled its whole buffer. -/
theorem length_served (h : b.ring.Valid) (hserves : b.Serves t) :
    (b.served t).1.length = t.buffer.length := by
  cases t with
  | write data => rfl
  | read out => exact h.length_take_contents hserves

/-- A transfer waits only if it fits, cannot be served, and its party is not armed. -/
theorem attempt_eq_blocked (h : b.ring.Valid) (hblocked : t.attempt b = .blocked) :
    t.count ≤ b.capacity ∧ ¬ b.Serves t ∧ b.armed t.side = none := by
  by_cases hle : t.count ≤ b.capacity
  · by_cases hserves : b.Serves t
    · rw [attempt_of_serves h hserves] at hblocked
      cases hblocked
    · rw [attempt_of_not_serves hle hserves] at hblocked
      cases harmed : b.armed t.side with
      | none => exact ⟨hle, hserves, rfl⟩
      | some error =>
        rw [holdUp_of_armed harmed] at hblocked
        cases hblocked
  · rw [attempt_of_capacity_lt (Nat.lt_of_not_le hle)] at hblocked
    cases hblocked

end Attempts

/-! ## Notices and signals of a script -/

mutual

/-- What happens while a call is made, the calls inside its waits included. -/
def Call.notices : Call α → BlockingRing α → List (Notice α)
  | .transfer request waits, b => noticesOn request waits b
  | .setError side error, _ => [.arms side error]

/-- What happens while a transfer is made. -/
def noticesOn (request : Transfer α) : List (List (Call α)) → BlockingRing α → List (Notice α)
  | [], b =>
    match request.attempt b with
    | .done (buffer, _) => [request.notice buffer]
    | .failed _ => []
    | .blocked =>
      [.waits request.side, .arms request.side (.cancelled request.side stallReason)]
  | group :: waits, b =>
    match request.attempt b with
    | .done (buffer, _) => [request.notice buffer]
    | .failed _ => []
    | .blocked =>
      .waits request.side :: (noticesAll group b ++ noticesOn request waits (runAll group b).2)

/-- What happens while calls are made one after the other. -/
def noticesAll : List (Call α) → BlockingRing α → List (Notice α)
  | [], _ => []
  | c :: cs, b => c.notices b ++ noticesAll cs (c.run b).after

end

mutual

/-- All signals that are sent while a call is made, in order. Each group of calls inside it ran
after one of the signals by which it said that it starts to wait. -/
def Step.allSignals : Step α → List Signal
  | ⟨_, _, signals, during, _, _⟩ => signalsAround signals during

/-- The signals of a call with those of the groups that ran in its waits. -/
def signalsAround : List Signal → List (List (Step α)) → List Signal
  | signals, [] => signals
  | [], _ :: _ => []
  | s :: signals, group :: groups => s :: (signalsOf group ++ signalsAround signals groups)

/-- All signals that are sent while calls are made one after the other. -/
def signalsOf : List (Step α) → List Signal
  | [] => []
  | step :: steps => step.allSignals ++ signalsOf steps

end

theorem allSignals_afterWait (side : Side) (group : List (Step α)) (rest : Step α) :
    (Step.afterWait side group rest).allSignals =
      .waiting side :: (signalsOf group ++ rest.allSignals) := by
  cases rest
  simp only [Step.afterWait, Step.allSignals, signalsAround]

theorem signal_notice (t : Transfer α) (buffer : List α) :
    (t.notice buffer).signal = .transferred t.side := by
  cases t <;> rfl

/-- By induction over the script: the notices come in the order of the signals. -/
theorem map_signal_notices :
    (∀ (c : Call α) (b : BlockingRing α),
      (c.notices b).map Notice.signal = (c.run b).allSignals) ∧
      (∀ (request : Transfer α) (waits : List (List (Call α))) (b : BlockingRing α),
        (noticesOn request waits b).map Notice.signal =
          (transfer request waits b).allSignals) ∧
      ∀ (cs : List (Call α)) (b : BlockingRing α),
        (noticesAll cs b).map Notice.signal = signalsOf (runAll cs b).1 := by
  apply Call.run.mutual_induct
  · intro request waits b ih
    exact ih
  · intro side error b
    rfl
  -- a transfer with no group left for its waits
  · intro request b buffer b' hdone
    rw [noticesOn, transfer, hdone]
    exact congrArg (fun s => [s]) (signal_notice request buffer)
  · intro request b e hfailed
    rw [noticesOn, transfer, hfailed]
    rfl
  · intro request b hblocked
    rw [noticesOn, transfer, hblocked]
    rfl
  -- a transfer with a group for its next wait
  · intro request group waits b buffer b' hdone
    rw [noticesOn, transfer, hdone]
    exact congrArg (fun s => [s]) (signal_notice request buffer)
  · intro request group waits b e hfailed
    rw [noticesOn, transfer, hfailed]
    rfl
  · intro request group waits b hblocked inner hgroup hrest
    rw [noticesOn, transfer, hblocked]
    simp only [allSignals_afterWait, List.map_cons, List.map_append, hgroup]
    congr 2
  · intro b
    rfl
  · intro c cs b step hc hcs
    rw [noticesAll, runAll, List.map_append, hc, hcs]
    rfl

/-! ## The account of a script -/

/-- The relation between a ring and what it becomes while `notices` happen. What was stored before
and since then has been fetched or is still stored, and each party is armed with the error armed
for it last, if there was one. -/
structure Passes (b : BlockingRing α) (notices : List (Notice α)) (b' : BlockingRing α) : Prop where
  valid : b'.ring.Valid
  capacity : b'.capacity = b.capacity
  conserved : b.ring.contents ++ storedBy notices = fetchedBy notices ++ b'.ring.contents
  armed : ∀ side, b'.armed side = (errorsFor side notices).getLast?.or (b.armed side)

namespace Passes

variable {b b' b'' : BlockingRing α} {ns ns' : List (Notice α)}

theorem nothing (h : b.ring.Valid) : Passes b [] b where
  valid := h
  capacity := rfl
  conserved := by simp [storedBy, fetchedBy]
  armed := by
    intro side
    rfl

theorem append (first : Passes b ns b') (second : Passes b' ns' b'') :
    Passes b (ns ++ ns') b'' where
  valid := second.valid
  capacity := second.capacity.trans first.capacity
  conserved := by
    rw [storedBy_append, fetchedBy_append, ← List.append_assoc, first.conserved,
      List.append_assoc, second.conserved, List.append_assoc]
  armed := by
    intro side
    rw [errorsFor_append, List.getLast?_append, second.armed, first.armed, Option.or_assoc]

theorem waits (h : b.ring.Valid) (side : Side) : Passes b [.waits side] b where
  valid := h
  capacity := rfl
  conserved := by simp [storedBy, fetchedBy, Notice.stored, Notice.fetched]
  armed := by
    intro side'
    rfl

/-- An error that is armed moves nothing and takes the place of the one before. -/
theorem arms (h : b.ring.Valid) (side : Side) (error : FifoError) :
    Passes b [.arms side error] (b.setError side error) where
  valid := by
    rw [ring_setError]
    exact h
  capacity := by
    unfold BlockingRing.capacity
    rw [ring_setError]
  conserved := by simp [storedBy, fetchedBy, Notice.stored, Notice.fetched]
  armed := by
    intro side'
    cases side <;> cases side' <;> rfl

/-- A transfer that is done stores or fetches what its notice says. -/
theorem transfer (h : b.ring.Valid) {t : Transfer α} {buffer : List α}
    (hdone : t.attempt b = .done (buffer, b')) : Passes b [t.notice buffer] b' := by
  obtain ⟨hserves, hserved⟩ := attempt_eq_done h hdone
  cases t with
  | write data =>
    cases hserved
    exact
      { valid := h.append data
        capacity := capacity_append b data
        conserved := by
          have hcontents : (b.append data).ring.contents = b.ring.contents ++ data :=
            h.contents_append hserves
          simp [storedBy, fetchedBy, Transfer.notice, Notice.stored, Notice.fetched, hcontents]
        armed := by
          intro side
          cases side <;> rfl }
  | read out =>
    cases hserved
    exact
      { valid := h.discard out.length
        capacity := capacity_discard b out.length
        conserved := by
          have hcontents : (b.discard out.length).ring.contents =
              b.ring.contents.drop out.length := h.contents_discard hserves
          simp [storedBy, fetchedBy, Transfer.notice, Notice.stored, Notice.fetched, hcontents]
        armed := by
          intro side
          cases side <;> rfl }

end Passes

/-- By induction over the script: every call keeps the account of the ring. -/
theorem passes_run :
    (∀ (c : Call α) (b : BlockingRing α), b.ring.Valid → Passes b (c.notices b) (c.run b).after) ∧
      (∀ (request : Transfer α) (waits : List (List (Call α))) (b : BlockingRing α),
        b.ring.Valid → Passes b (noticesOn request waits b) (transfer request waits b).after) ∧
      ∀ (cs : List (Call α)) (b : BlockingRing α),
        b.ring.Valid → Passes b (noticesAll cs b) (runAll cs b).2 := by
  apply Call.run.mutual_induct
  · intro request waits b ih
    exact ih
  · intro side error b h
    exact .arms h side error
  · intro request b buffer b' hdone h
    rw [noticesOn, transfer, hdone]
    exact .transfer h hdone
  · intro request b e hfailed h
    rw [noticesOn, transfer, hfailed]
    exact .nothing h
  -- a wait for which no group is left arms a cancellation
  · intro request b hblocked h
    rw [noticesOn, transfer, hblocked]
    exact (Passes.waits h request.side).append (.arms h request.side _)
  · intro request group waits b buffer b' hdone h
    rw [noticesOn, transfer, hdone]
    exact .transfer h hdone
  · intro request group waits b e hfailed h
    rw [noticesOn, transfer, hfailed]
    exact .nothing h
  -- the group in a wait passes the ring on to the rest of the transfer
  · intro request group waits b hblocked inner hgroup hrest h
    have hinside := hgroup h
    rw [noticesOn, transfer, hblocked]
    exact (Passes.waits h request.side).append (hinside.append (hrest hinside.valid))
  · intro b h
    exact .nothing h
  · intro c cs b step hc hcs h
    have hfirst := hc h
    rw [noticesAll, runAll]
    exact hfirst.append (hcs hfirst.valid)

end BlockFlow.BlockingRing
