import BlockFlow.DoubleBuffer.Script
import BlockFlow.Proofs.DoubleBuffer.Transfers
import BlockFlow.Proofs.SharedFifo

/-!
# What goes through a double buffer

The history of a script of calls is the list of blocks that the calls store in the two lanes and
return from them, in the order in which the transfers complete, those of the calls inside a wait
in their place. A call of the outer stage may store its input and fail all the same, so its input
counts as soon as it is stored. Every other block counts when its call ends without an error.
-/

set_option autoImplicit false

namespace BlockFlow.DoubleBuffer

universe u

variable {F : Type u → Type u} {α : Type u}

/-- A block on its way through a lane. -/
inductive Passage (α : Type u) where
  | stored (lane : Lane) (block : List α)
  | fetched (lane : Lane) (block : List α)

/-- What the passage stores in a lane. -/
def Passage.into (lane : Lane) : Passage α → List α
  | stored l block => if l = lane then block else []
  | fetched .. => []

/-- What the passage fetches from a lane. -/
def Passage.outOf (lane : Lane) : Passage α → List α
  | stored .. => []
  | fetched l block => if l = lane then block else []

/-- Everything stored in a lane, in order. -/
def storedIn (lane : Lane) (history : List (Passage α)) : List α :=
  history.flatMap (Passage.into lane)

/-- Everything fetched from a lane, in order. -/
def fetchedFrom (lane : Lane) (history : List (Passage α)) : List α :=
  history.flatMap (Passage.outOf lane)

@[simp] theorem storedIn_nil (lane : Lane) : storedIn lane ([] : List (Passage α)) = [] := rfl

@[simp] theorem fetchedFrom_nil (lane : Lane) : fetchedFrom lane ([] : List (Passage α)) = [] := rfl

@[simp] theorem storedIn_append (lane : Lane) (h h' : List (Passage α)) :
    storedIn lane (h ++ h') = storedIn lane h ++ storedIn lane h' :=
  List.flatMap_append

@[simp] theorem fetchedFrom_append (lane : Lane) (h h' : List (Passage α)) :
    fetchedFrom lane (h ++ h') = fetchedFrom lane h ++ fetchedFrom lane h' :=
  List.flatMap_append

/-! ## The history of a script -/

/-- The input block that a transfer stores. -/
def inputStored : Transfer α → List (Passage α)
  | .push .input block => [.stored .input block]
  | _ => []

/-- What a call stores or returns by ending without an error, given the buffer it leaves. -/
def Call.conclusion (config : DoubleBufferConfig) : Call α → List α → List (Passage α)
  | .process _ _ frames _, buffer =>
    [.fetched .output (buffer.take (frames * config.outputChannels))]
  | .supply _ _, buffer =>
    [.fetched .input (buffer.take (config.innerSize * config.inputChannels))]
  | .deliver data _, _ => [.stored .output (data.take (config.innerSize * config.outputChannels))]
  | .provoke _ _, _ => []
  | .inspect, _ => []

section

variable [SharedFifo F]

/-- The input blocks among the transfers that `proceed` makes. -/
def inputsStored : List (Transfer α) → List α → DoubleBuffer F α → List (Passage α)
  | [], _, _ => []
  | t :: ts, out, db =>
    match db.attempt out t with
    | .done (out', db') => inputStored t ++ inputsStored ts out' db'
    | .failed _ => []
    | .blocked => []

/-- The conclusion of a call, if it ends without an error. -/
def Call.concluded (c : Call α) (db : DoubleBuffer F α) : List (Passage α) :=
  match (c.run db).outcome with
  | .ok _ => c.conclusion db.config (c.run db).buffer
  | .error _ => []

mutual

/-- The blocks that a call stores and returns, with those of the calls inside it. -/
def Call.history : Call α → DoubleBuffer F α → List (Passage α)
  | .process input out frames waits, db =>
    match db.processTransfers input out.length frames with
    | .error _ => []
    | .ok ts => historyOn waits ts out db ++ (Call.process input out frames waits).concluded db
  | .supply out waits, db =>
    match db.supplyTransfers out.length with
    | .error _ => []
    | .ok ts => historyOn waits ts out db ++ (Call.supply out waits).concluded db
  | .deliver data waits, db =>
    match db.deliverTransfers data with
    | .error _ => []
    | .ok ts => historyOn waits ts [] db ++ (Call.deliver data waits).concluded db
  | .provoke _ _, _ => []
  | .inspect, _ => []

/-- The history of a call that makes some transfers, up to its conclusion. -/
def historyOn : List (List (Call α)) → List (Transfer α) → List α → DoubleBuffer F α →
    List (Passage α)
  | [], ts, out, db => inputsStored ts out db
  | group :: waits, ts, out, db =>
    let p := db.proceed ts out
    inputsStored ts out db ++
      match p.standing with
      | .finished => []
      | .failed _ => []
      | .waiting t rest =>
        historyAll group p.after ++ historyOn waits (t :: rest) p.buffer (runAll group p.after).2

/-- The history of calls made one after the other. -/
def historyAll : List (Call α) → DoubleBuffer F α → List (Passage α)
  | [], _ => []
  | c :: cs, db => c.history db ++ historyAll cs (c.run db).after

end

end

/-! ## The account of a lane -/

section

variable [SharedFifo F] [LawfulFifo F]

/-- Both FIFOs are valid. -/
def Valid (db : DoubleBuffer F α) : Prop := ∀ lane, LawfulFifo.Valid (db.fifo lane)

/-- What a lane stores, oldest first. -/
def contents (db : DoubleBuffer F α) (lane : Lane) : List α := LawfulFifo.contents (db.fifo lane)

theorem Valid.fillCount_input {db : DoubleBuffer F α} (h : db.Valid) :
    SharedFifo.fillCount db.input = (db.contents .input).length :=
  LawfulFifo.fillCount_eq (h .input)

theorem Valid.fillCount_output {db : DoubleBuffer F α} (h : db.Valid) :
    SharedFifo.fillCount db.output = (db.contents .output).length :=
  LawfulFifo.fillCount_eq (h .output)

/-- The relation between a double buffer and what it becomes while `history` passes through it.
In each lane what was stored before and since then has been fetched or is still stored. -/
structure Passes (db : DoubleBuffer F α) (history : List (Passage α)) (db' : DoubleBuffer F α) :
    Prop where
  config : db'.config = db.config
  valid : db'.Valid
  conserved : ∀ lane, db.contents lane ++ storedIn lane history =
    fetchedFrom lane history ++ db'.contents lane

namespace Passes

variable {db db' db'' : DoubleBuffer F α}

theorem nothing (hvalid : db.Valid) : Passes db [] db where
  config := rfl
  valid := hvalid
  conserved := by
    intro lane
    rw [storedIn_nil, fetchedFrom_nil, List.append_nil, List.nil_append]

theorem append {h h' : List (Passage α)} (first : Passes db h db') (second : Passes db' h' db'') :
    Passes db (h ++ h') db'' where
  config := second.config.trans first.config
  valid := second.valid
  conserved := by
    intro lane
    rw [storedIn_append, fetchedFrom_append, ← List.append_assoc, first.conserved lane,
      List.append_assoc, second.conserved lane, List.append_assoc]

end Passes

end

end BlockFlow.DoubleBuffer
