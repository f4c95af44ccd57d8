import BlockFlow.DoubleBuffer.Basic
import Mathlib.Tactic.Common

/-!
# The transfers of a call on a double buffer

When a call of a stage is let through, and which transfers it then makes. The two FIFOs do not
interfere: replacing one leaves the other alone. No transfer changes what a stage was told.
-/

set_option autoImplicit false

namespace BlockFlow

universe u

theorem Attempt.exists_of_map_eq_done {σ τ : Type u} {g : σ → τ} {a : Attempt σ} {result : τ}
    (hdone : a.map g = .done result) : ∃ s, a = .done s ∧ g s = result := by
  cases a with
  | done s => exact ⟨s, rfl, Attempt.done.inj hdone⟩
  | failed e => cases hdone
  | blocked => cases hdone

/-! ## Lanes -/

/-- Samples in a frame of a lane. -/
def DoubleBufferConfig.channels (config : DoubleBufferConfig) : Lane → Nat
  | .input => config.inputChannels
  | .output => config.outputChannels

namespace DoubleBuffer

variable {F : Type u → Type u} {α : Type u}

@[simp] theorem fifo_setFifo_self (db : DoubleBuffer F α) (f : F α) (lane : Lane) :
    (db.setFifo f lane).fifo lane = f := by
  cases lane <;> rfl

theorem fifo_setFifo_of_ne (db : DoubleBuffer F α) (f : F α) {lane lane' : Lane}
    (hne : lane ≠ lane') : (db.setFifo f lane).fifo lane' = db.fifo lane' := by
  cases lane <;> cases lane' <;> first | rfl | exact absurd rfl hne

@[simp] theorem config_setFifo (db : DoubleBuffer F α) (f : F α) (lane : Lane) :
    (db.setFifo f lane).config = db.config := by
  cases lane <;> rfl

@[simp] theorem fifoSize_setFifo (db : DoubleBuffer F α) (f : F α) (lane : Lane) :
    (db.setFifo f lane).fifoSize = db.fifoSize := by
  cases lane <;> rfl

@[simp] theorem innerError_setFifo (db : DoubleBuffer F α) (f : F α) (lane : Lane) :
    (db.setFifo f lane).innerError = db.innerError := by
  cases lane <;> rfl

@[simp] theorem outerError_setFifo (db : DoubleBuffer F α) (f : F α) (lane : Lane) :
    (db.setFifo f lane).outerError = db.outerError := by
  cases lane <;> rfl

@[simp] theorem setFifo_setFifo_self (db : DoubleBuffer F α) (f g : F α) (lane : Lane) :
    (db.setFifo f lane).setFifo g lane = db.setFifo g lane := by
  cases lane <;> rfl

theorem setFifo_comm (db : DoubleBuffer F α) (f g : F α) {lane lane' : Lane} (hne : lane ≠ lane') :
    (db.setFifo f lane).setFifo g lane' = (db.setFifo g lane').setFifo f lane := by
  cases lane <;> cases lane' <;> first | rfl | exact absurd rfl hne

theorem fifo_provoke [SharedFifo F] (db : DoubleBuffer F α) (stage : Stage) (error : FifoError)
    (lane : Lane) :
    ∃ side, (db.provoke stage error).fifo lane =
      SharedFifo.setError (db.fifo lane) side error.duplicate := by
  cases stage <;> cases lane <;> exact ⟨_, rfl⟩

/-! ## Transfers in order -/

section Proceed

variable [SharedFifo F] {db : DoubleBuffer F α} {t : Transfer α} {out : List α}

/-- A push that is made changes the FIFO of its lane, and no buffer. -/
theorem attempt_push_eq_done {db' : DoubleBuffer F α} {out' : List α} {lane : Lane}
    {block : List α} (hdone : db.attempt out (.push lane block) = .done (out', db')) :
    ∃ f, SharedFifo.tryPush (db.fifo lane) block = .done f ∧ out' = out ∧
      db' = db.setFifo f lane := by
  obtain ⟨f, hpush, heq⟩ := Attempt.exists_of_map_eq_done hdone
  cases heq
  exact ⟨f, hpush, rfl, rfl⟩

/-- A pull that is made changes the FIFO of its lane, and fills the front of the buffer. -/
theorem attempt_pull_eq_done {db' : DoubleBuffer F α} {out' : List α} {lane : Lane} {n : Nat}
    (hdone : db.attempt out (.pull lane n) = .done (out', db')) :
    ∃ block f, SharedFifo.tryPull (db.fifo lane) n = .done (block, f) ∧
      out' = block ++ out.drop block.length ∧ db' = db.setFifo f lane := by
  obtain ⟨⟨block, f⟩, hpull, heq⟩ := Attempt.exists_of_map_eq_done hdone
  cases heq
  exact ⟨block, f, hpull, rfl, rfl⟩

/-- A transfer changes the FIFO of its lane and nothing else. -/
theorem exists_setFifo_of_attempt {db' : DoubleBuffer F α} {out' : List α}
    (hdone : db.attempt out t = .done (out', db')) : ∃ f, db' = db.setFifo f t.lane := by
  cases t with
  | push lane block =>
    obtain ⟨f, -, -, hafter⟩ := attempt_push_eq_done hdone
    exact ⟨f, hafter⟩
  | pull lane n =>
    obtain ⟨block, f, -, -, hafter⟩ := attempt_pull_eq_done hdone
    exact ⟨f, hafter⟩

theorem stageError_of_attempt {db' : DoubleBuffer F α} {out' : List α}
    (hdone : db.attempt out t = .done (out', db')) : db'.stageError = db.stageError := by
  obtain ⟨f, rfl⟩ := exists_setFifo_of_attempt hdone
  funext stage
  cases stage <;> cases t.lane <;> rfl

theorem proceed_of_failed {e : FifoError} (hfailed : db.attempt out t = .failed e)
    (ts : List (Transfer α)) :
    db.proceed (t :: ts) out =
      { standing := .failed e, buffer := out, signals := [], after := db } := by
  rw [proceed, hfailed]

/-- Transfers tell nobody anything. -/
theorem stageError_proceed (ts : List (Transfer α)) (out : List α) :
    (db.proceed ts out).after.stageError = db.stageError := by
  induction ts generalizing db out with
  | nil => rfl
  | cons t ts ih =>
    rw [proceed]
    cases hattempt : db.attempt out t with
    | done result =>
      obtain ⟨out', db'⟩ := result
      exact (ih out').trans (stageError_of_attempt hattempt)
    | failed e => rfl
    | blocked => rfl

/-- The transfer that waits and those after it are the end of those of the call. -/
theorem suffix_of_waiting {ts rest : List (Transfer α)}
    (hstanding : (db.proceed ts out).standing = .waiting t rest) : t :: rest <:+ ts := by
  induction ts generalizing out db with
  | nil => cases hstanding
  | cons u ts ih =>
    rw [proceed] at hstanding
    cases htry : db.attempt out u with
    | done result =>
      rw [htry] at hstanding
      exact (ih hstanding).trans (List.suffix_cons u ts)
    | failed e =>
      rw [htry] at hstanding
      cases hstanding
    | blocked =>
      rw [htry] at hstanding
      cases hstanding
      exact List.suffix_refl _

end Proceed

/-! ## A new double buffer -/

/-- A new double buffer has two new FIFOs, and `delay` frames are stored in the second. -/
theorem make_eq_ok [Memory] [SharedFifo F] {config : DoubleBufferConfig} {fill : α}
    {db : DoubleBuffer F α}
    (h : make config fill = .ok db) :
    ∃ size, config.fifoSize = .ok size ∧ ∃ empty,
      config.validate = .ok () ∧
        SharedFifo.make (size * config.inputChannels) fill = .ok db.input ∧
        SharedFifo.make (size * config.outputChannels) fill = .ok empty ∧
        SharedFifo.tryPush empty (List.replicate (config.delay * config.outputChannels) fill) =
          .done db.output ∧
        db.config = config ∧ db.innerError = none ∧ db.outerError = none := by
  unfold make at h
  cases hvalidate : config.validate with
  | error e =>
    rw [hvalidate] at h
    cases h
  | ok _ =>
    rw [hvalidate] at h
    cases hsize : config.fifoSize with
    | error e =>
      rw [hsize] at h
      cases h
    | ok size =>
      simp only [hsize] at h
      cases hinput : SharedFifo.make (F := F) (size * config.inputChannels) fill with
      | error e =>
        rw [hinput] at h
        cases h
      | ok input =>
        simp only [hinput] at h
        cases hempty : SharedFifo.make (F := F) (size * config.outputChannels) fill with
        | error e =>
          rw [hempty] at h
          cases h
        | ok empty =>
          simp only [hempty] at h
          cases hpush : SharedFifo.tryPush empty
              (List.replicate (config.delay * config.outputChannels) fill) with
          | failed e =>
            rw [hpush] at h
            cases h
          | blocked =>
            rw [hpush] at h
            cases h
          | done output =>
            rw [hpush] at h
            cases h
            exact ⟨size, rfl, empty, rfl, hinput, hempty, hpush, rfl, rfl, rfl⟩

/-! ## Checks before the first transfer -/

section Checks

variable {db : DoubleBuffer F α} {ts : List (Transfer α)}

/-- Once its stage was told to fail, an inner call for input is refused. -/
theorem supplyTransfers_of_told {first : FifoError} (htold : db.innerError = some first)
    (outLength : Nat) : db.supplyTransfers outLength = .error first.duplicate := by
  rw [supplyTransfers, htold]

/-- Once its stage was told to fail, a delivery is refused. -/
theorem deliverTransfers_of_told {first : FifoError} (htold : db.innerError = some first)
    (data : List α) : db.deliverTransfers data = .error first.duplicate := by
  rw [deliverTransfers, htold]

/-- Once its stage was told to fail, an outer call is refused. -/
theorem processTransfers_of_told [SharedFifo F] {first : FifoError}
    (htold : db.outerError = some first) (input : List α) (outLength frames : Nat) :
    db.processTransfers input outLength frames = .error first.duplicate := by
  rw [processTransfers, htold]

/-- A call for an inner block of input is let through if its buffer holds one. -/
theorem supplyTransfers_eq_ok {outLength : Nat} :
    db.supplyTransfers outLength = .ok ts ↔
      db.innerError = none ∧ db.config.innerSize * db.config.inputChannels ≤ outLength ∧
        [.pull .input (db.config.innerSize * db.config.inputChannels)] = ts := by
  unfold supplyTransfers
  cases herror : db.innerError with
  | some e => simp
  | none =>
    by_cases hlength : outLength < db.config.innerSize * db.config.inputChannels
    · simp [hlength, Nat.not_le.2 hlength]
    · simp [hlength, Nat.le_of_not_lt hlength]

/-- A delivery is let through if it brings an inner block of output. -/
theorem deliverTransfers_eq_ok {data : List α} :
    db.deliverTransfers data = .ok ts ↔
      db.innerError = none ∧ db.config.innerSize * db.config.outputChannels ≤ data.length ∧
        [.push .output (data.take (db.config.innerSize * db.config.outputChannels))] = ts := by
  unfold deliverTransfers
  cases herror : db.innerError with
  | some e => simp
  | none =>
    by_cases hlength : data.length < db.config.innerSize * db.config.outputChannels
    · simp [hlength, Nat.not_le.2 hlength]
    · simp [hlength, Nat.le_of_not_lt hlength]

/-- An outer call is let through if its stage was not told to fail, its frames are no more than an
outer block and its slices hold them, and, where nobody waits, its output is there. -/
theorem processTransfers_eq_ok [SharedFifo F] {input : List α} {outLength frames : Nat} :
    db.processTransfers input outLength frames = .ok ts ↔
      db.outerError = none ∧ frames ≤ db.config.outerSize ∧
        frames * db.config.inputChannels ≤ input.length ∧
        frames * db.config.outputChannels ≤ outLength ∧
        (SharedFifo.blocking F = false →
          frames * db.config.outputChannels ≤ SharedFifo.fillCount db.output) ∧
        [.push .input (input.take (frames * db.config.inputChannels)),
          .pull .output (frames * db.config.outputChannels)] = ts := by
  unfold processTransfers
  cases herror : db.outerError with
  | some e => simp
  | none =>
    by_cases hframes : db.config.outerSize < frames
    · simp [hframes, Nat.not_le.2 hframes]
    by_cases hinput : input.length < frames * db.config.inputChannels
    · simp [hframes, hinput, Nat.not_le.2 hinput]
    by_cases hout : outLength < frames * db.config.outputChannels
    · simp [hframes, hinput, hout, Nat.not_le.2 hout]
    by_cases hthere : SharedFifo.blocking F = false ∧
        SharedFifo.fillCount db.output < frames * db.config.outputChannels
    · simp [hframes, hinput, hout, hthere.1, hthere.2, Nat.not_le.2 hthere.2]
    · have hserved : SharedFifo.blocking F = false →
          frames * db.config.outputChannels ≤ SharedFifo.fillCount db.output := by
        intro hnowait
        exact Nat.le_of_not_lt fun hshort => hthere ⟨hnowait, hshort⟩
      have hslices : ¬ (input.length < frames * db.config.inputChannels ∨
          outLength < frames * db.config.outputChannels) := by
        rintro (hshort | hshort)
        · exact hinput hshort
        · exact hout hshort
      simp only [if_neg hframes, if_neg hslices, if_neg hthere, Except.ok.injEq, true_and]
      exact ⟨fun hts => ⟨Nat.le_of_not_lt hframes, Nat.le_of_not_lt hinput, Nat.le_of_not_lt hout,
        hserved, hts⟩, fun h => h.2.2.2.2⟩

end Checks

end DoubleBuffer

end BlockFlow
