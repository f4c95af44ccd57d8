import BlockFlow.DoubleBuffer.Script
import Mathlib.Tactic.Common

/-!
# Scripts of calls on a double buffer

A script changes a double buffer in two ways only. It makes transfers, which log nothing, and it
tells a stage to fail, which is logged. What both keep true of a double buffer and of everything
logged so far holds throughout the script (`logged_run`).
-/

set_option autoImplicit false

namespace BlockFlow.DoubleBuffer

universe u

variable {F : Type u → Type u} {α : Type u} [SharedFifo F]

/-! ## Calls that do not wait -/

section NoWait

variable {stage : Stage} {ts : List (Transfer α)} {out : List α} {db : DoubleBuffer F α}

theorem carryOn_of_finished (hstanding : (db.proceed ts out).standing = .finished)
    (waits : List (List (Call α))) :
    carryOn stage waits ts out db = .ended (.ok ()) (db.proceed ts out) := by
  cases waits with
  | nil => rw [carryOn, hstanding]
  | cons group waits => rw [carryOn, hstanding]

theorem carryOn_of_failed {e : FifoError} (hstanding : (db.proceed ts out).standing = .failed e)
    (waits : List (List (Call α))) :
    carryOn stage waits ts out db = .ended (.error e) (db.proceed ts out) := by
  cases waits with
  | nil => rw [carryOn, hstanding]
  | cons group waits => rw [carryOn, hstanding]

end NoWait

/-! ## What a script keeps -/

section Logged

variable {P : List LogEvent → DoubleBuffer F α → Prop}

/-- By induction over the script: what the transfers of a call keep, and what an error keeps with
its log added, every call keeps with its log added. -/
theorem logged_run
    (proceed : ∀ {past db}, P past db → ∀ (ts : List (Transfer α)) (out : List α),
      P past (db.proceed ts out).after)
    (provoke : ∀ {past db}, P past db → ∀ stage error,
      P (past ++ provokeLog F stage error) (db.provoke stage error)) :
    (∀ (c : Call α) (db : DoubleBuffer F α) (past : List LogEvent),
      P past db → P (past ++ (c.run db).log) (c.run db).after) ∧
      (∀ (stage : Stage) (waits : List (List (Call α))) (ts : List (Transfer α)) (out : List α)
        (db : DoubleBuffer F α) (past : List LogEvent), P past db →
          P (past ++ (carryOn stage waits ts out db).log) (carryOn stage waits ts out db).after) ∧
      ∀ (cs : List (Call α)) (db : DoubleBuffer F α) (past : List LogEvent),
        P past db → P (past ++ (runAll cs db).1.flatMap Step.log) (runAll cs db).2 := by
  -- a call that ends where its transfers leave it has nothing in its log
  have ended : ∀ {past db}, P past db → P (past ++ []) db := by
    intro past db h
    rw [List.append_nil]
    exact h
  apply Call.run.mutual_induct
  -- each stage's call is refused at once, or comes down to its transfers
  · intro input out frames waits db e hts past h
    rw [Call.run, hts]
    exact ended h
  · intro input out frames waits db ts hts ih past h
    rw [Call.run, hts]
    exact ih past h
  · intro out waits db e hts past h
    rw [Call.run, hts]
    exact ended h
  · intro out waits db ts hts ih past h
    rw [Call.run, hts]
    exact ih past h
  · intro data waits db e hts past h
    rw [Call.run, hts]
    exact ended h
  · intro data waits db ts hts ih past h
    rw [Call.run, hts]
    exact ih past h
  · intro stage error db past h
    rw [Call.run]
    exact provoke h stage error
  · intro db past h
    rw [Call.run]
    exact ended h
  -- the transfers of a call with no group left, by where they stand
  · intro stage ts out db p hstanding past h
    rw [carryOn, hstanding]
    exact ended (proceed h ts out)
  · intro stage ts out db p e hstanding past h
    rw [carryOn, hstanding]
    exact ended (proceed h ts out)
  · intro stage ts out db p t rest hstanding past h
    rw [carryOn, hstanding]
    exact provoke (proceed h ts out) stage _
  -- and with a group for the next wait
  · intro stage group waits ts out db p hstanding past h
    rw [carryOn, hstanding]
    exact ended (proceed h ts out)
  · intro stage group waits ts out db p e hstanding past h
    rw [carryOn, hstanding]
    exact ended (proceed h ts out)
  · intro stage group waits ts out db p t rest hstanding inner hgroup hrest past h
    have hinside := hgroup past (proceed h ts out)
    rw [carryOn, hstanding]
    simp only [Step.afterWait, ← List.append_assoc]
    exact hrest _ hinside
  · intro db past h
    rw [runAll]
    exact ended h
  · intro c cs db step hc hcs past h
    rw [runAll, List.flatMap_cons, ← List.append_assoc]
    exact hcs _ (hc past h)

end Logged

end BlockFlow.DoubleBuffer
