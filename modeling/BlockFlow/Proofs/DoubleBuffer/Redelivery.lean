import BlockFlow.Proofs.DoubleBuffer.Teardown

/-!
# One error told to a stage is the same error in all its calls

An error that a stage is told to fail with reaches its calls in two ways. A call that begins later
raises a copy of the error that the double buffer keeps. A call that has begun looks at a FIFO,
which keeps a copy of its own, and raises a copy of that. Where the stage is told just one error,
its calls raise nothing else (`RaisesOnly`), and what a caller sees of the error does not depend on
the way it came (`redelivers_alike`).
-/

set_option autoImplicit false

namespace BlockFlow.DoubleBuffer

universe u

variable {α : Type u}

/-- How the calls of a stage raise an error, where `past` was logged before and the stage is told
this one error and no other. -/
structure RaisesOnly (config : DoubleBufferConfig) (e : FifoError) (past : List LogEvent)
    (db : DoubleBuffer BlockingRing α) (stage : Stage) : Prop where
  /-- A call that begins after the stage was told raises a copy of the error. -/
  begins : provokedIn stage past = [e] → ∀ c : Call α, c.stage? = some stage →
    c.run db = .refused e.duplicate c.out db
  /-- A call that began before makes the transfers it has left, or the first that is not possible
  raises a copy of the copy that a FIFO keeps. -/
  looks : provokedIn stage past = [e] → ∀ (ts : List (Transfer α)) (out : List α),
    OfStage config stage ts →
      ∃ made left outcome, db.EndsNow stage ts out made left outcome ∧
        (outcome = .ok () ∨ outcome = .error e.duplicate.duplicate)
  /-- So does a call in one of whose waits the stage is told, and it does not wait again. -/
  waits : provokedIn stage past = [] → ∀ c : Call α, c.stage? = some stage →
    provokedIn stage (c.run db).log = [e] →
      ((c.run db).outcome = .ok () ∨ (c.run db).outcome = .error e.duplicate.duplicate) ∧
        ∀ before group after, (c.run db).during = before ++ group :: after →
          provokedIn stage (group.flatMap Step.log) ≠ [] →
            ∃ ts, c.checked db = .ok ts ∧ EndsAfter stage ts before group (c.run db)

/-- The last error is the only one, if there is just one. -/
theorem IsLast.eq_of_eq_singleton {stage : Stage} {log : List LogEvent} {e r : FifoError}
    (h : IsLast stage log r) (honly : provokedIn stage log = [e]) :
    r = e.duplicate.duplicate := by
  obtain ⟨latest, hlatest, rfl⟩ := h
  rw [honly] at hlatest
  cases hlatest
  exact e.duplicate_duplicate.symm

section

variable {config : DoubleBufferConfig} {past : List LogEvent} {db : DoubleBuffer BlockingRing α}
  {stage : Stage} {e : FifoError}

theorem Told.looks_of_only (h : Told config past db) (honly : provokedIn stage past = [e])
    {ts : List (Transfer α)} (hts : OfStage config stage ts) (out : List α) :
    ∃ made left outcome, db.EndsNow stage ts out made left outcome ∧
      (outcome = .ok () ∨ outcome = .error e.duplicate.duplicate) := by
  have htold : provokedIn stage past ≠ [] := by simp [honly]
  obtain ⟨made, left, outcome, hends⟩ := h.looks_once htold hts out
  refine ⟨made, left, outcome, hends, ?_⟩
  cases outcome with
  | ok _ => exact .inl rfl
  | error r =>
    have hcall := hends.no_wait []
    have hlast := h.isLast_carryOn [] hts (congrArg Step.outcome hcall)
    -- nothing is logged any more, so that the last error is one of the past
    rw [hcall, Step.ended, List.append_nil] at hlast
    exact .inr (congrArg Except.error (hlast.eq_of_eq_singleton honly))

/-- A call that is told an error while it runs is not one that is refused at its start. -/
theorem Call.Raises.fits_of_told {c : Call α} (h : c.Raises config past db stage)
    (huntold : provokedIn stage past = []) (htold : provokedIn stage (c.run db).log ≠ []) :
    c.Fits config := by
  by_contra hnot
  obtain ⟨text, hrefused⟩ := h.unfit huntold hnot
  rw [hrefused] at htold
  exact htold rfl

theorem Told.outcome_run_of_only (h : Told config past db) (huntold : provokedIn stage past = [])
    {c : Call α} (hstage : c.stage? = some stage) (honly : provokedIn stage (c.run db).log = [e]) :
    (c.run db).outcome = .ok () ∨ (c.run db).outcome = .error e.duplicate.duplicate := by
  have hraises := h.raises hstage
  cases houtcome : (c.run db).outcome with
  | ok _ => exact .inl rfl
  | error r =>
    have hfits := hraises.fits_of_told huntold (by simp [honly])
    have hlast := hraises.last huntold hfits r houtcome
    exact .inr (congrArg Except.error (hlast.eq_of_eq_singleton honly))

theorem Told.raisesOnly (h : Told config past db) (stage : Stage) (e : FifoError) :
    RaisesOnly config e past db stage where
  begins := by
    intro honly c hstage
    have hfirst : (provokedIn stage past).head? = some e := by rw [honly]; rfl
    exact (h.raises hstage).first e hfirst
  looks := fun honly _ out hts => h.looks_of_only honly hts out
  waits := by
    intro huntold c hstage honly
    refine ⟨h.outcome_run_of_only huntold hstage honly, ?_⟩
    intro before group after hduring htold
    obtain ⟨ts, hchecked, -, hends⟩ :=
      (h.letsGo stage).waits c hstage before group after hduring htold
    exact ⟨ts, hchecked, hends⟩

end

/-- For every error: a copy tells a caller what the error does, and so does a copy of a copy, which
nobody can tell from the first. On a new double buffer on blocking FIFOs, and in any script of calls
on it, in whose waits any other calls run, a stage that is told one error raises a copy of it in the
calls that begin later, and a copy of a copy in those that have begun. These two are seen alike. -/
theorem redelivers_alike [Memory] (e : FifoError) :
    e.CopiedAs e.duplicate ∧
      (∀ n, 1 ≤ n → e.CopiedAs (FifoError.duplicate^[n] e) ∧
        e.duplicate.SeenAlike (FifoError.duplicate^[n] e)) ∧
      (∀ {config : DoubleBufferConfig} {fill : α} {db₀ : DoubleBuffer BlockingRing α},
        make config fill = .ok db₀ →
          (∀ calls, Moment db₀ ((runAll calls db₀).1.flatMap Step.log) (runAll calls db₀).2) ∧
            ∀ past db, Moment db₀ past db → ∀ stage, RaisesOnly config e past db stage) ∧
      e.duplicate.SeenAlike e.duplicate.duplicate := by
  refine ⟨e.copiedAs_duplicate, ?_, ?_, ?_⟩
  · intro n hn
    obtain ⟨k, rfl⟩ := Nat.exists_eq_add_of_le' hn
    rw [e.iterate_duplicate k]
    exact ⟨e.copiedAs_duplicate, .refl _⟩
  · intro config fill db₀ hmake
    refine ⟨fun calls => Moment.start.runAll calls, ?_⟩
    intro past db hmoment stage
    exact (hmoment.told (.start hmake)).raisesOnly stage e
  · rw [e.duplicate_duplicate]

/-- An inner call waits for input and is told an error with a cause. It raises the line that both
texts make, and so does the next inner call, and one that has still to look. -/
theorem redelivers_alike_cause :
    let config : DoubleBufferConfig := { outerSize := 2, innerSize := 2, delay := 2 }
    let db₀ : DoubleBuffer BlockingRing Nat :=
      { config
        fifoSize := 4
        input := ⟨⟨#[0, 0, 0, 0, 0], 0, 0⟩, none, none⟩
        output := ⟨⟨#[0, 0, 0, 0, 0], 2, 0⟩, none, none⟩
        innerError := none
        outerError := none }
    let e : FifoError := .other (.wrap "disk full" ["cannot save"])
    let copy : FifoError := .other ⟨"cannot save: disk full", []⟩
    let supply : Call Nat := .supply [0, 0] [[.provoke .inner e]]
    let db : DoubleBuffer BlockingRing Nat := (supply.run db₀).after
    make config 0 = .ok db₀ ∧ e.CopiedAs copy ∧ e.CopiedAs (FifoError.duplicate^[3] e) ∧
      (supply.run db₀).outcome = .error copy ∧
      (∃ group, EndsAfter .inner [.pull .input 2] [] group (supply.run db₀)) ∧
      Moment db₀ (supply.run db₀).log db ∧
      (Call.deliver [5, 6] []).run db = .refused copy [] db ∧
      (carryOn .inner [] [.pull .input 2] [0, 0] db).outcome = .error copy := by
  intro config db₀ e copy supply db
  have hmake : make config 0 = .ok db₀ := rfl
  have hcopy : e.duplicate = copy := by decide +kernel
  obtain ⟨hcopied, hcopies, hscripts, -⟩ := @redelivers_alike Nat _ e
  obtain ⟨-, hmoments⟩ := hscripts hmake
  have hmoment : Moment db₀ (supply.run db₀).log db := Moment.start.call supply
  have hbefore := hmoments [] db₀ .start .inner
  have hafter := hmoments _ db hmoment .inner
  have honly : provokedIn .inner (supply.run db₀).log = [e] := by decide +kernel
  obtain ⟨houtcome, hends⟩ := hbefore.waits rfl supply rfl honly
  have hwaited : ∃ group, EndsAfter .inner [.pull .input 2] [] group (supply.run db₀) := by
    obtain ⟨later, hduring⟩ := during_of_waiting supply db₀ rfl rfl rfl rfl
    obtain ⟨ts, hchecked, hlast⟩ := hends [] _ later hduring (by decide +kernel)
    cases hchecked
    exact ⟨_, hlast⟩
  have hlooked : (carryOn .inner [] [.pull .input 2] [0, 0] db).outcome = .error copy := by
    have hstage : OfStage config .inner [Transfer.pull (α := Nat) .input 2] := by
      intro t ht
      cases List.mem_singleton.1 ht
      exact ⟨rfl, by decide⟩
    obtain ⟨made, left, outcome, hnow, hlook⟩ := hafter.looks honly [.pull .input 2] [0, 0] hstage
    rw [e.duplicate_duplicate, hcopy] at hlook
    have hcall := congrArg Step.outcome (hnow.no_wait [])
    rw [hcall]
    exact hlook.resolve_left fun hserved => absurd (hcall.trans hserved) (by decide +kernel)
  rw [e.duplicate_duplicate, hcopy] at houtcome
  rw [hcopy] at hcopied
  have hbegun := hafter.begins honly (.deliver [5, 6] []) rfl
  rw [hcopy] at hbegun
  exact ⟨hmake, hcopied, (hcopies 3 (by decide)).1, houtcome.resolve_left (by decide +kernel),
    hwaited, hmoment, hbegun, hlooked⟩

end BlockFlow.DoubleBuffer
