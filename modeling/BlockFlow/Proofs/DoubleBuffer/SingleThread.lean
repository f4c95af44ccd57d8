import BlockFlow.Proofs.DoubleBuffer.Balance
import BlockFlow.Proofs.DoubleBuffer.Unblocked

/-!
# One thread for both stages

Over shared rings one thread can do the work of both stages: after each outer call the inner stage
takes its turns as long as there is a block of input for it. What is left over of the input and what
is stored of the output then always make up the delay (`Steady`), so that an outer call succeeds
exactly if the delay covers its frames and what was left over before it (`process_succeeds_iff`).
Output is looked for before the input is stored, so whole outer blocks go on for ever only if the
delay is one outer block more than the minimum delay.
-/

set_option autoImplicit false

namespace BlockFlow

universe u v

variable {σ : Type v} {α : Type u}

/-- A double buffer on which nobody waits, the state of the inner stage, and how the calls of that
stage ended so far. -/
structure SingleThread (σ : Type v) (α : Type u) where
  buffer : DoubleBuffer LockFreeRing α
  state : σ
  ended : List Outcome

namespace SingleThread

/-- The thread before its first call. -/
def start (buffer : DoubleBuffer LockFreeRing α) (state : σ) : SingleThread σ α :=
  { buffer, state, ended := [] }

/-- The call in which the inner stage takes a block of input, in a buffer filled with `blank`. -/
def supply (blank : α) (s : SingleThread σ α) : DoubleBuffer.Step LockFreeRing α :=
  let config := s.buffer.config
  let space := List.replicate (config.innerSize * config.inputChannels) blank
  (DoubleBuffer.Call.supply space []).run s.buffer

/-- The call after that, in which it delivers what it computes from the block. -/
def deliver (f : BlockFunction σ α) (blank : α) (s : SingleThread σ α) :
    DoubleBuffer.Step LockFreeRing α :=
  let supplied := s.supply blank
  (DoubleBuffer.Call.deliver (f s.state supplied.buffer).1 []).run supplied.after

/-- One turn of the inner stage: both calls. -/
def turn (f : BlockFunction σ α) (blank : α) (s : SingleThread σ α) : SingleThread σ α :=
  { buffer := (s.deliver f blank).after
    state := (f s.state (s.supply blank).buffer).2
    ended := s.ended ++ [(s.supply blank).outcome, (s.deliver f blank).outcome] }

/-- At most `n` turns of the inner stage, as long as there is a block of input for it. -/
def serveFor (f : BlockFunction σ α) (blank : α) : Nat → SingleThread σ α → SingleThread σ α
  | 0, s => s
  | n + 1, s =>
    if s.buffer.config.innerSize ≤ s.buffer.inputFill then
      serveFor f blank n (s.turn f blank)
    else
      s

/-- The inner stage takes its turns as long as there is a block of input for it. Each turn takes one
frame at least. -/
def serve (f : BlockFunction σ α) (blank : α) (s : SingleThread σ α) : SingleThread σ α :=
  s.serveFor f blank s.buffer.inputFill

/-- An outer call and the turns of the inner stage after it, with how the call ended. -/
def process (f : BlockFunction σ α) (blank : α) (s : SingleThread σ α)
    (c : Pipeline.OuterCall α) : Outcome × SingleThread σ α :=
  let step := (DoubleBuffer.Call.process c.input c.out c.frames []).run s.buffer
  (step.outcome, { s with buffer := step.after }.serve f blank)

/-- Outer calls one after the other, with the turns of the inner stage after each. -/
def processAll (f : BlockFunction σ α) (blank : α) :
    List (Pipeline.OuterCall α) → SingleThread σ α → List Outcome × SingleThread σ α
  | [], s => ([], s)
  | c :: cs, s =>
    let done := s.process f blank c
    let rest := processAll f blank cs done.2
    (done.1 :: rest.1, rest.2)

theorem processAll_append (f : BlockFunction σ α) (blank : α)
    (cs ds : List (Pipeline.OuterCall α)) (s : SingleThread σ α) :
    processAll f blank (cs ++ ds) s =
      ((processAll f blank cs s).1 ++ (processAll f blank ds (processAll f blank cs s).2).1,
        (processAll f blank ds (processAll f blank cs s).2).2) := by
  induction cs generalizing s with
  | nil => rfl
  | cons c cs ih => rw [List.cons_append, processAll, ih, processAll, List.cons_append]

/-! ## What is stored -/

/-- The invariant of the thread: `n` frames of input are stored, and with the stored output they
make up the delay. -/
structure Steady (config : DoubleBufferConfig) (n : Nat) (s : SingleThread σ α) : Prop where
  le_delay : n ≤ config.delay
  holds : s.buffer.Holds config n (config.delay - n)
  untold : ∀ stage, s.buffer.stageError stage = none
  succeeded : ∀ outcome ∈ s.ended, outcome = .ok ()

section Steady

variable {config : DoubleBufferConfig} {s : SingleThread σ α} {n : Nat} {f : BlockFunction σ α}
  {blank : α} {c : Pipeline.OuterCall α}

theorem Steady.start [Memory] {fill : α} {db : DoubleBuffer LockFreeRing α}
    (hmake : DoubleBuffer.make config fill = .ok db) (state : σ) :
    (start db state).Steady config 0 := by
  obtain ⟨-, -, -, -, -, -, -, -, hinner, houter⟩ := DoubleBuffer.make_eq_ok hmake
  refine ⟨Nat.zero_le _, .of_make hmake, ?_, nofun⟩
  rintro (_ | _)
  · exact hinner
  · exact houter

theorem Steady.supply (h : s.Steady config n) (hthere : config.innerSize ≤ n) (blank : α) :
    (s.supply blank).outcome = .ok () ∧
      (s.supply blank).buffer.length = config.innerSize * config.inputChannels ∧
      (s.supply blank).after.Holds config (n - config.innerSize) (config.delay - n) ∧
      ∀ stage, (s.supply blank).after.stageError stage = none := by
  have hspace : (List.replicate (s.buffer.config.innerSize * s.buffer.config.inputChannels)
      blank).length = s.buffer.config.innerSize * s.buffer.config.inputChannels :=
    List.length_replicate
  have hts := DoubleBuffer.supplyTransfers_eq_ok.2 ⟨h.untold .inner, hspace.ge, rfl⟩
  obtain ⟨houtcome, hlength, hholds⟩ := h.holds.run_supply hts hthere []
  have htold : (s.supply blank).after.stageError = s.buffer.stageError :=
    DoubleBuffer.stageError_run nofun
  refine ⟨houtcome, ?_, hholds, ?_⟩
  · rw [← h.holds.config_eq]
    exact hlength.trans hspace
  · rw [htold]
    exact h.untold

theorem Steady.deliver (h : s.Steady config n) (hf : config.Computes f)
    (hthere : config.innerSize ≤ n) (blank : α) :
    (s.deliver f blank).outcome = .ok () ∧
      (s.deliver f blank).after.Holds config (n - config.innerSize)
        (config.delay - n + config.innerSize) ∧
      ∀ stage, (s.deliver f blank).after.stageError stage = none := by
  have hdelay := h.le_delay
  obtain ⟨-, hlength, hholds, huntold⟩ := h.supply hthere blank
  have hwhole := hf s.state (s.supply blank).buffer hlength
  rw [← hholds.config_eq] at hwhole
  have hts := DoubleBuffer.deliverTransfers_eq_ok.2 ⟨huntold .inner, hwhole, rfl⟩
  -- the block has just made room for itself
  have hroom : config.delay - n + config.innerSize ≤
      max config.outerSize config.innerSize + config.delay := by omega
  obtain ⟨houtcome, hholds'⟩ := hholds.run_deliver hts hroom []
  have htold : (s.deliver f blank).after.stageError = (s.supply blank).after.stageError :=
    DoubleBuffer.stageError_run nofun
  refine ⟨houtcome, hholds', ?_⟩
  rw [htold]
  exact huntold

/-- A turn moves one block from what is stored of the input to what is stored of the output. -/
theorem Steady.turn (h : s.Steady config n) (hf : config.Computes f)
    (hthere : config.innerSize ≤ n) : (s.turn f blank).Steady config (n - config.innerSize) := by
  have hdelay := h.le_delay
  obtain ⟨hsupplied, -, -, -⟩ := h.supply hthere blank
  obtain ⟨hdelivered, hholds, huntold⟩ := h.deliver hf hthere blank
  have hmoved : config.delay - n + config.innerSize = config.delay - (n - config.innerSize) := by
    omega
  rw [hmoved] at hholds
  refine ⟨(Nat.sub_le ..).trans hdelay, hholds, huntold, ?_⟩
  show ∀ outcome ∈ s.ended ++ [(s.supply blank).outcome, (s.deliver f blank).outcome], _
  rw [hsupplied, hdelivered]
  intro outcome hended
  rcases List.mem_append.1 hended with hbefore | hnow
  · exact h.succeeded outcome hbefore
  · simpa using hnow

/-- By induction over the turns: when there is no block left, less than a block is left over. -/
theorem Steady.serveFor (h : s.Steady config n) (hf : config.Computes f) {turns : Nat}
    (hturns : n ≤ turns) : (s.serveFor f blank turns).Steady config (n % config.innerSize) := by
  obtain ⟨-, hinner, -, -⟩ := DoubleBufferConfig.pos_of_validate h.holds.validated
  induction turns generalizing s n with
  | zero =>
    rw [Nat.le_zero.1 hturns, Nat.zero_mod]
    rw [Nat.le_zero.1 hturns] at h
    exact h
  | succ turns ih =>
    rw [SingleThread.serveFor, h.holds.config_eq, h.holds.inputFill_eq]
    by_cases hthere : config.innerSize ≤ n
    · -- a whole block less leaves the same over
      rw [if_pos hthere, Nat.mod_eq_sub_mod hthere]
      exact ih (h.turn hf hthere) (by omega)
    · rw [if_neg hthere, Nat.mod_eq_of_lt (Nat.lt_of_not_le hthere)]
      exact h

theorem Steady.serve (h : s.Steady config n) (hf : config.Computes f) :
    (s.serve f blank).Steady config (n % config.innerSize) := by
  rw [SingleThread.serve, h.holds.inputFill_eq]
  exact h.serveFor hf (Nat.le_refl n)

/-! ## Outer calls -/

/-- An outer call succeeds if its frames and those left over make no more than the delay. -/
theorem Steady.process_of_le (h : s.Steady config n) (hf : config.Computes f)
    (hfits : c.Fits config) (hle : c.frames + n ≤ config.delay) :
    (s.process f blank c).1 = .ok () ∧
      (s.process f blank c).2.Steady config ((n + c.frames) % config.innerSize) := by
  have hts := h.holds.processTransfers_eq (h.untold .outer) hfits.frames hfits.input hfits.out
  rw [if_pos (by omega)] at hts
  obtain ⟨houtcome, -, hholds⟩ := h.holds.run_process hts (by omega) []
  have htold : ((DoubleBuffer.Call.process c.input c.out c.frames []).run
      s.buffer).after.stageError = s.buffer.stageError := DoubleBuffer.stageError_run nofun
  have hnext : Steady config (n + c.frames) { s with
      buffer := ((DoubleBuffer.Call.process c.input c.out c.frames []).run s.buffer).after } := by
    refine ⟨by omega, ?_, ?_, h.succeeded⟩
    · rw [← Nat.sub_sub]
      exact hholds
    · rw [htold]
      exact h.untold
  exact ⟨houtcome, hnext.serve hf⟩

/-- It fails for want of output otherwise. -/
theorem Steady.process_of_lt (h : s.Steady config n) (hfits : c.Fits config)
    (hlt : config.delay < c.frames + n) :
    (s.process f blank c).1 = .error (.insufficientData (c.frames * config.outputChannels)
      ((config.delay - n) * config.outputChannels)) := by
  have hdelay := h.le_delay
  have hframes := hfits.frames
  have houtcome := h.holds.outcome_process (h.untold .outer) hframes hfits.input hfits.out
    (by omega) []
  rw [if_neg (by omega)] at houtcome
  exact houtcome

/-- By induction over the calls: as long as they succeed, the input that is left over is what is
left of all frames so far. -/
theorem Steady.after_processAll {calls : List (Pipeline.OuterCall α)} {total : Nat}
    (h : s.Steady config (total % config.innerSize)) (hf : config.Computes f)
    (hfits : ∀ c ∈ calls, c.Fits config)
    (hsucceeded : ∀ outcome ∈ (processAll f blank calls s).1, outcome = .ok ()) :
    (processAll f blank calls s).2.Steady config
      ((total + (calls.map Pipeline.OuterCall.frames).sum) % config.innerSize) := by
  induction calls generalizing s total with
  | nil => exact h
  | cons c cs ih =>
    obtain ⟨hfirst, hrest⟩ := List.forall_mem_cons.1 hfits
    obtain ⟨hok, hoks⟩ := List.forall_mem_cons.1 hsucceeded
    -- the first call succeeded, so it cannot be one that needs more than the delay
    rcases Nat.lt_or_ge config.delay (c.frames + total % config.innerSize) with hlt | hle
    · rw [h.process_of_lt hfirst hlt] at hok
      cases hok
    · have hnext : (s.process f blank c).2.Steady config
          ((total + c.frames) % config.innerSize) := by
        rw [← Nat.mod_add_mod]
        exact (h.process_of_le hf hfirst hle).2
      rw [List.map_cons, List.sum_cons, ← Nat.add_assoc]
      exact ih hnext hrest hoks

end Steady

/-! ## Whole outer blocks -/

section Whole

variable {config : DoubleBufferConfig} {s : SingleThread σ α} {f : BlockFunction σ α} {blank : α}
  {calls : Nat → Pipeline.OuterCall α}

theorem processAll_range_succ (n : Nat) :
    (processAll f blank ((List.range (n + 1)).map calls) s).1 =
      (processAll f blank ((List.range n).map calls) s).1 ++
        [((processAll f blank ((List.range n).map calls) s).2.process f blank (calls n)).1] := by
  rw [List.range_succ, List.map_append, processAll_append]
  rfl

theorem Steady.after_whole (h : s.Steady config 0) (hf : config.Computes f)
    (hcalls : ∀ k, (calls k).Fits config ∧ (calls k).frames = config.outerSize) {n : Nat}
    (hsucceeded : ∀ outcome ∈ (processAll f blank ((List.range n).map calls) s).1,
      outcome = .ok ()) :
    (processAll f blank ((List.range n).map calls) s).2.Steady config
      (n * config.outerSize % config.innerSize) := by
  have hfits : ∀ c ∈ (List.range n).map calls, c.Fits config := by
    intro c hc
    obtain ⟨k, -, rfl⟩ := List.mem_map.1 hc
    exact (hcalls k).1
  have hframes : (((List.range n).map calls).map Pipeline.OuterCall.frames).sum =
      n * config.outerSize := by
    simp [Function.comp_def, hcalls]
  rw [← Nat.zero_mod config.innerSize] at h
  have hsteady := h.after_processAll hf hfits hsucceeded
  rw [Nat.zero_add, hframes] at hsteady
  exact hsteady

/-- After some number of whole outer blocks the minimum delay is left over, and never more. -/
theorem Steady.forever_iff (h : s.Steady config 0) (hf : config.Computes f)
    (hcalls : ∀ k, (calls k).Fits config ∧ (calls k).frames = config.outerSize) :
    (∀ n, ∀ outcome ∈ (processAll f blank ((List.range n).map calls) s).1, outcome = .ok ()) ↔
      config.minimumDelay + config.outerSize ≤ config.delay := by
  obtain ⟨-, hinner, -, -⟩ := DoubleBufferConfig.pos_of_validate h.holds.validated
  constructor
  · intro hsucceeded
    obtain ⟨k, hk⟩ := DoubleBufferConfig.exists_mod_eq_minimumDelay hinner
    have hsteady := h.after_whole hf hcalls (hsucceeded k)
    have hlast := hsucceeded (k + 1)
    rw [processAll_range_succ] at hlast
    have hok := hlast _ (List.mem_append_right _ (List.mem_singleton_self _))
    -- the call after `k` blocks needs the minimum delay beside its own block
    by_contra hless
    have hlt : config.delay < (calls k).frames + k * config.outerSize % config.innerSize := by
      rw [hk, (hcalls k).2]
      omega
    rw [hsteady.process_of_lt (hcalls k).1 hlt] at hok
    cases hok
  · intro hdelay n
    induction n with
    | zero => nofun
    | succ n ih =>
      have hsteady := h.after_whole hf hcalls ih
      have hleft := DoubleBufferConfig.mod_le_minimumDelay hinner n
      have hle : (calls n).frames + n * config.outerSize % config.innerSize ≤ config.delay := by
        rw [(hcalls n).2]
        omega
      rw [processAll_range_succ]
      intro outcome hended
      rcases List.mem_append.1 hended with hbefore | hnow
      · exact ih outcome hbefore
      · rw [List.mem_singleton.1 hnow]
        exact (hsteady.process_of_le hf (hcalls n).1 hle).1

end Whole

/-! ## When outer calls succeed -/

/-- One thread does the work of both stages on a new double buffer over shared rings, and all outer
calls so far succeeded. Then all calls of the inner stage succeeded, less than an inner block of
the input is left over, and with the stored output it makes up the delay. The next outer call
succeeds if its frames and those left over are no more than the delay, and otherwise fails for want
of output. So calls of whole outer blocks succeed for ever if and only if the delay is at least one
outer block more than the minimum delay. -/
theorem process_succeeds_iff [Memory] {config : DoubleBufferConfig} {fill : α}
    {db : DoubleBuffer LockFreeRing α} (hmake : DoubleBuffer.make config fill = .ok db)
    {f : BlockFunction σ α} (hf : config.Computes f) (blank : α) (state : σ) :
    (∀ (calls : List (Pipeline.OuterCall α)) (c : Pipeline.OuterCall α),
      (∀ c' ∈ calls, c'.Fits config) → c.Fits config →
      (∀ outcome ∈ (processAll f blank calls (start db state)).1, outcome = .ok ()) →
      let s := (processAll f blank calls (start db state)).2
      let left := (calls.map Pipeline.OuterCall.frames).sum % config.innerSize
      (∀ outcome ∈ s.ended, outcome = .ok ()) ∧
        s.buffer.inputFill = left ∧ s.buffer.outputFill + left = config.delay ∧
        (s.process f blank c).1 =
          if c.frames + left ≤ config.delay then .ok ()
          else .error (.insufficientData (c.frames * config.outputChannels)
            ((config.delay - left) * config.outputChannels))) ∧
    (∀ calls : Nat → Pipeline.OuterCall α,
      (∀ k, (calls k).Fits config ∧ (calls k).frames = config.outerSize) →
      ((∀ n, ∀ outcome ∈ (processAll f blank ((List.range n).map calls) (start db state)).1,
          outcome = .ok ()) ↔
        config.outerSize + config.innerSize - Nat.gcd config.innerSize config.outerSize ≤
          config.delay)) ∧
    config.outerSize + config.innerSize - Nat.gcd config.innerSize config.outerSize =
      config.minimumDelay + config.outerSize := by
  have hstart := Steady.start hmake state
  obtain ⟨-, hinner, -, -⟩ := DoubleBufferConfig.pos_of_validate hstart.holds.validated
  have hgcd := Nat.gcd_le_left config.outerSize hinner
  have hsum : config.outerSize + config.innerSize - Nat.gcd config.innerSize config.outerSize =
      config.minimumDelay + config.outerSize := by
    rw [DoubleBufferConfig.minimumDelay_eq]
    omega
  refine ⟨?_, ?_, hsum⟩
  · intro calls c hfits hfitsNext hsucceeded s left
    rw [← Nat.zero_mod config.innerSize] at hstart
    have hsteady := hstart.after_processAll hf hfits hsucceeded
    rw [Nat.zero_add] at hsteady
    have hle := hsteady.le_delay
    refine ⟨hsteady.succeeded, hsteady.holds.inputFill_eq, ?_, ?_⟩
    · rw [hsteady.holds.outputFill_eq]
      omega
    · by_cases hserved : c.frames + left ≤ config.delay
      · rw [if_pos hserved]
        exact (hsteady.process_of_le hf hfitsNext hserved).1
      · rw [if_neg hserved]
        exact hsteady.process_of_lt hfitsNext (Nat.lt_of_not_le hserved)
  · intro calls hcalls
    rw [hsum]
    exact hstart.forever_iff hf hcalls

/-- Blocks of two and three frames with a delay of three. The second call completes an inner block,
and the fourth finds one frame of output less than it needs. -/
theorem process_succeeds_iff_short :
    let config : DoubleBufferConfig := { outerSize := 2, innerSize := 3, delay := 3 }
    let f : BlockFunction Unit Nat := fun _ block => (block.map (· + 10), ())
    let db : DoubleBuffer LockFreeRing Nat :=
      { config
        fifoSize := 6
        input := ⟨#[0, 0, 0, 0, 0, 0, 0], 0, 0, false, false⟩
        output := ⟨#[0, 0, 0, 0, 0, 0, 0], 3, 0, false, false⟩
        innerError := none
        outerError := none }
    let calls : List (Pipeline.OuterCall Nat) :=
      [⟨[1, 2], [0, 0], 2⟩, ⟨[3], [0], 1⟩, ⟨[4, 5], [0, 0], 2⟩]
    let next : Pipeline.OuterCall Nat := ⟨[6, 7], [0, 0], 2⟩
    let s := (processAll f 0 calls (start db ())).2
    DoubleBuffer.make config 0 = .ok db ∧ config.Computes f ∧ (∀ c ∈ calls, c.Fits config) ∧
      next.Fits config ∧
      (processAll f 0 calls (start db ())).1 = [.ok (), .ok (), .ok ()] ∧
      s.ended = [.ok (), .ok ()] ∧ s.buffer.inputFill = 2 ∧
      (s.process f 0 next).1 = .error (.insufficientData 2 1) ∧
      ¬ ∀ n, ∀ outcome ∈ (processAll f 0 ((List.range n).map fun _ => next) (start db ())).1,
        outcome = .ok () := by
  intro config f db calls next s
  have hmake : DoubleBuffer.make config 0 = .ok db := rfl
  have hf : config.Computes f := by
    intro _ block hlength
    show config.innerSize * 1 ≤ (block.map (· + 10)).length
    rw [List.length_map, hlength]
  have hnext : next.Fits config := ⟨by decide, by decide, by decide⟩
  have hfits : ∀ c ∈ calls, c.Fits config := by
    intro c hc
    simp only [calls, List.mem_cons, List.not_mem_nil, or_false] at hc
    rcases hc with rfl | rfl | rfl <;> exact ⟨by decide, by decide, by decide⟩
  have houtcomes : (processAll f 0 calls (start db ())).1 = [.ok (), .ok (), .ok ()] := by
    decide +kernel
  have hended : (processAll f 0 calls (start db ())).2.ended = [.ok (), .ok ()] := by
    decide +kernel
  have hsucceeded : ∀ outcome ∈ (processAll f 0 calls (start db ())).1, outcome = .ok () := by
    rw [houtcomes]
    simp
  obtain ⟨hcall, hforever, -⟩ := process_succeeds_iff hmake hf 0 ()
  obtain ⟨-, hfill, -, houtcome⟩ := hcall calls next hfits hnext hsucceeded
  have hleft : (calls.map Pipeline.OuterCall.frames).sum % config.innerSize = 2 := by decide
  rw [hleft] at hfill houtcome
  refine ⟨hmake, hf, hfits, hnext, houtcomes, hended, hfill, houtcome, ?_⟩
  rw [hforever (fun _ => next) fun _ => ⟨hnext, rfl⟩]
  decide

end SingleThread

end BlockFlow
