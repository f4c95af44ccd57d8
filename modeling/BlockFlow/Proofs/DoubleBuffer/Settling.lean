import BlockFlow.Proofs.DoubleBuffer.Interleaving

/-!
# The inner stage taken along as far as it can go

The pipeline lets the inner stage make a bounded number of moves before each transfer of the outer
stage. The bound is never reached while the balance holds (`Balance.settled`), so that the outer
stage finds the inner stage waiting. A call can then only wait for its output if it is the first
after which more input is left over than the delay, and every other call succeeds
(`Balance.process`). An inner stage that is told to fail ends with that error
(`Pipeline.finish_eq`).
-/

set_option autoImplicit false

namespace BlockFlow

universe u v

variable {σ : Type v} {α : Type u}

/-! ## The bound on the moves of the inner stage -/

/-- An inner stage that asks for a transfer is not over. -/
theorem Pipeline.pending_pos_of_request {p : Pipeline σ α} {config : DoubleBufferConfig}
    {t : Transfer α} (hrequest : p.phase.request? config = some t) : 0 < p.pending := by
  unfold pending
  rcases InnerPhase.request?_eq_some hrequest with ⟨hphase, -⟩ | ⟨block, hphase, -, -⟩
  · rw [hphase]
    exact Nat.succ_pos _
  · rw [hphase]
    exact Nat.succ_pos _

namespace Parties

variable {config : DoubleBufferConfig} {f : BlockFunction σ α}
  {calls : Stream'.Seq (Pipeline.OuterCall α)} {stored fetched : Nat} {s s' : Parties σ α}

theorem innerMove?_of_pipeline {p : Pipeline σ α} (hmove : s.pipeline.innerMove? f = some p) :
    s.innerMove? f = some { s with pipeline := p } := by
  rw [innerMove?, hmove]
  rfl

/-- The inner stage is never over, so that the bound is positive. -/
theorem Balance.pending_pos (h : Balance config calls stored fetched s) :
    0 < s.pipeline.pending := by
  obtain ⟨t, hrequest⟩ := h.inner
  exact Pipeline.pending_pos_of_request hrequest

/-- The frames in the input FIFO, as the pipeline counts them. -/
theorem Balance.inputFill_eq (h : Balance config calls stored fetched s)
    (hchannels : 0 < config.inputChannels) :
    s.buffer.inputFill + (config.innerSize * s.pipeline.delivered + s.pipeline.phase.held config) =
      framesUpTo calls stored := by
  obtain ⟨n, hinput, hn⟩ := h.input
  have hfill : s.buffer.inputFill = n := by
    show s.buffer.input.fillCount / s.buffer.config.inputChannels = n
    rw [hinput, h.config_eq, Nat.mul_div_cancel _ hchannels]
  rw [hfill]
  exact hn

/-- A move of the inner stage takes a frame at least out of the input FIFO, or delivers a block. -/
theorem Balance.pending_lt (h : Balance config calls stored fetched s)
    (hfed : WellFed config f calls) (hmove : s.innerMove? f = some s') :
    s'.pipeline.pending < s.pipeline.pending := by
  have hfill := h.inputFill_eq hfed.inputChannels
  have hfill' := (h.inner_move hfed hmove).2.inputFill_eq hfed.inputChannels
  have hinner := hfed.innerSize
  obtain ⟨t, hrequest, ⟨-, hsome⟩ | ⟨-, hnone⟩⟩ := h.inner_cases (f := f)
  · rw [hsome] at hmove
    cases hmove
    rcases InnerPhase.request?_eq_some hrequest with ⟨hphase, rfl⟩ | ⟨block, hphase, -, rfl⟩
    · rw [innerDone_of_supplying hphase] at hfill' ⊢
      rw [hphase] at hfill
      simp only [buffer, InnerPhase.held, Pipeline.supplied] at hfill hfill'
      simp only [buffer, Pipeline.pending, Pipeline.supplied, hphase]
      omega
    · rw [innerDone_of_delivering hphase] at hfill' ⊢
      rw [hphase] at hfill
      simp only [buffer, InnerPhase.held, Pipeline.handedOver, Nat.mul_succ] at hfill hfill'
      simp only [buffer, Pipeline.pending, Pipeline.handedOver, hphase]
      omega
  · rw [hnone] at hmove
    cases hmove

/-- By induction over the moves: the inner stage keeps the balance, with as much stored and
fetched. -/
theorem Balance.settleFor (h : Balance config calls stored fetched s)
    (hfed : WellFed config f calls) (n : Nat) :
    Balance config calls stored fetched { s with pipeline := s.pipeline.settleFor f n } := by
  induction n generalizing s with
  | zero => exact h
  | succ n ih =>
    rw [Pipeline.settleFor]
    cases hmove : s.pipeline.innerMove? f with
    | none => exact h
    | some p => exact ih (h.inner_move hfed (innerMove?_of_pipeline hmove)).2

/-- With enough moves the inner stage comes to wait. -/
theorem Balance.innerMove?_settleFor (h : Balance config calls stored fetched s)
    (hfed : WellFed config f calls) {n : Nat} (hn : s.pipeline.pending ≤ n) :
    (s.pipeline.settleFor f n).innerMove? f = none := by
  induction n generalizing s with
  | zero =>
    have hpos := h.pending_pos
    omega
  | succ n ih =>
    rw [Pipeline.settleFor]
    cases hmove : s.pipeline.innerMove? f with
    | none => exact hmove
    | some p =>
      have hinner := innerMove?_of_pipeline hmove
      have hless := h.pending_lt hfed hinner
      exact ih (h.inner_move hfed hinner).2 (by dsimp only at hless ⊢; omega)

/-- The inner stage goes as far as it can, and the balance is kept. -/
theorem Balance.settled (h : Balance config calls stored fetched s)
    (hfed : WellFed config f calls) :
    Balance config calls stored fetched { s with pipeline := s.pipeline.settle f } ∧
      (s.pipeline.settle f).innerMove? f = none :=
  ⟨h.settleFor hfed _, h.innerMove?_settleFor hfed (Nat.le_refl _)⟩

/-! ## A whole call -/

section Call

variable {p : Pipeline σ α} {ended : List (Outcome × List α)} {c : Pipeline.OuterCall α}
  {out : List α}

/-- Where the inner stage waits, the output of a call is there, unless more input is left over than
the delay. -/
theorem Balance.possible_fetch
    (h : Balance config calls (ended.length + 1) ended.length
      ⟨p, .calling [c.fetch config] out, ended⟩)
    (hfed : WellFed config f calls) (hcall : calls.get? ended.length = some c)
    (hwaits : p.innerMove? f = none) (hserved : ¬ FirstShort config calls ended.length) :
    p.buffer.Possible (c.fetch config) := by
  by_contra hnot
  have houter : outerMove? calls ⟨p, .calling [c.fetch config] out, ended⟩ = none :=
    outerMove?_of_not_possible h.ready rfl hnot (h.count_fetch_le (hfed.calls _ c hcall))
  have hinner : innerMove? f ⟨p, .calling [c.fetch config] out, ended⟩ = none := by
    rw [innerMove?, hwaits]
    rfl
  rcases h.halted hfed ⟨houter, hinner⟩ with hnone | hstalled
  · rw [hcall] at hnone
    cases hnone
  · exact hserved (h.firstShort hstalled)

/-- A call of the pipeline succeeds, unless it is the first after which more input is left over than
the delay. -/
theorem Balance.process (h : Balance config calls ended.length ended.length ⟨p, .idle, ended⟩)
    (hfed : WellFed config f calls) (hcall : calls.get? ended.length = some c)
    (hserved : ¬ FirstShort config calls ended.length) :
    ∃ block p', p.process f c.input c.out c.frames =
      { outcome := .ok (), buffer := block, after := p' } := by
  have hfits := hfed.calls _ c hcall
  -- the input is stored after the inner stage has gone ahead
  obtain ⟨hstoring, -⟩ := (h.begin hcall).settled hfed
  have hstore : (p.settle f).buffer.attempt c.out (c.store config) = _ :=
    hstoring.ready.attempt_of_possible (hstoring.possible_store hfits) c.out
  -- and the output is fetched when it has gone ahead once more
  obtain ⟨hfetching, hwaits⟩ := (hstoring.store hcall hfits).settled hfed
  have hfetch : (Pipeline.settle f { p.settle f with
        buffer := (p.settle f).buffer.performed (c.store config) }).buffer.attempt c.out
        (c.fetch config) = _ :=
    hfetching.ready.attempt_of_possible (hfetching.possible_fetch hfed hcall hwaits hserved) c.out
  have hts : p.buffer.processTransfers c.input c.out.length c.frames = _ :=
    h.processTransfers_eq hfits
  have hout : (p.settle f).buffer.filled c.out (c.store config) = c.out := rfl
  simp only [Pipeline.process, hts, Pipeline.carryOn, hstore, hout, hfetch]
  exact ⟨_, _, rfl⟩

end Call

end Parties

/-! ## The end of the inner stage -/

namespace Pipeline

variable {f : BlockFunction σ α} {p : Pipeline σ α} {config : DoubleBufferConfig} {t : Transfer α}

/-- An inner stage that was told to fail raises the error when it begins its next call, whichever
that is. -/
theorem innerMove?_of_told {error : FifoError} (htold : p.buffer.innerError = some error)
    (hrequest : p.phase.request? config = some t) :
    p.innerMove? f = some { p with phase := .ended error.duplicate } := by
  rcases InnerPhase.request?_eq_some hrequest with ⟨hphase, -⟩ | ⟨block, hphase, -, -⟩
  · rw [innerMove?, hphase]
    simp only [DoubleBuffer.supplyTransfers_of_told htold]
  · rw [innerMove?, hphase]
    simp only [DoubleBuffer.deliverTransfers_of_told htold]

/-- An inner stage that is told to fail ends with that error at its next move. -/
theorem finish_eq (huntold : p.buffer.innerError = none)
    (hrequest : p.phase.request? config = some t) (error : FifoError) :
    p.finish f error = { p.provoke .inner error with phase := .ended error.duplicate } := by
  have htold : (p.provoke .inner error).buffer.innerError = some error := by
    show p.buffer.innerError.or (some error) = some error
    rw [huntold]
    rfl
  have hasks : (p.provoke .inner error).phase.request? config = some t := hrequest
  obtain ⟨n, hn⟩ := Nat.exists_eq_succ_of_ne_zero (Nat.ne_of_gt (pending_pos_of_request hasks))
  rw [finish, settle, hn, settleFor, innerMove?_of_told htold hasks]
  cases n <;> rfl

end Pipeline

end BlockFlow
