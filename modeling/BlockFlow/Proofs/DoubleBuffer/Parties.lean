import BlockFlow.DoubleBuffer.Pipeline
import BlockFlow.Proofs.DoubleBuffer.Blocking
import Mathlib.Data.Seq.Defs
import Mathlib.Logic.Relation

/-!
# The transfers of the two stages in any order

The outer stage makes a finite or an endless sequence of calls and the inner stage works on its
own. Each of them makes one move at a time: it starts or ends a call, or makes the next transfer
if that is possible. The moves of the two may follow each other in any order (`Move`), and a run
is maximal if it goes on as long as either of them can move (`Maximal`). The pipeline that takes
the inner stage along as far as it can go runs through one of these orders (`reaches_process`).
-/

set_option autoImplicit false

namespace BlockFlow

universe u v

variable {σ : Type v} {α : Type u}

/-! ## The inner stage -/

/-- The transfer that takes an inner block of input. -/
def DoubleBufferConfig.supply (config : DoubleBufferConfig) : Transfer α :=
  .pull .input (config.innerSize * config.inputChannels)

/-- The transfer that delivers an inner block of output. -/
def DoubleBufferConfig.deliver (config : DoubleBufferConfig) (block : List α) : Transfer α :=
  .push .output (block.take (config.innerSize * config.outputChannels))

/-- The transfer that the inner stage asks for. -/
def InnerPhase.request? (config : DoubleBufferConfig) : InnerPhase α → Option (Transfer α)
  | supplying => some config.supply
  | delivering block =>
    if config.innerSize * config.outputChannels ≤ block.length then
      some (config.deliver block)
    else
      none
  | ended _ => none

/-- The inner stage asks for a block of input, or for space for the block that it has computed. -/
theorem InnerPhase.request?_eq_some {config : DoubleBufferConfig} {phase : InnerPhase α}
    {t : Transfer α} (hrequest : phase.request? config = some t) :
    phase = .supplying ∧ t = config.supply ∨
      ∃ block, phase = .delivering block ∧
        config.innerSize * config.outputChannels ≤ block.length ∧ t = config.deliver block := by
  cases phase with
  | supplying =>
    cases hrequest
    exact .inl ⟨rfl, rfl⟩
  | delivering block =>
    obtain ⟨hlength, hdeliver⟩ := Option.ite_some_none_eq_some.1 hrequest
    exact .inr ⟨block, rfl, hlength, hdeliver.symm⟩
  | ended e => cases hrequest

/-- The inner stage after its transfer, given what the transfer fetched. -/
def InnerPhase.resume (f : BlockFunction σ α) : InnerPhase α → Pipeline σ α → List α → Pipeline σ α
  | supplying => Pipeline.supplied f
  | delivering _ => Pipeline.handedOver
  | ended _ => fun p _ => p

namespace Pipeline

variable {f : BlockFunction σ α} {p : Pipeline σ α}

@[simp] theorem buffer_resume (phase : InnerPhase α) (p : Pipeline σ α) (block : List α) :
    (phase.resume f p block).buffer = p.buffer := by
  cases phase <;> rfl

/-- What the inner stage does with its block has nothing to do with the double buffer. -/
theorem resume_buffer (phase : InnerPhase α) (p : Pipeline σ α) (block : List α)
    (buffer : DoubleBuffer BlockingRing α) :
    { phase.resume f p block with buffer } = phase.resume f { p with buffer } block := by
  cases phase <;> rfl

/-- The inner stage tries its one transfer. -/
theorem innerMove?_eq (h : p.buffer.Ready) {t : Transfer α}
    (hrequest : p.phase.request? p.buffer.config = some t) :
    p.innerMove? f = p.afterTransfer (p.buffer.proceed [t] []) (p.phase.resume f) := by
  rcases InnerPhase.request?_eq_some hrequest with ⟨hphase, rfl⟩ | ⟨block, hphase, hlength, rfl⟩
  · have hts := DoubleBuffer.supplyTransfers_eq_ok.2 ⟨h.innerUntold, le_rfl, rfl⟩
    rw [innerMove?, hphase]
    simp only [hts]
    rfl
  · have hts := DoubleBuffer.deliverTransfers_eq_ok.2 ⟨h.innerUntold, hlength, rfl⟩
    rw [innerMove?, hphase]
    simp only [hts]
    rfl

/-- The inner stage makes a transfer that is possible. -/
theorem innerMove?_of_possible (h : p.buffer.Ready) {t : Transfer α}
    (hrequest : p.phase.request? p.buffer.config = some t) (hpossible : p.buffer.Possible t) :
    p.innerMove? f = some (p.phase.resume f { p with buffer := p.buffer.performed t }
      (p.buffer.filled [] t)) := by
  rw [innerMove?_eq h hrequest, DoubleBuffer.proceed, h.attempt_of_possible hpossible]
  rfl

/-- The inner stage waits for a transfer that is not possible. -/
theorem innerMove?_of_not_possible (h : p.buffer.Ready) {t : Transfer α}
    (hrequest : p.phase.request? p.buffer.config = some t) (hnot : ¬ p.buffer.Possible t)
    (hcount : DoubleBuffer.count t ≤ (p.buffer.fifo t.lane).capacity) :
    p.innerMove? f = none := by
  rw [innerMove?_eq h hrequest, DoubleBuffer.proceed, h.attempt_of_not_possible hnot hcount]
  rfl

end Pipeline

/-! ## Both stages -/

/-- Where the outer stage stands. -/
inductive OuterPhase (α : Type u) where
  | idle
  /-- It makes a call with these transfers left and this buffer. -/
  | calling (rest : List (Transfer α)) (out : List α)

/-- A pipeline with an outer stage that makes its calls one transfer at a time, and how its calls
ended so far, each with its buffer. -/
structure Parties (σ : Type v) (α : Type u) where
  pipeline : Pipeline σ α
  outer : OuterPhase α
  ended : List (Outcome × List α)

namespace Parties

/-- Both stages before their first move. -/
def start (buffer : DoubleBuffer BlockingRing α) (state : σ) : Parties σ α :=
  { pipeline := .start buffer state, outer := .idle, ended := [] }

/-- The double buffer between the stages. -/
abbrev buffer (s : Parties σ α) : DoubleBuffer BlockingRing α := s.pipeline.buffer

/-- The next move of the outer stage, unless it has to wait or has made all its calls. -/
def outerMove? (calls : Stream'.Seq (Pipeline.OuterCall α)) (s : Parties σ α) :
    Option (Parties σ α) :=
  match s.outer with
  | .idle =>
    match calls.get? s.ended.length with
    | none => none
    | some c =>
      match s.buffer.processTransfers c.input c.out.length c.frames with
      | .error e => some { s with ended := s.ended ++ [(.error e, c.out)] }
      | .ok ts => some { s with outer := .calling ts c.out }
  | .calling [] out => some { s with outer := .idle, ended := s.ended ++ [(.ok (), out)] }
  | .calling (t :: ts) out =>
    match s.buffer.attempt out t with
    | .done (out', buffer) =>
      some { s with pipeline := { s.pipeline with buffer }, outer := .calling ts out' }
    | .failed e => some { s with outer := .idle, ended := s.ended ++ [(.error e, out)] }
    | .blocked => none

/-- The next move of the inner stage, unless it has to wait or is over. -/
def innerMove? (f : BlockFunction σ α) (s : Parties σ α) : Option (Parties σ α) :=
  (s.pipeline.innerMove? f).map fun pipeline => { s with pipeline }

/-- One move of either stage. -/
def Move (f : BlockFunction σ α) (calls : Stream'.Seq (Pipeline.OuterCall α))
    (s s' : Parties σ α) : Prop :=
  s.outerMove? calls = some s' ∨ s.innerMove? f = some s'

/-- Any number of moves of the two stages, in any order. -/
abbrev Reaches (f : BlockFunction σ α) (calls : Stream'.Seq (Pipeline.OuterCall α)) :
    Parties σ α → Parties σ α → Prop :=
  Relation.ReflTransGen (Move f calls)

/-- Neither stage can move. -/
def Halted (f : BlockFunction σ α) (calls : Stream'.Seq (Pipeline.OuterCall α))
    (s : Parties σ α) : Prop :=
  s.outerMove? calls = none ∧ s.innerMove? f = none

/-- A run that goes on as long as either stage can move, and then stays where it is. -/
structure Maximal (f : BlockFunction σ α) (calls : Stream'.Seq (Pipeline.OuterCall α))
    (s : Parties σ α) (run : Nat → Parties σ α) : Prop where
  zero : run 0 = s
  succ : ∀ n, Move f calls (run n) (run (n + 1)) ∨
    Halted f calls (run n) ∧ run (n + 1) = run n

theorem Maximal.reaches {f : BlockFunction σ α} {calls : Stream'.Seq (Pipeline.OuterCall α)}
    {s : Parties σ α} {run : Nat → Parties σ α} (h : Maximal f calls s run) (n : Nat) :
    Reaches f calls s (run n) := by
  induction n with
  | zero =>
    rw [h.zero]
  | succ n ih =>
    rcases h.succ n with hmove | ⟨-, hstays⟩
    · exact ih.tail hmove
    · rw [hstays]
      exact ih

/-! ## Transfers that are made -/

/-- The stages after a transfer of the outer stage with `ts` left to make. -/
def outerDone (s : Parties σ α) (t : Transfer α) (ts : List (Transfer α)) (out : List α) :
    Parties σ α :=
  { s with
    pipeline := { s.pipeline with buffer := s.buffer.performed t }
    outer := .calling ts (s.buffer.filled out t) }

/-- The stages after a transfer of the inner stage. -/
def innerDone (f : BlockFunction σ α) (s : Parties σ α) (t : Transfer α) : Parties σ α :=
  { s with
    pipeline := s.pipeline.phase.resume f { s.pipeline with buffer := s.buffer.performed t }
      (s.buffer.filled [] t) }

section Done

variable {f : BlockFunction σ α} {calls : Stream'.Seq (Pipeline.OuterCall α)} {s : Parties σ α}

theorem innerDone_of_supplying (hphase : s.pipeline.phase = .supplying) (t : Transfer α) :
    s.innerDone f t = { s with
      pipeline := Pipeline.supplied f { s.pipeline with buffer := s.buffer.performed t }
        (s.buffer.filled [] t) } := by
  rw [innerDone, hphase]
  rfl

theorem innerDone_of_delivering {block : List α} (hphase : s.pipeline.phase = .delivering block)
    (t : Transfer α) :
    s.innerDone f t = { s with
      pipeline := Pipeline.handedOver { s.pipeline with buffer := s.buffer.performed t }
        (s.buffer.filled [] t) } := by
  rw [innerDone, hphase]
  rfl

@[simp] theorem buffer_innerDone (t : Transfer α) :
    (s.innerDone f t).buffer = s.buffer.performed t :=
  Pipeline.buffer_resume ..

/-- The stages after a transfer of each, in either order. -/
theorem innerDone_outerDone {t u : Transfer α} (hready : s.buffer.Ready)
    (ht : s.buffer.Possible t) (hu : s.buffer.Possible u) (hapart : DoubleBuffer.Apart t u)
    (ts : List (Transfer α)) (out : List α) :
    (s.innerDone f u).outerDone t ts out = (s.outerDone t ts out).innerDone f u := by
  have hout := DoubleBuffer.filled_performed hready hu ht hapart.symm out
  have hblock := DoubleBuffer.filled_performed hready ht hu hapart []
  have hbuffer : (s.buffer.performed t).performed u = (s.buffer.performed u).performed t :=
    DoubleBuffer.performed_comm hapart
  rw [outerDone, buffer_innerDone, hout, ← hbuffer]
  simp only [innerDone, outerDone, Pipeline.resume_buffer, hblock]

/-- The outer stage makes a transfer that is possible. -/
theorem outerMove?_of_possible (h : s.buffer.Ready) {t : Transfer α} {ts : List (Transfer α)}
    {out : List α} (houter : s.outer = .calling (t :: ts) out) (hpossible : s.buffer.Possible t) :
    s.outerMove? calls = some (s.outerDone t ts out) := by
  rw [outerMove?, houter]
  simp only [h.attempt_of_possible hpossible]
  rfl

/-- The outer stage waits for a transfer that is not possible. -/
theorem outerMove?_of_not_possible (h : s.buffer.Ready) {t : Transfer α} {ts : List (Transfer α)}
    {out : List α} (houter : s.outer = .calling (t :: ts) out) (hnot : ¬ s.buffer.Possible t)
    (hcount : DoubleBuffer.count t ≤ (s.buffer.fifo t.lane).capacity) :
    s.outerMove? calls = none := by
  rw [outerMove?, houter]
  simp only [h.attempt_of_not_possible hnot hcount]

/-- The outer stage ends a call whose transfers are made. -/
theorem outerMove?_return {out : List α} (houter : s.outer = .calling [] out) :
    s.outerMove? calls =
      some { s with outer := .idle, ended := s.ended ++ [(.ok (), out)] } := by
  rw [outerMove?, houter]

/-- The inner stage makes a transfer that is possible. -/
theorem innerMove?_of_possible (h : s.buffer.Ready) {t : Transfer α}
    (hrequest : s.pipeline.phase.request? s.buffer.config = some t)
    (hpossible : s.buffer.Possible t) : s.innerMove? f = some (s.innerDone f t) := by
  rw [innerMove?, Pipeline.innerMove?_of_possible h hrequest hpossible]
  rfl

/-- The inner stage does not see where the outer stage stands. -/
theorem innerMove?_congr {s' s₂ : Parties σ α} (hmove : s.innerMove? f = some s₂)
    (hpipeline : s'.pipeline = s.pipeline) :
    s'.innerMove? f = some { s' with pipeline := s₂.pipeline } := by
  rw [innerMove?, hpipeline]
  rw [innerMove?] at hmove
  obtain ⟨p, hp, rfl⟩ := Option.map_eq_some_iff.1 hmove
  rw [hp]
  rfl

/-- The inner stage waits for a transfer that is not possible. -/
theorem innerMove?_of_not_possible (h : s.buffer.Ready) {t : Transfer α}
    (hrequest : s.pipeline.phase.request? s.buffer.config = some t)
    (hnot : ¬ s.buffer.Possible t)
    (hcount : DoubleBuffer.count t ≤ (s.buffer.fifo t.lane).capacity) :
    s.innerMove? f = none := by
  rw [innerMove?, Pipeline.innerMove?_of_not_possible h hrequest hnot hcount]
  rfl

end Done

/-! ## The order in which the pipeline makes them -/

section Schedule

variable {f : BlockFunction σ α} {calls : Stream'.Seq (Pipeline.OuterCall α)}

theorem reaches_settleFor (n : Nat) (s : Parties σ α) :
    Reaches f calls s { s with pipeline := s.pipeline.settleFor f n } := by
  induction n generalizing s with
  | zero => exact .refl
  | succ n ih =>
    cases hmove : s.pipeline.innerMove? f with
    | none =>
      rw [Pipeline.settleFor, hmove]
    | some p =>
      have hfirst : Move f calls s { s with pipeline := p } := by
        right
        rw [innerMove?, hmove]
        rfl
      rw [Pipeline.settleFor, hmove]
      exact .head hfirst (ih { s with pipeline := p })

/-- A call that the pipeline carries to its end goes through moves of the two stages. -/
theorem reaches_carryOn {ts : List (Transfer α)} {out block : List α} {p p' : Pipeline σ α}
    (hdone : p.carryOn f ts out = { outcome := .ok (), buffer := block, after := p' })
    (ended : List (Outcome × List α)) :
    Reaches f calls { pipeline := p, outer := .calling ts out, ended }
      { pipeline := p', outer := .idle, ended := ended ++ [(.ok (), block)] } := by
  induction ts generalizing out p with
  | nil =>
    cases hdone
    exact .single (.inl rfl)
  | cons t ts ih =>
    have hsettled : Reaches f calls { pipeline := p, outer := .calling (t :: ts) out, ended }
        { pipeline := p.settle f, outer := .calling (t :: ts) out, ended } := reaches_settleFor _ _
    rw [Pipeline.carryOn] at hdone
    cases hattempt : (p.settle f).buffer.attempt out t with
    | done result =>
      obtain ⟨out', buffer⟩ := result
      simp only [hattempt] at hdone
      have htransfer : Move f calls
          { pipeline := p.settle f, outer := .calling (t :: ts) out, ended }
          { pipeline := { p.settle f with buffer }, outer := .calling ts out', ended } := by
        left
        simp only [outerMove?, hattempt]
      exact hsettled.trans (.head htransfer (ih hdone))
    | failed e =>
      simp only [hattempt] at hdone
      cases hdone
    | blocked =>
      simp only [hattempt] at hdone
      cases hdone

/-- An outer call that the pipeline carries to its end goes through moves of the two stages. -/
theorem reaches_process {p p' : Pipeline σ α} {c : Pipeline.OuterCall α} {block : List α}
    (hdone : p.process f c.input c.out c.frames =
      { outcome := .ok (), buffer := block, after := p' })
    {ended : List (Outcome × List α)} (hcall : calls.get? ended.length = some c) :
    Reaches f calls { pipeline := p, outer := .idle, ended }
      { pipeline := p', outer := .idle, ended := ended ++ [(.ok (), block)] } := by
  rw [Pipeline.process] at hdone
  cases hts : p.buffer.processTransfers c.input c.out.length c.frames with
  | error e =>
    simp only [hts] at hdone
    cases hdone
  | ok ts =>
    simp only [hts] at hdone
    have hbegin : Move f calls { pipeline := p, outer := .idle, ended }
        { pipeline := p, outer := .calling ts c.out, ended } := by
      left
      simp only [outerMove?, hcall, hts]
    exact .head hbegin (reaches_carryOn hdone ended)

end Schedule

end Parties

end BlockFlow
