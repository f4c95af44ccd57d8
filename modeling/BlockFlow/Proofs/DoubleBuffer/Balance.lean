import BlockFlow.Proofs.DoubleBuffer.Parties
import Mathlib.Algebra.Order.Ring.Nat

/-!
# Where the frames are

While the two stages work on a new double buffer, every frame of input is stored, in the hands of
the inner stage, or delivered, and every frame of output is stored or fetched (`Balance`). The
FIFOs are just large enough for what can be in them: neither the input of a call nor a block of
output ever has to wait for space (`Balance.possible_store`, `Balance.possible_deliver`). A call
gets its output only if what is left over of the input by then is no more than the delay
(`Balance.served`).
-/

set_option autoImplicit false

namespace BlockFlow

universe u v

variable {σ : Type v} {α : Type u}

/-- The sizes of a call are those that the outer stage may use. -/
structure Pipeline.OuterCall.Fits (config : DoubleBufferConfig) (c : Pipeline.OuterCall α) :
    Prop where
  frames : c.frames ≤ config.outerSize
  input : c.frames * config.inputChannels ≤ c.input.length
  out : c.frames * config.outputChannels ≤ c.out.length

/-- The transfer that stores the input of a call. -/
def Pipeline.OuterCall.store (config : DoubleBufferConfig) (c : Pipeline.OuterCall α) :
    Transfer α :=
  .push .input (c.input.take (c.frames * config.inputChannels))

/-- The transfer that fetches the output of a call. -/
def Pipeline.OuterCall.fetch (config : DoubleBufferConfig) (c : Pipeline.OuterCall α) :
    Transfer α :=
  .pull .output (c.frames * config.outputChannels)

theorem Pipeline.OuterCall.Fits.length_store {config : DoubleBufferConfig}
    {c : Pipeline.OuterCall α} (hfits : c.Fits config) :
    (c.input.take (c.frames * config.inputChannels)).length = c.frames * config.inputChannels :=
  List.length_take_of_le hfits.input

/-- The inner stage computes whole blocks of output. -/
def DoubleBufferConfig.Computes (config : DoubleBufferConfig) (f : BlockFunction σ α) : Prop :=
  ∀ state block, block.length = config.innerSize * config.inputChannels →
    config.innerSize * config.outputChannels ≤ (f state block).1.length

/-- Frames of the first `k` calls. -/
def framesUpTo (calls : Stream'.Seq (Pipeline.OuterCall α)) : Nat → Nat
  | 0 => 0
  | k + 1 => framesUpTo calls k + ((calls.get? k).map Pipeline.OuterCall.frames).getD 0

theorem framesUpTo_succ {calls : Stream'.Seq (Pipeline.OuterCall α)} {k : Nat}
    {c : Pipeline.OuterCall α} (hcall : calls.get? k = some c) :
    framesUpTo calls (k + 1) = framesUpTo calls k + c.frames := by
  rw [framesUpTo, hcall]
  rfl

/-- Frames that the inner stage has taken and not delivered. -/
def InnerPhase.held (config : DoubleBufferConfig) : InnerPhase α → Nat
  | supplying => 0
  | delivering _ => config.innerSize
  | ended _ => 0

/-- Where the outer stage stands after `k` calls: how many inputs it has stored and how many
outputs it has fetched. -/
inductive OuterPhase.Stands (config : DoubleBufferConfig)
    (calls : Stream'.Seq (Pipeline.OuterCall α)) (k : Nat) : Nat → Nat → OuterPhase α → Prop
  | idle : Stands config calls k k k .idle
  | storing {c : Pipeline.OuterCall α} (hcall : calls.get? k = some c) (out : List α) :
      Stands config calls k k k (.calling [c.store config, c.fetch config] out)
  | fetching {c : Pipeline.OuterCall α} (hcall : calls.get? k = some c) (out : List α) :
      Stands config calls k (k + 1) k (.calling [c.fetch config] out)
  | returning {c : Pipeline.OuterCall α} (hcall : calls.get? k = some c) (out : List α) :
      Stands config calls k (k + 1) (k + 1) (.calling [] out)

namespace Parties

/-- The invariant of the two stages on a new double buffer, when the inputs of `stored` calls are
stored and the outputs of `fetched` calls are fetched. -/
structure Balance (config : DoubleBufferConfig) (calls : Stream'.Seq (Pipeline.OuterCall α))
    (stored fetched : Nat) (s : Parties σ α) : Prop where
  config_eq : s.buffer.config = config
  ready : s.buffer.Ready
  inputCapacity : s.buffer.input.capacity =
    (max config.outerSize config.innerSize + config.delay) * config.inputChannels
  outputCapacity : s.buffer.output.capacity =
    (max config.outerSize config.innerSize + config.delay) * config.outputChannels
  inner : ∃ t, s.pipeline.phase.request? config = some t
  outer : s.outer.Stands config calls s.ended.length stored fetched
  input : ∃ n, s.buffer.input.fillCount = n * config.inputChannels ∧
    n + (config.innerSize * s.pipeline.delivered + s.pipeline.phase.held config) =
      framesUpTo calls stored
  output : ∃ n, s.buffer.output.fillCount = n * config.outputChannels ∧
    n + framesUpTo calls fetched = config.delay + config.innerSize * s.pipeline.delivered
  served : ∀ k < fetched, framesUpTo calls (k + 1) % config.innerSize ≤ config.delay
  succeeded : ∀ result ∈ s.ended, result.1 = .ok ()

/-- A transfer keeps the configuration, and no FIFO grows or shrinks. -/
theorem Balance.performed {config : DoubleBufferConfig} {calls : Stream'.Seq (Pipeline.OuterCall α)}
    {stored fetched : Nat} {s : Parties σ α} (h : Balance config calls stored fetched s)
    (t : Transfer α) :
    (s.buffer.performed t).config = config ∧ (s.buffer.performed t).Ready ∧
      (s.buffer.performed t).input.capacity =
        (max config.outerSize config.innerSize + config.delay) * config.inputChannels ∧
      (s.buffer.performed t).output.capacity =
        (max config.outerSize config.innerSize + config.delay) * config.outputChannels := by
  refine ⟨?_, h.ready.performed t, ?_, ?_⟩
  · rw [DoubleBuffer.config_performed]
    exact h.config_eq
  · exact (DoubleBuffer.capacity_performed _ _ .input).trans h.inputCapacity
  · exact (DoubleBuffer.capacity_performed _ _ .output).trans h.outputCapacity

/-! ## Moves of the outer stage -/

section Outer

variable {config : DoubleBufferConfig} {calls : Stream'.Seq (Pipeline.OuterCall α)}
  {p : Pipeline σ α} {ended : List (Outcome × List α)} {c : Pipeline.OuterCall α} {out : List α}

/-- A call whose sizes fit is let through. -/
theorem Balance.processTransfers_eq {s : Parties σ α} {stored fetched : Nat}
    (h : Balance config calls stored fetched s) (hfits : c.Fits config) :
    s.buffer.processTransfers c.input c.out.length c.frames =
      .ok [c.store config, c.fetch config] := by
  refine DoubleBuffer.processTransfers_eq_ok.2 ⟨h.ready.outerUntold, ?_⟩
  rw [h.config_eq]
  exact ⟨hfits.frames, hfits.input, hfits.out, nofun, rfl⟩

theorem outerMove?_begin {s : Parties σ α} {stored fetched : Nat}
    (h : Balance config calls stored fetched s) (houter : s.outer = .idle)
    (hcall : calls.get? s.ended.length = some c) (hfits : c.Fits config) :
    s.outerMove? calls =
      some { s with outer := .calling [c.store config, c.fetch config] c.out } := by
  rw [outerMove?, houter]
  simp only [hcall, h.processTransfers_eq hfits]

theorem Balance.begin (h : Balance config calls ended.length ended.length ⟨p, .idle, ended⟩)
    (hcall : calls.get? ended.length = some c) :
    Balance config calls ended.length ended.length
      ⟨p, .calling [c.store config, c.fetch config] c.out, ended⟩ :=
  { h with outer := .storing hcall c.out }

/-- When a call starts, all output fetched so far came from delivered blocks or from the delay, so
no more than `delay` frames of input are stored. -/
theorem Balance.possible_store {outer : OuterPhase α}
    (h : Balance config calls ended.length ended.length ⟨p, outer, ended⟩)
    (hfits : c.Fits config) : p.buffer.Possible (c.store config) := by
  obtain ⟨n, hinput, hn⟩ := h.input
  obtain ⟨m, -, hm⟩ := h.output
  have hframes := hfits.frames
  -- as much was stored so far as was fetched, so at most `delay` frames of it are left
  have hroom : n + c.frames ≤ max config.outerSize config.innerSize + config.delay := by omega
  exact h.ready.possible_push_of_frames hinput h.inputCapacity hfits.length_store hroom

theorem Balance.store
    (h : Balance config calls ended.length ended.length
      ⟨p, .calling [c.store config, c.fetch config] out, ended⟩)
    (hcall : calls.get? ended.length = some c) (hfits : c.Fits config) :
    Balance config calls (ended.length + 1) ended.length
      ⟨{ p with buffer := p.buffer.performed (c.store config) }, .calling [c.fetch config] out,
        ended⟩ := by
  obtain ⟨hconfig, hready, hinputCapacity, houtputCapacity⟩ := h.performed (c.store config)
  obtain ⟨n, hinput, hn⟩ := h.input
  obtain ⟨m, houtput, hm⟩ := h.output
  have hinput' : ((p.buffer.performed (c.store config)).fifo .input).fillCount =
      (n + c.frames) * config.inputChannels :=
    h.ready.frames_push hinput hfits.length_store (h.possible_store hfits)
  have houtput' : ((p.buffer.performed (c.store config)).fifo .output).fillCount =
      m * config.outputChannels :=
    DoubleBuffer.frames_of_ne houtput nofun
  refine { h with
    config_eq := hconfig
    ready := hready
    inputCapacity := hinputCapacity
    outputCapacity := houtputCapacity
    outer := .fetching hcall out
    input := ⟨n + c.frames, hinput', ?_⟩
    output := ⟨m, houtput', hm⟩ }
  rw [framesUpTo_succ hcall, ← hn]
  exact Nat.add_right_comm ..

/-- Output of a call comes from the delay and from delivered blocks. What is left over of the input
is in the input FIFO or in the hands of the inner stage, and is no more than the delay. -/
theorem Balance.mod_le_of_possible_fetch {outer : OuterPhase α}
    (h : Balance config calls (ended.length + 1) ended.length ⟨p, outer, ended⟩)
    (hcall : calls.get? ended.length = some c) (hchannels : 0 < config.outputChannels)
    (hpossible : p.buffer.Possible (c.fetch config)) :
    framesUpTo calls (ended.length + 1) % config.innerSize ≤ config.delay := by
  obtain ⟨n, -, hn⟩ := h.input
  obtain ⟨m, houtput, hm⟩ := h.output
  have hframes : c.frames ≤ m :=
    DoubleBuffer.frames_le_of_possible_pull hpossible houtput hchannels
  have hsum := framesUpTo_succ hcall
  dsimp only at hn hm
  -- whole blocks do not count modulo the inner size, and the rest is at most what is not delivered
  rw [← hn, Nat.add_comm n, Nat.add_assoc, Nat.mul_add_mod]
  have hle := Nat.mod_le (p.phase.held config + n) config.innerSize
  omega

theorem Balance.fetch
    (h : Balance config calls (ended.length + 1) ended.length
      ⟨p, .calling [c.fetch config] out, ended⟩)
    (hcall : calls.get? ended.length = some c) (hchannels : 0 < config.outputChannels)
    (hpossible : p.buffer.Possible (c.fetch config)) :
    Balance config calls (ended.length + 1) (ended.length + 1)
      ⟨{ p with buffer := p.buffer.performed (c.fetch config) },
        .calling [] (p.buffer.filled out (c.fetch config)), ended⟩ := by
  obtain ⟨hconfig, hready, hinputCapacity, houtputCapacity⟩ := h.performed (c.fetch config)
  have hserved := h.mod_le_of_possible_fetch hcall hchannels hpossible
  obtain ⟨n, hinput, hn⟩ := h.input
  obtain ⟨m, houtput, hm⟩ := h.output
  have hframes : c.frames ≤ m :=
    DoubleBuffer.frames_le_of_possible_pull hpossible houtput hchannels
  have hinput' : ((p.buffer.performed (c.fetch config)).fifo .input).fillCount =
      n * config.inputChannels :=
    DoubleBuffer.frames_of_ne hinput nofun
  have houtput' : ((p.buffer.performed (c.fetch config)).fifo .output).fillCount =
      (m - c.frames) * config.outputChannels :=
    h.ready.frames_pull houtput hpossible
  refine { h with
    config_eq := hconfig
    ready := hready
    inputCapacity := hinputCapacity
    outputCapacity := houtputCapacity
    outer := .returning hcall _
    input := ⟨n, hinput', hn⟩
    output := ⟨m - c.frames, houtput', ?_⟩
    served := ?_ }
  · have hrest : m - c.frames + (framesUpTo calls ended.length + c.frames) =
        m + framesUpTo calls ended.length := by omega
    rw [framesUpTo_succ hcall]
    exact hrest.trans hm
  · intro k hk
    rcases Nat.lt_succ_iff_lt_or_eq.1 hk with hlt | rfl
    · exact h.served k hlt
    · exact hserved

theorem Balance.return
    (h : Balance config calls (ended.length + 1) (ended.length + 1)
      ⟨p, .calling [] out, ended⟩) :
    Balance config calls (ended.length + 1) (ended.length + 1)
      ⟨p, .idle, ended ++ [(.ok (), out)]⟩ := by
  have hlength : (ended ++ [(Except.ok (), out)] : List (Outcome × List α)).length =
      ended.length + 1 := List.length_append
  refine { h with outer := ?_, succeeded := ?_ }
  · rw [← hlength]
    exact .idle
  · intro result hresult
    rcases List.mem_append.1 hresult with hold | hnew
    · exact h.succeeded result hold
    · rw [List.mem_singleton.1 hnew]

end Outer

/-! ## Moves of the inner stage -/

section Inner

variable {config : DoubleBufferConfig} {calls : Stream'.Seq (Pipeline.OuterCall α)}
  {stored fetched : Nat} {s : Parties σ α} {f : BlockFunction σ α} {block : List α}

/-- The outer stage is at most one outer block ahead of itself. -/
theorem framesUpTo_stored_le {k : Nat} {outer : OuterPhase α}
    (houter : outer.Stands config calls k stored fetched)
    (hcalls : ∀ k c, calls.get? k = some c → c.Fits config) :
    framesUpTo calls stored ≤ framesUpTo calls fetched + config.outerSize := by
  cases houter with
  | idle => exact Nat.le_add_right ..
  | storing hcall out => exact Nat.le_add_right ..
  | fetching hcall out =>
    rw [framesUpTo_succ hcall]
    exact Nat.add_le_add_left (hcalls _ _ hcall).frames _
  | returning hcall out => exact Nat.le_add_right ..

/-- When a block is delivered, what was taken for it is not in the output FIFO yet, so no more
than an outer block and `delay` frames will be. -/
theorem Balance.possible_deliver (h : Balance config calls stored fetched s)
    (hcalls : ∀ k c, calls.get? k = some c → c.Fits config)
    (hphase : s.pipeline.phase = .delivering block)
    (hlength : config.innerSize * config.outputChannels ≤ block.length) :
    s.buffer.Possible (config.deliver block) := by
  have hahead := framesUpTo_stored_le h.outer hcalls
  obtain ⟨n, -, hn⟩ := h.input
  obtain ⟨m, houtput, hm⟩ := h.output
  rw [hphase] at hn
  simp only [InnerPhase.held] at hn
  -- the taken block is counted as input and not yet as output
  have hroom : m + config.innerSize ≤
      max config.outerSize config.innerSize + config.delay := by omega
  exact h.ready.possible_push_of_frames houtput h.outputCapacity
    (List.length_take_of_le hlength) hroom

/-- The block that the inner stage is given has the length that it asked for. -/
theorem Balance.length_supplied (h : Balance config calls stored fetched s)
    (hpossible : s.buffer.Possible config.supply) :
    (s.buffer.filled [] config.supply).length = config.innerSize * config.inputChannels := by
  show (s.buffer.input.ring.contents.take _ ++ List.drop _ []).length = _
  rw [List.drop_nil, List.append_nil]
  exact (h.ready.valid .input).length_take_contents hpossible

theorem Balance.supply (h : Balance config calls stored fetched s)
    (hphase : s.pipeline.phase = .supplying) (hf : config.Computes f)
    (hchannels : 0 < config.inputChannels) (hpossible : s.buffer.Possible config.supply) :
    Balance config calls stored fetched (s.innerDone f config.supply) := by
  obtain ⟨hconfig, hready, hinputCapacity, houtputCapacity⟩ := h.performed config.supply
  obtain ⟨n, hinput, hn⟩ := h.input
  obtain ⟨m, houtput, hm⟩ := h.output
  rw [hphase] at hn
  have hframes : config.innerSize ≤ n :=
    DoubleBuffer.frames_le_of_possible_pull hpossible hinput hchannels
  have hinput' : ((s.buffer.performed config.supply).fifo .input).fillCount =
      (n - config.innerSize) * config.inputChannels :=
    h.ready.frames_pull hinput hpossible
  have houtput' : ((s.buffer.performed config.supply).fifo .output).fillCount =
      m * config.outputChannels :=
    DoubleBuffer.frames_of_ne houtput nofun
  rw [innerDone_of_supplying hphase]
  refine { h with
    config_eq := hconfig
    ready := hready
    inputCapacity := hinputCapacity
    outputCapacity := houtputCapacity
    inner := ⟨_, if_pos (hf s.pipeline.state _ (h.length_supplied hpossible))⟩
    input := ⟨n - config.innerSize, hinput', ?_⟩
    output := ⟨m, houtput', hm⟩ }
  -- the frames that leave the input FIFO are now in the hands of the inner stage
  show n - config.innerSize + (config.innerSize * s.pipeline.delivered + config.innerSize) = _
  simp only [InnerPhase.held] at hn
  omega

theorem Balance.deliver (h : Balance config calls stored fetched s)
    (hphase : s.pipeline.phase = .delivering block)
    (hlength : config.innerSize * config.outputChannels ≤ block.length)
    (hpossible : s.buffer.Possible (config.deliver block)) :
    Balance config calls stored fetched (s.innerDone f (config.deliver block)) := by
  obtain ⟨hconfig, hready, hinputCapacity, houtputCapacity⟩ := h.performed (config.deliver block)
  obtain ⟨n, hinput, hn⟩ := h.input
  obtain ⟨m, houtput, hm⟩ := h.output
  rw [hphase] at hn
  have hinput' : ((s.buffer.performed (config.deliver block)).fifo .input).fillCount =
      n * config.inputChannels :=
    DoubleBuffer.frames_of_ne hinput nofun
  have houtput' : ((s.buffer.performed (config.deliver block)).fifo .output).fillCount =
      (m + config.innerSize) * config.outputChannels :=
    h.ready.frames_push houtput (List.length_take_of_le hlength) hpossible
  rw [innerDone_of_delivering hphase]
  refine { h with
    config_eq := hconfig
    ready := hready
    inputCapacity := hinputCapacity
    outputCapacity := houtputCapacity
    inner := ⟨_, rfl⟩
    input := ⟨n, hinput', ?_⟩
    output := ⟨m + config.innerSize, houtput', ?_⟩ }
  · show n + (config.innerSize * (s.pipeline.delivered + 1) + 0) = _
    rw [Nat.mul_succ]
    exact hn
  · show m + config.innerSize + _ = config.delay + config.innerSize * (s.pipeline.delivered + 1)
    rw [Nat.mul_succ]
    omega

end Inner

end Parties

end BlockFlow
