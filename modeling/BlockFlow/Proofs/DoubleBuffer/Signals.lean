import BlockFlow.Proofs.DoubleBuffer.History
import BlockFlow.Proofs.DoubleBuffer.Stall
import BlockFlow.Proofs.Interleaved

/-!
# A signal goes through the double buffer with the delay

The outer stage moves one outer block a call, and the inner stage leaves the signals of each block
where they are, whatever else it does with the samples (`KeepsSignals`). Then the signals that went
in, behind a silence of `delay` frames, are the signals that came out, those in the output FIFO, in
the hands of the inner stage and in the input FIFO, in this order (`Carried`). Every move of either
stage keeps this (`Carried.move`), so that all that came out is the beginning of what went in
with the delay (`Carried.heard_eq`).
-/

set_option autoImplicit false

namespace BlockFlow

universe u v

variable {σ : Type v} {α : Type u}

namespace DoubleBuffer

/-! ## What a transfer makes of the contents -/

section Contents

variable {db : DoubleBuffer BlockingRing α} {lane : Lane}

/-- The FIFO of a lane stores what its ring stores. -/
theorem contents_eq (db : DoubleBuffer BlockingRing α) (lane : Lane) :
    db.contents lane = (db.fifo lane).ring.contents := rfl

theorem Ready.contents_push (h : db.Ready) {block : List α}
    (hpossible : db.Possible (.push lane block)) :
    (db.performed (.push lane block)).contents lane = db.contents lane ++ block := by
  rw [contents_eq, fifo_performed_push]
  exact (h.valid lane).contents_append hpossible

theorem Ready.contents_pull (h : db.Ready) {n : Nat} (hpossible : db.Possible (.pull lane n)) :
    (db.performed (.pull lane n)).contents lane = (db.contents lane).drop n := by
  rw [contents_eq, fifo_performed_pull]
  exact (h.valid lane).contents_discard hpossible

theorem contents_performed_of_ne {t : Transfer α} (hne : t.lane ≠ lane) :
    (db.performed t).contents lane = db.contents lane := by
  rw [contents, fifo_performed_of_ne db t hne, contents]

/-- A buffer of the right size holds nothing but what was fetched. -/
theorem filled_pull {out : List α} {n : Nat} (hout : out.length = n) :
    db.filled out (.pull lane n) = (db.contents lane).take n := by
  rw [filled, List.drop_eq_nil_of_le hout.le, List.append_nil, contents_eq]

theorem Ready.length_contents (h : db.Ready) (lane : Lane) :
    (db.contents lane).length = (db.fifo lane).fillCount :=
  (h.valid lane).length_contents

end Contents

end DoubleBuffer

/-- The call moves one outer block, and its slices hold just that. -/
structure Pipeline.OuterCall.Whole (config : DoubleBufferConfig) (c : Pipeline.OuterCall α) :
    Prop where
  frames : c.frames = config.outerSize
  input : c.input.length = config.outerSize * config.inputChannels
  out : c.out.length = config.outerSize * config.outputChannels

section Whole

variable {config : DoubleBufferConfig} {c : Pipeline.OuterCall α}

theorem Pipeline.OuterCall.Whole.fits (h : c.Whole config) : c.Fits config where
  frames := h.frames.le
  input := by rw [h.frames, h.input]
  out := by rw [h.frames, h.out]

theorem Pipeline.OuterCall.Whole.store_eq (h : c.Whole config) :
    c.store config = .push .input c.input := by
  rw [store, h.frames, ← h.input, List.take_length]

theorem Pipeline.OuterCall.Whole.fetch_eq (h : c.Whole config) :
    c.fetch config = .pull .output (config.outerSize * config.outputChannels) := by
  rw [fetch, h.frames]

end Whole

/-! ## The signals on their way -/

open Interleaved (signals)

/-- The inner stage turns a block of input into a block of output with the signals in the same
frames, as long as its state is one of those in `P`. -/
structure DoubleBufferConfig.KeepsSignals (config : DoubleBufferConfig) (isSignal : α → Bool)
    (f : BlockFunction σ α) (P : σ → Prop) : Prop where
  length : ∀ state block, block.length = config.innerSize * config.inputChannels →
    (f state block).1.length = config.innerSize * config.outputChannels
  signals : ∀ state block, P state → block.length = config.innerSize * config.inputChannels →
    signals isSignal config.outputChannels (f state block).1 =
      signals isSignal config.inputChannels block
  state : ∀ state block, P state → P (f state block).2

/-- The signals in the input of the first `k` calls. -/
def signalsUpTo (isSignal : α → Bool) (channels : Nat)
    (calls : Stream'.Seq (Pipeline.OuterCall α)) : Nat → List Bool
  | 0 => []
  | k + 1 => signalsUpTo isSignal channels calls k ++
      ((calls.get? k).map fun c => signals isSignal channels c.input).getD []

theorem signalsUpTo_succ {isSignal : α → Bool} {channels k : Nat}
    {calls : Stream'.Seq (Pipeline.OuterCall α)} {c : Pipeline.OuterCall α}
    (hcall : calls.get? k = some c) :
    signalsUpTo isSignal channels calls (k + 1) =
      signalsUpTo isSignal channels calls k ++ signals isSignal channels c.input := by
  rw [signalsUpTo, hcall]
  rfl

/-- How many inputs of the present call are stored. -/
def OuterPhase.stored : OuterPhase α → Nat
  | idle => 0
  | calling [] _ => 1
  | calling [_] _ => 1
  | calling (_ :: _ :: _) _ => 0

/-- The signals in the output of the present call, once it is fetched. -/
def OuterPhase.heard (isSignal : α → Bool) (channels : Nat) : OuterPhase α → List Bool
  | idle => []
  | calling [] out => signals isSignal channels out
  | calling (_ :: _) _ => []

/-- The signals in the block that the inner stage is about to deliver. -/
def InnerPhase.signals (isSignal : α → Bool) (config : DoubleBufferConfig) :
    InnerPhase α → List Bool
  | delivering block =>
    Interleaved.signals isSignal config.outputChannels
      (block.take (config.innerSize * config.outputChannels))
  | supplying => []
  | ended _ => []

/-- The signals that are on their way, the next to come out first. -/
def DoubleBuffer.carried (isSignal : α → Bool) (config : DoubleBufferConfig)
    (db : DoubleBuffer BlockingRing α) (phase : InnerPhase α) : List Bool :=
  signals isSignal config.outputChannels (db.contents .output) ++
    (phase.signals isSignal config ++
      signals isSignal config.inputChannels (db.contents .input))

/-! ## What a transfer does to them -/

section Transfers

variable {config : DoubleBufferConfig} {isSignal : α → Bool} {db : DoubleBuffer BlockingRing α}
  {phase : InnerPhase α} {block : List α} {n : Nat}

/-- Input goes behind everything else. -/
theorem DoubleBuffer.carried_store (h : db.Ready) (hchannels : 0 < config.inputChannels)
    (hcontents : (db.contents .input).length = n * config.inputChannels)
    (hpossible : db.Possible (.push .input block)) :
    carried isSignal config (db.performed (.push .input block)) phase =
      db.carried isSignal config phase ++ signals isSignal config.inputChannels block := by
  have hother : (db.performed (.push .input block)).contents .output = db.contents .output :=
    contents_performed_of_ne nofun
  rw [carried, hother, h.contents_push hpossible, Interleaved.signals_append hchannels hcontents,
    carried]
  simp only [List.append_assoc]

/-- Output comes from the front. -/
theorem DoubleBuffer.carried_fetch (h : db.Ready) (hchannels : 0 < config.outputChannels)
    (hpossible : db.Possible (.pull .output (n * config.outputChannels))) :
    signals isSignal config.outputChannels
        ((db.contents .output).take (n * config.outputChannels)) ++
      carried isSignal config (db.performed (.pull .output (n * config.outputChannels))) phase =
    db.carried isSignal config phase := by
  have hother : (db.performed (.pull .output (n * config.outputChannels))).contents .input =
      db.contents .input := contents_performed_of_ne nofun
  have htaken : ((db.contents .output).take (n * config.outputChannels)).length =
      n * config.outputChannels := (h.valid .output).length_take_contents hpossible
  rw [carried, hother, h.contents_pull hpossible, ← List.append_assoc,
    ← Interleaved.signals_append hchannels htaken, List.take_append_drop, carried]

/-- A block of input is now in the hands of the inner stage, with its signals where they were. -/
theorem DoubleBuffer.carried_supply (h : db.Ready) (hchannels : 0 < config.inputChannels)
    (hpossible : db.Possible config.supply)
    (hblock : signals isSignal config.outputChannels
        (block.take (config.innerSize * config.outputChannels)) =
      signals isSignal config.inputChannels
        ((db.contents .input).take (config.innerSize * config.inputChannels))) :
    carried isSignal config (db.performed config.supply) (.delivering block) =
      db.carried isSignal config .supplying := by
  have hother : (db.performed config.supply).contents .output = db.contents .output :=
    contents_performed_of_ne nofun
  have htaken : ((db.contents .input).take (config.innerSize * config.inputChannels)).length =
      config.innerSize * config.inputChannels := (h.valid .input).length_take_contents hpossible
  have hrest : (db.performed config.supply).contents .input =
      (db.contents .input).drop (config.innerSize * config.inputChannels) :=
    h.contents_pull hpossible
  rw [carried, hother, hrest, InnerPhase.signals, hblock,
    ← Interleaved.signals_append hchannels htaken, List.take_append_drop, carried]
  rfl

/-- A block of output goes into the output FIFO, behind what is there and before the input. -/
theorem DoubleBuffer.carried_deliver (h : db.Ready) (hchannels : 0 < config.outputChannels)
    (hcontents : (db.contents .output).length = n * config.outputChannels)
    (hpossible : db.Possible (config.deliver block)) :
    carried isSignal config (db.performed (config.deliver block)) .supplying =
      db.carried isSignal config (.delivering block) := by
  have hother : (db.performed (config.deliver block)).contents .input = db.contents .input :=
    contents_performed_of_ne nofun
  have hthere : (db.performed (config.deliver block)).contents .output =
      db.contents .output ++ block.take (config.innerSize * config.outputChannels) :=
    h.contents_push hpossible
  rw [carried, hother, hthere, Interleaved.signals_append hchannels hcontents, carried,
    InnerPhase.signals, InnerPhase.signals]
  simp only [List.append_assoc, List.nil_append]

end Transfers

namespace Parties

/-- The signals that came out so far. -/
def heard (isSignal : α → Bool) (channels : Nat) (ended : List (Outcome × List α))
    (outer : OuterPhase α) : List Bool :=
  ended.flatMap (fun result => signals isSignal channels result.2) ++ outer.heard isSignal channels

/-- What went in, with the delay, is what came out and what is on its way. -/
structure Carried (config : DoubleBufferConfig) (isSignal : α → Bool)
    (calls : Stream'.Seq (Pipeline.OuterCall α)) (P : σ → Prop) (s : Parties σ α) : Prop where
  law : List.replicate config.delay false ++
      signalsUpTo isSignal config.inputChannels calls (s.ended.length + s.outer.stored) =
    heard isSignal config.outputChannels s.ended s.outer ++
      s.buffer.carried isSignal config s.pipeline.phase
  buffer_length : ∀ rest out, s.outer = .calling rest out →
    out.length = config.outerSize * config.outputChannels
  ended_length : ∀ result ∈ s.ended,
    result.2.length = config.outerSize * config.outputChannels
  called : ∀ k < s.ended.length, calls.get? k ≠ none
  state : P s.pipeline.state

section Moves

variable {config : DoubleBufferConfig} {isSignal : α → Bool} {f : BlockFunction σ α}
  {calls : Stream'.Seq (Pipeline.OuterCall α)} {P : σ → Prop} {stored fetched : Nat}
  {s s' : Parties σ α} {p : Pipeline σ α} {ended : List (Outcome × List α)}
  {c : Pipeline.OuterCall α} {out block : List α}

/-- What either FIFO stores are whole frames. -/
theorem Balance.length_contents (h : Balance config calls stored fetched s) :
    (∃ n, (s.buffer.contents .input).length = n * config.inputChannels) ∧
      ∃ n, (s.buffer.contents .output).length = n * config.outputChannels := by
  obtain ⟨n, hinput, -⟩ := h.input
  obtain ⟨m, houtput, -⟩ := h.output
  exact ⟨⟨n, (h.ready.length_contents .input).trans hinput⟩,
    ⟨m, (h.ready.length_contents .output).trans houtput⟩⟩

/-! ## Moves of the outer stage -/

theorem Carried.begin (hc : Carried config isSignal calls P ⟨p, .idle, ended⟩)
    (hwhole : c.Whole config) :
    Carried config isSignal calls P
      ⟨p, .calling [c.store config, c.fetch config] c.out, ended⟩ where
  __ := hc
  buffer_length := by
    intro rest out houter
    cases houter
    exact hwhole.out

theorem Carried.store
    (hc : Carried config isSignal calls P
      ⟨p, .calling [c.store config, c.fetch config] out, ended⟩)
    (h : Balance config calls ended.length ended.length
      ⟨p, .calling [c.store config, c.fetch config] out, ended⟩)
    (hcall : calls.get? ended.length = some c) (hwhole : c.Whole config)
    (hchannels : 0 < config.inputChannels) :
    Carried config isSignal calls P
      ⟨{ p with buffer := p.buffer.performed (c.store config) }, .calling [c.fetch config] out,
        ended⟩ where
  __ := hc
  law := by
    have hpossible := h.possible_store hwhole.fits
    obtain ⟨⟨n, hcontents⟩, -⟩ := h.length_contents
    have hlaw : List.replicate config.delay false ++
        signalsUpTo isSignal config.inputChannels calls ended.length =
      heard isSignal config.outputChannels ended (.calling [c.fetch config] out) ++
        p.buffer.carried isSignal config p.phase := hc.law
    rw [hwhole.store_eq] at hpossible ⊢
    show _ ++ signalsUpTo isSignal config.inputChannels calls (ended.length + 1) = _ ++
      DoubleBuffer.carried isSignal config (p.buffer.performed (.push .input c.input)) p.phase
    rw [DoubleBuffer.carried_store h.ready hchannels hcontents hpossible, signalsUpTo_succ hcall,
      ← List.append_assoc, hlaw, List.append_assoc]
  buffer_length := by
    intro rest out' houter
    cases houter
    exact hc.buffer_length _ _ rfl

theorem Carried.fetch
    (hc : Carried config isSignal calls P ⟨p, .calling [c.fetch config] out, ended⟩)
    (h : Balance config calls (ended.length + 1) ended.length
      ⟨p, .calling [c.fetch config] out, ended⟩)
    (hwhole : c.Whole config) (hchannels : 0 < config.outputChannels)
    (hpossible : p.buffer.Possible (c.fetch config)) :
    Carried config isSignal calls P
      ⟨{ p with buffer := p.buffer.performed (c.fetch config) },
        .calling [] (p.buffer.filled out (c.fetch config)), ended⟩ where
  __ := hc
  law := by
    have hlaw : List.replicate config.delay false ++
        signalsUpTo isSignal config.inputChannels calls (ended.length + 1) =
      ended.flatMap (fun result => signals isSignal config.outputChannels result.2) ++ [] ++
        p.buffer.carried isSignal config p.phase := hc.law
    rw [hwhole.fetch_eq] at hpossible ⊢
    rw [DoubleBuffer.filled_pull (hc.buffer_length _ _ rfl)]
    refine hlaw.trans ?_
    rw [← DoubleBuffer.carried_fetch h.ready hchannels hpossible, List.append_nil,
      ← List.append_assoc]
    rfl
  buffer_length := by
    intro rest out' houter
    cases houter
    rw [hwhole.fetch_eq] at hpossible ⊢
    rw [DoubleBuffer.filled_pull (hc.buffer_length _ _ rfl)]
    exact (h.ready.valid .output).length_take_contents hpossible

theorem Carried.return (hc : Carried config isSignal calls P ⟨p, .calling [] out, ended⟩)
    (hcall : calls.get? ended.length = some c) :
    Carried config isSignal calls P ⟨p, .idle, ended ++ [(.ok (), out)]⟩ where
  state := hc.state
  law := by
    have hlaw : List.replicate config.delay false ++
        signalsUpTo isSignal config.inputChannels calls (ended.length + 1) =
      heard isSignal config.outputChannels ended (.calling [] out) ++
        p.buffer.carried isSignal config p.phase := hc.law
    rw [List.length_append]
    refine hlaw.trans ?_
    simp only [heard, OuterPhase.heard, List.flatMap_append, List.flatMap_singleton,
      List.append_nil]
  buffer_length := nofun
  ended_length := by
    intro result hresult
    rcases List.mem_append.1 hresult with hold | hnew
    · exact hc.ended_length result hold
    · rw [List.mem_singleton.1 hnew]
      exact hc.buffer_length _ _ rfl
  called := by
    intro k hk
    rw [List.length_append, List.length_singleton] at hk
    rcases Nat.lt_succ_iff_lt_or_eq.1 hk with hlt | rfl
    · exact hc.called k hlt
    · rw [hcall]
      exact Option.some_ne_none c

/-! ## Moves of the inner stage -/

theorem Carried.supply (hc : Carried config isSignal calls P s)
    (h : Balance config calls stored fetched s) (hphase : s.pipeline.phase = .supplying)
    (hf : config.KeepsSignals isSignal f P) (hchannels : 0 < config.inputChannels)
    (hpossible : s.buffer.Possible config.supply) :
    Carried config isSignal calls P (s.innerDone f config.supply) := by
  have hlaw := hc.law
  have hlength := h.length_supplied hpossible
  have hfilled : s.buffer.filled [] config.supply =
      (s.buffer.contents .input).take (config.innerSize * config.inputChannels) := by
    show _ ++ List.drop _ [] = _
    rw [List.drop_nil, List.append_nil]
    rfl
  -- the block that is computed has whole frames, so that it is delivered as it is
  have hblock : signals isSignal config.outputChannels
      ((f s.pipeline.state (s.buffer.filled [] config.supply)).1.take
        (config.innerSize * config.outputChannels)) =
      signals isSignal config.inputChannels
        ((s.buffer.contents .input).take (config.innerSize * config.inputChannels)) := by
    rw [List.take_of_length_le (hf.length _ _ hlength).le, hf.signals _ _ hc.state hlength, hfilled]
  rw [hphase] at hlaw
  rw [innerDone_of_supplying hphase]
  refine ⟨hlaw.trans ?_, hc.buffer_length, hc.ended_length, hc.called, hf.state _ _ hc.state⟩
  rw [← DoubleBuffer.carried_supply h.ready hchannels hpossible hblock]
  rfl

theorem Carried.deliver (hc : Carried config isSignal calls P s)
    (h : Balance config calls stored fetched s) (hphase : s.pipeline.phase = .delivering block)
    (hchannels : 0 < config.outputChannels) (hpossible : s.buffer.Possible (config.deliver block)) :
    Carried config isSignal calls P (s.innerDone f (config.deliver block)) := by
  have hlaw := hc.law
  obtain ⟨-, n, hcontents⟩ := h.length_contents
  rw [hphase] at hlaw
  rw [innerDone_of_delivering hphase]
  refine ⟨hlaw.trans ?_, hc.buffer_length, hc.ended_length, hc.called, hc.state⟩
  rw [← DoubleBuffer.carried_deliver h.ready hchannels hcontents hpossible]
  rfl

/-! ## Every move -/

/-- Every call is one of whole blocks, and the inner stage keeps the signals. -/
structure Relays (config : DoubleBufferConfig) (isSignal : α → Bool) (f : BlockFunction σ α)
    (calls : Stream'.Seq (Pipeline.OuterCall α)) (P : σ → Prop) : Prop where
  fed : WellFed config f calls
  whole : ∀ k c, calls.get? k = some c → c.Whole config
  keeps : config.KeepsSignals isSignal f P

theorem Carried.move (hc : Carried config isSignal calls P s)
    (h : Balance config calls stored fetched s) (hrelays : Relays config isSignal f calls P)
    (hmove : Move f calls s s') : Carried config isSignal calls P s' := by
  have hfed := hrelays.fed
  rcases hmove with houter | hinner
  · obtain ⟨p, outer, ended⟩ := s
    have hstands := h.outer
    cases hstands with
    | idle =>
      cases hcall : calls.get? ended.length with
      | none =>
        rw [outerMove?] at houter
        simp only [hcall] at houter
        cases houter
      | some c =>
        rw [outerMove?_begin h rfl hcall (hfed.calls _ c hcall)] at houter
        cases houter
        exact hc.begin (hrelays.whole _ c hcall)
    | storing hcall out =>
      rw [outerMove?_of_possible h.ready rfl (h.possible_store (hfed.calls _ _ hcall))] at houter
      cases houter
      exact hc.store h hcall (hrelays.whole _ _ hcall) hfed.inputChannels
    | @fetching c hcall out =>
      by_cases hpossible : p.buffer.Possible (c.fetch config)
      · rw [outerMove?_of_possible h.ready rfl hpossible] at houter
        cases houter
        exact hc.fetch h (hrelays.whole _ _ hcall) hfed.outputChannels hpossible
      · rw [outerMove?_of_not_possible h.ready rfl hpossible
          (h.count_fetch_le (hfed.calls _ c hcall))] at houter
        cases houter
    | returning hcall out =>
      rw [outerMove?_return rfl] at houter
      cases houter
      exact hc.return hcall
  · obtain ⟨t, hrequest, ⟨hpossible, hsome⟩ | ⟨-, hnone⟩⟩ := h.inner_cases (f := f)
    · rw [hsome] at hinner
      cases hinner
      rcases InnerPhase.request?_eq_some hrequest with ⟨hphase, rfl⟩ | ⟨block, hphase, -, rfl⟩
      · exact hc.supply h hphase hrelays.keeps hfed.inputChannels hpossible
      · exact hc.deliver h hphase hfed.outputChannels hpossible
    · rw [hnone] at hinner
      cases hinner

/-- By induction over the moves, along which both invariants hold. -/
theorem Carried.reaches (hc : Carried config isSignal calls P s)
    (h : Balance config calls stored fetched s) (hrelays : Relays config isSignal f calls P)
    (hreaches : Reaches f calls s s') : Carried config isSignal calls P s' := by
  induction hreaches with
  | refl => exact hc
  | tail hsteps hmove ih =>
    obtain ⟨_, _, hbalance⟩ := h.reaches hrelays.fed hsteps
    exact ih.move hbalance hrelays hmove

/-! ## From the start to the last call -/

/-- Before the first move there is a silence of `delay` frames in the output FIFO. -/
theorem carried_start [Memory] {fill : α} {db : DoubleBuffer BlockingRing α}
    (hmake : DoubleBuffer.make config fill = .ok db) (hfill : isSignal fill = false) {state : σ}
    (hstate : P state) : Carried config isSignal calls P (start db state) where
  law := by
    obtain ⟨-, -, -, hvalidate, -⟩ := DoubleBuffer.make_eq_ok hmake
    obtain ⟨-, -, -, hchannels⟩ := DoubleBufferConfig.pos_of_validate hvalidate
    obtain ⟨r, r', hr, hr', hfits, hinput, houtput⟩ := rings_of_make hmake
    have hsilence : (List.replicate (config.delay * config.outputChannels) fill).length ≤
        r'.availableSpace := by
      rw [List.length_replicate]
      exact hfits
    have hnothing : db.contents .input = [] := by
      show db.input.ring.contents = []
      rw [hinput]
      exact Ring.contents_of_make hr
    have hdelay : db.contents .output =
        List.replicate (config.delay * config.outputChannels) fill := by
      show db.output.ring.contents = _
      rw [houtput]
      show (r'.append _).contents = _
      rw [(Ring.Valid.of_make hr').contents_append hsilence, Ring.contents_of_make hr',
        List.nil_append]
    show List.replicate config.delay false ++ [] = [] ++ db.carried isSignal config .supplying
    rw [DoubleBuffer.carried, hnothing, hdelay, Interleaved.signals_nil,
      Interleaved.signals_replicate hchannels, hfill]
    rfl
  buffer_length := nofun
  ended_length := nofun
  called := fun k hk => absurd hk (Nat.not_lt_zero k)
  state := hstate

/-- The signals in what the calls returned are as many as the frames of the calls. -/
theorem Carried.length_ended (hc : Carried config isSignal calls P s)
    (hchannels : 0 < config.outputChannels) :
    (s.ended.flatMap fun result => signals isSignal config.outputChannels result.2).length =
      s.ended.length * config.outerSize := by
  have hall : ∀ result ∈ s.ended,
      (signals isSignal config.outputChannels result.2).length = config.outerSize :=
    fun result hresult => Interleaved.length_signals hchannels (hc.ended_length result hresult)
  rw [List.length_flatMap, List.map_congr_left hall, List.map_const', List.sum_replicate_nat]

/-- When all calls are made, what came out is the beginning of what went in with the delay. -/
theorem Carried.heard_eq (hc : Carried config isSignal calls P s)
    (h : Balance config calls stored fetched s) (hchannels : 0 < config.outputChannels)
    (hlast : calls.get? s.ended.length = none) :
    (s.ended.flatMap fun result => signals isSignal config.outputChannels result.2) =
      (List.replicate config.delay false ++
        signalsUpTo isSignal config.inputChannels calls s.ended.length).take
        (s.ended.length * config.outerSize) := by
  have hlength := hc.length_ended hchannels
  have hlaw := hc.law
  obtain ⟨p, outer, ended⟩ := s
  have hstands := h.outer
  -- a call that is under way would be one more
  cases hstands with
  | idle =>
    simp only [OuterPhase.stored, Nat.add_zero] at hlaw
    rw [hlaw, heard, OuterPhase.heard, List.append_nil, List.take_left' hlength]
  | storing hcall out =>
    rw [hlast] at hcall
    cases hcall
  | fetching hcall out =>
    rw [hlast] at hcall
    cases hcall
  | returning hcall out =>
    rw [hlast] at hcall
    cases hcall

end Moves

end Parties

end BlockFlow
