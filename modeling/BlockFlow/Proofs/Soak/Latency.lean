import BlockFlow.Proofs.DoubleBuffer.Settling
import BlockFlow.Proofs.Soak.FirstSignals
import BlockFlow.Proofs.Soak.Monitor

/-!
# A run measures the delay

A run with validated settings makes all its calls, and what it measures is the delay: the first
signal comes out of the double buffer `delay` frames after it left the ring, or not any more in the
blocks of the run (`measures_delay`). It does not matter what the producer writes, in which order
the stages make their transfers, or which gain the inner stage finds for a block.

What goes into the double buffer depends on the ring and the producer alone, so that the calls of
the outer stage are known from the start (`outerCalls`). Whatever the order of the transfers, they
all end and bring back the signals with the delay (`Inputs.latency_eq`). The run itself is one of
the orders (`Driven.turn`), and its inner stage ends when it is released (`Driven.release`).
-/

set_option autoImplicit false

namespace BlockFlow.Soak

open Interleaved (signals)
open Parties (Balance Carried FirstShort Maximal Reaches Relays not_firstShort_of_minimumDelay_le)

universe v

variable {σ : Type v} {c : SoakConfig} {inputs : List (List Nat)}

/-! ## The calls of a run -/

/-- The call of the outer stage with a block of input. -/
def outerCall (c : SoakConfig) (input : List Nat) : Pipeline.OuterCall Nat :=
  { input
    out := List.replicate (c.doubleBuffer.outerSize * c.doubleBuffer.outputChannels) 0
    frames := c.doubleBuffer.outerSize }

/-- The calls of the outer stage with the given blocks of input. -/
def outerCalls (c : SoakConfig) (inputs : List (List Nat)) : Stream'.Seq (Pipeline.OuterCall Nat) :=
  Stream'.Seq.ofList (inputs.map (outerCall c))

/-- The delay, if the first frame that is signal is followed by as many frames in the run. -/
def exactLatency (c : SoakConfig) (inputs : List (List Nat)) : Option Nat :=
  (Interleaved.firstFrame? (· != 0) c.doubleBuffer.inputChannels
    (c.blocks * c.doubleBuffer.outerSize) inputs.flatten).bind fun i =>
      if i + c.doubleBuffer.delay < c.blocks * c.doubleBuffer.outerSize then
        some c.doubleBuffer.delay
      else
        none

theorem get?_outerCalls (c : SoakConfig) (inputs : List (List Nat)) (k : Nat) :
    (outerCalls c inputs).get? k = inputs[k]?.map (outerCall c) := by
  rw [outerCalls, Stream'.Seq.ofList_get?, List.getElem?_map]

theorem signalsUpTo_outerCalls (c : SoakConfig) (inputs : List (List Nat)) (k : Nat) :
    signalsUpTo audible c.doubleBuffer.inputChannels (outerCalls c inputs) k =
      (inputs.take k).flatMap (signals audible c.doubleBuffer.inputChannels) := by
  induction k with
  | zero => rfl
  | succ k ih =>
    rw [signalsUpTo, ih, get?_outerCalls, List.take_add_one, List.flatMap_append]
    cases inputs[k]? with
    | none => rfl
    | some input => rw [Option.toList_some, List.flatMap_singleton]; rfl

/-- The blocks of input of a whole run with validated settings. -/
structure Inputs (c : SoakConfig) (inputs : List (List Nat)) : Prop where
  validate : c.validate = .ok ()
  length : inputs.length = c.blocks
  block : ∀ input ∈ inputs,
    input.length = c.doubleBuffer.outerSize * c.doubleBuffer.inputChannels

namespace Inputs

variable {f : BlockFunction σ Nat} {P : σ → Prop} {t : Parties σ Nat} {stored fetched : Nat}

theorem pos (h : Inputs c inputs) :
    0 < c.doubleBuffer.outerSize ∧ 0 < c.doubleBuffer.innerSize ∧
      0 < c.doubleBuffer.inputChannels ∧ 0 < c.doubleBuffer.outputChannels :=
  DoubleBufferConfig.pos_of_validate (SoakConfig.validate_eq_ok h.validate).1

theorem whole (h : Inputs c inputs) (k : Nat) (call : Pipeline.OuterCall Nat)
    (hcall : (outerCalls c inputs).get? k = some call) : call.Whole c.doubleBuffer := by
  rw [get?_outerCalls] at hcall
  obtain ⟨input, hinput, rfl⟩ := Option.map_eq_some_iff.1 hcall
  exact
    { frames := rfl
      input := h.block input (List.mem_of_getElem? hinput)
      out := List.length_replicate }

theorem relays (h : Inputs c inputs) (hkeeps : c.doubleBuffer.KeepsSignals audible f P) :
    Relays c.doubleBuffer audible f (outerCalls c inputs) P where
  fed :=
    { calls := fun k call hcall => (h.whole k call hcall).fits
      computes := fun state block hblock => (hkeeps.length state block hblock).ge
      innerSize := h.pos.2.1
      inputChannels := h.pos.2.2.1
      outputChannels := h.pos.2.2.2 }
  whole := h.whole
  keeps := hkeeps

/-- With the smallest delay that validation accepts no call has to wait for ever. -/
theorem not_firstShort (h : Inputs c inputs) (k : Nat) :
    ¬ FirstShort c.doubleBuffer (outerCalls c inputs) k := by
  obtain ⟨-, hdelay, -⟩ := SoakConfig.validate_eq_ok h.validate
  exact not_firstShort_of_minimumDelay_le h.pos.2.1
    (fun k call hcall => (h.whole k call hcall).frames) (SoakConfig.validateDelay_eq_ok.1 hdelay) k

/-- The first frame that is signal, in all blocks of input. -/
theorem firstFrame?_eq (h : Inputs c inputs) :
    Interleaved.firstFrame? (· != 0) c.doubleBuffer.inputChannels
        (c.blocks * c.doubleBuffer.outerSize) inputs.flatten =
      (inputs.flatMap (signals audible c.doubleBuffer.inputChannels)).findIdx? id := by
  have hlength : inputs.flatten.length =
      c.blocks * c.doubleBuffer.outerSize * c.doubleBuffer.inputChannels := by
    rw [List.length_flatten, List.map_congr_left h.block, List.map_const', List.sum_replicate_nat,
      h.length, Nat.mul_assoc]
  rw [← Interleaved.signals_flatten h.pos.2.2.1 h.block]
  exact Interleaved.firstFrame?_eq h.pos.2.2.1 hlength

/-- What is measured when all calls have ended. -/
theorem latency_eq (h : Inputs c inputs)
    (hc : Carried c.doubleBuffer audible (outerCalls c inputs) P t)
    (hbalance : Balance c.doubleBuffer (outerCalls c inputs) stored fetched t)
    (hall : t.ended.length = c.blocks) {s : State} (hs : s.noted = (0, none, none)) :
    (s.noteAll c (inputs.zip (t.ended.map Prod.snd))).latency = exactLatency c inputs := by
  obtain ⟨-, -, hinputs, houtputs⟩ := h.pos
  have hzip : inputs.length = (t.ended.map Prod.snd).length := by
    rw [List.length_map, hall, h.length]
  simp only [State.noted, Prod.mk.injEq] at hs
  obtain ⟨hblocks, hfirstIn, hfirstOut⟩ := hs
  have hfrom : (s.blocks * c.doubleBuffer.outerSize + ·) = (id : Nat → Nat) := by
    funext i
    rw [hblocks, Nat.zero_mul, Nat.zero_add]
    rfl
  -- the first signals in all blocks of input and in all blocks of output
  have hin : (s.noteAll c (inputs.zip (t.ended.map Prod.snd))).firstIn =
      (inputs.flatMap (signals audible c.doubleBuffer.inputChannels)).findIdx? id := by
    rw [first_noteAll State.firstIn Prod.fst hinputs (fun _ _ => rfl)
      fun b hb => h.block b.1 (List.of_mem_zip hb).1, hfirstIn, hfrom, Option.none_or,
      Option.map_id_fun, id_eq, ← List.flatMap_map, List.map_fst_zip hzip.le]
  have hout : (s.noteAll c (inputs.zip (t.ended.map Prod.snd))).firstOut =
      ((t.ended.flatMap fun result =>
        signals audible c.doubleBuffer.outputChannels result.2).findIdx? id) := by
    have hlength : ∀ b ∈ inputs.zip (t.ended.map Prod.snd),
        b.2.length = c.doubleBuffer.outerSize * c.doubleBuffer.outputChannels := by
      intro b hb
      obtain ⟨result, hresult, hb⟩ := List.mem_map.1 (List.of_mem_zip hb).2
      rw [← hb]
      exact hc.ended_length result hresult
    rw [first_noteAll State.firstOut Prod.snd houtputs (fun _ _ => rfl) hlength, hfirstOut, hfrom,
      Option.none_or, Option.map_id_fun, id_eq, ← List.flatMap_map, List.map_snd_zip hzip.ge,
      List.flatMap_map]
  have hlast : (outerCalls c inputs).get? t.ended.length = none := by
    rw [get?_outerCalls, hall, ← h.length, List.getElem?_length]
    rfl
  rw [hc.heard_eq hbalance houtputs hlast, signalsUpTo_outerCalls, hall, ← h.length,
    List.take_length] at hout
  rw [latency_of_delayed hin hout, exactLatency, h.firstFrame?_eq, h.length]

/-! ## Any order of the transfers -/

/-- There are no more calls than blocks. -/
theorem length_ended_le (h : Inputs c inputs)
    (hc : Carried c.doubleBuffer audible (outerCalls c inputs) P t) :
    t.ended.length ≤ c.blocks := by
  apply Nat.le_of_not_lt
  intro hmore
  apply hc.called c.blocks hmore
  rw [get?_outerCalls, ← h.length, List.getElem?_length]
  rfl

/-- All calls end, and each of them succeeds. -/
theorem measures [Memory] (h : Inputs c inputs) {buffer : DoubleBuffer BlockingRing Nat}
    (hmake : DoubleBuffer.make c.doubleBuffer 0 = .ok buffer)
    (hkeeps : c.doubleBuffer.KeepsSignals audible f P) {state : σ} (hstate : P state)
    {s : State} (hs : s.noted = (0, none, none)) {run : Nat → Parties σ Nat}
    (hrun : Maximal f (outerCalls c inputs) (.start buffer state) run) :
    (∃ n, (run n).ended.length = c.blocks) ∧
      ∀ n, (∀ result ∈ (run n).ended, result.1 = .ok ()) ∧
        ((run n).ended.length = c.blocks →
          (s.noteAll c (inputs.zip ((run n).ended.map Prod.snd))).latency =
            exactLatency c inputs) := by
  have hrelays := h.relays hkeeps
  have hstart := Parties.balance_start hmake state (outerCalls c inputs)
  have hcarried : ∀ n, Carried c.doubleBuffer audible (outerCalls c inputs) P (run n) := fun n =>
    (Parties.carried_start hmake rfl hstate).reaches hstart hrelays (hrun.reaches n)
  refine ⟨?_, ?_⟩
  · cases hblocks : c.blocks with
    | zero => exact ⟨0, by rw [hrun.zero]; rfl⟩
    | succ k =>
      have hcalled : (outerCalls c inputs).get? k ≠ none := by
        have hk : k < inputs.length := by rw [h.length, hblocks]; exact Nat.lt_succ_self k
        rw [get?_outerCalls, List.getElem?_eq_getElem hk]
        exact Option.some_ne_none _
      obtain ⟨n, hn⟩ :=
        hrun.ended_of_forall_not_firstShort hstart hrelays.fed h.not_firstShort hcalled
      exact ⟨n, Nat.le_antisymm (hblocks ▸ h.length_ended_le (hcarried n)) hn⟩
  · intro n
    obtain ⟨_, _, hbalance⟩ := hstart.reaches hrelays.fed (hrun.reaches n)
    exact ⟨hbalance.succeeded, fun hall => h.latency_eq (hcarried n) hbalance hall hs⟩

end Inputs

/-! ## The turns of a run -/

@[simp] theorem noted_publish (s : State) (c : SoakConfig) : (s.publish c).noted = s.noted := by
  unfold State.publish
  split <;> rfl

/-- Only the state of the inner stage is touched, and no gain that is published is zero. -/
theorem pipeline_publish (s : State) (c : SoakConfig)
    (hpositive : GainStage.Positive s.pipeline.state.configs) :
    ∃ state, (s.publish c).pipeline = { s.pipeline with state } ∧
      GainStage.Positive state.configs := by
  unfold State.publish
  split
  · exact ⟨_, rfl, hpositive.push (s.version + 1)⟩
  · exact ⟨_, rfl, hpositive⟩

/-- A run between two turns. Its calls so far had the inputs in `done` and ended as `ended` says,
and the first signals were looked for in these blocks. The inputs in `rest` are still to come. -/
structure Driven (c : SoakConfig) (inputs : List (List Nat)) (s₀ s : State)
    (done rest : List (List Nat)) (ended : List (Outcome × List Nat)) : Prop where
  split : inputs = done ++ rest
  length : done.length = ended.length
  balance : Balance c.doubleBuffer (outerCalls c inputs) ended.length ended.length
    ⟨s.pipeline, .idle, ended⟩
  carried : Carried c.doubleBuffer audible (outerCalls c inputs)
    (fun gains => GainStage.Positive gains.configs) ⟨s.pipeline, .idle, ended⟩
  noted : s.noted = (s₀.noteAll c (done.zip (ended.map Prod.snd))).noted

section Turns

variable {s₀ s : State} {done rest : List (List Nat)} {ended : List (Outcome × List Nat)}
  {input : List Nat} {burst : Nat}

/-- The next call has the next input. -/
theorem Driven.get?_outerCalls (h : Driven c inputs s₀ s done (input :: rest) ended) :
    (outerCalls c inputs).get? ended.length = some (outerCall c input) := by
  rw [Soak.get?_outerCalls, h.split, ← h.length, List.getElem?_append_right (Nat.le_refl _),
    Nat.sub_self]
  rfl

/-- A turn whose call succeeds goes on with what the call leaves behind. -/
theorem turn_of_process {p : Pipeline GainStage Nat} {block : List Nat}
    (hinput : (s.exchange c burst).1 = input)
    (hprocess : s.pipeline.process (GainStage.apply c.doubleBuffer) (outerCall c input).input
        (outerCall c input).out (outerCall c input).frames =
      { outcome := .ok (), buffer := block, after := p }) :
    ∃ s' : State, s.turn c burst = .ok (s'.publish c) ∧ s'.pipeline = p ∧
      s'.noted = (s.note c input block).noted := by
  subst hinput
  have hdone : (s.exchange c burst).2.pipeline.process (GainStage.apply c.doubleBuffer)
      (s.exchange c burst).1
      (List.replicate (c.doubleBuffer.outerSize * c.doubleBuffer.outputChannels) 0)
      c.doubleBuffer.outerSize = { outcome := .ok (), buffer := block, after := p } := hprocess
  simp only [State.turn, hdone]
  exact ⟨_, rfl, rfl, rfl⟩

/-- A turn succeeds if its block is the next input. -/
theorem Driven.turn (h : Driven c inputs s₀ s done (input :: rest) ended)
    (hinputs : Inputs c inputs) (hinput : (s.exchange c burst).1 = input) :
    ∃ s' block, s.turn c burst = .ok s' ∧
      Driven c inputs s₀ s' (done ++ [input]) rest (ended ++ [(.ok (), block)]) := by
  have hcall := h.get?_outerCalls
  have hrelays := hinputs.relays (f := GainStage.apply c.doubleBuffer)
    (GainStage.keepsSignals_apply hinputs.pos.2.2.1 hinputs.pos.2.2.2)
  obtain ⟨block, p', hprocess⟩ := h.balance.process hrelays.fed hcall (hinputs.not_firstShort _)
  -- the call is made of moves of the two stages, so that both invariants hold at its end
  have hreaches : Reaches _ (outerCalls c inputs) ⟨s.pipeline, .idle, ended⟩
      ⟨p', .idle, ended ++ [(.ok (), block)]⟩ := Parties.reaches_process hprocess hcall
  have hcarried := h.carried.reaches h.balance hrelays hreaches
  obtain ⟨_, _, hbalance⟩ := h.balance.reaches hrelays.fed hreaches
  obtain ⟨s', hturn, rfl, hnoted⟩ := turn_of_process hinput hprocess
  -- a gain that is published touches neither, but for the gains themselves
  obtain ⟨state, hpublish, hpositive⟩ := pipeline_publish s' c hcarried.state
  refine ⟨s'.publish c, block, hturn, ?_⟩
  exact
    { split := by rw [h.split, List.append_assoc]; rfl
      length := by rw [List.length_append, List.length_append, h.length]; rfl
      balance := by
        rw [hpublish]
        have hstands := hbalance.outer
        cases hstands
        exact { hbalance with }
      carried := by
        rw [hpublish]
        exact { hcarried with state := hpositive }
      noted := by
        have hlength : done.length = (ended.map Prod.snd).length := by
          rw [List.length_map, h.length]
        rw [noted_publish, hnoted, List.map_append, List.zip_append hlength]
        show _ = (s₀.noteAll c (_ ++ [(input, block)])).noted
        rw [noteAll_append_singleton]
        exact noted_note h.noted input block }

/-- By induction over the turns. Their blocks are those that the ring gives in these turns. -/
theorem Driven.drive {β : Type} {next : Producer β} {n : Nat} {b : β} (hinputs : Inputs c inputs)
    (h : Driven c inputs s₀ s done (blocksRead c (firstBursts next n b) s) ended) :
    ∃ s' ended', drive c next n b s = .ok s' ∧ Driven c inputs s₀ s' inputs [] ended' := by
  induction n generalizing b s done ended with
  | zero =>
    obtain rfl : inputs = done := h.split.trans (List.append_nil done)
    exact ⟨s, ended, rfl, h⟩
  | succ n ih =>
    obtain ⟨s', block, hturn, hdriven⟩ := h.turn hinputs rfl
    obtain ⟨hdrift, hproduced, -⟩ := turn_eq_ok hturn
    -- the double buffer has no part in what the ring gives next
    have hrest := blocksRead_congr c (firstBursts next n (next b).2)
      (s := (s.exchange c (next b).1).2) hdrift hproduced
    rw [← hrest] at hdriven
    rw [Soak.drive, hturn]
    exact ih hdriven

/-- The inner stage ends, and does so with the error that it is released with. -/
theorem Driven.release (h : Driven c inputs s₀ s done rest ended) :
    ∃ s', s.release c = .ok s' ∧ s'.noted = s.noted ∧
      s'.pipeline.innerEnd? = some (.cancelled .reader "soak run finished") := by
  obtain ⟨t, hrequest⟩ := h.balance.inner
  have hfinish := Pipeline.finish_eq (f := GainStage.apply c.doubleBuffer)
    h.balance.ready.innerUntold hrequest (.cancelled .reader "soak run finished")
  simp only [State.release, hfinish]
  exact ⟨_, rfl, rfl, rfl⟩

end Turns

/-! ## The whole run -/

theorem inputs_of_start [Memory] {s : State} (hstart : start c = .ok s) {bursts : List Nat}
    (hbursts : bursts.length = c.blocks) : Inputs c (blocksRead c bursts s) where
  validate := (start_eq_ok hstart).1
  length := (length_blocksRead c bursts s).trans hbursts
  block := by
    obtain ⟨⟨config, hsound⟩, -⟩ := ring_of_start hstart
    exact fun input hinput => length_of_mem_blocksRead hsound hinput

theorem driven_of_start [Memory] {s : State} (hstart : start c = .ok s) (inputs : List (List Nat)) :
    Driven c inputs s s [] inputs [] := by
  obtain ⟨-, buffer, drift, ring, hbuffer, -, -, rfl⟩ := start_eq_ok hstart
  exact
    { split := rfl
      length := rfl
      balance := Parties.balance_start hbuffer GainStage.start (outerCalls c inputs)
      carried := Parties.carried_start hbuffer rfl GainStage.positive_start
      noted := rfl }

/-- A run that starts makes all its calls and measures the delay. The blocks of input follow from
the bursts of the producer. In whichever order the stages make their transfers, and whichever gains
the inner stage finds, every call succeeds, and the delay is measured if the first signal comes out
in time. So it is in the run with the gains that it publishes itself: its turns succeed, the inner
stage ends when it is released, and the run reports what was measured. -/
theorem measures_delay [Memory] {s : State} (hstart : start c = .ok s) (bursts : List Nat)
    (hbursts : bursts.length = c.blocks) :
    let inputs := blocksRead c bursts s
    (∀ {σ : Type v} (rule : σ → List Nat → Nat × σ) (state : σ) (run : Nat → Parties σ Nat),
      Maximal (c.doubleBuffer.observing rule) (outerCalls c inputs)
          (.start s.pipeline.buffer state) run →
        (∃ n, (run n).ended.length = c.blocks) ∧
          ∀ n, (∀ result ∈ (run n).ended, result.1 = .ok ()) ∧
            ((run n).ended.length = c.blocks →
              (s.noteAll c (inputs.zip ((run n).ended.map Prod.snd))).latency =
                exactLatency c inputs)) ∧
      ∀ {β : Type} (next : Producer β) (b : β), firstBursts next c.blocks b = bursts →
        ∃ driven released, drive c next c.blocks b s = .ok driven ∧
          driven.release c = .ok released ∧
          released.pipeline.innerEnd? = some (.cancelled .reader "soak run finished") ∧
          runWith c next b = .ok (released.report c) ∧
          (released.report c).blocksProcessed = c.blocks ∧
          (released.report c).measuredLatency = exactLatency c inputs := by
  intro inputs
  have hinputs : Inputs c inputs := inputs_of_start hstart hbursts
  obtain ⟨-, -, hin, hout⟩ := hinputs.pos
  have hnew : s.noted = (0, none, none) := by
    obtain ⟨-, buffer, drift, ring, -, -, -, rfl⟩ := start_eq_ok hstart
    rfl
  refine ⟨?_, ?_⟩
  · intro σ rule state run hrun
    obtain ⟨-, buffer, drift, ring, hbuffer, -, -, rfl⟩ := start_eq_ok hstart
    exact hinputs.measures hbuffer (DoubleBufferConfig.keepsSignals_observing hin hout rule) trivial
      hnew hrun
  · rintro β next b rfl
    obtain ⟨s', ended, hdrive, hdriven⟩ := (driven_of_start hstart inputs).drive hinputs
    obtain ⟨released, hrelease, hnoted, hended⟩ := hdriven.release
    have hall : ended.length = c.blocks := hdriven.length.symm.trans hinputs.length
    have hmeasured := hinputs.latency_eq hdriven.carried hdriven.balance hall hnew
    have hblocks := congrArg Prod.fst (hnoted.trans hdriven.noted)
    refine ⟨s', released, hdrive, hrelease, hended, ?_, ?_, ?_⟩
    · simp only [runWith, bind_eq_ok, liftM_eq_ok]
      exact ⟨s, hstart, s', hdrive, released, hrelease, rfl⟩
    · show released.blocks = c.blocks
      refine hblocks.trans ?_
      show (s.noteAll c _).blocks = _
      have hzero : s.blocks = 0 := congrArg Prod.fst hnew
      rw [blocks_noteAll, hzero, Nat.zero_add, List.length_zip, List.length_map, hall,
        hinputs.length, Nat.min_self]
    · exact (latency_congr (hnoted.trans hdriven.noted)).trans hmeasured

/-- Settings with the smallest delay for outer blocks of two frames and inner blocks of three. -/
def smallestDelay : SoakConfig :=
  { doubleBuffer := { outerSize := 2, innerSize := 3, delay := 2, inputChannels := 2 }
    drift := { desiredFillCount := 1, maxFillCount := 8 }
    blocks := 4 }

/-- A producer that writes a block in every turn but the first. -/
def steadyAfterPause : Producer Nat := fun n => (if n = 0 then 0 else 2, n + 1)

/-- With another gain for each inner block, and with the gains of the run, the delay is measured. -/
theorem measures_delay_two_by_three :
    ∃ (s released : State) (run : Nat → Parties Nat Nat) (n : Nat), start smallestDelay = .ok s ∧
      [0, 2, 2, 2].length = smallestDelay.blocks ∧
      exactLatency smallestDelay (blocksRead smallestDelay [0, 2, 2, 2] s) = some 2 ∧
      Maximal (smallestDelay.doubleBuffer.observing fun k _ => (k, k + 1))
        (outerCalls smallestDelay (blocksRead smallestDelay [0, 2, 2, 2] s))
        (.start s.pipeline.buffer 0) run ∧
      (run n).ended.length = 4 ∧
      (s.noteAll smallestDelay ((blocksRead smallestDelay [0, 2, 2, 2] s).zip
        ((run n).ended.map Prod.snd))).latency = some 2 ∧
      runWith smallestDelay steadyAfterPause 0 = .ok (released.report smallestDelay) ∧
      released.pipeline.innerEnd? = some (.cancelled .reader "soak run finished") ∧
      (released.report smallestDelay).measuredLatency = some 2 := by
  obtain ⟨s, hs⟩ : ∃ s, start smallestDelay = .ok s := ⟨_, rfl⟩
  have hexact : exactLatency smallestDelay (blocksRead smallestDelay [0, 2, 2, 2] s) = some 2 := by
    cases hs
    decide +kernel
  obtain ⟨hany, hown⟩ := measures_delay hs [0, 2, 2, 2] rfl
  obtain ⟨run, hrun⟩ := Parties.exists_maximal
    (smallestDelay.doubleBuffer.observing fun (k : Nat) _ => (k, k + 1))
    (outerCalls smallestDelay (blocksRead smallestDelay [0, 2, 2, 2] s))
    (.start s.pipeline.buffer 0)
  obtain ⟨⟨n, hn⟩, hlatency⟩ := hany _ _ run hrun
  obtain ⟨-, released, -, -, hended, hreport, -, hreported⟩ := hown steadyAfterPause 0 rfl
  exact ⟨s, released, run, n, hs, rfl, hexact, hrun, hn, ((hlatency n).2 hn).trans hexact, hreport,
    hended, hreported.trans hexact⟩

/-- A signal in the last frames of a run does not come out any more. -/
example : exactLatency smallestDelay
    [[0, 0, 0, 0], [0, 0, 0, 0], [0, 0, 0, 0], [0, 0, 1, 1]] = none := by decide

end BlockFlow.Soak
