import BlockFlow.Proofs.DoubleBuffer.Signals
import BlockFlow.Proofs.Handoff.Observation
import BlockFlow.Soak.Run

/-!
# Gains keep the signals

No gain is zero, so that a sample is silent after a gain if and only if it was silent before
(`keepsSignals_observing`). This holds whatever gain the inner stage finds for a block. The gain
stage of a run finds only gains that were published, and those all have numbers
(`GainStage.keepsSignals_apply`).
-/

set_option autoImplicit false

namespace BlockFlow

universe v

/-- A sample that is not silence. -/
def audible (sample : Nat) : Bool := sample != 0

theorem Gain.quarters_pos (version : Nat) : 0 < (Gain.ofVersion version).quarters :=
  Nat.add_pos_left (Nat.succ_pos 1) _

/-! ## One block -/

section Block

variable {config : DoubleBufferConfig} {block : List Nat} {quarters : Nat}

theorem audible_mul (hquarters : 0 < quarters) (sample : Nat) :
    audible (sample * quarters) = audible sample := by
  have hiff : sample * quarters = 0 ↔ sample = 0 := by
    rw [Nat.mul_eq_zero]
    omega
  simp only [audible, bne, beq_eq_decide, hiff]

/-- A gain that is not zero leaves the signals of a block where they are. -/
theorem signals_gain (hinputs : 0 < config.inputChannels) (houtputs : 0 < config.outputChannels)
    (hquarters : 0 < quarters) (hblock : block.length = config.innerSize * config.inputChannels) :
    Interleaved.signals audible config.outputChannels
        (Interleaved.mix config.inputChannels config.outputChannels (· * quarters)
          config.innerSize block) =
      Interleaved.signals audible config.inputChannels block :=
  Interleaved.signals_mix hinputs houtputs hblock (audible_mul hquarters)

end Block

/-! ## Whatever gain is found -/

/-- The inner stage when some rule says the number of the gain that it finds for each block. -/
def DoubleBufferConfig.observing {σ : Type v} (config : DoubleBufferConfig)
    (rule : σ → List Nat → Nat × σ) : BlockFunction σ Nat :=
  fun state block =>
    (Interleaved.mix config.inputChannels config.outputChannels
      (· * (Gain.ofVersion (rule state block).1).quarters) config.innerSize block,
      (rule state block).2)

theorem DoubleBufferConfig.keepsSignals_observing {σ : Type v} {config : DoubleBufferConfig}
    (hinputs : 0 < config.inputChannels) (houtputs : 0 < config.outputChannels)
    (rule : σ → List Nat → Nat × σ) :
    config.KeepsSignals audible (config.observing rule) fun _ => True where
  length := fun _ _ hblock => Interleaved.length_mix hinputs hblock.ge
  signals := fun state block _ hblock =>
    signals_gain hinputs houtputs (Gain.quarters_pos (rule state block).1) hblock
  state := fun _ _ _ => trivial

/-! ## The gains of a run -/

namespace GainStage

/-- No gain that was published is zero. -/
def Positive (configs : Handoff Gain) : Prop :=
  ∃ l, configs.Matches l ∧ l.Valid ∧ l.producerOpen = true ∧ l.consumerOpen = true ∧
    ∀ gain ∈ l.published, 0 < gain.quarters

variable {configs : Handoff Gain}

theorem Positive.push (h : Positive configs) (version : Nat) :
    Positive (configs.push (.ofVersion version)).2 := by
  obtain ⟨l, hmatches, hl, hproducer, hconsumer, hpositive⟩ := h
  obtain ⟨configs', hpush, hmatches'⟩ := hmatches.push hl hproducer (.ofVersion version)
  have hvalid := hl.record (.push (.ofVersion version))
  rw [Handoff.Call.record, if_pos hproducer] at hvalid
  rw [hpush]
  refine ⟨_, hmatches', hvalid, hproducer, hconsumer, ?_⟩
  intro gain hgain
  rcases List.mem_append.1 hgain with hold | hnew
  · exact hpositive gain hold
  · rw [List.mem_singleton.1 hnew]
    exact Gain.quarters_pos version

theorem Positive.poll (h : Positive configs) : Positive configs.poll := by
  obtain ⟨l, hmatches, hl, hproducer, hconsumer, hpositive⟩ := h
  exact ⟨_, hmatches.poll hl hconsumer, hl.moveTo (Nat.le_refl _) hl.place_le, hproducer, hconsumer,
    hpositive⟩

/-- The newest gain was published, or is the one used before any was. -/
theorem Positive.newest_pos (h : Positive configs) : 0 < (newest configs).quarters := by
  obtain ⟨l, hmatches, hl, -, hconsumer, hpositive⟩ := h
  rw [newest, hmatches.latest_eq hl hconsumer]
  cases hanswer : Handoff.answerAt l.published l.place with
  | none => exact Gain.quarters_pos 0
  | some gain =>
    obtain ⟨i, -, hi⟩ := Option.bind_eq_some_iff.1 hanswer
    exact hpositive gain (List.mem_of_getElem? hi)

theorem positive_start : Positive start.configs := by
  have hnothing : Positive .empty :=
    ⟨.empty, Handoff.matches_empty, Handoff.Ledger.valid_empty, rfl, rfl, nofun⟩
  exact hnothing.push 0

theorem keepsSignals_apply {config : DoubleBufferConfig} (hinputs : 0 < config.inputChannels)
    (houtputs : 0 < config.outputChannels) :
    config.KeepsSignals audible (apply config) fun s => Positive s.configs where
  length := fun _ _ hblock => Interleaved.length_mix hinputs hblock.ge
  signals := fun _ _ hpositive hblock =>
    signals_gain hinputs houtputs hpositive.poll.newest_pos hblock
  state := fun _ _ hpositive => hpositive.poll

end GainStage

end BlockFlow
