import BlockFlow.Proofs.DriftingRing.Parties
import BlockFlow.Proofs.Soak.Sizes

/-!
# A drifting ring keeps frames whole

A drifting ring of interleaved samples whose sizes are those of a ring of frames, times the
channels, goes in step with that ring (`InStep`): each call on whole frames keeps the two in step and
fills its buffer with the samples of the same frames (`InStep.run`). So whatever is dropped, held
back or padded is a number of whole frames, and no sample ever changes its channel
(`keeps_frames_whole`).
-/

set_option autoImplicit false

namespace BlockFlow

universe u

variable {α : Type u} {channels : Nat}

/-! ## Frames and their samples -/

/-- The samples of some frames, one frame after the other. -/
def samples (frames : List (Vector α channels)) : List α := frames.flatMap Vector.toList

/-- The frame with one sample on every channel. -/
abbrev spreadFrame (channels : Nat) (sample : α) : Vector α channels := .replicate channels sample

@[simp] theorem samples_nil : samples ([] : List (Vector α channels)) = [] := rfl

@[simp] theorem samples_cons (frame : Vector α channels) (frames : List (Vector α channels)) :
    samples (frame :: frames) = frame.toList ++ samples frames := rfl

@[simp] theorem samples_append (frames more : List (Vector α channels)) :
    samples (frames ++ more) = samples frames ++ samples more := List.flatMap_append

@[simp] theorem length_samples (frames : List (Vector α channels)) :
    (samples frames).length = frames.length * channels := by
  induction frames with
  | nil => simp
  | cons frame rest ih => simp [ih, Nat.succ_mul, Nat.add_comm]

/-- The first frames have the first samples. -/
theorem take_samples (frames : List (Vector α channels)) (n : Nat) :
    (samples frames).take (n * channels) = samples (frames.take n) := by
  induction frames generalizing n with
  | nil => simp
  | cons frame rest ih =>
    cases n with
    | zero => simp
    | succ n =>
      have hframe : frame.toList.length = channels := Vector.length_toList
      rw [List.take_succ_cons, samples_cons, samples_cons, List.take_append, hframe, ← ih n,
        Nat.succ_mul, Nat.add_sub_cancel, List.take_of_length_le (by omega)]

theorem drop_samples (frames : List (Vector α channels)) (n : Nat) :
    (samples frames).drop (n * channels) = samples (frames.drop n) := by
  have hboth : samples (frames.take n) ++ (samples frames).drop (n * channels) =
      samples (frames.take n) ++ samples (frames.drop n) := by
    rw [← take_samples, List.take_append_drop, take_samples, ← samples_append,
      List.take_append_drop]
  exact List.append_cancel_left hboth

theorem samples_replicate (n : Nat) (sample : α) :
    samples (List.replicate n (spreadFrame channels sample)) =
      List.replicate (n * channels) sample := by
  induction n with
  | zero => simp
  | succ n ih =>
    rw [List.replicate_succ, samples_cons, ih, Vector.toList_replicate,
      List.replicate_append_replicate, Nat.succ_mul, Nat.add_comm]

/-- Samples that fill frames are the samples of these frames. -/
theorem exists_samples_eq {block : List α} {n : Nat} (hlength : block.length = n * channels) :
    ∃ frames : List (Vector α channels), samples frames = block := by
  induction n generalizing block with
  | zero =>
    rw [Nat.zero_mul] at hlength
    exact ⟨[], (List.eq_nil_of_length_eq_zero hlength).symm⟩
  | succ n ih =>
    rw [Nat.succ_mul] at hlength
    have hfirst : (block.take channels).toArray.size = channels := by
      rw [List.size_toArray, List.length_take]
      omega
    have hrest : (block.drop channels).length = n * channels := by
      rw [List.length_drop]
      omega
    obtain ⟨frames, hframes⟩ := ih hrest
    refine ⟨⟨(block.take channels).toArray, hfirst⟩ :: frames, ?_⟩
    rw [samples_cons, hframes]
    exact List.take_append_drop channels block

/-- The settings of a drifting ring in samples of so many channels. -/
def DriftConfig.inSamples (config : DriftConfig) (channels : Nat) : DriftConfig :=
  { config with
    minFillCount := config.minFillCount * channels
    desiredFillCount := config.desiredFillCount * channels
    maxFillCount := config.maxFillCount * channels }

namespace DriftingRing

/-- A call on frames as a call on their samples. -/
def Call.inSamples : Call (Vector α channels) → Call α
  | .write frames => .write (samples frames)
  | .read n => .read (n * channels)
  | .stop => .stop
  | .setLimit side limit => .setLimit side limit

/-- The call moves whole frames. -/
def Call.Whole (channels : Nat) : Call α → Prop
  | .write data => channels ∣ data.length
  | .read n => channels ∣ n
  | _ => True

/-- Calls on samples that move whole frames are calls on these frames. -/
theorem exists_inSamples_eq {calls : List (Call α)} (hcalls : ∀ c ∈ calls, c.Whole channels) :
    ∃ onFrames : List (Call (Vector α channels)), onFrames.map Call.inSamples = calls := by
  induction calls with
  | nil => exact ⟨[], rfl⟩
  | cons c cs ih =>
    obtain ⟨rest, rfl⟩ := ih fun c hc => hcalls c (List.mem_cons_of_mem _ hc)
    have hwhole := hcalls c List.mem_cons_self
    cases c with
    | write data =>
      obtain ⟨n, hn⟩ := hwhole
      obtain ⟨frames, rfl⟩ := exists_samples_eq (hn.trans (Nat.mul_comm ..))
      exact ⟨.write frames :: rest, rfl⟩
    | read n =>
      obtain ⟨k, rfl⟩ := hwhole
      refine ⟨.read k :: rest, ?_⟩
      rw [List.map_cons, Call.inSamples, Nat.mul_comm]
    | stop => exact ⟨.stop :: rest, rfl⟩
    | setLimit side limit => exact ⟨.setLimit side limit :: rest, rfl⟩

/-! ## Two rings in step -/

/-- A ring of frames and a ring of samples: what the second stores are the samples of what the first
stores, its sizes are those of the first times the channels, and the parties stand alike. -/
structure InStep (config : DriftConfig) (null : α) (f : DriftingRing (Vector α channels))
    (d : DriftingRing α) : Prop where
  frames : Sound config (spreadFrame channels null) f
  sound : Sound (config.inSamples channels) null d
  contents : d.ring.contents = samples f.ring.contents
  capacity : d.ring.capacity = f.ring.capacity * channels
  startupZeros : d.startupZeros = f.startupZeros * channels
  minFillCount : d.minFillCount = f.minFillCount * channels
  party : ∀ side, d.party side = f.party side

namespace InStep

variable {config : DriftConfig} {null : α} {f f' : DriftingRing (Vector α channels)}
  {d d' : DriftingRing α}

/-! ### Counts -/

theorem stored (h : InStep config null f d) :
    d.ring.fillCount = f.ring.fillCount * channels := by
  rw [← h.sound.valid.length_contents, h.contents, length_samples, h.frames.valid.length_contents]

theorem fillCount (h : InStep config null f d) : d.fillCount = f.fillCount * channels := by
  rw [DriftingRing.fillCount, DriftingRing.fillCount, h.stored, h.startupZeros, Nat.add_mul]

theorem availableSpace (h : InStep config null f d) :
    d.availableSpace = f.availableSpace * channels := by
  simp only [DriftingRing.availableSpace, Ring.availableSpace, h.stored, h.capacity, h.startupZeros,
    Nat.sub_mul]

theorem pending (h : InStep config null f d) : d.pending = samples f.pending := by
  rw [DriftingRing.pending, DriftingRing.pending, h.contents, h.startupZeros, samples_append,
    h.frames.silence, samples_replicate, h.sound.silence]

theorem delivery (h : InStep config null f d) (n : Nat) :
    d.delivery (n * channels) = f.delivery n * channels := by
  rw [DriftingRing.delivery, DriftingRing.delivery, h.fillCount, h.minFillCount, ← Nat.sub_mul,
    Nat.mul_min_mul_right]

theorem isRunning (h : InStep config null f d) : d.isRunning = f.isRunning := by
  have hwriter : d.writer = f.writer := h.party .writer
  have hreader : d.reader = f.reader := h.party .reader
  rw [DriftingRing.isRunning, DriftingRing.isRunning, hwriter, hreader]

/-! ### Flags and counters -/

/-- Changes of the parties alone keep the rings in step if they are the same on both. -/
theorem sameStream (h : InStep config null f d) (hf : SameStream f f') (hd : SameStream d d')
    (hparty : ∀ side, d'.party side = f'.party side) : InStep config null f' d' where
  frames := hf.sound h.frames
  sound := hd.sound h.sound
  contents := by
    rw [hf.ring, hd.ring]
    exact h.contents
  capacity := by
    rw [hf.ring, hd.ring]
    exact h.capacity
  startupZeros := by
    rw [hf.startupZeros, hd.startupZeros]
    exact h.startupZeros
  minFillCount := by
    rw [hf.minFillCount, hd.minFillCount]
    exact h.minFillCount
  party := hparty

theorem updateParty (h : InStep config null f d) (side : Side) (g : Party → Party) :
    InStep config null (f.updateParty side g) (d.updateParty side g) := by
  apply h.sameStream (sameStream_updateParty f side g) (sameStream_updateParty d side g)
  intro side'
  rw [party_updateParty, party_updateParty, h.party side']

theorem stop (h : InStep config null f d) : InStep config null f.stop d.stop :=
  (h.updateParty .writer fun p => { p with started := false }).updateParty .reader
    fun p => { p with started := false }

theorem account (h : InStep config null f d) (side : Side) (short : Bool) :
    InStep config null (f.account side short).1 (d.account side short).1 := by
  apply h.sameStream (sameStream_account f side short) (sameStream_account d side short)
  intro side'
  have hstops : d.stopsCounting side short = f.stopsCounting side short := by
    rw [stopsCounting, stopsCounting, h.party side]
  rw [party_account, party_account, h.party side', hstops]

theorem starting (h : InStep config null f d) : InStep config null f.starting d.starting where
  frames := h.frames.starting
  sound := h.sound.starting
  contents := by
    show d.ring.clear.contents = samples f.ring.clear.contents
    rw [Ring.contents_clear, Ring.contents_clear, samples_nil]
  capacity := h.capacity
  startupZeros := by
    show d.desiredFillCount = f.desiredFillCount * channels
    rw [h.sound.desired, h.frames.desired]
    rfl
  minFillCount := h.minFillCount
  party := by
    intro side
    rw [party_starting, party_starting, h.party side]

theorem enter (h : InStep config null f d) (side : Side) :
    InStep config null (f.enter side).1 (d.enter side).1 := by
  rw [DriftingRing.enter, DriftingRing.enter, h.party side]
  split
  · exact h
  · exact h.starting.updateParty side fun p => { p with started := true }

/-! ### Transfers -/

/-- A block of which a part fits is cut between two frames. -/
theorem afterStoring (h : InStep config null f d) (block : List (Vector α channels)) :
    InStep config null (f.afterStoring block) (d.afterStoring (samples block)) := by
  have hcut : (samples block).take (min d.availableSpace (samples block).length) =
      samples (block.take (min f.availableSpace block.length)) := by
    rw [h.availableSpace, length_samples, Nat.mul_min_mul_right, take_samples]
  have hfits : (block.take (min f.availableSpace block.length)).length ≤ f.availableSpace := by
    simp
  have hfits' : (samples (block.take (min f.availableSpace block.length))).length ≤
      d.availableSpace := by
    rw [length_samples, h.availableSpace]
    exact Nat.mul_le_mul_right _ hfits
  have hframes := h.frames.store hfits
  have hsound := h.sound.store hfits'
  rw [h.frames.store_eq hfits] at hframes
  rw [h.sound.store_eq hfits'] at hsound
  rw [DriftingRing.afterStoring, DriftingRing.afterStoring, hcut]
  exact
    { frames := hframes.2
      sound := hsound.2
      contents := by
        show (d.ring.append _).contents = samples (f.ring.append _).contents
        rw [h.sound.valid.contents_append (h.sound.le_availableSpace hfits').1,
          h.frames.valid.contents_append (h.frames.le_availableSpace hfits).1, h.contents,
          samples_append]
      capacity := by
        show (d.ring.append _).capacity = (f.ring.append _).capacity * channels
        rw [Ring.capacity_append, Ring.capacity_append, h.capacity]
      startupZeros := h.startupZeros
      minFillCount := h.minFillCount
      party := h.party }

/-- A delivery is cut between two frames, and so is the silence in it. -/
theorem afterDelivery (h : InStep config null f d) {n : Nat} (hn : n ≤ f.fillCount) :
    InStep config null (f.afterDelivery n) (d.afterDelivery (n * channels)) := by
  have hn' : n * channels ≤ d.fillCount := by
    rw [h.fillCount]
    exact Nat.mul_le_mul_right _ hn
  have hzeros : min d.startupZeros (n * channels) = min f.startupZeros n * channels := by
    rw [h.startupZeros, Nat.mul_min_mul_right]
  have hframes := (h.frames.fetch hn).2.2
  have hsound := (h.sound.fetch hn').2.2
  rw [h.frames.fetch_eq hn] at hframes
  rw [h.sound.fetch_eq hn'] at hsound
  exact
    { frames := hframes
      sound := hsound
      contents := by
        show (d.ring.discard _).contents = samples (f.ring.discard _).contents
        rw [h.sound.valid.contents_discard (stored_share_le d hn'),
          h.frames.valid.contents_discard (stored_share_le f hn), h.contents, hzeros,
          ← Nat.sub_mul, drop_samples]
      capacity := h.capacity
      startupZeros := by
        show d.startupZeros - min d.startupZeros (n * channels) = (f.startupZeros - _) * channels
        rw [hzeros, h.startupZeros, Nat.sub_mul]
      minFillCount := h.minFillCount
      party := h.party }

/-! ### Calls -/

/-- A transfer is short of samples if and only if it is short of frames. -/
theorem short_iff (hchannels : 0 < channels) (moved asked : Nat) :
    decide (moved * channels < asked * channels) = decide (moved < asked) := by
  rw [decide_eq_decide]
  exact Nat.mul_lt_mul_right hchannels

theorem write (h : InStep config null f d) (hchannels : 0 < channels)
    (block : List (Vector α channels)) :
    InStep config null (f.write block).1 (d.write (samples block)).1 := by
  have hentered := h.enter .writer
  cases hruns : (f.enter .writer).1.isRunning with
  | false =>
    rw [write_of_stopped hruns, write_of_stopped (hentered.isRunning.trans hruns)]
    exact hentered
  | true =>
    have hshort := short_iff hchannels (min (f.enter .writer).1.availableSpace block.length)
      block.length
    rw [← Nat.mul_min_mul_right, ← hentered.availableSpace, ← length_samples] at hshort
    rw [h.frames.write_eq hruns, h.sound.write_eq (hentered.isRunning.trans hruns)]
    simp only [hshort]
    exact (hentered.afterStoring block).account .writer _

theorem read (h : InStep config null f d) (hchannels : 0 < channels) (n : Nat) :
    (d.read (n * channels)).1 = samples (f.read n).1 ∧
      InStep config null (f.read n).2.1 (d.read (n * channels)).2.1 := by
  have hentered := h.enter .reader
  cases hruns : (f.enter .reader).1.isRunning with
  | false =>
    rw [read_of_stopped hruns, read_of_stopped (hentered.isRunning.trans hruns), h.frames.silence,
      h.sound.silence, samples_replicate]
    exact ⟨rfl, hentered⟩
  | true =>
    have hruns' := hentered.isRunning.trans hruns
    have hshort := short_iff hchannels ((f.enter .reader).1.delivery n) n
    constructor
    · rw [(h.frames.read rfl hruns n).1, (h.sound.read rfl hruns' _).1, hentered.pending,
        hentered.delivery, take_samples, ← Nat.sub_mul, samples_append, samples_replicate]
    · rw [h.frames.read_eq hruns, h.sound.read_eq hruns']
      simp only [hentered.delivery, hshort]
      exact (hentered.afterDelivery (delivery_le ..)).account .reader _

/-- Every call on whole frames keeps the rings in step, and its buffer has the samples of the same
frames. -/
theorem run (h : InStep config null f d) (hchannels : 0 < channels)
    (c : Call (Vector α channels)) :
    InStep config null (c.run f).after (c.inSamples.run d).after ∧
      (c.inSamples.run d).buffer = samples (c.run f).buffer := by
  cases c with
  | write block => exact ⟨h.write hchannels block, rfl⟩
  | read n => exact (h.read hchannels n).symm
  | stop => exact ⟨h.stop, rfl⟩
  | setLimit side limit => exact ⟨h.updateParty side fun p => { p with limit }, rfl⟩

/-- By induction over the calls. -/
theorem after (h : InStep config null f d) (hchannels : 0 < channels)
    (calls : List (Call (Vector α channels))) :
    InStep config null (DriftingRing.after calls f)
      (DriftingRing.after (calls.map Call.inSamples) d) := by
  induction calls generalizing f d with
  | nil => exact h
  | cons c cs ih => exact ih (h.run hchannels c).1

end InStep

/-! ## New rings -/

/-- A new ring, wherever there is memory for it. -/
def new (config : DriftConfig) (null : α) : DriftingRing α :=
  ofRing config null
    { slots := Array.replicate (config.maxFillCount + 1) null, write := 0, read := 0 }

theorem eq_new_of_make [Memory] {config : DriftConfig} {null : α} {d : DriftingRing α}
    (hmake : make config null = .ok d) : d = new config null := by
  obtain ⟨-, ring, hring, rfl⟩ := make_eq_ok hmake
  rw [new, Ring.make_eq_ok hring]

theorem Sound.new {config : DriftConfig} (hvalid : config.validate = .ok ()) (null : α) :
    Sound config null (DriftingRing.new config null) := by
  obtain ⟨-, hle⟩ := DriftConfig.validate_eq_ok_iff.1 hvalid
  have hvalid : (DriftingRing.new config null).ring.Valid := by
    constructor <;> simp [DriftingRing.new, ofRing]
  have hcapacity : (DriftingRing.new config null).ring.capacity = config.maxFillCount := by
    simp [DriftingRing.new, ofRing, Ring.capacity]
  have hempty : (DriftingRing.new config null).ring.fillCount = 0 := fillBetween_self ..
  exact
    { valid := hvalid
      fits := by
        rw [hempty, hcapacity, Nat.zero_add]
        exact hle
      desired_le := hcapacity.symm ▸ hle
      desired := rfl
      silence := rfl }

theorem InStep.new {config : DriftConfig} (hvalid : config.validate = .ok ())
    (channels : Nat) (null : α) :
    InStep config null (new config (spreadFrame channels null))
      (DriftingRing.new (config.inSamples channels) null) := by
  obtain ⟨hlow, hhigh⟩ := DriftConfig.validate_eq_ok_iff.1 hvalid
  have hscaled : (config.inSamples channels).validate = .ok () :=
    DriftConfig.validate_eq_ok_iff.2
      ⟨Nat.mul_le_mul_right channels hlow, Nat.mul_le_mul_right channels hhigh⟩
  have hempty : ∀ {β : Type u} (config : DriftConfig) (null : β),
      (DriftingRing.new config null).ring.contents = [] := by
    intro β config null
    rw [Ring.contents, show (DriftingRing.new config null).ring.fillCount = 0 from
      fillBetween_self .., window_zero]
  exact
    { frames := .new hvalid _
      sound := .new hscaled null
      contents := by
        rw [hempty, hempty, samples_nil]
      capacity := by
        simp [DriftingRing.new, ofRing, Ring.capacity, DriftConfig.inSamples]
      startupZeros := rfl
      minFillCount := rfl
      party := by
        rintro (_ | _)
        · rfl
        · rfl }

/-- If there is memory for the samples, there is memory for as many frames. -/
theorem make_of_make_inSamples [Memory] {config : DriftConfig} (hvalid : config.validate = .ok ())
    (hchannels : 0 < channels) {null : α} {d : DriftingRing α}
    (hmake : make (config.inSamples channels) null = .ok d) :
    make config (spreadFrame channels null) = .ok (new config (spreadFrame channels null)) := by
  obtain ⟨-, ring, hring, -⟩ := make_eq_ok hmake
  have hstored : Ring.Storable config.maxFillCount :=
    (Ring.storable_of_make hring).of_le (Nat.le_mul_of_pos_right _ hchannels)
  obtain ⟨ring, hring⟩ := Ring.make_of_storable hstored (spreadFrame channels null)
  have hframes : make config (spreadFrame channels null) =
      .ok (ofRing config (spreadFrame channels null) ring) := by
    rw [make_of_validate hvalid, hring]
    rfl
  rw [hframes, eq_new_of_make hframes]

/-- What is seen of a ring of samples is what is seen of a ring of frames. Its counts are those of
frames times the channels, and all else is the same. -/
structure SeenAlike (channels : Nat) {β : Type u} (f : DriftingRing β) (d : DriftingRing α) :
    Prop where
  /-- The flag and the six counters of xruns are the same. -/
  stats : d.stats = { f.stats with startupZeros := f.stats.startupZeros * channels }
  fillCount : d.fillCount = f.fillCount * channels
  availableSpace : d.availableSpace = f.availableSpace * channels
  capacity : d.capacity = f.capacity * channels

theorem InStep.seenAlike {config : DriftConfig} {null : α} {f : DriftingRing (Vector α channels)}
    {d : DriftingRing α} (h : InStep config null f d) : SeenAlike channels f d where
  stats := by
    have hwriter : d.writer = f.writer := h.party .writer
    have hreader : d.reader = f.reader := h.party .reader
    rw [DriftingRing.stats, DriftingRing.stats, hwriter, hreader, h.isRunning, h.startupZeros]
  fillCount := h.fillCount
  availableSpace := h.availableSpace
  capacity := h.capacity

/-- A new ring with validated settings in frames, and a new one with the same settings in samples of
the input channels. Calls on samples that move whole frames are calls on these frames. After any
such calls on both, made on frames here and on their samples there, the rings are seen alike, and any
further one fills its buffer with the samples of the frames with which it fills the other. -/
theorem keeps_frames_whole [Memory] {c : SoakConfig} (hvalid : c.drift.validate = .ok ())
    (hchannels : 0 < c.doubleBuffer.inputChannels) {scaled : DriftConfig}
    (hscaled : c.driftInSamples = .ok scaled) (null : α) :
    let channels := c.doubleBuffer.inputChannels
    let f := new c.drift (spreadFrame channels null)
    let d := new scaled null
    (∀ made, make scaled null = .ok made →
      made = d ∧ make c.drift (spreadFrame channels null) = .ok f) ∧
    (∀ calls : List (Call α), (∀ call ∈ calls, call.Whole channels) →
      ∃ onFrames : List (Call (Vector α channels)), onFrames.map Call.inSamples = calls) ∧
    ∀ calls : List (Call (Vector α channels)),
      SeenAlike channels (after calls f) (after (calls.map Call.inSamples) d) ∧
        ∀ call : Call (Vector α channels),
          (call.inSamples.run (after (calls.map Call.inSamples) d)).buffer =
            samples (call.run (after calls f)).buffer := by
  intro channels f d
  obtain rfl : c.drift.inSamples channels = scaled :=
    (SoakConfig.driftInSamples_eq_ok hscaled).1.symm
  refine ⟨?_, fun calls hcalls => exists_inSamples_eq hcalls, ?_⟩
  · intro made hmade
    exact ⟨eq_new_of_make hmade, make_of_make_inSamples hvalid hchannels hmade⟩
  · intro calls
    have hafter := (InStep.new hvalid channels null).after hchannels calls
    exact ⟨hafter.seenAlike, fun call => (hafter.run hchannels call).2⟩

/-- Two channels. A write of three frames finds space for two, and a read of three frames gets the
frame that is not held back, padded with two silent ones. -/
theorem keeps_frames_whole_stereo :
    let c : SoakConfig :=
      { doubleBuffer := { inputChannels := 2 }
        drift := { minFillCount := 1, desiredFillCount := 1, maxFillCount := 3 } }
    let scaled : DriftConfig := { minFillCount := 2, desiredFillCount := 2, maxFillCount := 6 }
    let d : DriftingRing Nat := new scaled 0
    let calls : List (Call (Vector Nat 2)) :=
      [.write [], .read 0, .write [#v[1, 2], #v[3, 4], #v[5, 6]], .read 1]
    c.drift.validate = .ok () ∧ 0 < c.doubleBuffer.inputChannels ∧
      c.driftInSamples = .ok scaled ∧
      SeenAlike 2 (after calls (new c.drift #v[0, 0])) (after (calls.map Call.inSamples) d) ∧
      ((Call.read 6).run (after (calls.map Call.inSamples) d)).buffer = [1, 2, 0, 0, 0, 0] := by
  intro c scaled d calls
  have hscaled : c.driftInSamples = .ok scaled := rfl
  have hvalid : c.drift.validate = .ok () := rfl
  have hchannels : 0 < c.doubleBuffer.inputChannels := by decide
  obtain ⟨-, -, hcalls⟩ := keeps_frames_whole hvalid hchannels hscaled 0
  obtain ⟨halike, hbuffer⟩ := hcalls calls
  exact ⟨hvalid, hchannels, hscaled, halike, (hbuffer (.read 3)).trans (by decide)⟩

end DriftingRing

end BlockFlow
