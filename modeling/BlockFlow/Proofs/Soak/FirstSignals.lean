import BlockFlow.Proofs.DriftingRing.Stream
import BlockFlow.Proofs.Soak.Gains

/-!
# The first signals of a run

A run looks for the first signal in each block that it takes from the ring (`blocksRead`) and in
each block that it gets back for it. Block after block, it finds the first frame that is signal in
all of them (`first_noteAll`). If what comes back is what was taken with a delay, the two frames are
that delay apart, or there is no second one (`latency_of_delayed`).
-/

set_option autoImplicit false

namespace BlockFlow

universe u

/-! ## Blocks from the ring -/

/-- A read fills its buffer, with what is delivered and then with silence. -/
theorem DriftingRing.Sound.length_read {α : Type u} {config : DriftConfig} {null : α}
    {d : DriftingRing α} (hd : Sound config null d) (n : Nat) : (d.read n).1.length = n := by
  have hdelivery : (d.enter .reader).1.delivery n ≤ n := Nat.min_le_right ..
  cases hruns : (d.enter .reader).1.isRunning with
  | false =>
    rw [read_of_stopped hruns, List.length_replicate]
  | true =>
    obtain ⟨hdelivered, hlength⟩ := hd.delivered_read rfl hruns n
    rw [hdelivered] at hlength
    rw [(hd.read rfl hruns n).1, List.length_append, hlength, List.length_replicate]
    omega

namespace Soak

open DriftingRing (Sound)
open Interleaved (signals)

/-- The blocks that the outer stage reads from the ring in the turns with the given bursts. -/
def blocksRead (c : SoakConfig) : List Nat → State → List (List Nat)
  | [], _ => []
  | burst :: bursts, s => (s.exchange c burst).1 :: blocksRead c bursts (s.exchange c burst).2

theorem length_blocksRead (c : SoakConfig) (bursts : List Nat) (s : State) :
    (blocksRead c bursts s).length = bursts.length := by
  induction bursts generalizing s with
  | nil => rfl
  | cons burst bursts ih => exact congrArg (· + 1) (ih _)

/-- Only the ring and the producer matter. -/
theorem blocksRead_congr (c : SoakConfig) (bursts : List Nat) {s s' : State}
    (hdrift : s'.drift = s.drift) (hproduced : s'.produced = s.produced) :
    blocksRead c bursts s' = blocksRead c bursts s := by
  induction bursts generalizing s s' with
  | nil => rfl
  | cons burst bursts ih =>
    have hblock : (s'.exchange c burst).1 = (s.exchange c burst).1 := by
      simp only [State.exchange, hdrift, hproduced]
    have hring : (s'.exchange c burst).2.drift = (s.exchange c burst).2.drift := by
      simp only [State.exchange, hdrift, hproduced]
    have hramp : (s'.exchange c burst).2.produced = (s.exchange c burst).2.produced := by
      simp only [State.exchange, hproduced]
    rw [blocksRead, blocksRead, hblock, ih hring hramp]

section Blocks

variable {c : SoakConfig} {config : DriftConfig} {s : State}

theorem sound_exchange (hsound : Sound config 0 s.drift) (burst : Nat) :
    Sound config 0 (s.exchange c burst).2.drift :=
  (hsound.run (.write _)).run (.read _)

/-- Every block that is read is an outer block. -/
theorem length_of_mem_blocksRead (hsound : Sound config 0 s.drift) {bursts : List Nat}
    {block : List Nat} (hblock : block ∈ blocksRead c bursts s) :
    block.length = c.doubleBuffer.outerSize * c.doubleBuffer.inputChannels := by
  induction bursts generalizing s with
  | nil => cases hblock
  | cons burst bursts ih =>
    rcases List.mem_cons.1 hblock with rfl | hrest
    · exact (hsound.run (.write _)).length_read _
    · exact ih (sound_exchange hsound burst) hrest

end Blocks

/-! ## The first signals -/

/-- The frame of the first signal is looked for in a block of input and a block of output. -/
def State.note (s : State) (c : SoakConfig) (input output : List Nat) : State :=
  { s with
    blocks := s.blocks + 1
    firstIn := s.probe c s.firstIn c.doubleBuffer.inputChannels input
    firstOut := s.probe c s.firstOut c.doubleBuffer.outputChannels output }

/-- It is looked for in each pair of blocks, one after the other. -/
def State.noteAll (s : State) (c : SoakConfig) (blocks : List (List Nat × List Nat)) : State :=
  blocks.foldl (fun s b => s.note c b.1 b.2) s

/-- What the search for the first signals has found, and where it is. -/
def State.noted (s : State) : Nat × Option Nat × Option Nat := (s.blocks, s.firstIn, s.firstOut)

section Notes

variable {c : SoakConfig} {s s' : State} {channels : Nat}

theorem noted_note (h : s'.noted = s.noted) (input output : List Nat) :
    (s'.note c input output).noted = (s.note c input output).noted := by
  simp only [State.noted, Prod.mk.injEq] at h
  simp only [State.noted, State.note, State.probe, h.1, h.2.1, h.2.2]

theorem noteAll_cons (s : State) (c : SoakConfig) (b : List Nat × List Nat)
    (blocks : List (List Nat × List Nat)) :
    s.noteAll c (b :: blocks) = (s.note c b.1 b.2).noteAll c blocks := rfl

theorem noteAll_append_singleton (s : State) (c : SoakConfig) (blocks : List (List Nat × List Nat))
    (b : List Nat × List Nat) :
    s.noteAll c (blocks ++ [b]) = (s.noteAll c blocks).note c b.1 b.2 :=
  List.foldl_append

theorem latency_congr (h : s'.noted = s.noted) : s'.latency = s.latency := by
  simp only [State.noted, Prod.mk.injEq] at h
  simp only [State.latency, h.2.1, h.2.2]

theorem probe_eq (known : Option Nat) (hchannels : 0 < channels) {block : List Nat}
    (hblock : block.length = c.doubleBuffer.outerSize * channels) :
    s.probe c known channels block =
      known.or (((signals audible channels block).findIdx? id).map
        (s.blocks * c.doubleBuffer.outerSize + ·)) := by
  rw [State.probe]
  show known.or ((Interleaved.firstFrame? audible channels _ block).map _) = _
  rw [Interleaved.firstFrame?_eq hchannels hblock]

/-- To look in two stretches one after the other is to look in both at once. -/
theorem or_findIdx?_append (known : Option Nat) (base : Nat) (xs ys : List Bool) :
    known.or (((xs ++ ys).findIdx? id).map (base + ·)) =
      (known.or ((xs.findIdx? id).map (base + ·))).or
        ((ys.findIdx? id).map (base + xs.length + ·)) := by
  have hshift : (fun i => base + (i + xs.length)) = (base + xs.length + ·) := by
    funext i
    omega
  rw [List.findIdx?_append, Option.or_assoc]
  -- what is found in the first stretch hides the second
  cases xs.findIdx? id with
  | some i => rfl
  | none =>
    rw [Option.none_or, Option.map_map, Option.map_none, Option.none_or]
    exact congrArg (fun g => known.or ((ys.findIdx? id).map g)) hshift

theorem blocks_noteAll (blocks : List (List Nat × List Nat)) :
    (s.noteAll c blocks).blocks = s.blocks + blocks.length := by
  induction blocks generalizing s with
  | nil => rfl
  | cons b blocks ih =>
    rw [noteAll_cons, ih, List.length_cons]
    exact Nat.succ_add_eq_add_succ ..

/-- By induction over the blocks. The search goes on in each block from where it was. -/
theorem first_noteAll (first : State → Option Nat) (side : List Nat × List Nat → List Nat)
    (hchannels : 0 < channels)
    (hnote : ∀ (s : State) (b : List Nat × List Nat),
      first (s.note c b.1 b.2) = s.probe c (first s) channels (side b))
    {blocks : List (List Nat × List Nat)}
    (hblocks : ∀ b ∈ blocks, (side b).length = c.doubleBuffer.outerSize * channels) :
    first (s.noteAll c blocks) =
      (first s).or (((blocks.flatMap fun b => signals audible channels (side b)).findIdx? id).map
        (s.blocks * c.doubleBuffer.outerSize + ·)) := by
  induction blocks generalizing s with
  | nil => exact (Option.or_none).symm
  | cons b blocks ih =>
    have hb := hblocks b List.mem_cons_self
    have hnext : s.blocks * c.doubleBuffer.outerSize + (signals audible channels (side b)).length =
        (s.note c b.1 b.2).blocks * c.doubleBuffer.outerSize := by
      rw [Interleaved.length_signals hchannels hb]
      exact (Nat.succ_mul ..).symm
    have hrest := fun b' hb' => hblocks b' (List.mem_cons_of_mem b hb')
    rw [noteAll_cons, ih hrest, hnote, probe_eq _ hchannels hb, List.flatMap_cons,
      or_findIdx?_append, hnext]

end Notes

/-! ## Two searches with a delay between them -/

theorem findIdx?_delayed (delay n : Nat) (xs : List Bool) :
    ((List.replicate delay false ++ xs).take n).findIdx? id =
      (xs.findIdx? id).bind fun i => if i + delay < n then some (i + delay) else none := by
  rw [List.findIdx?_take, List.findIdx?_append, List.findIdx?_replicate, List.length_replicate]
  cases xs.findIdx? id with
  | none => simp
  | some i => simp [Option.guard]

/-- The two frames are the delay apart if the signal has come out. -/
theorem latency_of_delayed {s : State} {xs : List Bool} {delay n : Nat}
    (hin : s.firstIn = xs.findIdx? id)
    (hout : s.firstOut = ((List.replicate delay false ++ xs).take n).findIdx? id) :
    s.latency = (xs.findIdx? id).bind fun i => if i + delay < n then some delay else none := by
  rw [findIdx?_delayed] at hout
  rw [State.latency, hin, hout]
  cases xs.findIdx? id with
  | none => rfl
  | some i =>
    by_cases hcomes : i + delay < n
    · rw [Option.bind_some, Option.bind_some, if_pos hcomes, if_pos hcomes]
      show (if i ≤ i + delay then some (i + delay - i) else none) = some delay
      rw [if_pos (Nat.le_add_right ..), Nat.add_sub_cancel_left]
    · rw [Option.bind_some, Option.bind_some, if_neg hcomes, if_neg hcomes]

end Soak

end BlockFlow
