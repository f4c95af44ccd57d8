import BlockFlow.Interleaved
import Mathlib.Tactic.Common

/-!
# Where the signal is in a block

A frame counts as signal if its first channel does. The list of these answers, one for each frame
(`signals`), is all that the search for the first signal looks at (`firstFrame?_eq`). It is put
together from blocks of whole frames (`signals_append`), and a mix to another number of channels
leaves it alone as long as the change of a sample neither makes nor takes a signal (`signals_mix`).
-/

set_option autoImplicit false

namespace BlockFlow.Interleaved

universe u v

variable {α : Type u} {β : Type v}

/-! ## Frames -/

@[simp] theorem length_frames (channels n : Nat) (block : List α) :
    (frames channels n block).length = n := by
  induction n generalizing block with
  | zero => rfl
  | succ n ih => exact congrArg (· + 1) (ih _)

/-- By induction over the frames of the first block. -/
theorem frames_append {channels n : Nat} {a : List α} (ha : a.length = n * channels) (m : Nat)
    (b : List α) :
    frames channels (n + m) (a ++ b) = frames channels n a ++ frames channels m b := by
  induction n generalizing a with
  | zero =>
    rw [Nat.zero_mul, List.length_eq_zero_iff] at ha
    subst ha
    rw [Nat.zero_add]
    rfl
  | succ n ih =>
    rw [Nat.succ_mul] at ha
    have hfirst : channels ≤ a.length := ha ▸ Nat.le_add_left ..
    have hrest : (a.drop channels).length = n * channels := by
      rw [List.length_drop, ha, Nat.add_sub_cancel]
    rw [Nat.succ_add, frames, frames, List.take_append_of_le_length hfirst,
      List.drop_append_of_le_length hfirst, ih hrest, List.cons_append]

/-- A block of whole frames has a full frame at each place. -/
theorem length_of_mem_frames {channels n : Nat} {block : List α}
    (hblock : n * channels ≤ block.length) {frame : List α}
    (hframe : frame ∈ frames channels n block) : frame.length = channels := by
  induction n generalizing block with
  | zero => cases hframe
  | succ n ih =>
    rw [Nat.succ_mul] at hblock
    rcases List.mem_cons.1 hframe with rfl | hrest
    · exact List.length_take_of_le (Nat.le_trans (Nat.le_add_left ..) hblock)
    · refine ih ?_ hrest
      rw [List.length_drop]
      omega

/-! ## Signals -/

/-- For each frame of a block, whether it is signal. -/
def signals (isSignal : α → Bool) (channels : Nat) (block : List α) : List Bool :=
  (frames channels (block.length / channels) block).map fun frame => frame.head?.any isSignal

section Signals

variable {isSignal : α → Bool} {channels n : Nat} {a b : List α}

theorem signals_eq (hchannels : 0 < channels) (ha : a.length = n * channels) :
    signals isSignal channels a =
      (frames channels n a).map fun frame => frame.head?.any isSignal := by
  rw [signals, ha, Nat.mul_div_cancel _ hchannels]

theorem length_signals (hchannels : 0 < channels) (ha : a.length = n * channels) :
    (signals isSignal channels a).length = n := by
  rw [signals_eq hchannels ha, List.length_map, length_frames]

@[simp] theorem signals_nil (isSignal : α → Bool) (channels : Nat) :
    signals isSignal channels [] = [] := by
  rw [signals, List.length_nil, Nat.zero_div]
  rfl

theorem signals_append (hchannels : 0 < channels) (ha : a.length = n * channels) (b : List α) :
    signals isSignal channels (a ++ b) =
      signals isSignal channels a ++ signals isSignal channels b := by
  have hlength : (a ++ b).length / channels = n + b.length / channels := by
    rw [List.length_append, ha, Nat.add_comm, Nat.add_mul_div_right _ _ hchannels, Nat.add_comm]
  rw [signals, hlength, frames_append ha, List.map_append, signals_eq hchannels ha]
  rfl

/-- By induction over the blocks, each of which is made of whole frames. -/
theorem signals_flatten (hchannels : 0 < channels) {blocks : List (List α)}
    (hblocks : ∀ block ∈ blocks, block.length = n * channels) :
    signals isSignal channels blocks.flatten = blocks.flatMap (signals isSignal channels) := by
  induction blocks with
  | nil => exact signals_nil isSignal channels
  | cons block blocks ih =>
    rw [List.flatten_cons, signals_append hchannels (hblocks block List.mem_cons_self),
      ih fun rest hrest => hblocks rest (List.mem_cons_of_mem block hrest), List.flatMap_cons]

/-- The frames of equal samples are all alike. -/
theorem signals_replicate (hchannels : 0 < channels) (n : Nat) (sample : α) :
    signals isSignal channels (List.replicate (n * channels) sample) =
      List.replicate n (isSignal sample) := by
  rw [signals_eq hchannels List.length_replicate]
  induction n with
  | zero => rfl
  | succ n ih =>
    have hrest : n * channels + channels - channels = n * channels := Nat.add_sub_cancel ..
    rw [frames, List.map_cons, Nat.succ_mul, List.drop_replicate, hrest, ih, List.take_replicate,
      Nat.min_eq_left (Nat.le_add_left ..), List.head?_replicate, if_neg (Nat.ne_of_gt hchannels)]
    rfl

/-- The search for the first signal looks at nothing else. -/
theorem firstFrame?_eq (hchannels : 0 < channels) (ha : a.length = n * channels) :
    firstFrame? isSignal channels n a = (signals isSignal channels a).findIdx? id := by
  rw [firstFrame?, signals_eq hchannels ha, List.findIdx?_map]
  rfl

end Signals

/-! ## Mixing -/

section Mix

variable {inputs outputs n : Nat} {change : α → β} {frame block : List α}

/-- A frame is mixed to the number of channels asked for, unless it is empty. -/
theorem length_mixFrame (hframe : frame ≠ []) :
    (mixFrame outputs change frame).length = outputs := by
  have hpos := List.length_pos_iff.2 hframe
  have hall : ∀ c ∈ List.range outputs,
      (frame[min c (frame.length - 1)]?.map change).isSome := by
    intro c _
    have hlt : min c (frame.length - 1) < frame.length := by omega
    rw [List.getElem?_eq_getElem hlt]
    rfl
  rw [mixFrame, List.filterMap_length_eq_length.2 hall, List.length_range]

/-- The first channel of a mixed frame comes from the first channel of the frame. -/
theorem head?_mixFrame (hframe : frame ≠ []) (houtputs : 0 < outputs) :
    (mixFrame outputs change frame).head? = frame.head?.map change := by
  obtain ⟨m, rfl⟩ := Nat.exists_eq_add_of_lt houtputs
  obtain ⟨sample, rest, rfl⟩ := List.exists_cons_of_ne_nil hframe
  rw [Nat.zero_add, mixFrame, List.head?_filterMap, List.range_succ_eq_map, List.findSome?_cons,
    Nat.zero_min]
  rfl

/-- A frame of a block of whole frames has a first channel. -/
theorem ne_nil_of_mem_frames (hinputs : 0 < inputs) (hblock : n * inputs ≤ block.length)
    (hframe : frame ∈ frames inputs n block) : frame ≠ [] := by
  rintro rfl
  have hlength := length_of_mem_frames hblock hframe
  rw [List.length_nil] at hlength
  omega

/-- By induction over the frames. -/
theorem frames_mix (hinputs : 0 < inputs) (hblock : n * inputs ≤ block.length) :
    frames outputs n (mix inputs outputs change n block) =
      (frames inputs n block).map (mixFrame outputs change) := by
  induction n generalizing block with
  | zero => rfl
  | succ n ih =>
    have hfirst : block.take inputs ≠ [] :=
      ne_nil_of_mem_frames hinputs hblock List.mem_cons_self
    have hlength : (mixFrame outputs change (block.take inputs)).length = outputs :=
      length_mixFrame hfirst
    have hrest : n * inputs ≤ (block.drop inputs).length := by
      rw [Nat.succ_mul] at hblock
      rw [List.length_drop]
      omega
    -- the mix of the first frame is the first frame of the mix
    have hmix : mix inputs outputs change (n + 1) block =
        mixFrame outputs change (block.take inputs) ++
          mix inputs outputs change n (block.drop inputs) := rfl
    rw [hmix, frames, frames, List.take_left' hlength, List.drop_left' hlength, ih hrest,
      List.map_cons]

theorem length_mix (hinputs : 0 < inputs) (hblock : n * inputs ≤ block.length) :
    (mix inputs outputs change n block).length = n * outputs := by
  have hall : ∀ frame ∈ frames inputs n block, (mixFrame outputs change frame).length = outputs :=
    fun frame hframe => length_mixFrame (ne_nil_of_mem_frames hinputs hblock hframe)
  rw [mix, List.length_flatMap, List.map_congr_left hall, List.map_const', List.sum_replicate_nat,
    length_frames]

/-- A mix leaves the signals where they are if the change of a sample does. -/
theorem signals_mix {isSignal : α → Bool} {isSignal' : β → Bool} (hinputs : 0 < inputs)
    (houtputs : 0 < outputs) (hblock : block.length = n * inputs)
    (hchange : ∀ sample, isSignal' (change sample) = isSignal sample) :
    signals isSignal' outputs (mix inputs outputs change n block) =
      signals isSignal inputs block := by
  have hwhole : n * inputs ≤ block.length := Nat.le_of_eq hblock.symm
  rw [signals_eq houtputs (length_mix hinputs hwhole), signals_eq hinputs hblock,
    frames_mix hinputs hwhole, List.map_map]
  apply List.map_congr_left
  intro frame hframe
  have hne := ne_nil_of_mem_frames hinputs hwhole hframe
  show (mixFrame outputs change frame).head?.any isSignal' = frame.head?.any isSignal
  rw [head?_mixFrame hne houtputs]
  cases frame.head? with
  | none => rfl
  | some sample => exact hchange sample

end Mix

end BlockFlow.Interleaved
