/-!
# Interleaved samples

A block of audio is a list of samples, frame after frame, and a frame has one sample for each
channel.
-/

set_option autoImplicit false

namespace BlockFlow.Interleaved

universe u v

variable {α : Type u} {β : Type v}

/-- One sample spread over all channels of a frame. -/
def spread (channels : Nat) (sample : α) : List α := List.replicate channels sample

/-- A block whose frames each hold one of `samples` on every channel. -/
def spreadAll (channels : Nat) (samples : List α) : List α := samples.flatMap (spread channels)

/-- The first `n` frames of a block. -/
def frames (channels : Nat) : Nat → List α → List (List α)
  | 0, _ => []
  | n + 1, block => block.take channels :: frames channels n (block.drop channels)

/-- A frame with `outputs` channels. Channel `c` comes from channel `c` of the given frame, or
from its last channel where it has fewer. -/
def mixFrame (outputs : Nat) (change : α → β) (frame : List α) : List β :=
  (List.range outputs).filterMap fun c => frame[min c (frame.length - 1)]?.map change

/-- The first `n` frames of a block, mixed to `outputs` channels. -/
def mix (inputs outputs : Nat) (change : α → β) (n : Nat) (block : List α) : List β :=
  (frames inputs n block).flatMap (mixFrame outputs change)

/-- The position of the first of `n` frames whose first channel satisfies `isSignal`. -/
def firstFrame? (isSignal : α → Bool) (channels n : Nat) (block : List α) : Option Nat :=
  (frames channels n block).findIdx? fun frame => frame.head?.any isSignal

end BlockFlow.Interleaved
