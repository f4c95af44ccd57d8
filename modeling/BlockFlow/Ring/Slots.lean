import BlockFlow.Error
import BlockFlow.Size

/-!
# Slots and cursors

The storage under every FIFO of the library: an array of slots, one more than the FIFO holds
elements, and two cursors that walk around it. One slot always stays unused, so that a full and
an empty FIFO have different cursors.
-/

set_option autoImplicit false

namespace BlockFlow

universe u

variable {α : Type u}

/-- The memory of the host, as far as it shows: which requests for storage are met. A request for
fewer slots is, where one for more is. -/
class Memory where
  /-- Whether there is memory for so many slots of a FIFO. -/
  hasSlots : Nat → Bool
  hasSlots_of_le {m n : Nat} : m ≤ n → hasSlots n = true → hasSlots m = true
  /-- Whether there is memory for a channel in which so many messages can wait. -/
  hasChannel : Nat → Bool

/-- Memory for up to `limit` slots of a FIFO, and for any channel. -/
abbrev Memory.upTo (limit : Nat) : Memory where
  hasSlots n := decide (n ≤ limit)
  hasSlots_of_le hmn hn := decide_eq_true (Nat.le_trans hmn (of_decide_eq_true hn))
  hasChannel _ := true

/-- The memory of the host on which the programs of the library run, unless another one is given. -/
instance defaultMemory : Memory := .upTo 4294967296

/-- The slots of a FIFO for `capacity` elements, each a copy of `fill`. -/
def allocate [Memory] (capacity : Nat) (fill : α) : Except FifoError (Array α) :=
  match checkedAdd? capacity 1 with
  | none => .error (.cursorOverflow capacity)
  | some slots =>
    if Memory.hasSlots slots then .ok (Array.replicate slots fill)
    else .error (.outOfMemory capacity)

/-- Elements between the cursors of a storage of `size` slots: from `read` on up to `write`,
around the end if need be. -/
def fillBetween (write read size : Nat) : Nat :=
  if read ≤ write then write - read else write + size - read

/-- The slot after slot `i`. -/
def nextSlot (size i : Nat) : Nat :=
  if i + 1 = size then 0 else i + 1

/-- Stores `data` from slot `i` on, without going around the end. -/
def blit (slots : Array α) (i : Nat) : List α → Array α
  | [] => slots
  | x :: data => blit (slots.setIfInBounds i x) (i + 1) data

/-- The contents of `n` slots from slot `i` on, without going around the end. -/
def slice (slots : Array α) (i n : Nat) : List α :=
  (slots.extract i (i + n)).toList

/-- Stores `data` one slot at a time from slot `i` on, going around the end, and tells which
slot comes next. -/
def copyIn (slots : Array α) (i : Nat) : List α → Array α × Nat
  | [] => (slots, i)
  | x :: data => copyIn (slots.setIfInBounds i x) (nextSlot slots.size i) data

/-- The contents of `n` slots from slot `i` on, going around the end, and the slot that comes
next. -/
def copyOut (slots : Array α) (i : Nat) : Nat → List α × Nat
  | 0 => ([], i)
  | n + 1 =>
    let rest := copyOut slots (nextSlot slots.size i) n
    (slots[i]?.toList ++ rest.1, rest.2)

end BlockFlow
