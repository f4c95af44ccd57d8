import BlockFlow.Ring.Slots
import Mathlib.Data.List.Basic
import Mathlib.Data.Nat.ModEq
import Mathlib.Tactic.Common

/-!
# Walking around a storage

The elements of a FIFO lie in a window of its storage: `n` slots from a slot on, around the end
of the array. `window` is that list. The copies of the library, slot by slot (`copyIn`,
`copyOut`) or in two runs (`blit`, `slice`), store and fetch exactly windows, and a window is
changed only by a store into one of its own slots.
-/

set_option autoImplicit false

namespace BlockFlow

universe u

variable {α : Type u}

/-! ## Cursors -/

theorem add_mod_of_lt {size i k : Nat} (hi : i < size) (hk : k ≤ size) :
    (i + k) % size = if i + k < size then i + k else i + k - size := by
  split
  · next h => exact Nat.mod_eq_of_lt h
  · next h =>
    rw [Nat.mod_eq_sub_mod (by omega)]
    exact Nat.mod_eq_of_lt (by omega)

/-- Two places less than one turn apart are the same slot only if they are the same place. -/
theorem eq_of_mod_eq {size a b : Nat} (h : a % size = b % size) (hab : a ≤ b)
    (hb : b < a + size) : a = b := by
  obtain ⟨d, rfl⟩ := Nat.exists_eq_add_of_le hab
  -- the distance is a multiple of the size and smaller than it
  have hd : 0 ≡ d [MOD size] := Nat.ModEq.add_left_cancel' a (by simpa [Nat.ModEq] using h)
  have hzero : 0 = d := hd.eq_of_lt_of_lt (by omega) (by omega)
  omega

theorem nextSlot_eq {size i : Nat} (hi : i < size) : nextSlot size i = (i + 1) % size := by
  rw [add_mod_of_lt hi (by omega)]
  unfold nextSlot
  split <;> split <;> omega

theorem nextSlot_lt {size i : Nat} (hi : i < size) : nextSlot size i < size := by
  rw [nextSlot_eq hi]
  exact Nat.mod_lt _ (by omega)

/-- Walking one slot and then `k` more is walking `k + 1` slots. -/
theorem nextSlot_add_mod {size i : Nat} (hi : i < size) (k : Nat) :
    (nextSlot size i + k) % size = (i + (k + 1)) % size := by
  rw [nextSlot_eq hi, Nat.mod_add_mod, Nat.add_assoc, Nat.add_comm 1 k]

theorem fillBetween_lt {write read size : Nat} (hw : write < size) (hr : read < size) :
    fillBetween write read size < size := by
  unfold fillBetween
  split <;> omega

/-- The fill count leads from the read cursor to the write cursor. -/
theorem read_add_fillBetween {write read size : Nat} (hw : write < size) (hr : read < size) :
    (read + fillBetween write read size) % size = write := by
  rw [add_mod_of_lt hr (fillBetween_lt hw hr).le]
  unfold fillBetween
  split <;> split <;> omega

/-- Less than one turn leads from the read cursor to a slot in one way only. -/
theorem fillBetween_mod {read size n : Nat} (hr : read < size) (hn : n < size) :
    fillBetween ((read + n) % size) read size = n := by
  rw [add_mod_of_lt hr hn.le]
  unfold fillBetween
  split <;> split <;> omega

theorem fillBetween_self (i size : Nat) : fillBetween i i size = 0 := by
  simp [fillBetween]

/-- A write of `n` elements that fits adds `n` to the fill count. -/
theorem fillBetween_advance_write {write read size n : Nat} (hw : write < size)
    (hr : read < size) (hn : fillBetween write read size + n < size) :
    fillBetween ((write + n) % size) read size = fillBetween write read size + n := by
  -- the new write cursor is that many slots after the read cursor
  have hplace : (write + n) % size = (read + (fillBetween write read size + n)) % size := by
    rw [← Nat.add_assoc, ← Nat.mod_add_mod (read + _), read_add_fillBetween hw hr]
  rw [hplace]
  exact fillBetween_mod hr hn

/-- A read of `n` elements that are there takes `n` from the fill count. -/
theorem fillBetween_advance_read {write read size n : Nat} (hw : write < size)
    (hr : read < size) (hn : n ≤ fillBetween write read size) :
    fillBetween write ((read + n) % size) size = fillBetween write read size - n := by
  have hfill := fillBetween_lt hw hr
  have hplace : ((read + n) % size + (fillBetween write read size - n)) % size = write := by
    rw [Nat.mod_add_mod, Nat.add_assoc, Nat.add_sub_cancel' hn]
    exact read_add_fillBetween hw hr
  have hstart : (read + n) % size < size := Nat.mod_lt _ (by omega)
  -- the same write cursor seen from the new read cursor
  have hback : fillBetween (((read + n) % size + (fillBetween write read size - n)) % size)
      ((read + n) % size) size = fillBetween write read size - n :=
    fillBetween_mod hstart (by omega)
  rwa [hplace] at hback

/-! ## Windows -/

/-- The contents of `n` slots from slot `i` on, around the end of the storage. -/
def window (slots : Array α) (i n : Nat) : List α :=
  (List.range n).filterMap fun k => slots[(i + k) % slots.size]?

@[simp] theorem window_zero (slots : Array α) (i : Nat) : window slots i 0 = [] := rfl

theorem window_add (slots : Array α) (i n m : Nat) :
    window slots i (n + m) = window slots i n ++ window slots ((i + n) % slots.size) m := by
  unfold window
  rw [List.range_add, List.filterMap_append, List.filterMap_map]
  congr 1
  apply List.filterMap_congr
  intro k _
  simp only [Function.comp_apply]
  rw [Nat.mod_add_mod, Nat.add_assoc]

theorem window_succ {slots : Array α} {i : Nat} (hi : i < slots.size) (n : Nat) :
    window slots i (n + 1) = slots[i] :: window slots (nextSlot slots.size i) n := by
  rw [Nat.add_comm n 1, window_add, ← nextSlot_eq hi]
  simp [window, Nat.mod_eq_of_lt hi, hi]

@[simp] theorem length_window {slots : Array α} (h : 0 < slots.size) (i n : Nat) :
    (window slots i n).length = n := by
  induction n generalizing i with
  | zero => rfl
  | succ n ih =>
    have hlt : (i + n) % slots.size < slots.size := Nat.mod_lt _ h
    rw [window_add, List.length_append, ih]
    simp [window, hlt]

theorem getElem?_window {slots : Array α} (h : 0 < slots.size) {i n k : Nat} (hk : k < n) :
    (window slots i n)[k]? = slots[(i + k) % slots.size]? := by
  obtain ⟨m, rfl⟩ : ∃ m, n = k + (1 + m) := ⟨n - k - 1, by omega⟩
  have hlt : (i + k) % slots.size < slots.size := Nat.mod_lt _ h
  rw [window_add, List.getElem?_append_right (by simp [h]), length_window h, Nat.sub_self,
    window_add]
  simp [window, hlt]

/-- Two storages of one size with the same contents in the slots of a window have the same
window. -/
theorem window_congr {slots slots' : Array α} (hsize : slots'.size = slots.size) {i n : Nat}
    (h : ∀ k < n, slots'[(i + k) % slots.size]? = slots[(i + k) % slots.size]?) :
    window slots' i n = window slots i n := by
  unfold window
  apply List.filterMap_congr
  intro k hk
  rw [hsize]
  exact h k (List.mem_range.1 hk)

/-- A list is a window exactly if each of its elements is in its slot. -/
theorem window_eq_iff {slots : Array α} (h : 0 < slots.size) {i : Nat} {data : List α} :
    window slots i data.length = data ↔
      ∀ k < data.length, slots[(i + k) % slots.size]? = data[k]? := by
  constructor
  · intro hw k hk
    rw [← getElem?_window h hk, hw]
  · intro hslots
    apply List.ext_getElem?
    intro k
    by_cases hk : k < data.length
    · rw [getElem?_window h hk, hslots k hk]
    · rw [List.getElem?_eq_none (by simp [h]; omega), List.getElem?_eq_none (by omega)]

theorem take_window {slots : Array α} (h : 0 < slots.size) (i : Nat) {n m : Nat} (hm : m ≤ n) :
    (window slots i n).take m = window slots i m := by
  obtain ⟨d, rfl⟩ := Nat.exists_eq_add_of_le hm
  rw [window_add, List.take_append_of_le_length (by simp [h]), List.take_of_length_le (by simp [h])]

theorem drop_window {slots : Array α} (h : 0 < slots.size) (i : Nat) {n m : Nat} (hm : m ≤ n) :
    (window slots i n).drop m = window slots ((i + m) % slots.size) (n - m) := by
  obtain ⟨d, rfl⟩ := Nat.exists_eq_add_of_le hm
  rw [window_add, List.drop_append_of_le_length (by simp [h]), List.drop_of_length_le (by simp [h]),
    List.nil_append, Nat.add_sub_cancel_left]

/-! ## Copies -/

@[simp] theorem size_copyIn (slots : Array α) (i : Nat) (data : List α) :
    (copyIn slots i data).1.size = slots.size := by
  induction data generalizing slots i with
  | nil => rfl
  | cons x data ih => rw [copyIn, ih, Array.size_setIfInBounds]

/-- A copy in ends at the slot after its last. -/
theorem copyIn_snd {slots : Array α} {i : Nat} (hi : i < slots.size) (data : List α) :
    (copyIn slots i data).2 = (i + data.length) % slots.size := by
  induction data generalizing slots i with
  | nil => exact (Nat.mod_eq_of_lt hi).symm
  | cons x data ih =>
    rw [copyIn, ih (by simpa using nextSlot_lt hi), Array.size_setIfInBounds,
      nextSlot_add_mod hi, List.length_cons]

/-- A copy in changes only the slots it goes through. -/
theorem copyIn_getElem?_of_ne {slots : Array α} {i j : Nat} (hi : i < slots.size)
    {data : List α} (hj : ∀ k < data.length, (i + k) % slots.size ≠ j) :
    (copyIn slots i data).1[j]? = slots[j]? := by
  induction data generalizing slots i with
  | nil => rfl
  | cons x data ih =>
    -- neither the first store nor the rest of the copy goes through slot `j`
    have hne : i ≠ j := by simpa [Nat.mod_eq_of_lt hi] using hj 0 (by simp)
    rw [copyIn, ih (by simpa using nextSlot_lt hi)]
    · exact Array.getElem?_setIfInBounds_ne hne
    · intro k hk
      rw [Array.size_setIfInBounds, nextSlot_add_mod hi]
      exact hj (k + 1) (by simpa using hk)

/-- What was copied in is in the slots that the copy went through. -/
theorem copyIn_getElem? {slots : Array α} {i : Nat} (hi : i < slots.size) {data : List α}
    (hlen : data.length ≤ slots.size) {k : Nat} (hk : k < data.length) :
    (copyIn slots i data).1[(i + k) % slots.size]? = data[k]? := by
  induction data generalizing slots i k with
  | nil => simp at hk
  | cons x data ih =>
    have hnext : nextSlot slots.size i < (slots.setIfInBounds i x).size := by
      simpa using nextSlot_lt hi
    rw [List.length_cons] at hlen hk
    rw [copyIn]
    cases k with
    | zero =>
      -- the rest of the copy does not come around to the first slot again
      rw [copyIn_getElem?_of_ne hnext]
      · simp [Nat.mod_eq_of_lt hi, hi]
      · intro k hk' heq
        rw [Array.size_setIfInBounds, nextSlot_add_mod hi] at heq
        have := eq_of_mod_eq heq.symm (by omega) (by omega)
        omega
    | succ k =>
      have h := ih hnext (by simp; omega) (k := k) (by omega)
      rwa [Array.size_setIfInBounds, nextSlot_add_mod hi] at h

/-- The window that a copy in went through is what was copied in. -/
theorem window_copyIn {slots : Array α} {i : Nat} (hi : i < slots.size) {data : List α}
    (hlen : data.length ≤ slots.size) :
    window (copyIn slots i data).1 i data.length = data := by
  rw [window_eq_iff (by simp; omega), size_copyIn]
  exact fun k hk => copyIn_getElem? hi hlen hk

/-- A window ahead of a copy in keeps its contents if the copy does not come around to it. -/
theorem window_copyIn_of_fits {slots : Array α} {i n : Nat} (hi : i < slots.size)
    {data : List α} (hfits : n + data.length ≤ slots.size) :
    window (copyIn slots ((i + n) % slots.size) data).1 i n = window slots i n := by
  have hpos : 0 < slots.size := by omega
  apply window_congr (size_copyIn ..)
  intro k hk
  apply copyIn_getElem?_of_ne (Nat.mod_lt _ hpos)
  intro m hm heq
  rw [Nat.mod_add_mod] at heq
  have := eq_of_mod_eq heq.symm (by omega) (by omega)
  omega

/-- A copy out fetches a window and ends at the slot after its last. -/
theorem copyOut_eq {slots : Array α} {i : Nat} (hi : i < slots.size) (n : Nat) :
    copyOut slots i n = (window slots i n, (i + n) % slots.size) := by
  induction n generalizing i with
  | zero => simp [copyOut, Nat.mod_eq_of_lt hi]
  | succ n ih =>
    rw [copyOut, ih (nextSlot_lt hi), window_succ hi, nextSlot_add_mod hi]
    simp [hi]

/-- Where the end of the storage is not reached, a run of slots is a copy in. -/
theorem blit_eq_copyIn {slots : Array α} {i : Nat} {data : List α}
    (h : i + data.length ≤ slots.size) : blit slots i data = (copyIn slots i data).1 := by
  induction data generalizing slots i with
  | nil => rfl
  | cons x data ih =>
    rw [List.length_cons] at h
    rw [blit, copyIn, ih (by simp; omega)]
    -- only a copy that goes on has to look where the next slot is
    cases data with
    | nil => rfl
    | cons y data =>
      rw [List.length_cons] at h
      rw [show nextSlot slots.size i = i + 1 from if_neg (by omega)]

theorem copyIn_append (slots : Array α) (i : Nat) (xs ys : List α) :
    copyIn slots i (xs ++ ys) = copyIn (copyIn slots i xs).1 (copyIn slots i xs).2 ys := by
  induction xs generalizing slots i with
  | nil => rfl
  | cons x xs ih =>
    rw [List.cons_append, copyIn, ih, copyIn]

/-- Two runs of slots, up to the end of the storage and from its start, are one copy in. -/
theorem blit_blit_eq_copyIn {slots : Array α} {i : Nat} (hi : i < slots.size) {data : List α}
    (hlen : data.length ≤ slots.size) :
    blit (blit slots i (data.take (min (slots.size - i) data.length))) 0
        (data.drop (min (slots.size - i) data.length)) =
      (copyIn slots i data).1 := by
  have hsplit := List.take_append_drop (min (slots.size - i) data.length) data
  conv_rhs => rw [← hsplit]
  have hfirst : blit slots i (data.take (min (slots.size - i) data.length)) =
      (copyIn slots i (data.take (min (slots.size - i) data.length))).1 :=
    blit_eq_copyIn (by simp; omega)
  rw [copyIn_append, hfirst, blit_eq_copyIn (by simp; omega), copyIn_snd hi]
  by_cases hend : slots.size ≤ i + data.length
  · -- The first run reaches the end, so the second starts at slot zero either way.
    rw [show (i + (data.take (min (slots.size - i) data.length)).length) = slots.size by
      simp; omega, Nat.mod_self]
  · -- the end is not reached, so nothing is left for the second run
    rw [List.drop_of_length_le (by omega)]
    rfl

theorem slice_eq_window {slots : Array α} {i n : Nat} (h : i + n ≤ slots.size) :
    slice slots i n = window slots i n := by
  apply List.ext_getElem?
  intro k
  unfold slice
  by_cases hk : k < n
  · rw [getElem?_window (by omega) hk, Nat.mod_eq_of_lt (by omega), Array.getElem?_toList,
      Array.getElem?_extract, if_pos (by omega)]
  · rw [List.getElem?_eq_none (by simp; omega), List.getElem?_eq_none]
    exact (List.length_filterMap_le _ _).trans (by simp; omega)

/-- Two runs of slots, up to the end of the storage and from its start, are one window. -/
theorem slice_append_slice {slots : Array α} {i n : Nat} (hi : i < slots.size)
    (hn : n ≤ slots.size) :
    slice slots i (min (slots.size - i) n) ++ slice slots 0 (n - min (slots.size - i) n) =
      window slots i n := by
  rw [slice_eq_window (by omega), slice_eq_window (by omega)]
  by_cases hend : slots.size ≤ i + n
  · -- the window is cut where the storage ends
    obtain ⟨m, rfl⟩ : ∃ m, n = (slots.size - i) + m := ⟨n - (slots.size - i), by omega⟩
    rw [Nat.min_eq_left (by omega), Nat.add_sub_cancel_left, window_add,
      Nat.add_sub_cancel' hi.le, Nat.mod_self]
  · -- the end is not reached, so the second run is empty
    rw [Nat.min_eq_right (by omega), Nat.sub_self, window_zero, List.append_nil]

end BlockFlow
