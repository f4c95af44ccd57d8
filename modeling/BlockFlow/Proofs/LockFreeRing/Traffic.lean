import BlockFlow.Proofs.LockFreeRing.Sequential
import Mathlib.Logic.Relation

/-!
# One writer and one reader, step by step

Here a call on a shared ring is not one step but many: it loads its own cursor, loads the other
one and checks, copies one slot at a time and publishes its cursor, and between any two of these
steps the other side may make any number of its own (`Move`). Uninterrupted, the steps of a call
make up the call of the library (`reaches_push`, `reaches_pull`).

Over every interleaving the sides never touch the same slot, and the reader gets what the writer
published, in order (`slots_owned_by_one_side`). The invariant numbers the elements in the order
in which they are published: element `k` belongs into slot `place f k`, the writer is at work on
places from the last published one up to one turn after the last one given back, and the reader on
places from there up to the last published one.
-/

set_option autoImplicit false

namespace BlockFlow.LockFreeRing

universe u

variable {α : Type u}

/-- Where the writer stands. -/
inductive WriterPhase (α : Type u) where
  | idle
  /-- It has claimed its side for `data` and loaded its own cursor. -/
  | started (data : List α) (own : Nat)
  /-- There is room: `done` is stored, and `rest` goes into the slots from `slot` on. -/
  | copying (slot : Nat) (done rest : List α)

/-- Where the reader stands. -/
inductive ReaderPhase (α : Type u) where
  | idle
  /-- It has claimed its side for `n` elements and loaded its own cursor. -/
  | started (n own : Nat)
  /-- The elements are there: `got` is fetched, and `left` more are in the slots from `slot`
  on. -/
  | copying (slot : Nat) (got : List α) (left : Nat)

/-- A shared ring with both sides at work, everything that published writes wrote, and everything
that completed reads returned. -/
structure Traffic (α : Type u) where
  ring : LockFreeRing α
  writer : WriterPhase α
  reader : ReaderPhase α
  written : List α
  taken : List α

/-- The slots that a walk of `n` slots from slot `i` goes through. -/
def walk (size : Nat) : Nat → Nat → List Nat
  | _, 0 => []
  | i, n + 1 => i :: walk size (nextSlot size i) n

/-- The slots that an accepted write still has to fill. -/
def WriterPhase.pending (size : Nat) : WriterPhase α → List Nat
  | copying slot _ rest => walk size slot rest.length
  | _ => []

/-- The slots that an accepted read still has to copy. -/
def ReaderPhase.pending (size : Nat) : ReaderPhase α → List Nat
  | copying slot _ left => walk size slot left
  | _ => []

namespace Traffic

/-- Both sides before their first call. -/
def start (f : LockFreeRing α) : Traffic α :=
  { ring := f, writer := .idle, reader := .idle, written := [], taken := [] }

/-- One atomic step of one side. -/
inductive Move : Traffic α → Traffic α → Prop
  | startWrite {s : Traffic α} (data : List α) (phase : s.writer = .idle) :
      Move s { s with
        ring := { s.ring with writerBusy := true }
        writer := .started data s.ring.write }
  | refuseWrite {s : Traffic α} {data : List α} {own : Nat} (phase : s.writer = .started data own)
      (full : s.ring.capacity - fillBetween own s.ring.read s.ring.slots.size < data.length) :
      Move s { s with ring := { s.ring with writerBusy := false }, writer := .idle }
  | acceptWrite {s : Traffic α} {data : List α} {own : Nat} (phase : s.writer = .started data own)
      (fits : data.length ≤ s.ring.capacity - fillBetween own s.ring.read s.ring.slots.size) :
      Move s { s with writer := .copying own [] data }
  | store {s : Traffic α} {slot : Nat} {x : α} {done rest : List α}
      (phase : s.writer = .copying slot done (x :: rest)) :
      Move s { s with
        ring := { s.ring with slots := s.ring.slots.setIfInBounds slot x }
        writer := .copying (nextSlot s.ring.slots.size slot) (done ++ [x]) rest }
  | publishWrite {s : Traffic α} {slot : Nat} {done : List α}
      (phase : s.writer = .copying slot done []) :
      Move s { s with
        ring := { s.ring with write := slot, writerBusy := false }
        writer := .idle
        written := s.written ++ done }
  | startRead {s : Traffic α} (n : Nat) (phase : s.reader = .idle) :
      Move s { s with
        ring := { s.ring with readerBusy := true }
        reader := .started n s.ring.read }
  | refuseRead {s : Traffic α} {n own : Nat} (phase : s.reader = .started n own)
      (short : fillBetween s.ring.write own s.ring.slots.size < n) :
      Move s { s with ring := { s.ring with readerBusy := false }, reader := .idle }
  | acceptRead {s : Traffic α} {n own : Nat} (phase : s.reader = .started n own)
      (there : n ≤ fillBetween s.ring.write own s.ring.slots.size) :
      Move s { s with reader := .copying own [] n }
  | fetch {s : Traffic α} {slot left : Nat} {got : List α}
      (phase : s.reader = .copying slot got (left + 1)) :
      Move s { s with
        reader := .copying (nextSlot s.ring.slots.size slot)
          (got ++ s.ring.slots[slot]?.toList) left }
  | publishRead {s : Traffic α} {slot : Nat} {got : List α}
      (phase : s.reader = .copying slot got 0) :
      Move s { s with
        ring := { s.ring with read := slot, readerBusy := false }
        reader := .idle
        taken := s.taken ++ got }

/-- Any number of steps of the two sides, in any order. -/
abbrev Reaches : Traffic α → Traffic α → Prop := Relation.ReflTransGen Move

/-! ## A call that nothing interrupts -/

section Alone

variable {s : Traffic α}

/-- The writer's copy, slot by slot, is a copy in. -/
theorem reaches_copyIn {slot : Nat} {done rest : List α}
    (phase : s.writer = .copying slot done rest) :
    Reaches s { s with
      ring := { s.ring with slots := (copyIn s.ring.slots slot rest).1 }
      writer := .copying (copyIn s.ring.slots slot rest).2 (done ++ rest) [] } := by
  induction rest generalizing s slot done with
  | nil =>
    have hsame : s = { s with writer := .copying slot (done ++ []) [] } := by
      rw [List.append_nil, ← phase]
    exact hsame ▸ Relation.ReflTransGen.refl
  | cons x rest ih =>
    have hstep := Relation.ReflTransGen.single (Move.store phase)
    have hrest := ih (s := { s with
      ring := { s.ring with slots := s.ring.slots.setIfInBounds slot x }
      writer := .copying (nextSlot s.ring.slots.size slot) (done ++ [x]) rest }) rfl
    rw [List.append_assoc] at hrest
    exact hstep.trans hrest

/-- The reader's copy, slot by slot, is a copy out. -/
theorem reaches_copyOut {slot left : Nat} {got : List α}
    (phase : s.reader = .copying slot got left) :
    Reaches s { s with
      reader := .copying (copyOut s.ring.slots slot left).2
        (got ++ (copyOut s.ring.slots slot left).1) 0 } := by
  induction left generalizing s slot got with
  | zero =>
    have hsame : s = { s with reader := .copying slot (got ++ []) 0 } := by
      rw [List.append_nil, ← phase]
    exact hsame ▸ Relation.ReflTransGen.refl
  | succ left ih =>
    have hstep := Relation.ReflTransGen.single (Move.fetch phase)
    have hrest := ih (s := { s with
      reader := .copying (nextSlot s.ring.slots.size slot)
        (got ++ s.ring.slots[slot]?.toList) left }) rfl
    rw [List.append_assoc] at hrest
    exact hstep.trans hrest

/-- The steps of a write that nothing interrupts make up a push. -/
theorem reaches_push (phase : s.writer = .idle) {data : List α} {f : LockFreeRing α}
    (hpush : s.ring.push data = .ok f) :
    Reaches s { s with ring := f, written := s.written ++ data } := by
  cases hclaim : s.ring.claimWriter data.length with
  | error e =>
    rw [push, hclaim] at hpush
    cases hpush
  | ok claimed =>
    rw [push, hclaim] at hpush
    obtain ⟨-, hfits, rfl⟩ := claimWriter_eq_ok hclaim
    cases hpush
    have hstart := Relation.ReflTransGen.single (Move.startWrite data phase)
    have haccept := hstart.tail (Move.acceptWrite rfl hfits)
    have hcopied := haccept.trans (reaches_copyIn rfl)
    have hdone := hcopied.tail (Move.publishWrite rfl)
    obtain ⟨ring, writer, reader, written, taken⟩ := s
    cases phase
    exact hdone

/-- The steps of a read that nothing interrupts make up a pull. -/
theorem reaches_pull (phase : s.reader = .idle) {n : Nat} {block : List α} {f : LockFreeRing α}
    (hpull : s.ring.pull n = .ok (block, f)) :
    Reaches s { s with ring := f, taken := s.taken ++ block } := by
  cases hclaim : s.ring.claimReader n with
  | error e =>
    rw [pull, hclaim] at hpull
    cases hpull
  | ok claimed =>
    rw [pull, hclaim] at hpull
    obtain ⟨-, hthere, rfl⟩ := claimReader_eq_ok hclaim
    cases hpull
    have hstart := Relation.ReflTransGen.single (Move.startRead n phase)
    have haccept := hstart.tail (Move.acceptRead rfl hthere)
    have hcopied := haccept.trans (reaches_copyOut rfl)
    have hdone := hcopied.tail (Move.publishRead rfl)
    obtain ⟨ring, writer, reader, written, taken⟩ := s
    cases phase
    exact hdone

end Alone

end Traffic

/-! ## Places -/

/-- The slot of element `k`, counted from the oldest that `f` stores. -/
def place (f : LockFreeRing α) (k : Nat) : Nat := (f.read + k) % f.slots.size

section Place

variable {f : LockFreeRing α}

theorem place_lt (hf : f.ring.Valid) (k : Nat) : place f k < f.slots.size :=
  Nat.mod_lt _ hf.size_pos

theorem nextSlot_place (hf : f.ring.Valid) (k : Nat) :
    nextSlot f.slots.size (place f k) = place f (k + 1) := by
  rw [nextSlot_eq (place_lt hf k), place, place, Nat.mod_add_mod, Nat.add_assoc]

/-- Elements less than one turn apart have different slots. -/
theorem place_ne {a b : Nat} (hab : a < b) (hb : b < a + f.slots.size) :
    place f a ≠ place f b := by
  intro heq
  have := eq_of_mod_eq heq (by omega) (by omega)
  omega

theorem fillBetween_place (hf : f.ring.Valid) {a b : Nat} (hba : b ≤ a)
    (ha : a < b + f.slots.size) : fillBetween (place f a) (place f b) f.slots.size = a - b := by
  -- `a` is less than one turn ahead of `b`
  have hplace : place f a = (place f b + (a - b)) % f.slots.size := by
    unfold place
    rw [Nat.mod_add_mod]
    congr 1
    omega
  rw [hplace]
  exact fillBetween_mod (place_lt hf b) (by omega)

theorem mem_walk_place (hf : f.ring.Valid) {i k n : Nat} :
    i ∈ walk f.slots.size (place f k) n ↔ ∃ m, k ≤ m ∧ m < k + n ∧ i = place f m := by
  induction n generalizing k with
  | zero =>
    simp only [walk, List.not_mem_nil, false_iff]
    rintro ⟨m, hk, hm, -⟩
    omega
  | succ n ih =>
    rw [walk, List.mem_cons, nextSlot_place hf, ih]
    constructor
    · rintro (rfl | ⟨m, hk, hm, rfl⟩)
      · exact ⟨k, le_rfl, by omega, rfl⟩
      · exact ⟨m, by omega, by omega, rfl⟩
    · rintro ⟨m, hk, hm, rfl⟩
      rcases Nat.eq_or_lt_of_le hk with rfl | hlt
      · exact .inl rfl
      · exact .inr ⟨m, hlt, by omega, rfl⟩

end Place

/-! ## The invariant -/

/-- What a writer with `published` elements behind it may rely on, where the reader has given
back `given` elements. -/
def WriterPhase.Sound (f : LockFreeRing α) (slots : Array α) (published given : Nat) :
    WriterPhase α → Prop
  | .idle => True
  | .started _ own => own = place f published
  | .copying slot done rest =>
    slot = place f (published + done.length) ∧
      published + done.length + rest.length < given + f.slots.size ∧
      ∀ k < done.length, slots[place f (published + k)]? = done[k]?

/-- What a reader that has given back `given` elements of `published` may rely on. -/
def ReaderPhase.Sound (f : LockFreeRing α) (published : List α) (given : Nat) :
    ReaderPhase α → Prop
  | .idle => True
  | .started _ own => own = place f given
  | .copying slot got left =>
    slot = place f (given + got.length) ∧ given + got.length + left ≤ published.length ∧
      got = (published.drop given).take got.length

/-- What the reader gives back only makes room for the writer. -/
theorem WriterPhase.Sound.mono {f : LockFreeRing α} {slots : Array α} {published given : Nat}
    {phase : WriterPhase α} (h : phase.Sound f slots published given) {more : Nat}
    (hmore : given ≤ more) : phase.Sound f slots published more := by
  cases phase with
  | idle => trivial
  | started data own => exact h
  | copying slot done rest => exact ⟨h.1, by have := h.2.1; omega, h.2.2⟩

/-- A publication takes nothing away from a reader. -/
theorem ReaderPhase.Sound.mono {f : LockFreeRing α} {published : List α} {given : Nat}
    {phase : ReaderPhase α} (h : phase.Sound f published given) (hgiven : given ≤ published.length)
    (block : List α) : phase.Sound f (published ++ block) given := by
  cases phase with
  | idle => trivial
  | started n own => exact h
  | copying slot got left =>
    obtain ⟨hslot, hleft, hgot⟩ := h
    refine ⟨hslot, ?_, ?_⟩
    · rw [List.length_append]
      omega
    · rw [List.drop_append_of_le_length hgiven, List.take_append_of_le_length]
      · exact hgot
      · rw [List.length_drop]
        omega

namespace Traffic

/-- Everything published so far, by the ring at the start and by writes since then. -/
def published (f : LockFreeRing α) (s : Traffic α) : List α := f.ring.contents ++ s.written

/-- The invariant of the two sides at work on a ring that started out as `f`. -/
structure Sound (f : LockFreeRing α) (s : Traffic α) : Prop where
  size : s.ring.slots.size = f.slots.size
  write : s.ring.write = place f (published f s).length
  read : s.ring.read = place f s.taken.length
  taken : s.taken <+: published f s
  room : (published f s).length < s.taken.length + f.slots.size
  stored : ∀ k, s.taken.length ≤ k → k < (published f s).length →
    s.ring.slots[place f k]? = (published f s)[k]?
  writer : WriterPhase.Sound f s.ring.slots (published f s).length s.taken.length s.writer
  reader : ReaderPhase.Sound f (published f s) s.taken.length s.reader

theorem Sound.start {f : LockFreeRing α} (hf : f.ring.Valid) : Sound f (start f) where
  size := rfl
  write := by
    have hlength := hf.length_contents
    have hcursor : (f.ring.read + f.ring.fillCount) % f.ring.slots.size = f.ring.write :=
      read_add_fillBetween hf.write_lt hf.read_lt
    simp only [published, Traffic.start, List.append_nil, hlength]
    exact hcursor.symm
  read := (Nat.mod_eq_of_lt hf.read_lt).symm
  taken := List.nil_prefix
  room := by
    have hlt := hf.fillCount_lt
    simp only [published, Traffic.start, List.append_nil, hf.length_contents, List.length_nil,
      Nat.zero_add]
    exact hlt
  stored := by
    intro k _ hk
    simp only [published, Traffic.start, List.append_nil, hf.length_contents] at hk ⊢
    exact (getElem?_window hf.size_pos hk).symm
  writer := trivial
  reader := trivial

section Moves

variable {f : LockFreeRing α} {s : Traffic α}

/-- The fill count by the published cursors is the number of published elements that are not
given back. -/
theorem Sound.fillCount_eq (hf : f.ring.Valid) (h : Sound f s) :
    fillBetween s.ring.write s.ring.read s.ring.slots.size =
      (published f s).length - s.taken.length := by
  rw [h.write, h.read, h.size]
  exact fillBetween_place hf h.taken.length_le h.room

theorem Sound.acceptWrite (hf : f.ring.Valid) (h : Sound f s) {data : List α} {own : Nat}
    (phase : s.writer = .started data own)
    (fits : data.length ≤ s.ring.capacity - fillBetween own s.ring.read s.ring.slots.size) :
    Sound f { s with writer := .copying own [] data } := by
  have hown := h.writer
  rw [phase] at hown
  have hfill := h.fillCount_eq hf
  have hcapacity : s.ring.capacity = f.slots.size - 1 := by rw [capacity, h.size]
  have hsize : 0 < f.slots.size := hf.size_pos
  have hle := h.taken.length_le
  rw [show own = s.ring.write from hown.trans h.write.symm, hfill, hcapacity] at fits
  refine { h with writer := ⟨hown, ?_, ?_⟩ }
  · show (published f s).length + 0 + data.length < s.taken.length + f.slots.size
    have hroom := h.room
    omega
  · intro k hk
    cases hk

/-- A store goes into a slot that holds no unread element and that no copy has filled. -/
theorem Sound.store (hf : f.ring.Valid) (h : Sound f s) {slot : Nat} {x : α} {done rest : List α}
    (phase : s.writer = .copying slot done (x :: rest)) :
    Sound f { s with
      ring := { s.ring with slots := s.ring.slots.setIfInBounds slot x }
      writer := .copying (nextSlot s.ring.slots.size slot) (done ++ [x]) rest } := by
  have hcopying := h.writer
  rw [phase] at hcopying
  obtain ⟨rfl, hroom, hdone⟩ := hcopying
  rw [List.length_cons] at hroom
  have hle := h.taken.length_le
  -- the slot is less than one turn ahead of every element that must survive
  have hother : ∀ k, s.taken.length ≤ k → k < (published f s).length + done.length →
      (s.ring.slots.setIfInBounds (place f ((published f s).length + done.length)) x)[place f k]? =
        s.ring.slots[place f k]? := by
    intro k hk hlt
    exact Array.getElem?_setIfInBounds_ne (place_ne hlt (by omega)).symm
  refine
    { h with
      size := (Array.size_setIfInBounds ..).trans h.size
      stored := fun k hk (hlt : k < (published f s).length) =>
        (hother k hk (by omega)).trans (h.stored k hk hlt)
      writer := ⟨?_, ?_, ?_⟩ }
  · rw [h.size, nextSlot_place hf, List.length_append, List.length_singleton, Nat.add_assoc]
    rfl
  · show (published f s).length + (done ++ [x]).length + rest.length <
      s.taken.length + f.slots.size
    rw [List.length_append, List.length_singleton]
    omega
  · intro k hk
    show (s.ring.slots.setIfInBounds _ x)[place f ((published f s).length + k)]? = _
    rw [List.length_append, List.length_singleton] at hk
    rcases Nat.lt_succ_iff_lt_or_eq.1 hk with hlt | rfl
    · rw [hother _ (by omega) (by omega), List.getElem?_append_left hlt]
      exact hdone k hlt
    · rw [Array.getElem?_setIfInBounds_self_of_lt (by rw [h.size]; exact place_lt hf _)]
      simp

/-- A publication hands the stored block over to the reader. -/
theorem Sound.publishWrite (h : Sound f s) {slot : Nat} {done : List α}
    (phase : s.writer = .copying slot done []) :
    Sound f { s with
      ring := { s.ring with write := slot, writerBusy := false }
      writer := .idle
      written := s.written ++ done } := by
  have hcopying := h.writer
  rw [phase] at hcopying
  obtain ⟨rfl, hroom, hdone⟩ := hcopying
  have hle := h.taken.length_le
  -- the stored block becomes the end of what is published
  have hpublished : f.ring.contents ++ (s.written ++ done) = published f s ++ done :=
    (List.append_assoc ..).symm
  refine
    { size := h.size
      read := h.read
      write := ?_
      taken := ?_
      room := ?_
      stored := ?_
      writer := trivial
      reader := ?_ }
  · show _ = place f (f.ring.contents ++ (s.written ++ done)).length
    rw [hpublished, List.length_append]
  · show s.taken <+: f.ring.contents ++ (s.written ++ done)
    rw [hpublished]
    exact h.taken.trans (List.prefix_append ..)
  · show (f.ring.contents ++ (s.written ++ done)).length < _
    rw [hpublished, List.length_append]
    exact hroom
  · show ∀ k, s.taken.length ≤ k → k < (f.ring.contents ++ (s.written ++ done)).length →
      s.ring.slots[place f k]? = (f.ring.contents ++ (s.written ++ done))[k]?
    rw [hpublished, List.length_append]
    intro k hk hlt
    by_cases hold : k < (published f s).length
    · -- an element published earlier
      rw [List.getElem?_append_left hold]
      exact h.stored k hk hold
    · -- an element of the block
      obtain ⟨m, rfl⟩ := Nat.exists_eq_add_of_le (Nat.le_of_not_lt hold)
      rw [List.getElem?_append_right (by omega), Nat.add_sub_cancel_left]
      exact hdone m (by omega)
  · show ReaderPhase.Sound f (f.ring.contents ++ (s.written ++ done)) s.taken.length s.reader
    rw [hpublished]
    exact ReaderPhase.Sound.mono h.reader hle done

theorem Sound.acceptRead (hf : f.ring.Valid) (h : Sound f s) {n own : Nat}
    (phase : s.reader = .started n own)
    (there : n ≤ fillBetween s.ring.write own s.ring.slots.size) :
    Sound f { s with reader := .copying own [] n } := by
  have hown := h.reader
  rw [phase] at hown
  have hle := h.taken.length_le
  rw [show own = s.ring.read from hown.trans h.read.symm, h.fillCount_eq hf] at there
  refine { h with reader := ⟨hown, ?_, rfl⟩ }
  show s.taken.length + 0 + n ≤ (published f s).length
  omega

/-- A fetch gets the next published element, which no store has overwritten. -/
theorem Sound.fetch (hf : f.ring.Valid) (h : Sound f s) {slot left : Nat} {got : List α}
    (phase : s.reader = .copying slot got (left + 1)) :
    Sound f { s with
      reader := .copying (nextSlot s.ring.slots.size slot)
        (got ++ s.ring.slots[slot]?.toList) left } := by
  have hcopying := h.reader
  rw [phase] at hcopying
  obtain ⟨rfl, hleft, hgot⟩ := hcopying
  have hlt : s.taken.length + got.length < (published f s).length := by omega
  -- the slot holds a published element that is not given back yet
  have helement : s.ring.slots[place f (s.taken.length + got.length)]?.toList =
      [(published f s)[s.taken.length + got.length]] := by
    rw [h.stored _ (by omega) hlt, List.getElem?_eq_getElem hlt]
    rfl
  rw [helement, h.size, nextSlot_place hf]
  refine { h with reader := ⟨?_, ?_, ?_⟩ }
  · rw [List.length_append]
    rfl
  · show s.taken.length + (got ++ [_]).length + left ≤ (published f s).length
    rw [List.length_append, List.length_singleton]
    omega
  · show got ++ [_] = ((published f s).drop s.taken.length).take (got ++ [_]).length
    rw [List.length_append, List.length_singleton, List.take_add_one, ← hgot, List.getElem?_drop,
      List.getElem?_eq_getElem hlt]
    rfl

/-- The publication of a read gives its slots back to the writer. -/
theorem Sound.publishRead (h : Sound f s) {slot : Nat} {got : List α}
    (phase : s.reader = .copying slot got 0) :
    Sound f { s with
      ring := { s.ring with read := slot, readerBusy := false }
      reader := .idle
      taken := s.taken ++ got } := by
  have hcopying := h.reader
  rw [phase] at hcopying
  obtain ⟨rfl, hleft, hgot⟩ := hcopying
  have hroom := h.room
  refine
    { size := h.size
      write := h.write
      read := ?_
      taken := ?_
      room := ?_
      stored := ?_
      writer := ?_
      reader := trivial }
  · show _ = place f (s.taken ++ got).length
    rw [List.length_append]
  · show s.taken ++ got <+: published f s
    rw [List.prefix_iff_eq_take.1 h.taken, hgot, ← List.take_add]
    exact List.take_prefix ..
  · show (published f s).length < (s.taken ++ got).length + f.slots.size
    rw [List.length_append]
    omega
  · show ∀ k, (s.taken ++ got).length ≤ k → k < (published f s).length →
      s.ring.slots[place f k]? = (published f s)[k]?
    intro k hk hlt
    rw [List.length_append] at hk
    exact h.stored k (by omega) hlt
  · show WriterPhase.Sound f s.ring.slots (published f s).length (s.taken ++ got).length s.writer
    rw [List.length_append]
    exact WriterPhase.Sound.mono h.writer (Nat.le_add_right ..)

/-- Every step of either side keeps the invariant. -/
theorem Sound.move (hf : f.ring.Valid) (h : Sound f s) {s' : Traffic α} (hmove : Move s s') :
    Sound f s' := by
  cases hmove with
  | startWrite data phase => exact { h with writer := h.write }
  | refuseWrite phase full => exact { h with writer := trivial }
  | acceptWrite phase fits => exact h.acceptWrite hf phase fits
  | store phase => exact h.store hf phase
  | publishWrite phase => exact h.publishWrite phase
  | startRead n phase => exact { h with reader := h.read }
  | refuseRead phase short => exact { h with reader := trivial }
  | acceptRead phase there => exact h.acceptRead hf phase there
  | fetch phase => exact h.fetch hf phase
  | publishRead phase => exact h.publishRead phase

end Moves

theorem Sound.reaches {f : LockFreeRing α} (hf : f.ring.Valid) {s s' : Traffic α} (h : Sound f s)
    (hreaches : Reaches s s') : Sound f s' := by
  induction hreaches with
  | refl => exact h
  | tail _ hmove ih => exact ih.move hf hmove

/-- What was published and what was given back only grow. -/
theorem published_prefix_of_reaches (f : LockFreeRing α) {s s' : Traffic α}
    (hreaches : Reaches s s') : published f s <+: published f s' := by
  induction hreaches with
  | refl => exact List.prefix_rfl
  | tail _ hmove ih =>
    apply ih.trans
    cases hmove with
    | publishWrite phase =>
      exact (List.prefix_append_right_inj _).2 (List.prefix_append ..)
    | _ => exact List.prefix_rfl

/-! ## Who owns which slot -/

section Ownership

variable {f : LockFreeRing α} {s : Traffic α}

/-- The ring as it looks to a caller who loads the write cursor in state `w` and the read cursor
in state `r`. -/
def loaded (w r : Traffic α) : LockFreeRing α := { w.ring with read := r.ring.read }

theorem Sound.valid (hf : f.ring.Valid) (h : Sound f s) : s.ring.ring.Valid where
  write_lt := by
    show s.ring.write < s.ring.slots.size
    rw [h.write, h.size]
    exact place_lt hf _
  read_lt := by
    show s.ring.read < s.ring.slots.size
    rw [h.read, h.size]
    exact place_lt hf _

theorem Sound.loaded {r : Traffic α} (hf : f.ring.Valid) (hw : Sound f s) (hr : Sound f r) :
    (loaded s r).ring.Valid where
  write_lt := (hw.valid hf).write_lt
  read_lt := by
    show r.ring.read < s.ring.slots.size
    rw [hw.size, ← hr.size]
    exact (hr.valid hf).read_lt

/-- A slot that a write still has to fill belongs to an element that is not published, less than
a turn after the last one given back. -/
theorem Sound.mem_writer_pending (hf : f.ring.Valid) (h : Sound f s) {i : Nat}
    (hi : i ∈ s.writer.pending s.ring.slots.size) :
    ∃ k, (published f s).length ≤ k ∧ k < s.taken.length + f.slots.size ∧ i = place f k := by
  have hwriter := h.writer
  rw [h.size] at hi
  rcases hphase : s.writer with _ | ⟨data, own⟩ | ⟨slot, done, rest⟩
  · rw [hphase] at hi
    cases hi
  · rw [hphase] at hi
    cases hi
  · rw [hphase] at hwriter hi
    obtain ⟨rfl, hroom, -⟩ := hwriter
    obtain ⟨k, hk, hlt, rfl⟩ := (mem_walk_place hf).1 hi
    exact ⟨k, by omega, by omega, rfl⟩

/-- A slot that a read still has to copy belongs to an element that is published and not given
back. -/
theorem Sound.mem_reader_pending (hf : f.ring.Valid) (h : Sound f s) {i : Nat}
    (hi : i ∈ s.reader.pending s.ring.slots.size) :
    ∃ k, s.taken.length ≤ k ∧ k < (published f s).length ∧ i = place f k := by
  have hreader := h.reader
  rw [h.size] at hi
  rcases hphase : s.reader with _ | ⟨n, own⟩ | ⟨slot, got, left⟩
  · rw [hphase] at hi
    cases hi
  · rw [hphase] at hi
    cases hi
  · rw [hphase] at hreader hi
    obtain ⟨rfl, hleft, -⟩ := hreader
    obtain ⟨k, hk, hlt, rfl⟩ := (mem_walk_place hf).1 hi
    exact ⟨k, by omega, by omega, rfl⟩

theorem Sound.disjoint_pending (hf : f.ring.Valid) (h : Sound f s) :
    (s.writer.pending s.ring.slots.size).Disjoint (s.reader.pending s.ring.slots.size) := by
  intro i hwriter hreader
  obtain ⟨b, hb, hturn, rfl⟩ := h.mem_writer_pending hf hwriter
  obtain ⟨a, ha, hlt, heq⟩ := h.mem_reader_pending hf hreader
  -- the two elements are less than a turn apart, so the slots differ
  exact place_ne (by omega) (by omega) heq.symm

/-- A fill count with an old write cursor counts only elements that are published and unread. -/
theorem Sound.fillCount_loaded_le (hf : f.ring.Valid) (h : Sound f s) {s' : Traffic α}
    (hreaches : Reaches s s') (hstill : s'.taken = s.taken) :
    (Traffic.loaded s s').fillCount ≤ (published f s').length - s'.taken.length := by
  -- the read cursor tells how much was given back
  have hcursor : s'.ring.read = s.ring.read := by
    rw [(h.reaches hf hreaches).read, h.read, hstill]
  have hgrown := (published_prefix_of_reaches f hreaches).length_le
  have hcount : (Traffic.loaded s s').fillCount = (published f s).length - s.taken.length := by
    rw [← h.fillCount_eq hf, ← hcursor]
    rfl
  rw [hcount, hstill]
  omega

end Ownership

/-- Over every interleaving of the steps of one writer and one reader the cursors stay inside the
storage, no slot is left to both an accepted write and an accepted read, and what reads returned
is a prefix of what was published. A fill count whose write cursor was loaded earlier, while the
read cursor stood still, counts only elements that are published and unread, and whatever the
moments at which two cursors are loaded, the fill count and the available space by them add up to
the capacity. -/
theorem slots_owned_by_one_side {f : LockFreeRing α} (hf : LockFreeRing.Reachable f)
    {s : Traffic α} (hs : Reaches (start f) s) :
    s.ring.write < s.ring.slots.size ∧ s.ring.read < s.ring.slots.size ∧
      (s.writer.pending s.ring.slots.size).Disjoint (s.reader.pending s.ring.slots.size) ∧
      s.taken <+: f.ring.contents ++ s.written ∧
      (∀ s', Reaches s s' → s'.taken = s.taken →
        (loaded s s').fillCount ≤ (f.ring.contents ++ s'.written).length - s'.taken.length) ∧
      ∀ r, Reaches (start f) r →
        (loaded s r).capacity = f.capacity ∧
          (loaded s r).fillCount ≤ f.capacity ∧ (loaded s r).availableSpace ≤ f.capacity ∧
          (loaded s r).fillCount + (loaded s r).availableSpace = f.capacity := by
  obtain ⟨hvalid, -, -⟩ := hf.quiet
  have hstart := Sound.start hvalid
  have h := hstart.reaches hvalid hs
  have hcursors := h.valid hvalid
  refine ⟨hcursors.write_lt, hcursors.read_lt, h.disjoint_pending hvalid, h.taken, ?_, ?_⟩
  · intro s' hreaches hstill
    exact h.fillCount_loaded_le hvalid hreaches hstill
  · intro r hr
    have hloaded := h.loaded hvalid (hstart.reaches hvalid hr)
    have hcapacity : (loaded s r).capacity = f.capacity := by
      show s.ring.slots.size - 1 = f.slots.size - 1
      rw [h.size]
    have hsum : (loaded s r).fillCount + (loaded s r).availableSpace = (loaded s r).capacity :=
      hloaded.fillCount_add_availableSpace
    rw [hcapacity] at hsum
    exact ⟨hcapacity, by omega, by omega, hsum⟩

/-- A read that has fetched one of its two elements, and a write accepted since then that goes on
at the end of the storage. -/
theorem slots_owned_by_one_side_under_way :
    let f : LockFreeRing Nat :=
      { slots := #[1, 2, 0, 0], write := 2, read := 0, writerBusy := false, readerBusy := false }
    let s : Traffic Nat :=
      { ring := { f with writerBusy := true, readerBusy := true }
        writer := .copying 2 [] [3]
        reader := .copying 1 [1] 1
        written := []
        taken := [] }
    LockFreeRing.Reachable f ∧ Reaches (start f) s ∧
      (s.writer.pending 4).Disjoint (s.reader.pending 4) ∧
      s.writer.pending 4 = [2] ∧ s.reader.pending 4 = [1] := by
  intro f s
  have hmake : make 3 0 = .ok (ofRing { slots := #[0, 0, 0, 0], write := 0, read := 0 }) := rfl
  have hnew : LockFreeRing.Reachable (ofRing _) := .make hmake
  have hf : LockFreeRing.Reachable f := .call (.write [1, 2] []) hnew
  have hread : Reaches (start f) _ := .single (.startRead 2 rfl)
  have hthere := hread.tail (.acceptRead rfl (by decide))
  have hfetched := hthere.tail (.fetch rfl)
  have hwrite := hfetched.tail (.startWrite [3] rfl)
  have hs : Reaches (start f) s := hwrite.tail (.acceptWrite rfl (by decide))
  exact ⟨hf, hs, (slots_owned_by_one_side hf hs).2.2.1, rfl, rfl⟩

end Traffic

end BlockFlow.LockFreeRing
