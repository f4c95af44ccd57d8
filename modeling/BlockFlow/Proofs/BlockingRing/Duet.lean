import BlockFlow.BlockingRing.Duet
import BlockFlow.Proofs.BlockingRing.Queue
import Mathlib.Logic.Relation

/-!
# Timing does not show through a blocking ring

A writer with a list of blocks and a reader with a list of buffers make their calls on one blocking
ring, each call at once as soon as it is served or refused. Their moves may follow each other in
any order (`Move`). Where both can move they can do so in either order (`join`), so that every
order leads to one and the same end (`eq_run_of_halted`): the calls made, their results and buffers,
the stored elements and the cursors do not depend on it.
-/

set_option autoImplicit false

namespace BlockFlow.Duet

universe u

variable {α : Type u}

/-- One move of either party. -/
def Move (d d' : Duet α) : Prop := d.writerMove? = some d' ∨ d.readerMove? = some d'

/-- Any number of moves of the two parties, in any order. -/
abbrev Reaches : Duet α → Duet α → Prop := Relation.ReflTransGen Move

/-- Neither party can move. -/
def Halted (d : Duet α) : Prop := d.writerMove? = none ∧ d.readerMove? = none

/-- The cursors are inside the storage, and nobody is armed with an error. -/
structure Calm (d : Duet α) : Prop where
  valid : d.ring.ring.Valid
  writerUnarmed : d.ring.writerError = none
  readerUnarmed : d.ring.readerError = none

/-! ## What a move is -/

/-- The parties after a write that was done. -/
def wrote (d : Duet α) (data : List α) (writes : List (List α)) : Duet α :=
  { d with ring := d.ring.append data, writes, written := d.written ++ [.ok ()] }

/-- The parties after a write of more than the ring can hold. -/
def writeRefused (d : Duet α) (data : List α) (writes : List (List α)) : Duet α :=
  { d with
    writes
    written := d.written ++ [.error (BlockingRing.oversize d.ring.capacity .writer data.length)] }

/-- The parties after a read that was done. -/
def took (d : Duet α) (n : Nat) (reads : List (List α)) : Duet α :=
  { d with
    ring := d.ring.discard n
    reads
    taken := d.taken ++ [(.ok (), d.ring.ring.contents.take n)] }

/-- The parties after a read of more than the ring can hold. -/
def readRefused (d : Duet α) (out : List α) (reads : List (List α)) : Duet α :=
  { d with
    reads
    taken := d.taken ++
      [(.error (BlockingRing.oversize d.ring.capacity .reader out.length), out)] }

section Moves

variable {d d' : Duet α}

/-- The writer moves if its next block fits or is larger than the ring. -/
theorem Calm.writerMove?_eq_some (h : d.Calm) :
    d.writerMove? = some d' ↔ ∃ data writes, d.writes = data :: writes ∧
      (d.ring.capacity < data.length ∧ d' = d.writeRefused data writes ∨
        data.length ≤ d.ring.availableSpace ∧ d' = d.wrote data writes) := by
  unfold writerMove?
  cases hwrites : d.writes with
  | nil => simp
  | cons data writes =>
    by_cases hlong : d.ring.capacity < data.length
    · have hnot : ¬ data.length ≤ d.ring.availableSpace := by
        have hsum : d.ring.fillCount + d.ring.availableSpace = d.ring.capacity :=
          h.valid.fillCount_add_availableSpace
        omega
      simp [BlockingRing.tryPush_of_capacity_lt hlong, hlong, hnot, writeRefused, eq_comm]
    by_cases hfits : data.length ≤ d.ring.availableSpace
    · simp [BlockingRing.tryPush_of_le h.valid hfits, hlong, hfits, wrote, eq_comm]
    · simp [BlockingRing.tryPush_of_lt h.writerUnarmed (Nat.le_of_not_lt hlong)
        (Nat.lt_of_not_le hfits), hlong, hfits]

/-- The reader moves if its next buffer can be filled or is larger than the ring. -/
theorem Calm.readerMove?_eq_some (h : d.Calm) :
    d.readerMove? = some d' ↔ ∃ out reads, d.reads = out :: reads ∧
      (d.ring.capacity < out.length ∧ d' = d.readRefused out reads ∨
        out.length ≤ d.ring.fillCount ∧ d' = d.took out.length reads) := by
  unfold readerMove?
  cases hreads : d.reads with
  | nil => simp
  | cons out reads =>
    by_cases hlong : d.ring.capacity < out.length
    · have hnot : ¬ out.length ≤ d.ring.fillCount := by
        have hle : d.ring.fillCount ≤ d.ring.capacity := h.valid.fillCount_le
        omega
      simp [BlockingRing.tryPull_of_capacity_lt hlong, hlong, hnot, readRefused, eq_comm]
    by_cases hthere : out.length ≤ d.ring.fillCount
    · simp [BlockingRing.tryPull_of_le h.valid hthere, hlong, hthere, took, eq_comm]
    · simp [BlockingRing.tryPull_of_lt h.readerUnarmed (Nat.le_of_not_lt hlong)
        (Nat.lt_of_not_le hthere), hlong, hthere]

theorem Calm.move (h : d.Calm) (hmove : Move d d') : d'.Calm := by
  rcases hmove with hwriter | hreader
  · obtain ⟨data, writes, -, ⟨-, rfl⟩ | ⟨-, rfl⟩⟩ := h.writerMove?_eq_some.1 hwriter
    · exact ⟨h.valid, h.writerUnarmed, h.readerUnarmed⟩
    · exact ⟨h.valid.append data, h.writerUnarmed, h.readerUnarmed⟩
  · obtain ⟨out, reads, -, ⟨-, rfl⟩ | ⟨-, rfl⟩⟩ := h.readerMove?_eq_some.1 hreader
    · exact ⟨h.valid, h.writerUnarmed, h.readerUnarmed⟩
    · exact ⟨h.valid.discard out.length, h.writerUnarmed, h.readerUnarmed⟩

/-- Every move makes one of the pending calls. -/
theorem Calm.pending_move (h : d.Calm) (hmove : Move d d') : d'.pending + 1 = d.pending := by
  unfold pending
  rcases hmove with hwriter | hreader
  · obtain ⟨data, writes, hwrites, ⟨-, rfl⟩ | ⟨-, rfl⟩⟩ := h.writerMove?_eq_some.1 hwriter
    · rw [hwrites, List.length_cons]
      simp only [writeRefused]
      omega
    · rw [hwrites, List.length_cons]
      simp only [wrote]
      omega
  · obtain ⟨out, reads, hreads, ⟨-, rfl⟩ | ⟨-, rfl⟩⟩ := h.readerMove?_eq_some.1 hreader
    · rw [hreads, List.length_cons]
      simp only [readRefused]
      omega
    · rw [hreads, List.length_cons]
      simp only [took]
      omega

theorem Calm.reaches (h : d.Calm) (hreaches : Reaches d d') : d'.Calm := by
  induction hreaches with
  | refl => exact h
  | tail _ hmove ih => exact ih.move hmove

end Moves

/-! ## The order of two moves -/

section Order

variable {d d₁ d₂ : Duet α}

/-- A write and a read that are both possible have the same effect in either order: the read takes
the same elements, and slots and cursors are the same. -/
theorem Calm.took_wrote (h : d.Calm) {data : List α} (hfits : data.length ≤ d.ring.availableSpace)
    {n : Nat} (hthere : n ≤ d.ring.fillCount) (writes reads : List (List α)) :
    (d.wrote data writes).took n reads = (d.took n reads).wrote data writes := by
  have hblock : (d.ring.append data).ring.contents.take n = d.ring.ring.contents.take n :=
    BlockingRing.take_contents_append h.valid hfits hthere
  simp only [wrote, took, hblock, BlockingRing.append_discard]

/-- If both parties can move, they can do so in either order, with the same result. -/
theorem Calm.join (h : d.Calm) (hwriter : d.writerMove? = some d₁)
    (hreader : d.readerMove? = some d₂) :
    ∃ d₃, d₁.readerMove? = some d₃ ∧ d₂.writerMove? = some d₃ := by
  have hcalm₁ := h.move (.inl hwriter)
  have hcalm₂ := h.move (.inr hreader)
  simp only [hcalm₁.readerMove?_eq_some, hcalm₂.writerMove?_eq_some]
  obtain ⟨data, writes, hwrites, hwrite⟩ := h.writerMove?_eq_some.1 hwriter
  obtain ⟨out, reads, hreads, hread⟩ := h.readerMove?_eq_some.1 hreader
  -- a refusal changes neither the ring nor its capacity, so only two transfers can meet
  rcases hwrite with ⟨hlong, rfl⟩ | ⟨hfits, rfl⟩ <;> rcases hread with ⟨hlong', rfl⟩ | ⟨hthere, rfl⟩
  · exact ⟨(d.writeRefused data writes).readRefused out reads,
      ⟨out, reads, hreads, .inl ⟨hlong', rfl⟩⟩, ⟨data, writes, hwrites, .inl ⟨hlong, rfl⟩⟩⟩
  · refine ⟨(d.writeRefused data writes).took out.length reads,
      ⟨out, reads, hreads, .inr ⟨hthere, rfl⟩⟩, ⟨data, writes, hwrites, .inl ⟨?_, ?_⟩⟩⟩
    · show (d.ring.discard out.length).capacity < data.length
      rw [BlockingRing.capacity_discard]
      exact hlong
    · simp only [writeRefused, took, BlockingRing.capacity_discard]
  · refine ⟨(d.wrote data writes).readRefused out reads,
      ⟨out, reads, hreads, .inl ⟨?_, rfl⟩⟩, ⟨data, writes, hwrites, .inr ⟨hfits, ?_⟩⟩⟩
    · show (d.ring.append data).capacity < out.length
      rw [BlockingRing.capacity_append]
      exact hlong'
    · simp only [readRefused, wrote, BlockingRing.capacity_append]
  · exact ⟨(d.wrote data writes).took out.length reads,
      ⟨out, reads, hreads, .inr ⟨BlockingRing.le_fillCount_append h.valid hfits hthere, rfl⟩⟩,
      ⟨data, writes, hwrites, .inr
        ⟨BlockingRing.le_availableSpace_discard h.valid hthere hfits,
          h.took_wrote hfits hthere writes reads⟩⟩⟩

/-- Two moves from one state are the same, or the parties can make up for each with the other. -/
theorem Calm.diamond (h : d.Calm) (h₁ : Move d d₁) (h₂ : Move d d₂) :
    d₁ = d₂ ∨ ∃ d₃, Move d₁ d₃ ∧ Move d₂ d₃ := by
  rcases h₁ with hwriter₁ | hreader₁ <;> rcases h₂ with hwriter₂ | hreader₂
  · left
    exact Option.some.inj (hwriter₁.symm.trans hwriter₂)
  · right
    obtain ⟨d₃, hreader, hwriter⟩ := h.join hwriter₁ hreader₂
    exact ⟨d₃, .inr hreader, .inl hwriter⟩
  · right
    obtain ⟨d₃, hreader, hwriter⟩ := h.join hwriter₂ hreader₁
    exact ⟨d₃, .inl hwriter, .inr hreader⟩
  · left
    exact Option.some.inj (hreader₁.symm.trans hreader₂)

/-- A move from a calm state. -/
def CalmMove (d d' : Duet α) : Prop := d.Calm ∧ Move d d'

theorem Calm.calmMoves (h : d.Calm) (hreaches : Reaches d d₁) :
    Relation.ReflTransGen CalmMove d d₁ := by
  induction hreaches with
  | refl => exact .refl
  | tail hab hmove ih => exact ih.tail ⟨h.reaches hab, hmove⟩

/-- Two orders of moves from one state lead on to a common state. -/
theorem Calm.confluent (h : d.Calm) (h₁ : Reaches d d₁) (h₂ : Reaches d d₂) :
    ∃ d₃, Reaches d₁ d₃ ∧ Reaches d₂ d₃ := by
  -- the diamond in the form that the Church-Rosser theorem asks for
  have hjoin : ∀ a b c : Duet α, CalmMove a b → CalmMove a c →
      ∃ e, Relation.ReflGen CalmMove b e ∧ Relation.ReflTransGen CalmMove c e := by
    rintro a b c ⟨ha, hb⟩ ⟨-, hc⟩
    rcases ha.diamond hb hc with rfl | ⟨e, hbe, hce⟩
    · exact ⟨b, .refl, .refl⟩
    · exact ⟨e, .single ⟨ha.move hb, hbe⟩, .single ⟨ha.move hc, hce⟩⟩
  have hforget : ∀ a b : Duet α, CalmMove a b → Move a b := fun _ _ hstep => hstep.2
  obtain ⟨d₃, hd₁, hd₂⟩ := Relation.church_rosser hjoin (h.calmMoves h₁) (h.calmMoves h₂)
  exact ⟨d₃, Relation.ReflTransGen.mono hforget _ _ hd₁, Relation.ReflTransGen.mono hforget _ _ hd₂⟩

end Order

/-! ## The end of every order -/

section End

variable {d s : Duet α}

theorem Halted.eq_of_reaches (h : d.Halted) (hreaches : Reaches d s) : s = d := by
  induction hreaches with
  | refl => rfl
  | tail _ hmove ih =>
    subst ih
    rcases hmove with hwriter | hreader
    · rw [h.1] at hwriter
      cases hwriter
    · rw [h.2] at hreader
      cases hreader

/-- The writer's moves before the reader's are one of the orders, and it goes on until neither
party can move. -/
theorem Calm.reaches_runFor (h : d.Calm) {n : Nat} (hn : d.pending ≤ n) :
    Reaches d (runFor n d) ∧ (runFor n d).Halted := by
  induction n generalizing d with
  | zero =>
    -- without a pending call there is no move
    have hstuck : ∀ d', ¬ Move d d' := by
      intro d' hmove
      have hpending := h.pending_move hmove
      omega
    refine ⟨.refl, ?_, ?_⟩
    · exact Option.eq_none_iff_forall_ne_some.2 fun d' hwriter => hstuck d' (.inl hwriter)
    · exact Option.eq_none_iff_forall_ne_some.2 fun d' hreader => hstuck d' (.inr hreader)
  | succ n ih =>
    have hnext : ∀ d', Move d d' → Reaches d (runFor n d') ∧ (runFor n d').Halted := by
      intro d' hmove
      have hpending := h.pending_move hmove
      obtain ⟨hreaches, hhalted⟩ := ih (h.move hmove) (by omega)
      exact ⟨.head hmove hreaches, hhalted⟩
    rw [runFor]
    cases hwriter : d.writerMove? with
    | some d' => exact hnext d' (.inl hwriter)
    | none =>
      cases hreader : d.readerMove? with
      | some d' => exact hnext d' (.inr hreader)
      | none => exact ⟨.refl, hwriter, hreader⟩

/-- From wherever an order of moves has come, it can still reach the end. -/
theorem Calm.reaches_run (h : d.Calm) (hreaches : Reaches d s) : Reaches s d.run := by
  obtain ⟨hrun, hhalted⟩ := h.reaches_runFor le_rfl
  obtain ⟨e, hse, hre⟩ := h.confluent hreaches hrun
  rwa [hhalted.eq_of_reaches hre] at hse

/-- A write and a read can only both be waiting if together they are larger than the ring by two
elements or more. -/
theorem Calm.capacity_le_of_blocked (h : d.Calm) {data : List α} {n : Nat}
    (hwrite : d.ring.tryPush data = .blocked) (hread : d.ring.tryPull n = .blocked) :
    d.ring.capacity + 2 ≤ data.length + n := by
  have hspace := BlockingRing.lt_of_tryPush_eq_blocked h.valid hwrite
  have hfill := BlockingRing.lt_of_tryPull_eq_blocked h.valid hread
  have hsum : d.ring.fillCount + d.ring.availableSpace = d.ring.capacity :=
    h.valid.fillCount_add_availableSpace
  omega

/-- The capacity of the ring does not change. -/
theorem Calm.capacity_reaches (h : d.Calm) (hreaches : Reaches d s) :
    s.ring.capacity = d.ring.capacity := by
  induction hreaches with
  | refl => rfl
  | tail hab hmove ih =>
    rw [← ih]
    rcases hmove with hwriter | hreader
    · obtain ⟨data, writes, -, ⟨-, rfl⟩ | ⟨-, rfl⟩⟩ :=
        (h.reaches hab).writerMove?_eq_some.1 hwriter
      · rfl
      · exact BlockingRing.capacity_append ..
    · obtain ⟨out, reads, -, ⟨-, rfl⟩ | ⟨-, rfl⟩⟩ :=
        (h.reaches hab).readerMove?_eq_some.1 hreader
      · rfl
      · exact BlockingRing.capacity_discard ..

end End

theorem calm_start [Memory] {capacity : Nat} {fill : α} {ring : BlockingRing α}
    (hmake : BlockingRing.make capacity fill = .ok ring) (writes reads : List (List α)) :
    (start ring writes reads).Calm ∧ ring.capacity = capacity := by
  obtain ⟨r, hr, rfl⟩ := BlockingRing.make_eq_ok hmake
  exact ⟨⟨Ring.Valid.of_make hr, rfl, rfl⟩, Ring.capacity_of_make hr⟩

/-- A new blocking ring with one writer and one reader, each with any list of calls. Every order of
their moves can be carried on, with one call less pending after each move, until neither can move,
and then it has come to one and the same end, which `run` computes: the same calls made, the same
results and buffers, the same slots and cursors. A pending write and a pending read can only both be
waiting if together they ask for two elements more than the ring holds. -/
theorem eq_run_of_halted [Memory] {capacity : Nat} {fill : α} {ring : BlockingRing α}
    (hmake : BlockingRing.make capacity fill = .ok ring) (writes reads : List (List α)) :
    (start ring writes reads).run.Halted ∧
      ∀ s, Reaches (start ring writes reads) s →
        Reaches s (start ring writes reads).run ∧
        (∀ s', Move s s' → s'.pending + 1 = s.pending) ∧
        (s.Halted → s = (start ring writes reads).run) ∧
        ∀ data later out later', s.writes = data :: later → s.reads = out :: later' →
          s.ring.tryPush data = .blocked → s.ring.tryPull out.length = .blocked →
          capacity + 2 ≤ data.length + out.length := by
  obtain ⟨hstart, hcapacity⟩ := calm_start hmake writes reads
  refine ⟨(hstart.reaches_runFor le_rfl).2, fun s hs => ?_⟩
  have hcalm := hstart.reaches hs
  have hrun := hstart.reaches_run hs
  refine ⟨hrun, fun s' hmove => hcalm.pending_move hmove, fun hhalted => ?_, ?_⟩
  · exact (hhalted.eq_of_reaches hrun).symm
  · intro data later out later' _ _ hwrite hread
    have hle := hcalm.capacity_le_of_blocked hwrite hread
    rwa [hstart.capacity_reaches hs, show (start ring writes reads).ring.capacity = capacity from
      hcapacity] at hle

/-- A ring for two elements, with a block and a buffer that can never be served among the calls.
The parties end stuck, the writer with two elements and the reader with two: here the reader goes
first wherever it can. -/
theorem eq_run_of_halted_stuck :
    let ring : BlockingRing Nat := ⟨⟨#[0, 0, 0], 0, 0⟩, none, none⟩
    let d := start ring [[1], [2, 3, 4], [5, 6]] [[0, 0, 0], [0, 0]]
    let s : Duet Nat :=
      { ring := ⟨⟨#[1, 0, 0], 1, 0⟩, none, none⟩
        writes := [[5, 6]]
        reads := [[0, 0]]
        written := [.ok (), .error (BlockingRing.oversize 2 .writer 3)]
        taken := [(.error (BlockingRing.oversize 2 .reader 3), [0, 0, 0])] }
    BlockingRing.make 2 0 = .ok ring ∧ Reaches d s ∧ s.Halted ∧ s = d.run ∧
      s.ring.tryPush [5, 6] = .blocked ∧ s.ring.tryPull 2 = .blocked ∧
      2 + 2 ≤ [5, 6].length + [0, 0].length := by
  intro ring d s
  have hmake : BlockingRing.make 2 0 = .ok ring := rfl
  have hreaches : Reaches d s :=
    .head (.inr rfl) (.head (.inl rfl) (.single (.inl rfl)))
  have hhalted : s.Halted := ⟨rfl, rfl⟩
  have hwrite : s.ring.tryPush [5, 6] = .blocked := rfl
  have hread : s.ring.tryPull [0, 0].length = .blocked := rfl
  obtain ⟨-, -, hend, hwaits⟩ :=
    (eq_run_of_halted hmake [[1], [2, 3, 4], [5, 6]] [[0, 0, 0], [0, 0]]).2 s hreaches
  exact ⟨hmake, hreaches, hhalted, hend hhalted, hwrite, hread,
    hwaits [5, 6] [] [0, 0] [] rfl rfl hwrite hread⟩

end BlockFlow.Duet
