import BlockFlow.Proofs.LockFreeRing.Queue

/-!
# Overlapping calls as calls one after the other

A call on a shared ring works with the cursors it read before other calls ran inside it. For the
parties this makes no difference: every tree of calls ends as in a sequential run, which makes
the calls inside an accepted call first and then that call alone
(`run_unclaimed_eq_inSequence`). Only a call on a side where a call is in progress is refused,
and it changes nothing.

The proof rests on what the calls inside a call can do to the ring (`Keeps`): while a write is in
progress they leave the slots and the write cursor alone and can only make room; while a read is
in progress they leave the read cursor alone and can only add elements.
-/

set_option autoImplicit false

namespace BlockFlow.LockFreeRing

universe u

variable {α : Type u}

/-! ## Sequential runs -/

/-- The shared ring without its claims. -/
def unclaimed (f : LockFreeRing α) : LockFreeRing α :=
  { f with writerBusy := false, readerBusy := false }

theorem unclaimed_eq_self {f : LockFreeRing α} (hwriter : f.writerBusy = false)
    (hreader : f.readerBusy = false) : f.unclaimed = f := by
  cases f
  cases hwriter
  cases hreader
  rfl

mutual

/-- A step in which every ring has lost its claims. -/
def Step.unclaimed : Step α → Step α
  | ⟨outcome, buffer, during, after⟩ => ⟨outcome, buffer, unclaimedInside during, after.unclaimed⟩

/-- The steps inside a step, if it had any, without the claims. -/
def unclaimedInside : Option (List (Step α)) → Option (List (Step α))
  | none => none
  | some steps => some (unclaimedAll steps)

/-- Steps without the claims. -/
def unclaimedAll : List (Step α) → List (Step α)
  | [] => []
  | s :: steps => s.unclaimed :: unclaimedAll steps

end

theorem Step.after_unclaimed (s : Step α) : s.unclaimed.after = s.after.unclaimed := by
  cases s
  rfl

mutual

/-- A sequential run of a call, where `writing` and `reading` tell whether it is inside a call of
that side. The calls inside an accepted call that moves an element are made first, and then the
call alone. No claim is taken on the ring while anything else happens. -/
def Call.inSequence (writing reading : Bool) : Call α → LockFreeRing α → Step α
  | .write data during, f =>
    if writing then
      { outcome := .error (concurrentUse .writer), buffer := [], during := none, after := f }
    else if 0 < data.length ∧ data.length ≤ f.availableSpace then
      let inner := inSequenceAll true reading during f
      { (Call.write data []).run inner.2 with during := some inner.1 }
    else
      (Call.write data []).run f
  | .read out during, f =>
    if reading then
      { outcome := .error (concurrentUse .reader), buffer := out, during := none, after := f }
    else if 0 < out.length ∧ out.length ≤ f.fillCount then
      let inner := inSequenceAll writing true during f
      { (Call.read out []).run inner.2 with during := some inner.1 }
    else
      (Call.read out []).run f
  | .inspect, f => Call.inspect.run f

/-- A sequential run of calls one after the other. -/
def inSequenceAll (writing reading : Bool) :
    List (Call α) → LockFreeRing α → List (Step α) × LockFreeRing α
  | [], f => ([], f)
  | c :: cs, f =>
    let step := c.inSequence writing reading f
    let rest := inSequenceAll writing reading cs step.after
    (step :: rest.1, rest.2)

end

/-- Elements that a call asks to move. -/
def Call.count : Call α → Nat
  | .write data _ => data.length
  | .read out _ => out.length
  | .inspect => 0

/-! ## One call -/

section Run

variable {f claimed : LockFreeRing α}

theorem run_write_refused {data : List α} {e : FifoError} {left : LockFreeRing α}
    (hclaim : f.claimWriter data.length = .error (e, left)) (during : List (Call α)) :
    (Call.write data during).run f =
      { outcome := .error e, buffer := [], during := none, after := f } := by
  obtain rfl := eq_of_claimWriter_eq_error hclaim
  simp only [Call.run, hclaim]

theorem run_write_nil (hclaim : f.claimWriter 0 = .ok claimed) (during : List (Call α)) :
    (Call.write [] during).run f =
      { outcome := .ok ()
        buffer := []
        during := none
        after := claimed.finishWrite f.write [] } := by
  have hclaim' : f.claimWriter ([] : List α).length = .ok claimed := hclaim
  simp only [Call.run, hclaim']

theorem run_write_cons {x : α} {xs : List α}
    (hclaim : f.claimWriter (x :: xs).length = .ok claimed) (during : List (Call α)) :
    (Call.write (x :: xs) during).run f =
      { outcome := .ok ()
        buffer := []
        during := some (runAll during claimed).1
        after := (runAll during claimed).2.finishWrite f.write (x :: xs) } := by
  simp only [Call.run, hclaim]

theorem run_read_refused {out : List α} {e : FifoError} {left : LockFreeRing α}
    (hclaim : f.claimReader out.length = .error (e, left)) (during : List (Call α)) :
    (Call.read out during).run f =
      { outcome := .error e, buffer := out, during := none, after := f } := by
  obtain rfl := eq_of_claimReader_eq_error hclaim
  simp only [Call.run, hclaim]

theorem run_read_nil (hclaim : f.claimReader 0 = .ok claimed) (during : List (Call α)) :
    (Call.read [] during).run f =
      { outcome := .ok ()
        buffer := []
        during := none
        after := (claimed.finishRead f.read 0).2 } := by
  have hclaim' : f.claimReader ([] : List α).length = .ok claimed := hclaim
  simp only [Call.run, hclaim']

theorem run_read_cons {x : α} {xs : List α}
    (hclaim : f.claimReader (x :: xs).length = .ok claimed) (during : List (Call α)) :
    (Call.read (x :: xs) during).run f =
      { outcome := .ok ()
        buffer := ((runAll during claimed).2.finishRead f.read (x :: xs).length).1
        during := some (runAll during claimed).1
        after := ((runAll during claimed).2.finishRead f.read (x :: xs).length).2 } := by
  simp only [Call.run, hclaim]

end Run

/-! ## What calls inside a call can do -/

/-- What any calls can do to a ring: they give back every claim they take, and what a side that
is claimed already relies on stays as it is. -/
structure Keeps (f g : LockFreeRing α) : Prop where
  valid : g.ring.Valid
  size : g.slots.size = f.slots.size
  writerBusy : g.writerBusy = f.writerBusy
  readerBusy : g.readerBusy = f.readerBusy
  slots_of_writing : f.writerBusy = true → g.slots = f.slots
  write_of_writing : f.writerBusy = true → g.write = f.write
  fill_of_writing : f.writerBusy = true → g.fillCount ≤ f.fillCount
  read_of_reading : f.readerBusy = true → g.read = f.read
  fill_of_reading : f.readerBusy = true → f.fillCount ≤ g.fillCount

namespace Keeps

theorem refl {f : LockFreeRing α} (h : f.ring.Valid) : Keeps f f where
  valid := h
  size := rfl
  writerBusy := rfl
  readerBusy := rfl
  slots_of_writing _ := rfl
  write_of_writing _ := rfl
  fill_of_writing _ := le_rfl
  read_of_reading _ := rfl
  fill_of_reading _ := le_rfl

theorem trans {f g k : LockFreeRing α} (hfg : Keeps f g) (hgk : Keeps g k) : Keeps f k where
  valid := hgk.valid
  size := hgk.size.trans hfg.size
  writerBusy := hgk.writerBusy.trans hfg.writerBusy
  readerBusy := hgk.readerBusy.trans hfg.readerBusy
  slots_of_writing hw :=
    (hgk.slots_of_writing (hfg.writerBusy.trans hw)).trans (hfg.slots_of_writing hw)
  write_of_writing hw :=
    (hgk.write_of_writing (hfg.writerBusy.trans hw)).trans (hfg.write_of_writing hw)
  fill_of_writing hw :=
    (hgk.fill_of_writing (hfg.writerBusy.trans hw)).trans (hfg.fill_of_writing hw)
  read_of_reading hr :=
    (hgk.read_of_reading (hfg.readerBusy.trans hr)).trans (hfg.read_of_reading hr)
  fill_of_reading hr :=
    (hfg.fill_of_reading hr).trans (hgk.fill_of_reading (hfg.readerBusy.trans hr))

/-- Calls inside a write only make room. -/
theorem space_of_writing {f g : LockFreeRing α} (h : Keeps f g) (hw : f.writerBusy = true) :
    f.availableSpace ≤ g.availableSpace := by
  have hfill := h.fill_of_writing hw
  have hcapacity : g.capacity = f.capacity := by simp only [capacity, h.size]
  unfold availableSpace
  omega

end Keeps

/-- A write that goes on after the calls inside it appends at the cursor it started from. -/
theorem finishWrite_of_keeps {f g : LockFreeRing α}
    (hg : Keeps { f with writerBusy := true } g) (data : List α) :
    g.finishWrite f.write data = { g.append data with writerBusy := false } := by
  have hwrite : g.write = f.write := hg.write_of_writing rfl
  rw [← hwrite]
  exact finishWrite_eq hg.valid data

/-- A read that goes on after the calls inside it takes from the cursor it started from. -/
theorem finishRead_of_keeps {f g : LockFreeRing α}
    (hg : Keeps { f with readerBusy := true } g) (n : Nat) :
    g.finishRead f.read n =
      (window g.slots g.read n, { g.discard n with readerBusy := false }) := by
  have hread : g.read = f.read := hg.read_of_reading rfl
  rw [← hread]
  exact finishRead_eq hg.valid n

/-- An accepted write keeps what a read in progress relies on. -/
theorem Keeps.finishWrite {f g : LockFreeRing α} (hfree : f.writerBusy = false)
    (hg : Keeps { f with writerBusy := true } g) {data : List α}
    (hfits : data.length ≤ f.availableSpace) : Keeps f (g.finishWrite f.write data) := by
  -- the check was made before the calls inside, which only made room
  have hroom : data.length ≤ g.ring.availableSpace := hfits.trans (hg.space_of_writing rfl)
  have hfill : (g.append data).fillCount = g.fillCount + data.length :=
    hg.valid.fillCount_append hroom
  rw [finishWrite_of_keeps hg]
  exact
    { valid := hg.valid.append data
      size := (size_copyIn ..).trans hg.size
      writerBusy := hfree.symm
      readerBusy := hg.readerBusy
      -- no write was in progress, so nobody relies on the slots or the write cursor
      slots_of_writing hw := by simp [hfree] at hw
      write_of_writing hw := by simp [hfree] at hw
      fill_of_writing hw := by simp [hfree] at hw
      read_of_reading := hg.read_of_reading
      fill_of_reading hr := by
        have hmore : f.fillCount ≤ g.fillCount := hg.fill_of_reading hr
        show f.fillCount ≤ (g.append data).fillCount
        omega }

/-- An accepted read keeps what a write in progress relies on. -/
theorem Keeps.finishRead {f g : LockFreeRing α} (hfree : f.readerBusy = false)
    (hg : Keeps { f with readerBusy := true } g) {n : Nat} (hn : n ≤ f.fillCount) :
    Keeps f (g.finishRead f.read n).2 := by
  -- the check was made before the calls inside, which only added elements
  have hthere : n ≤ g.ring.fillCount := hn.trans (hg.fill_of_reading rfl)
  have hfill : (g.discard n).fillCount = g.fillCount - n := hg.valid.fillCount_discard hthere
  rw [finishRead_of_keeps hg]
  exact
    { valid := hg.valid.discard n
      size := hg.size
      writerBusy := hg.writerBusy
      readerBusy := hfree.symm
      slots_of_writing := hg.slots_of_writing
      write_of_writing := hg.write_of_writing
      fill_of_writing hw := by
        have hless : g.fillCount ≤ f.fillCount := hg.fill_of_writing hw
        show (g.discard n).fillCount ≤ f.fillCount
        omega
      read_of_reading hr := by simp [hfree] at hr
      fill_of_reading hr := by simp [hfree] at hr }

/-- A claim that is given is the ring with that claim, and what was asked for is there. -/
theorem claimWriter_eq_ok {f claimed : LockFreeRing α} {n : Nat}
    (h : f.claimWriter n = .ok claimed) :
    f.writerBusy = false ∧ n ≤ f.availableSpace ∧ claimed = { f with writerBusy := true } := by
  cases hbusy : f.writerBusy with
  | true =>
    rw [claimWriter_of_busy hbusy] at h
    cases h
  | false =>
    by_cases hfits : n ≤ f.availableSpace
    · rw [claimWriter_of_le hbusy hfits] at h
      exact ⟨rfl, hfits, (Except.ok.inj h).symm⟩
    · rw [claimWriter_of_lt hbusy (Nat.lt_of_not_le hfits)] at h
      cases h

theorem claimReader_eq_ok {f claimed : LockFreeRing α} {n : Nat}
    (h : f.claimReader n = .ok claimed) :
    f.readerBusy = false ∧ n ≤ f.fillCount ∧ claimed = { f with readerBusy := true } := by
  cases hbusy : f.readerBusy with
  | true =>
    rw [claimReader_of_busy hbusy] at h
    cases h
  | false =>
    by_cases hthere : n ≤ f.fillCount
    · rw [claimReader_of_le hbusy hthere] at h
      exact ⟨rfl, hthere, (Except.ok.inj h).symm⟩
    · rw [claimReader_of_lt hbusy (Nat.lt_of_not_le hthere)] at h
      cases h

/-- Calls of any shape keep what the calls around them rely on. -/
theorem keeps_run :
    (∀ (c : Call α) (f : LockFreeRing α), f.ring.Valid → Keeps f (c.run f).after) ∧
      ∀ (cs : List (Call α)) (f : LockFreeRing α), f.ring.Valid → Keeps f (runAll cs f).2 := by
  apply Call.run.mutual_induct
  -- a write: refused, empty, or with calls inside it
  · intro data during f e left hclaim hf
    rw [run_write_refused hclaim]
    exact .refl hf
  · intro during f claimed hclaim hf
    obtain ⟨hfree, hfits, rfl⟩ := claimWriter_eq_ok hclaim
    rw [run_write_nil hclaim]
    exact .finishWrite hfree (.refl hf) hfits
  · intro during f claimed x xs hclaim ih hf
    obtain ⟨hfree, hfits, rfl⟩ := claimWriter_eq_ok hclaim
    rw [run_write_cons hclaim]
    exact .finishWrite hfree (ih hf) hfits
  -- a read: refused, empty, or with calls inside it
  · intro out during f e left hclaim hf
    rw [run_read_refused hclaim]
    exact .refl hf
  · intro during f claimed hclaim hf
    obtain ⟨hfree, hn, rfl⟩ := claimReader_eq_ok hclaim
    rw [run_read_nil hclaim]
    exact .finishRead hfree (.refl hf) hn
  · intro during f claimed x xs hclaim ih hf
    obtain ⟨hfree, hn, rfl⟩ := claimReader_eq_ok hclaim
    rw [run_read_cons hclaim]
    exact .finishRead hfree (ih hf) hn
  · intro f hf
    exact .refl hf
  -- calls one after the other
  · intro f hf
    exact .refl hf
  · intro c cs f step ihc ihcs hf
    have hstep : Keeps f step.after := ihc hf
    exact hstep.trans (ihcs hstep.valid)

/-- Calls of any shape keep the cursors of a reachable ring inside its storage, and no claim
outlives its call. -/
theorem Reachable.quiet {f : LockFreeRing α} (h : Reachable f) : f.Quiet := by
  induction h with
  | share hr => exact ⟨hr.valid, rfl, rfl⟩
  | @call f c _ ih =>
    have hkeeps := keeps_run.1 c f ih.valid
    exact
      { valid := hkeeps.valid
        writerFree := hkeeps.writerBusy.trans ih.writerFree
        readerFree := hkeeps.readerBusy.trans ih.readerFree }

/-! ## Overlapping runs are sequential runs -/

/-- The two runs of one call, from a ring with any claims. -/
def SameRun (c : Call α) (f : LockFreeRing α) : Prop :=
  f.ring.Valid → (c.run f).unclaimed = c.inSequence f.writerBusy f.readerBusy f.unclaimed

/-- The two runs of calls one after the other, from a ring with any claims. -/
def SameRuns (cs : List (Call α)) (f : LockFreeRing α) : Prop :=
  f.ring.Valid →
    (unclaimedAll (runAll cs f).1, (runAll cs f).2.unclaimed) =
      inSequenceAll f.writerBusy f.readerBusy cs f.unclaimed

theorem sameRun_write_refused {data : List α} {during : List (Call α)} {f : LockFreeRing α}
    {e : FifoError} {left : LockFreeRing α}
    (hclaim : f.claimWriter data.length = .error (e, left)) :
    SameRun (.write data during) f := by
  intro hf
  rw [run_write_refused hclaim, Call.inSequence]
  cases hbusy : f.writerBusy with
  | true =>
    rw [claimWriter_of_busy hbusy] at hclaim
    cases hclaim
    rfl
  | false =>
    -- without its claims the ring is as full, and the call alone is refused too
    have hlong : f.availableSpace < data.length := by
      by_contra hfits
      rw [claimWriter_of_le hbusy (by omega)] at hclaim
      cases hclaim
    have halone := claimWriter_of_lt (f := f.unclaimed) rfl hlong
    cases (claimWriter_of_lt hbusy hlong).symm.trans hclaim
    have hnot : ¬ (0 < data.length ∧ data.length ≤ f.unclaimed.availableSpace) :=
      fun h => absurd h.2 (Nat.not_le_of_lt hlong)
    rw [if_neg (by simp), if_neg hnot, run_write_refused halone]
    rfl

theorem sameRun_read_refused {out : List α} {during : List (Call α)} {f : LockFreeRing α}
    {e : FifoError} {left : LockFreeRing α} (hclaim : f.claimReader out.length = .error (e, left)) :
    SameRun (.read out during) f := by
  intro hf
  rw [run_read_refused hclaim, Call.inSequence]
  cases hbusy : f.readerBusy with
  | true =>
    rw [claimReader_of_busy hbusy] at hclaim
    cases hclaim
    rfl
  | false =>
    -- without its claims the ring is as empty, and the call alone is refused too
    have hlong : f.fillCount < out.length := by
      by_contra hthere
      rw [claimReader_of_le hbusy (by omega)] at hclaim
      cases hclaim
    have halone := claimReader_of_lt (f := f.unclaimed) rfl hlong
    cases (claimReader_of_lt hbusy hlong).symm.trans hclaim
    have hnot : ¬ (0 < out.length ∧ out.length ≤ f.unclaimed.fillCount) :=
      fun h => absurd h.2 (Nat.not_le_of_lt hlong)
    rw [if_neg (by simp), if_neg hnot, run_read_refused halone]
    rfl

theorem sameRun_write {during : List (Call α)} {f claimed : LockFreeRing α} {x : α}
    {xs : List α} (hclaim : f.claimWriter (x :: xs).length = .ok claimed)
    (ih : SameRuns during claimed) : SameRun (.write (x :: xs) during) f := by
  intro hf
  obtain ⟨hfree, hfits, rfl⟩ := claimWriter_eq_ok hclaim
  have hinner := ih hf
  have hkeeps := keeps_run.2 during { f with writerBusy := true } hf
  rw [run_write_cons hclaim, Call.inSequence, hfree, if_neg (by simp),
    if_pos ⟨by simp, hfits⟩]
  -- from here on only what the calls inside keep matters, not what they are
  generalize runAll during { f with writerBusy := true } = inner at hkeeps hinner ⊢
  obtain ⟨steps, g⟩ := inner
  have hsequence : inSequenceAll true f.readerBusy during f.unclaimed =
      (unclaimedAll steps, g.unclaimed) := hinner.symm
  -- the calls inside only make room, so the write alone is accepted after them
  have halone : g.unclaimed.claimWriter (x :: xs).length =
      .ok { g.unclaimed with writerBusy := true } :=
    claimWriter_of_le rfl (hfits.trans (hkeeps.space_of_writing rfl))
  have hstart : g.write = f.write := hkeeps.write_of_writing rfl
  rw [hsequence]
  simp only [run_write_cons halone, ← hstart]
  rfl

theorem sameRun_read {during : List (Call α)} {f claimed : LockFreeRing α} {x : α}
    {xs : List α} (hclaim : f.claimReader (x :: xs).length = .ok claimed)
    (ih : SameRuns during claimed) : SameRun (.read (x :: xs) during) f := by
  intro hf
  obtain ⟨hfree, hn, rfl⟩ := claimReader_eq_ok hclaim
  have hinner := ih hf
  have hkeeps := keeps_run.2 during { f with readerBusy := true } hf
  rw [run_read_cons hclaim, Call.inSequence, hfree, if_neg (by simp), if_pos ⟨by simp, hn⟩]
  generalize runAll during { f with readerBusy := true } = inner at hkeeps hinner ⊢
  obtain ⟨steps, g⟩ := inner
  have hsequence : inSequenceAll f.writerBusy true during f.unclaimed =
      (unclaimedAll steps, g.unclaimed) := hinner.symm
  -- the calls inside only add elements, so the read alone is accepted after them
  have halone : g.unclaimed.claimReader (x :: xs).length =
      .ok { g.unclaimed with readerBusy := true } :=
    claimReader_of_le rfl (hn.trans (hkeeps.fill_of_reading rfl))
  have hstart : g.read = f.read := hkeeps.read_of_reading rfl
  rw [hsequence]
  simp only [run_read_cons halone, ← hstart]
  rfl

/-- By induction over the tree: what a call finds when it goes on is what it finds in the
sequential run, where it starts only then. -/
theorem sameRun :
    (∀ (c : Call α) (f : LockFreeRing α), SameRun c f) ∧
      ∀ (cs : List (Call α)) (f : LockFreeRing α), SameRuns cs f := by
  apply Call.run.mutual_induct
  · intro data during f e left hclaim
    exact sameRun_write_refused hclaim
  -- an empty write runs nothing inside it either way
  · intro during f claimed hclaim hf
    obtain ⟨hfree, -, rfl⟩ := claimWriter_eq_ok hclaim
    have halone : f.unclaimed.claimWriter 0 = .ok { f.unclaimed with writerBusy := true } :=
      claimWriter_of_le rfl (Nat.zero_le _)
    rw [run_write_nil hclaim, Call.inSequence, hfree, if_neg (by simp), if_neg (by simp),
      run_write_nil halone]
    rfl
  · intro during f claimed x xs hclaim ih
    exact sameRun_write hclaim ih
  · intro out during f e left hclaim
    exact sameRun_read_refused hclaim
  -- an empty read runs nothing inside it either way
  · intro during f claimed hclaim hf
    obtain ⟨hfree, -, rfl⟩ := claimReader_eq_ok hclaim
    have halone : f.unclaimed.claimReader 0 = .ok { f.unclaimed with readerBusy := true } :=
      claimReader_of_le rfl (Nat.zero_le _)
    rw [run_read_nil hclaim, Call.inSequence, hfree, if_neg (by simp), if_neg (by simp),
      run_read_nil halone]
    rfl
  · intro during f claimed x xs hclaim ih
    exact sameRun_read hclaim ih
  · intro f hf
    rfl
  · intro f hf
    rfl
  · intro c cs f step ihc ihcs hf
    -- the rest starts with the claims that the first call found
    have hkeeps : Keeps f step.after := keeps_run.1 c f hf
    have hstep : step.unclaimed = c.inSequence f.writerBusy f.readerBusy f.unclaimed := ihc hf
    have hrest := ihcs hkeeps.valid
    rw [hkeeps.writerBusy, hkeeps.readerBusy] at hrest
    rw [inSequenceAll, ← hstep]
    simp only [Step.after_unclaimed, ← hrest]
    rfl

/-- The calls inside a call run unless it is refused or moves no element. -/
theorem run_during_eq_none_iff (c : Call α) (f : LockFreeRing α) :
    (c.run f).during = none ↔ (c.run f).outcome ≠ .ok () ∨ c.count = 0 := by
  cases c with
  | write data during =>
    cases hclaim : f.claimWriter data.length with
    | error refused => simp [run_write_refused hclaim]
    | ok claimed =>
      cases data with
      | nil =>
        rw [run_write_nil hclaim]
        exact ⟨fun _ => .inr rfl, fun _ => rfl⟩
      | cons x xs => simp [run_write_cons hclaim, Call.count]
  | read out during =>
    cases hclaim : f.claimReader out.length with
    | error refused => simp [run_read_refused hclaim]
    | ok claimed =>
      cases out with
      | nil =>
        rw [run_read_nil hclaim]
        exact ⟨fun _ => .inr rfl, fun _ => rfl⟩
      | cons x xs => simp [run_read_cons hclaim, Call.count]
  | inspect => simp [Call.run, Call.count]

/-- Overlapping calls are linearizable. From every reachable ring a tree of calls gives the
outcomes, the buffers and the rings after every call that the sequential run gives, and it ends
with both claims given back. A call on a side where a call is in progress is refused and changes
nothing, the claim of that other call included. The calls inside a call never run if it is
refused or moves no element. -/
theorem run_linearizable {f : LockFreeRing α} (hf : Reachable f) (c : Call α) :
    (c.run f).unclaimed = c.inSequence false false f ∧
      (c.run f).after.writerBusy = false ∧ (c.run f).after.readerBusy = false ∧
      (∀ g : LockFreeRing α, g.writerBusy = true → ∀ data during,
        (Call.write data during).run g =
          { outcome := .error (concurrentUse .writer), buffer := [], during := none, after := g }) ∧
      (∀ g : LockFreeRing α, g.readerBusy = true → ∀ out during,
        (Call.read out during).run g =
          { outcome := .error (concurrentUse .reader), buffer := out, during := none, after := g }) ∧
      ∀ (d : Call α) (g : LockFreeRing α),
        (d.run g).during = none ↔ (d.run g).outcome ≠ .ok () ∨ d.count = 0 := by
  obtain ⟨hvalid, hwriter, hreader⟩ := hf.quiet
  obtain ⟨-, hwriter', hreader'⟩ := (hf.call c).quiet
  have hsame := sameRun.1 c f hvalid
  rw [hwriter, hreader, unclaimed_eq_self hwriter hreader] at hsame
  refine ⟨hsame, hwriter', hreader', ?_, ?_, run_during_eq_none_iff⟩
  · intro g hbusy data during
    exact run_write_refused (claimWriter_of_busy hbusy _) during
  · intro g hbusy out during
    exact run_read_refused (claimReader_of_busy hbusy _) during

/-- A write that goes around the end of the storage, with a read inside it that has a refused
read and a refused write inside itself. -/
theorem run_linearizable_nested :
    let f : LockFreeRing Nat :=
      { slots := #[1, 2, 0], write := 2, read := 1, writerBusy := false, readerBusy := false }
    let c : Call Nat := .write [3] [.read [0] [.write [9] [], .read [0] []], .inspect]
    Reachable f ∧ (c.run f).unclaimed = c.inSequence false false f ∧
      (c.inSequence false false f).after =
        { slots := #[1, 2, 3], write := 0, read := 2, writerBusy := false, readerBusy := false } := by
  intro f c
  have hmake : make 2 0 = .ok (ofRing { slots := #[0, 0, 0], write := 0, read := 0 }) := rfl
  have hnew : Reachable (ofRing _) := .make hmake
  have hf : Reachable f := .call (.read [0] []) (.call (.write [1, 2] []) hnew)
  exact ⟨hf, (run_linearizable hf c).1, rfl⟩

end BlockFlow.LockFreeRing
