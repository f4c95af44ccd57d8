import BlockFlow.Proofs.DriftingRing.Level
import BlockFlow.Proofs.DriftingRing.Stops
import Mathlib.Data.Nat.Find
import Mathlib.Order.Bounds.Basic

/-!
# A lasting mismatch of rates

Two parties take turns on a running ring, and one of them asks for more elements in each turn than
the other. What the faster party can transfer, its `room`, shrinks by the difference in every turn
until it is too small (`AtTurn.served`). From then on each of its calls is an xrun and uses up all
the room there is, so that the other party finds as much as it could ever want (`AtTurn.shorted`).
The ring stops at the first xrun that is one too many, and no call of the slower party is an xrun
before that (`AtTurn.stopsIn`). Both directions of the mismatch are cases of this
(`mismatch_stops`).
-/

set_option autoImplicit false

namespace BlockFlow

universe u

theorem Side.other_other (side : Side) : side.other.other = side := by
  cases side <;> rfl

namespace DriftingRing

variable {α : Type u}

/-- How many elements a party could transfer now: the writer what is available, the reader what is
stored beyond the minimum. -/
def room (d : DriftingRing α) : Side → Nat
  | .writer => d.availableSpace
  | .reader => d.fillCount - d.minFillCount

/-- A call that finds the ring running, transfers all it asks for, is counted as no xrun and leaves
the ring running. -/
structure Call.Served (c : Call α) (side : Side) (d : DriftingRing α) : Prop where
  runs : d.isRunning = true
  moved_eq : c.moved d = c.asked
  total_eq : ((c.run d).after.party side).total = (d.party side).total
  goesOn : (c.run d).after.isRunning = true

/-- A call that finds the ring running and is counted as an xrun. -/
structure Call.Shorted (c : Call α) (side : Side) (d : DriftingRing α) : Prop where
  runs : d.isRunning = true
  moved_lt : c.moved d < c.asked
  total_eq : ((c.run d).after.party side).total = (d.party side).total + 1

/-- So many turns. In each of them one party makes a call and then the other does. -/
def turns (lead follow : Nat → Call α) : Nat → List (Call α)
  | 0 => []
  | k + 1 => turns lead follow k ++ [lead k, follow k]

/-- The party `side`, which makes the first call in each turn, is served in full for `i` turns. From
then on each of its calls is an xrun, and the ring stops at the first of them that is beyond the
limit. All calls of the other party are served until then. -/
structure StopsIn (lead follow : Nat → Call α) (side : Side) (i limit : Nat) (d : DriftingRing α) :
    Prop where
  served : ∀ k < i, (lead k).Served side (after (turns lead follow k) d)
  shorted : ∀ k, i ≤ k → k ≤ i + limit → (lead k).Shorted side (after (turns lead follow k) d)
  followed : ∀ k < i + limit,
    (follow k).Served side.other (after (turns lead follow k ++ [lead k]) d)
  stops : (after (turns lead follow (i + limit) ++ [lead (i + limit)]) d).isRunning = false

theorem after_turns_succ (lead follow : Nat → Call α) (k : Nat) (d : DriftingRing α) :
    after (turns lead follow (k + 1)) d =
      ((follow k).run ((lead k).run (after (turns lead follow k) d)).after).after := by
  rw [turns, after_append]
  rfl

theorem after_turns_lead (lead follow : Nat → Call α) (k : Nat) (d : DriftingRing α) :
    after (turns lead follow k ++ [lead k]) d =
      ((lead k).run (after (turns lead follow k) d)).after := by
  rw [after_append]
  rfl

/-! ## One call on a running ring -/

section Call

variable {config : DriftConfig} {null : α} {d : DriftingRing α} {c : Call α} {side : Side}

/-- The rooms of the two parties make up what lies between the minimum and the capacity. -/
theorem Leveled.room_add_room (hd : Leveled config null d) (side : Side) :
    d.room side + d.room side.other = config.maxFillCount - config.minFillCount := by
  have hbounded := hd.bounded
  have hmin := hbounded.min_le
  have hsum := hbounded.fill_add_space
  have hminimum := hd.minimum
  cases side <;> simp only [room, Side.other] <;> omega

/-- A call transfers as much as it asks for and has room for. -/
theorem Sound.moved_eq_min (hd : Sound config null d) (hruns : d.isRunning = true)
    (hc : c.party? = some side) : c.moved d = min (d.room side) c.asked := by
  cases c with
  | write data =>
    cases hc
    have hentered : (Call.write data).entered d = d := entered_of_isRunning hruns _
    show (data.take (min ((Call.write data).entered d).availableSpace data.length)).length = _
    rw [hentered, List.length_take, min_assoc, min_self]
    rfl
  | read n =>
    cases hc
    have hentered : (d.enter .reader).1 = d := entered_of_isRunning hruns (.read n)
    exact (hd.delivered_read hentered hruns n).2
  | stop => cases hc
  | setLimit of limit => cases hc

/-- What a call transfers is taken from the room of its party and added to that of the other. -/
theorem Leveled.room_run (hd : Leveled config null d) (hruns : d.isRunning = true)
    (hc : c.party? = some side) :
    (c.run d).after.room side + c.moved d = d.room side ∧
      (c.run d).after.room side.other = d.room side.other + c.moved d := by
  have hentered : c.entered d = d := entered_of_isRunning hruns c
  have hafter := hd.run c
  have hconserved := congrArg List.length
    (hd.pending_append_accepted (c := c) (hentered.symm ▸ hruns))
  rw [hentered, List.length_append, List.length_append, hd.length_pending,
    hafter.length_pending] at hconserved
  have hmoved := hd.moved_eq_min hruns hc
  have hsum := hd.bounded.fill_add_space
  have hsum' := hafter.bounded.fill_add_space
  have hmin := hd.bounded.min_le
  have hmin' := hafter.bounded.min_le
  have hminimum := hd.minimum
  have hminimum' := hafter.minimum
  cases c with
  | write data =>
    cases hc
    have haccepted : (Call.write data).moved d = ((Call.write data).accepted d).length := rfl
    have hdelivered : ((Call.write data).delivered d).length = 0 := rfl
    simp only [room, Side.other] at hmoved ⊢
    omega
  | read n =>
    cases hc
    have haccepted : ((Call.read n : Call α).accepted d).length = 0 := rfl
    have hdelivered : (Call.read n).moved d = ((Call.read n).delivered d).length := rfl
    simp only [room, Side.other] at hmoved ⊢
    omega
  | stop => cases hc
  | setLimit of limit => cases hc

end Call

/-! ## One turn -/

/-- A running ring in which a party has so much room and so many xruns in succession. -/
structure AtTurn (config : DriftConfig) (null : α) (side : Side) (limit : UInt32)
    (space count : Nat) (d : DriftingRing α) : Prop where
  leveled : Leveled config null d
  runs : d.isRunning = true
  limit_eq : (d.party side).limit = limit
  room_eq : d.room side = space
  count_eq : (d.party side).inSuccession.toNat = count

section Turn

variable {config : DriftConfig} {null : α} {d : DriftingRing α} {side : Side} {limit : UInt32}
  {space count : Nat} {lead follow : Call α}

/-- A call that its party has room for is served and ends a succession of xruns. -/
theorem AtTurn.served (h : AtTurn config null side limit space count d)
    (hlead : lead.party? = some side) (hroom : lead.asked ≤ space) :
    lead.Served side d ∧
      AtTurn config null side limit (space - lead.asked) 0 (lead.run d).after := by
  have hentered : lead.entered d = d := entered_of_isRunning h.runs lead
  have hmoved : lead.moved d = lead.asked := by
    rw [h.leveled.moved_eq_min h.runs hlead, h.room_eq]
    exact Nat.min_eq_right hroom
  have hshort : lead.short d = false := decide_eq_false (by omega)
  obtain ⟨-, hlimit, htotal, -, hcount⟩ := h.leveled.counters_run hlead side
  have hgoes : (lead.run d).after.isRunning = true := by
    rw [h.leveled.isRunning_run_eq hlead (hentered.symm ▸ h.runs), Call.stopsShort, stopsCounting,
      hshort, Bool.false_and, Bool.and_false, Bool.not_false]
  simp only [hentered, Call.isXrun, Call.isFull, h.runs, hshort, decide_true, Bool.and_true,
    Bool.and_false, Bool.not_false, Bool.false_eq_true, if_true, if_false] at hlimit htotal hcount
  refine ⟨⟨h.runs, hmoved, htotal, hgoes⟩, h.leveled.run lead, hgoes, hlimit.trans h.limit_eq, ?_,
    congrArg UInt32.toNat hcount⟩
  have hspace := (h.leveled.room_run h.runs hlead).1
  rw [hmoved, h.room_eq] at hspace
  omega

/-- A call that its party has not enough room for is an xrun and leaves no room. The ring goes on if
that was not one too many. -/
theorem AtTurn.shorted (h : AtTurn config null side limit space count d)
    (hlead : lead.party? = some side) (hroom : space < lead.asked)
    (hcount : count + 1 < UInt32.size) :
    lead.Shorted side d ∧
      (limit.toNat < count + 1 → (lead.run d).after.isRunning = false) ∧
      (count + 1 ≤ limit.toNat →
        AtTurn config null side limit 0 (count + 1) (lead.run d).after) := by
  have hentered : lead.entered d = d := entered_of_isRunning h.runs lead
  have hmoved : lead.moved d = space := by
    rw [h.leveled.moved_eq_min h.runs hlead, h.room_eq]
    exact Nat.min_eq_left hroom.le
  have hshort : lead.short d = true := decide_eq_true (by omega)
  have hincremented : ((d.party side).inSuccession + 1).toNat = count + 1 := by
    rw [UInt32.toNat_add, h.count_eq]
    exact Nat.mod_eq_of_lt hcount
  obtain ⟨-, hlimit, htotal, -, hcounted⟩ := h.leveled.counters_run hlead side
  have hgoes : (lead.run d).after.isRunning = !decide (limit.toNat < count + 1) := by
    rw [h.leveled.isRunning_run_eq hlead (hentered.symm ▸ h.runs), Call.stopsShort, stopsCounting,
      hshort, hentered, h.runs, Party.overLimit_xrun, h.limit_eq, Bool.true_and, Bool.true_and]
    congr 2
    rw [UInt32.lt_iff_toNat_lt, hincremented]
  simp only [hentered, Call.isXrun, Call.isFull, h.runs, hshort, decide_true, Bool.and_true,
    Bool.not_true, Bool.and_false, Bool.false_eq_true, if_true, if_false]
    at hlimit htotal hcounted
  refine ⟨⟨h.runs, by omega, htotal⟩, fun hover => ?_, fun hunder => ?_⟩
  · rw [hgoes, decide_eq_true hover, Bool.not_true]
  · refine ⟨h.leveled.run lead, ?_, hlimit.trans h.limit_eq, ?_,
      (congrArg UInt32.toNat hcounted).trans hincremented⟩
    · rw [hgoes, decide_eq_false (Nat.not_lt.2 hunder), Bool.not_false]
    · have hspace := (h.leveled.room_run h.runs hlead).1
      rw [hmoved, h.room_eq] at hspace
      omega

/-- The call of the other party gives room back. It is served if it asks for no more than lies
between the minimum and the capacity less the room there is, and it leaves the xruns of the first
party alone. -/
theorem AtTurn.followed (h : AtTurn config null side limit space count d)
    (hfollow : follow.party? = some side.other)
    (hroom : space + follow.asked ≤ config.maxFillCount - config.minFillCount) :
    follow.Served side.other d ∧
      AtTurn config null side limit (space + follow.asked) count (follow.run d).after := by
  have hother : AtTurn config null side.other (d.party side.other).limit (d.room side.other)
      (d.party side.other).inSuccession.toNat d := ⟨h.leveled, h.runs, rfl, rfl, rfl⟩
  have hrooms := h.leveled.room_add_room side
  rw [h.room_eq] at hrooms
  obtain ⟨hserved, hafter⟩ := hother.served hfollow (by omega)
  have hentered : follow.entered d = d := entered_of_isRunning h.runs follow
  obtain ⟨-, hlimit, -, -, hcount⟩ := h.leveled.counters_run hfollow side
  have hne : side ≠ side.other := by cases side <;> decide
  simp only [hentered, Call.isXrun, Call.isFull, decide_eq_false hne, Bool.and_false,
    Bool.false_and, Bool.false_eq_true, if_false] at hlimit hcount
  refine ⟨hserved, hafter.leveled, hafter.runs, hlimit.trans h.limit_eq, ?_,
    (congrArg UInt32.toNat hcount).trans h.count_eq⟩
  have hspace := (h.leveled.room_run h.runs hfollow).2
  rw [Side.other_other, hserved.moved_eq, h.room_eq] at hspace
  exact hspace

end Turn

/-! ## Turn after turn -/

section Turns

variable {config : DriftConfig} {null : α} {d : DriftingRing α} {side : Side} {limit : UInt32}
  {lead follow : Nat → Call α} {r m n i : Nat}

/-- As long as there is room for the first party in every turn, each turn takes away the difference
of the two rates. -/
theorem AtTurn.after_served (h : AtTurn config null side limit r 0 d)
    (hlead : ∀ k, (lead k).party? = some side ∧ (lead k).asked = m)
    (hfollow : ∀ k, (follow k).party? = some side.other ∧ (follow k).asked = n) (hnm : n < m)
    (hserved : ∀ k < i, k * (m - n) + m ≤ r) {k : Nat} (hk : k ≤ i) :
    AtTurn config null side limit (r - k * (m - n)) 0 (after (turns lead follow k) d) := by
  induction k with
  | zero =>
    rw [Nat.zero_mul, Nat.sub_zero]
    exact h
  | succ k ih =>
    have hroom := hserved k hk
    have hbefore := ih (by omega)
    have hrooms := hbefore.leveled.room_add_room side
    rw [hbefore.room_eq] at hrooms
    obtain ⟨-, hbetween⟩ := hbefore.served (hlead k).1 (by rw [(hlead k).2]; omega)
    obtain ⟨-, hafter⟩ := hbetween.followed (hfollow k).1
      (by rw [(hlead k).2, (hfollow k).2]; omega)
    rw [(hlead k).2, (hfollow k).2] at hafter
    rw [after_turns_succ, Nat.succ_mul]
    convert hafter using 1
    omega

/-- Once there is too little room, each turn leaves the first party what the other one has just
transferred, and one xrun more. -/
theorem AtTurn.after_shorted (h : AtTurn config null side limit r 0 (after (turns lead follow i) d))
    (hlead : ∀ k, (lead k).party? = some side ∧ (lead k).asked = m)
    (hfollow : ∀ k, (follow k).party? = some side.other ∧ (follow k).asked = n) (hnm : n < m)
    (hn : n ≤ config.maxFillCount - config.minFillCount) (hfull : r < m)
    (hlimit : limit.toNat + 1 < UInt32.size) {j : Nat} (hj : j ≤ limit.toNat) :
    AtTurn config null side limit (if j = 0 then r else n) j
      (after (turns lead follow (i + j)) d) := by
  induction j with
  | zero => exact h
  | succ j ih =>
    have hbefore := ih (by omega)
    have hspace : (if j = 0 then r else n) < m := by split <;> omega
    obtain ⟨-, -, hgoes⟩ := hbefore.shorted (hlead (i + j)).1 (by rw [(hlead _).2]; exact hspace)
      (by omega)
    obtain ⟨-, hafter⟩ := (hgoes hj).followed (hfollow (i + j)).1
      (by rw [(hfollow _).2]; omega)
    rw [(hfollow _).2, Nat.zero_add] at hafter
    rw [← Nat.add_assoc, after_turns_succ]
    exact hafter

/-- Let the first party ask for more in each turn than the other one, and let the other one ask for
no more than lies between the minimum and the capacity. Then the ring stops, at the first xrun of
the first party beyond its limit. -/
theorem AtTurn.stopsIn (h : AtTurn config null side limit r 0 d)
    (hlead : ∀ k, (lead k).party? = some side ∧ (lead k).asked = m)
    (hfollow : ∀ k, (follow k).party? = some side.other ∧ (follow k).asked = n) (hnm : n < m)
    (hn : n ≤ config.maxFillCount - config.minFillCount) (hlimit : limit.toNat + 1 < UInt32.size)
    (hserved : ∀ k < i, k * (m - n) + m ≤ r) (hfull : r < i * (m - n) + m) :
    StopsIn lead follow side i limit.toNat d := by
  -- the turns with room, those without, and the calls of the first party in them
  have hbefore : ∀ k ≤ i, AtTurn config null side limit (r - k * (m - n)) 0
      (after (turns lead follow k) d) := fun k hk => h.after_served hlead hfollow hnm hserved hk
  have hlast : r - i * (m - n) < m := by omega
  have hlater : ∀ j ≤ limit.toNat, AtTurn config null side limit
      (if j = 0 then r - i * (m - n) else n) j (after (turns lead follow (i + j)) d) :=
    fun j hj => (hbefore i le_rfl).after_shorted hlead hfollow hnm hn hlast hlimit hj
  have hleads := fun k (hk : k < i) => (hbefore k hk.le).served (hlead k).1
    (by rw [(hlead k).2]; have := hserved k hk; omega)
  have hshorts := fun j (hj : j ≤ limit.toNat) => (hlater j hj).shorted (hlead (i + j)).1
    (by rw [(hlead _).2]; split <;> omega) (by omega)
  refine ⟨fun k hk => (hleads k hk).1, ?_, ?_, ?_⟩
  · intro k hi hk
    obtain ⟨j, rfl⟩ := Nat.exists_eq_add_of_le hi
    exact (hshorts j (by omega)).1
  · intro k hk
    rw [after_turns_lead]
    rcases Nat.lt_or_ge k i with hi | hi
    · have hspace := hserved k hi
      have hrooms := (hbefore k hi.le).leveled.room_add_room side
      rw [(hbefore k hi.le).room_eq] at hrooms
      exact ((hleads k hi).2.followed (hfollow k).1
        (by rw [(hlead k).2, (hfollow k).2]; omega)).1
    · obtain ⟨j, rfl⟩ := Nat.exists_eq_add_of_le hi
      have hgoes := (hshorts j (by omega)).2.2 (by omega)
      exact (hgoes.followed (hfollow _).1 (by rw [(hfollow _).2]; omega)).1
  · rw [after_turns_lead]
    exact (hshorts limit.toNat le_rfl).2.1 (Nat.lt_succ_self _)

/-- The turns for which there is room come to an end. -/
theorem exists_isLeast_full (r : Nat) (hnm : n < m) :
    ∃ i, IsLeast {j | r < j * (m - n) + m} i := by
  have hex : ∃ j, r < j * (m - n) + m :=
    ⟨r, by have := Nat.le_mul_of_pos_right r (Nat.sub_pos_of_lt hnm); omega⟩
  classical
  exact ⟨Nat.find hex, Nat.find_spec hex, fun j hj => Nat.find_min' hex hj⟩

end Turns

/-- A lasting mismatch of rates stops the ring after one xrun more in succession than the faster
party may have, and without an xrun of the slower one. The ring is one that any calls have left
running, and the party that will have the xruns has had none since its last transfer in full.
Blocks of `w` elements are written and `n` elements are read in turn. If the writer is faster, its
first `i` writes are stored in full, where `i` is the least number of turns after which a block does
not fit. If the reader is faster, its first `i` reads are served in full, where `i` is the least
number of turns after which a read would go below the minimum. -/
theorem mismatch_stops [Memory] {config : DriftConfig} {null : α} {new : DriftingRing α}
    (hmake : make config null = .ok new) (calls : List (Call α)) (w n : Nat)
    (data : Nat → List α) (hdata : ∀ k, (data k).length = w)
    (hruns : (after calls new).isRunning = true) :
    let d := after calls new
    (n < w → n ≤ config.maxFillCount - config.minFillCount →
      d.writer.inSuccession = 0 → d.writer.limit.toNat + 1 < UInt32.size →
      ∃ i, IsLeast {j | config.maxFillCount < d.fillCount + j * (w - n) + w} i ∧
        StopsIn (fun k => .write (data k)) (fun _ => .read n) .writer i d.writer.limit.toNat d) ∧
      (w < n → w ≤ config.maxFillCount - config.minFillCount →
        d.reader.inSuccession = 0 → d.reader.limit.toNat + 1 < UInt32.size →
        ∃ i, IsLeast {j | d.fillCount < config.minFillCount + j * (n - w) + n} i ∧
          StopsIn (fun _ => .read n) (fun k => .write (data k)) .reader i
            d.reader.limit.toNat d) := by
  intro d
  have hd : Leveled config null d := (Leveled.of_make hmake).after calls
  have hsum := hd.bounded.fill_add_space
  have hmin := hd.bounded.min_le
  have hwrite : ∀ k, (Call.write (data k)).party? = some .writer ∧
      (Call.write (data k)).asked = w := fun k => ⟨rfl, hdata k⟩
  have hread : ∀ _ : Nat, (Call.read n : Call α).party? = some .reader ∧
      (Call.read n : Call α).asked = n := fun _ => ⟨rfl, rfl⟩
  refine ⟨fun hfaster hslower hzero hlimit => ?_, fun hfaster hslower hzero hlimit => ?_⟩
  · have hstart : AtTurn config null .writer d.writer.limit (d.room .writer) 0 d :=
      ⟨hd, hruns, rfl, rfl, congrArg UInt32.toNat hzero⟩
    have hroom : d.room .writer = d.availableSpace := rfl
    have hset : {j | d.room .writer < j * (w - n) + w} =
        {j | config.maxFillCount < d.fillCount + j * (w - n) + w} := by
      ext j
      show d.room .writer < j * (w - n) + w ↔ config.maxFillCount < d.fillCount + j * (w - n) + w
      omega
    obtain ⟨i, hi⟩ := exists_isLeast_full (d.room .writer) hfaster
    exact ⟨i, hset ▸ hi, hstart.stopsIn hwrite hread hfaster hslower hlimit
      (fun k hk => Nat.le_of_not_lt fun hlt => absurd (hi.2 hlt) (Nat.not_le.2 hk)) hi.1⟩
  · have hstart : AtTurn config null .reader d.reader.limit (d.room .reader) 0 d :=
      ⟨hd, hruns, rfl, rfl, congrArg UInt32.toNat hzero⟩
    have hroom : d.room .reader = d.fillCount - d.minFillCount := rfl
    have hminimum := hd.minimum
    have hset : {j | d.room .reader < j * (n - w) + n} =
        {j | d.fillCount < config.minFillCount + j * (n - w) + n} := by
      ext j
      show d.room .reader < j * (n - w) + n ↔ d.fillCount < config.minFillCount + j * (n - w) + n
      omega
    obtain ⟨i, hi⟩ := exists_isLeast_full (d.room .reader) hfaster
    exact ⟨i, hset ▸ hi, hstart.stopsIn hread hwrite hfaster hslower hlimit
      (fun k hk => Nat.le_of_not_lt fun hlt => absurd (hi.2 hlt) (Nat.not_le.2 hk)) hi.1⟩

/-- A minimum of one, a capacity of five, and limits that are not the same. -/
def narrow : DriftConfig :=
  { minFillCount := 1, desiredFillCount := 2, maxFillCount := 5, maxWriterXruns := 1,
    maxReaderXruns := 2 }

/-- A narrow ring that stores three elements. -/
def halfFull : DriftingRing Nat :=
  after [.write [], .read 0, .write [7]] (.ofRing narrow 0 ⟨#[0, 0, 0, 0, 0, 0], 0, 0⟩)

/-- Blocks of two against reads of one stop it in the third write; blocks of one against reads of
two stop it in the fourth read. -/
theorem mismatch_stops_halfFull :
    halfFull.isRunning = true ∧
      StopsIn (fun k => .write [k, k]) (fun _ => .read 1) .writer 1 1 halfFull ∧
      StopsIn (fun _ => .read 2) (fun k => .write [k]) .reader 1 2 halfFull := by
  have hmake : make narrow (0 : Nat) = .ok (.ofRing narrow 0 ⟨#[0, 0, 0, 0, 0, 0], 0, 0⟩) := rfl
  have hruns : halfFull.isRunning = true := by decide
  have hfill : halfFull.fillCount = 3 := by decide
  obtain ⟨i, hi, hwrites⟩ := (mismatch_stops hmake [.write [], .read 0, .write [7]] 2 1
    (fun k => [k, k]) (fun _ => rfl) hruns).1 (by decide) (by decide) (by decide) (by decide)
  obtain ⟨j, hj, hreads⟩ := (mismatch_stops hmake [.write [], .read 0, .write [7]] 1 2
    (fun k => [k]) (fun _ => rfl) hruns).2 (by decide) (by decide) (by decide) (by decide)
  obtain rfl : i = 1 := hi.unique ⟨by decide, fun k hk => by
    have hfull : 5 < halfFull.fillCount + k * (2 - 1) + 2 := hk
    omega⟩
  obtain rfl : j = 1 := hj.unique ⟨by decide, fun k hk => by
    have hempty : halfFull.fillCount < 1 + k * (2 - 1) + 2 := hk
    omega⟩
  exact ⟨hruns, hwrites, hreads⟩

end DriftingRing

end BlockFlow
