import BlockFlow.Proofs.DriftingRing.Parties
import BlockFlow.Proofs.DriftingRing.Stream

/-!
# The fill level of a drifting ring

Stored elements and the silence still owed share the capacity of a drifting ring. Together they
never drop below the minimum and never exceed the capacity, whichever of the two parties have
started, and what is not filled is available (`fill_stays_bounded`). So the space is never less
than the silence takes away from it, and the ring below is never asked for more than it can do.
-/

set_option autoImplicit false

namespace BlockFlow.DriftingRing

universe u

variable {α : Type u}

/-- The fill level of a ring with these settings. -/
structure Bounded (config : DriftConfig) (d : DriftingRing α) : Prop where
  min_le : config.minFillCount ≤ d.fillCount
  le_max : d.fillCount ≤ config.maxFillCount
  fill_add_space : d.fillCount + d.availableSpace = config.maxFillCount
  /-- The silence owed is no more than the space of the ring below, from which it is taken. -/
  zeros_le : d.startupZeros ≤ d.ring.availableSpace

/-- The transfer of a call stays inside the blocks of the call, and the ring below makes it. -/
def Call.Fits : Call α → DriftingRing α → Prop
  | .write data, d =>
    let e := (Call.write data).entered d
    let transferred := min e.availableSpace data.length
    transferred ≤ data.length ∧ ∃ ring, e.ring.push (data.take transferred) = .ok ring
  | .read n, d =>
    let e := (Call.read n : Call α).entered d
    let transferred := (e.share n).1
    let zeros := (e.share n).2
    zeros ≤ transferred ∧ transferred ≤ n ∧
      ∃ block ring, e.ring.pull (transferred - zeros) = .ok (block, ring) ∧
        block.length = transferred - zeros
  | .stop, _ => True
  | .setLimit _ _, _ => True

/-- What a ring with these settings keeps true of its fill level. -/
structure Leveled (config : DriftConfig) (null : α) (d : DriftingRing α) : Prop extends
    Sound config null d where
  minimum : d.minFillCount = config.minFillCount
  capacity : d.ring.capacity = config.maxFillCount
  min_le_desired : config.minFillCount ≤ config.desiredFillCount
  min_le_fill : config.minFillCount ≤ d.fillCount

section

variable {config : DriftConfig} {null : α} {d d' : DriftingRing α}

theorem Leveled.bounded (hd : Leveled config null d) : Bounded config d := by
  have hsum := hd.valid.fillCount_add_availableSpace
  have hfits := hd.fits
  have hcapacity := hd.capacity
  constructor
  · exact hd.min_le_fill
  · unfold DriftingRing.fillCount
    omega
  · unfold DriftingRing.fillCount availableSpace
    omega
  · omega

/-- The ring below can do what the counts of a sound ring ask of it. -/
theorem Sound.fits_call {c : Call α} (he : Sound config null (c.entered d)) : c.Fits d := by
  cases c with
  | write data =>
    have hblock : (data.take (min ((Call.write data).entered d).availableSpace
        data.length)).length ≤ ((Call.write data).entered d).availableSpace := by
      simp
    exact ⟨min_le_right .., _, he.valid.push_of_le (he.le_availableSpace hblock).1⟩
  | read n =>
    have hthere := stored_share_le _ (((Call.read n : Call α).entered d).delivery_le n)
    exact ⟨min_le_right .., min_le_right .., _, _, he.valid.pull_of_le hthere,
      he.valid.length_take_contents hthere⟩
  | stop => trivial
  | setLimit side limit => trivial

/-! ## What keeps the level -/

theorem SameStream.leveled (h : SameStream d d') (hd : Leveled config null d) :
    Leveled config null d' where
  toSound := h.sound hd.toSound
  minimum := h.minFillCount.trans hd.minimum
  capacity := by
    rw [h.ring]
    exact hd.capacity
  min_le_desired := hd.min_le_desired
  min_le_fill := by
    rw [fillCount, h.ring, h.startupZeros]
    exact hd.min_le_fill

/-- A start fills the ring up to the desired level. -/
theorem Leveled.starting (hd : Leveled config null d) : Leveled config null d.starting where
  toSound := hd.toSound.starting
  minimum := hd.minimum
  capacity := hd.capacity
  min_le_desired := hd.min_le_desired
  min_le_fill := by
    show _ ≤ d.ring.clear.fillCount + d.desiredFillCount
    rw [Ring.fillCount_clear, Nat.zero_add, hd.desired]
    exact hd.min_le_desired

theorem Leveled.enter (hd : Leveled config null d) (side : Side) :
    Leveled config null (d.enter side).1 := by
  cases hstarted : (d.party side).started with
  | true =>
    rw [enter_of_started hstarted]
    exact hd
  | false => exact (sameStream_enter_of_not_started hstarted).leveled hd.starting

theorem Leveled.entered (hd : Leveled config null d) (c : Call α) :
    Leveled config null (c.entered d) := by
  cases c with
  | write data => exact hd.enter .writer
  | read n => exact hd.enter .reader
  | stop => exact hd
  | setLimit side limit => exact hd

/-- Storing only raises the level. -/
theorem Leveled.afterStoring (hd : Leveled config null d) (data : List α) :
    Leveled config null (d.afterStoring data) := by
  have hblock : (data.take (min d.availableSpace data.length)).length ≤ d.availableSpace := by
    simp
  have hroom := (hd.le_availableSpace hblock).1
  have hsound := (hd.toSound.store hblock).2
  rw [hd.store_eq hblock] at hsound
  exact
    { toSound := hsound
      minimum := hd.minimum
      capacity := (Ring.capacity_append ..).trans hd.capacity
      min_le_desired := hd.min_le_desired
      min_le_fill := by
        have hmin := hd.min_le_fill
        show _ ≤ (d.ring.append _).fillCount + d.startupZeros
        rw [hd.valid.fillCount_append hroom]
        unfold DriftingRing.fillCount at hmin
        omega }

/-- A delivery leaves the minimum. -/
theorem Leveled.afterDelivery (hd : Leveled config null d) (n : Nat) :
    Leveled config null (d.afterDelivery (d.delivery n)) := by
  have hthere := stored_share_le d (d.delivery_le n)
  have hsound := (hd.toSound.fetch (d.delivery_le n)).2.2
  rw [hd.fetch_eq (d.delivery_le n)] at hsound
  exact
    { toSound := hsound
      minimum := hd.minimum
      capacity := hd.capacity
      min_le_desired := hd.min_le_desired
      min_le_fill := by
        have hmin := hd.min_le_fill
        show _ ≤ (d.ring.discard _).fillCount + (d.startupZeros - min d.startupZeros _)
        rw [hd.valid.fillCount_discard hthere]
        have hleave : d.delivery n ≤ d.fillCount - config.minFillCount :=
          hd.minimum ▸ min_le_left ..
        unfold DriftingRing.fillCount at hmin hleave
        omega }

/-- Every call keeps the level. -/
theorem Leveled.run (hd : Leveled config null d) (c : Call α) :
    Leveled config null (c.run d).after := by
  cases c with
  | write data =>
    show Leveled config null (d.write data).1
    cases hruns : (d.enter .writer).1.isRunning with
    | true =>
      rw [hd.write_eq hruns]
      exact (sameStream_account ..).leveled ((hd.enter .writer).afterStoring data)
    | false =>
      rw [write_of_stopped hruns]
      exact hd.enter .writer
  | read n =>
    show Leveled config null (d.read n).2.1
    cases hruns : (d.enter .reader).1.isRunning with
    | true =>
      rw [hd.read_eq hruns]
      exact (sameStream_account ..).leveled ((hd.enter .reader).afterDelivery n)
    | false =>
      rw [read_of_stopped hruns]
      exact hd.enter .reader
  | stop => exact (sameStream_stop d).leveled hd
  | setLimit side limit => exact (sameStream_setLimit d side limit).leveled hd

theorem Leveled.after (hd : Leveled config null d) (calls : List (Call α)) :
    Leveled config null (DriftingRing.after calls d) := by
  induction calls generalizing d with
  | nil => exact hd
  | cons c cs ih => exact ih (hd.run c)

end

theorem Leveled.of_make [Memory] {config : DriftConfig} {null : α} {d : DriftingRing α}
    (hmake : make config null = .ok d) : Leveled config null d := by
  obtain ⟨hvalidate, ring, hring, rfl⟩ := make_eq_ok hmake
  exact
    { toSound := (Sound.of_make hmake).1
      minimum := rfl
      capacity := Ring.capacity_of_make hring
      min_le_desired := (DriftConfig.validate_eq_ok_iff.1 hvalidate).1
      min_le_fill := by
        show _ ≤ ring.fillCount + config.desiredFillCount
        exact Nat.le_add_left_of_le (DriftConfig.validate_eq_ok_iff.1 hvalidate).1 }

/-- Whatever calls are made on a new ring, its fill level stays between the minimum and the
capacity, and the space is the rest of the capacity, between the calls and when the transfer of a
call finds the ring. So every transfer stays inside its blocks, and the ring below refuses none. -/
theorem fill_stays_bounded [Memory] {config : DriftConfig} {null : α} {d : DriftingRing α}
    (hmake : make config null = .ok d) (calls : List (Call α)) :
    Bounded config (after calls d) ∧
      ∀ c : Call α, Bounded config (c.entered (after calls d)) ∧ c.Fits (after calls d) ∧
        ∀ side e, LogEvent.driftOutOfStep side e ∉ (c.run (after calls d)).log := by
  have hd := (Leveled.of_make hmake).after calls
  refine ⟨hd.bounded, fun c => ⟨(hd.entered c).bounded, (hd.entered c).toSound.fits_call, ?_⟩⟩
  exact fun side e => hd.driftOutOfStep_notMem_log c side e

/-- A ring that was filled up, stopped by a read too many and started again by its writer alone. -/
theorem fill_stays_bounded_half_started :
    let config : DriftConfig :=
      { minFillCount := 1, desiredFillCount := 2, maxFillCount := 3, maxReaderXruns := 0 }
    let d : DriftingRing Nat := .ofRing config 0 ⟨#[0, 0, 0, 0], 0, 0⟩
    let calls : List (Call Nat) := [.write [1], .read 1, .write [2, 3, 4], .read 5, .write [5]]
    make config 0 = .ok d ∧ Bounded config (after calls d) ∧
      (after calls d).writer.started = true ∧ (after calls d).reader.started = false ∧
      (Call.read 7).Fits (after calls d) := by
  intro config d calls
  have hmake : make config 0 = .ok d := rfl
  obtain ⟨hbounded, hcalls⟩ := fill_stays_bounded hmake calls
  exact ⟨hmake, hbounded, by decide, by decide, (hcalls (.read 7)).2.1⟩

end BlockFlow.DriftingRing
