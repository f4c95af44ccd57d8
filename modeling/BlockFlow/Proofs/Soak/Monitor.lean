import BlockFlow.Proofs.DriftingRing.Stops
import BlockFlow.Proofs.Soak.Sizes

/-!
# What the monitor sees of the stops

The monitor compares each snapshot with the one before. While the channel has room for every
snapshot of a run, the monitor gets them all, at whatever pace (`Inbox.Holds.pass`), and counts the
blocks that begin with the ring running and end with it stopped. A ring may also start and stop
between two snapshots. What the monitor counts and these hidden stops are all the stops of the ring
(`foldl_observe_stops`), and none is hidden where each party may have an xrun
(`monitor_counts_stops`).
-/

set_option autoImplicit false

namespace BlockFlow

/-! ## Snapshots on their way -/

namespace Inbox

/-- The inbox when some snapshots have been sent. Before the one with number `i` is sent, the monitor
gets up to `pace i` of those that wait. -/
def pass (capacity : Nat) : (Nat → Nat) → List XrunStats → Inbox → Inbox
  | _, [], q => q
  | pace, s :: rest, q => pass capacity (fun i => pace (i + 1)) rest (q.step capacity (pace 0) s)

/-- No snapshot that was sent is lost. -/
structure Holds (sent : List XrunStats) (q : Inbox) : Prop where
  dropped : q.dropped = 0
  waiting_le : q.waiting.length ≤ sent.length
  close : q.close = sent.foldl DriftMonitor.observe {}

theorem close_eq (q : Inbox) : q.close = q.waiting.foldl DriftMonitor.observe q.monitor := by
  rw [close, take, List.take_length]

/-- It does not matter when the monitor gets a snapshot. -/
theorem close_take (q : Inbox) (n : Nat) : (q.take n).close = q.close := by
  rw [close_eq, close_eq, take, ← List.foldl_append, List.take_append_drop]

variable {capacity : Nat} {sent : List XrunStats} {q : Inbox}

theorem Holds.empty : Holds [] {} := ⟨rfl, Nat.le_refl 0, rfl⟩

theorem Holds.take (h : Holds sent q) (n : Nat) : Holds sent (q.take n) where
  dropped := h.dropped
  waiting_le := by
    show (q.waiting.drop n).length ≤ _
    rw [List.length_drop]
    exact Nat.le_trans (Nat.sub_le ..) h.waiting_le
  close := (close_take q n).trans h.close

/-- A snapshot finds room as long as no more have been sent than the channel can hold. -/
theorem Holds.send (h : Holds sent q) (hroom : sent.length < capacity) (s : XrunStats) :
    Holds (sent ++ [s]) (q.send capacity s) := by
  have hfits : q.waiting.length < capacity := Nat.lt_of_le_of_lt h.waiting_le hroom
  rw [Inbox.send, if_pos hfits]
  exact
    { dropped := h.dropped
      waiting_le := by
        rw [List.length_append, List.length_append]
        exact Nat.add_le_add_right h.waiting_le 1
      close := by
        have hclose := h.close
        rw [close_eq] at hclose ⊢
        rw [List.foldl_append, List.foldl_append, hclose] }

/-- At whatever pace the monitor gets the snapshots, it gets all of them if the channel can hold as
many. -/
theorem Holds.pass (h : Holds sent q) (pace : Nat → Nat) (rest : List XrunStats)
    (hroom : sent.length + rest.length ≤ capacity) :
    Holds (sent ++ rest) (q.pass capacity pace rest) := by
  induction rest generalizing sent q pace with
  | nil =>
    rw [List.append_nil]
    exact h
  | cons s rest ih =>
    rw [List.length_cons] at hroom
    have hsent : Holds (sent ++ [s]) (q.step capacity (pace 0) s) :=
      (h.take (pace 0)).send (by omega) s
    rw [List.append_cons]
    apply ih hsent
    rw [List.length_append, List.length_singleton]
    omega

end Inbox

namespace Soak

open DriftingRing (Sound after afterEach block hiddenStops inTurn stopsIn)

/-! ## The ring in the turns of a run -/

/-- What is written to and read from the ring in the turns of a run, from the producer's bursts. -/
def exchanges (c : SoakConfig) : Nat → List Nat → List (List Nat × Nat)
  | _, [] => []
  | produced, burst :: bursts =>
    (Interleaved.spreadAll c.doubleBuffer.inputChannels
        ((List.range burst).map fun i => rampAt (produced + i)),
      c.doubleBuffer.outerSize * c.doubleBuffer.inputChannels) ::
      exchanges c (produced + burst) bursts

/-- The snapshots taken in the turns with the given bursts, one a turn. -/
def snapshots (c : SoakConfig) (bursts : List Nat) (s : State) : List XrunStats :=
  (afterEach (exchanges c s.produced bursts) s.drift).map DriftingRing.stats

/-- How often the ring goes from running to stopped in the turns with the given bursts. -/
def ringStops (c : SoakConfig) (bursts : List Nat) (s : State) : Nat :=
  stopsIn (inTurn (exchanges c s.produced bursts)) s.drift

/-- How many of the turns with the given bursts find the ring stopped, start it and stop it
again. -/
def unseenStops (c : SoakConfig) (bursts : List Nat) (s : State) : Nat :=
  hiddenStops (exchanges c s.produced bursts) s.drift

theorem length_exchanges (c : SoakConfig) (produced : Nat) (bursts : List Nat) :
    (exchanges c produced bursts).length = bursts.length := by
  induction bursts generalizing produced with
  | nil => rfl
  | cons burst bursts ih => exact congrArg (· + 1) (ih _)

theorem length_snapshots (c : SoakConfig) (bursts : List Nat) (s : State) :
    (snapshots c bursts s).length = bursts.length := by
  rw [snapshots, List.length_map, DriftingRing.length_afterEach, length_exchanges]

/-- A monitor that knows whether the ring runs counts every stop but the hidden ones. -/
theorem foldl_observe_stops {config : DriftConfig} {d : DriftingRing Nat} (hd : Sound config 0 d)
    (blocks : List (List Nat × Nat)) {m : DriftMonitor} (hm : m.wasRunning = d.isRunning) :
    (((afterEach blocks d).map DriftingRing.stats).foldl DriftMonitor.observe m).stops +
      hiddenStops blocks d = m.stops + stopsIn (inTurn blocks) d := by
  induction blocks generalizing d m with
  | nil => rfl
  | cons b rest ih =>
    have hrest := ih (hd.after (block b.1 b.2)) (m := m.observe (after (block b.1 b.2) d).stats) rfl
    -- the snapshot shows a stop if the ring ran before the two calls and does not afterwards
    have hshown : (m.observe (after (block b.1 b.2) d).stats).stops =
        m.stops + if d.isRunning && !(after (block b.1 b.2) d).isRunning then 1 else 0 := by
      rw [DriftMonitor.observe, hm]
      show (if _ && !(after _ d).isRunning then _ else _) = _
      split <;> rfl
    have hturn := hd.stopsIn_block b.1 b.2
    rw [hshown] at hrest
    rw [inTurn, List.flatMap_cons, DriftingRing.stopsIn_append, hturn, hiddenStops, afterEach,
      List.map_cons, List.foldl_cons]
    rw [inTurn] at hrest
    omega

/-! ## From the settings to the report -/

/-- The ring at the start of a run is stopped, and its parties have the limits of the settings. -/
theorem ring_of_start [Memory] {c : SoakConfig} {s : State} (h : start c = .ok s) :
    (∃ config, Sound config 0 s.drift) ∧ s.drift.isRunning = false ∧
      (∀ side, (s.drift.party side).limit = c.drift.xrunLimit side) ∧ s.inbox = {} := by
  obtain ⟨-, buffer, config, ring, -, hconfig, hring, rfl⟩ := start_eq_ok h
  obtain ⟨hsound, hstopped⟩ := Sound.of_make hring
  refine ⟨⟨config, hsound⟩, hstopped, ?_, rfl⟩
  obtain ⟨-, slots, -, rfl⟩ := DriftingRing.make_eq_ok hring
  intro side
  rw [DriftingRing.limit_ofRing, (SoakConfig.driftInSamples_eq_ok hconfig).1]
  cases side <;> rfl

/-- The frames that a producer writes in its next `n` turns. -/
def firstBursts {β : Type} (next : Producer β) : Nat → β → List Nat
  | 0, _ => []
  | n + 1, b => (next b).1 :: firstBursts next n (next b).2

@[simp] theorem drift_publish (s : State) (c : SoakConfig) : (s.publish c).drift = s.drift := by
  unfold State.publish
  split <;> rfl

@[simp] theorem produced_publish (s : State) (c : SoakConfig) :
    (s.publish c).produced = s.produced := by
  unfold State.publish
  split <;> rfl

@[simp] theorem inbox_publish (s : State) (c : SoakConfig) : (s.publish c).inbox = s.inbox := by
  unfold State.publish
  split <;> rfl

/-- What a turn does to the ring and to the monitor. -/
theorem turn_eq_ok {c : SoakConfig} {s s' : State} {burst : Nat} (h : s.turn c burst = .ok s') :
    s'.drift = (s.exchange c burst).2.drift ∧ s'.produced = s.produced + burst ∧
      s'.inbox = s.inbox.step c.statsCapacity 1 s'.drift.stats := by
  simp only [State.turn] at h
  split at h
  · cases h
  · cases h
    refine ⟨drift_publish .., produced_publish .., ?_⟩
    rw [drift_publish]
    exact inbox_publish ..

/-- In the turns of a run the monitor gets each snapshot before the next is sent. -/
theorem inbox_of_drive {β : Type} {c : SoakConfig} {next : Producer β} {n : Nat} {b : β}
    {s s' : State} (h : drive c next n b s = .ok s') :
    s'.inbox = s.inbox.pass c.statsCapacity (fun _ => 1)
      (snapshots c (firstBursts next n b) s) := by
  induction n generalizing b s with
  | zero =>
    cases h
    rfl
  | succ n ih =>
    rw [drive] at h
    cases hturn : s.turn c (next b).1 with
    | error e =>
      rw [hturn] at h
      cases h
    | ok s₁ =>
      rw [hturn] at h
      obtain ⟨hdrift, hproduced, hinbox⟩ := turn_eq_ok hturn
      rw [ih h, hinbox, snapshots, hdrift, hproduced]
      rfl

/-- Releasing the inner stage changes nothing for the monitor. -/
theorem inbox_of_release {c : SoakConfig} {s s' : State} (h : s.release c = .ok s') :
    s'.inbox = s.inbox := by
  simp only [State.release] at h
  split at h
  · split at h
    · cases h
      rfl
    · cases h
  · cases h
    rfl

/-- The stops in a report are those that the monitor counted. -/
theorem driftStops_of_runWith [Memory] {β : Type} {c : SoakConfig} {next : Producer β} {b : β}
    {report : SoakReport} {s : State} (hstart : start c = .ok s)
    (h : runWith c next b = .ok report) :
    report.driftStops = (Inbox.pass c.statsCapacity (fun _ => 1)
      (snapshots c (firstBursts next c.blocks b) s) {}).close.stops := by
  simp only [runWith, bind_eq_ok, liftM_eq_ok] at h
  obtain ⟨started, hstarted, driven, hdriven, released, hreleased, hreport⟩ := h
  obtain rfl : s = started := Except.ok.inj (hstart.symm.trans hstarted)
  cases hreport
  show released.inbox.close.stops = _
  rw [inbox_of_release hreleased, inbox_of_drive hdriven, (ring_of_start hstart).2.2.2]

/-- The monitor gets every snapshot of a run whose channel has room for all of them, whatever its
pace. It counts every stop of the ring but those in a turn that finds the ring stopped, starts it and
stops it again. There are no such turns where each party may have an xrun. -/
theorem monitor_counts_stops [Memory] {c : SoakConfig} {s : State} (hstart : start c = .ok s)
    (bursts : List Nat) (hroom : bursts.length ≤ c.statsCapacity) (pace : Nat → Nat) :
    let inbox := Inbox.pass c.statsCapacity pace (snapshots c bursts s) {}
    inbox.dropped = 0 ∧
      inbox.close.stops + unseenStops c bursts s = ringStops c bursts s ∧
      (0 < c.drift.maxWriterXruns → 0 < c.drift.maxReaderXruns →
        inbox.close.stops = ringStops c bursts s) ∧
      ∀ {β : Type} (next : Producer β) (b : β) (report : SoakReport),
        firstBursts next c.blocks b = bursts → runWith c next b = .ok report →
          report.driftStops = inbox.close.stops := by
  obtain ⟨⟨config, hsound⟩, hstopped, hlimits, -⟩ := ring_of_start hstart
  have hholds : ∀ pace, Inbox.Holds (snapshots c bursts s)
      (Inbox.pass c.statsCapacity pace (snapshots c bursts s) {}) := by
    intro pace
    apply Inbox.Holds.empty.pass pace (snapshots c bursts s)
    rw [length_snapshots, List.length_nil, Nat.zero_add]
    exact hroom
  have hcount := foldl_observe_stops hsound (exchanges c s.produced bursts) (m := {}) hstopped.symm
  have hclose : (Inbox.pass c.statsCapacity pace (snapshots c bursts s) {}).close.stops +
      unseenStops c bursts s = ringStops c bursts s := by
    rw [(hholds pace).close]
    exact hcount.trans (Nat.zero_add _)
  refine ⟨(hholds pace).dropped, hclose, ?_, ?_⟩
  · intro hwriter hreader
    have hnone : unseenStops c bursts s = 0 := by
      apply hsound.hiddenStops_eq_zero
      intro side
      rw [hlimits]
      cases side with
      | writer => exact hwriter
      | reader => exact hreader
    rw [← hclose, hnone, Nat.add_zero]
  · rintro β next b report rfl hrun
    rw [driftStops_of_runWith hstart hrun, (hholds fun _ => 1).close, (hholds pace).close]

/-- Settings with which the second read that gets too little stops the ring. -/
def oneXrun : SoakConfig :=
  { doubleBuffer := { outerSize := 2, innerSize := 2, delay := 0 }
    drift := { desiredFillCount := 0, maxFillCount := 4, maxReaderXruns := 1 }
    blocks := 2 }

/-- A producer that writes a block in the first turn and nothing in the second. -/
def fallsSilent : Producer Nat := fun n => (2 - n, n + 2)

/-- The monitor counts the stop in the second turn, and the report has it. -/
theorem monitor_counts_stops_starved :
    ∃ s report, start oneXrun = .ok s ∧ [2, 0].length ≤ oneXrun.statsCapacity ∧
      ringStops oneXrun [2, 0] s = 1 ∧
      (Inbox.pass oneXrun.statsCapacity id (snapshots oneXrun [2, 0] s) {}).close.stops = 1 ∧
      runWith oneXrun fallsSilent 0 = .ok report ∧ report.driftStops = 1 := by
  have hroom : [2, 0].length ≤ oneXrun.statsCapacity := by decide
  have hcounted := fun s (hs : start oneXrun = .ok s) => monitor_counts_stops hs [2, 0] hroom id
  have hends : (runWith oneXrun fallsSilent 0).isOk = true := by decide +kernel
  cases hrun : runWith oneXrun fallsSilent 0 with
  | error e =>
    rw [hrun] at hends
    cases hends
  | ok report =>
    refine ⟨_, report, rfl, hroom, by decide, ?_, rfl, ?_⟩
    · obtain ⟨-, -, hstops, -⟩ := hcounted _ rfl
      exact (hstops (by decide) (by decide)).trans (by decide)
    · obtain ⟨-, -, -, hreport⟩ := hcounted _ rfl
      exact (hreport fallsSilent 0 report rfl hrun).trans (by decide)

/-- Settings with which the first read that gets too little stops the ring. -/
def noXrun : SoakConfig :=
  { doubleBuffer := { outerSize := 2, innerSize := 2, delay := 0 }
    drift := { desiredFillCount := 0, maxFillCount := 4, maxReaderXruns := 0 }
    blocks := 4
    producerRateRatio := 1.0 }

/-- In each of four turns the ring starts and stops, and the monitor finds it stopped each time. -/
theorem monitor_misses_stops :
    noXrun.validate = .ok () ∧ noXrun.blocks ≤ noXrun.statsCapacity ∧
      (∃ s, start noXrun = .ok s ∧ ringStops noXrun [2, 2, 2, 2] s = 4 ∧
        (snapshots noXrun [2, 2, 2, 2] s).foldl DriftMonitor.observe {} =
          { received := 4, peakReader := 1 }) ∧
      (runWith noXrun (fun b => (2, b)) ()).toOption.map SoakReport.driftStops = some 0 :=
  ⟨rfl, by decide, ⟨_, rfl, by decide, by decide⟩, by decide +kernel⟩

end Soak

end BlockFlow
