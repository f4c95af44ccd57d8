import BlockFlow.Proofs.DriftingRing.Overflow

/-!
# The ledger of a drifting ring

What the flags and counters of a drifting ring ought to say follows from the calls alone, in numbers
that no word bounds. `ledger` judges the calls as `history` does, but holds a count in succession
itself against the limit, and not what a counter has left of it.

The ring keeps the ledger exactly as long as its counts fit the counters, over every run of calls
(`counts_ledger`). By induction over the calls, the ledger and the history are the same until then
(`ledger_eq_history`). For a count in succession not to fit, a party must come to the largest word
under the largest limit. With its next xrun the ring departs from the ledger: it ought to stop, and
runs on with a counter of zero (`leaves_ledger`).
-/

set_option autoImplicit false

namespace BlockFlow.DriftingRing

universe u

variable {α : Type u}

/-! ## Calls in numbers -/

/-- The history of some calls made one after the other, each held against the limits in numbers. -/
def ledger (config : DriftConfig) (calls : List (Call α)) (d : DriftingRing α) : History :=
  .ofActs exceeds config (acts calls d)

/-- What the flags and counters of a ring say after some calls on a new ring `d` is what the calls
say. -/
structure CountsCalls (config : DriftConfig) (d : DriftingRing α) (calls : List (Call α)) :
    Prop where
  /-- The ring runs if both parties have called since the last stop. -/
  running : (after calls d).isRunning = true ↔
    ∀ side, ∃ m ∈ (ledger config calls d).sinceStop, m.act.isBy side = true
  total : ∀ side,
    ((after calls d).party side).total.toNat = (ledger config calls d).xruns side
  sinceStart : ∀ side,
    ((after calls d).party side).sinceStart.toNat = (ledger config calls d).sinceStart.xruns side
  inSuccession : ∀ side, ((after calls d).party side).inSuccession.toNat =
    ((ledger config calls d).sinceFull side).xruns side
  /-- The last call is an xrun of its party if the ring runs in it and transfers less than asked. -/
  xruns : ∀ before c, calls = before ++ [c] → ∀ side, (ledger config calls d).xruns side =
    (ledger config before d).xruns side +
      if c.party? = some side ∧ (c.entered (after before d)).isRunning = true ∧
          c.moved (after before d) < c.asked then 1
      else 0
  /-- The ring stops in the last call if that tells it to, or is an xrun of a party that then has
  had more in succession than the limit in force. -/
  stops : ∀ before c, calls = before ++ [c] →
    (LogEvent.driftStopped ∈ (c.run (after before d)).log ↔
      c = .stop ∨ ∃ side, c.party? = some side ∧ (c.entered (after before d)).isRunning = true ∧
        c.moved (after before d) < c.asked ∧
        ((ledger config before d).limit config side).toNat <
          ((ledger config calls d).sinceFull side).xruns side)
  /-- A ring that runs in the last call is stopped after it exactly if it stops in it. -/
  leaves : ∀ before c, calls = before ++ [c] → (c.entered (after before d)).isRunning = true →
    ((after calls d).isRunning = false ↔ LogEvent.driftStopped ∈ (c.run (after before d)).log)
  ordered : ∀ side, ((after calls d).party side).inSuccession.toNat ≤
      ((after calls d).party side).sinceStart.toNat ∧
    ((after calls d).party side).sinceStart.toNat ≤ ((after calls d).party side).total.toNat

/-- While these calls are made, every count fits its counter. -/
def Fits (config : DriftConfig) (d : DriftingRing α) (calls : List (Call α)) : Prop :=
  ∀ before, before <+: calls → ∀ side, (ledger config before d).xruns side < UInt64.size ∧
    ((ledger config before d).sinceFull side).xruns side < UInt32.size

section Agreement

variable {config : DriftConfig} {null : α} {d : DriftingRing α} {calls : List (Call α)}

theorem Fits.mono {before : List (Call α)} (h : Fits config d calls) (hpart : before <+: calls) :
    Fits config d before :=
  fun earlier hearlier => h earlier (hearlier.trans hpart)

theorem ledger_append_singleton (config : DriftConfig) (calls : List (Call α)) (c : Call α)
    (d : DriftingRing α) :
    ledger config (calls ++ [c]) d =
      History.judge exceeds config (c.act (after calls d)) (ledger config calls d) ::
        ledger config calls d := by
  unfold ledger
  rw [acts_append_singleton]
  rfl

theorem length_ledger (config : DriftConfig) (calls : List (Call α)) (d : DriftingRing α) :
    (ledger config calls d).length = calls.length :=
  (History.length_ofActs exceeds config (acts calls d)).trans (length_acts calls d)

/-- One more call is judged alike if the counts that are held against the limits fit. -/
theorem ledger_append_of_eq {c : Call α} (hsame : ledger config calls d = history config calls d)
    (hfits : ∀ side, succession config (calls ++ [c]) d side < UInt32.size) :
    ledger config (calls ++ [c]) d = history config (calls ++ [c]) d := by
  have hplaced : ∀ side, History.xruns side (History.sinceFull side
      (History.place (c.act (after calls d)) (history config calls d) ::
        history config calls d)) < UInt32.size := by
    intro side
    have hcount := hfits side
    unfold succession at hcount
    rwa [history_append_singleton, xruns_sinceFull_judge] at hcount
  rw [ledger_append_singleton, history_append_singleton, hsame]
  simp only [History.mark, History.judge, wordExceeds_eq (hplaced _)]

/-- The count after one more call is the same however the call is judged. -/
theorem succession_append_of_eq {c : Call α}
    (hsame : ledger config calls d = history config calls d) (side : Side) :
    ((ledger config (calls ++ [c]) d).sinceFull side).xruns side =
      succession config (calls ++ [c]) d side := by
  unfold succession
  rw [ledger_append_singleton, history_append_singleton, xruns_sinceFull_judge,
    xruns_sinceFull_judge, hsame]

/-- By induction over the calls: the ledger and the history are the same as long as, where they
were so far, the counts in succession fit after one more call. -/
theorem ledger_eq_history_of (hfits : ∀ before c, before ++ [c] <+: calls →
      ledger config before d = history config before d →
      ∀ side, succession config (before ++ [c]) d side < UInt32.size) :
    ledger config calls d = history config calls d := by
  induction calls using List.reverseRecOn with
  | nil => rfl
  | append_singleton calls c ih =>
    have hbefore := ih fun before c' hpart =>
      hfits before c' (hpart.trans (List.prefix_append ..))
    exact ledger_append_of_eq hbefore (hfits calls c (List.prefix_refl _) hbefore)

theorem ledger_eq_history
    (hfits : ∀ before, before <+: calls → ∀ side, succession config before d side < UInt32.size) :
    ledger config calls d = history config calls d :=
  ledger_eq_history_of fun _ _ hpart _ => hfits _ hpart

theorem Fits.ledger_eq_history (h : Fits config d calls) :
    ledger config calls d = history config calls d := by
  refine ledger_eq_history_of fun before c hpart hsame side => ?_
  rw [← succession_append_of_eq hsame]
  exact (h _ hpart side).2

/-- As long as its counts fit, a ring keeps the ledger. -/
theorem Fits.countsCalls [Memory] (h : Fits config d calls) (hmake : make config null = .ok d) :
    CountsCalls config d calls := by
  have hwords := countsInWords hmake calls
  have hsame := h.ledger_eq_history
  have hordered := fun side => History.xruns_ordered side (ledger config calls d)
  have htotal : ∀ side, ((after calls d).party side).total.toNat =
      (ledger config calls d).xruns side := fun side => by
    rw [hwords.total, ← hsame]
    exact UInt64.toNat_ofNat_of_lt' (h calls (List.prefix_refl _) side).1
  have hsince : ∀ side, ((after calls d).party side).sinceStart.toNat =
      (ledger config calls d).sinceStart.xruns side := fun side => by
    rw [hwords.sinceStart, ← hsame]
    exact UInt64.toNat_ofNat_of_lt'
      (Nat.lt_of_le_of_lt (hordered side).2.1 (h calls (List.prefix_refl _) side).1)
  have hrow : ∀ side, ((after calls d).party side).inSuccession.toNat =
      ((ledger config calls d).sinceFull side).xruns side := fun side => by
    rw [hwords.inSuccession, ← hsame]
    exact UInt32.toNat_ofNat_of_lt' (h calls (List.prefix_refl _) side).2
  refine
    { running := by rw [hwords.running, hsame]
      total := htotal
      sinceStart := hsince
      inSuccession := hrow
      xruns := ?_
      stops := ?_
      leaves := ?_
      ordered := fun side => by
        rw [htotal, hsince, hrow]
        exact ⟨(hordered side).1, (hordered side).2.1⟩ }
  · rintro before c rfl side
    rw [hsame, (h.mono (List.prefix_append ..)).ledger_eq_history]
    exact (countsInWords hmake before).xruns c side
  · rintro before c rfl
    have hfits := fun side => (h _ (List.prefix_refl _) side).2
    rw [(countsInWords hmake before).stops c, hsame,
      (h.mono (List.prefix_append ..)).ledger_eq_history]
    rw [hsame] at hfits
    simp only [UInt32.lt_iff_toNat_lt, UInt32.toNat_ofNat_of_lt' (hfits _)]
  · rintro before c rfl hruns
    rw [after_append]
    exact (countsInWords hmake before).leaves c hruns

end Agreement

/-! ## Limits below the largest -/

/-- The limit of a party is never the largest word there is. -/
def BelowLargest (config : DriftConfig) (calls : List (Call α)) (side : Side) : Prop :=
  (config.xrunLimit side).toNat + 1 < UInt32.size ∧
    ∀ limit, Call.setLimit side limit ∈ calls → limit.toNat + 1 < UInt32.size

section Limits

variable {config : DriftConfig} {calls : List (Call α)} {side : Side}

theorem BelowLargest.mono {before : List (Call α)} (h : BelowLargest config calls side)
    (hpart : before <+: calls) : BelowLargest config before side :=
  ⟨h.1, fun limit hlimit => h.2 limit (hpart.subset hlimit)⟩

theorem BelowLargest.limit_lt (h : BelowLargest config calls side) (d : DriftingRing α) :
    ((history config calls d).limit config side).toNat + 1 < UInt32.size := by
  induction calls using List.reverseRecOn with
  | nil => exact h.1
  | append_singleton calls c ih =>
    have hbefore := ih (h.mono (List.prefix_append ..))
    rw [history_append_singleton, History.limit_cons]
    cases c with
    | write data => exact hbefore
    | read n => exact hbefore
    | stop => exact hbefore
    | setLimit of limit =>
      show (Option.getD (if of = side then some limit else none) _).toNat + 1 < _
      split
      · next hof =>
        subst hof
        exact h.2 limit (List.mem_append_right _ List.mem_cons_self)
      · exact hbefore

/-- A party comes to the largest word only under a limit as large. -/
theorem BelowLargest.not_fills (h : BelowLargest config calls side) (d : DriftingRing α) :
    ¬ Fills config d calls side := by
  rintro ⟨before, c, hpart, hfills⟩
  have hlimit := (h.mono ((List.prefix_append before [c]).trans hpart)).limit_lt d
  exact absurd hfills.allowed (Nat.ne_of_lt hlimit)

end Limits

/-! ## The largest limit -/

section Largest

variable {config : DriftConfig} {null : α} {d : DriftingRing α} {side : Side} {first c : Call α}

/-- What comes first of one call and many of another. -/
theorem prefix_cons_replicate {before : List (Call α)} {n : Nat}
    (h : before <+: first :: List.replicate n c) :
    before = [] ∨ ∃ k, k ≤ n ∧ before = first :: List.replicate k c := by
  rcases List.prefix_cons_iff.1 h with rfl | ⟨rest, rfl, hrest⟩
  · exact .inl rfl
  · obtain ⟨hle, hrest⟩ := List.prefix_replicate_iff.1 hrest
    exact .inr ⟨rest.length, hle, by rw [← hrest]⟩

theorem belowLargest_cons_replicate {of : Side} (hfirst : first.party? = some side.other)
    (hc : c.party? = some side) (hlimit : (config.xrunLimit of).toNat + 1 < UInt32.size) (n : Nat) :
    BelowLargest config (first :: List.replicate n c) of := by
  refine ⟨hlimit, fun limit hmem => ?_⟩
  rcases List.mem_cons.1 hmem with rfl | hmem
  · cases hfirst
  · rw [← List.eq_of_mem_replicate hmem] at hc
    cases hc

/-- One party calls once and then the other one asks for more than the ring can hold, as often as a
counter can say and once more, under the largest limit. All these calls are xruns in succession. -/
theorem ledger_greedy [Memory] (hmake : make config null = .ok d)
    (hfirst : first.party? = some side.other) (hc : c.party? = some side)
    (hasks : config.maxFillCount < c.asked)
    (hlimit : (config.xrunLimit side).toNat + 1 = UInt32.size)
    (hother : (config.xrunLimit side.other).toNat + 1 < UInt32.size) {n : Nat}
    (hn : n ≤ UInt32.size) :
    ((ledger config (first :: List.replicate n c) d).sinceFull side).xruns side = n := by
  have hgreedy := fun k => (succession_greedy hmake side hfirst hc hasks hlimit k).1
  -- while the counts fit, the ledger is the history
  have hkept : ∀ k, k < UInt32.size → ledger config (first :: List.replicate k c) d =
      history config (first :: List.replicate k c) d := by
    intro k hk
    refine ledger_eq_history fun before hpart of => ?_
    rcases prefix_cons_replicate hpart with rfl | ⟨earlier, hearlier, rfl⟩
    · exact (succession_lt_of_not_fills fun h => absurd h.le_length (by simp [UInt32.size])).1
    · have hof : of = side ∨ of = side.other := by cases of <;> cases side <;> simp [Side.other]
      rcases hof with rfl | rfl
      · rw [hgreedy]
        exact Nat.lt_of_le_of_lt hearlier hk
      · exact (succession_lt_of_not_fills
          ((belowLargest_cons_replicate hfirst hc hother earlier).not_fills d)).1
  cases n with
  | zero =>
    rw [hkept 0 (by decide)]
    exact hgreedy 0
  | succ k =>
    have hcalls : first :: List.replicate (k + 1) c = first :: List.replicate k c ++ [c] := by
      rw [List.cons_append, ← List.replicate_succ']
    rw [hcalls, succession_append_of_eq (hkept k hn), ← hcalls]
    exact hgreedy (k + 1)

end Largest

/-! ## The whole run -/

section Whole

variable {config : DriftConfig} {null : α} {d : DriftingRing α} {calls : List (Call α)}

/-- A ring that keeps the ledger shows that the counts fit. -/
theorem fits_of_countsCalls
    (hcounts : ∀ before, before <+: calls → CountsCalls config d before) :
    Fits config d calls := by
  intro before hpart side
  have hbefore := hcounts before hpart
  rw [← hbefore.total, ← hbefore.inSuccession]
  exact ⟨UInt64.toNat_lt_size _, UInt32.toNat_lt_size _⟩

/-- Fewer calls than a long counter can count all fit, unless a party comes to the largest word. -/
theorem fits_of_not_fills (hfew : calls.length < UInt64.size)
    (hnot : ∀ side, ¬ Fills config d calls side) : Fits config d calls := by
  intro before hpart side
  have hrow : ∀ earlier, earlier <+: before → ∀ side,
      succession config earlier d side < UInt32.size := fun earlier hearlier side =>
    (succession_lt_of_not_fills fun h => hnot side (h.mono (hearlier.trans hpart))).1
  rw [ledger_eq_history hrow]
  refine ⟨?_, hrow before (List.prefix_refl _) side⟩
  have hcounted := (History.xruns_ordered side (history config before d)).2.2
  rw [length_history] at hcounted
  exact Nat.lt_of_le_of_lt (hcounted.trans hpart.length_le) hfew

/-- As few calls as a shorter counter can count all fit. -/
theorem fits_of_length_lt (hfew : calls.length < UInt32.size) : Fits config d calls := by
  intro before hpart side
  have hordered := History.xruns_ordered side (ledger config before d)
  rw [length_ledger] at hordered
  have hle := hpart.length_le
  have hsize : UInt32.size < UInt64.size := by decide
  omega

/-- The ledger of a drifting ring. After every one of some calls on a new ring its flags, its
counters and its stops are what the calls say, if and only if every count fits its counter. The
counts of fewer than two to the 64th calls fit, unless a party comes to as many xruns in succession
as the shorter counter can say, under the limit of as many; that takes two to the 32nd calls. So
they all fit where no limit is as large. -/
theorem counts_ledger [Memory] (hmake : make config null = .ok d) (calls : List (Call α)) :
    ((∀ before, before <+: calls → CountsCalls config d before) ↔ Fits config d calls) ∧
      (¬ Fits config d calls → UInt64.size ≤ calls.length ∨
        UInt32.size ≤ calls.length ∧ ∃ side, Fills config d calls side) ∧
      (calls.length < UInt64.size → (∀ side, BelowLargest config calls side) →
        Fits config d calls) := by
  refine ⟨⟨fits_of_countsCalls, ?_⟩, ?_, ?_⟩
  · intro hfits before hpart
    exact (hfits.mono hpart).countsCalls hmake
  · intro hnot
    rcases Nat.lt_or_ge calls.length UInt64.size with hfew | hmany
    · refine .inr ⟨Nat.le_of_not_lt fun hless => hnot (fits_of_length_lt hless), ?_⟩
      by_contra hnone
      exact hnot (fits_of_not_fills hfew fun side hfills => hnone ⟨side, hfills⟩)
    · exact .inl hmany
  · intro hfew hbelow
    exact fits_of_not_fills hfew fun side => (hbelow side).not_fills d

/-- A reader with a new limit has five xruns since the start, of which three are in succession, and
stops the ring with the last. -/
theorem counts_ledger_reader_stops :
    let config : DriftConfig := { desiredFillCount := 1, maxFillCount := 2, maxReaderXruns := 1 }
    let d : DriftingRing Nat := .ofRing config 0 ⟨#[0, 0, 0], 0, 0⟩
    let before : List (Call Nat) :=
      [.write [], .read 2, .setLimit .reader 2, .read 2, .write [1], .read 0, .read 3, .read 1]
    make config 0 = .ok d ∧ CountsCalls config d (before ++ [.read 4]) ∧
      (ledger config (before ++ [.read 4]) d).xruns .reader = 5 ∧
      ((ledger config (before ++ [.read 4]) d).sinceFull .reader).xruns .reader = 3 ∧
      LogEvent.driftStopped ∈ ((Call.read 4).run (after before d)).log := by
  intro config d before
  have hmake : make config 0 = .ok d := rfl
  obtain ⟨hexact, hexcept, -⟩ := counts_ledger hmake (before ++ [.read 4])
  have hfits : Fits config d (before ++ [.read 4]) := by
    by_contra hnot
    rcases hexcept hnot with hmany | ⟨hmany, -⟩
    · simp [before, UInt64.size] at hmany
    · simp [before, UInt32.size] at hmany
  have hcounts := hexact.2 hfits _ (List.prefix_refl _)
  refine ⟨hmake, hcounts, by decide, by decide, (hcounts.stops before (.read 4) rfl).2 ?_⟩
  exact .inr ⟨.reader, rfl, by decide, by decide, by decide⟩

/-- A reader with the largest limit asks two to the 32nd times for an element of a ring that holds
nothing. The last xrun is one too many, and the ring ought to stop in it. It runs on, and its
counter says that there was no xrun. -/
theorem leaves_ledger :
    let config : DriftConfig :=
      { minFillCount := 0, desiredFillCount := 0, maxFillCount := 0, maxReaderXruns := 4294967295 }
    let d : DriftingRing Nat := .ofRing config 0 ⟨#[0], 0, 0⟩
    let calls : List (Call Nat) := .write [] :: List.replicate 4294967296 (.read 1)
    make config 0 = .ok d ∧
      config.maxReaderXruns.toNat < ((ledger config calls d).sinceFull .reader).xruns .reader ∧
      ((after calls d).party .reader).inSuccession = 0 ∧ (after calls d).isRunning = true ∧
      ¬ CountsCalls config d calls := by
  intro config d calls
  have hmake : make config 0 = .ok d := rfl
  have hlast := @ledger_greedy Nat config 0 d .reader (.write []) (.read 1) _ hmake rfl rfl
    Nat.zero_lt_one rfl (by decide) 4294967296 (Nat.le_refl UInt32.size)
  obtain ⟨-, hreported, -, hruns⟩ := @succession_greedy Nat config 0 d _ hmake .reader (.write [])
    (.read 1) rfl rfl Nat.zero_lt_one rfl 4294967296
  rw [inSuccession_stats] at hreported
  refine ⟨hmake, ?_, hreported, hruns.2 (Nat.succ_pos _), fun hcounts => ?_⟩
  · rw [hlast]
    decide
  · have hsame := hcounts.inSuccession .reader
    rw [hreported, hlast] at hsame
    exact absurd hsame (by decide)

end Whole

end BlockFlow.DriftingRing
