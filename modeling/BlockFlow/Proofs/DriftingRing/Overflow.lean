import BlockFlow.Proofs.DriftingRing.Level
import BlockFlow.Proofs.DriftingRing.Xruns

/-!
# Xruns in succession that no counter holds

The count of xruns in succession is a word, and what keeps it from growing too large is that the
ring stops when it exceeds the limit of its party. The largest limit is exceeded by no word. So with
each party the count is exact, and compared exactly with the limit, unless the party comes to the
largest count of all under the largest limit of all (`exact_or_filled`). Under that limit no xrun
stops the ring: a party that asks for more than the ring can hold has any number of xruns in
succession (`succession_greedy`), and its counter starts over (`counter_starts_over`).
-/

set_option autoImplicit false

namespace BlockFlow

universe u

variable {α : Type u}

/-- The xruns in succession that are reported of a party. -/
def XrunStats.inSuccession (s : XrunStats) : Side → UInt32
  | .writer => s.writerInSuccession
  | .reader => s.readerInSuccession

namespace DriftingRing

theorem inSuccession_stats (d : DriftingRing α) (side : Side) :
    d.stats.inSuccession side = (d.party side).inSuccession := by
  cases side <;> rfl

/-- How many xruns in succession a party has had after some calls. -/
def succession (config : DriftConfig) (calls : List (Call α)) (d : DriftingRing α) (side : Side) :
    Nat :=
  ((history config calls d).sinceFull side).xruns side

/-! ## Counts that are exact -/

section Exact

variable {config : DriftConfig} {null : α} {d : DriftingRing α} {calls : List (Call α)}
  {side : Side}

/-- While these calls are made, the count in succession of a party is reported as it is, and it is
this count that is held against the limit. -/
structure CountsExactly (config : DriftConfig) (d : DriftingRing α) (calls : List (Call α))
    (side : Side) : Prop where
  reported : ∀ before, before <+: calls →
    ((after before d).stats.inSuccession side).toNat = succession config before d side
  stops : ∀ before c, before ++ [c] <+: calls → c.party? = some side →
    (LogEvent.driftStopped ∈ (c.run (after before d)).log ↔
      (c.entered (after before d)).isRunning = true ∧ c.moved (after before d) < c.asked ∧
        ((after before d).party side).limit.toNat < succession config (before ++ [c]) d side)

/-- While these calls are made, a party comes to the largest count that a word holds. -/
def Fills (config : DriftConfig) (d : DriftingRing α) (calls : List (Call α)) (side : Side) :
    Prop :=
  ∃ before c, before ++ [c] <+: calls ∧
    FillsCounter config side (history config before d) (history config (before ++ [c]) d)

theorem Fills.mono {before : List (Call α)} (h : Fills config d before side)
    (hpart : before <+: calls) : Fills config d calls side := by
  obtain ⟨earlier, c, hearlier, hfills⟩ := h
  exact ⟨earlier, c, hearlier.trans hpart, hfills⟩

/-- It takes as many calls. -/
theorem Fills.le_length (h : Fills config d calls side) : UInt32.size ≤ calls.length + 1 := by
  obtain ⟨before, c, hpart, hfills⟩ := h
  have hlength := hpart.length_le
  have hcounted := History.xruns_ordered side (history config (before ++ [c]) d)
  rw [length_history] at hcounted
  have hlargest := hfills.largest
  omega

/-- By induction over the calls: as long as a party does not come to the largest count, its count
fits its word, and is below the largest word while the ring runs. -/
theorem succession_lt_of_not_fills (hnot : ¬ Fills config d calls side) :
    succession config calls d side < UInt32.size ∧
      ((∀ s, (history config calls d).called s = true) →
        succession config calls d side + 1 < UInt32.size) := by
  induction calls using List.reverseRecOn with
  | nil => exact ⟨by simp [succession, history, acts, History.ofActs, History.sinceFull,
      History.sinceStart, History.xruns], fun h => nomatch h .writer⟩
  | append_singleton calls c ih =>
    have hbefore := ih fun h => hnot (h.mono (List.prefix_append ..))
    unfold succession at hbefore ⊢
    have hmark := @succession_lt_mark config (history config calls d) (c.act (after calls d)) side
      hbefore.1 hbefore.2
    rw [← history_append_singleton] at hmark
    refine ⟨hmark.1, fun hcalled => (hmark.2 hcalled).resolve_right fun hfills => ?_⟩
    exact hnot ⟨calls, c, List.prefix_refl _, hfills⟩

theorem countsExactly_of_not_fills [Memory] (hmake : make config null = .ok d)
    (hnot : ¬ Fills config d calls side) : CountsExactly config d calls side where
  reported := by
    intro before hpart
    have hfits := (succession_lt_of_not_fills fun h => hnot (h.mono hpart)).1
    rw [inSuccession_stats, (Tracks.of_make hmake before).inSuccession]
    exact UInt32.toNat_ofNat_of_lt' hfits
  stops := by
    intro before c hpart hc
    have hfits := (succession_lt_of_not_fills fun h => hnot (h.mono hpart)).1
    have ht := Tracks.of_make hmake before
    have ht' := Tracks.of_make hmake (before ++ [c])
    have hd := (Sound.of_make hmake).1.after before
    unfold succession at hfits ⊢
    rw [after_append] at ht'
    rw [hd.driftStopped_mem_log hc, ht.stopsShort_iff hd ht' hc, UInt32.lt_iff_toNat_lt,
      UInt32.toNat_ofNat_of_lt' hfits, ht.limit]

end Exact

/-! ## The largest limit -/

section Largest

variable {config : DriftConfig} {null : α} {d : DriftingRing α} {side : Side}

/-- No word is larger than the largest. -/
theorem not_lt_of_largest {limit : UInt32} (hlimit : limit.toNat + 1 = UInt32.size)
    (count : UInt32) : ¬ limit < count := by
  have hcount := count.toNat_lt_size
  rw [UInt32.lt_iff_toNat_lt]
  omega

/-- A call of a party with the largest limit never stops the ring. -/
theorem not_stops_of_largest [Memory] (hmake : make config null = .ok d) (calls : List (Call α))
    {c : Call α} (hc : c.party? = some side)
    (hlimit : ((after calls d).party side).limit.toNat + 1 = UInt32.size) :
    LogEvent.driftStopped ∉ (c.run (after calls d)).log := by
  have ht := Tracks.of_make hmake calls
  have ht' := Tracks.of_make hmake (calls ++ [c])
  have hd := (Sound.of_make hmake).1.after calls
  rw [after_append] at ht'
  rw [hd.driftStopped_mem_log hc, ht.stopsShort_iff hd ht' hc, ← ht.limit]
  exact fun h => not_lt_of_largest hlimit _ h.2.2

/-- A running ring transfers no more than it can hold. -/
theorem Leveled.moved_le (hd : Leveled config null d) {c : Call α} (hc : c.party? = some side)
    (hruns : (c.entered d).isRunning = true) : c.moved d ≤ config.maxFillCount := by
  have hbounded := (hd.entered c).bounded
  cases c with
  | write data =>
    have hspace : (Call.write data).moved d ≤ ((Call.write data).entered d).availableSpace := by
      simp [Call.moved, Call.accepted]
    exact hspace.trans (hbounded.fill_add_space ▸ Nat.le_add_left ..)
  | read n =>
    have hmoved : (Call.read n).moved d = ((Call.read n : Call α).entered d).delivery n :=
      (hd.delivered_read rfl hruns n).2
    rw [hmoved]
    exact (min_le_left ..).trans ((Nat.sub_le ..).trans hbounded.le_max)
  | stop => cases hc
  | setLimit of limit => cases hc

/-- A party asks for more than the ring can hold, under the largest limit, after the other one has
called: that is one more xrun in succession, and the ring runs on. -/
theorem succession_append_greedy [Memory] (hmake : make config null = .ok d) {calls : List (Call α)}
    {c : Call α} (hc : c.party? = some side) (hasks : config.maxFillCount < c.asked)
    (hother : (history config calls d).called side.other = true)
    (hlimit : ((history config calls d).limit config side).toNat + 1 = UInt32.size) :
    (∀ s, (history config (calls ++ [c]) d).called s = true) ∧
      (history config (calls ++ [c]) d).limit config side =
        (history config calls d).limit config side ∧
      succession config (calls ++ [c]) d side =
        (if (history config calls d).called side then succession config calls d side else 0) +
          1 := by
  have hd := (Leveled.of_make hmake).after calls
  have ht := Tracks.of_make hmake calls
  have hact := Call.act_of_party? hc (after calls d)
  have hcalls : ∀ s, ((c.act (after calls d)).isBy s || (history config calls d).called s) =
      true := by
    intro s
    rw [hact]
    cases s <;> cases side <;> simp_all [Act.isBy, Side.other]
  have hruns : (c.entered (after calls d)).isRunning = true := by
    rw [isRunning_iff, Call.entered_of_party? hc]
    intro s
    rw [started_enter, ht.started, ← hcalls s, hact]
    cases s <;> cases side <;> rfl
  have hshort : c.short (after calls d) = true :=
    decide_eq_true (Nat.lt_of_le_of_lt (hd.moved_le hc hruns) hasks)
  have hstops : (History.mark config (c.act (after calls d)) (history config calls d)).stops =
      false := by
    have hgoes := not_stops_of_largest hmake calls hc (by rwa [ht.limit])
    rw [hd.driftStopped_mem_log hc] at hgoes
    rw [ht.stops_mark hc]
    exact Bool.eq_false_iff.2 hgoes
  obtain ⟨hfirst, -, hxrun, hfull⟩ := ht.place_of_party? hc side
  rw [Call.isXrun, hruns, hshort, decide_eq_true rfl] at hxrun
  rw [Call.isFull, hruns, hshort, decide_eq_true rfl] at hfull
  unfold succession
  rw [history_append_singleton]
  refine ⟨fun s => ?_, ?_, ?_⟩
  · rw [History.called_cons, hstops]
    exact hcalls s
  · rw [History.limit_cons]
    show (Option.getD ((c.act (after calls d)).limit? side) _) = _
    rw [hact]
    rfl
  · rw [History.xruns_sinceFull_cons]
    show (if (History.place (c.act (after calls d)) (history config calls d)).full side then 0
      else
        (if (History.place (c.act (after calls d)) (history config calls d)).first then 0 else _) +
          if (History.place (c.act (after calls d)) (history config calls d)).xrun side then 1
          else 0) = _
    rw [hxrun, hfull, hfirst]
    cases (history config calls d).called side <;> rfl

/-- A new ring does not run yet in the first call. -/
theorem history_first_call (config : DriftConfig) (d : DriftingRing α) {c : Call α}
    (hc : c.party? = some side) (s : Side) :
    (history config [c] d).called s = decide (s = side) ∧
      (history config [c] d).limit config s = config.xrunLimit s ∧
      succession config [c] d s = 0 := by
  have hhistory : history config [c] d =
      [History.mark config (.transfer side c.asked (c.moved d)) []] := by
    rw [← Call.act_of_party? hc]
    rfl
  unfold succession
  rw [hhistory]
  refine ⟨?_, ?_, ?_⟩ <;> cases s <;> cases side <;> rfl

/-- One party calls once and then the other one asks any number of times for more than the ring can
hold, under the largest limit. By induction on how often it does: all these calls are xruns in
succession, and the ring runs on. The counter is the word that is left of their number. -/
theorem succession_greedy [Memory] (hmake : make config null = .ok d) (side : Side)
    {first c : Call α}
    (hfirst : first.party? = some side.other) (hc : c.party? = some side)
    (hasks : config.maxFillCount < c.asked)
    (hlimit : (config.xrunLimit side).toNat + 1 = UInt32.size) (n : Nat) :
    let calls := first :: List.replicate n c
    succession config calls d side = n ∧ (after calls d).stats.inSuccession side = .ofNat n ∧
      ((after calls d).party side).limit = config.xrunLimit side ∧
      ((after calls d).isRunning = true ↔ 0 < n) := by
  intro calls
  have hinduction : (history config calls d).called side.other = true ∧
      (history config calls d).called side = decide (0 < n) ∧
      (history config calls d).limit config side = config.xrunLimit side ∧
      succession config calls d side = n := by
    induction n with
    | zero =>
      obtain ⟨hown, hlimits, hcount⟩ := history_first_call config d hfirst side
      have hother := (history_first_call config d hfirst side.other).1
      refine ⟨hother.trans (by simp), ?_, hlimits, hcount⟩
      exact hown.trans (by cases side <;> rfl)
    | succ n ih =>
      obtain ⟨hother, hown, hlimits, hcount⟩ := ih
      obtain ⟨hcalled, hsame, hmore⟩ :=
        succession_append_greedy hmake hc hasks hother (hlimits ▸ hlimit)
      have hcalls : calls = first :: List.replicate n c ++ [c] := by
        rw [List.cons_append, ← List.replicate_succ']
      rw [hcalls]
      refine ⟨hcalled _, (hcalled _).trans (by simp), hsame.trans hlimits, ?_⟩
      rw [hmore, hown, hcount]
      cases n <;> rfl
  obtain ⟨hother, hown, hlimits, hcount⟩ := hinduction
  have ht := Tracks.of_make hmake calls
  refine ⟨hcount, ?_, (ht.limit side).trans hlimits, ?_⟩
  · rw [inSuccession_stats, ht.inSuccession]
    exact congrArg UInt32.ofNat hcount
  · rw [isRunning_iff]
    constructor
    · intro hstarted
      have hside := hstarted side
      rwa [ht.started, hown, decide_eq_true_iff] at hside
    · intro hpos s
      rw [ht.started]
      cases s <;> cases side <;> simp_all [Side.other]

end Largest

/-- With each party of a new ring the counts in succession are reported and held against the limit
as they are, whatever calls are made and whatever limits are set, unless the party has as many xruns
in succession as a word can count, one less than two to the 32nd, the last of them under the limit
of as many. It takes as many calls, and it takes this limit: under it no call of the party stops the
ring, as often as it may fail. -/
theorem exact_or_filled [Memory] {config : DriftConfig} {null : α} {d : DriftingRing α}
    (hmake : make config null = .ok d) (calls : List (Call α)) (side : Side) :
    (CountsExactly config d calls side ∨
        Fills config d calls side ∧ UInt32.size ≤ calls.length + 1) ∧
      ∀ c : Call α, c.party? = some side →
        ((after calls d).party side).limit.toNat + 1 = UInt32.size →
        LogEvent.driftStopped ∉ (c.run (after calls d)).log := by
  refine ⟨?_, fun c hc hlimit => not_stops_of_largest hmake calls hc hlimit⟩
  by_cases hfills : Fills config d calls side
  · exact .inr ⟨hfills, hfills.le_length⟩
  · exact .inl (countsExactly_of_not_fills hmake hfills)

/-- A ring that holds nothing, and a reader with the largest limit that asks three times for an
element. Its three xruns are reported, and the ring runs on, also in the fourth. -/
theorem exact_or_filled_reader :
    let config : DriftConfig :=
      { minFillCount := 0, desiredFillCount := 0, maxFillCount := 0, maxReaderXruns := 4294967295 }
    let d : DriftingRing Nat := .ofRing config 0 ⟨#[0], 0, 0⟩
    let calls : List (Call Nat) := .write [] :: List.replicate 3 (.read 1)
    make config 0 = .ok d ∧ CountsExactly config d calls .reader ∧
      succession config calls d .reader = 3 ∧ (after calls d).stats.inSuccession .reader = 3 ∧
      (after calls d).isRunning = true ∧
      ((after calls d).party .reader).limit.toNat + 1 = UInt32.size ∧
      LogEvent.driftStopped ∉ ((Call.read 1).run (after calls d)).log := by
  intro config d calls
  have hmake : make config 0 = .ok d := rfl
  obtain ⟨hexact, hgoes⟩ := exact_or_filled hmake calls .reader
  obtain ⟨hcount, hreported, hkept, hruns⟩ :=
    @succession_greedy Nat config 0 d _ hmake .reader (.write []) (.read 1) rfl rfl
      Nat.zero_lt_one rfl 3
  have hlimit : ((after calls d).party .reader).limit.toNat + 1 = UInt32.size := by
    rw [hkept]
    rfl
  have hfew : ¬ UInt32.size ≤ calls.length + 1 := by simp [calls, UInt32.size]
  exact ⟨hmake, hexact.resolve_right fun h => hfew h.2, hcount, hreported, hruns.2 (by decide),
    hlimit, hgoes (.read 1) rfl hlimit⟩

/-- After two to the 32nd such reads the counter starts over. The limit is exceeded, but the ring
still runs, and none of its xruns in succession are reported. -/
theorem counter_starts_over :
    let config : DriftConfig :=
      { minFillCount := 0, desiredFillCount := 0, maxFillCount := 0, maxReaderXruns := 4294967295 }
    let d : DriftingRing Nat := .ofRing config 0 ⟨#[0], 0, 0⟩
    let calls : List (Call Nat) := .write [] :: List.replicate 4294967296 (.read 1)
    make config 0 = .ok d ∧ calls.length < 2 ^ 63 ∧
      config.maxReaderXruns.toNat < succession config calls d .reader ∧
      (after calls d).stats.inSuccession .reader = 0 ∧ (after calls d).isRunning = true ∧
      ¬ CountsExactly config d calls .reader := by
  intro config d calls
  have hmake : make config 0 = .ok d := rfl
  have hlength : calls.length = 4294967296 + 1 := by
    rw [List.length_cons, List.length_replicate]
  obtain ⟨hcount, hreported, -, hruns⟩ :=
    @succession_greedy Nat config 0 d _ hmake .reader (.write []) (.read 1) rfl rfl
      Nat.zero_lt_one rfl 4294967296
  have hover : UInt32.ofNat 4294967296 = 0 := rfl
  rw [hover] at hreported
  refine ⟨hmake, by omega, ?_, hreported, hruns.2 (by omega), fun hexact => ?_⟩
  · rw [hcount]
    decide
  · have hsame := hexact.reported calls (List.prefix_refl calls)
    rw [hreported, hcount] at hsame
    exact absurd hsame (by decide)

end DriftingRing

end BlockFlow
