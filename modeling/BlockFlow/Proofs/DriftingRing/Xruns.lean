import BlockFlow.Proofs.DriftingRing.Parties
import BlockFlow.Proofs.DriftingRing.Stream
import Mathlib.Data.List.Basic

/-!
# Xruns over the history of a drifting ring

What the flags and counters of a drifting ring say follows from the calls that were made on it and
from how much each of them transferred. `History.mark` judges a call by the calls before it: whether
it is the first of its party since the last stop, whether the ring runs in it and whether the ring
stops in it. The counters are then counts of xruns: in the whole history, since the last first call,
and since the last transfer in full after that. Counters are words, which hold a count as long as it
fits, and the ring judges by what its counters hold (`countsInWords`).

One call keeps this (`Tracks.run`), so calls made one after the other do (`Tracks.of_make`). While
the ring runs, one more call keeps a count in succession below the largest word, unless the limit is
the largest word itself (`succession_lt_mark`).
-/

set_option autoImplicit false

namespace BlockFlow

universe u

variable {α : Type u}

namespace DriftingRing

/-! ## What a history tells -/

/-- A call as far as the counters are concerned. -/
inductive Act where
  /-- A party asks for so many elements, of which a running ring transfers so many. -/
  | transfer (side : Side) (asked moved : Nat)
  | stop
  | setLimit (side : Side) (limit : UInt32)
  deriving DecidableEq, Repr

namespace Act

/-- Whether a party asks for a transfer. -/
def isBy (side : Side) : Act → Bool
  | transfer of _ _ => of == side
  | stop => false
  | setLimit _ _ => false

/-- Whether fewer elements are transferred than asked. -/
def isShort : Act → Bool
  | transfer _ asked moved => moved < asked
  | stop => false
  | setLimit _ _ => false

/-- The limit that is set for a party. -/
def limit? (side : Side) : Act → Option UInt32
  | transfer _ _ _ => none
  | stop => none
  | setLimit of limit => if of = side then some limit else none

end Act

/-- Whether a number of xruns is more than a limit allows. -/
def exceeds (limit : UInt32) (count : Nat) : Bool := limit.toNat < count

/-- Whether it is more by a counter of as many bits as the limit has. -/
def wordExceeds (limit : UInt32) (count : Nat) : Bool := limit < .ofNat count

/-- A counter is right about every number that fits it. -/
theorem wordExceeds_eq {count : Nat} (hfits : count < UInt32.size) (limit : UInt32) :
    wordExceeds limit count = exceeds limit count := by
  rw [wordExceeds, exceeds, decide_eq_decide, UInt32.lt_iff_toNat_lt,
    UInt32.toNat_ofNat_of_lt' hfits]

/-- A call in its history. -/
structure Mark where
  act : Act
  /-- It is the first call of its party since the last stop. -/
  first : Bool
  /-- The ring runs in it. -/
  ran : Bool
  /-- The ring stops in it. -/
  stops : Bool
  deriving DecidableEq, Repr

namespace Mark

/-- A running call of a party that transfers fewer elements than asked. -/
def xrun (side : Side) (m : Mark) : Bool := m.ran && m.act.isBy side && m.act.isShort

/-- A running call of a party that transfers all that is asked, if only nothing. -/
def full (side : Side) (m : Mark) : Bool := m.ran && m.act.isBy side && !m.act.isShort

end Mark

/-- The calls made on a ring, the latest first. -/
abbrev History := List Mark

namespace History

/-- The calls since the last stop. -/
def sinceStop (h : History) : History := h.takeWhile (!·.stops)

/-- Whether a party has called since the last stop. -/
def called (side : Side) (h : History) : Bool := (sinceStop h).any (·.act.isBy side)

/-- The calls from the last one on that was the first of its party since a stop. -/
def sinceStart (h : History) : History := h.take (h.findIdx (·.first) + 1)

/-- The calls from that one on, and after the last transfer in full of a party. -/
def sinceFull (side : Side) (h : History) : History := (sinceStart h).takeWhile (!·.full side)

/-- The xruns of a party. -/
def xruns (side : Side) (h : History) : Nat := h.countP (·.xrun side)

/-- The limit in force for a party: the last one set, or the one in the settings. -/
def limit (config : DriftConfig) (side : Side) (h : History) : UInt32 :=
  (h.findSome? (·.act.limit? side)).getD (config.xrunLimit side)

/-- A call after the calls in `h`, but for the question whether it stops the ring. -/
def place (a : Act) (h : History) : Mark where
  act := a
  first := [Side.writer, .reader].any fun side => a.isBy side && !called side h
  ran := [Side.writer, .reader].all fun side => a.isBy side || called side h
  stops := false

/-- A call after the calls in `h`. The ring stops if it is told to, or in an xrun with which its
party has had too many in succession. -/
def judge (beyond : UInt32 → Nat → Bool) (config : DriftConfig) (a : Act) (h : History) : Mark :=
  { place a h with
    stops := a = .stop || [Side.writer, .reader].any fun side =>
      (place a h).xrun side &&
        beyond (limit config side h) (xruns side (sinceFull side (place a h :: h))) }

/-- A call after the calls in `h`, judged by counters. -/
abbrev mark (config : DriftConfig) (a : Act) (h : History) : Mark := judge wordExceeds config a h

/-- The history that acts make, the latest first. -/
def ofActs (beyond : UInt32 → Nat → Bool) (config : DriftConfig) : List Act → History
  | [] => []
  | a :: acts => judge beyond config a (ofActs beyond config acts) :: ofActs beyond config acts

/-! ## One more call -/

section Cons

variable (side : Side) (m : Mark) (h : History)

theorem called_cons : called side (m :: h) = (!m.stops && (m.act.isBy side || called side h)) := by
  unfold called sinceStop
  rw [List.takeWhile_cons]
  cases m.stops <;> simp

theorem xruns_cons : xruns side (m :: h) = xruns side h + if m.xrun side then 1 else 0 :=
  List.countP_cons ..

theorem sinceStart_cons : sinceStart (m :: h) = m :: if m.first then [] else sinceStart h := by
  unfold sinceStart
  rw [List.findIdx_cons]
  cases m.first <;> simp

theorem xruns_sinceStart_cons : xruns side (sinceStart (m :: h)) =
    (if m.first then 0 else xruns side (sinceStart h)) + if m.xrun side then 1 else 0 := by
  rw [sinceStart_cons, xruns_cons]
  cases m.first <;> rfl

theorem xruns_sinceFull_cons : xruns side (sinceFull side (m :: h)) =
    if m.full side then 0
    else (if m.first then 0 else xruns side (sinceFull side h)) + if m.xrun side then 1 else 0 := by
  unfold sinceFull
  rw [sinceStart_cons, List.takeWhile_cons]
  cases m.full side with
  | true => rfl
  | false =>
    simp only [Bool.not_false, if_true, Bool.false_eq_true, if_false, xruns_cons]
    cases m.first <;> rfl

/-- A count in succession begins anew with a call, or goes on with it. -/
theorem xruns_sinceFull_cons_or : xruns side (sinceFull side (m :: h)) ≤ 1 ∨
    m.first = false ∧ xruns side (sinceFull side (m :: h)) =
      xruns side (sinceFull side h) + if m.xrun side then 1 else 0 := by
  rw [xruns_sinceFull_cons]
  cases m.full side <;> cases m.first <;> cases m.xrun side <;> simp

theorem limit_cons (config : DriftConfig) :
    limit config side (m :: h) = (m.act.limit? side).getD (limit config side h) := by
  unfold limit
  rw [List.findSome?_cons]
  cases m.act.limit? side <;> rfl

/-- Later beginnings leave fewer xruns to count. -/
theorem xruns_ordered : xruns side (sinceFull side h) ≤ xruns side (sinceStart h) ∧
    xruns side (sinceStart h) ≤ xruns side h ∧ xruns side h ≤ h.length :=
  ⟨(List.takeWhile_sublist _).countP_le, (List.take_sublist ..).countP_le, List.countP_le_length⟩

end Cons

end History

/-! ## The history of calls on a ring -/

/-- A call as far as the counters are concerned. -/
def Call.act : Call α → DriftingRing α → Act
  | .write data, d => .transfer .writer data.length ((Call.write data).moved d)
  | .read n, d => .transfer .reader n ((Call.read n).moved d)
  | .stop, _ => .stop
  | .setLimit side limit, _ => .setLimit side limit

theorem Call.act_of_party? {c : Call α} {side : Side} (hc : c.party? = some side)
    (d : DriftingRing α) : c.act d = .transfer side c.asked (c.moved d) := by
  cases c with
  | write data =>
    cases hc
    rfl
  | read n =>
    cases hc
    rfl
  | stop => cases hc
  | setLimit of limit => cases hc

/-- What some calls made one after the other are to the counters, the latest first. -/
def acts : List (Call α) → DriftingRing α → List Act
  | [], _ => []
  | c :: cs, d => acts cs (c.run d).after ++ [c.act d]

/-- The history of some calls made one after the other, as the counters of the ring make it. -/
def history (config : DriftConfig) (calls : List (Call α)) (d : DriftingRing α) : History :=
  .ofActs wordExceeds config (acts calls d)

theorem acts_append_singleton (calls : List (Call α)) (c : Call α) (d : DriftingRing α) :
    acts (calls ++ [c]) d = c.act (after calls d) :: acts calls d := by
  induction calls generalizing d with
  | nil => rfl
  | cons c' calls ih =>
    show acts (calls ++ [c]) (c'.run d).after ++ [c'.act d] = _
    rw [ih]
    rfl

theorem history_append_singleton (config : DriftConfig) (calls : List (Call α)) (c : Call α)
    (d : DriftingRing α) :
    history config (calls ++ [c]) d =
      History.mark config (c.act (after calls d)) (history config calls d) ::
        history config calls d := by
  unfold history
  rw [acts_append_singleton]
  rfl

theorem History.length_ofActs (beyond : UInt32 → Nat → Bool) (config : DriftConfig)
    (acts : List Act) : (ofActs beyond config acts).length = acts.length := by
  induction acts with
  | nil => rfl
  | cons a acts ih => rw [ofActs, List.length_cons, List.length_cons, ih]

theorem length_acts (calls : List (Call α)) (d : DriftingRing α) :
    (acts calls d).length = calls.length := by
  induction calls generalizing d with
  | nil => rfl
  | cons c calls ih =>
    rw [acts, List.length_append, List.length_singleton, ih, List.length_cons]

theorem length_history (config : DriftConfig) (calls : List (Call α)) (d : DriftingRing α) :
    (history config calls d).length = calls.length :=
  (History.length_ofActs wordExceeds config (acts calls d)).trans (length_acts calls d)

/-! ## The ring keeps track of the history -/

/-- The flags, limits and counters of a ring are those of a history. -/
structure Tracks (config : DriftConfig) (h : History) (d : DriftingRing α) : Prop where
  started : ∀ s, (d.party s).started = h.called s
  limit : ∀ s, (d.party s).limit = h.limit config s
  total : ∀ s, (d.party s).total = .ofNat (h.xruns s)
  sinceStart : ∀ s, (d.party s).sinceStart = .ofNat (h.sinceStart.xruns s)
  inSuccession : ∀ s, (d.party s).inSuccession = .ofNat ((h.sinceFull s).xruns s)

theorem tracks_ofRing (config : DriftConfig) (null : α) (ring : Ring α) :
    Tracks config [] (ofRing config null ring) where
  started s := by cases s <;> rfl
  limit s := limit_ofRing config null ring s
  total s := by cases s <;> rfl
  sinceStart s := by cases s <;> rfl
  inSuccession s := by cases s <;> rfl

section Step

variable {config : DriftConfig} {null : α} {h : History} {d : DriftingRing α} {side : Side}

theorem first_place_transfer (side : Side) (asked moved : Nat) (h : History) :
    (History.place (.transfer side asked moved) h).first = !h.called side := by
  cases side <;> simp [History.place, Act.isBy]

/-- The ring runs in a call if its party has entered and the other one has called. -/
theorem Tracks.ran_place (ht : Tracks config h d) (side : Side) (asked moved : Nat) :
    (History.place (.transfer side asked moved) h).ran = (d.enter side).1.isRunning := by
  have hstarted := started_enter d side
  have hw := hstarted .writer
  have hr := hstarted .reader
  rw [ht.started] at hw hr
  show _ = (((d.enter side).1.party .writer).started && ((d.enter side).1.party .reader).started)
  rw [hw, hr]
  cases side <;> simp [History.place, Act.isBy]

/-- What either party has counted when a party has entered. -/
theorem Tracks.counts_enter (ht : Tracks config h d) (side s : Side) :
    ((d.enter side).1.party s).total = .ofNat (h.xruns s) ∧
      ((d.enter side).1.party s).sinceStart =
        .ofNat (if h.called side then h.sinceStart.xruns s else 0) ∧
      ((d.enter side).1.party s).inSuccession =
        .ofNat (if h.called side then (h.sinceFull s).xruns s else 0) := by
  rw [party_enter, ht.started side]
  cases h.called side with
  | true => exact ⟨ht.total s, ht.sinceStart s, ht.inSuccession s⟩
  | false => exact ⟨ht.total s, rfl, rfl⟩

/-- What a call of a party is in its history. -/
theorem Tracks.place_of_party? (ht : Tracks config h d) {c : Call α} (hc : c.party? = some side)
    (s : Side) :
    let m := History.place (c.act d) h
    m.first = (!h.called side) ∧ m.ran = (c.entered d).isRunning ∧
      m.xrun s = c.isXrun d side s ∧ m.full s = c.isFull d side s := by
  intro m
  have hran : m.ran = (c.entered d).isRunning := by
    rw [Call.entered_of_party? hc, ← ht.ran_place side c.asked (c.moved d),
      ← Call.act_of_party? hc]
  have hact : m.act = .transfer side c.asked (c.moved d) := Call.act_of_party? hc d
  have hby : m.act.isBy s = decide (s = side) := by
    rw [hact]
    cases s <;> cases side <;> rfl
  have hshort : m.act.isShort = c.short d := by
    rw [hact]
    rfl
  refine ⟨?_, hran, ?_, ?_⟩
  · show (History.place (c.act d) h).first = _
    rw [Call.act_of_party? hc, first_place_transfer]
  · rw [Mark.xrun, hran, hby, hshort, Call.isXrun]
  · rw [Mark.full, hran, hby, hshort, Call.isFull]

/-- The ring stops in a call exactly if it runs and the call is one xrun too many. -/
theorem Tracks.stops_mark (ht : Tracks config h d) {c : Call α} (hc : c.party? = some side) :
    (History.mark config (c.act d) h).stops = c.stopsShort d side := by
  have hplace := ht.place_of_party? hc
  have hnot : (c.act d = .stop) = False := by
    rw [Call.act_of_party? hc]
    simp
  have hown : (History.mark config (c.act d) h).stops =
      ((History.place (c.act d) h).xrun side && wordExceeds (h.limit config side)
        (History.xruns side (History.sinceFull side (History.place (c.act d) h :: h)))) := by
    have hother : (History.place (c.act d) h).xrun side.other = false := by
      rw [(hplace side.other).2.2.1, Call.isXrun]
      cases side <;> simp [Side.other]
    simp only [History.judge, hnot, decide_false, Bool.false_or]
    cases side <;> simp_all [Side.other]
  obtain ⟨hfirst, -, hxrun, hfull⟩ := hplace side
  rw [hown, hxrun, Call.isXrun, Call.stopsShort, stopsCounting, decide_eq_true rfl, Bool.and_true]
  cases hruns : (c.entered d).isRunning with
  | false => rfl
  | true =>
    cases hshort : c.short d with
    | false => rfl
    | true =>
      -- the call is an xrun, with which its party has one more in succession
      have hcount : History.xruns side (History.sinceFull side (History.place (c.act d) h :: h)) =
          (if h.called side then (h.sinceFull side).xruns side else 0) + 1 := by
        rw [History.xruns_sinceFull_cons, hfull, hxrun, hfirst, Call.isFull, Call.isXrun, hruns,
          hshort]
        cases h.called side <;> simp
      rw [hcount, Bool.true_and, Bool.true_and, Bool.true_and, Call.entered_of_party? hc]
      rw [Party.overLimit_xrun, limit_enter, ht.limit, (ht.counts_enter side side).2.2,
        wordExceeds, UInt32.ofNat_add]
      rfl

/-- A call that asks for no transfer adds nothing to any count. -/
theorem counts_mark_of_isBy_eq_false (config : DriftConfig) (h : History) {a : Act}
    (ha : ∀ s, a.isBy s = false) (s : Side) :
    let h' : History := History.mark config a h :: h
    h'.xruns s = h.xruns s ∧ h'.sinceStart.xruns s = h.sinceStart.xruns s ∧
      (h'.sinceFull s).xruns s = (h.sinceFull s).xruns s ∧
      (History.mark config a h).stops = decide (a = .stop) := by
  have hfirst : (History.mark config a h).first = false := by
    simp [History.judge, History.place, ha]
  have hxrun : ∀ s, (History.place a h).xrun s = false := fun s => by
    simp [Mark.xrun, History.place, ha]
  have hxrun' : (History.mark config a h).xrun s = false := hxrun s
  have hfull : (History.mark config a h).full s = false := by
    simp [Mark.full, History.judge, History.place, ha]
  refine ⟨?_, ?_, ?_, ?_⟩
  · simp [History.xruns_cons, hxrun']
  · simp [History.xruns_sinceStart_cons, hfirst, hxrun']
  · simp [History.xruns_sinceFull_cons, hfirst, hxrun', hfull]
  · simp [History.judge, hxrun]

theorem Tracks.run_stop (ht : Tracks config h d) :
    Tracks config (History.mark config .stop h :: h) d.stop := by
  have hnone : ∀ s, Act.stop.isBy s = false := fun _ => rfl
  have hcounts := counts_mark_of_isBy_eq_false config h hnone
  constructor <;> intro s <;> rw [party_stop]
  · rw [History.called_cons, (hcounts s).2.2.2]
    rfl
  · rw [History.limit_cons]
    exact ht.limit s
  · rw [(hcounts s).1]
    exact ht.total s
  · rw [(hcounts s).2.1]
    exact ht.sinceStart s
  · rw [(hcounts s).2.2.1]
    exact ht.inSuccession s

theorem Tracks.run_setLimit (ht : Tracks config h d) (side : Side) (limit : UInt32) :
    Tracks config (History.mark config (.setLimit side limit) h :: h) (d.setLimit side limit) := by
  have hnone : ∀ s, (Act.setLimit side limit).isBy s = false := fun _ => rfl
  have hcounts := counts_mark_of_isBy_eq_false config h hnone
  have hparty : ∀ s, (d.setLimit side limit).party s =
      { d.party s with limit := if side = s then limit else (d.party s).limit } := fun s => by
    rw [setLimit, party_updateParty]
    cases s <;> cases side <;> rfl
  constructor <;> intro s <;> rw [hparty]
  · rw [History.called_cons, (hcounts s).2.2.2]
    exact ht.started s
  · rw [History.limit_cons]
    show (if side = s then limit else (d.party s).limit) =
      (if side = s then some limit else none).getD _
    rw [ht.limit]
    split <;> rfl
  · rw [(hcounts s).1]
    exact ht.total s
  · rw [(hcounts s).2.1]
    exact ht.sinceStart s
  · rw [(hcounts s).2.2.1]
    exact ht.inSuccession s

/-- A transfer is counted by its party as its history says. -/
theorem Tracks.run_transfer (hd : Sound config null d) (ht : Tracks config h d) {c : Call α}
    (hc : c.party? = some side) :
    Tracks config (History.mark config (c.act d) h :: h) (c.run d).after := by
  have hentered := Call.entered_of_party? hc d
  have hplace := ht.place_of_party? hc
  have hcalled : ∀ s, ((c.act d).isBy s || h.called s) = ((c.entered d).party s).started := by
    intro s
    rw [hentered, started_enter, ht.started, Call.act_of_party? hc]
    cases s <;> cases side <;> rfl
  constructor <;> intro s <;>
    obtain ⟨hstarted, hlimit, htotal, hsince, hrow⟩ := hd.counters_run hc s <;>
    obtain ⟨hfirst, -, hxrun, hfull⟩ := hplace s <;>
    obtain ⟨htotal', hsince', hrow'⟩ := ht.counts_enter side s
  · rw [hstarted, History.called_cons, ht.stops_mark hc, Bool.and_comm, ← hcalled]
    rfl
  · rw [hlimit, History.limit_cons, hentered, limit_enter, ht.limit, Call.act_of_party? hc]
    rfl
  · rw [htotal, hentered, htotal', History.xruns_cons]
    show _ = UInt64.ofNat (_ + if (History.place (c.act d) h).xrun s then 1 else 0)
    rw [hxrun]
    cases c.isXrun d side s <;> simp
  · rw [hsince, hentered, hsince', History.xruns_sinceStart_cons]
    show _ = UInt64.ofNat ((if (History.place (c.act d) h).first then 0 else _) +
      if (History.place (c.act d) h).xrun s then 1 else 0)
    rw [hxrun, hfirst]
    cases h.called side <;> cases c.isXrun d side s <;> simp
  · rw [hrow, hentered, hrow', History.xruns_sinceFull_cons]
    show _ = UInt32.ofNat (if (History.place (c.act d) h).full s then 0
      else (if (History.place (c.act d) h).first then 0 else _) +
        if (History.place (c.act d) h).xrun s then 1 else 0)
    rw [hxrun, hfirst, hfull]
    cases h.called side <;> cases c.isXrun d side s <;> cases c.isFull d side s <;> simp

/-- Everything that a ring keeps about its parties follows its history through one more call. -/
theorem Tracks.run (hd : Sound config null d) (ht : Tracks config h d) (c : Call α) :
    Tracks config (History.mark config (c.act d) h :: h) (c.run d).after := by
  cases hc : c.party? with
  | some side => exact ht.run_transfer hd hc
  | none =>
    cases c with
    | write data => cases hc
    | read n => cases hc
    | stop => exact ht.run_stop
    | setLimit side limit => exact ht.run_setLimit side limit

/-- A new ring has no history, and the ring keeps track of the one that calls make. -/
theorem Tracks.of_make [Memory] {d : DriftingRing α} (hmake : make config null = .ok d)
    (calls : List (Call α)) : Tracks config (history config calls d) (after calls d) := by
  induction calls using List.reverseRecOn with
  | nil =>
    obtain ⟨-, ring, -, rfl⟩ := make_eq_ok hmake
    exact tracks_ofRing config null ring
  | append_singleton calls c ih =>
    rw [history_append_singleton, after_append]
    exact ih.run ((Sound.of_make hmake).1.after calls) c

end Step

/-! ## Counts that fit their words -/

section Mark

variable {config : DriftConfig} {h : History} {a : Act}

/-- A call other than a first one finds the ring running only if both parties have called. -/
theorem called_of_first_eq_false (hfirst : (History.mark config a h).first = false)
    (hran : ∀ side, (a.isBy side || h.called side) = true) (side : Side) :
    h.called side = true := by
  have hown : (a.isBy side && !h.called side) = false := by
    have hboth : (History.place a h).first = false := hfirst
    simp only [History.place, List.any_cons, List.any_nil, Bool.or_false,
      Bool.or_eq_false_iff] at hboth
    cases side with
    | writer => exact hboth.1
    | reader => exact hboth.2
  have hone := hran side
  revert hown hone
  cases a.isBy side <;> cases h.called side <;> simp

theorem ran_of_xrun {side : Side} (hxrun : (History.mark config a h).xrun side = true) (s : Side) :
    (a.isBy s || h.called s) = true := by
  have hran : (History.place a h).ran = true := by
    simp only [Mark.xrun, Bool.and_eq_true] at hxrun
    exact hxrun.1.1
  simp only [History.place, List.all_cons, List.all_nil, Bool.and_true, Bool.and_eq_true] at hran
  cases s with
  | writer => exact hran.1
  | reader => exact hran.2

/-- Whether the ring stops in a call has no part in the count that is held against the limit. -/
theorem xruns_sinceFull_judge (beyond : UInt32 → Nat → Bool) (side : Side) :
    History.xruns side (History.sinceFull side (History.judge beyond config a h :: h)) =
      History.xruns side (History.sinceFull side (History.place a h :: h)) := by
  rw [History.xruns_sinceFull_cons, History.xruns_sinceFull_cons]
  rfl

/-- The ring survives an xrun only within the limit. -/
theorem not_wordExceeds_of_stops_eq_false {side : Side}
    (hgoes : (History.mark config a h).stops = false)
    (hxrun : (History.mark config a h).xrun side = true) :
    wordExceeds (h.limit config side)
      (History.xruns side (History.sinceFull side (History.mark config a h :: h))) = false := by
  have hplace : (History.place a h).xrun side = true := hxrun
  simp only [History.judge, Bool.or_eq_false_iff, List.any_cons, List.any_nil] at hgoes
  rw [xruns_sinceFull_judge]
  cases side with
  | writer => simpa [hplace] using hgoes.2.1
  | reader => simpa [hplace] using hgoes.2.2.1

/-- The ring runs after a call if it survived it, and each party made the call or had called. -/
theorem called_of_called_cons
    (hcalled : ∀ side, History.called side (History.mark config a h :: h) = true) :
    (History.mark config a h).stops = false ∧ ∀ side, (a.isBy side || h.called side) = true := by
  have hone : ∀ side, (!(History.mark config a h).stops && (a.isBy side || h.called side)) = true :=
    fun side => (History.called_cons side (History.mark config a h) h).symm.trans (hcalled side)
  simp only [Bool.and_eq_true, Bool.not_eq_true'] at hone
  exact ⟨(hone .writer).1, fun side => (hone side).2⟩

/-- After a call a party has had as many xruns in succession as its counter can say, one more than
before it. It takes the largest limit for the ring to survive that. -/
structure FillsCounter (config : DriftConfig) (side : Side) (before after : History) : Prop where
  counts : (after.sinceFull side).xruns side = (before.sinceFull side).xruns side + 1
  largest : (after.sinceFull side).xruns side + 1 = UInt32.size
  allowed : (before.limit config side).toNat + 1 = UInt32.size

/-- One more call keeps the count in succession of a party within its word. While the ring runs the
count is even below the largest word, since the ring survives no xrun beyond a limit, unless the
limit is the largest word itself. -/
theorem succession_lt_mark {s : Side} (hlt : (h.sinceFull s).xruns s < UInt32.size)
    (hruns : (∀ side, h.called side = true) → (h.sinceFull s).xruns s + 1 < UInt32.size) :
    let h' : History := History.mark config a h :: h
    (h'.sinceFull s).xruns s < UInt32.size ∧
      ((∀ side, h'.called side = true) →
        (h'.sinceFull s).xruns s + 1 < UInt32.size ∨ FillsCounter config s h h') := by
  intro h'
  have hsize : UInt32.size = 4294967296 := rfl
  have hcount : (h'.sinceFull s).xruns s ≤ 1 ∨ (History.mark config a h).first = false ∧
      (h'.sinceFull s).xruns s =
        (h.sinceFull s).xruns s + if (History.mark config a h).xrun s then 1 else 0 :=
    History.xruns_sinceFull_cons_or s (History.mark config a h) h
  rcases hcount with hnew | ⟨hfirst, hcount⟩
  · exact ⟨by omega, fun _ => .inl (by omega)⟩
  cases hxrun : (History.mark config a h).xrun s with
  | false =>
    have hsame : (h'.sinceFull s).xruns s = (h.sinceFull s).xruns s := by simp [hcount, hxrun]
    refine ⟨hsame ▸ hlt, fun hcalled => .inl (hsame ▸ hruns ?_)⟩
    exact called_of_first_eq_false hfirst (called_of_called_cons hcalled).2
  | true =>
    have hmore : (h'.sinceFull s).xruns s = (h.sinceFull s).xruns s + 1 := by
      simp [hcount, hxrun]
    have hfits : (h'.sinceFull s).xruns s < UInt32.size :=
      hmore ▸ hruns (called_of_first_eq_false hfirst (ran_of_xrun hxrun))
    refine ⟨hfits, fun hcalled => ?_⟩
    have hwithin := not_wordExceeds_of_stops_eq_false (called_of_called_cons hcalled).1 hxrun
    simp only [wordExceeds, decide_eq_false_iff_not, UInt32.lt_iff_toNat_lt] at hwithin
    rw [UInt32.toNat_ofNat_of_lt' hfits] at hwithin
    have hlimit := (h.limit config s).toNat_lt_size
    by_cases hlargest : (h'.sinceFull s).xruns s + 1 = UInt32.size
    · exact .inr ⟨hmore, hlargest, by omega⟩
    · exact .inl (by omega)

end Mark

/-! ## What the counters say -/

/-- What the flags and counters of a ring say after some calls on a new ring `d`, in terms of these
calls as the counters judge them. All numbers are those that are left in words. -/
structure CountsInWords (config : DriftConfig) (d : DriftingRing α) (calls : List (Call α)) :
    Prop where
  /-- The ring runs if both parties have called since the last stop. -/
  running : (after calls d).isRunning = true ↔
    ∀ side, ∃ m ∈ (history config calls d).sinceStop, m.act.isBy side = true
  total : ∀ side, ((after calls d).party side).total = .ofNat ((history config calls d).xruns side)
  sinceStart : ∀ side, ((after calls d).party side).sinceStart =
    .ofNat ((history config calls d).sinceStart.xruns side)
  inSuccession : ∀ side, ((after calls d).party side).inSuccession =
    .ofNat (((history config calls d).sinceFull side).xruns side)
  /-- The ring stops in a call that tells it to, and in an xrun of a party that then has had more in
  succession than the limit in force. -/
  stops : ∀ c : Call α, LogEvent.driftStopped ∈ (c.run (after calls d)).log ↔
    c = .stop ∨ ∃ side, c.party? = some side ∧ (c.entered (after calls d)).isRunning = true ∧
      c.moved (after calls d) < c.asked ∧
      (history config calls d).limit config side <
        .ofNat (((history config (calls ++ [c]) d).sinceFull side).xruns side)
  /-- A ring that runs in a call is stopped after it exactly if it stops in it. -/
  leaves : ∀ c : Call α, (c.entered (after calls d)).isRunning = true →
    ((c.run (after calls d)).after.isRunning = false ↔
      LogEvent.driftStopped ∈ (c.run (after calls d)).log)
  /-- A call is an xrun of its party if the ring runs in it and transfers less than asked. -/
  xruns : ∀ (c : Call α) (side : Side), (history config (calls ++ [c]) d).xruns side =
    (history config calls d).xruns side + if c.party? = some side ∧
      (c.entered (after calls d)).isRunning = true ∧ c.moved (after calls d) < c.asked then 1 else 0

section Account

variable {config : DriftConfig} {null : α} {d : DriftingRing α}

/-- A ring runs if both parties have called since the last stop. -/
theorem Tracks.isRunning_iff {h : History} (ht : Tracks config h d) :
    d.isRunning = true ↔ ∀ side, ∃ m ∈ h.sinceStop, m.act.isBy side = true := by
  rw [DriftingRing.isRunning_iff]
  simp only [ht.started, History.called, List.any_eq_true]

/-- The limit that a call has to respect, and the count that it is held against. -/
theorem Tracks.stopsShort_iff {h h' : History} (hd : Sound config null d) (ht : Tracks config h d)
    {c : Call α} (ht' : Tracks config h' (c.run d).after) {side : Side}
    (hc : c.party? = some side) :
    c.stopsShort d side = true ↔ (c.entered d).isRunning = true ∧ c.moved d < c.asked ∧
      h.limit config side < .ofNat ((h'.sinceFull side).xruns side) := by
  have hcount := (hd.counters_run hc side).2.2.2.2
  rw [ht'.inSuccession] at hcount
  simp only [Call.stopsShort, stopsCounting, Party.overLimit_xrun, Bool.and_eq_true]
  refine and_congr_right fun hruns => ?_
  rw [show c.short d = decide (c.moved d < c.asked) from rfl, decide_eq_true_iff]
  refine and_congr_right fun hshort => ?_
  have hxrun : c.isXrun d side side = true ∧ c.isFull d side side = false := by
    simp [Call.isXrun, Call.isFull, hruns, Call.short, hshort]
  rw [hcount, hxrun.1, hxrun.2, decide_eq_true_iff, Call.entered_of_party? hc, limit_enter,
    ht.limit]
  rfl

/-- The ring stops in a call that tells it to, and in an xrun of a party that then has had more in
succession than the limit in force. -/
theorem Tracks.driftStopped_iff {h h' : History} (hd : Sound config null d)
    (ht : Tracks config h d) {c : Call α} (ht' : Tracks config h' (c.run d).after) :
    LogEvent.driftStopped ∈ (c.run d).log ↔
      c = .stop ∨ ∃ side, c.party? = some side ∧ (c.entered d).isRunning = true ∧
        c.moved d < c.asked ∧ h.limit config side < .ofNat ((h'.sinceFull side).xruns side) := by
  cases hc : c.party? with
  | some side =>
    rw [hd.driftStopped_mem_log hc, ht.stopsShort_iff hd ht' hc]
    constructor
    · exact fun h => .inr ⟨side, rfl, h⟩
    · rintro (rfl | ⟨_, hs, h⟩)
      · cases hc
      · cases hs
        exact h
  | none =>
    cases c with
    | write data => cases hc
    | read n => cases hc
    | stop => exact ⟨fun _ => .inl rfl, fun _ => List.mem_cons_self⟩
    | setLimit side limit =>
      constructor
      · exact fun h => nomatch h
      · rintro (h | ⟨_, h, -⟩) <;> cases h

/-- A call is an xrun of its party if the ring runs in it and transfers less than asked. -/
theorem Tracks.xruns_mark {h : History} (ht : Tracks config h d) (c : Call α) (side : Side) :
    History.xruns side (History.mark config (c.act d) h :: h) =
      h.xruns side + if c.party? = some side ∧ (c.entered d).isRunning = true ∧
        c.moved d < c.asked then 1 else 0 := by
  cases hc : c.party? with
  | some of =>
    have hxrun : (History.mark config (c.act d) h).xrun side = c.isXrun d of side :=
      (ht.place_of_party? hc side).2.2.1
    rw [History.xruns_cons, hxrun]
    simp only [Call.isXrun, Call.short, Bool.and_eq_true, decide_eq_true_iff, Option.some.injEq,
      and_assoc, and_left_comm, eq_comm (a := of)]
  | none =>
    rw [if_neg (by simp), Nat.add_zero]
    refine (counts_mark_of_isBy_eq_false config h (fun side => ?_) side).1
    cases c with
    | write data => cases hc
    | read n => cases hc
    | stop => rfl
    | setLimit of limit => rfl

/-- The flags and counters of a drifting ring, and when it stops, are what its history says,
whatever calls were made. -/
theorem countsInWords [Memory] (hmake : make config null = .ok d) (calls : List (Call α)) :
    CountsInWords config d calls := by
  have hd := (Sound.of_make hmake).1.after calls
  have ht := Tracks.of_make hmake calls
  refine
    { running := ht.isRunning_iff
      total := ht.total
      sinceStart := ht.sinceStart
      inSuccession := ht.inSuccession
      stops := fun c => ?_
      leaves := fun c => hd.isRunning_run
      xruns := fun c side => by
        rw [history_append_singleton, ht.xruns_mark] }
  have ht' := Tracks.of_make hmake (calls ++ [c])
  rw [after_append] at ht'
  exact ht.driftStopped_iff hd ht'

end Account

end DriftingRing

end BlockFlow
