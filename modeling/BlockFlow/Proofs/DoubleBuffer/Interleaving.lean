import BlockFlow.Proofs.DoubleBuffer.Balance

/-!
# Every order of moves

Every move keeps the balance and is counted by `Parties.moves`, which is bounded in terms of the
calls that have ended. So the two stages cannot go on forever without ending calls, and a state in
which neither of them can move has all calls behind it or an output that is not there
(`Balance.halted`). A move of one stage takes nothing from the other, so that all orders of moves
can be brought together again (`Balance.join`).
-/

set_option autoImplicit false

namespace BlockFlow

universe u v

variable {σ : Type v} {α : Type u}

/-- Moves that the outer stage has made in its present call. -/
def OuterPhase.rank : OuterPhase α → Nat
  | idle => 0
  | calling rest _ => 3 - rest.length

/-- Moves that the inner stage has made since its last delivery. -/
def InnerPhase.rank : InnerPhase α → Nat
  | supplying => 0
  | delivering _ => 1
  | ended _ => 0

namespace Parties

/-- Moves of both stages: four for each call that has ended and two for each block delivered. -/
def moves (s : Parties σ α) : Nat :=
  4 * s.ended.length + s.outer.rank + (2 * s.pipeline.delivered + s.pipeline.phase.rank)

/-- What the two stages are supposed to do: every call has sizes that fit, the inner stage computes
whole blocks, and the configuration is a validated one. -/
structure WellFed (config : DoubleBufferConfig) (f : BlockFunction σ α)
    (calls : Stream'.Seq (Pipeline.OuterCall α)) : Prop where
  calls : ∀ k c, calls.get? k = some c → c.Fits config
  computes : config.Computes f
  innerSize : 0 < config.innerSize
  inputChannels : 0 < config.inputChannels
  outputChannels : 0 < config.outputChannels

section Moves

variable {config : DoubleBufferConfig} {f : BlockFunction σ α}
  {calls : Stream'.Seq (Pipeline.OuterCall α)} {stored fetched : Nat} {s s' : Parties σ α}

/-! ## The outer stage -/

theorem Balance.count_fetch_le (h : Balance config calls stored fetched s)
    {c : Pipeline.OuterCall α} (hfits : c.Fits config) :
    DoubleBuffer.count (c.fetch config) ≤ (s.buffer.fifo (c.fetch config).lane).capacity := by
  have hframes := hfits.frames
  show c.frames * config.outputChannels ≤ s.buffer.output.capacity
  rw [h.outputCapacity]
  exact Nat.mul_le_mul_right _ (by omega)

/-- The outer stage moves, or has made all its calls, or waits for output. -/
theorem Balance.outer_cases (h : Balance config calls stored fetched s)
    (hfed : WellFed config f calls) :
    (∃ s', s.outerMove? calls = some s' ∧ s'.moves = s.moves + 1 ∧
      ∃ stored' fetched', Balance config calls stored' fetched' s') ∨
    (s.outerMove? calls = none ∧ s.outer = .idle ∧ calls.get? s.ended.length = none) ∨
    (s.outerMove? calls = none ∧ stored = s.ended.length + 1 ∧ fetched = s.ended.length ∧
      ∃ c out, calls.get? s.ended.length = some c ∧ s.outer = .calling [c.fetch config] out ∧
        ¬ s.buffer.Possible (c.fetch config)) := by
  obtain ⟨p, outer, ended⟩ := s
  have houter := h.outer
  cases houter with
  | idle =>
    -- idle: there is a next call, or the outer stage is done
    cases hcall : calls.get? ended.length with
    | none =>
      refine .inr (.inl ⟨?_, rfl, rfl⟩)
      rw [outerMove?]
      simp only [hcall]
    | some c =>
      refine .inl ⟨_, outerMove?_begin h rfl hcall (hfed.calls _ c hcall), ?_, _, _,
        h.begin hcall⟩
      exact Nat.add_right_comm _ 1 _
  | storing hcall out =>
    -- the input of a call never waits
    have hfits := hfed.calls _ _ hcall
    refine .inl ⟨_, outerMove?_of_possible h.ready rfl (h.possible_store hfits), ?_, _, _,
      h.store hcall hfits⟩
    exact Nat.add_right_comm _ 1 _
  | @fetching c hcall out =>
    -- the output of a call is the only thing that the outer stage waits for
    by_cases hpossible : p.buffer.Possible (c.fetch config)
    · refine .inl ⟨_, outerMove?_of_possible h.ready rfl hpossible, ?_, _, _,
        h.fetch hcall hfed.outputChannels hpossible⟩
      exact Nat.add_right_comm _ 1 _
    · have hcount := h.count_fetch_le (hfed.calls _ c hcall)
      exact .inr (.inr ⟨outerMove?_of_not_possible h.ready rfl hpossible hcount, rfl, rfl, c, out,
        hcall, rfl, hpossible⟩)
  | returning hcall out =>
    refine .inl ⟨_, outerMove?_return rfl, ?_, _, _, h.return⟩
    simp only [moves, List.length_append, List.length_singleton, OuterPhase.rank, List.length_nil]
    omega

/-! ## The inner stage -/

theorem Balance.count_request_le (h : Balance config calls stored fetched s) {t : Transfer α}
    (hrequest : s.pipeline.phase.request? config = some t) :
    DoubleBuffer.count t ≤ (s.buffer.fifo t.lane).capacity := by
  rcases InnerPhase.request?_eq_some hrequest with ⟨-, rfl⟩ | ⟨block, -, hlength, rfl⟩
  · show config.innerSize * config.inputChannels ≤ s.buffer.input.capacity
    rw [h.inputCapacity]
    exact Nat.mul_le_mul_right _ (by omega)
  · show (block.take (config.innerSize * config.outputChannels)).length ≤ s.buffer.output.capacity
    rw [h.outputCapacity, List.length_take_of_le hlength]
    exact Nat.mul_le_mul_right _ (by omega)

/-- The inner stage moves if and only if its transfer is possible. -/
theorem Balance.inner_cases (h : Balance config calls stored fetched s) :
    ∃ t, s.pipeline.phase.request? config = some t ∧
      (s.buffer.Possible t ∧ s.innerMove? f = some (s.innerDone f t) ∨
        ¬ s.buffer.Possible t ∧ s.innerMove? f = none) := by
  obtain ⟨t, hrequest⟩ := h.inner
  have hrequest' : s.pipeline.phase.request? s.buffer.config = some t := by
    rw [h.config_eq]
    exact hrequest
  refine ⟨t, hrequest, ?_⟩
  by_cases hpossible : s.buffer.Possible t
  · exact .inl ⟨hpossible, innerMove?_of_possible h.ready hrequest' hpossible⟩
  · exact .inr ⟨hpossible, innerMove?_of_not_possible h.ready hrequest' hpossible
      (h.count_request_le hrequest)⟩

/-- The inner stage waits only for input. -/
theorem Balance.inner_waits (h : Balance config calls stored fetched s)
    (hfed : WellFed config f calls) (hnone : s.innerMove? f = none) :
    s.pipeline.phase = .supplying ∧ ¬ s.buffer.Possible config.supply := by
  obtain ⟨t, hrequest, ⟨-, hsome⟩ | ⟨hnot, -⟩⟩ := h.inner_cases (f := f)
  · rw [hsome] at hnone
    cases hnone
  · rcases InnerPhase.request?_eq_some hrequest with ⟨hphase, rfl⟩ | ⟨block, hphase, hlength, rfl⟩
    · exact ⟨hphase, hnot⟩
    -- a computed block never has to wait
    · exact absurd (h.possible_deliver hfed.calls hphase hlength) hnot

theorem Balance.inner_move (h : Balance config calls stored fetched s)
    (hfed : WellFed config f calls) (hmove : s.innerMove? f = some s') :
    s'.moves = s.moves + 1 ∧ Balance config calls stored fetched s' := by
  obtain ⟨t, hrequest, ⟨hpossible, hsome⟩ | ⟨-, hnone⟩⟩ := h.inner_cases (f := f)
  · rw [hsome] at hmove
    cases hmove
    rcases InnerPhase.request?_eq_some hrequest with ⟨hphase, rfl⟩ | ⟨block, hphase, hlength, rfl⟩
    · refine ⟨?_, h.supply hphase hfed.computes hfed.inputChannels hpossible⟩
      rw [innerDone_of_supplying hphase, moves, moves, hphase]
      rfl
    · refine ⟨?_, h.deliver hphase hlength hpossible⟩
      rw [innerDone_of_delivering hphase, moves, moves, hphase]
      show 4 * s.ended.length + s.outer.rank + (2 * (s.pipeline.delivered + 1) + 0) =
        4 * s.ended.length + s.outer.rank + (2 * s.pipeline.delivered + 1) + 1
      omega
  · rw [hnone] at hmove
    cases hmove

/-! ## Both stages -/

/-- Every move keeps the balance and counts. -/
theorem Balance.move (h : Balance config calls stored fetched s) (hfed : WellFed config f calls)
    (hmove : Move f calls s s') :
    s'.moves = s.moves + 1 ∧ ∃ stored' fetched', Balance config calls stored' fetched' s' := by
  rcases hmove with houter | hinner
  · rcases h.outer_cases hfed with ⟨s₁, hs₁, hcount, hbalance⟩ | ⟨hnone, -⟩ | ⟨hnone, -⟩
    · rw [hs₁] at houter
      cases houter
      exact ⟨hcount, hbalance⟩
    · rw [hnone] at houter
      cases houter
    · rw [hnone] at houter
      cases houter
  · obtain ⟨hcount, hbalance⟩ := h.inner_move hfed hinner
    exact ⟨hcount, stored, fetched, hbalance⟩

theorem Balance.reaches (h : Balance config calls stored fetched s) (hfed : WellFed config f calls)
    (hreaches : Reaches f calls s s') :
    ∃ stored' fetched', Balance config calls stored' fetched' s' := by
  induction hreaches with
  | refl => exact ⟨stored, fetched, h⟩
  | tail _ hmove ih =>
    obtain ⟨_, _, hbalance⟩ := ih
    exact (hbalance.move hfed hmove).2

theorem framesUpTo_mono (calls : Stream'.Seq (Pipeline.OuterCall α)) :
    Monotone (framesUpTo calls) :=
  monotone_nat_of_le_succ fun _ => Nat.le_add_right ..

/-- There are only so many moves before another call ends. -/
theorem Balance.moves_le (h : Balance config calls stored fetched s)
    (hinner : 0 < config.innerSize) :
    s.moves ≤ 4 * s.ended.length + 3 + (2 * framesUpTo calls (s.ended.length + 1) + 1) := by
  -- every delivered block is made of stored frames, and at most one call more is stored than ended
  have hstored : stored ≤ s.ended.length + 1 := by
    obtain ⟨p, outer, ended⟩ := s
    have houter := h.outer
    cases houter <;> dsimp only <;> omega
  have hmono := framesUpTo_mono calls hstored
  have hdelivered := Nat.le_mul_of_pos_left s.pipeline.delivered hinner
  obtain ⟨n, -, hn⟩ := h.input
  have houter : s.outer.rank ≤ 3 := by
    cases s.outer with
    | idle => exact Nat.zero_le _
    | calling rest out => exact Nat.sub_le ..
  have hphase : s.pipeline.phase.rank ≤ 1 := by
    cases s.pipeline.phase <;> simp [InnerPhase.rank]
  unfold moves
  omega

/-! ## When neither can move -/

/-- The outer stage waits for the output of call `k`, and the inner stage waits for input. -/
structure StalledAt (config : DoubleBufferConfig) (k : Nat) (s : Parties σ α) : Prop where
  ended : s.ended.length = k
  outer : ∃ n out, s.outer = .calling [.pull .output n] out ∧
    s.buffer.attempt out (.pull .output n) = .blocked
  inner : s.pipeline.phase = .supplying ∧ s.buffer.attempt [] config.supply = .blocked

/-- With less than an inner block of input stored and less output than a call asks for, what is
left over of the input is more than the delay. -/
theorem Balance.lt_mod_of_waiting {c : Pipeline.OuterCall α}
    (h : Balance config calls (s.ended.length + 1) s.ended.length s)
    (hcall : calls.get? s.ended.length = some c) (hphase : s.pipeline.phase = .supplying)
    (hfetch : ¬ s.buffer.Possible (c.fetch config)) (hsupply : ¬ s.buffer.Possible config.supply) :
    config.delay < framesUpTo calls (s.ended.length + 1) % config.innerSize := by
  obtain ⟨n, hinput, hn⟩ := h.input
  obtain ⟨m, houtput, hm⟩ := h.output
  -- less than a block of input is stored
  have hshort : n < config.innerSize := by
    apply Nat.lt_of_not_le
    intro hle
    apply hsupply
    exact DoubleBuffer.possible_pull_of_frames hinput hle
  -- less output is stored than the call asks for
  have hmissing : m < c.frames := by
    apply Nat.lt_of_not_le
    intro hle
    apply hfetch
    exact DoubleBuffer.possible_pull_of_frames houtput hle
  have hsum := framesUpTo_succ hcall
  rw [hphase] at hn
  simp only [InnerPhase.held] at hn
  -- so `n` is the remainder, and the missing output is what `n` exceeds the delay by
  rw [← hn, Nat.add_zero, Nat.add_mul_mod_self_left, Nat.mod_eq_of_lt hshort]
  omega

/-- A state in which neither stage can move. -/
theorem Balance.halted (h : Balance config calls stored fetched s) (hfed : WellFed config f calls)
    (hhalted : Halted f calls s) :
    calls.get? s.ended.length = none ∨ StalledAt config s.ended.length s := by
  obtain ⟨houter, hinner⟩ := hhalted
  obtain ⟨hphase, hsupply⟩ := h.inner_waits hfed hinner
  have hsupplying : s.buffer.attempt [] config.supply = .blocked := by
    refine h.ready.attempt_of_not_possible hsupply (h.count_request_le ?_) []
    rw [hphase]
    rfl
  rcases h.outer_cases hfed with
    ⟨s', hs', -⟩ | ⟨-, -, hover⟩ | ⟨-, rfl, rfl, c, out, hcall, hfetching, hfetch⟩
  · rw [houter] at hs'
    cases hs'
  · exact .inl hover
  · have hwaiting : s.buffer.attempt out (c.fetch config) = .blocked :=
      h.ready.attempt_of_not_possible hfetch (h.count_fetch_le (hfed.calls _ c hcall)) out
    exact .inr ⟨rfl, ⟨_, out, hfetching, hwaiting⟩, hphase, hsupplying⟩

/-- Neither the input of a call nor a block of output has to wait for space. -/
structure StoresAtOnce (config : DoubleBufferConfig) (s : Parties σ α) : Prop where
  outer : ∀ block rest out, s.outer = .calling (.push .input block :: rest) out →
    ∃ done, s.buffer.attempt out (.push .input block) = .done done
  inner : ∀ block, s.pipeline.phase = .delivering block →
    ∃ done, s.buffer.attempt [] (config.deliver block) = .done done

theorem Balance.storesAtOnce (h : Balance config calls stored fetched s)
    (hfed : WellFed config f calls) : StoresAtOnce config s where
  outer := by
    intro block rest out houter
    obtain ⟨p, outer, ended⟩ := s
    have hstands := h.outer
    cases hstands with
    | idle => cases houter
    | storing hcall out =>
      cases houter
      exact ⟨_, h.ready.attempt_of_possible (h.possible_store (hfed.calls _ _ hcall)) out⟩
    | fetching hcall out => cases houter
    | returning hcall out => cases houter
  inner := by
    intro block hphase
    obtain ⟨t, hrequest⟩ := h.inner
    rw [hphase] at hrequest
    obtain ⟨hlength, -⟩ := Option.ite_some_none_eq_some.1 hrequest
    exact ⟨_, h.ready.attempt_of_possible (h.possible_deliver hfed.calls hphase hlength) []⟩

/-- Call `k` is the first after which more input is left over than the delay. -/
structure FirstShort (config : DoubleBufferConfig) (calls : Stream'.Seq (Pipeline.OuterCall α))
    (k : Nat) : Prop where
  called : calls.get? k ≠ none
  short : config.delay < framesUpTo calls (k + 1) % config.innerSize
  first : ∀ j < k, framesUpTo calls (j + 1) % config.innerSize ≤ config.delay

/-- The calls that have ended had no more left over than the delay. -/
theorem Balance.mod_le_of_ended (h : Balance config calls stored fetched s) {k : Nat}
    (hk : k < s.ended.length) : framesUpTo calls (k + 1) % config.innerSize ≤ config.delay := by
  refine h.served k (Nat.lt_of_lt_of_le hk ?_)
  obtain ⟨p, outer, ended⟩ := s
  have houter := h.outer
  cases houter with
  | idle => exact le_rfl
  | storing hcall out => exact le_rfl
  | fetching hcall out => exact le_rfl
  | returning hcall out => exact Nat.le_succ _

/-- The stages stall at the first call after which more input is left over than the delay. -/
theorem Balance.firstShort (h : Balance config calls stored fetched s) {k : Nat}
    (hstalled : StalledAt config k s) : FirstShort config calls k := by
  obtain ⟨rfl, ⟨n, out, houter, hwaiting⟩, hphase, hsupplying⟩ := hstalled
  -- a transfer that waits is not possible
  have hsupply : ¬ s.buffer.Possible config.supply := by
    intro hpossible
    rw [h.ready.attempt_of_possible hpossible] at hsupplying
    cases hsupplying
  have hfetch : ¬ s.buffer.Possible (.pull .output n) := by
    intro hpossible
    rw [h.ready.attempt_of_possible hpossible] at hwaiting
    cases hwaiting
  obtain ⟨p, outer, ended⟩ := s
  have hstands := h.outer
  cases hstands with
  | idle => cases houter
  | storing hcall out => cases houter
  | fetching hcall out =>
    cases houter
    refine ⟨?_, h.lt_mod_of_waiting hcall hphase hfetch hsupply, fun j hj => h.mod_le_of_ended hj⟩
    rw [hcall]
    exact Option.some_ne_none _
  | returning hcall out => cases houter

/-! ## The moves of one stage and of the other -/

/-- The transfers of the two stages belong to different sides of the FIFOs. -/
theorem apart_request {t u : Transfer α} (ht : t.lane = .input ↔ t.side = .writer)
    (hu : s.pipeline.phase.request? config = some u) : DoubleBuffer.Apart t u := by
  -- the outer stage writes the input lane, and the inner stage reads it
  have hother : u.lane = .input ↔ u.side = .reader := by
    rcases InnerPhase.request?_eq_some hu with ⟨-, rfl⟩ | ⟨block, -, -, rfl⟩
    · exact ⟨fun _ => rfl, fun _ => rfl⟩
    · apply iff_of_false
      · intro hinput
        cases hinput
      · intro hreader
        cases hreader
  by_cases hlane : t.lane = u.lane
  · right
    intro hside
    cases hwriter : t.side with
    | writer =>
      have hreader := hother.1 (hlane ▸ ht.2 hwriter)
      rw [← hside, hwriter] at hreader
      cases hreader
    | reader =>
      have hinput := hother.2 (hside ▸ hwriter)
      rw [ht.1 (hlane.trans hinput)] at hwriter
      cases hwriter
  · exact .inl hlane

theorem apart_store {c : Pipeline.OuterCall α} {u : Transfer α}
    (hu : s.pipeline.phase.request? config = some u) :
    DoubleBuffer.Apart (c.store config) u :=
  apart_request ⟨fun _ => rfl, fun _ => rfl⟩ hu

theorem apart_fetch {c : Pipeline.OuterCall α} {u : Transfer α}
    (hu : s.pipeline.phase.request? config = some u) :
    DoubleBuffer.Apart (c.fetch config) u := by
  apply apart_request _ hu
  apply iff_of_false
  · intro hinput
    cases hinput
  · intro hwriter
    cases hwriter

/-- A transfer of the outer stage and one of the inner stage can be made in either order. -/
theorem join_transfers (hready : s.buffer.Ready) {t u : Transfer α} {ts : List (Transfer α)}
    {out : List α} (houter : s.outer = .calling (t :: ts) out) (ht : s.buffer.Possible t)
    (hrequest : s.pipeline.phase.request? s.buffer.config = some u) (hu : s.buffer.Possible u)
    (hapart : DoubleBuffer.Apart t u) :
    (s.outerDone t ts out).innerMove? f = some ((s.outerDone t ts out).innerDone f u) ∧
      (s.innerDone f u).outerMove? calls = some ((s.outerDone t ts out).innerDone f u) := by
  constructor
  · refine innerMove?_of_possible (hready.performed t) ?_ (hu.after hready ht hapart)
    rw [← DoubleBuffer.config_performed s.buffer t] at hrequest
    exact hrequest
  · rw [← innerDone_outerDone hready ht hu hapart]
    refine outerMove?_of_possible ?_ houter ?_
    · rw [buffer_innerDone]
      exact hready.performed u
    · rw [buffer_innerDone]
      exact ht.after hready hu hapart.symm

/-- A move of the outer stage and one of the inner stage can be made in either order. -/
theorem Balance.join (h : Balance config calls stored fetched s) (hfed : WellFed config f calls)
    {s₁ s₂ : Parties σ α} (houter : s.outerMove? calls = some s₁)
    (hinner : s.innerMove? f = some s₂) :
    ∃ s₃, s₁.innerMove? f = some s₃ ∧ s₂.outerMove? calls = some s₃ := by
  have hbalance := (h.inner_move hfed hinner).2
  obtain ⟨u, hrequest, ⟨hu, hsome⟩ | ⟨-, hnone⟩⟩ := h.inner_cases (f := f)
  swap
  · rw [hnone] at hinner
    cases hinner
  rw [hsome] at hinner
  cases hinner
  have hrequest' : s.pipeline.phase.request? s.buffer.config = some u := by
    rw [h.config_eq]
    exact hrequest
  obtain ⟨p, outer, ended⟩ := s
  have hstands := h.outer
  cases hstands with
  | idle =>
    cases hcall : calls.get? ended.length with
    | none =>
      rw [outerMove?] at houter
      simp only [hcall] at houter
      cases houter
    | some c =>
      have hfits := hfed.calls _ c hcall
      rw [outerMove?_begin h rfl hcall hfits] at houter
      cases houter
      exact ⟨_, innerMove?_congr hsome rfl, outerMove?_begin hbalance rfl hcall hfits⟩
  | storing hcall out =>
    have ht := h.possible_store (hfed.calls _ _ hcall)
    rw [outerMove?_of_possible h.ready rfl ht] at houter
    cases houter
    exact ⟨_, join_transfers h.ready rfl ht hrequest' hu (apart_store hrequest)⟩
  | @fetching c hcall out =>
    by_cases ht : p.buffer.Possible (c.fetch config)
    · rw [outerMove?_of_possible h.ready rfl ht] at houter
      cases houter
      exact ⟨_, join_transfers h.ready rfl ht hrequest' hu (apart_fetch hrequest)⟩
    · rw [outerMove?_of_not_possible h.ready rfl ht
        (h.count_fetch_le (hfed.calls _ c hcall))] at houter
      cases houter
  | returning hcall out =>
    rw [outerMove?_return rfl] at houter
    cases houter
    exact ⟨_, innerMove?_congr hsome rfl, outerMove?_return rfl⟩

end Moves

end Parties

end BlockFlow
