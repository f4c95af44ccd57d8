import BlockFlow.Proofs.DoubleBuffer.Config
import BlockFlow.Proofs.DoubleBuffer.Interleaving

/-!
# When the stages of a double buffer stall

Take a new double buffer with blocking FIFOs, an outer stage with any calls whose sizes fit, and an
inner stage that computes whole blocks. In whatever order the two make their transfers, nothing has
to wait for space, every call that ends returns the same samples, and the stages stall exactly at
the first call after which more input is left over than the delay (`stalled_iff_firstShort`). For
calls of one outer block each, that is when the delay is less than the minimum delay.
-/

set_option autoImplicit false

namespace BlockFlow

universe u v

variable {σ : Type v} {α : Type u}

namespace Parties

/-! ## The start -/

/-- A new double buffer on blocking FIFOs, piece by piece. -/
theorem rings_of_make [Memory] {config : DoubleBufferConfig} {fill : α}
    {db : DoubleBuffer BlockingRing α}
    (hmake : DoubleBuffer.make config fill = .ok db) :
    ∃ r r' : Ring α,
      Ring.make ((max config.outerSize config.innerSize + config.delay) * config.inputChannels)
        fill = .ok r ∧
      Ring.make ((max config.outerSize config.innerSize + config.delay) * config.outputChannels)
        fill = .ok r' ∧
      config.delay * config.outputChannels ≤ r'.availableSpace ∧
      db.input = { ring := r, readerError := none, writerError := none } ∧
      db.output =
        { ring := r'.append (List.replicate (config.delay * config.outputChannels) fill)
          readerError := none
          writerError := none } := by
  obtain ⟨size, hsize, empty, -, hinput, hempty, hpush, -, -, -⟩ := DoubleBuffer.make_eq_ok hmake
  obtain ⟨r, hr, hdb⟩ := BlockingRing.make_eq_ok hinput
  obtain ⟨r', hr', rfl⟩ := BlockingRing.make_eq_ok hempty
  have hfits := BlockingRing.le_of_tryPush_eq_done hpush
  have hdone := (BlockingRing.tryPush_of_le (Ring.Valid.of_make hr') hfits).symm.trans hpush
  rw [List.length_replicate] at hfits
  rw [DoubleBufferConfig.fifoSize_eq_ok hsize] at hr hr'
  exact ⟨r, r', hr, hr', hfits, hdb, (Attempt.done.inj hdone).symm⟩

/-- Both FIFOs of a new double buffer are new, and nobody is armed. -/
theorem ready_of_make [Memory] {config : DoubleBufferConfig} {fill : α}
    {db : DoubleBuffer BlockingRing α}
    (hmake : DoubleBuffer.make config fill = .ok db) : db.Ready := by
  obtain ⟨-, -, -, -, -, -, -, -, hinnerError, houterError⟩ := DoubleBuffer.make_eq_ok hmake
  obtain ⟨r, r', hr, hr', -, hinput, houtput⟩ := rings_of_make hmake
  refine ⟨?_, ?_, ?_, hinnerError, houterError⟩
  · rintro (_ | _)
    · show db.input.ring.Valid
      rw [hinput]
      exact Ring.Valid.of_make hr
    · show db.output.ring.Valid
      rw [houtput]
      exact (Ring.Valid.of_make hr').append _
  · rintro (_ | _)
    · show db.input.readerError = none
      rw [hinput]
    · show db.output.readerError = none
      rw [houtput]
  · rintro (_ | _)
    · show db.input.writerError = none
      rw [hinput]
    · show db.output.writerError = none
      rw [houtput]

/-- The balance of a new double buffer before the first move. -/
theorem balance_start [Memory] {config : DoubleBufferConfig} {fill : α}
    {db : DoubleBuffer BlockingRing α}
    (hmake : DoubleBuffer.make config fill = .ok db) (state : σ)
    (calls : Stream'.Seq (Pipeline.OuterCall α)) :
    Balance config calls 0 0 (start db state) := by
  obtain ⟨-, -, -, -, -, -, -, hconfig, -, -⟩ := DoubleBuffer.make_eq_ok hmake
  obtain ⟨r, r', hr, hr', hfits, hinput, houtput⟩ := rings_of_make hmake
  have hsilence : (List.replicate (config.delay * config.outputChannels) fill).length ≤
      r'.availableSpace := by
    rw [List.length_replicate]
    exact hfits
  have hinputFill : db.input.fillCount = 0 * config.inputChannels := by
    rw [hinput, Nat.zero_mul]
    exact Ring.fillCount_of_make hr
  have houtputFill : db.output.fillCount = config.delay * config.outputChannels := by
    rw [houtput]
    show (r'.append _).fillCount = _
    rw [(Ring.Valid.of_make hr').fillCount_append hsilence, Ring.fillCount_of_make hr',
      Nat.zero_add, List.length_replicate]
  refine
    { config_eq := hconfig
      ready := ready_of_make hmake
      inputCapacity := ?_
      outputCapacity := ?_
      inner := ⟨_, rfl⟩
      outer := .idle
      input := ⟨0, hinputFill, rfl⟩
      output := ⟨config.delay, houtputFill, rfl⟩
      served := fun k hk => absurd hk (Nat.not_lt_zero k)
      succeeded := nofun }
  · show db.input.capacity = _
    rw [hinput]
    exact Ring.capacity_of_make hr
  · show db.output.capacity = _
    rw [houtput]
    exact (Ring.capacity_append ..).trans (Ring.capacity_of_make hr')

/-- The sizes that a new double buffer works with. -/
theorem wellFed_of_make [Memory] {config : DoubleBufferConfig} {fill : α}
    {db : DoubleBuffer BlockingRing α}
    (hmake : DoubleBuffer.make config fill = .ok db) {f : BlockFunction σ α}
    (hf : config.Computes f) {calls : Stream'.Seq (Pipeline.OuterCall α)}
    (hcalls : ∀ k c, calls.get? k = some c → c.Fits config) : WellFed config f calls := by
  obtain ⟨-, -, -, hvalidate, -⟩ := DoubleBuffer.make_eq_ok hmake
  obtain ⟨-, hinner, hinput, houtput⟩ := DoubleBufferConfig.pos_of_validate hvalidate
  exact ⟨hcalls, hf, hinner, hinput, houtput⟩

/-! ## Every call returns the same in every order -/

section Orders

variable {config : DoubleBufferConfig} {f : BlockFunction σ α}
  {calls : Stream'.Seq (Pipeline.OuterCall α)} {stored fetched : Nat} {s s' : Parties σ α}

/-- A move between states that keep the balance. -/
def BalancedMove (config : DoubleBufferConfig) (f : BlockFunction σ α)
    (calls : Stream'.Seq (Pipeline.OuterCall α)) (s s' : Parties σ α) : Prop :=
  (∃ stored fetched, Balance config calls stored fetched s) ∧ Move f calls s s'

theorem Balance.balancedMoves (h : Balance config calls stored fetched s)
    (hfed : WellFed config f calls) (hreaches : Reaches f calls s s') :
    Relation.ReflTransGen (BalancedMove config f calls) s s' := by
  induction hreaches with
  | refl => exact .refl
  | tail hsteps hmove ih => exact ih.tail ⟨h.reaches hfed hsteps, hmove⟩

/-- Two moves from one state are the same, or the stages can make up for each with the other. -/
theorem BalancedMove.diamond (hfed : WellFed config f calls) {s₁ s₂ : Parties σ α}
    (h₁ : BalancedMove config f calls s s₁) (h₂ : BalancedMove config f calls s s₂) :
    s₁ = s₂ ∨ ∃ s₃, BalancedMove config f calls s₁ s₃ ∧ BalancedMove config f calls s₂ s₃ := by
  obtain ⟨⟨stored, fetched, hbalance⟩, hmove₁⟩ := h₁
  obtain ⟨-, hmove₂⟩ := h₂
  have hbalance₁ := (hbalance.move hfed hmove₁).2
  have hbalance₂ := (hbalance.move hfed hmove₂).2
  rcases hmove₁ with houter₁ | hinner₁ <;> rcases hmove₂ with houter₂ | hinner₂
  · left
    rw [houter₁] at houter₂
    exact Option.some.inj houter₂
  · right
    obtain ⟨s₃, hinner, houter⟩ := hbalance.join hfed houter₁ hinner₂
    exact ⟨s₃, ⟨hbalance₁, .inr hinner⟩, hbalance₂, .inl houter⟩
  · right
    obtain ⟨s₃, hinner, houter⟩ := hbalance.join hfed houter₂ hinner₁
    exact ⟨s₃, ⟨hbalance₁, .inl houter⟩, hbalance₂, .inr hinner⟩
  · left
    rw [hinner₁] at hinner₂
    exact Option.some.inj hinner₂

/-- What has ended stays as it ended. -/
theorem ended_prefix_of_move (hmove : Move f calls s s') : s.ended <+: s'.ended := by
  rcases hmove with houter | hinner
  · unfold outerMove? at houter
    repeat' split at houter
    all_goals cases houter
    all_goals first | exact List.prefix_append .. | exact List.prefix_rfl
  · obtain ⟨p, -, rfl⟩ := Option.map_eq_some_iff.1 hinner
    exact List.prefix_rfl

/-- How a call ended is not forgotten. -/
theorem ended_of_balancedMoves
    (hmoves : Relation.ReflTransGen (BalancedMove config f calls) s s') {k : Nat}
    {r : Outcome × List α} (hr : s.ended[k]? = some r) : s'.ended[k]? = some r := by
  induction hmoves with
  | refl => exact hr
  | tail _ hmove ih =>
    obtain ⟨more, hmore⟩ := ended_prefix_of_move hmove.2
    obtain ⟨hlt, -⟩ := List.getElem?_eq_some_iff.1 ih
    rw [← hmore, List.getElem?_append_left hlt]
    exact ih

/-- A call that has ended in two orders of moves ended in the same way in both. -/
theorem Balance.ended_eq (h : Balance config calls stored fetched s) (hfed : WellFed config f calls)
    {s₁ s₂ : Parties σ α} (h₁ : Reaches f calls s s₁) (h₂ : Reaches f calls s s₂) {k : Nat}
    {r₁ r₂ : Outcome × List α} (hr₁ : s₁.ended[k]? = some r₁) (hr₂ : s₂.ended[k]? = some r₂) :
    r₁ = r₂ := by
  -- the diamond in the form that the Church-Rosser theorem asks for
  have hjoin : ∀ a b c : Parties σ α, BalancedMove config f calls a b →
      BalancedMove config f calls a c → ∃ d, Relation.ReflGen (BalancedMove config f calls) b d ∧
        Relation.ReflTransGen (BalancedMove config f calls) c d := by
    intro a b c hb hc
    rcases BalancedMove.diamond hfed hb hc with rfl | ⟨d, hbd, hcd⟩
    · exact ⟨b, .refl, .refl⟩
    · exact ⟨d, .single hbd, .single hcd⟩
  -- both orders lead on to a common state, which remembers both results
  obtain ⟨s₃, hs₁, hs₂⟩ :=
    Relation.church_rosser hjoin (h.balancedMoves hfed h₁) (h.balancedMoves hfed h₂)
  have hlate₁ := ended_of_balancedMoves hs₁ hr₁
  have hlate₂ := ended_of_balancedMoves hs₂ hr₂
  exact Option.some.inj (hlate₁.symm.trans hlate₂)

end Orders

/-! ## Maximal runs -/

section Runs

variable {config : DoubleBufferConfig} {f : BlockFunction σ α}
  {calls : Stream'.Seq (Pipeline.OuterCall α)} {s : Parties σ α} {run : Nat → Parties σ α}

/-- A maximal run has made a move for every step unless it has come to its end. -/
theorem Maximal.moves_eq (hrun : Maximal f calls s run) (h : Balance config calls 0 0 s)
    (hfed : WellFed config f calls) (n : Nat) :
    (run n).moves = s.moves + n ∨ ∃ m, Halted f calls (run m) := by
  induction n with
  | zero =>
    left
    rw [hrun.zero]
    rfl
  | succ n ih =>
    rcases ih with hcount | hhalted
    · rcases hrun.succ n with hmove | ⟨hhalted, -⟩
      · obtain ⟨_, _, hbalance⟩ := h.reaches hfed (hrun.reaches n)
        left
        rw [(hbalance.move hfed hmove).1, hcount]
        rfl
      · exact .inr ⟨n, hhalted⟩
    · exact .inr hhalted

/-- A maximal run ends a call more, or comes to its end. -/
theorem Maximal.progress (hrun : Maximal f calls s run) (h : Balance config calls 0 0 s)
    (hfed : WellFed config f calls) (k : Nat) :
    ∃ n, k < (run n).ended.length ∨ Halted f calls (run n) := by
  -- more moves than a state with `k` calls ended can have behind it
  obtain ⟨n, hn⟩ : ∃ n, n = 4 * k + 3 + (2 * framesUpTo calls (k + 1) + 1) + 1 := ⟨_, rfl⟩
  rcases hrun.moves_eq h hfed n with hcount | ⟨m, hhalted⟩
  · refine ⟨n, .inl ?_⟩
    apply Nat.lt_of_not_le
    intro hle
    obtain ⟨_, _, hbalance⟩ := h.reaches hfed (hrun.reaches n)
    -- with at most `k` calls ended there cannot have been that many moves
    have hmoves := hbalance.moves_le hfed.innerSize
    have hmono := framesUpTo_mono calls (Nat.add_le_add_right hle 1)
    omega
  · exact ⟨m, .inr hhalted⟩

/-- The next state when the outer stage goes first. -/
def next (f : BlockFunction σ α) (calls : Stream'.Seq (Pipeline.OuterCall α)) (s : Parties σ α) :
    Parties σ α :=
  ((s.outerMove? calls).orElse fun _ => s.innerMove? f).getD s

/-- There is a maximal run from every state. -/
theorem exists_maximal (f : BlockFunction σ α) (calls : Stream'.Seq (Pipeline.OuterCall α))
    (s : Parties σ α) : ∃ run, Maximal f calls s run := by
  refine ⟨fun n => (next f calls)^[n] s, rfl, fun n => ?_⟩
  have hnext : (next f calls)^[n + 1] s = next f calls ((next f calls)^[n] s) :=
    Function.iterate_succ_apply' ..
  rw [hnext]
  cases houter : outerMove? calls ((next f calls)^[n] s) with
  | some s' =>
    left
    left
    rw [next, houter]
    rfl
  | none =>
    cases hinner : innerMove? f ((next f calls)^[n] s) with
    | some s' =>
      left
      right
      rw [next, houter, hinner]
      rfl
    | none =>
      right
      refine ⟨⟨houter, hinner⟩, ?_⟩
      rw [next, houter, hinner]
      rfl

end Runs

/-! ## Stalls -/

section Stalls

variable {config : DoubleBufferConfig} {f : BlockFunction σ α}
  {calls : Stream'.Seq (Pipeline.OuterCall α)} {s : Parties σ α} {run : Nat → Parties σ α}

/-- A run that comes to its end with calls left to make has stalled. -/
theorem Maximal.ended_or_stalled (hrun : Maximal f calls s run) (h : Balance config calls 0 0 s)
    (hfed : WellFed config f calls) {k : Nat} (hcalled : calls.get? k ≠ none) :
    ∃ n, k < (run n).ended.length ∨
      Halted f calls (run n) ∧ StalledAt config (run n).ended.length (run n) := by
  obtain ⟨n, hlt | hhalted⟩ := hrun.progress h hfed k
  · exact ⟨n, .inl hlt⟩
  · refine ⟨n, ?_⟩
    obtain ⟨_, _, hbalance⟩ := h.reaches hfed (hrun.reaches n)
    rcases hbalance.halted hfed hhalted with hover | hstalled
    · left
      apply Nat.lt_of_not_le
      intro hle
      apply hcalled
      exact calls.le_stable hle hover
    · exact .inr ⟨hhalted, hstalled⟩

theorem Maximal.stalled_iff (hrun : Maximal f calls s run) (h : Balance config calls 0 0 s)
    (hfed : WellFed config f calls) (k : Nat) :
    (∃ n, Halted f calls (run n) ∧ StalledAt config k (run n)) ↔ FirstShort config calls k := by
  constructor
  · rintro ⟨n, -, hstalled⟩
    obtain ⟨_, _, hbalance⟩ := h.reaches hfed (hrun.reaches n)
    exact hbalance.firstShort hstalled
  · intro hfirst
    obtain ⟨n, hlt | ⟨hhalted, hstalled⟩⟩ := hrun.ended_or_stalled h hfed hfirst.called
    · obtain ⟨_, _, hbalance⟩ := h.reaches hfed (hrun.reaches n)
      exact absurd (hbalance.mod_le_of_ended hlt) (Nat.not_le_of_gt hfirst.short)
    · obtain ⟨_, _, hbalance⟩ := h.reaches hfed (hrun.reaches n)
      have hother := hbalance.firstShort hstalled
      -- there is only one first call
      rcases Nat.lt_trichotomy (run n).ended.length k with hlt | heq | hgt
      · exact absurd (hfirst.first _ hlt) (Nat.not_le_of_gt hother.short)
      · exact ⟨n, hhalted, heq ▸ hstalled⟩
      · exact absurd (hother.first _ hgt) (Nat.not_le_of_gt hfirst.short)

theorem Maximal.ended_of_forall_not_firstShort (hrun : Maximal f calls s run)
    (h : Balance config calls 0 0 s) (hfed : WellFed config f calls)
    (hnone : ∀ k, ¬ FirstShort config calls k) {k : Nat} (hcalled : calls.get? k ≠ none) :
    ∃ n, k < (run n).ended.length := by
  obtain ⟨n, hlt | ⟨-, hstalled⟩⟩ := hrun.ended_or_stalled h hfed hcalled
  · exact ⟨n, hlt⟩
  · obtain ⟨_, _, hbalance⟩ := h.reaches hfed (hrun.reaches n)
    exact absurd (hbalance.firstShort hstalled) (hnone _)

/-! ## Calls of one outer block -/

theorem framesUpTo_eq_mul (houter : ∀ k c, calls.get? k = some c → c.frames = config.outerSize)
    {k : Nat} (hcalled : ∀ j < k, calls.get? j ≠ none) :
    framesUpTo calls k = k * config.outerSize := by
  induction k with
  | zero => exact (Nat.zero_mul _).symm
  | succ k ih =>
    obtain ⟨c, hcall⟩ := Option.ne_none_iff_exists'.1 (hcalled k (Nat.lt_succ_self k))
    rw [framesUpTo_succ hcall, houter k c hcall, ih fun j hj => hcalled j (Nat.lt_succ_of_lt hj),
      Nat.succ_mul]

theorem not_firstShort_of_minimumDelay_le (hinner : 0 < config.innerSize)
    (houter : ∀ k c, calls.get? k = some c → c.frames = config.outerSize)
    (hdelay : config.minimumDelay ≤ config.delay) (k : Nat) : ¬ FirstShort config calls k := by
  intro hfirst
  -- a sequence that has call `k` has all calls before it
  have hcalled : ∀ j < k + 1, calls.get? j ≠ none := by
    intro j hj hnone
    exact hfirst.called (calls.le_stable (Nat.le_of_lt_succ hj) hnone)
  have hshort := hfirst.short
  rw [framesUpTo_eq_mul houter hcalled] at hshort
  have hle := DoubleBufferConfig.mod_le_minimumDelay hinner (k + 1)
  omega

theorem exists_firstShort_of_lt_minimumDelay (hinner : 0 < config.innerSize)
    (houter : ∀ k c, calls.get? k = some c → c.frames = config.outerSize)
    (hendless : ∀ k, calls.get? k ≠ none) (hdelay : config.delay < config.minimumDelay) :
    ∃ k, FirstShort config calls k := by
  have hframes : ∀ k, framesUpTo calls k = k * config.outerSize := fun k =>
    framesUpTo_eq_mul houter fun j _ => hendless j
  obtain ⟨m, hm⟩ := DoubleBufferConfig.exists_mod_eq_minimumDelay hinner
  have hshort : ∃ k, config.delay < framesUpTo calls (k + 1) % config.innerSize := by
    -- zero outer blocks leave nothing over, so the delay would not be less
    cases m with
    | zero =>
      rw [Nat.zero_mul, Nat.zero_mod] at hm
      omega
    | succ k =>
      refine ⟨k, ?_⟩
      rw [hframes, hm]
      exact hdelay
  exact ⟨Nat.find hshort, hendless _, Nat.find_spec hshort,
    fun j hj => Nat.le_of_not_lt (Nat.find_min hshort hj)⟩

end Stalls

/-- A new double buffer on blocking FIFOs, with any calls whose sizes fit and an inner stage that
computes whole blocks. There are maximal runs, and in each of them nothing ever waits for space and
every call that ends succeeds; the stages stall with call `k` waiting for output and the inner stage
for input if and only if `k` is the first call after which more input is left over than the delay;
and if there is no such call, every call ends. A call that ends in two runs returns the same in
both. Calls of one outer block each never stall if the delay is at least the minimum delay, and an
endless sequence of them always stalls if it is less. -/
theorem stalled_iff_firstShort [Memory] {config : DoubleBufferConfig} {fill : α}
    {db : DoubleBuffer BlockingRing α} (hmake : DoubleBuffer.make config fill = .ok db)
    {f : BlockFunction σ α} (hf : config.Computes f) (state : σ)
    {calls : Stream'.Seq (Pipeline.OuterCall α)}
    (hcalls : ∀ k c, calls.get? k = some c → c.Fits config) :
    (∃ run, Maximal f calls (start db state) run) ∧
      (∀ run, Maximal f calls (start db state) run →
        (∀ n, StoresAtOnce config (run n) ∧ ∀ result ∈ (run n).ended, result.1 = .ok ()) ∧
        (∀ k, (∃ n, Halted f calls (run n) ∧ StalledAt config k (run n)) ↔
          FirstShort config calls k) ∧
        ((∀ k, ¬ FirstShort config calls k) →
          ∀ k, calls.get? k ≠ none → ∃ n, k < (run n).ended.length)) ∧
      (∀ run run', Maximal f calls (start db state) run → Maximal f calls (start db state) run' →
        ∀ (n n' k : Nat) (r r' : Outcome × List α), (run n).ended[k]? = some r →
          (run' n').ended[k]? = some r' → r = r') ∧
      ((∀ k c, calls.get? k = some c → c.frames = config.outerSize) →
        ∀ run, Maximal f calls (start db state) run →
          (config.minimumDelay ≤ config.delay → ∀ n k, ¬ StalledAt config k (run n)) ∧
          ((∀ k, calls.get? k ≠ none) → config.delay < config.minimumDelay →
            ∃ n k, Halted f calls (run n) ∧ StalledAt config k (run n))) := by
  have hfed := wellFed_of_make hmake hf hcalls
  have hstart := balance_start hmake state calls
  refine ⟨exists_maximal f calls _, ?_, ?_, ?_⟩
  · intro run hrun
    refine ⟨fun n => ?_, hrun.stalled_iff hstart hfed, fun hnone k hcalled =>
      hrun.ended_of_forall_not_firstShort hstart hfed hnone hcalled⟩
    obtain ⟨_, _, hbalance⟩ := hstart.reaches hfed (hrun.reaches n)
    exact ⟨hbalance.storesAtOnce hfed, hbalance.succeeded⟩
  · intro run run' hrun hrun' n n' k r r' hr hr'
    exact hstart.ended_eq hfed (hrun.reaches n) (hrun'.reaches n') hr hr'
  · intro houter run hrun
    refine ⟨fun hdelay n k hstalled => ?_, fun hendless hdelay => ?_⟩
    · obtain ⟨_, _, hbalance⟩ := hstart.reaches hfed (hrun.reaches n)
      exact not_firstShort_of_minimumDelay_le hfed.innerSize houter hdelay k
        (hbalance.firstShort hstalled)
    · obtain ⟨k, hfirst⟩ :=
        exists_firstShort_of_lt_minimumDelay hfed.innerSize houter hendless hdelay
      obtain ⟨n, hhalted, hstalled⟩ := (hrun.stalled_iff hstart hfed k).2 hfirst
      exact ⟨n, k, hhalted, hstalled⟩

/-- Two frames at a time through an inner stage for three, with one frame less of delay than it
takes: already the first call waits for its second frame of output. -/
theorem stalled_iff_firstShort_two_by_three :
    let config : DoubleBufferConfig := { outerSize := 2, innerSize := 3, delay := 1 }
    let db : DoubleBuffer BlockingRing Nat :=
      { config
        fifoSize := 4
        input := ⟨⟨#[0, 0, 0, 0, 0], 0, 0⟩, none, none⟩
        output := ⟨⟨#[0, 0, 0, 0, 0], 1, 0⟩, none, none⟩
        innerError := none
        outerError := none }
    let f : BlockFunction Unit Nat := fun _ block => (block, ())
    let calls : Stream'.Seq (Pipeline.OuterCall Nat) :=
      Stream'.Seq.ofStream (Stream'.const { input := [7, 8], out := [0, 0], frames := 2 })
    config.minimumDelay = 2 ∧ DoubleBuffer.make config 0 = .ok db ∧
      ∃ run, Maximal f calls (start db ()) run ∧
        ∃ n, Halted f calls (run n) ∧ StalledAt config 0 (run n) := by
  intro config db f calls
  have hmake : DoubleBuffer.make config 0 = .ok db := rfl
  have hf : config.Computes f := fun _ _ hblock => hblock.ge
  have hcalls : ∀ k c, calls.get? k = some c → c.Fits config := by
    intro k c hcall
    cases hcall
    exact ⟨le_rfl, le_rfl, le_rfl⟩
  have hfirst : FirstShort config calls 0 := ⟨nofun, by decide, nofun⟩
  obtain ⟨⟨run, hrun⟩, hall, -⟩ := stalled_iff_firstShort hmake hf () hcalls
  exact ⟨by decide, hmake, run, hrun, ((hall run hrun).2.1 0).2 hfirst⟩

end Parties

end BlockFlow
