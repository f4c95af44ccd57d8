import BlockFlow.Proofs.DriftingRing.Transfer
import Mathlib.Data.List.Induction

/-!
# The stream of an episode

An episode is a stretch of calls in which a drifting ring runs. It begins with the call that sets
the second started flag and ends with the call that stops the ring. What a ring delivers in an
episode is the startup silence and then what it accepted in that same episode, in order and as far
as it has come (`conserves_stream`). Nothing is carried over from one episode to another, and
outside the episodes reads get silence.

A call on a running ring keeps the account of what is pending
(`Sound.pending_append_accepted`), and so do calls made one after the other while the ring runs
(`Sound.pending_append_acceptedBy`).
-/

set_option autoImplicit false

namespace BlockFlow.DriftingRing

universe u

variable {α : Type u}

/-! ## Calls made one after the other -/

/-- The ring after some calls. -/
def after : List (Call α) → DriftingRing α → DriftingRing α
  | [], d => d
  | c :: cs, d => after cs (c.run d).after

/-- Everything that the ring accepts from some calls, in order. -/
def acceptedBy : List (Call α) → DriftingRing α → List α
  | [], _ => []
  | c :: cs, d => c.accepted d ++ acceptedBy cs (c.run d).after

/-- Everything that the ring delivers to some calls, in order. -/
def deliveredBy : List (Call α) → DriftingRing α → List α
  | [], _ => []
  | c :: cs, d => c.delivered d ++ deliveredBy cs (c.run d).after

/-- The ring runs before each of the calls. -/
def RunsOn : List (Call α) → DriftingRing α → Prop
  | [], _ => True
  | c :: cs, d => d.isRunning = true ∧ RunsOn cs (c.run d).after

/-- The calls are an episode, as far as it has come: the first of them sets the second started
flag, and the ring runs until the last of them, which may be the one that stops it. -/
def Episode : List (Call α) → DriftingRing α → Prop
  | [], _ => False
  | c :: cs, d =>
    d.isRunning = false ∧ (c.entered d).isRunning = true ∧ RunsOn cs (c.run d).after

theorem after_append (cs cs' : List (Call α)) (d : DriftingRing α) :
    after (cs ++ cs') d = after cs' (after cs d) := by
  induction cs generalizing d with
  | nil => rfl
  | cons c cs ih => exact ih (c.run d).after

theorem runsOn_append_singleton {cs : List (Call α)} {c : Call α} {d : DriftingRing α}
    (hcs : RunsOn cs d) (hruns : (after cs d).isRunning = true) : RunsOn (cs ++ [c]) d := by
  induction cs generalizing d with
  | nil => exact ⟨hruns, trivial⟩
  | cons c' cs ih => exact ⟨hcs.1, ih hcs.2 hruns⟩

/-- An episode goes on as long as the ring runs. -/
theorem Episode.append_singleton {cs : List (Call α)} {c : Call α} {d : DriftingRing α}
    (hcs : Episode cs d) (hruns : (after cs d).isRunning = true) : Episode (cs ++ [c]) d := by
  cases cs with
  | nil => exact hcs.elim
  | cons c' cs =>
    obtain ⟨hstopped, hopens, hrest⟩ := hcs
    exact ⟨hstopped, hopens, runsOn_append_singleton hrest hruns⟩

/-- Every call that finds a ring running, once its party has entered, belongs to an episode. -/
theorem exists_episode {d : DriftingRing α} (hstopped : d.isRunning = false)
    (calls : List (Call α)) (c : Call α) (hruns : (c.entered (after calls d)).isRunning = true) :
    ∃ before inside, calls = before ++ inside ∧ Episode (inside ++ [c]) (after before d) := by
  induction calls using List.reverseRecOn generalizing c with
  | nil => exact ⟨[], [], rfl, hstopped, hruns, trivial⟩
  | append_singleton calls c' ih =>
    cases hafter : (after (calls ++ [c']) d).isRunning with
    | false =>
      -- the episode begins with the call itself
      exact ⟨calls ++ [c'], [], (List.append_nil _).symm, hafter, hruns, trivial⟩
    | true =>
      -- the call before belongs to an episode, which goes on
      have hbefore : (c'.entered (after calls d)).isRunning = true := by
        rw [after_append] at hafter
        exact isRunning_entered_of_after hafter
      obtain ⟨before, inside, rfl, hepisode⟩ := ih c' hbefore
      refine ⟨before, inside ++ [c'], List.append_assoc .., hepisode.append_singleton ?_⟩
      rwa [List.append_assoc, after_append] at hafter

/-! ## The account of an episode -/

section Account

variable {config : DriftConfig} {null : α} {d : DriftingRing α}

theorem Sound.after (hd : Sound config null d) (calls : List (Call α)) :
    Sound config null (DriftingRing.after calls d) := by
  induction calls generalizing d with
  | nil => exact hd
  | cons c cs ih => exact ih (hd.run c)

/-- While a ring runs, what is accepted is appended to what is pending and what is delivered is
taken from its front. -/
theorem Sound.pending_append_acceptedBy (hd : Sound config null d) {calls : List (Call α)}
    (hruns : RunsOn calls d) :
    d.pending ++ acceptedBy calls d =
      deliveredBy calls d ++ (DriftingRing.after calls d).pending := by
  induction calls generalizing d with
  | nil => exact List.append_nil _
  | cons c cs ih =>
    obtain ⟨hrunning, hrest⟩ := hruns
    have hentered := entered_of_isRunning hrunning c
    have hfirst := hd.pending_append_accepted (c := c) (hentered.symm ▸ hrunning)
    rw [hentered] at hfirst
    calc d.pending ++ acceptedBy (c :: cs) d
        = (d.pending ++ c.accepted d) ++ acceptedBy cs (c.run d).after :=
          (List.append_assoc ..).symm
      _ = c.delivered d ++ ((c.run d).after.pending ++ acceptedBy cs (c.run d).after) := by
          rw [hfirst, List.append_assoc]
      _ = c.delivered d ++ (deliveredBy cs (c.run d).after ++
            (DriftingRing.after cs (c.run d).after).pending) := by
          rw [ih (hd.run c) hrest]
      _ = deliveredBy (c :: cs) d ++ (DriftingRing.after (c :: cs) d).pending :=
          (List.append_assoc ..).symm

/-- An episode begins with the startup silence and nothing else. -/
theorem Sound.silence_append_acceptedBy (hd : Sound config null d) {calls : List (Call α)}
    (hepisode : Episode calls d) :
    List.replicate config.desiredFillCount null ++ acceptedBy calls d =
      deliveredBy calls d ++ (DriftingRing.after calls d).pending := by
  cases calls with
  | nil => exact hepisode.elim
  | cons c cs =>
    obtain ⟨hstopped, hopens, hrest⟩ := hepisode
    have hfirst := hd.pending_append_accepted hopens
    rw [pending_entered_of_opens hd hstopped hopens] at hfirst
    have hothers := (hd.run c).pending_append_acceptedBy hrest
    rw [acceptedBy, deliveredBy, ← List.append_assoc, hfirst, List.append_assoc, hothers,
      ← List.append_assoc]
    rfl

end Account

/-- The stream of an episode `calls` that begins on `d`, on a ring with these settings. -/
structure Streams (config : DriftConfig) (null : α) (calls : List (Call α))
    (d : DriftingRing α) : Prop where
  /-- The startup silence and what was accepted have been delivered or are pending. -/
  conserved : List.replicate config.desiredFillCount null ++ acceptedBy calls d =
    deliveredBy calls d ++ (after calls d).pending
  length_pending : (after calls d).pending.length = (after calls d).fillCount
  /-- What is pending is what the episode delivers next. -/
  next : ∀ more, RunsOn more (after calls d) →
    (after calls d).pending ++ acceptedBy more (after calls d) =
      deliveredBy more (after calls d) ++ (after (calls ++ more) d).pending
  /-- Every place of what is delivered holds silence or what this same episode accepted. -/
  own : ∀ k < (deliveredBy calls d).length, (deliveredBy calls d)[k]? =
    if k < config.desiredFillCount then some null
    else (acceptedBy calls d)[k - config.desiredFillCount]?

theorem Sound.streams {config : DriftConfig} {null : α} {d : DriftingRing α}
    (hd : Sound config null d) {calls : List (Call α)} (hepisode : Episode calls d) :
    Streams config null calls d where
  conserved := hd.silence_append_acceptedBy hepisode
  length_pending := (hd.after calls).length_pending
  next := by
    intro more hmore
    rw [after_append]
    exact (hd.after calls).pending_append_acceptedBy hmore
  own := by
    intro k hk
    have hplace := congrArg (·[k]?) (hd.silence_append_acceptedBy hepisode)
    simp only [List.getElem?_append_left hk] at hplace
    rw [← hplace]
    split
    · next hearly =>
      rw [List.getElem?_append_left (by simpa using hearly), List.getElem?_replicate_of_lt hearly]
    · next hlate =>
      rw [List.getElem?_append_right (by simpa using hlate), List.length_replicate]

/-- A ring with validated settings is refused only if the ring below is. -/
theorem make_of_validate [Memory] {config : DriftConfig} (hvalidate : config.validate = .ok ())
    (null : α) :
    make config null = (Ring.make config.maxFillCount null).map (ofRing config null) := by
  rw [make, hvalidate]

/-- A new ring stands over a new ring of the capacity asked for, and its settings are
validated. -/
theorem make_eq_ok [Memory] {config : DriftConfig} {null : α} {d : DriftingRing α}
    (hmake : make config null = .ok d) :
    config.validate = .ok () ∧ ∃ ring, Ring.make config.maxFillCount null = .ok ring ∧
      d = ofRing config null ring := by
  unfold make at hmake
  cases hvalidate : config.validate with
  | error e =>
    rw [hvalidate] at hmake
    cases hmake
  | ok _ =>
    cases hring : Ring.make config.maxFillCount null with
    | error e =>
      rw [hvalidate, hring] at hmake
      cases hmake
    | ok ring =>
      rw [hvalidate, hring] at hmake
      cases hmake
      exact ⟨rfl, ring, rfl, rfl⟩

/-- A new ring is stopped, and has nothing stored. -/
theorem Sound.of_make [Memory] {config : DriftConfig} {null : α} {d : DriftingRing α}
    (hmake : make config null = .ok d) : Sound config null d ∧ d.isRunning = false := by
  obtain ⟨hvalidate, ring, hring, rfl⟩ := make_eq_ok hmake
  have hle : config.desiredFillCount ≤ ring.capacity := by
    rw [Ring.capacity_of_make hring]
    exact (DriftConfig.validate_eq_ok_iff.1 hvalidate).2
  refine ⟨?_, rfl⟩
  exact
    { valid := Ring.Valid.of_make hring
      fits := by
        show ring.fillCount + config.desiredFillCount ≤ ring.capacity
        rw [Ring.fillCount_of_make hring, Nat.zero_add]
        exact hle
      desired_le := hle
      desired := rfl
      silence := rfl }

/-- The stream law of a drifting ring. Whatever calls were made before, in every episode the
startup silence and the elements accepted since its beginning are what has been delivered in it
and then what is pending, which is as much as the fill count says. The buffer of every read is
what is delivered to it and then silence, and a read that belongs to no episode gets silence only. -/
theorem conserves_stream [Memory] {config : DriftConfig} {null : α} {d : DriftingRing α}
    (hmake : make config null = .ok d) (earlier : List (Call α)) :
    (∀ calls, Episode calls (after earlier d) → Streams config null calls (after earlier d)) ∧
      ∀ n, ((Call.read n).run (after earlier d)).buffer =
            (Call.read n).delivered (after earlier d) ++
              List.replicate (n - ((Call.read n).delivered (after earlier d)).length) null ∧
          ((¬ ∃ before inside, earlier = before ++ inside ∧
              Episode (inside ++ [.read n]) (after before d)) →
            ((Call.read n).run (after earlier d)).buffer = List.replicate n null) := by
  obtain ⟨hnew, hstopped⟩ := Sound.of_make hmake
  have hsound := hnew.after earlier
  refine ⟨fun calls hepisode => hsound.streams hepisode, fun n => ⟨hsound.buffer_eq n, ?_⟩⟩
  intro houtside
  apply hsound.buffer_of_stopped
  cases hruns : ((Call.read n).entered (after earlier d)).isRunning with
  | false => rfl
  | true => exact absurd (exists_episode hstopped earlier (.read n) hruns) houtside

/-- An episode with one element stored is stopped, and the next one delivers its own silence and
its own elements. A read of the new ring belongs to no episode and gets silence. -/
theorem conserves_stream_restart :
    let config : DriftConfig := { desiredFillCount := 1, maxFillCount := 3 }
    let d : DriftingRing Nat := .ofRing config 0 ⟨#[0, 0, 0, 0], 0, 0⟩
    let earlier : List (Call Nat) := [.write [], .read 0, .write [1, 2], .stop, .write [7]]
    let calls : List (Call Nat) := [.read 1, .write [3, 4], .read 2]
    make config 0 = .ok d ∧ Episode calls (after earlier d) ∧
      Streams config 0 calls (after earlier d) ∧
      deliveredBy calls (after earlier d) = [0, 3, 4] ∧
      (¬ ∃ before inside, [] = before ++ inside ∧
        Episode (inside ++ [.read 2]) (after before d)) ∧
      ((Call.read 2).run d).buffer = [0, 0] := by
  intro config d earlier calls
  have hmake : make config 0 = .ok d := rfl
  have hepisode : Episode calls (after earlier d) := by
    simp only [calls, Episode, RunsOn]
    decide
  have houtside : ¬ ∃ before inside, [] = before ++ inside ∧
      Episode (inside ++ [.read 2]) (after before d) := by
    rintro ⟨before, inside, hnothing, hcalls⟩
    obtain ⟨rfl, rfl⟩ := List.append_eq_nil_iff.1 hnothing.symm
    exact absurd hcalls.2.1 (by decide)
  exact ⟨hmake, hepisode, (conserves_stream hmake earlier).1 calls hepisode, by decide, houtside,
    ((conserves_stream hmake []).2 2).2 houtside⟩

end BlockFlow.DriftingRing
