import BlockFlow.Proofs.Handoff.Reclamation

/-!
# What the consumer of a handoff observes

To its consumer a handoff is the list of the configurations published so far and a place in it,
which counts from one and is zero before the consumer has a node. What a call of the consumer
answers and where it leaves the consumer depends on the two alone (`Observes`), so that neither the
nodes freed meanwhile nor the producer's end can show. A consumer that only moves on by one node at
a time gets every configuration once, in order (`Matches.seenBy_eq`), and one that skips ahead comes
to where it would get by single moves (`Matches.poll_eq_after`), also if the producer publishes and
frees nodes between its moves (`Matches.walk`).
-/

set_option autoImplicit false

namespace BlockFlow.Handoff

universe u

variable {α : Type u}

/-- The configuration at a place, counted from one. Nothing is at place zero. -/
def answerAt (published : List α) (place : Nat) : Option α :=
  (numberAt place).bind fun i => published[i]?

/-- The calls of the producer. -/
def Call.ofProducer : Call α → Bool
  | .push _ => true
  | .dropProducer => true
  | _ => false

/-- What a reply tells the consumer. -/
def Reply.config? : Reply α → Option α
  | .found config => config
  | _ => none

/-- The configurations with which the calls that move the consumer answer, in order. -/
def seenBy : List (Call α) → Handoff α → List α
  | [], _ => []
  | c :: cs, q =>
    (if q.place < (c.run q).after.place then (c.run q).reply.config?.toList else []) ++
      seenBy cs (c.run q).after

/-- A consumer that skips ahead while the producer goes on: a group of calls comes before each of
its moves, and none any more when all groups are used up. The calls that were made until the consumer
found no next node, and the chain. -/
def walk : List (List (Call α)) → Handoff α → List (Call α) × Handoff α
  | [], q => ([], q.advanceFor q.nodes.size)
  | calls :: groups, q =>
    match (after calls q).step? with
    | none => (calls, after calls q)
    | some q' => (calls ++ (walk groups q').1, (walk groups q').2)

/-- What the consumer observes, with its handle open and `published` published. -/
structure Observes (published : List α) (q : Handoff α) : Prop where
  place_le : q.place ≤ published.length
  /-- It skips ahead to the newest configuration. -/
  poll : (Call.poll.run q).reply = .found published.getLast? ∧
    (Call.poll.run q).after.place = published.length
  /-- It moves on to the next one, or stays at the newest. -/
  pollNext : (Call.pollNext.run q).reply =
      .found (answerAt published (min (q.place + 1) published.length)) ∧
    (Call.pollNext.run q).after.place = min (q.place + 1) published.length
  /-- It looks again without moving. -/
  latest : (Call.latest.run q).reply = .found (answerAt published q.place) ∧
    (Call.latest.run q).after = q
  /-- It gets nothing as long as nothing is published, or as long as it has no node. -/
  nothing : ((Call.poll.run q).reply = .found none ↔ published = []) ∧
    ((Call.pollNext.run q).reply = .found none ↔ published = []) ∧
    ((Call.latest.run q).reply = .found none ↔ q.place = 0)

@[simp] theorem answerAt_zero (published : List α) : answerAt published 0 = none := rfl

@[simp] theorem answerAt_succ (published : List α) (i : Nat) :
    answerAt published (i + 1) = published[i]? := rfl

@[simp] theorem answerAt_length (published : List α) :
    answerAt published published.length = published.getLast? := by
  rw [List.getLast?_eq_getElem?]
  cases published with
  | nil => rfl
  | cons config rest => rfl

/-- Later publications do not change what is at a place. -/
theorem answerAt_append {published : List α} {place : Nat} (hle : place ≤ published.length)
    (more : List α) : answerAt (published ++ more) place = answerAt published place := by
  cases place with
  | zero => rfl
  | succ i => exact List.getElem?_append_left hle

theorem answerAt_eq_none_iff {published : List α} {place : Nat} (hle : place ≤ published.length) :
    answerAt published place = none ↔ place = 0 := by
  cases place with
  | zero => simp
  | succ i =>
    have hi : i < published.length := hle
    simp [hi]

/-! ## One call -/

section OneCall

variable {q q' : Handoff α} {l : Ledger α}

/-- A ledger leaves nothing open about a chain. -/
theorem Matches.unique (h : q.Matches l) (h' : q'.Matches l) : q = q' := by
  have hnodes : q.nodes = q'.nodes := by
    apply Array.ext
    · rw [h.size, h'.size]
    · intro i hi hi'
      have hnode := (h.node i).trans (h'.node i).symm
      rw [Handoff.node?, Handoff.node?, Array.getElem?_eq_getElem hi,
        Array.getElem?_eq_getElem hi'] at hnode
      exact hnode
  have hroot := h.root.trans h'.root.symm
  have htail := h.tail.trans h'.tail.symm
  have hcurrent := h.current.trans h'.current.symm
  have hproducer := h.producerOpen.trans h'.producerOpen.symm
  have hconsumer := h.consumerOpen.trans h'.consumerOpen.symm
  cases q
  cases q'
  simp only at hnodes hroot htail hcurrent hproducer hconsumer
  simp only [hnodes, hroot, htail, hcurrent, hproducer, hconsumer]

/-- The consumer reads the configuration at its place. -/
theorem Matches.latest_eq (h : q.Matches l) (hl : l.Valid) (hopen : l.consumerOpen = true) :
    q.latest = answerAt l.published l.place := by
  rw [latest, h.current]
  cases hplace : l.place with
  | zero => rfl
  | succ k =>
    obtain ⟨config, hconfig, hnode⟩ := h.current_node hl hopen hplace
    simp [numberAt, hnode, hconfig, layout]

theorem Matches.observes (h : q.Matches l) (hl : l.Valid) (hopen : l.consumerOpen = true) :
    Observes l.published q := by
  have hplace := hl.place_le
  have hconsumer : q.consumerOpen = true := h.consumerOpen.trans hopen
  have hpolled := h.poll hl hopen
  have hmoved := h.pollNext hl hopen
  have hpolledValid : (l.moveTo l.published.length).Valid := hl.moveTo (Nat.le_refl _) hplace
  have hmovedValid : (l.moveTo (min (l.place + 1) l.published.length)).Valid :=
    hl.moveTo (Nat.min_le_right ..) (by omega)
  have hpoll : (Call.poll.run q).reply = .found l.published.getLast? ∧
      (Call.poll.run q).after.place = l.published.length := by
    simp only [Call.run, if_pos hconsumer, Step.read, hpolled.place_eq,
      hpolled.latest_eq hpolledValid hopen]
    exact ⟨congrArg Reply.found (answerAt_length l.published), rfl⟩
  have hpollNext : (Call.pollNext.run q).reply =
        .found (answerAt l.published (min (q.place + 1) l.published.length)) ∧
      (Call.pollNext.run q).after.place = min (q.place + 1) l.published.length := by
    simp only [Call.run, if_pos hconsumer, Step.read, hmoved.place_eq,
      hmoved.latest_eq hmovedValid hopen, h.place_eq]
    exact ⟨rfl, rfl⟩
  have hlatest : (Call.latest.run q).reply = .found (answerAt l.published q.place) ∧
      (Call.latest.run q).after = q := by
    simp only [Call.run, if_pos hconsumer, Step.read, h.latest_eq hl hopen, h.place_eq, and_self]
  refine ⟨h.place_eq ▸ hplace, hpoll, hpollNext, hlatest, ?_, ?_, ?_⟩
  · rw [hpoll.1, Reply.found.injEq, List.getLast?_eq_none_iff]
  · rw [hpollNext.1, Reply.found.injEq, answerAt_eq_none_iff (Nat.min_le_right ..),
      ← List.length_eq_zero_iff]
    omega
  · rw [hlatest.1, Reply.found.injEq, answerAt_eq_none_iff (h.place_eq ▸ hplace)]

@[simp] theorem Ledger.place_settle (l : Ledger α) : l.settle.place = l.place := by
  unfold Ledger.settle
  split <;> rfl

@[simp] theorem Ledger.producerOpen_settle (l : Ledger α) :
    l.settle.producerOpen = l.producerOpen := by
  unfold Ledger.settle
  split <;> rfl

@[simp] theorem Ledger.consumerOpen_settle (l : Ledger α) :
    l.settle.consumerOpen = l.consumerOpen := by
  unfold Ledger.settle
  split <;> rfl

/-- No call takes the consumer back. -/
theorem Ledger.Valid.place_le_record (hl : l.Valid) (c : Call α) :
    l.place ≤ (c.record l).place := by
  have hplace := hl.place_le
  cases c with
  | push config =>
    rw [Call.record]
    split <;> exact Nat.le_refl _
  | poll =>
    rw [Call.record]
    split
    · exact hplace
    · exact Nat.le_refl _
  | pollNext =>
    rw [Call.record]
    split
    · show l.place ≤ min (l.place + 1) l.published.length
      omega
    · exact Nat.le_refl _
  | latest => exact Nat.le_refl _
  | dropProducer =>
    rw [Call.record]
    split
    · exact Nat.le_of_eq (Ledger.place_settle { l with producerOpen := false }).symm
    · exact Nat.le_refl _
  | dropConsumer =>
    rw [Call.record]
    split
    · exact Nat.le_of_eq (Ledger.place_settle { l with consumerOpen := false }).symm
    · exact Nat.le_refl _

/-- A call of the producer leaves the consumer where it is. -/
theorem Ledger.record_of_ofProducer (l : Ledger α) {c : Call α} (hc : c.ofProducer = true) :
    (c.record l).place = l.place ∧ (c.record l).consumerOpen = l.consumerOpen := by
  cases c with
  | push config =>
    rw [Call.record]
    split <;> exact ⟨rfl, rfl⟩
  | dropProducer =>
    rw [Call.record]
    split
    · rw [Ledger.place_settle, Ledger.consumerOpen_settle]
      exact ⟨rfl, rfl⟩
    · exact ⟨rfl, rfl⟩
  | poll => cases hc
  | pollNext => cases hc
  | latest => cases hc
  | dropConsumer => cases hc

end OneCall

/-! ## Calls one after the other -/

section Runs

variable {q q' : Handoff α} {l l' : Ledger α}

/-- What some calls do to a ledger. -/
def Ledger.recordAll : List (Call α) → Ledger α → Ledger α
  | [], l => l
  | c :: cs, l => recordAll cs (c.record l)

/-- By induction over the calls: they change the chain as they change the ledger. -/
theorem Matches.recordAll (h : q.Matches l) (hl : l.Valid) (calls : List (Call α)) :
    (Handoff.after calls q).Matches (l.recordAll calls) ∧ (l.recordAll calls).Valid ∧
      (l.recordAll calls).published = l.published ++ publishedBy calls q := by
  induction calls generalizing q l with
  | nil => exact ⟨h, hl, (List.append_nil _).symm⟩
  | cons c cs ih =>
    obtain ⟨hafter, hvalid, hpublished⟩ := ih (h.run hl c).1 (hl.record c)
    refine ⟨hafter, hvalid, hpublished.trans ?_⟩
    rw [h.published_record, List.append_assoc]
    rfl

theorem Ledger.recordAll_of_ofProducer (l : Ledger α) {calls : List (Call α)}
    (hcalls : ∀ c ∈ calls, c.ofProducer = true) :
    (l.recordAll calls).place = l.place ∧ (l.recordAll calls).consumerOpen = l.consumerOpen := by
  induction calls generalizing l with
  | nil => exact ⟨rfl, rfl⟩
  | cons c cs ih =>
    obtain ⟨hplace, hopen⟩ := ih (c.record l) fun c hc => hcalls c (List.mem_cons_of_mem _ hc)
    obtain ⟨hplace', hopen'⟩ := l.record_of_ofProducer (hcalls c List.mem_cons_self)
    exact ⟨hplace.trans hplace', hopen.trans hopen'⟩

/-! ### Single moves -/

/-- Single moves come one after the other to the newest node. -/
theorem Matches.after_replicate_pollNext (h : q.Matches l) (hl : l.Valid)
    (hopen : l.consumerOpen = true) (n : Nat) :
    (Handoff.after (List.replicate n .pollNext) q).Matches
      (l.moveTo (min (l.place + n) l.published.length)) := by
  have hplace := hl.place_le
  induction n generalizing q l with
  | zero =>
    have hsame : l.moveTo (min (l.place + 0) l.published.length) = l := by
      rw [Nat.add_zero, Nat.min_eq_left hplace]
      rfl
    rw [hsame]
    exact h
  | succ n ih =>
    have hmoved := (h.run hl .pollNext).1
    rw [Call.record, if_pos hopen] at hmoved
    have hnext : min (l.place + 1) l.published.length ≤ l.published.length := Nat.min_le_right ..
    have hrest := ih hmoved (hl.moveTo hnext (by omega)) hopen hnext
    have hcount : min (min (l.place + 1) l.published.length + n) l.published.length =
        min (l.place + (n + 1)) l.published.length := by omega
    show (Handoff.after _ (Call.pollNext.run q).after).Matches (l.moveTo (min _ l.published.length))
    rw [← hcount]
    exact hrest

/-- To skip ahead is to move on one by one as long as that moves the consumer. -/
theorem Matches.poll_eq_after (h : q.Matches l) (hl : l.Valid) (hopen : l.consumerOpen = true) :
    (Call.poll.run q).after =
      Handoff.after (List.replicate (l.published.length - l.place) .pollNext) q := by
  have hplace := hl.place_le
  have hpolled := (h.run hl .poll).1
  have hmoved := h.after_replicate_pollNext hl hopen (l.published.length - l.place)
  rw [Call.record, if_pos hopen] at hpolled
  rw [Nat.add_sub_cancel' hplace, Nat.min_self] at hmoved
  exact hpolled.unique hmoved

/-- What a call that does not skip ahead answers, if it moves the consumer, follows what the
consumer has passed. -/
theorem Matches.take_append_seen (h : q.Matches l) (hl : l.Valid) {c : Call α}
    (hc : c ≠ .poll) (rest : List α) :
    l.published.take l.place ++
        ((if q.place < (c.run q).after.place then (c.run q).reply.config?.toList else []) ++ rest) =
      (c.record l).published.take (c.record l).place ++ rest := by
  have hplace := hl.place_le
  have hafter := (h.run hl c).1.place_eq
  by_cases hmoves : (c.record l).place = l.place
  · -- the list may have grown, but not before the consumer's place
    have hstays : ¬ q.place < (c.run q).after.place := by
      rw [hafter, h.place_eq, hmoves]
      exact Nat.lt_irrefl _
    rw [if_neg hstays, hmoves, h.published_record, List.take_append_of_le_length hplace,
      List.nil_append]
  cases c with
  | pollNext =>
    by_cases hopen : l.consumerOpen = true
    · simp only [Call.record, if_pos hopen, Ledger.moveTo] at hmoves ⊢
      have hnext : min (l.place + 1) l.published.length = l.place + 1 := by omega
      have hlt : l.place < l.published.length := by omega
      obtain ⟨hreply, hmoved⟩ := (h.observes hl hopen).pollNext
      rw [hnext, List.take_succ_eq_append_getElem hlt]
      rw [hmoved, hreply, h.place_eq, hnext, if_pos (Nat.lt_succ_self _), answerAt_succ,
        List.getElem?_eq_getElem hlt, List.append_assoc]
      rfl
    · exact absurd (by rw [Call.record, if_neg hopen]) hmoves
  | poll => exact absurd rfl hc
  | push config => exact absurd (l.record_of_ofProducer (c := .push config) rfl).1 hmoves
  | dropProducer => exact absurd (l.record_of_ofProducer (c := .dropProducer) rfl).1 hmoves
  | latest => exact absurd rfl hmoves
  | dropConsumer =>
    apply absurd _ hmoves
    rw [Call.record]
    split
    · rw [Ledger.place_settle]
    · rfl

/-- By induction over the calls: a consumer that never skips ahead gets what lies between its places
once and in order. -/
theorem Matches.seenBy_eq (h : q.Matches l) (hl : l.Valid) {calls : List (Call α)}
    (hcalls : ∀ c ∈ calls, c ≠ .poll) :
    l.published.take l.place ++ seenBy calls q =
      (l.recordAll calls).published.take (l.recordAll calls).place := by
  induction calls generalizing q l with
  | nil => exact List.append_nil _
  | cons c cs ih =>
    have hrest := ih (h.run hl c).1 (hl.record c) fun c hc => hcalls c (List.mem_cons_of_mem _ hc)
    rw [seenBy, h.take_append_seen hl (hcalls c List.mem_cons_self)]
    exact hrest

/-! ### A producer that goes on -/

/-- What the producer publishes does not depend on the consumer. -/
theorem Matches.publishedBy_congr (h : q.Matches l) (hl : l.Valid) (h' : q'.Matches l')
    (hl' : l'.Valid) (hopen : l.producerOpen = l'.producerOpen) {calls : List (Call α)}
    (hcalls : ∀ c ∈ calls, c.ofProducer = true) : publishedBy calls q = publishedBy calls q' := by
  induction calls generalizing q q' l l' with
  | nil => rfl
  | cons c cs ih =>
    have hsame : c.publishes q = c.publishes q' := by
      cases c with
      | push config => rw [Call.publishes, Call.publishes, h.producerOpen, h'.producerOpen, hopen]
      | _ => rfl
    have hleft : (c.record l).producerOpen = (c.record l').producerOpen := by
      have hc := hcalls c List.mem_cons_self
      cases c with
      | push config =>
        rw [Call.record, Call.record, hopen]
        split
        · exact hopen
        · exact hopen
      | dropProducer =>
        rw [Call.record, Call.record, hopen]
        split
        · rw [Ledger.producerOpen_settle, Ledger.producerOpen_settle]
        · exact hopen
      | poll => cases hc
      | pollNext => cases hc
      | latest => cases hc
      | dropConsumer => cases hc
    have hrest := ih (h.run hl c).1 (hl.record c) (h'.run hl' c).1 (hl'.record c) hleft
      fun c hc => hcalls c (List.mem_cons_of_mem _ hc)
    rw [publishedBy, publishedBy, hsame, hrest]

theorem publishedBy_append (calls more : List (Call α)) (q : Handoff α) :
    publishedBy (calls ++ more) q = publishedBy calls q ++ publishedBy more (after calls q) := by
  induction calls generalizing q with
  | nil => rfl
  | cons c cs ih =>
    show c.publishes q ++ publishedBy (cs ++ more) (c.run q).after = _
    rw [ih, ← List.append_assoc]
    rfl

/-- By induction over the groups: a consumer at a node that skips ahead gets to the configuration
that is the newest one when it finds no next node, whatever is published and freed on its way. -/
theorem Matches.walk (h : q.Matches l) (hl : l.Valid) (hopen : l.consumerOpen = true)
    (hpos : 0 < l.place) {groups : List (List (Call α))}
    (hgroups : ∀ calls ∈ groups, ∀ c ∈ calls, c.ofProducer = true) :
    (∀ c ∈ (Handoff.walk groups q).1, c.ofProducer = true) ∧
      ∃ l' : Ledger α, (Handoff.walk groups q).2.Matches l' ∧ l'.Valid ∧ l'.consumerOpen = true ∧
        l'.published = l.published ++ publishedBy (Handoff.walk groups q).1 q ∧
        l'.place = l'.published.length := by
  induction groups generalizing q l with
  | nil =>
    have hmoved := h.advanceFor hl hopen hpos (Nat.le_add_left _ _)
    rw [Handoff.walk, h.size]
    exact ⟨nofun, _, hmoved, hl.moveTo (Nat.le_refl _) hl.place_le, hopen,
      (List.append_nil _).symm, rfl⟩
  | cons calls groups ih =>
    have hcalls := hgroups calls List.mem_cons_self
    obtain ⟨h₁, hl₁, hpublished⟩ := h.recordAll hl calls
    obtain ⟨hplace₁, hopen₁⟩ := l.recordAll_of_ofProducer hcalls
    rw [hopen] at hopen₁
    rw [← hplace₁] at hpos
    rcases Nat.lt_or_eq_of_le hl₁.place_le with hlt | heq
    · obtain ⟨q', hstep, h'⟩ := h₁.step?_of_lt hl₁ hopen₁ hpos hlt
      obtain ⟨hmade, l', hend, hvalid, hopen', hpublished', hplace'⟩ :=
        ih h' (hl₁.moveTo hlt (Nat.le_succ _)) hopen₁ (Nat.succ_pos _)
          fun calls hmem => hgroups calls (List.mem_cons_of_mem _ hmem)
      -- the consumer's move is nothing to the producer
      have hsame := h'.publishedBy_congr (hl₁.moveTo hlt (Nat.le_succ _)) h₁ hl₁ rfl hmade
      rw [Handoff.walk, hstep]
      refine ⟨?_, l', hend, hvalid, hopen', ?_, hplace'⟩
      · intro c hc
        rcases List.mem_append.1 hc with hfirst | hlater
        · exact hcalls c hfirst
        · exact hmade c hlater
      · rw [hpublished', publishedBy_append, ← hsame, ← List.append_assoc, ← hpublished]
        rfl
    · rw [Handoff.walk, h₁.step?_of_eq hl₁ hopen₁ heq]
      exact ⟨hcalls, _, h₁, hl₁, hopen₁, hpublished, heq⟩

end Runs

/-- The producer goes on while the consumer, which has or finds a node, skips ahead. -/
theorem Matches.walk_enter {q : Handoff α} {l : Ledger α} (h : q.Matches l) (hl : l.Valid)
    (hopen : l.consumerOpen = true) (hsome : l.published ≠ []) {groups : List (List (Call α))}
    (hgroups : ∀ calls ∈ groups, ∀ c ∈ calls, c.ofProducer = true) :
    let made := (Handoff.walk groups q.enter).1
    let ahead := (Handoff.walk groups q.enter).2
    ahead.place = (l.published ++ publishedBy made q).length ∧
      ahead.latest = (l.published ++ publishedBy made q).getLast? := by
  intro made ahead
  have hplace := hl.place_le
  have hcount := List.length_pos_of_ne_nil hsome
  have hentered := h.enter hl hopen
  have hvalid : (l.moveTo (max l.place (min 1 l.published.length))).Valid :=
    hl.moveTo (by omega) (by omega)
  have hfirst : 0 < max l.place (min 1 l.published.length) := by omega
  obtain ⟨hmade, l', hend, hvalid', hopen', hpublished, hlast⟩ :=
    hentered.walk hvalid hopen hfirst hgroups
  have hsame : publishedBy made q.enter = publishedBy made q :=
    hentered.publishedBy_congr hvalid h hl rfl hmade
  rw [hsame] at hpublished
  rw [hend.place_eq, hend.latest_eq hvalid' hopen', hlast, answerAt_length, hpublished]
  exact ⟨rfl, rfl⟩

/-- Whatever calls are made on a new handoff, the consumer with an open handle observes the list of
what was published so far from its place in it. It never goes back. To skip ahead comes to the same
as to move on one by one as long as that moves the consumer, and if the producer goes on meanwhile
the consumer gets to what is newest in the end. A consumer that never skips ahead gets all that is
published up to its place once and in order. What the producer publishes or frees later, and its
end, change no answer. -/
theorem observes_published (calls : List (Call α)) :
    let q := after calls empty
    let published := publishedBy calls empty
    (∀ c : Call α, q.place ≤ (c.run q).after.place) ∧
      ((∀ c ∈ calls, c ≠ .poll) → seenBy calls empty = published.take q.place) ∧
      (q.consumerOpen = true →
        Observes published q ∧
        (∀ i ≤ published.length - q.place,
          (after (List.replicate i .pollNext) q).place = q.place + i) ∧
        (Call.poll.run q).after =
          after (List.replicate (published.length - q.place) .pollNext) q ∧
        (∀ groups, (∀ calls ∈ groups, ∀ c ∈ calls, c.ofProducer = true) → published ≠ [] →
          let made := (walk groups q.enter).1
          let ahead := (walk groups q.enter).2
          ahead.place = (published ++ publishedBy made q).length ∧
            ahead.latest = (published ++ publishedBy made q).getLast?) ∧
        ∀ more : List (Call α), (∀ c ∈ more, c.ofProducer = true) →
          (after more q).place = q.place ∧
            (Call.latest.run (after more q)).reply = (Call.latest.run q).reply ∧
            (q.place < published.length →
              (Call.pollNext.run (after more q)).reply = (Call.pollNext.run q).reply)) := by
  intro q published
  obtain ⟨h, hl, hpublished⟩ := matches_empty.recordAll Ledger.valid_empty calls
  obtain ⟨l, hledger⟩ : ∃ l, l = (Ledger.empty : Ledger α).recordAll calls := ⟨_, rfl⟩
  rw [← hledger] at h hl hpublished
  have hall : published = l.published := hpublished.symm
  have hplace : q.place = l.place := h.place_eq
  refine ⟨?_, ?_, fun hconsumer => ?_⟩
  · intro c
    rw [(h.run hl c).1.place_eq, hplace]
    exact hl.place_le_record c
  · intro hsingle
    have hseen := matches_empty.seenBy_eq Ledger.valid_empty hsingle
    rw [← hledger] at hseen
    rw [hall, hplace]
    exact hseen
  have hopen : l.consumerOpen = true := h.consumerOpen.symm.trans hconsumer
  rw [hall, hplace]
  have hobserves := h.observes hl hopen
  refine ⟨hobserves, ?_, h.poll_eq_after hl hopen, ?_, ?_⟩
  · intro i hi
    have hle := hl.place_le
    rw [(h.after_replicate_pollNext hl hopen i).place_eq]
    show min (l.place + i) l.published.length = l.place + i
    omega
  · intro groups hgroups hsome
    exact h.walk_enter hl hopen hsome hgroups
  · intro more hmore
    obtain ⟨h', hl', hpublished'⟩ := h.recordAll hl more
    obtain ⟨hplace', hopen'⟩ := l.recordAll_of_ofProducer hmore
    have hlater := h'.observes hl' (hopen'.trans hopen)
    have hstays : (after more q).place = q.place := by
      rw [h'.place_eq, hplace', hplace]
    have hle : (after more q).place ≤ l.published.length := by
      rw [hstays, hplace]
      exact hl.place_le
    refine ⟨hstays.trans hplace, ?_, ?_⟩
    · rw [hlater.latest.1, hobserves.latest.1, hpublished', answerAt_append hle, hstays]
    · intro hlt
      have hnext : min (l.place + 1) (l.published ++ publishedBy more q).length = l.place + 1 := by
        rw [List.length_append]
        omega
      rw [hlater.pollNext.1, hobserves.pollNext.1, hpublished', hstays, hplace, hnext,
        answerAt_append hlt, Nat.min_eq_left hlt]

/-- The consumer moves on to the second of three configurations. To skip ahead leads it to the third,
and to the fifth if the producer publishes two more on its way and ends. -/
theorem observes_published_on_its_way :
    let calls : List (Call Nat) := [.push 1, .push 2, .pollNext, .push 3, .pollNext]
    let groups : List (List (Call Nat)) := [[.push 4], [.push 5, .dropProducer]]
    let q := after calls empty
    q.consumerOpen = true ∧ (∀ c ∈ calls, c ≠ .poll) ∧ seenBy calls empty = [1, 2] ∧
      Observes [1, 2, 3] q ∧ (Call.poll.run q).reply = .found (some 3) ∧
      (∀ calls ∈ groups, ∀ c ∈ calls, c.ofProducer = true) ∧
      (walk groups q.enter).2.place = 5 ∧ (walk groups q.enter).2.latest = some 5 ∧
      (Call.latest.run (after groups.flatten q)).reply = .found (some 2) := by
  intro calls groups q
  obtain ⟨-, hseen, hobserved⟩ := observes_published calls
  have hsingle : ∀ c ∈ calls, c ≠ .poll := by
    simp only [calls, List.forall_mem_cons]
    exact ⟨nofun, nofun, nofun, nofun, nofun, nofun⟩
  have hgroups : ∀ calls ∈ groups, ∀ c ∈ calls, c.ofProducer = true := by
    simp [groups, Call.ofProducer]
  have hflat : ∀ c ∈ groups.flatten, c.ofProducer = true := by
    simp [groups, Call.ofProducer]
  have hopen : q.consumerOpen = true := by decide
  obtain ⟨hobserves, -, -, hwalk, hlater⟩ := hobserved hopen
  obtain ⟨hplace, hlatest⟩ := hwalk groups hgroups (by decide)
  refine ⟨hopen, hsingle, (hseen hsingle).trans (by decide), hobserves, hobserves.poll.1, hgroups,
    hplace.trans (by decide), hlatest.trans (by decide), ?_⟩
  exact (hlater groups.flatten hflat).2.1.trans hobserves.latest.1

end BlockFlow.Handoff
