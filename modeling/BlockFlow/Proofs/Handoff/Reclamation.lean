import BlockFlow.Proofs.Handoff.Chain
import Mathlib.Data.Nat.Init

/-!
# Memory of a handoff is reclaimed exactly

Every node that was published is freed once, from the oldest on. Publications free what the
consumer has left behind by then, nothing else does as long as a handle is left, and with the
second handle all the rest goes (`reclaims_exactly`). Between two calls the nodes in memory are
those of the chain and follow each other up to the newest (`Accounts`).
-/

set_option autoImplicit false

namespace BlockFlow.Handoff

universe u

variable {α : Type u}

/-! ## Calls made one after the other -/

/-- The chain after some calls. -/
def after : List (Call α) → Handoff α → Handoff α
  | [], q => q
  | c :: cs, q => after cs (c.run q).after

/-- The configuration that a call publishes. -/
def Call.publishes (q : Handoff α) : Call α → List α
  | .push config => if q.producerOpen then [config] else []
  | _ => []

/-- The configurations that some calls publish, in order. -/
def publishedBy : List (Call α) → Handoff α → List α
  | [], _ => []
  | c :: cs, q => c.publishes q ++ publishedBy cs (c.run q).after

/-- Everything that some calls free, in order. -/
def freedBy : List (Call α) → Handoff α → List α
  | [], _ => []
  | c :: cs, q => (c.run q).freed ++ freedBy cs (c.run q).after

/-- The place of the consumer's node, counted from one, and zero before it has a node. -/
def place (q : Handoff α) : Nat :=
  match q.current with
  | none => 0
  | some i => i + 1

/-- What a call frees, when `published` was published and `freed` freed before it. -/
def Call.frees (published freed : List α) (q : Handoff α) : Call α → List α
  | .push _ => if q.producerOpen then (published.take (q.place - 1)).drop freed.length else []
  | .poll => []
  | .pollNext => []
  | .latest => []
  | .dropProducer => if q.producerOpen && !q.consumerOpen then published.drop freed.length else []
  | .dropConsumer => if q.consumerOpen && !q.producerOpen then published.drop freed.length else []

/-- The node can be reached from the root. -/
inductive Reached (q : Handoff α) : Nat → Prop
  | root {i : Nat} (hroot : q.root = some i) : Reached q i
  | next {i j : Nat} {n : HandoffNode α} (hi : Reached q i) (hnode : q.node? i = some n)
      (hnext : n.next = some j) : Reached q j

/-- The nodes in memory, after `published` was published and `freed` freed. -/
structure Accounts (published freed : List α) (q : Handoff α) : Prop where
  /-- What is freed was published first, and is freed once. -/
  freed_prefix : freed <+: published
  place_le : q.place ≤ published.length
  /-- A node is in memory from its publication until it is freed. -/
  allocated_iff : ∀ i, q.node? i ≠ none ↔ freed.length ≤ i ∧ i < published.length
  /-- Nothing is lost, and no link leads to a node that is freed. -/
  reached_iff : ∀ i, Reached q i ↔ q.node? i ≠ none
  chain_nodes : ∀ n ∈ q.chain, q.node? n.1 = some n.2
  chain_numbers :
    q.chain.map Prod.fst = List.range' freed.length (published.length - freed.length)
  chain_configs : (q.chain.map fun n => n.2.config) = published.drop freed.length
  /-- The consumer has flagged the nodes before its own. -/
  abandoned_iff : ∀ n ∈ q.chain, n.2.abandoned = true ↔ n.1 + 1 < q.place
  tail_eq : (q.producerOpen || q.consumerOpen) = true → q.tail = q.chain.getLast?.map Prod.fst
  current_mem : (q.producerOpen || q.consumerOpen) = true →
    ∀ i, q.current = some i → i ∈ q.chain.map Prod.fst

/-! ## The ledger of a history -/

section Ledgers

variable {q : Handoff α} {l : Ledger α}

theorem Matches.place_eq (h : q.Matches l) : q.place = l.place := by
  rw [place, h.current]
  cases l.place <;> rfl

@[simp] theorem Ledger.published_settle (l : Ledger α) : l.settle.published = l.published := by
  unfold Ledger.settle
  split <;> rfl

theorem Ledger.freed_le_settle {l : Ledger α} (hfreed : l.freed ≤ l.published.length) :
    l.freed ≤ l.settle.freed := by
  unfold Ledger.settle
  split
  · exact Nat.le_refl _
  · exact hfreed

theorem Matches.published_record (h : q.Matches l) (c : Call α) :
    (c.record l).published = l.published ++ c.publishes q := by
  have hnothing := (List.append_nil l.published).symm
  cases c with
  | push config =>
    rw [Call.record, Call.publishes, h.producerOpen]
    split
    · rfl
    · exact hnothing
  | poll =>
    rw [Call.record]
    split <;> exact hnothing
  | pollNext =>
    rw [Call.record]
    split <;> exact hnothing
  | latest => exact hnothing
  | dropProducer =>
    rw [Call.record]
    split
    · rw [Ledger.published_settle]
      exact hnothing
    · exact hnothing
  | dropConsumer =>
    rw [Call.record]
    split
    · rw [Ledger.published_settle]
      exact hnothing
    · exact hnothing

/-- Nothing that is freed comes back. -/
theorem Ledger.Valid.freed_le_record (hl : l.Valid) (c : Call α) :
    l.freed ≤ (c.record l).freed := by
  have hkept := Nat.le_refl l.freed
  cases c with
  | push config =>
    rw [Call.record]
    split
    · next hopen => exact hl.spared (by rw [hopen]; rfl)
    · exact hkept
  | poll =>
    rw [Call.record]
    split <;> exact hkept
  | pollNext =>
    rw [Call.record]
    split <;> exact hkept
  | latest => exact hkept
  | dropProducer =>
    rw [Call.record]
    split
    · exact Ledger.freed_le_settle (l := { l with producerOpen := false }) hl.freed_le
    · exact hkept
  | dropConsumer =>
    rw [Call.record]
    split
    · exact Ledger.freed_le_settle (l := { l with consumerOpen := false }) hl.freed_le
    · exact hkept

/-- The freed part of a ledger after a call is the freed part before and what the call freed. -/
theorem Matches.freed_record (h : q.Matches l) (hl : l.Valid) (c : Call α) :
    (c.record l).published.take (c.record l).freed =
      l.published.take l.freed ++ (c.run q).freed := by
  have hbefore : l.published.take l.freed =
      ((c.record l).published.take (c.record l).freed).take l.freed := by
    rw [List.take_take, Nat.min_eq_left (hl.freed_le_record c), h.published_record,
      List.take_append_of_le_length hl.freed_le]
  rw [(h.run hl c).2, hbefore, List.take_append_drop]

/-- By induction over the calls: the chain is always laid out as some ledger of its history
says. -/
theorem Matches.after (h : q.Matches l) (hl : l.Valid) (calls : List (Call α)) :
    ∃ l' : Ledger α, (Handoff.after calls q).Matches l' ∧ l'.Valid ∧
      l'.published = l.published ++ publishedBy calls q ∧
      l'.published.take l'.freed = l.published.take l.freed ++ freedBy calls q := by
  induction calls generalizing q l with
  | nil => exact ⟨l, h, hl, (List.append_nil _).symm, (List.append_nil _).symm⟩
  | cons c cs ih =>
    obtain ⟨l', h', hl', hpublished, hfreed⟩ := ih (h.run hl c).1 (hl.record c)
    refine ⟨l', h', hl', ?_, ?_⟩
    · rw [hpublished, h.published_record, List.append_assoc]
      rfl
    · rw [hfreed, h.freed_record hl, List.append_assoc]
      rfl

end Ledgers

/-! ## The nodes in memory -/

section Memory

variable {q : Handoff α} {l : Ledger α}

/-- A node is in memory from its publication until it is freed. -/
theorem Matches.node?_ne_none (h : q.Matches l) (i : Nat) :
    q.node? i ≠ none ↔ l.freed ≤ i ∧ i < l.published.length := by
  rw [h.node]
  rcases Nat.lt_or_ge i l.freed with hlt | hge
  · rw [Ledger.node?_of_lt hlt]
    constructor
    · intro hne
      exact absurd rfl hne
    · rintro ⟨hle, -⟩
      omega
  · rw [Ledger.node?_of_le hge]
    simp [hge]

theorem Matches.eq_layout (h : q.Matches l) {i : Nat} {n : HandoffNode α}
    (hnode : q.node? i = some n) :
    ∃ config, l.published[i]? = some config ∧
      n = layout l.published.length l.place i config := by
  have hle := ((h.node?_ne_none i).1 (by rw [hnode]; nofun)).1
  rw [h.node, Ledger.node?_of_le hle, Option.map_eq_some_iff] at hnode
  obtain ⟨config, hconfig, rfl⟩ := hnode
  exact ⟨config, hconfig, rfl⟩

/-- No link leads to a node that is freed, and links lead to all others. -/
theorem Matches.reached_iff (h : q.Matches l) (i : Nat) : Reached q i ↔ q.node? i ≠ none := by
  rw [h.node?_ne_none]
  constructor
  · intro hreached
    induction hreached with
    | root hroot =>
      rw [h.root] at hroot
      split at hroot
      · next hlt =>
        cases hroot
        exact ⟨Nat.le_refl _, hlt⟩
      · cases hroot
    | next hi hnode hnext ih =>
      obtain ⟨config, -, rfl⟩ := h.eq_layout hnode
      simp only [layout] at hnext
      split at hnext
      · next hlt =>
        cases hnext
        exact ⟨Nat.le_succ_of_le ih.1, hlt⟩
      · cases hnext
  · rintro ⟨hle, hlt⟩
    -- by induction along the links from the oldest node
    induction i, hle using Nat.le_induction with
    | base => exact .root (by rw [h.root, if_pos hlt])
    | succ i hle ih =>
      have hbefore : i < l.published.length := Nat.lt_of_succ_lt hlt
      have hnode : q.node? i = some (layout l.published.length l.place i l.published[i]) := by
        rw [h.node, Ledger.node?_of_le hle, List.getElem?_eq_getElem hbefore]
        rfl
      exact .next (ih hbefore) hnode (if_pos hlt)

theorem Matches.mem_chain (h : q.Matches l) {n : Nat × HandoffNode α} (hn : n ∈ q.chain) :
    q.node? n.1 = some n.2 := by
  rw [h.chain, List.mem_map] at hn
  obtain ⟨⟨config, i⟩, hc, rfl⟩ := hn
  obtain ⟨hle, hconfig⟩ := List.mk_mem_zipIdx_iff_le_and_getElem?_sub.1 hc
  rw [List.getElem?_drop, Nat.add_sub_cancel' hle] at hconfig
  rw [h.node, Ledger.node?_of_le hle, hconfig]
  rfl

theorem Matches.accounts (h : q.Matches l) (hl : l.Valid) :
    Accounts l.published (l.published.take l.freed) q := by
  have hlength : (l.published.take l.freed).length = l.freed :=
    List.length_take_of_le hl.freed_le
  refine ⟨List.take_prefix .., ?_, ?_, h.reached_iff, fun n hn => h.mem_chain hn, ?_, ?_, ?_, ?_,
    ?_⟩
  · rw [h.place_eq]
    exact hl.place_le
  · rw [hlength]
    exact h.node?_ne_none
  · rw [hlength]
    exact h.chain_numbers
  · rw [hlength]
    exact h.chain_configs
  · intro n hn
    obtain ⟨config, -, hlayout⟩ := h.eq_layout (h.mem_chain hn)
    rw [hlayout, h.place_eq]
    simp [layout]
  · intro hleft
    have hspared := hl.spared (by rw [← h.producerOpen, ← h.consumerOpen]; exact hleft)
    have hplace := hl.place_le
    rw [h.tail, ← List.getLast?_map, h.chain_numbers, List.getLast?_range']
    cases hcount : l.published.length with
    | zero => rw [Nat.zero_sub, if_pos rfl, numberAt]
    | succ k =>
      have hsome : k + 1 - l.freed ≠ 0 := by omega
      have hlast : l.freed + (k + 1 - l.freed) - 1 = k := by omega
      rw [if_neg hsome, hlast, numberAt]
  · intro hleft i hcurrent
    have hspared := hl.spared (by rw [← h.producerOpen, ← h.consumerOpen]; exact hleft)
    have hplace := hl.place_le
    rw [h.current, numberAt_eq_some] at hcurrent
    rw [h.chain_numbers, List.mem_range'_1]
    omega

end Memory

/-! ## What a call frees -/

section Freed

variable {q : Handoff α} {l : Ledger α}

/-- What the calls that drop a handle free. -/
theorem Ledger.freed_settle (l l' : Ledger α) (hpublished : l'.published = l.published)
    (hfreed : l'.freed = l.freed) :
    (l'.settle.published.take l'.settle.freed).drop l.freed =
      if l'.producerOpen || l'.consumerOpen then [] else l.published.drop l.freed := by
  unfold Ledger.settle
  split
  · rw [← hfreed]
    exact l'.slice_self
  · show (l'.published.take l'.published.length).drop l.freed = _
    rw [List.take_length, hpublished]

theorem Matches.freed_run (h : q.Matches l) (hl : l.Valid) (c : Call α) :
    (c.run q).freed = c.frees l.published (l.published.take l.freed) q := by
  have hlength : (l.published.take l.freed).length = l.freed :=
    List.length_take_of_le hl.freed_le
  have hplace := hl.place_le
  rw [(h.run hl c).2]
  cases c with
  | push config =>
    rw [Call.record, Call.frees, h.producerOpen, h.place_eq, hlength]
    split
    · -- the consumer has not left the new node behind
      show ((l.published ++ [config]).take (l.place - 1)).drop l.freed = _
      rw [List.take_append_of_le_length (by omega)]
    · exact l.slice_self
  | poll =>
    rw [Call.record, Call.frees]
    split <;> exact l.slice_self
  | pollNext =>
    rw [Call.record, Call.frees]
    split <;> exact l.slice_self
  | latest => exact l.slice_self
  | dropProducer =>
    rw [Call.record, Call.frees, h.producerOpen, h.consumerOpen, hlength]
    cases l.producerOpen with
    | false => exact l.slice_self
    | true =>
      rw [if_pos rfl, l.freed_settle { l with producerOpen := false } rfl rfl]
      cases l.consumerOpen <;> rfl
  | dropConsumer =>
    rw [Call.record, Call.frees, h.producerOpen, h.consumerOpen, hlength]
    cases l.consumerOpen with
    | false => exact l.slice_self
    | true =>
      rw [if_pos rfl, l.freed_settle { l with consumerOpen := false } rfl rfl]
      cases l.producerOpen <;> rfl

/-- After a publication the chain has no nodes that the consumer has left behind. -/
theorem Matches.liveNodes_push (h : q.Matches l) (hl : l.Valid) (hopen : q.producerOpen = true)
    (config : α) :
    ((Call.push config).run q).after.liveNodes = l.published.length + 1 - (l.place - 1) := by
  have hrun := (h.run hl (.push config)).1
  have hrecord : (Call.push config).record l = (l.publish config).free (l.place - 1) :=
    if_pos (h.producerOpen ▸ hopen)
  have hlength : (l.publish config).published.length = l.published.length + 1 := by
    simp [Ledger.publish]
  rw [hrun.liveNodes, hrecord, ← hlength]
  rfl

/-- When every handle that is left goes, the rest is freed. -/
theorem Matches.close (h : q.Matches l) (hl : l.Valid) :
    l.published.take l.freed ++ q.close.1 = l.published := by
  unfold Handoff.close
  rw [h.producerOpen, h.consumerOpen]
  cases hleft : l.producerOpen || l.consumerOpen with
  | true =>
    have hclosed : Matches { q with producerOpen := false, consumerOpen := false }
        { l with producerOpen := false, consumerOpen := false } :=
      { h with producerOpen := rfl, consumerOpen := rfl }
    rw [if_pos rfl, hclosed.freeAll.1, List.take_append_drop]
  | false =>
    rw [if_neg nofun, hl.spent hleft, List.take_length]
    exact List.append_nil _

end Freed

/-- Whatever calls are made on a new handoff, the nodes in memory are the contiguous run of the
chain, from the oldest that is not freed to the newest, with the flags on those before the
consumer's. No call of the consumer frees anything, and neither does the drop of the first handle.
A publication frees the nodes that the consumer has left behind and that are not freed yet, oldest
first, and the drop of the second handle all that are left. So in the end every node is freed
once. -/
theorem reclaims_exactly (calls : List (Call α)) :
    let q := after calls empty
    let published := publishedBy calls empty
    let freed := freedBy calls empty
    Accounts published freed q ∧
      (∀ c : Call α, (c.run q).freed = c.frees published freed q) ∧
      (q.producerOpen = true → ∀ config, ((Call.push config).run q).after.liveNodes =
        published.length + 1 - (q.place - 1)) ∧
      (q.producerOpen = false → q.consumerOpen = false → freed = published) ∧
      freed ++ q.close.1 = published := by
  intro q published freed
  obtain ⟨l, h, hl, hpublished, hfreed⟩ := matches_empty.after Ledger.valid_empty calls
  have hall : published = l.published := hpublished.symm
  have hpart : freed = l.published.take l.freed := hfreed.symm
  rw [hall, hpart]
  refine ⟨h.accounts hl, fun c => h.freed_run hl c, ?_, ?_, h.close hl⟩
  · intro hopen config
    rw [h.place_eq]
    exact h.liveNodes_push hl hopen config
  · intro hproducer hconsumer
    have hspent := hl.spent (by rw [← h.producerOpen, ← h.consumerOpen, hproducer, hconsumer]; rfl)
    rw [hspent, List.take_length]

/-- The consumer skips two of three configurations, and the next publication frees them. The
producer goes first, and the rest is freed with the consumer. -/
theorem reclaims_exactly_skipped :
    let calls : List (Call Nat) :=
      [.push 1, .push 2, .push 3, .poll, .push 4, .dropProducer, .pollNext]
    let q := after calls empty
    Accounts [1, 2, 3, 4] [1, 2] q ∧ q.chain.map Prod.fst = [2, 3] ∧ q.place = 4 ∧
      (Call.dropConsumer.run q).freed = [3, 4] := by
  intro calls q
  have haccounts := (reclaims_exactly calls).1
  have hpublished : publishedBy calls empty = [1, 2, 3, 4] := by decide
  have hfreed : freedBy calls empty = [1, 2] := by decide
  rw [hpublished, hfreed] at haccounts
  exact ⟨haccounts, haccounts.chain_numbers, by decide, by decide⟩

end BlockFlow.Handoff
