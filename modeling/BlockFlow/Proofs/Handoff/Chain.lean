import BlockFlow.Handoff
import Mathlib.Data.List.Basic
import Mathlib.Tactic.Common

/-!
# The chain of a handoff

A ledger says in a few numbers what the calls on a chain have come to: what was published, how
many of the oldest nodes are freed, and where the consumer is. `Matches` lays the chain out node
by node as a ledger says, and each call changes the chain as it changes the ledger
(`Matches.run`). The consumer's node and those after it are never freed as long as a handle is
left (`Ledger.Valid`).
-/

set_option autoImplicit false

namespace BlockFlow.Handoff

universe u

variable {α : Type u}

/-- The number of the node in a place. Places count from one, and nothing is in place zero. -/
def numberAt : Nat → Option Nat
  | 0 => none
  | i + 1 => some i

theorem numberAt_eq_some {n i : Nat} : numberAt n = some i ↔ n = i + 1 := by
  cases n with
  | zero => simp [numberAt]
  | succ n => simp [numberAt]

/-! ## Ledgers -/

/-- What the calls on a chain have come to. -/
structure Ledger (α : Type u) where
  /-- The configurations published, in order. -/
  published : List α
  /-- How many nodes are freed. They are the oldest. -/
  freed : Nat
  /-- The place of the consumer's node, zero before it has one. -/
  place : Nat
  producerOpen : Bool
  consumerOpen : Bool

/-- Node `i` of `count`, when the consumer is at a place: each node but the newest points to the
one published next, and the consumer has flagged those before its own. -/
def layout (count place i : Nat) (config : α) : HandoffNode α :=
  { config
    next := if i + 1 < count then some (i + 1) else none
    abandoned := decide (i + 1 < place) }

namespace Ledger

/-- Before the first call. -/
def empty : Ledger α :=
  { published := [], freed := 0, place := 0, producerOpen := true, consumerOpen := true }

/-- The node under a number, unless it is freed. -/
def node? (l : Ledger α) (i : Nat) : Option (HandoffNode α) :=
  if i < l.freed then none else l.published[i]?.map (layout l.published.length l.place i)

/-- One more configuration is published. -/
def publish (l : Ledger α) (config : α) : Ledger α :=
  { l with published := l.published ++ [config] }

/-- The oldest `n` nodes are freed. -/
def free (l : Ledger α) (n : Nat) : Ledger α := { l with freed := n }

/-- The consumer is at a place. -/
def moveTo (l : Ledger α) (place : Nat) : Ledger α := { l with place }

/-- Only what the consumer has left behind is freed while a handle is left, and everything when
none is. -/
structure Valid (l : Ledger α) : Prop where
  place_le : l.place ≤ l.published.length
  freed_le : l.freed ≤ l.published.length
  spared : (l.producerOpen || l.consumerOpen) = true → l.freed ≤ l.place - 1
  spent : (l.producerOpen || l.consumerOpen) = false → l.freed = l.published.length

theorem valid_empty : (empty : Ledger α).Valid where
  place_le := Nat.le_refl 0
  freed_le := Nat.le_refl 0
  spared _ := Nat.le_refl 0
  spent _ := rfl

theorem node?_of_lt {l : Ledger α} {i : Nat} (hi : i < l.freed) : l.node? i = none :=
  if_pos hi

theorem node?_of_le {l : Ledger α} {i : Nat} (hi : l.freed ≤ i) :
    l.node? i = l.published[i]?.map (layout l.published.length l.place i) :=
  if_neg (Nat.not_lt.2 hi)

end Ledger

/-- The chain is laid out as the ledger says. -/
structure Matches (q : Handoff α) (l : Ledger α) : Prop where
  size : q.nodes.size = l.published.length
  node : ∀ i, q.node? i = l.node? i
  root : q.root = if l.freed < l.published.length then some l.freed else none
  tail : q.tail = numberAt l.published.length
  current : q.current = numberAt l.place
  producerOpen : q.producerOpen = l.producerOpen
  consumerOpen : q.consumerOpen = l.consumerOpen

theorem matches_empty : (empty : Handoff α).Matches .empty where
  size := rfl
  node i := by simp [empty, Handoff.node?, Ledger.empty, Ledger.node?]
  root := rfl
  tail := rfl
  current := rfl
  producerOpen := rfl
  consumerOpen := rfl

/-! ## Publishing -/

section Publish

variable {q : Handoff α} {l : Ledger α}

theorem node?_updateNode (q : Handoff α) (i j : Nat) (f : HandoffNode α → HandoffNode α) :
    (q.updateNode i f).node? j = if i = j then (q.node? j).map f else q.node? j := by
  simp only [Handoff.node?, updateNode, Array.getElem?_modify]
  by_cases hij : i = j
  · simp only [if_pos hij]
    cases q.nodes[j]? with
    | none => rfl
    | some place => rfl
  · simp only [if_neg hij]

/-- An appended node comes after all others. -/
theorem node?_link_self (q : Handoff α) (config : α) (htail : q.tail ≠ some q.nodes.size) :
    (q.link config).node? q.nodes.size =
      some (layout (q.nodes.size + 1) 0 q.nodes.size config) := by
  cases hlast : q.tail with
  | none => simp [link, hlast, Handoff.node?, layout]
  | some last =>
    have hne : last ≠ q.nodes.size := by
      rintro rfl
      exact htail hlast
    simp only [link, hlast, node?_updateNode, if_neg hne]
    simp [Handoff.node?, layout]

/-- The node that was the newest points to an appended node. -/
theorem node?_link_of_ne (q : Handoff α) (config : α) {i : Nat} (hi : i ≠ q.nodes.size) :
    (q.link config).node? i =
      if q.tail = some i then (q.node? i).map fun n => { n with next := some q.nodes.size }
      else q.node? i := by
  have hold : (q.nodes.push (some { config, next := none, abandoned := false }))[i]? =
      q.nodes[i]? := by
    rw [Array.getElem?_push, if_neg hi]
  cases htail : q.tail with
  | none => simp [link, htail, Handoff.node?, hold]
  | some last =>
    simp only [link, htail, node?_updateNode, Option.some.injEq]
    simp [Handoff.node?, hold]

theorem layout_succ {count i : Nat} (hi : i < count) (place : Nat) (config : α) :
    layout (count + 1) place i config =
      if count = i + 1 then { layout count place i config with next := some count }
      else layout count place i config := by
  by_cases hlast : count = i + 1
  · simp [layout, hlast]
  · have hbefore : i + 1 < count := by omega
    simp [layout, hlast, hbefore, hi]

theorem Ledger.Valid.node?_publish_self (hl : l.Valid) (config : α) :
    (l.publish config).node? l.published.length =
      some (layout (l.published.length + 1) 0 l.published.length config) := by
  have hplace := hl.place_le
  have hahead : ¬ l.published.length + 1 < l.place := by omega
  rw [Ledger.node?_of_le (l := l.publish config) hl.freed_le]
  simp [publish, layout, hahead]

theorem Ledger.node?_publish_of_ne (l : Ledger α) (config : α) {i : Nat}
    (hi : i ≠ l.published.length) :
    (l.publish config).node? i =
      if l.published.length = i + 1 then
        (l.node? i).map fun n => { n with next := some l.published.length }
      else l.node? i := by
  by_cases hfreed : i < l.freed
  · simp [node?_of_lt hfreed, node?_of_lt (l := l.publish config) hfreed]
  rw [node?_of_le (Nat.le_of_not_lt hfreed),
    node?_of_le (l := l.publish config) (Nat.le_of_not_lt hfreed)]
  rcases Nat.lt_or_gt_of_ne hi with hlt | hgt
  · have hold : (l.published ++ [config])[i]? = l.published[i]? := List.getElem?_append_left hlt
    simp only [publish, hold, List.length_append, List.length_singleton]
    rw [show layout (l.published.length + 1) l.place i = _ from funext (layout_succ hlt l.place)]
    by_cases hlast : l.published.length = i + 1
    · simp [hlast]
    · simp only [if_neg hlast]
  · have hlast : l.published.length ≠ i + 1 := by omega
    have hold : l.published[i]? = none := List.getElem?_eq_none (Nat.le_of_lt hgt)
    have hnew : (l.published ++ [config])[i]? = none := by
      apply List.getElem?_eq_none
      rw [List.length_append, List.length_singleton]
      exact hgt
    simp only [publish, hold, hnew, if_neg hlast, Option.map_none]

theorem size_link (q : Handoff α) (config : α) :
    (q.link config).nodes.size = q.nodes.size + 1 := by
  cases hlast : q.tail with
  | none => simp [link, hlast]
  | some last => simp [link, hlast, updateNode]

theorem root_link (q : Handoff α) (config : α) :
    (q.link config).root = if q.tail = none then some q.nodes.size else q.root := by
  cases hlast : q.tail with
  | none => simp [link, hlast]
  | some last => simp [link, hlast, updateNode]

/-- The appended node is the oldest of an empty chain, and of no other. -/
theorem Matches.root_link_eq (h : q.Matches l) (hl : l.Valid) (hopen : l.producerOpen = true)
    (config : α) : (q.link config).root = some l.freed := by
  have hspared := hl.spared (by rw [hopen]; rfl)
  have hplace := hl.place_le
  rw [root_link, h.tail, h.size, h.root]
  cases hcount : l.published.length with
  | zero =>
    have hnone : l.freed = 0 := by omega
    rw [numberAt, if_pos rfl, hnone]
  | succ n =>
    have hlt : l.freed < n + 1 := by omega
    rw [numberAt, if_neg (Option.some_ne_none n), if_pos hlt]

/-- Appending a node publishes its configuration. -/
theorem Matches.link (h : q.Matches l) (hl : l.Valid) (hopen : l.producerOpen = true)
    (config : α) : (q.link config).Matches (l.publish config) := by
  have hfields : (q.link config).tail = some q.nodes.size ∧ (q.link config).current = q.current ∧
      (q.link config).producerOpen = q.producerOpen ∧
      (q.link config).consumerOpen = q.consumerOpen := by
    unfold Handoff.link
    cases q.tail <;> exact ⟨rfl, rfl, rfl, rfl⟩
  obtain ⟨htail, hcurrent, hproducer, hconsumer⟩ := hfields
  refine ⟨?_, ?_, ?_, ?_, hcurrent.trans h.current, hproducer.trans h.producerOpen,
    hconsumer.trans h.consumerOpen⟩
  · rw [size_link, h.size]
    simp [Ledger.publish]
  · intro i
    by_cases hi : i = q.nodes.size
    · have hnew : q.tail ≠ some q.nodes.size := by
        rw [h.tail, h.size]
        intro heq
        have hcount := numberAt_eq_some.1 heq
        omega
      subst hi
      rw [node?_link_self q config hnew, h.size, hl.node?_publish_self]
    · rw [node?_link_of_ne q config hi, h.tail, h.node, h.size,
        Ledger.node?_publish_of_ne l config (h.size ▸ hi)]
      simp only [numberAt_eq_some]
  · have hfreed : l.freed < (l.publish config).published.length := by
      have hle := hl.freed_le
      simp [Ledger.publish]
      omega
    rw [h.root_link_eq hl hopen]
    exact (if_pos hfreed).symm
  · rw [htail, h.size]
    simp [Ledger.publish, numberAt]

end Publish

/-! ## Reclaiming -/

section Reclaim

variable {q : Handoff α} {l : Ledger α}

theorem node?_setIfInBounds_none (q : Handoff α) (root : Option Nat) (i j : Nat) :
    ({ q with nodes := q.nodes.setIfInBounds i none, root } : Handoff α).node? j =
      if i = j then none else q.node? j := by
  simp only [Handoff.node?]
  by_cases hij : i = j
  · subst hij
    rw [if_pos rfl, Array.getElem?_setIfInBounds_self]
    split <;> rfl
  · rw [if_neg hij, Array.getElem?_setIfInBounds_ne hij]

theorem Ledger.node?_free_succ (l : Ledger α) (i : Nat) :
    (l.free (l.freed + 1)).node? i = if l.freed = i then none else l.node? i := by
  rcases Nat.lt_trichotomy i l.freed with hlt | rfl | hgt
  · rw [node?_of_lt (l := l.free (l.freed + 1)) (Nat.lt_succ_of_lt hlt), node?_of_lt hlt, ite_self]
  · rw [node?_of_lt (l := l.free (l.freed + 1)) (Nat.lt_succ_self _), if_pos rfl]
  · rw [node?_of_le (l := l.free (l.freed + 1)) hgt, if_neg (Nat.ne_of_lt hgt),
      node?_of_le (Nat.le_of_lt hgt)]
    rfl

/-- The oldest node is freed if the consumer has left it behind. -/
theorem Matches.freeRoot?_of_lt (h : q.Matches l) (hplace : l.place ≤ l.published.length)
    (hlt : l.freed + 1 < l.place) {config : α} (hconfig : l.published[l.freed]? = some config) :
    ∃ q', q.freeRoot? = some (config, q') ∧ q'.Matches (l.free (l.freed + 1)) := by
  have hroot : q.root = some l.freed := by rw [h.root, if_pos (by omega)]
  have hnode : q.node? l.freed =
      some { config, next := some (l.freed + 1), abandoned := true } := by
    have hnext : l.freed + 1 < l.published.length := by omega
    rw [h.node, Ledger.node?_of_le (Nat.le_refl _), hconfig]
    simp [layout, hnext, hlt]
  refine ⟨{ q with
    nodes := q.nodes.setIfInBounds l.freed none
    root := some (l.freed + 1) }, ?_, ?_⟩
  · simp [freeRoot?, hroot, hnode]
  refine { h with size := ?_, node := ?_, root := ?_ }
  · rw [Array.size_setIfInBounds]
    exact h.size
  · intro i
    rw [node?_setIfInBounds_none, l.node?_free_succ, h.node]
  · show some (l.freed + 1) = if l.freed + 1 < l.published.length then some (l.freed + 1) else none
    rw [if_pos (by omega)]

/-- The oldest node stays if the consumer has not left it behind. -/
theorem Matches.freeRoot?_of_le (h : q.Matches l) (hle : l.place ≤ l.freed + 1) :
    q.freeRoot? = none := by
  have hkept : ¬ l.freed + 1 < l.place := Nat.not_lt.2 hle
  by_cases hleft : l.freed < l.published.length
  · have hnode : q.node? l.freed = some (layout l.published.length l.place l.freed
        l.published[l.freed]) := by
      rw [h.node, Ledger.node?_of_le (Nat.le_refl _), List.getElem?_eq_getElem hleft]
      rfl
    simp [freeRoot?, h.root, hleft, hnode, layout, hkept]
  · simp [freeRoot?, h.root, hleft]

/-- What the consumer has left behind is freed, from the oldest on. -/
theorem Matches.reclaimFor (h : q.Matches l) (hplace : l.place ≤ l.published.length) {n fuel : Nat}
    (hn : l.freed + n = l.place - 1) (hfuel : n ≤ fuel) :
    ∃ q', q.reclaimFor fuel = ((l.published.drop l.freed).take n, q') ∧
      q'.Matches (l.free (l.freed + n)) := by
  induction fuel generalizing n q l with
  | zero =>
    obtain rfl : n = 0 := Nat.le_zero.1 hfuel
    exact ⟨q, rfl, h⟩
  | succ fuel ih =>
    cases n with
    | zero =>
      refine ⟨q, ?_, h⟩
      rw [Handoff.reclaimFor, h.freeRoot?_of_le (by omega)]
      rfl
    | succ n =>
      have hleft : l.freed < l.published.length := by omega
      have hrest : (l.free (l.freed + 1)).freed + n = l.place - 1 := by
        show l.freed + 1 + n = l.place - 1
        omega
      obtain ⟨q₁, hroot, h₁⟩ := h.freeRoot?_of_lt hplace (by omega) (List.getElem?_eq_getElem hleft)
      obtain ⟨q₂, hreclaim, h₂⟩ := ih h₁ hplace hrest (by omega)
      have hcount : l.freed + 1 + n = l.freed + (n + 1) := by omega
      refine ⟨q₂, ?_, hcount ▸ h₂⟩
      rw [Handoff.reclaimFor, hroot]
      show (l.published[l.freed] :: (q₁.reclaimFor fuel).1, (q₁.reclaimFor fuel).2) = _
      rw [hreclaim, List.drop_eq_getElem_cons hleft]
      rfl

/-- A publication frees what the consumer has left behind. -/
theorem Matches.push (h : q.Matches l) (hl : l.Valid) (hopen : l.producerOpen = true) (config : α) :
    ∃ q', q.push config =
        (((l.publish config).published.take (l.place - 1)).drop l.freed, q') ∧
      q'.Matches ((l.publish config).free (l.place - 1)) := by
  have hspared := hl.spared (by rw [hopen]; rfl)
  have hplace := hl.place_le
  have hlinked := h.link hl hopen config
  have hlength : (l.publish config).published.length = l.published.length + 1 := by
    simp [Ledger.publish]
  have hfuel : l.place - 1 - l.freed ≤ (q.link config).nodes.size := by
    rw [hlinked.size]
    omega
  have hcount : l.freed + (l.place - 1 - l.freed) = l.place - 1 := by omega
  obtain ⟨q', hreclaim, h'⟩ := hlinked.reclaimFor (show l.place ≤ _ by omega)
    (show l.freed + _ = l.place - 1 from hcount) hfuel
  refine ⟨q', ?_, hcount ▸ h'⟩
  rw [List.drop_take]
  exact hreclaim

end Reclaim

/-! ## The consumer -/

section Consumer

variable {q : Handoff α} {l : Ledger α}

/-- The consumer's node is not freed. -/
theorem Ledger.Valid.freed_lt (hl : l.Valid) (hopen : l.consumerOpen = true) (hpos : 0 < l.place) :
    l.freed < l.place := by
  have hspared := hl.spared (by rw [hopen, Bool.or_true])
  omega

/-- The consumer without a node takes the oldest one, if there is one. -/
theorem Matches.enter (h : q.Matches l) (hl : l.Valid) (hopen : l.consumerOpen = true) :
    q.enter.Matches (l.moveTo (max l.place (min 1 l.published.length))) := by
  have hcurrent := h.current
  cases hplace : l.place with
  | zero =>
    have hspared := hl.spared (by rw [hopen, Bool.or_true])
    have hfreed : l.freed = 0 := by omega
    have hroot : q.root = numberAt (min 1 l.published.length) := by
      rw [h.root, hfreed]
      cases l.published with
      | nil => rfl
      | cons config rest => simp [numberAt]
    rw [hplace, numberAt] at hcurrent
    rw [Handoff.enter, hcurrent, Nat.max_eq_right (Nat.zero_le _)]
    refine { h with node := ?_, current := hroot }
    intro i
    -- the consumer at the oldest node has left nothing behind
    have hbehind : ¬ i + 1 < min 1 l.published.length := by omega
    have hlayout : layout (α := α) l.published.length (min 1 l.published.length) i =
        layout l.published.length 0 i := by
      funext config
      simp [layout, hbehind]
    show q.node? i = if i < l.freed then none
      else l.published[i]?.map (layout l.published.length (min 1 l.published.length) i)
    rw [h.node, Ledger.node?, hplace, hlayout]
  | succ k =>
    have hkept : l.moveTo (max (k + 1) (min 1 l.published.length)) = l := by
      rw [Nat.max_eq_left (by omega), ← hplace]
      rfl
    rw [hplace, numberAt] at hcurrent
    rw [Handoff.enter, hcurrent, hkept]
    exact h

theorem Ledger.node?_moveTo_succ (l : Ledger α) (i : Nat) :
    (l.moveTo (l.place + 1)).node? i =
      if l.place = i + 1 then (l.node? i).map fun n => { n with abandoned := true }
      else l.node? i := by
  by_cases hfreed : i < l.freed
  · simp [node?_of_lt hfreed, node?_of_lt (l := l.moveTo (l.place + 1)) hfreed]
  rw [node?_of_le (Nat.le_of_not_lt hfreed),
    node?_of_le (l := l.moveTo (l.place + 1)) (Nat.le_of_not_lt hfreed)]
  show l.published[i]?.map (layout l.published.length (l.place + 1) i) = _
  by_cases hleft : l.place = i + 1
  · rw [if_pos hleft, Option.map_map]
    congr 1
    funext config
    simp [layout, hleft]
  · have hsame : i + 1 < l.place + 1 ↔ i + 1 < l.place := by omega
    rw [if_neg hleft]
    congr 1
    funext config
    simp [layout, hsame]

/-- The node that the consumer reads. -/
theorem Matches.current_node (h : q.Matches l) (hl : l.Valid) (hopen : l.consumerOpen = true)
    {k : Nat} (hplace : l.place = k + 1) :
    ∃ config, l.published[k]? = some config ∧
      q.node? k = some (layout l.published.length l.place k config) := by
  have hle := hl.place_le
  have hfreed := hl.freed_lt hopen (by omega)
  have hk : k < l.published.length := by omega
  refine ⟨l.published[k], List.getElem?_eq_getElem hk, ?_⟩
  rw [h.node, Ledger.node?_of_le (by omega), List.getElem?_eq_getElem hk]
  rfl

/-- The consumer moves on to the next node, if there is one, and flags the node that it leaves. -/
theorem Matches.step?_of_lt (h : q.Matches l) (hl : l.Valid) (hopen : l.consumerOpen = true)
    (hpos : 0 < l.place) (hlt : l.place < l.published.length) :
    ∃ q', q.step? = some q' ∧ q'.Matches (l.moveTo (l.place + 1)) := by
  obtain ⟨k, hplace⟩ : ∃ k, l.place = k + 1 := ⟨l.place - 1, by omega⟩
  obtain ⟨config, -, hnode⟩ := h.current_node hl hopen hplace
  have hcurrent : q.current = some k := by rw [h.current, hplace, numberAt]
  have hnext : k + 1 < l.published.length := by omega
  refine ⟨{ q.updateNode k (fun n => { n with abandoned := true }) with current := some (k + 1) },
    ?_, ?_⟩
  · simp [step?, hcurrent, hnode, layout, hnext]
  refine { h with size := ?_, node := ?_, current := ?_ }
  · show (q.updateNode k _).nodes.size = _
    rw [updateNode, Array.size_modify]
    exact h.size
  · intro i
    show (q.updateNode k _).node? i = _
    rw [node?_updateNode, l.node?_moveTo_succ, h.node, hplace]
    simp only [Nat.add_right_cancel_iff]
  · show some (k + 1) = numberAt (l.place + 1)
    rw [hplace, numberAt]

/-- The consumer stays at the newest node. -/
theorem Matches.step?_of_eq (h : q.Matches l) (hl : l.Valid) (hopen : l.consumerOpen = true)
    (hlast : l.place = l.published.length) : q.step? = none := by
  cases hplace : l.place with
  | zero => simp [step?, h.current, hplace, numberAt]
  | succ k =>
    obtain ⟨config, -, hnode⟩ := h.current_node hl hopen hplace
    have hend : ¬ k + 1 < l.published.length := by omega
    simp [step?, h.current, hplace, numberAt, hnode, layout, hend]

/-- The consumer may move without a change to what is freed. -/
theorem Ledger.Valid.moveTo (hl : l.Valid) {place : Nat} (hle : place ≤ l.published.length)
    (hahead : l.place ≤ place) : (l.moveTo place).Valid where
  place_le := hle
  freed_le := hl.freed_le
  spared hopen := Nat.le_trans (hl.spared hopen) (Nat.sub_le_sub_right hahead 1)
  spent := hl.spent

/-- With enough moves the consumer comes to the newest node. -/
theorem Matches.advanceFor (h : q.Matches l) (hl : l.Valid) (hopen : l.consumerOpen = true)
    (hpos : 0 < l.place) {fuel : Nat} (hfuel : l.published.length ≤ l.place + fuel) :
    (q.advanceFor fuel).Matches (l.moveTo l.published.length) := by
  have hle := hl.place_le
  induction fuel generalizing q l with
  | zero =>
    have hsame : l.moveTo l.published.length = l := by
      rw [Nat.le_antisymm hfuel hle]
      rfl
    rw [hsame]
    exact h
  | succ fuel ih =>
    rcases Nat.lt_or_eq_of_le hle with hlt | heq
    · obtain ⟨q', hstep, h'⟩ := h.step?_of_lt hl hopen hpos hlt
      have henough : l.published.length ≤ l.place + 1 + fuel := by omega
      have hmoved := ih h' (hl.moveTo hlt (Nat.le_succ _)) hopen (Nat.succ_pos _) henough hlt
      rw [Handoff.advanceFor, hstep]
      exact hmoved
    · have hsame : l.moveTo l.published.length = l := by
        rw [← heq]
        rfl
      rw [Handoff.advanceFor, h.step?_of_eq hl hopen heq, hsame]
      exact h

/-- The consumer skips ahead to the newest node. -/
theorem Matches.poll (h : q.Matches l) (hl : l.Valid) (hopen : l.consumerOpen = true) :
    q.poll.Matches (l.moveTo l.published.length) := by
  have hle := hl.place_le
  have hentered := h.enter hl hopen
  rw [Handoff.poll, hentered.size]
  show (q.enter.advanceFor l.published.length).Matches _
  rcases Nat.eq_zero_or_pos l.published.length with hnone | hpos
  · have hplace : max l.place (min 1 l.published.length) = l.published.length := by omega
    rw [hplace] at hentered
    rw [hnone] at hentered ⊢
    exact hentered
  · have hfirst : 0 < max l.place (min 1 l.published.length) := by omega
    have hvalid : (l.moveTo (max l.place (min 1 l.published.length))).Valid :=
      hl.moveTo (by omega) (by omega)
    have hmoved := hentered.advanceFor hvalid hopen hfirst (Nat.le_add_left ..)
    exact hmoved

/-- The consumer moves on by one node, if there is a next one. -/
theorem Matches.pollNext (h : q.Matches l) (hl : l.Valid) (hopen : l.consumerOpen = true) :
    q.pollNext.Matches (l.moveTo (min (l.place + 1) l.published.length)) := by
  have hle := hl.place_le
  have hcurrent := h.current
  cases hplace : l.place with
  | zero =>
    have hentered := h.enter hl hopen
    rw [hplace, numberAt] at hcurrent
    rw [hplace, Nat.max_eq_right (Nat.zero_le _)] at hentered
    rw [Handoff.pollNext, hcurrent]
    exact hentered
  | succ k =>
    rw [hplace, numberAt] at hcurrent
    rw [Handoff.pollNext, hcurrent]
    show (q.step?.getD q).Matches _
    rcases Nat.lt_or_eq_of_le hle with hlt | heq
    · obtain ⟨q', hstep, h'⟩ := h.step?_of_lt hl hopen (by omega) hlt
      rw [hstep, ← hplace, Nat.min_eq_left (by omega)]
      exact h'
    · have hsame : l.moveTo (min (k + 1 + 1) l.published.length) = l := by
        rw [Nat.min_eq_right (by omega), ← heq]
        rfl
      rw [h.step?_of_eq hl hopen heq, hsame]
      exact h

end Consumer

/-! ## The nodes in order -/

section Nodes

variable {q : Handoff α} {l : Ledger α}

/-- From a node on the chain leads through all that were published after it. -/
theorem Matches.chainFrom (h : q.Matches l) {i fuel : Nat} (hfreed : l.freed ≤ i)
    (hfuel : l.published.length ≤ i + fuel) :
    q.chainFrom fuel (if i < l.published.length then some i else none) =
      ((l.published.drop i).zipIdx i).map fun c =>
        (c.2, layout l.published.length l.place c.2 c.1) := by
  induction fuel generalizing i with
  | zero =>
    have hend : l.published.length ≤ i := hfuel
    rw [List.drop_of_length_le hend]
    rfl
  | succ fuel ih =>
    by_cases hi : i < l.published.length
    · have hnode : q.node? i = some (layout l.published.length l.place i l.published[i]) := by
        rw [h.node, Ledger.node?_of_le hfreed, List.getElem?_eq_getElem hi]
        rfl
      have hrest := ih (Nat.le_succ_of_le hfreed) (show l.published.length ≤ i + 1 + fuel by omega)
      rw [if_pos hi, Handoff.chainFrom, hnode, List.drop_eq_getElem_cons hi, List.zipIdx_cons,
        List.map_cons, ← hrest]
      rfl
    · rw [if_neg hi, List.drop_of_length_le (Nat.le_of_not_lt hi)]
      rfl

/-- The chain leads from the oldest node that is not freed to the newest. -/
theorem Matches.chain (h : q.Matches l) :
    q.chain = ((l.published.drop l.freed).zipIdx l.freed).map fun c =>
      (c.2, layout l.published.length l.place c.2 c.1) := by
  rw [Handoff.chain, h.root, h.size]
  exact h.chainFrom (Nat.le_refl _) (Nat.le_add_left ..)

theorem Matches.chain_numbers (h : q.Matches l) :
    q.chain.map Prod.fst = List.range' l.freed (l.published.length - l.freed) := by
  rw [h.chain, List.map_map]
  show ((l.published.drop l.freed).zipIdx l.freed).map Prod.snd = _
  rw [List.zipIdx_map_snd, List.length_drop]

theorem Matches.chain_configs (h : q.Matches l) :
    (q.chain.map fun n => n.2.config) = l.published.drop l.freed := by
  rw [h.chain, List.map_map]
  show ((l.published.drop l.freed).zipIdx l.freed).map Prod.fst = _
  rw [List.zipIdx_map_fst]

theorem Matches.liveNodes (h : q.Matches l) :
    q.liveNodes = l.published.length - l.freed := by
  rw [Handoff.liveNodes, ← List.length_map Prod.fst, h.chain_numbers, List.length_range']

/-- With the last handle all nodes go. -/
theorem Matches.freeAll (h : q.Matches l) :
    q.freeAll.1 = l.published.drop l.freed ∧
      q.freeAll.2.Matches (l.free l.published.length) := by
  refine ⟨h.chain_configs, { h with size := ?_, node := ?_, root := ?_ }⟩
  · show (q.nodes.map _).size = _
    rw [Array.size_map]
    exact h.size
  · intro i
    have hgone : (l.free l.published.length).node? i = none := by
      rw [Ledger.node?]
      split
      · rfl
      · next hi =>
        have hnone : l.published[i]? = none := List.getElem?_eq_none (Nat.le_of_not_lt hi)
        show l.published[i]?.map _ = none
        rw [hnone]
        rfl
    rw [hgone]
    simp only [Handoff.freeAll, Handoff.node?, Array.getElem?_map]
    cases q.nodes[i]? with
    | none => rfl
    | some place => rfl
  · exact (if_neg (Nat.lt_irrefl _)).symm

end Nodes

/-! ## Calls -/

section Calls

variable {q : Handoff α} {l : Ledger α}

/-- Without handles all nodes are freed. -/
def Ledger.settle (l : Ledger α) : Ledger α :=
  if l.producerOpen || l.consumerOpen then l else l.free l.published.length

/-- What a call does to a ledger. -/
def Call.record : Call α → Ledger α → Ledger α
  | .push config, l => if l.producerOpen then (l.publish config).free (l.place - 1) else l
  | .poll, l => if l.consumerOpen then l.moveTo l.published.length else l
  | .pollNext, l => if l.consumerOpen then l.moveTo (min (l.place + 1) l.published.length) else l
  | .latest, l => l
  | .dropProducer, l => if l.producerOpen then { l with producerOpen := false }.settle else l
  | .dropConsumer, l => if l.consumerOpen then { l with consumerOpen := false }.settle else l

theorem Ledger.Valid.settle {l' : Ledger α} (hl : l.Valid) (hpublished : l'.published = l.published)
    (hfreed : l'.freed = l.freed) (hplace : l'.place = l.place)
    (hopen : (l'.producerOpen || l'.consumerOpen) = true →
      (l.producerOpen || l.consumerOpen) = true) : l'.settle.Valid := by
  have hplace_le := hl.place_le
  have hfreed_le := hl.freed_le
  rw [← hpublished, ← hplace] at hplace_le
  rw [← hpublished, ← hfreed] at hfreed_le
  unfold Ledger.settle
  split
  · next hleft =>
    have hspared := hl.spared (hopen hleft)
    rw [← hfreed, ← hplace] at hspared
    exact ⟨hplace_le, hfreed_le, fun _ => hspared, fun hnone => absurd hleft (by rw [hnone]; nofun)⟩
  · next hnone => exact ⟨hplace_le, Nat.le_refl _, fun hleft => absurd hleft hnone, fun _ => rfl⟩

theorem Ledger.Valid.record (hl : l.Valid) (c : Call α) : (c.record l).Valid := by
  have hplace := hl.place_le
  cases c with
  | push config =>
    rw [Call.record]
    split
    · next hopen =>
      have hlength : (l.published ++ [config]).length = l.published.length + 1 := by simp
      refine ⟨?_, ?_, fun _ => Nat.le_refl _, fun hnone => ?_⟩
      · show l.place ≤ (l.published ++ [config]).length
        omega
      · show l.place - 1 ≤ (l.published ++ [config]).length
        omega
      · have hgone : (l.producerOpen || l.consumerOpen) = false := hnone
        rw [hopen] at hgone
        cases hgone
    · exact hl
  | poll =>
    rw [Call.record]
    split
    · exact hl.moveTo (Nat.le_refl _) hplace
    · exact hl
  | pollNext =>
    rw [Call.record]
    split
    · exact hl.moveTo (Nat.min_le_right ..) (by omega)
    · exact hl
  | latest => exact hl
  | dropProducer =>
    rw [Call.record]
    split
    · next hopen => exact hl.settle rfl rfl rfl fun _ => by rw [hopen]; rfl
    · exact hl
  | dropConsumer =>
    rw [Call.record]
    split
    · next hopen => exact hl.settle rfl rfl rfl fun _ => by rw [hopen, Bool.or_true]
    · exact hl

/-- What a step frees when it leaves as many nodes freed as before. -/
theorem Ledger.slice_self (l : Ledger α) : (l.published.take l.freed).drop l.freed = [] := by
  simp

/-- A handle goes, and all nodes with it if it was the last. -/
theorem Matches.settle (h : q.Matches l) :
    (if q.producerOpen || q.consumerOpen then ([], q) else q.freeAll).2.Matches l.settle ∧
      (if q.producerOpen || q.consumerOpen then ([], q) else q.freeAll).1 =
        (l.settle.published.take l.settle.freed).drop l.freed := by
  rw [h.producerOpen, h.consumerOpen, Ledger.settle]
  split
  · exact ⟨h, l.slice_self.symm⟩
  · obtain ⟨hfreed, hafter⟩ := h.freeAll
    refine ⟨hafter, hfreed.trans ?_⟩
    show _ = (l.published.take l.published.length).drop l.freed
    rw [List.take_length]

/-- A call changes the chain as it changes the ledger, and what it frees is what the ledger has
freed since. -/
theorem Matches.run (h : q.Matches l) (hl : l.Valid) (c : Call α) :
    (c.run q).after.Matches (c.record l) ∧
      (c.run q).freed = ((c.record l).published.take (c.record l).freed).drop l.freed := by
  have hnothing := l.slice_self.symm
  cases c with
  | push config =>
    by_cases hopen : l.producerOpen = true
    · obtain ⟨q', hpush, h'⟩ := h.push hl hopen config
      simp only [Call.run, Call.record, h.producerOpen, if_pos hopen, hpush]
      exact ⟨h', rfl⟩
    · simp only [Call.run, Call.record, h.producerOpen, if_neg hopen]
      exact ⟨h, hnothing⟩
  | poll =>
    by_cases hopen : l.consumerOpen = true
    · simp only [Call.run, Call.record, h.consumerOpen, if_pos hopen]
      exact ⟨h.poll hl hopen, hnothing⟩
    · simp only [Call.run, Call.record, h.consumerOpen, if_neg hopen]
      exact ⟨h, hnothing⟩
  | pollNext =>
    by_cases hopen : l.consumerOpen = true
    · simp only [Call.run, Call.record, h.consumerOpen, if_pos hopen]
      exact ⟨h.pollNext hl hopen, hnothing⟩
    · simp only [Call.run, Call.record, h.consumerOpen, if_neg hopen]
      exact ⟨h, hnothing⟩
  | latest =>
    refine ⟨?_, ?_⟩
    · simp only [Call.run, Call.record]
      split <;> exact h
    · simp only [Call.run, Call.record]
      split <;> exact hnothing
  | dropProducer =>
    by_cases hopen : l.producerOpen = true
    · have hsettled := Matches.settle (q := { q with producerOpen := false })
        (l := { l with producerOpen := false }) { h with producerOpen := rfl }
      simp only [Call.run, Call.record, h.producerOpen, if_pos hopen]
      exact hsettled
    · simp only [Call.run, Call.record, h.producerOpen, if_neg hopen]
      exact ⟨h, hnothing⟩
  | dropConsumer =>
    by_cases hopen : l.consumerOpen = true
    · have hsettled := Matches.settle (q := { q with consumerOpen := false })
        (l := { l with consumerOpen := false }) { h with consumerOpen := rfl }
      simp only [Bool.or_false] at hsettled
      simp only [Call.run, Call.record, h.consumerOpen, if_pos hopen]
      exact hsettled
    · simp only [Call.run, Call.record, h.consumerOpen, if_neg hopen]
      exact ⟨h, hnothing⟩

end Calls

end BlockFlow.Handoff
