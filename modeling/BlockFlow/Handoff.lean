import BlockFlow.Event

/-!
# Handing configurations to a real-time thread

A producer publishes configurations and a consumer reads the newest, or each in turn, without
waiting for the producer. The configurations form a chain of nodes. The consumer flags every
node it leaves behind, and only the producer frees flagged nodes, from the oldest on and each
time it publishes, so that the consumer never frees anything. What is still in the chain when
both handles are gone is freed then.

Nodes are numbered in the order in which they are published. A freed node leaves an empty place
under its number.
-/

set_option autoImplicit false

namespace BlockFlow

universe u

variable {α : Type u}

/-- A published configuration, the number of the one published after it, and whether the
consumer has left it behind. -/
structure HandoffNode (α : Type u) where
  config : α
  next : Option Nat
  abandoned : Bool

/-- The chain and both handles. -/
structure Handoff (α : Type u) where
  /-- Every node ever published, by number; `none` once it is freed. -/
  nodes : Array (Option (HandoffNode α))
  /-- The oldest node that is not freed. -/
  root : Option Nat
  /-- The newest node, kept by the producer. -/
  tail : Option Nat
  /-- The node the consumer reads. -/
  current : Option Nat
  producerOpen : Bool
  consumerOpen : Bool

namespace Handoff

/-- An empty chain with both handles. -/
def empty : Handoff α :=
  { nodes := #[], root := none, tail := none, current := none,
    producerOpen := true, consumerOpen := true }

/-- The node with a number, unless it is freed. -/
def node? (q : Handoff α) (i : Nat) : Option (HandoffNode α) :=
  q.nodes[i]?.join

/-- Changes the node with a number. -/
def updateNode (q : Handoff α) (i : Nat) (f : HandoffNode α → HandoffNode α) : Handoff α :=
  { q with nodes := q.nodes.modify i (Option.map f) }

/-- Appends a node: the tail, or the root of an empty chain, comes to point to it. -/
def link (q : Handoff α) (config : α) : Handoff α :=
  let new := q.nodes.size
  let grown := { q with
    nodes := q.nodes.push (some { config, next := none, abandoned := false })
    tail := some new }
  match q.tail with
  | none => { grown with root := some new }
  | some last => grown.updateNode last fun n => { n with next := some new }

/-- Frees the root if the consumer has left it behind; what it held, and the chain without
it. -/
def freeRoot? (q : Handoff α) : Option (α × Handoff α) :=
  q.root.bind fun i => (q.node? i).bind fun n =>
    if n.abandoned then
      some (n.config, { q with nodes := q.nodes.setIfInBounds i none, root := n.next })
    else
      none

/-- Frees at most `fuel` nodes, oldest first, as long as the root has been left behind. -/
def reclaimFor : Nat → Handoff α → List α × Handoff α
  | 0, q => ([], q)
  | fuel + 1, q =>
    match q.freeRoot? with
    | none => ([], q)
    | some (config, q') =>
      let rest := reclaimFor fuel q'
      (config :: rest.1, rest.2)

/-- Frees the nodes the consumer has left behind. There are no more than were published. -/
def reclaim (q : Handoff α) : List α × Handoff α := reclaimFor q.nodes.size q

/-- Publishes a configuration, then frees what the consumer has left behind. -/
def push (q : Handoff α) (config : α) : List α × Handoff α := (q.link config).reclaim

/-- The nodes found from number `i` on along the chain, at most `fuel` of them. -/
def chainFrom (q : Handoff α) : Nat → Option Nat → List (Nat × HandoffNode α)
  | 0, _ => []
  | _ + 1, none => []
  | fuel + 1, some i =>
    match q.node? i with
    | none => []
    | some n => (i, n) :: q.chainFrom fuel n.next

/-- The nodes of the chain, oldest first. -/
def chain (q : Handoff α) : List (Nat × HandoffNode α) := q.chainFrom q.nodes.size q.root

/-- Nodes not freed yet. -/
def liveNodes (q : Handoff α) : Nat := q.chain.length

/-- The configuration the consumer reads. -/
def latest (q : Handoff α) : Option α :=
  q.current.bind fun i => (q.node? i).map HandoffNode.config

/-- The consumer without a node takes the root, if there is one. -/
def enter (q : Handoff α) : Handoff α :=
  match q.current with
  | none => { q with current := q.root }
  | some _ => q

/-- The consumer moves to the node published next, if there is one, and flags the one it
leaves. -/
def step? (q : Handoff α) : Option (Handoff α) :=
  q.current.bind fun i => (q.node? i).bind fun n => n.next.map fun next =>
    { q.updateNode i (fun n => { n with abandoned := true }) with current := some next }

/-- At most `fuel` moves of the consumer. -/
def advanceFor : Nat → Handoff α → Handoff α
  | 0, q => q
  | fuel + 1, q =>
    match q.step? with
    | none => q
    | some q' => advanceFor fuel q'

/-- The consumer skips ahead to the newest configuration. It passes each node at most once. -/
def poll (q : Handoff α) : Handoff α :=
  let entered := q.enter
  advanceFor entered.nodes.size entered

/-- The consumer moves on by at most one configuration. -/
def pollNext (q : Handoff α) : Handoff α :=
  match q.current with
  | none => q.enter
  | some _ => q.step?.getD q

/-- Everything left in the chain is freed, oldest first. -/
def freeAll (q : Handoff α) : List α × Handoff α :=
  (q.chain.map fun n => n.2.config, { q with nodes := q.nodes.map fun _ => none, root := none })

/-- A handle goes. The second of them takes the chain with it. -/
def dropProducer (q : Handoff α) : List α × Handoff α :=
  let q := { q with producerOpen := false }
  if q.consumerOpen then ([], q) else q.freeAll

@[inherit_doc dropProducer]
def dropConsumer (q : Handoff α) : List α × Handoff α :=
  let q := { q with consumerOpen := false }
  if q.producerOpen then ([], q) else q.freeAll

/-- Every handle that is left goes. -/
def close (q : Handoff α) : List α × Handoff α :=
  if q.producerOpen || q.consumerOpen then
    { q with producerOpen := false, consumerOpen := false }.freeAll
  else
    ([], q)

/-- One call on a handle. -/
inductive Call (α : Type u) where
  | push (config : α)
  | poll
  | pollNext
  | latest
  | dropProducer
  | dropConsumer

/-- The answer to a call. -/
inductive Reply (α : Type u) where
  | ok
  | found (config : Option α)
  /-- The handle that the call needs has been dropped. -/
  | gone

/-- What a call leaves behind: the answer, what was freed in order, everything logged, and the
chain. -/
structure Step (α : Type u) where
  reply : Reply α
  freed : List α
  log : List LogEvent
  after : Handoff α

/-- A call for which the handle is gone. -/
def Step.gone (q : Handoff α) : Step α := { reply := .gone, freed := [], log := [], after := q }

/-- A call that reads a configuration. -/
def Step.read (q : Handoff α) : Step α :=
  { reply := .found q.latest, freed := [], log := [], after := q }

/-- A call that drops a handle. -/
def Step.dropped (result : List α × Handoff α) : Step α :=
  { reply := .ok, freed := result.1, log := [], after := result.2 }

/-- Makes a call. -/
def Call.run : Call α → Handoff α → Step α
  | .push config, q =>
    if q.producerOpen then
      let result := q.push config
      { reply := .ok
        freed := result.1
        log := if result.1.isEmpty then [] else [.reclaimed result.1.length]
        after := result.2 }
    else .gone q
  | .poll, q => if q.consumerOpen then .read q.poll else .gone q
  | .pollNext, q => if q.consumerOpen then .read q.pollNext else .gone q
  | .latest, q => if q.consumerOpen then .read q else .gone q
  | .dropProducer, q => if q.producerOpen then .dropped q.dropProducer else .gone q
  | .dropConsumer, q => if q.consumerOpen then .dropped q.dropConsumer else .gone q

end Handoff

end BlockFlow
