import RuCCL.Global.Orchestrator
import RuCCL.Library.Transition
import Mathlib.Data.Finset.Card

/-!
# The barrier between nodes

Each node has a service that counts its own calls of `sync` and collects, for
each generation, the nodes that have said that they have reached it.  A call
tells all other nodes and waits until everyone is there.  A message may arrive
at any time after it was sent, any number of times.

The counters wrap.  What the barrier promises holds for nodes that call `sync`
fewer than `2 ^ 64` times: then no generation comes again.
-/

namespace RuCCL.Global

open RuCCL.Library

/-- What a node knows of its group; the addresses of the nodes are left out. -/
structure NodeState where
  nodeId : NodeId
  nodes : Finset NodeId
  deriving DecidableEq

structure SyncRequest where
  node : NodeId
  generation : UInt64
  deriving DecidableEq

structure SyncService where
  nodeState : Option NodeState
  rounds : Table UInt64 (Finset NodeId)
  generation : UInt64
  completed : UInt64

namespace SyncService

def new : SyncService := ⟨none, ∅, 0, 0⟩

variable (service : SyncService)

/-- The nodes that have reached a generation. -/
def peers (generation : UInt64) : Finset NodeId := (service.rounds.lookup generation).getD ∅

def addSyncingPeer (peer : NodeId) (generation : UInt64) : SyncService :=
  if generation < service.completed then service
  else { service with
    rounds := service.rounds.insert generation (insert peer (service.peers generation)) }

def handleSyncConnection (request : SyncRequest) : SyncService :=
  match service.nodeState with
  | none => service
  | some state =>
      if request.node ∈ state.nodes then
        service.addSyncingPeer request.node request.generation
      else service

/-- The test that `sync` makes each time it is woken. -/
def isComplete (nodes : Finset NodeId) (generation : UInt64) : Bool :=
  match service.rounds.lookup generation with
  | none => false
  | some peers => decide (peers.card = nodes.card ∧ nodes ⊆ peers)

def complete (generation : UInt64) : SyncService :=
  { service with
    rounds := service.rounds.erase generation
    completed := generation + 1 }

end SyncService

/-- Where a node is in a call of `sync`: not in one, with its generation taken,
or telling the other nodes of which some remain. -/
inductive SyncCall where
  | idle
  | started (generation : UInt64)
  | telling (generation : UInt64) (remaining : Finset NodeId)
  deriving DecidableEq

structure SyncSystem where
  services : NodeId → SyncService
  calls : NodeId → SyncCall
  begun : Finset NodeId
  sent : Finset (NodeId × SyncRequest)

inductive SyncAction where
  | register (node : NodeId)
  | begin (node : NodeId)
  | enter (node : NodeId)
  | announce (node : NodeId)
  | tell (node target : NodeId)
  | deliver (target : NodeId) (request : SyncRequest)
  | leave (node : NodeId)
  deriving DecidableEq

namespace SyncSystem

def new : SyncSystem := ⟨fun _ => .new, fun _ => .idle, ∅, ∅⟩

variable (system : SyncSystem)

/-- Replace the service of one node. -/
def setService (node : NodeId) (service : SyncService) : SyncSystem :=
  { system with services := Function.update system.services node service }

def setCall (node : NodeId) (call : SyncCall) : SyncSystem :=
  { system with calls := Function.update system.calls node call }

/-- The next state of a group of nodes.  A node joins a collective only once it
is registered, and calls `sync` only after a collective that all have joined. -/
def next (group : Finset NodeId) : SyncAction → Option SyncSystem
  | .register node =>
      if node ∈ group then
        some (system.setService node { system.services node with
          nodeState := some ⟨node, group⟩ })
      else none
  | .begin node =>
      if node ∈ group ∧ (system.services node).nodeState.isSome then
        some { system with begun := insert node system.begun }
      else none
  | .enter node =>
      if node ∈ group ∧ group ⊆ system.begun ∧ system.calls node = .idle then
        let service := system.services node
        some ((system.setService node { service with
          generation := service.generation + 1 }).setCall node (.started service.generation))
      else none
  | .announce node =>
      match system.calls node, (system.services node).nodeState with
      | .started generation, some state =>
          some ((system.setService node
            ((system.services node).addSyncingPeer state.nodeId generation)).setCall node
                (.telling generation (state.nodes.erase state.nodeId)))
      | _, _ => none
  | .tell node target =>
      match system.calls node, (system.services node).nodeState with
      | .telling generation remaining, some state =>
          if target ∈ remaining then
            some { system.setCall node (.telling generation (remaining.erase target)) with
              sent := insert (target, ⟨state.nodeId, generation⟩) system.sent }
          else none
      | _, _ => none
  | .deliver target request =>
      if (target, request) ∈ system.sent then
        some (system.setService target ((system.services target).handleSyncConnection request))
      else none
  | .leave node =>
      match system.calls node, (system.services node).nodeState with
      | .telling generation remaining, some state =>
          if remaining = ∅ ∧ (system.services node).isComplete state.nodes generation then
            some ((system.setService node
              ((system.services node).complete generation)).setCall node .idle)
          else none
      | _, _ => none

end SyncSystem

theorem add_one_le_of_lt {current later : UInt64} (before : current < later) :
    current + 1 ≤ later := by
  rw [UInt64.lt_iff_toNat_lt] at before
  rw [UInt64.le_iff_toNat_le, UInt64.toNat_add]
  exact (Nat.mod_le ..).trans before

/-- A counter that has not wrapped. -/
theorem eq_add_one_of_toNat {current later : UInt64}
    (counted : later.toNat = current.toNat + 1) : later = current + 1 := by
  have small := later.toNat_lt
  apply UInt64.toNat_inj.mp
  rw [UInt64.toNat_add, counted]
  exact (Nat.mod_eq_of_lt (counted ▸ small)).symm

theorem toNat_add_one {current : UInt64} (few : current.toNat + 1 < 2 ^ 64) :
    (current + 1).toNat = current.toNat + 1 := by
  rw [UInt64.toNat_add]
  exact Nat.mod_eq_of_lt few

theorem lt_of_toNat {current later : UInt64}
    (counted : later.toNat = current.toNat + 1) : current < later := by
  rw [UInt64.lt_iff_toNat_lt, counted]
  exact Nat.lt_succ_self _

namespace SyncService

variable {service : SyncService}

@[simp]
theorem peers_insert (generation other : UInt64) (nodes : Finset NodeId) :
    peers { service with
        rounds := service.rounds.insert generation nodes } other =
      if other = generation then nodes else service.peers other := by
  unfold peers
  by_cases same : other = generation
  · rw [if_pos same, same, AList.lookup_insert]
    rfl
  · rw [if_neg same, AList.lookup_insert_ne same]

theorem peers_complete (generation other : UInt64) :
    (service.complete generation).peers other =
      if other = generation then ∅ else service.peers other := by
  unfold peers complete
  by_cases same : other = generation
  · rw [if_pos same, same, AList.lookup_erase]
    rfl
  · rw [if_neg same, AList.lookup_erase_ne same]

theorem mem_peers_of_isComplete {nodes : Finset NodeId} {generation : UInt64}
    (complete : service.isComplete nodes generation = true)
    {node : NodeId} (member : node ∈ nodes) :
    node ∈ service.peers generation := by
  unfold isComplete at complete
  unfold peers
  cases found : service.rounds.lookup generation with
  | none =>
      rw [found] at complete
      cases complete
  | some reached =>
      rw [found] at complete
      exact (of_decide_eq_true complete).2 member

/-- Everything that is known at a node has happened, and nothing of it is over.
-/
structure Truthful (group : Finset NodeId) (generations : NodeId → UInt64)
    (service : SyncService) : Prop where
  reached : ∀ generation, ∀ node ∈ service.peers generation,
    node ∈ group ∧ generation < generations node
  unfinished : ∀ generation ∈ service.rounds, service.completed ≤ generation

variable {group : Finset NodeId} {generations : NodeId → UInt64}

theorem Truthful.mono (truthful : Truthful group generations service) {later : NodeId → UInt64}
    (grow : ∀ node, generations node ≤ later node) :
    Truthful group later service where
  reached generation node member :=
    ⟨(truthful.reached generation node member).1,
      UInt64.lt_of_lt_of_le (truthful.reached generation node member).2 (grow node)⟩
  unfinished := truthful.unfinished

/-- Only the rounds of a service and its completed generations matter. -/
theorem Truthful.transfer (truthful : Truthful group generations service)
    {other : SyncService} (rounds : other.rounds = service.rounds)
    (completed : other.completed = service.completed) :
    Truthful group generations other where
  reached generation node member := by
    rw [peers, rounds] at member
    exact truthful.reached generation node member
  unfinished generation present := by
    rw [rounds] at present
    rw [completed]
    exact truthful.unfinished generation present

theorem Truthful.addSyncingPeer (truthful : Truthful group generations service) {peer : NodeId}
    {generation : UInt64} (member : peer ∈ group)
    (entered : generation < generations peer) :
    Truthful group generations (service.addSyncingPeer peer generation) := by
  unfold SyncService.addSyncingPeer
  split
  case isTrue => exact truthful
  case isFalse current =>
    constructor
    · intro other node among
      rw [peers_insert] at among
      split at among
      case isTrue same =>
        rw [same]
        rcases Finset.mem_insert.mp among with rfl | earlier
        · exact ⟨member, entered⟩
        · exact truthful.reached generation node earlier
      case isFalse => exact truthful.reached other node among
    · intro other present
      rcases (AList.mem_insert _).mp present with rfl | earlier
      · exact UInt64.not_lt.mp current
      · exact truthful.unfinished other earlier

theorem Truthful.complete (truthful : Truthful group generations service)
    {generation : UInt64} (current : service.completed = generation) :
    Truthful group generations (service.complete generation) where
  reached other node among := by
    rw [peers_complete] at among
    split at among
    case isTrue => exact absurd among (Finset.notMem_empty node)
    case isFalse => exact truthful.reached other node among
  unfinished other present := by
    have rest : other ≠ generation ∧ other ∈ service.rounds := AList.mem_erase.mp present
    have late := truthful.unfinished other rest.2
    rw [current] at late
    exact add_one_le_of_lt (UInt64.lt_of_le_of_ne late rest.1.symm)

theorem addSyncingPeer_completed (peer : NodeId) (generation : UInt64) :
    (service.addSyncingPeer peer generation).completed =
      service.completed := by
  unfold addSyncingPeer
  split <;> rfl

theorem addSyncingPeer_generation (peer : NodeId) (generation : UInt64) :
    (service.addSyncingPeer peer generation).generation =
      service.generation := by
  unfold addSyncingPeer
  split <;> rfl

theorem addSyncingPeer_nodeState (peer : NodeId) (generation : UInt64) :
    (service.addSyncingPeer peer generation).nodeState =
      service.nodeState := by
  unfold addSyncingPeer
  split <;> rfl

/-- What a peer says about a generation that is not over is kept. -/
theorem mem_peers_addSyncingPeer {peer : NodeId} {generation : UInt64}
    (current : service.completed ≤ generation) :
    peer ∈ (service.addSyncingPeer peer generation).peers generation := by
  unfold addSyncingPeer
  rw [if_neg (UInt64.not_lt.mpr current), peers_insert, if_pos rfl]
  exact Finset.mem_insert_self _ _

theorem peers_subset_addSyncingPeer (peer : NodeId) (generation other : UInt64) :
    service.peers other ⊆ (service.addSyncingPeer peer generation).peers other := by
  unfold addSyncingPeer
  split
  case isTrue => exact Finset.Subset.refl _
  case isFalse =>
    rw [peers_insert]
    split
    case isTrue same =>
      rw [same]
      exact Finset.subset_insert _ _
    case isFalse => exact Finset.Subset.refl _

end SyncService

section Group

open SyncService

/-- The counters of a node that is in a call, or in none. -/
def CallCounts (group begun : Finset NodeId) (node : NodeId)
    (service : SyncService) : SyncCall → Prop
  | .idle => service.completed = service.generation
  | .started generation =>
      (node ∈ group ∧ group ⊆ begun) ∧ service.completed = generation ∧
        service.generation.toNat = generation.toNat + 1
  | .telling generation remaining =>
      (node ∈ group ∧ group ⊆ begun) ∧ service.completed = generation ∧
        service.generation.toNat = generation.toNat + 1 ∧ remaining ⊆ group

/-- The generation of a request has been entered by its sender. -/
structure Sendable (group begun : Finset NodeId) (generations : NodeId → UInt64) (target : NodeId)
    (request : SyncRequest) :
    Prop where
  target_mem : target ∈ group
  sender_mem : request.node ∈ group
  entered : request.generation < generations request.node
  everyone : group ⊆ begun

/-- The generations that the nodes will take next. -/
def nextGenerations (services : NodeId → SyncService) (node : NodeId) :
    UInt64 :=
  (services node).generation

/-- The invariant of a group of nodes. -/
structure Synchronised (group : Finset NodeId) (system : SyncSystem) :
    Prop where
  truthful : ∀ node, Truthful group (nextGenerations system.services) (system.services node)
  counts : ∀ node, CallCounts group system.begun node (system.services node) (system.calls node)
  states : ∀ node, ∀ state ∈ (system.services node).nodeState, state = ⟨node, group⟩
  registered : ∀ node ∈ system.begun, (system.services node).nodeState.isSome
  sendable : ∀ target request, (target, request) ∈ system.sent →
    Sendable group system.begun (nextGenerations system.services) target request

variable {group : Finset NodeId} {system : SyncSystem}

theorem Synchronised.new : Synchronised group .new where
  truthful _ := {
    reached := fun _ _ absent => absurd absent (Finset.notMem_empty _)
    unfinished := fun _ absent => absurd absent (AList.notMem_empty _) }
  counts _ := rfl
  states _ _ absent := by
    cases absent
  registered _ absent := absurd absent (Finset.notMem_empty _)
  sendable _ _ absent := absurd absent (Finset.notMem_empty _)

theorem CallCounts.mono {begun later : Finset NodeId} {node : NodeId}
    {service : SyncService} {call : SyncCall}
    (counts : CallCounts group begun node service call)
    (grow : begun ⊆ later) :
    CallCounts group later node service call := by
  cases call with
  | idle => exact counts
  | started generation => exact ⟨⟨counts.1.1, counts.1.2.trans grow⟩, counts.2⟩
  | telling generation remaining => exact ⟨⟨counts.1.1, counts.1.2.trans grow⟩, counts.2⟩

theorem nextGenerations_update_le {services : NodeId → SyncService}
    {node : NodeId} {service : SyncService}
    (later : (services node).generation ≤ service.generation)
    (other : NodeId) :
    nextGenerations services other ≤
      nextGenerations (Function.update services node service) other := by
  unfold nextGenerations
  by_cases same : other = node
  · rw [same, Function.update_self]
    exact later
  · rw [Function.update_of_ne same]
    exact UInt64.le_refl _

/-- One node changes and keeps to its own part of the invariant. -/
theorem Synchronised.changeNode (synchronised : Synchronised group system)
    {node : NodeId} {service : SyncService} {call : SyncCall}
    (later : (system.services node).generation ≤ service.generation)
    (truthful : Truthful group (nextGenerations
      (Function.update system.services node service)) service)
    (counts : CallCounts group system.begun node service call)
    (states : ∀ state ∈ service.nodeState, state = ⟨node, group⟩)
    (stays : (system.services node).nodeState.isSome → service.nodeState.isSome) :
    Synchronised group ((system.setService node service).setCall node call) := by
  have generations := nextGenerations_update_le later
  unfold SyncSystem.setService SyncSystem.setCall
  constructor
  · intro other
    by_cases same : other = node
    · simp only [same, Function.update_self]
      exact truthful
    · simp only [Function.update_of_ne same]
      exact (synchronised.truthful other).mono generations
  · intro other
    by_cases same : other = node
    · simp only [same, Function.update_self]
      exact counts
    · simp only [Function.update_of_ne same]
      exact synchronised.counts other
  · intro other
    by_cases same : other = node
    · simp only [same, Function.update_self]
      exact states
    · simp only [Function.update_of_ne same]
      exact synchronised.states other
  · intro other among
    by_cases same : other = node
    · simp only [same, Function.update_self]
      exact stays (synchronised.registered node (same ▸ among))
    · simp only [Function.update_of_ne same]
      exact synchronised.registered other among
  · intro target request among
    have before := synchronised.sendable target request among
    exact ⟨before.target_mem, before.sender_mem,
      UInt64.lt_of_lt_of_le before.entered (generations request.node),
      before.everyone⟩

/-- A service changes while the call of its node goes on as it is. -/
theorem Synchronised.changeService (synchronised : Synchronised group system)
    {node : NodeId} {service : SyncService}
    (generation :
      service.generation = (system.services node).generation)
    (completed : service.completed = (system.services node).completed)
    (truthful : Truthful group (nextGenerations
      (Function.update system.services node service)) service)
    (states : ∀ state ∈ service.nodeState, state = ⟨node, group⟩)
    (stays : (system.services node).nodeState.isSome → service.nodeState.isSome) :
    Synchronised group (system.setService node service) := by
  have same : (system.setService node service).setCall node
      (system.calls node) = system.setService node service := by
    unfold SyncSystem.setService SyncSystem.setCall
    rw [Function.update_eq_self]
  rw [← same]
  refine synchronised.changeNode (generation ▸ UInt64.le_refl _) truthful ?_ states stays
  have counts := synchronised.counts node
  cases call : system.calls node with
  | idle =>
      rw [call] at counts
      exact (completed.trans counts).trans generation.symm
  | started current =>
      rw [call] at counts
      exact ⟨counts.1, completed.trans counts.2.1, generation ▸ counts.2.2⟩
  | telling current remaining =>
      rw [call] at counts
      exact ⟨counts.1, completed.trans counts.2.1, generation ▸ counts.2.2.1, counts.2.2.2⟩

theorem Synchronised.begin (synchronised : Synchronised group system)
    {node : NodeId} (registered : (system.services node).nodeState.isSome) :
    Synchronised group { system with begun := insert node system.begun } where
  truthful := synchronised.truthful
  counts other := (synchronised.counts other).mono (Finset.subset_insert _ _)
  states := synchronised.states
  registered other among := by
    rcases Finset.mem_insert.mp among with rfl | earlier
    · exact registered
    · exact synchronised.registered other earlier
  sendable target request among :=
    { synchronised.sendable target request among with
      everyone := (synchronised.sendable target request among).everyone.trans
        (Finset.subset_insert _ _) }

theorem Synchronised.send (synchronised : Synchronised group system)
    {target : NodeId} {request : SyncRequest}
    (sendable : Sendable group system.begun (nextGenerations system.services) target request) :
    Synchronised group { system with sent := insert (target, request) system.sent } where
  truthful := synchronised.truthful
  counts := synchronised.counts
  states := synchronised.states
  registered := synchronised.registered
  sendable other message among := by
    rcases Finset.mem_insert.mp among with same | earlier
    · cases same
      exact sendable
    · exact synchronised.sendable other message earlier

theorem nextGenerations_update_eq {services : NodeId → SyncService}
    {node : NodeId} {service : SyncService}
    (same : service.generation = (services node).generation) :
    nextGenerations (Function.update services node service) =
      nextGenerations services := by
  funext other
  unfold nextGenerations
  by_cases own : other = node
  · rw [own, Function.update_self, same]
  · rw [Function.update_of_ne own]

theorem Synchronised.register (synchronised : Synchronised group system) (node : NodeId) :
    Synchronised group (system.setService node { system.services node with
      nodeState := some ⟨node, group⟩ }) := by
  refine synchronised.changeService rfl rfl ?_ ?_ fun _ => rfl
  · refine Truthful.transfer ((synchronised.truthful node).mono ?_) rfl rfl
    exact nextGenerations_update_le (UInt64.le_refl _)
  · intro state known
    exact (Option.some.inj known).symm

theorem Synchronised.enter (synchronised : Synchronised group system)
    {node : NodeId} (member : node ∈ group)
    (everyone : group ⊆ system.begun) (idle : system.calls node = .idle)
    (few : (system.services node).generation.toNat + 1 < 2 ^ 64) :
    Synchronised group ((system.setService node { system.services node with
      generation := (system.services node).generation + 1 }).setCall node
        (.started (system.services node).generation)) := by
  have counts := synchronised.counts node
  rw [idle] at counts
  have counted := toNat_add_one few
  have later := UInt64.le_of_lt (lt_of_toNat counted)
  refine synchronised.changeNode later ?_
    ⟨⟨member, everyone⟩, counts, counted⟩ (synchronised.states node) id
  refine Truthful.transfer ((synchronised.truthful node).mono ?_) rfl rfl
  exact nextGenerations_update_le later

theorem Synchronised.addPeer (synchronised : Synchronised group system)
    {node peer : NodeId} {generation : UInt64} (member : peer ∈ group)
    (entered : generation < nextGenerations system.services peer) :
    Synchronised group (system.setService node
      ((system.services node).addSyncingPeer peer generation)) := by
  refine synchronised.changeService (addSyncingPeer_generation _ _)
    (addSyncingPeer_completed _ _) ?_ ?_ ?_
  · rw [nextGenerations_update_eq (addSyncingPeer_generation _ _)]
    exact (synchronised.truthful node).addSyncingPeer member entered
  · rw [addSyncingPeer_nodeState]
    exact synchronised.states node
  · rw [addSyncingPeer_nodeState]
    exact id

theorem Synchronised.setCall (synchronised : Synchronised group system)
    {node : NodeId} {call : SyncCall}
    (counts : CallCounts group system.begun node (system.services node) call) :
    Synchronised group (system.setCall node call) := by
  have same : system.setService node (system.services node) = system := by
    unfold SyncSystem.setService
    rw [Function.update_eq_self]
  have changed := synchronised.changeNode (UInt64.le_refl _) (by
    rw [Function.update_eq_self]
    exact synchronised.truthful node) counts (synchronised.states node) id
  rwa [same] at changed

/-- A message finds its target registered, and its sender a node of the group.
-/
theorem Synchronised.handle (synchronised : Synchronised group system)
    {target : NodeId} {request : SyncRequest}
    (sendable : Sendable group system.begun (nextGenerations system.services) target request) :
    (system.services target).handleSyncConnection request =
      (system.services target).addSyncingPeer request.node
        request.generation := by
  have registered := synchronised.registered target (sendable.everyone sendable.target_mem)
  obtain ⟨state, known⟩ := Option.isSome_iff_exists.mp registered
  unfold SyncService.handleSyncConnection
  rw [known, synchronised.states target state known]
  exact if_pos sendable.sender_mem

theorem Synchronised.step (synchronised : Synchronised group system)
    {action : SyncAction} {successor : SyncSystem}
    (few : ∀ node, action = .enter node → (system.services node).generation.toNat + 1 < 2 ^ 64)
    (stepped : system.next group action = some successor) :
    Synchronised group successor := by
  cases action with
  | register node =>
      obtain ⟨_, moved⟩ := Option.ite_none_right_eq_some.mp stepped
      cases moved
      exact synchronised.register node
  | begin node =>
      obtain ⟨permitted, moved⟩ := Option.ite_none_right_eq_some.mp stepped
      cases moved
      exact synchronised.begin permitted.2
  | enter node =>
      obtain ⟨permitted, moved⟩ := Option.ite_none_right_eq_some.mp stepped
      cases moved
      exact synchronised.enter permitted.1 permitted.2.1 permitted.2.2 (few node rfl)
  | announce node =>
      rw [SyncSystem.next] at stepped
      split at stepped
      case h_2 => cases stepped
      case h_1 generation state call known =>
        cases stepped
        have counts := synchronised.counts node
        rw [call] at counts
        rw [synchronised.states node state known]
        refine (synchronised.addPeer counts.1.1 ?_).setCall ?_
        · exact lt_of_toNat counts.2.2
        · simp only [SyncSystem.setService, Function.update_self]
          exact ⟨counts.1, (addSyncingPeer_completed _ _).trans counts.2.1,
            (addSyncingPeer_generation _ _).symm ▸ counts.2.2,
            Finset.erase_subset _ _⟩
  | tell node target =>
      rw [SyncSystem.next] at stepped
      split at stepped
      case h_2 => cases stepped
      case h_1 generation remaining state call known =>
        obtain ⟨member, moved⟩ := Option.ite_none_right_eq_some.mp stepped
        cases moved
        have counts := synchronised.counts node
        rw [call] at counts
        rw [synchronised.states node state known]
        refine (synchronised.setCall ?_).send ?_
        · exact ⟨counts.1, counts.2.1, counts.2.2.1, (Finset.erase_subset _ _).trans counts.2.2.2⟩
        · exact {
            target_mem := counts.2.2.2 member
            sender_mem := counts.1.1
            entered := lt_of_toNat counts.2.2.1
            everyone := counts.1.2 }
  | deliver target request =>
      obtain ⟨among, moved⟩ := Option.ite_none_right_eq_some.mp stepped
      cases moved
      have sendable := synchronised.sendable target request among
      rw [synchronised.handle sendable]
      exact synchronised.addPeer sendable.sender_mem sendable.entered
  | leave node =>
      rw [SyncSystem.next] at stepped
      split at stepped
      case h_2 => cases stepped
      case h_1 generation remaining state call known =>
        obtain ⟨_, moved⟩ := Option.ite_none_right_eq_some.mp stepped
        cases moved
        have counts := synchronised.counts node
        rw [call] at counts
        refine synchronised.changeNode (UInt64.le_refl _) ?_ ?_ (synchronised.states node) id
        · refine Truthful.complete ?_ counts.2.1
          exact (synchronised.truthful node).mono (nextGenerations_update_le (UInt64.le_refl _))
        · exact (eq_add_one_of_toNat counts.2.2.1).symm

abbrev SyncSteps := List (SyncSystem × SyncAction)

/-- How often a node has entered `sync`. -/
def entries (steps : SyncSteps) (node : NodeId) : Nat :=
  steps.countP fun step => step.2 = .enter node

/-- The runs of a group. -/
abbrev SyncRun (group : Finset NodeId) : SyncSteps → SyncSystem → Prop :=
  Traced (fun system action => system.next group action) (fun _ _ => True) .new

/-- What a step that is no entrance may do to a service. -/
inductive ServiceChange (service : SyncService) : SyncService → Prop
  | register (state : Option NodeState) :
      ServiceChange service { service with nodeState := state }
  | add (peer : NodeId) (generation : UInt64) :
      ServiceChange service (service.addSyncingPeer peer generation)
  | complete (generation : UInt64) (ends : generation < generation + 1) :
      ServiceChange service (service.complete generation)

theorem ServiceChange.refl (service : SyncService) :
    ServiceChange service service :=
  .register service.nodeState

theorem ServiceChange.update {node : NodeId} {service : SyncService}
    (change : ServiceChange (system.services node) service)
    (other : NodeId) :
    ServiceChange (system.services other)
      (Function.update system.services node service other) := by
  by_cases same : other = node
  · rw [same, Function.update_self]
    exact change
  · rw [Function.update_of_ne same]
    exact .refl _

theorem ServiceChange.handle (service : SyncService) (request : SyncRequest) :
    ServiceChange service (service.handleSyncConnection request) := by
  unfold SyncService.handleSyncConnection
  split
  case h_1 => exact .refl _
  case h_2 =>
    split
    case isTrue => exact .add _ _
    case isFalse => exact .refl _

/-- The generation of a node grows when it enters `sync`; every other step
changes services only in the ways of `ServiceChange`. -/
theorem Synchronised.next_services (synchronised : Synchronised group system)
    {action : SyncAction} {successor : SyncSystem}
    (stepped : system.next group action = some successor) (node : NodeId) :
    (action = .enter node ∧ successor.services node =
      { system.services node with
        generation := (system.services node).generation + 1 }) ∨
    (action ≠ .enter node ∧ ServiceChange (system.services node) (successor.services node)) := by
  cases action with
  | register acting =>
      obtain ⟨_, moved⟩ := Option.ite_none_right_eq_some.mp stepped
      cases moved
      exact Or.inr ⟨nofun, ServiceChange.update (.register _) node⟩
  | begin acting =>
      obtain ⟨_, moved⟩ := Option.ite_none_right_eq_some.mp stepped
      cases moved
      exact Or.inr ⟨nofun, .refl _⟩
  | enter acting =>
      obtain ⟨_, moved⟩ := Option.ite_none_right_eq_some.mp stepped
      cases moved
      by_cases same : node = acting
      · rw [same]
        exact Or.inl ⟨rfl, Function.update_self ..⟩
      · refine Or.inr ⟨fun entered => ?_, ?_⟩
        · cases entered
          exact same rfl
        · simp only [SyncSystem.setCall, SyncSystem.setService, Function.update_of_ne same]
          exact .refl _
  | announce acting =>
      rw [SyncSystem.next] at stepped
      split at stepped
      case h_2 => cases stepped
      case h_1 =>
        cases stepped
        exact Or.inr ⟨nofun, ServiceChange.update (.add _ _) node⟩
  | tell acting target =>
      rw [SyncSystem.next] at stepped
      split at stepped
      case h_2 => cases stepped
      case h_1 =>
        obtain ⟨_, moved⟩ := Option.ite_none_right_eq_some.mp stepped
        cases moved
        exact Or.inr ⟨nofun, .refl _⟩
  | deliver target request =>
      obtain ⟨_, moved⟩ := Option.ite_none_right_eq_some.mp stepped
      cases moved
      exact Or.inr ⟨nofun, ServiceChange.update (.handle _ request) node⟩
  | leave acting =>
      rw [SyncSystem.next] at stepped
      split at stepped
      case h_2 => cases stepped
      case h_1 generation remaining state call known =>
        obtain ⟨_, moved⟩ := Option.ite_none_right_eq_some.mp stepped
        cases moved
        have counts := synchronised.counts acting
        rw [call] at counts
        have ends := lt_of_toNat counts.2.2.1
        rw [eq_add_one_of_toNat counts.2.2.1] at ends
        exact Or.inr ⟨nofun, ServiceChange.update (.complete generation ends) node⟩

theorem ServiceChange.generation {service after : SyncService}
    (change : ServiceChange service after) :
    after.generation = service.generation := by
  cases change with
  | register state => rfl
  | add peer generation => exact addSyncingPeer_generation _ _
  | complete generation ends => rfl

/-- What is known at a node is known until its generation is over. -/
theorem ServiceChange.kept {service after : SyncService}
    (change : ServiceChange service after) {generation : UInt64}
    {peer : NodeId} (known : peer ∈ service.peers generation) :
    peer ∈ after.peers generation ∨ generation < after.completed := by
  cases change with
  | register state => exact Or.inl known
  | add other later => exact Or.inl (peers_subset_addSyncingPeer other later generation known)
  | complete current ends =>
      rw [peers_complete]
      by_cases same : generation = current
      · rw [same]
        exact Or.inr ends
      · rw [if_neg same]
        exact Or.inl known

theorem entries_append (steps : SyncSteps) (step : SyncSystem × SyncAction) (node : NodeId) :
    entries (steps ++ [step]) node =
      entries steps node + if step.2 = .enter node then 1 else 0 := by
  rw [entries, List.countP_append, List.countP_singleton, ← entries]
  simp

/-- As long as no node calls `sync` too often, its counter is the number of its
calls. -/
theorem SyncRun.synchronised {steps : SyncSteps} (run : SyncRun group steps system)
    (few : ∀ node, entries steps node < 2 ^ 64) :
    Synchronised group system ∧ ∀ node, (system.services node).generation.toNat =
        entries steps node := by
  induction run with
  | start => exact ⟨Synchronised.new, fun _ => rfl⟩
  | @next earlier before after action _ _ stepped ih =>
      simp only [entries_append] at few ⊢
      obtain ⟨synchronised, counted⟩ := ih fun node =>
        lt_of_le_of_lt (Nat.le_add_right ..) (few node)
      have calls : ∀ node, action = .enter node →
          (before.services node).generation.toNat + 1 < 2 ^ 64 := by
        rintro node rfl
        have bounded := few node
        rwa [if_pos rfl, ← counted] at bounded
      refine ⟨synchronised.step calls stepped, fun node => ?_⟩
      rcases synchronised.next_services stepped node with
        ⟨entered, changed⟩ | ⟨other, change⟩
      · rw [changed, if_pos entered, ← counted]
        exact toNat_add_one (calls node entered)
      · rw [change.generation, if_neg other]
        exact counted node

/-- While every node calls `sync` fewer than `2 ^ 64` times, a call returns after
every node has entered its own, and meanwhile no news is lost and nothing old is
kept. -/
theorem barrier_safe {steps : SyncSteps} (run : SyncRun group steps system)
    (few : ∀ node, entries steps node < 2 ^ 64) :
    (∀ node generation remaining successor, system.calls node = .telling generation remaining →
      system.next group (.leave node) = some successor →
      ∀ other ∈ group, generation.toNat < entries steps other) ∧
    (∀ target request, (target, request) ∈ system.sent →
      (system.services target).completed ≤ request.generation →
      request.node ∈ ((system.services target).handleSyncConnection
        request).peers request.generation) ∧
    (∀ action successor, system.next group action = some successor →
      ∀ node generation, ∀ peer ∈ (system.services node).peers generation,
        peer ∈ (successor.services node).peers generation ∨
          generation < (successor.services node).completed) ∧
    ∀ node, ∀ generation ∈ (system.services node).rounds,
      (system.services node).completed ≤ generation := by
  obtain ⟨synchronised, counted⟩ := run.synchronised few
  refine ⟨?_, ?_, ?_, fun node => (synchronised.truthful node).unfinished⟩
  · intro node generation remaining successor call stepped other member
    rw [SyncSystem.next, call] at stepped
    split at stepped
    case h_2 => cases stepped
    case h_1 current left state same known =>
      cases same
      obtain ⟨⟨_, complete⟩, _⟩ := Option.ite_none_right_eq_some.mp stepped
      rw [synchronised.states node state known] at complete
      have reached := (synchronised.truthful node).reached generation other
        (mem_peers_of_isComplete complete member)
      rw [← counted other]
      exact reached.2
  · intro target request among current
    rw [synchronised.handle (synchronised.sendable target request among)]
    exact mem_peers_addSyncingPeer current
  · intro action successor stepped node generation peer known
    rcases synchronised.next_services stepped node with
      ⟨_, after⟩ | ⟨_, change⟩
    · rw [after]
      exact Or.inl known
    · exact change.kept known

/-- Two nodes that have told each other, the first one before the second one has
entered. -/
def twoSyncs : List SyncAction :=
  [.register 0, .register 1, .begin 1, .begin 0, .enter 0, .announce 0,
    .tell 0 1, .deliver 1 ⟨0, 0⟩, .enter 1, .announce 1, .tell 1 0,
    .deliver 0 ⟨1, 0⟩]

theorem barrier_safe_two :
    let run := trail (fun (system : SyncSystem) action =>
      system.next {0, 1} action) .new twoSyncs
    (run.2.next {0, 1} (.leave 0)).isSome = true ∧ 0 < entries run.1 1 := by
  have returns : ((trail (fun (system : SyncSystem) action =>
      system.next {0, 1} action) .new twoSyncs).2.next {0, 1} (.leave 0)).isSome = true := by
    decide
  obtain ⟨successor, stepped⟩ := Option.isSome_iff_exists.mp returns
  refine ⟨returns, ?_⟩
  refine (barrier_safe (traced_trail _ _ _) fun node => ?_).1 0 0 ∅ successor
    (by decide) stepped 1 (by decide)
  exact List.countP_le_length.trans_lt (by decide)

end Group

end RuCCL.Global
