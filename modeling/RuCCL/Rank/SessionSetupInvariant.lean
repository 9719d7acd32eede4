import Mathlib.Data.Fintype.Prod
import Mathlib.Data.Fintype.Fin
import Mathlib.Data.List.FinRange
import Mathlib.Order.Interval.Finset.Fin
import RuCCL.Rank.SessionSetupFrames

/-!
# What holds during a session setup

How far a rank has come in a conversation follows from its place in its plan, and how
far the other end has come from the phase of the coordinator or from the connections
that the peer has.  Both together say what is on every connection, so every frame that
is read is the one its reader waits for.
-/

namespace RuCCL.Rank

open RuCCL.Library

section Plans

variable {Addr Ip : Type} (config : SetupConfig Addr Ip)

theorem phases_nodup : config.phases.Nodup := by
  rw [SetupConfig.phases]
  cases config.transport with
  | tcpHostStaged =>
      rw [List.nodup_cons]
      refine ⟨by simp, List.Nodup.map ?_ List.nodup_range⟩
      intro first second same
      cases same
      rfl
  | hostStaged | tcpPeer | pciePeer | rdma | gxLink => simp

theorem mem_peerTargets_iff (rank peer : Fin config.world) (rail : Nat) :
    Conversation.peerJoin peer rail ∈ config.peerTargets rank ↔
      peer < rank ∧ rail < config.rails := by
  simp [SetupConfig.peerTargets]

theorem phase_notMem_peerTargets (rank : Fin config.world) (phase : Phase) :
    Conversation.phase phase ∉ config.peerTargets rank := by
  simp [SetupConfig.peerTargets]

theorem peerTargets_nodup (rank : Fin config.world) : (config.peerTargets rank).Nodup := by
  rw [SetupConfig.peerTargets, List.nodup_flatMap]
  refine ⟨fun peer _ => List.Nodup.map ?_ List.nodup_range, ?_⟩
  · intro first second same
    cases same
    rfl
  · refine ((List.nodup_finRange _).filter _).imp fun apart => ?_
    rw [Function.onFun, List.disjoint_left]
    intro conversation first second
    obtain ⟨_, _, rfl⟩ := List.mem_map.mp first
    obtain ⟨_, _, same⟩ := List.mem_map.mp second
    cases same
    exact apart rfl

theorem converse_injective {world : Nat} : Function.Injective (@SetupAction.converse world) := by
  intro first second same
  cases same
  rfl

theorem phase_injective {world : Nat} :
    Function.Injective fun phase : Phase =>
      SetupAction.converse (.phase phase : Conversation world) := by
  intro first second same
  cases same
  rfl

theorem plan_of_direct (direct : config.transport = .tcpPeer) (rank : Fin config.world) :
    config.plan rank = config.phases.map (fun phase => .converse (.phase phase)) ++
        .prepareMesh :: (config.peerTargets rank).map .converse := by
  rw [SetupConfig.plan, direct]

theorem plan_of_not_direct (staged : config.transport ≠ .tcpPeer) (rank : Fin config.world) :
    config.plan rank = config.phases.map fun phase => .converse (.phase phase) := by
  rw [SetupConfig.plan]
  cases transport : config.transport with
  | tcpPeer => exact absurd transport staged
  | hostStaged | tcpHostStaged | pciePeer | rdma | gxLink => exact List.append_nil _

theorem mem_plan_phase (rank : Fin config.world) (phase : Phase) :
    .converse (.phase phase) ∈ config.plan rank ↔ phase ∈ config.phases := by
  have phases : SetupAction.converse (.phase phase) ∈
      config.phases.map (fun phase => SetupAction.converse
        (.phase phase : Conversation config.world)) ↔ phase ∈ config.phases :=
    List.mem_map_of_injective phase_injective
  by_cases direct : config.transport = .tcpPeer
  · have targets := phase_notMem_peerTargets config rank phase
    rw [plan_of_direct config direct, List.mem_append, phases]
    simp [targets]
  · rw [plan_of_not_direct config direct, phases]

theorem mem_plan_peerJoin (rank peer : Fin config.world) (rail : Nat) :
    .converse (.peerJoin peer rail) ∈ config.plan rank ↔
      config.transport = .tcpPeer ∧ peer < rank ∧ rail < config.rails := by
  by_cases direct : config.transport = .tcpPeer
  · rw [plan_of_direct config direct, ← mem_peerTargets_iff]
    simp [direct]
  · rw [plan_of_not_direct config direct]
    simp [direct]

theorem plan_nodup (rank : Fin config.world) : (config.plan rank).Nodup := by
  have phases : (config.phases.map fun phase => SetupAction.converse
      (.phase phase : Conversation config.world)).Nodup :=
    (phases_nodup config).map phase_injective
  by_cases direct : config.transport = .tcpPeer
  · have targets := phase_notMem_peerTargets config rank
    rw [plan_of_direct config direct, List.nodup_append]
    refine ⟨phases, ?_, ?_⟩
    · rw [List.nodup_cons]
      refine ⟨by simp, (peerTargets_nodup config rank).map
        converse_injective⟩
    · intro first early second late same
      obtain ⟨phase, _, rfl⟩ := List.mem_map.mp early
      subst same
      simp [targets] at late
  · rw [plan_of_not_direct config direct]
    exact phases

theorem plan_getElem?_phase (rank : Fin config.world) {index : Nat}
    {phase : Phase} (located : config.phases[index]? = some phase) :
    (config.plan rank)[index]? = some (.converse (.phase phase)) := by
  have inside := (List.getElem?_eq_some_iff.mp located).1
  rw [SetupConfig.plan, List.getElem?_append_left (by simpa using inside),
    List.getElem?_map, located]
  rfl

/-- The endpoints are exchanged before anything is done with peers. -/
theorem endpoints_passed (rank : Fin config.world)
    (direct : config.transport = .tcpPeer) {index : Nat}
    (late : config.phases.length ≤ index) :
    .converse (.phase .endpoints) ∈ (config.plan rank).take index := by
  have three : config.phases = [.channel false 0, .endpoints, .channel true 0] := by
    rw [SetupConfig.phases, direct]
  have located : (config.plan rank)[1]? = some (.converse (.phase .endpoints)) := by
    refine plan_getElem?_phase config rank ?_
    rw [three]
    rfl
  rw [three] at late
  exact mem_take_of_getElem? located (lt_of_lt_of_le (by decide) late)

/-- An action that is no phase comes after all of them. -/
theorem late_of_not_phase (rank : Fin config.world) {index : Nat}
    {action : SetupAction config.world}
    (located : (config.plan rank)[index]? = some action)
    (other : ∀ phase, action ≠ .converse (.phase phase)) :
    config.phases.length ≤ index := by
  by_contra early
  have phase := List.getElem?_eq_getElem (Nat.lt_of_not_le early)
  rw [plan_getElem?_phase config rank phase] at located
  cases located
  exact other _ rfl

end Plans

/-- A conversation of a rank. -/
structure Talk (world : Nat) where
  rank : Fin world
  conversation : Conversation world
  deriving DecidableEq

namespace Channel

variable {world : Nat}

/-- The conversation that opens a connection. -/
def opening : Channel world → Conversation world
  | .coordinator p2p rail => .phase (.channel p2p rail)
  | .peer lower rail => .peerJoin lower rail

/-- All conversations over a connection. -/
def carried : Channel world → List (Conversation world)
  | .coordinator false 0 => [.phase (.channel false 0), .phase .endpoints]
  | .coordinator p2p rail => [.phase (.channel p2p rail)]
  | .peer lower rail => [.peerJoin lower rail]

theorem mem_carried_iff (channel : Channel world) (conversation : Conversation world) :
    conversation ∈ channel.carried ↔ conversation.channel = channel := by
  rcases channel with ⟨p2p, rail⟩ | ⟨lower, rail⟩
  · rcases conversation with phase | ⟨lower, other⟩
    · rcases phase with ⟨own, other⟩ | _
      · cases p2p <;> cases rail <;> simp [carried, Conversation.channel]
      · cases p2p <;> cases rail <;> simp [carried, Conversation.channel]
    · cases p2p <;> cases rail <;> simp [carried, Conversation.channel]
  · rcases conversation with phase | ⟨other, own⟩
    · rcases phase with ⟨own, other⟩ | _
      · simp [carried, Conversation.channel]
      · simp [carried, Conversation.channel]
    · simp [carried, Conversation.channel]

theorem carried_nodup (channel : Channel world) : channel.carried.Nodup := by
  rcases channel with ⟨p2p, rail⟩ | ⟨lower, rail⟩
  · cases p2p <;> cases rail <;> simp [carried]
  · simp [carried]

theorem channel_opening (channel : Channel world) : channel.opening.channel = channel := by
  cases channel with
  | coordinator p2p rail => rfl
  | peer lower rail => rfl

end Channel

section Views

variable {Addr Ip : Type} [DecidableEq Addr] (config : SetupConfig Addr Ip)

/-- The listener at the other end of a connection. -/
def placeOf : Channel config.world → Place config.world
  | .coordinator _ _ => .coordinator
  | .peer peer rail => .listener peer (config.listenerFor peer rail)

/-- The conversations of a setup and the connections that carry them. -/
def setupWiring : Wiring (Talk config.world) (Line config.world) (Place config.world) Frame where
  line talk := ⟨talk.rank, talk.conversation.channel⟩
  opening line := ⟨line.rank, line.channel.opening⟩
  carried line := line.channel.carried.map (Talk.mk line.rank)
  target line := placeOf config line.channel
  request talk := requestText config talk.rank talk.conversation
  reply talk := replyText config talk.rank talk.conversation
  mem_carried talk line := by
    obtain ⟨rank, conversation⟩ := talk
    obtain ⟨owner, channel⟩ := line
    rw [List.mem_map]
    simp only [Channel.mem_carried_iff, Talk.mk.injEq, Line.mk.injEq]
    constructor
    · rintro ⟨other, same, rfl, rfl⟩
      exact ⟨rfl, same⟩
    · rintro ⟨rfl, same⟩
      exact ⟨conversation, same, rfl, rfl⟩
  nodup line := by
    refine (Channel.carried_nodup line.channel).map ?_
    intro first second same
    cases same
    rfl
  line_opening line := by
    rw [Channel.channel_opening]

/-- How far a rank has come with the conversation it is in. -/
def RankStage.dial {world : Nat} : RankStage world → DialStage
  | .joining => .dialed
  | .awaiting => .asked
  | _ => .absent

/-- How far a rank has come with a conversation. -/
def dialOf (rank : Fin config.world) (own : RankSetup config.world Addr)
    (conversation : Conversation config.world) : DialStage :=
  standing (config.plan rank) own.index .absent own.stage.dial .complete (.converse conversation)

/-- How far the coordinator has come with a rank in its phase. -/
def CoordinatorStage.accept {world : Nat} (rank : Fin world) :
    CoordinatorStage world Addr → AcceptStage
  | .accepting _ _ ranks _ => if ranks[rank.val]? = some none then .untouched else .read
  | .reading _ _ ranks _ line =>
      if ranks[rank.val]? = some none then
        if line.rank = rank then .taken else .untouched
      else .read
  | .readying _ _ _ next => if rank.val < next then .answered else .read
  | .collecting rows => if rank.val < rows.length then .read else .untouched
  | .answering _ next => if rank.val < next then .answered else .read
  | _ => .untouched

/-- How far the coordinator has come with a conversation. -/
def phaseAccept (own : CoordinatorSetup config.world Addr)
    (rank : Fin config.world) (phase : Phase) : AcceptStage :=
  standing config.phases own.index .untouched (own.stage.accept rank) .answered phase

/-- How far a rank has come with the connection of a peer. -/
def peerAccept {world : Nat} (rank : Fin world) (own : RankSetup world Addr)
    (peer : Fin world) (rail : Nat) : AcceptStage :=
  let line : Line world := ⟨peer, .peer rank rail⟩
  if own.connections rail peer = some line then .answered
  else
    match own.stage with
    | .reading other _ => if other = line then .taken else .untouched
    | _ => .untouched

def dials (state : SetupState config.world Addr) (talk : Talk config.world) : DialStage :=
  dialOf config talk.rank (state.ranks talk.rank) talk.conversation

def accepts (state : SetupState config.world Addr) (talk : Talk config.world) : AcceptStage :=
  match talk.conversation with
  | .phase phase => phaseAccept config state.coordinator talk.rank phase
  | .peerJoin peer rail => peerAccept peer (state.ranks peer) talk.rank rail

/-- The peers whose connections a rank has accepted. -/
def acceptedPairs (rank : Fin config.world) (own : RankSetup config.world Addr) :
    Finset (Fin config.world × Fin config.rails) :=
  (Finset.Ioi rank ×ˢ Finset.univ).filter fun pair =>
    (own.connections pair.2 pair.1).isSome

/-- The connection of a rank to the coordinator that an action leads to. -/
def SetupAction.stream {world : Nat} (rank : Fin world) :
    SetupAction world → Option (Line world)
  | .converse (.phase (.channel p2p rail)) => some ⟨rank, .coordinator p2p rail⟩
  | _ => none

/-- Where the thread of a rank can stand. -/
def RankStage.Sound (rank : Fin config.world)
    (own : RankSetup config.world Addr) : RankStage config.world → Prop
  | .checking => own.index = 0
  | .starting => True
  | .joining => ∃ conversation, (config.plan rank)[own.index]? = some (.converse conversation) ∧
        conversation ≠ .phase .endpoints
  | .awaiting => ∃ conversation, (config.plan rank)[own.index]? = some (.converse conversation)
  | .accepting => own.index = (config.plan rank).length ∧ config.transport = .tcpPeer
  | .reading line listener => own.index = (config.plan rank).length ∧
      config.transport = .tcpPeer ∧ ∃ peer rail, line = ⟨peer, .peer rank rail⟩ ∧ rank < peer ∧
          rail < config.rails ∧ listener = config.listenerFor rank rail ∧
          own.connections rail peer = none
  | .finished => own.index = (config.plan rank).length ∧
      (config.transport = .tcpPeer → expectedIncoming config rank ≤ own.accepted)
  | .failed _ => False

/-- What holds of a rank. -/
structure RankSound (rank : Fin config.world) (own : RankSetup config.world Addr) : Prop where
  stage : own.stage.Sound config rank own
  within : own.index ≤ (config.plan rank).length
  table : .converse (.phase .endpoints) ∈ (config.plan rank).take own.index →
    own.table = peerTable config.addrs config.published config.peerIp
  streams : own.streams = ((config.plan rank).take own.index).filterMap (SetupAction.stream rank)
  connected : ∀ peer rail, .converse (.peerJoin peer rail) ∈ (config.plan rank).take own.index →
      own.connections rail peer = some ⟨rank, .peer peer rail⟩
  filed : ∀ peer rail line, own.connections rail peer = some line →
    .converse (.peerJoin peer rail) ∈ (config.plan rank).take own.index ∧
        line = ⟨rank, .peer peer rail⟩ ∨
      rank < peer ∧ rail < config.rails ∧ line = ⟨peer, .peer rank rail⟩
  counted : own.accepted = (acceptedPairs config rank own).card

/-- The streams of all ranks for a channel. -/
def channelStreams (p2p : Bool) (rail : Nat) : List (Line config.world) :=
  List.ofFn fun rank => ⟨rank, .coordinator p2p rail⟩

/-- The streams of the ranks that have joined a channel. -/
def joinedStreams (p2p : Bool) (rail : Nat) (joined : Finset (Fin config.world)) :
    List (Option (Line config.world)) :=
  List.ofFn fun rank =>
    if rank ∈ joined then some ⟨rank, .coordinator p2p rail⟩ else none

def Phase.streams : Phase → Option (List (Line config.world))
  | .channel p2p rail => some (channelStreams config p2p rail)
  | .endpoints => none

/-- Where the coordinator can stand. -/
def CoordinatorStage.Sound (phase : Option Phase) :
    CoordinatorStage config.world Addr → Prop
  | .starting => True
  | .accepting p2p rail ranks remaining =>
      phase = some (.channel p2p rail) ∧ ∃ joined, ranks = joinedStreams config p2p rail joined ∧
          remaining + joined.card = config.world
  | .reading p2p rail ranks remaining line =>
      phase = some (.channel p2p rail) ∧
        ∃ joined rank, ranks = joinedStreams config p2p rail joined ∧
          remaining + joined.card = config.world ∧ rank ∉ joined ∧
          line = ⟨rank, .coordinator p2p rail⟩
  | .readying p2p rail streams next =>
      phase = some (.channel p2p rail) ∧
        streams = channelStreams config p2p rail ∧ next ≤ config.world
  | .collecting rows =>
      phase = some .endpoints ∧ rows.length ≤ config.world ∧
        rows = (List.ofFn (readFrom config.addrs config.published config.peerIp)).take rows.length
  | .answering table next =>
      phase = some .endpoints ∧ next ≤ config.world ∧
        table = endpointPayload config.addrs (tableLines config.addrs
          config.published config.peerIp)
  | .finished => phase = none
  | .failed _ => False

/-- What holds of the coordinator. -/
structure CoordinatorSound (own : CoordinatorSetup config.world Addr) :
    Prop where
  stage : own.stage.Sound config config.phases[own.index]?
  within : own.index ≤ config.phases.length
  streams : own.streams = (config.phases.take own.index).filterMap (Phase.streams config)

/-- What holds of a setup. -/
structure SetupSound (state : SetupState config.world Addr) : Prop where
  ranks : ∀ rank, RankSound config rank (state.ranks rank)
  coordinator : CoordinatorSound config state.coordinator
  wired : Wired (setupWiring config) (dials config state) (accepts config state) state.wires

end Views

end RuCCL.Rank
