import RuCCL.Library.Handshake
import RuCCL.Library.Transition
import RuCCL.Rank.PeerEndpoints
import RuCCL.Rank.TopologyBuild
import RuCCL.Rank.Tuning

/-!
# Setting a session up

The coordinator and the ranks set a session up over connections and frames.  Every
rank joins the collective channel, then, with the coordinator as transport, one
channel for each rail.  With direct peers it publishes its endpoints, joins a control
channel, connects to all lower ranks and accepts all higher ones.  The coordinator
accepts one kind of channel after the other from a single listener.

Each party is a thread that stops where the source blocks: in front of an accept and
of a read.  A connection is named by the rank that opens it and what it opens it for;
no rank opens one twice.  Frames arrive in order on a connection, and the next step
is one of any party.
-/

namespace RuCCL.Rank

open RuCCL.Library

/-- The errors of a setup, each with the values that its message prints. -/
inductive SetupError where
  | network (error : NetworkError)
  | endpoints (error : EndpointError)
  | rankOutside (rank worldSize : Nat)
  | railsOutside (rails : Nat)
  | notTcp (transport : CollectiveTransport)
  | notJoin
  | wrongChannel
  | wrongRail (tag expected : UInt64)
  | wrongWorldSize (declared expected : Nat)
  | wrongReady (opcode : Opcode) (tag : UInt64)
  | tableRanks (ranks worldSize : Nat)
  | tableRails (found peer rails : Nat)
  | wrongListeners (listeners rails : Nat)
  | unreachable
  | invalidPeerReady (peer rail : Nat)
  | invalidPeerJoin
  | peerRailOutside (rail rails : Nat)
  | wrongListener (rail listener : Nat)
  | lowerPeer (rank peer : Nat)
  | joinedTwice (peer rail : Nat)
  | panic
  deriving DecidableEq

/-- The errors of the parts that a setup is made of. -/
def setupNetwork {α : Type} : Except NetworkError α → Except SetupError α
  | .ok value => .ok value
  | .error error => .error (.network error)

def setupEndpoints {α : Type} : Except EndpointError α → Except SetupError α
  | .ok value => .ok value
  | .error error => .error (.endpoints error)

def setupProtocol {α : Type} (result : Except ProtocolError α) :
    Except SetupError α :=
  setupNetwork (result.mapError NetworkError.protocol)

/-- What a rank opens a connection for. -/
inductive Channel (world : Nat) where
  | coordinator (p2p : Bool) (rail : Nat)
  | peer (peer : Fin world) (rail : Nat)
  deriving DecidableEq

/-- A connection. -/
structure Line (world : Nat) where
  rank : Fin world
  channel : Channel world
  deriving DecidableEq

/-- A listener: the one of the coordinator, or one of a rank. -/
inductive Place (world : Nat) where
  | coordinator
  | listener (rank : Fin world) (index : Nat)
  deriving DecidableEq

/-- What the coordinator does with all ranks at once. -/
inductive Phase where
  | channel (p2p : Bool) (rail : Nat)
  | endpoints
  deriving DecidableEq

/-- A request of a rank and the reply to it. -/
inductive Conversation (world : Nat) where
  | phase (phase : Phase)
  | peerJoin (peer : Fin world) (rail : Nat)
  deriving DecidableEq

/-- The connection that a conversation uses; endpoints go over the collective
channel. -/
def Conversation.channel {world : Nat} : Conversation world → Channel world
  | .phase (.channel p2p rail) => .coordinator p2p rail
  | .phase .endpoints => .coordinator false 0
  | .peerJoin peer rail => .peer peer rail

/-- The next thing that a rank does. -/
inductive SetupAction (world : Nat) where
  | converse (conversation : Conversation world)
  | prepareMesh
  deriving DecidableEq

/-- Where the thread of a rank stands: before its next action, behind the connect and
behind the write of a conversation, and in the loop that accepts higher ranks. -/
inductive RankStage (world : Nat) where
  | checking
  | starting
  | joining
  | awaiting
  | accepting
  | reading (line : Line world) (listener : Nat)
  | finished
  | failed (error : SetupError)
  deriving DecidableEq

/-- A rank: its place in its program, the table of endpoints, its connections to the
coordinator and those to its peers, by rail and rank. -/
structure RankSetup (world : Nat) (Addr : Type) where
  stage : RankStage world
  index : Nat
  table : List (List Addr)
  streams : List (Line world)
  connections : Nat → Fin world → Option (Line world)
  accepted : Nat

/-- Where the coordinator stands, with the local values of the loop it is in. -/
inductive CoordinatorStage (world : Nat) (Addr : Type) where
  | starting
  | accepting (p2p : Bool) (rail : Nat) (ranks : List (Option (Line world))) (remaining : Nat)
  | reading (p2p : Bool) (rail : Nat) (ranks : List (Option (Line world)))
      (remaining : Nat) (line : Line world)
  | readying (p2p : Bool) (rail : Nat) (streams : List (Line world)) (next : Nat)
  | collecting (rows : List (Bool × List Addr))
  | answering (table : List UInt8) (next : Nat)
  | finished
  | failed (error : SetupError)

/-- The coordinator: its phase and the streams of each channel it has accepted, in
the order of the ranks. -/
structure CoordinatorSetup (world : Nat) (Addr : Type) where
  stage : CoordinatorStage world Addr
  index : Nat
  streams : List (List (Line world))

structure SetupState (world : Nat) (Addr : Type) where
  ranks : Fin world → RankSetup world Addr
  coordinator : CoordinatorSetup world Addr
  wires : Line world → Wire (Place world) Frame

namespace SetupState

variable {world : Nat} {Addr : Type}

def setRank (state : SetupState world Addr) (rank : Fin world)
    (own : RankSetup world Addr) : SetupState world Addr :=
  { state with ranks := Function.update state.ranks rank own }

def setCoordinator (state : SetupState world Addr)
    (own : CoordinatorSetup world Addr) : SetupState world Addr :=
  { state with coordinator := own }

def setWire (state : SetupState world Addr) (line : Line world)
    (wire : Wire (Place world) Frame) : SetupState world Addr :=
  { state with wires := Function.update state.wires line wire }

variable (state : SetupState world Addr) (rank : Fin world)
  (own : RankSetup world Addr) (coordinator : CoordinatorSetup world Addr)
  (line : Line world) (wire : Wire (Place world) Frame)

@[simp]
theorem ranks_setRank_self : (state.setRank rank own).ranks rank = own := Function.update_self ..

theorem ranks_setRank_of_ne {other : Fin world} (apart : other ≠ rank) :
    (state.setRank rank own).ranks other = state.ranks other :=
  Function.update_of_ne apart ..

end SetupState

/-- The configuration that the coordinator and all ranks share, the endpoints and the
number of listeners of each rank, the address at which the coordinator sees it, and
the listener behind an address. -/
structure SetupConfig (Addr Ip : Type) where
  addrs : SocketAddrs Addr Ip
  checksum : List UInt8 → UInt32
  uniqueId : UniqueId
  worldSize : UInt32
  rails : Nat
  transport : CollectiveTransport
  published : Fin worldSize.toNat → List Addr
  peerIp : Fin worldSize.toNat → Ip
  listeners : Fin worldSize.toNat → Nat
  route : Addr → Option (Fin worldSize.toNat × Nat)

section Setup

variable {Addr Ip : Type} (config : SetupConfig Addr Ip)

namespace SetupConfig

/-- The number of ranks. -/
abbrev world : Nat := config.worldSize.toNat

/-- The phases of the coordinator, in order. -/
def phases : List Phase := .channel false 0 ::
    match config.transport with
    | .tcpHostStaged => (List.range config.rails).map (.channel true ·)
    | .tcpPeer => [.endpoints, .channel true 0]
    | _ => []

/-- The connections that a rank opens to its peers, in order. -/
def peerTargets (rank : Fin config.world) : List (Conversation config.world) :=
  ((List.finRange config.world).filter (· < rank)).flatMap fun peer =>
    (List.range config.rails).map fun rail => .peerJoin peer rail

/-- What a rank does before it accepts others. -/
def plan (rank : Fin config.world) : List (SetupAction config.world) :=
  config.phases.map (fun phase => .converse (.phase phase)) ++
    match config.transport with
    | .tcpPeer => .prepareMesh :: (config.peerTargets rank).map .converse
    | _ => []

end SetupConfig

/-- What a write does to a frame: the header is checked once more. -/
def transmitted (frame : Frame) : Except SetupError Frame := do
  let _ ← setupProtocol (frame.encodeTransportHeader config.checksum)
  .ok frame

/-- The header of a JOIN to the coordinator. -/
def joinHeader (rank : UInt32) (p2p : Bool) (rail : Nat) : FrameHeader :=
  let header := FrameHeader.collective config.checksum config.uniqueId .join
    .none rank anyRank config.worldSize 0 0
  if p2p then
    { header with
      flags := header.flags ||| flagP2pChannel
      tag := UInt64.ofNat rail }
  else header

/-- `control_frame` -/
def controlFrame (opcode : Opcode) (sequence : UInt64)
    (destination : UInt32) : Except SetupError Frame :=
  setupProtocol (Frame.new config.checksum
    { FrameHeader.collective config.checksum config.uniqueId opcode .none 0
        anyRank config.worldSize sequence 0 with
      destinationRank := destination } [])

/-- The READY of the coordinator to a rank. -/
def readyFrame (rank : Nat) (p2p : Bool) (rail : Nat) :
    Except SetupError Frame := do
  let ready ← controlFrame config .ready 0 (UInt32.ofNat rank)
  if p2p then
    .ok { ready with
      header := { ready.header with
        flags := ready.header.flags ||| flagP2pChannel
        tag := UInt64.ofNat rail } }
  else .ok ready

/-- The header of a frame from `rank` to `peer` about a rail. -/
def peerHeader (opcode : Opcode) (rank peer : UInt32) (rail : Nat) :
    FrameHeader :=
  let header := FrameHeader.collective config.checksum config.uniqueId opcode
    .none rank anyRank config.worldSize 0 0
  { header with
    destinationRank := peer
    flags := header.flags ||| flagP2pChannel
    tag := UInt64.ofNat rail }

/-- `peer_ready_frame` -/
def peerReadyFrame (rank peer : UInt32) (rail : Nat) :
    Except SetupError Frame :=
  setupProtocol (Frame.new config.checksum (peerHeader config .ready rank peer rail) [])

/-- `validate_tcp_transport` -/
def validateTcpTransport (transport : CollectiveTransport) :
    Except SetupError Unit :=
  rejectIf (transport ≠ .tcpHostStaged ∧ transport ≠ .tcpPeer) (.notTcp transport)

/-- The checks of a rank before it connects. -/
def connectChecks (rank : UInt32) : Except SetupError Unit := do
  rejectIf (config.worldSize = 0 ∨ config.worldSize ≤ rank)
    (.rankOutside rank.toNat config.worldSize.toNat)
  rejectIf (¬(1 ≤ config.rails ∧ config.rails ≤ maxP2pRails)) (.railsOutside config.rails)
  validateTcpTransport config.transport

/-- `validate_join` -/
def validateJoin (frame : Frame) (p2p : Bool) (rail : Nat) :
    Except SetupError Unit := do
  rejectIf (frame.header.opcode ≠ .join ∨ frame.header.elementType ≠ .none ∨
    frame.payload ≠ []) .notJoin
  rejectIf (frame.header.uniqueId ≠ config.uniqueId) (.network .wrongSession)
  rejectIf (decide (frame.header.flags &&& flagP2pChannel ≠ 0) ≠ p2p) .wrongChannel
  let expectedRail := if p2p then UInt64.ofNat rail else 0
  rejectIf (frame.header.tag ≠ expectedRail) (.wrongRail frame.header.tag expectedRail)
  rejectIf (frame.header.worldSize.toNat ≠ config.world)
    (.wrongWorldSize frame.header.worldSize.toNat config.world)

/-- What a rank checks of the READY of the coordinator. -/
def checkReady (rank : UInt32) (p2p : Bool) (rail : Nat) (ready : Frame) :
    Except SetupError Unit := do
  setupNetwork (validateResponse config.uniqueId ready rank config.worldSize 0)
  rejectIf (ready.header.opcode ≠ .ready ∨
      decide (ready.header.flags &&& flagP2pChannel ≠ 0) ≠ p2p ∨
      ready.header.tag ≠ (if p2p then UInt64.ofNat rail else 0))
    (.wrongReady ready.header.opcode ready.header.tag)

/-- What a rank checks of the READY of a peer. -/
def checkPeerReady (rank peer : UInt32) (rail : Nat) (ready : Frame) :
    Except SetupError Unit :=
  rejectIf (ready.header.opcode ≠ .ready ∨ ready.header.uniqueId ≠ config.uniqueId ∨
      ready.header.sourceRank ≠ peer ∨
      ready.header.destinationRank ≠ rank ∨
      ready.header.worldSize ≠ config.worldSize ∨
      ready.header.flags &&& flagP2pChannel = 0 ∨
      ready.header.tag ≠ UInt64.ofNat rail ∨ ready.payload ≠ [])
    (.invalidPeerReady peer.toNat rail)

/-- `validate_peer_join` -/
def validatePeerJoin (rank : UInt32) (frame : Frame) :
    Except SetupError (UInt32 × Nat) := do
  rejectIf (frame.header.opcode ≠ .join ∨ frame.header.elementType ≠ .none ∨
      frame.header.uniqueId ≠ config.uniqueId ∨
      frame.header.destinationRank ≠ rank ∨
      frame.header.worldSize ≠ config.worldSize ∨
      frame.header.flags &&& flagP2pChannel = 0 ∨ frame.payload ≠ [])
    .invalidPeerJoin
  let rail := frame.header.tag.toNat
  rejectIf (config.rails ≤ rail) (.peerRailOutside rail config.rails)
  .ok (frame.header.sourceRank, rail)

/-- The checks at the start of `DirectPeerMesh::connect`. -/
def meshChecks (rank : Fin config.world) (table : List (List Addr)) :
    Except SetupError Unit := do
  rejectIf (table.length ≠ config.world) (.tableRanks table.length config.world)
  match table.zipIdx.find? fun row => row.1.length ≠ config.rails with
  | some (row, peer) => .error (.tableRails row.length peer config.rails)
  | none => .ok ()
  rejectIf (config.listeners rank ≠ 1 ∧ config.listeners rank ≠ config.rails)
    (.wrongListeners (config.listeners rank) config.rails)

/-- The listener that a connection of a rank arrives at. -/
def connectTo (own : RankSetup config.world Addr) :
    Conversation config.world → Except SetupError (Place config.world)
  | .phase _ => .ok .coordinator
  | .peerJoin peer rail => do
      let row ← okOr own.table[peer.val]? .panic
      let endpoint ← okOr row[rail]? .panic
      let (rank, index) ← okOr (config.route endpoint) .unreachable
      .ok (.listener rank index)

/-- The frame that a rank writes in a conversation. -/
def requestFrameOf [DecidableEq Addr] (rank : Fin config.world) :
    Conversation config.world → Except SetupError Frame
  | .phase (.channel p2p rail) => do
      let frame ← setupProtocol (Frame.new config.checksum
        (joinHeader config (UInt32.ofNat rank) p2p rail) [])
      transmitted config frame
  | .phase .endpoints => do
      let frame ← setupEndpoints (endpointRequest config.addrs
        config.checksum config.uniqueId config.worldSize config.rails
        (UInt32.ofNat rank) (config.published rank))
      transmitted config frame
  | .peerJoin peer rail => do
      let frame ← setupProtocol (Frame.new config.checksum
        (peerHeader config .join (UInt32.ofNat rank) (UInt32.ofNat peer) rail) [])
      transmitted config frame

/-- A rank with one more peer connection. -/
def RankSetup.connect {world : Nat} (own : RankSetup world Addr) (rail : Nat)
    (peer : Fin world) (line : Line world) : RankSetup world Addr :=
  { own with
    connections := Function.update own.connections rail
      (Function.update (own.connections rail) peer (some line)) }

/-- What a rank checks of the reply to a conversation, and what it keeps. -/
def receiveReply (rank : Fin config.world) (own : RankSetup config.world Addr)
    (conversation : Conversation config.world) (reply : Frame) :
    Except SetupError (RankSetup config.world Addr) :=
  let line : Line config.world := ⟨rank, conversation.channel⟩
  match conversation with
  | .phase (.channel p2p rail) => do
      checkReady config (UInt32.ofNat rank) p2p rail reply
      .ok { own with streams := own.streams ++ [line] }
  | .phase .endpoints => do
      let table ← setupEndpoints (receiveTable config.addrs config.uniqueId
        config.worldSize config.rails (UInt32.ofNat rank) (some reply))
      .ok { own with table := table }
  | .peerJoin peer rail => do
      checkPeerReady config (UInt32.ofNat rank) (UInt32.ofNat peer) rail reply
      .ok (own.connect rail peer line)

/-- The rank behind a source, when there is one. -/
def rankOf (source : UInt32) : Option (Fin config.world) :=
  if inside : source.toNat < config.world then some ⟨source.toNat, inside⟩
  else none

/-- What a rank does with the JOIN of a peer that it has accepted: the connection is
kept and the READY is written. -/
def acceptPeer (rank : Fin config.world)
    (own : RankSetup config.world Addr) (line : Line config.world)
    (listener : Nat) (join : Frame) :
    Except SetupError (RankSetup config.world Addr × Frame) := do
  let (source, rail) ← validatePeerJoin config (UInt32.ofNat rank) join
  rejectIf (config.listeners rank = config.rails ∧ rail ≠ listener) (.wrongListener rail listener)
  rejectIf (source ≤ UInt32.ofNat rank) (.lowerPeer rank source.toNat)
  let peer ← okOr (rankOf config source) .panic
  rejectIf (own.connections rail peer ≠ none) (.joinedTwice source.toNat rail)
  let ready ← peerReadyFrame config (UInt32.ofNat rank) source rail
  let ready ← transmitted config ready
  .ok ({ own.connect rail peer line with
    accepted := own.accepted + 1
    stage := .accepting }, ready)

/-- How many connections a rank waits for. -/
def expectedIncoming (rank : Fin config.world) : Nat := (config.world - rank - 1) * config.rails

/-- Go on with `own` or fail. -/
def SetupState.settle {world : Nat} (state : SetupState world Addr)
    (rank : Fin world) (own : RankSetup world Addr) :
    Except SetupError (RankSetup world Addr) → SetupState world Addr
  | .ok next => state.setRank rank next
  | .error error => state.setRank rank { own with stage := .failed error }

/-- A rank writes its request. -/
def writeRequest [DecidableEq Addr] (state : SetupState config.world Addr)
    (rank : Fin config.world) (conversation : Conversation config.world) :
    SetupState config.world Addr :=
  let own := state.ranks rank
  let line : Line config.world := ⟨rank, conversation.channel⟩
  let wire := state.wires line
  match requestFrameOf config rank conversation with
  | .ok frame =>
      (state.setRank rank { own with stage := .awaiting }).setWire line
        { wire with forward := wire.forward ++ [frame] }
  | .error error => state.setRank rank { own with stage := .failed error }

/-- The next step of a rank, unless it blocks. -/
def rankStep [DecidableEq Addr] (state : SetupState config.world Addr)
    (rank : Fin config.world) : Option (SetupState config.world Addr) :=
  let own := state.ranks rank
  match own.stage with
  | .checking =>
      some (state.settle rank own do
        connectChecks config (UInt32.ofNat rank)
        .ok { own with stage := .starting })
  | .starting =>
      match (config.plan rank)[own.index]? with
      | none =>
          -- only direct peers accept connections
          some (state.setRank rank { own with
            stage := if config.transport = .tcpPeer then .accepting
              else .finished })
      | some .prepareMesh =>
          some (state.settle rank own do
            meshChecks config rank own.table
            .ok { own with index := own.index + 1 })
      | some (.converse (.phase .endpoints)) =>
          some (writeRequest config state rank (.phase .endpoints))
      | some (.converse conversation) =>
          let line : Line config.world := ⟨rank, conversation.channel⟩
          match connectTo config own conversation with
          | .ok place =>
              some ((state.setRank rank { own with stage := .joining }).setWire
                line { state.wires line with target := some place })
          | .error error => some (state.setRank rank { own with stage := .failed error })
  | .joining =>
      match (config.plan rank)[own.index]? with
      | some (.converse conversation) => some (writeRequest config state rank conversation)
      | _ => none
  | .awaiting =>
      match (config.plan rank)[own.index]? with
      | some (.converse conversation) =>
          let line : Line config.world := ⟨rank, conversation.channel⟩
          match (state.wires line).backward with
          | [] => none
          | reply :: rest =>
              some ((state.settle rank own do
                let next ← receiveReply config rank own conversation reply
                .ok { next with
                  stage := .starting
                  index := own.index + 1 }).setWire line
                { state.wires line with backward := rest })
      | _ => none
  | .accepting =>
      -- the loop ends when a pass over the listeners finds enough connections
      if expectedIncoming config rank ≤ own.accepted then
        some (state.setRank rank { own with stage := .finished })
      else none
  | .reading line listener =>
      let wire := state.wires line
      match wire.forward with
      | [] => none
      | join :: rest =>
          match acceptPeer config rank own line listener join with
          | .ok (next, ready) =>
              some ((state.setRank rank next).setWire line
                { wire with
                  forward := rest
                  backward := wire.backward ++ [ready] })
          | .error error =>
              some ((state.setRank rank { own with stage := .failed error }).setWire line
                { wire with forward := rest })
  | .finished => none
  | .failed _ => none

/-- A rank polls its listeners in turn and accepts a connection that has arrived at
one of them; which one it finds first depends on when they arrive. -/
def rankAccept (state : SetupState config.world Addr)
    (rank : Fin config.world) (line : Line config.world) :
    Option (SetupState config.world Addr) :=
  let own := state.ranks rank
  let wire := state.wires line
  match own.stage, wire.target with
  | .accepting, some (.listener place index) =>
      if place = rank ∧ index < config.listeners rank ∧ ¬wire.taken then
        some ((state.setRank rank { own with stage := .reading line index }).setWire line
            { wire with taken := true })
      else none
  | _, _ => none

/-- The stream of a JOIN is kept under its rank. -/
def keepRank (p2p : Bool) (rail : Nat)
    (ranks : List (Option (Line config.world))) (line : Line config.world)
    (frame : Frame) : Except SetupError (List (Option (Line config.world))) := do
  validateJoin config frame p2p rail
  let rank := frame.header.sourceRank.toNat
  let slot ← okOr ranks[rank]? .panic
  rejectIf (slot ≠ none) (.network (.rankAlreadyJoined (UInt32.ofNat rank)))
  .ok (ranks.set rank (some line))

/-- All streams, when there is one for each rank. -/
def allJoined {world : Nat} (ranks : List (Option (Line world))) :
    Except SetupError (List (Line world)) :=
  ranks.mapM fun stream => okOr stream .panic

/-- The READY of a phase as it is written. -/
def writtenReady (rank : Nat) (p2p : Bool) (rail : Nat) :
    Except SetupError Frame := do
  let ready ← readyFrame config rank p2p rail
  transmitted config ready

/-- The table as it is written to a rank. -/
def writtenTable (rank : Nat) (table : List UInt8) :
    Except SetupError Frame := do
  let frame ← setupEndpoints (endpointProtocol (Frame.new config.checksum
    (tableHeader config.checksum config.uniqueId config.worldSize config.rails
      rank table.length) table))
  transmitted config frame

/-- The coordinator goes on at another stage or fails. -/
def SetupState.advance {world : Nat} (state : SetupState world Addr) :
    Except SetupError (CoordinatorStage world Addr) → SetupState world Addr
  | .ok stage => state.setCoordinator { state.coordinator with stage := stage }
  | .error error => state.setCoordinator { state.coordinator with stage := .failed error }

/-- The coordinator writes a frame and goes on. -/
def coordinatorWrite {world : Nat} (state : SetupState world Addr)
    (line : Line world) (frame : Except SetupError Frame)
    (stage : CoordinatorStage world Addr) : SetupState world Addr :=
  let wire := state.wires line
  match frame with
  | .ok frame =>
      (state.advance (.ok stage)).setWire line { wire with backward := wire.backward ++ [frame] }
  | .error error => state.advance (.error error)

/-- The next step of the coordinator, unless it blocks. -/
def coordinatorStep (state : SetupState config.world Addr) :
    Option (SetupState config.world Addr) :=
  let own := state.coordinator
  match own.stage with
  | .starting =>
      match config.phases[own.index]? with
      | none =>
          some (state.advance do
            validateTcpTransport config.transport
            .ok .finished)
      | some (.channel p2p rail) =>
          some (state.advance (.ok (.accepting p2p rail
            (List.replicate config.world none) config.world)))
      | some .endpoints => some (state.advance (.ok (.collecting [])))
  | .accepting p2p rail ranks remaining =>
      if remaining = 0 then
        some (state.advance do
          let streams ← allJoined ranks
          .ok (.readying p2p rail streams 0))
      else none
  | .reading p2p rail ranks remaining line =>
      match (state.wires line).forward with
      | [] => none
      | frame :: rest =>
          some ((state.advance do
            let kept ← keepRank config p2p rail ranks line frame
            .ok (.accepting p2p rail kept (remaining - 1))).setWire line
              { state.wires line with forward := rest })
  | .readying p2p rail streams next =>
      match streams[next]? with
      | some line =>
          some (coordinatorWrite state line (writtenReady config next p2p rail)
            (.readying p2p rail streams (next + 1)))
      | none =>
          some (state.setCoordinator
            { stage := .starting
              index := own.index + 1
              streams := own.streams ++ [streams] })
  | .collecting rows =>
      let collective := own.streams.headD []
      match collective[rows.length]? with
      | some line =>
          match (state.wires line).forward with
          | [] => none
          | frame :: rest =>
              some ((state.advance do
                let row ← setupEndpoints (readEndpoints config.addrs
                  config.uniqueId config.worldSize config.rails rows.length
                  ⟨.ok (some frame), config.peerIp line.rank⟩)
                .ok (.collecting (rows ++ [row]))).setWire line
                  { state.wires line with forward := rest })
      | none =>
          some (state.advance (.ok (.answering
            (endpointPayload config.addrs (flatTable rows)) 0)))
  | .answering table next =>
      let collective := own.streams.headD []
      match collective[next]? with
      | some line =>
          some (coordinatorWrite state line (writtenTable config next table)
            (.answering table (next + 1)))
      | none =>
          some (state.setCoordinator
            { own with
              stage := .starting
              index := own.index + 1 })
  | .finished => none
  | .failed _ => none

/-- The coordinator accepts a connection that has arrived. -/
def coordinatorAccept (state : SetupState config.world Addr)
    (line : Line config.world) : Option (SetupState config.world Addr) :=
  let wire := state.wires line
  match state.coordinator.stage with
  | .accepting p2p rail ranks remaining =>
      if remaining ≠ 0 ∧ wire.target = some .coordinator ∧ ¬wire.taken then
        some ((state.advance (.ok (.reading p2p rail ranks remaining
          line))).setWire line { wire with taken := true })
      else none
  | _ => none

/-- The next step of a run. -/
inductive SetupMove (world : Nat) where
  | rank (rank : Fin world)
  | rankAccept (rank : Fin world) (line : Line world)
  | coordinator
  | coordinatorAccept (line : Line world)
  deriving DecidableEq

def setupStep [DecidableEq Addr] (state : SetupState config.world Addr) :
    SetupMove config.world → Option (SetupState config.world Addr)
  | .rank rank => rankStep config state rank
  | .rankAccept rank line => rankAccept config state rank line
  | .coordinator => coordinatorStep config state
  | .coordinatorAccept line => coordinatorAccept config state line

/-- Nothing has happened yet. -/
def setupStart : SetupState config.world Addr where
  ranks _ := ⟨.checking, 0, [], [], fun _ _ => none, 0⟩
  coordinator := ⟨.starting, 0, []⟩
  wires _ := ⟨none, false, [], []⟩

end Setup

end RuCCL.Rank
