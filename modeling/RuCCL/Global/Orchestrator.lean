import RuCCL.Library.Result
import RuCCL.Library.Table

/-!
# The global orchestrator

Nodes register over sessions, agree on their collectives and leave again.  The
state is behind a mutex, so that requests and disconnects are handled one at a
time.  What is sent to the sessions is returned with the new state.

Addresses and element types are those of other crates; only equality is used.
-/

namespace RuCCL.Global

open RuCCL.Library

abbrev SessionId := UInt64
abbrev RequestId := UInt32
abbrev NodeId := UInt32
abbrev PeerId := UInt32

inductive ReduceOperation where
  | sum | mean
  deriving DecidableEq

inductive AllReduceStrategy where
  | centralized
  | tree (arity : UInt32)
  | ring
  deriving DecidableEq

inductive ReduceStrategy where
  | centralized
  | tree (arity : UInt32)
  deriving DecidableEq

inductive BroadcastStrategy where
  | centralized
  | tree (arity : UInt32)
  deriving DecidableEq

inductive GlobalCollectiveError where
  | operationTimeout | communicatorAborted | allReduceBeforeRegister
  | collectiveBeforeRegister | collectiveParamsMismatch
  | unknownRoot (peer : PeerId)
  | broadcastNoTensor | broadcastMultipleTensors | invalidTreeArity
  | duplicatePeer (peer : PeerId)
  | ringReduceImpossible | notRegisteredOnFinish | pendingRegisterOnFinish
  | registerParamsMismatch | doubleRegister | allReduceParamsMismatch
  | firstMsgNotInit | invalidMessage | peerSentIncoherentTensor
  | peerLost (node : NodeId)
  | server (message : String)
  | wrongOrchestratorResponse | orchestratorUnreachable
  deriving DecidableEq

/-- What the participants of a collective agree on. -/
inductive CollectiveSpec (DType : Type) where
  | allReduce (op : ReduceOperation) (strategy : AllReduceStrategy)
      (shape : List Nat) (dtype : DType)
  | reduce (root : PeerId) (op : ReduceOperation) (strategy : ReduceStrategy)
      (shape : List Nat) (dtype : DType)
  | broadcast (strategy : BroadcastStrategy) (metadata : Option (List Nat × DType))
  deriving DecidableEq

inductive RemoteRequest (Address DType : Type) where
  | register (nodeAddr : Address) (numNodes : UInt32) (peers : List PeerId)
  | begin (spec : CollectiveSpec DType)
  | finish

inductive RemoteResponse (Address : Type) where
  | register (nodeId : NodeId) (nodes : Table NodeId Address) (numGlobalDevices : UInt32)
  | begin (rootNode : NodeId) (transferId : UInt64)
  | finishAck
  | error (error : GlobalCollectiveError)

/-- A response that is put into the queue of a session. -/
structure Answer (Address : Type) where
  session : SessionId
  requestId : RequestId
  content : RemoteResponse Address

/-- The two calls of `expect` and the index into a map. -/
inductive Panic where
  | nodeIdentifierExhausted | transferIdentifierExhausted
  | sessionNotRegistered
  deriving DecidableEq

/-- A session; its receiver is handed out once. -/
structure Session where
  responseReceiver : Bool

structure GlobalCollectiveState (Address DType : Type) where
  registeredNodes : Table SessionId NodeId
  nodeAddresses : Table NodeId Address
  nodePeers : Table NodeId (List PeerId)
  curNumNodes : Option UInt32
  numGlobalPeers : UInt32
  registerRequests : List (SessionId × RequestId × NodeId)
  sessions : Table SessionId Session
  pendingCollectives : List (SessionId × RequestId × CollectiveSpec DType)
  nextTransferId : UInt64
  nextNodeId : UInt32
  failed : Option GlobalCollectiveError

/-- The state that a method leaves, what it has sent and its result. -/
structure Handled (Address DType : Type) where
  state : GlobalCollectiveState Address DType
  sent : List (Answer Address)
  result : Except GlobalCollectiveError Unit

section Agreement

variable {DType : Type} [DecidableEq DType]

/-- The least of some nodes. -/
def leastNode (nodes : List NodeId) : Option NodeId := nodes.foldl
    (fun least node =>
      match least with
      | none => some node
      | some best => some (if node < best then node else best))
    none

/-- The root of a broadcast: the one node with a tensor. -/
def broadcastSource (strategy : BroadcastStrategy) :
    Option NodeId → List (NodeId × CollectiveSpec DType) → Except GlobalCollectiveError NodeId
  | source, [] => okOr source .broadcastNoTensor
  | source, (node, .broadcast other metadata) :: rest =>
      if strategy ≠ other then .error .collectiveParamsMismatch
      else if metadata.isSome then
        if source.isSome then .error .broadcastMultipleTensors
        else broadcastSource strategy (some node) rest
      else broadcastSource strategy source rest
  | _, _ => .error .collectiveParamsMismatch

def agreeCollective (specs : List (NodeId × CollectiveSpec DType))
    (peers : Table NodeId (List PeerId)) :
    Except GlobalCollectiveError NodeId :=
  match specs with
  | [] => .error .collectiveParamsMismatch
  | (_, first) :: _ =>
      match first with
      | .allReduce _ strategy _ _ => do
          rejectIf (∃ entry ∈ specs, entry.2 ≠ first) .collectiveParamsMismatch
          rejectIf (strategy = .tree 0) .invalidTreeArity
          okOr (leastNode peers.keys) .collectiveBeforeRegister
      | .reduce root _ strategy _ _ => do
          rejectIf (∃ entry ∈ specs, entry.2 ≠ first) .collectiveParamsMismatch
          rejectIf (strategy = .tree 0) .invalidTreeArity
          okOr ((peers.entries.find? fun entry =>
            decide (root ∈ entry.2)).map Sigma.fst) (.unknownRoot root)
      | .broadcast strategy _ => do
          rejectIf (strategy = .tree 0) .invalidTreeArity
          broadcastSource strategy none specs

end Agreement

namespace GlobalCollectiveState

variable {Address DType : Type}

def new : GlobalCollectiveState Address DType where
  registeredNodes := ∅
  nodeAddresses := ∅
  nodePeers := ∅
  curNumNodes := none
  numGlobalPeers := 0
  registerRequests := []
  sessions := ∅
  pendingCollectives := []
  -- all-reduce algorithms reserve 0 and 1
  nextTransferId := 2
  nextNodeId := 0
  failed := none

variable (state : GlobalCollectiveState Address DType)

def initSession (id : SessionId) : GlobalCollectiveState Address DType :=
  if id ∈ state.sessions then state
  else { state with sessions := state.sessions.insert id ⟨true⟩ }

/-- Take the receiver of a session; it is there only once. -/
def getSessionResponder (id : SessionId) :
    GlobalCollectiveState Address DType ×
      Except GlobalCollectiveError Unit :=
  let known := state.initSession id
  match known.sessions.lookup id with
  | some ⟨true⟩ => ({ known with sessions := known.sessions.insert id ⟨false⟩ }, .ok ())
  | _ => (known, .error .invalidMessage)

def respond (session : SessionId) (requestId : RequestId)
    (content : RemoteResponse Address) : List (Answer Address) :=
  if session ∈ state.sessions then [⟨session, requestId, content⟩] else []

/-- Answer a list of requests, all with the same content. -/
def respondAll {α : Type} (requests : List (SessionId × RequestId × α))
    (content : RemoteResponse Address) : List (Answer Address) :=
  requests.flatMap fun request =>
    state.respond request.1 request.2.1 content

/-- The number of peers of all nodes, as the code adds them up. -/
def peerCount (peers : Table NodeId (List PeerId)) : UInt32 := (values peers).foldl
    (fun total group => total + UInt32.ofNat group.length) 0

/-- A node leaves: everything that waits for it is given up. -/
def dropNode (session : SessionId) (node : NodeId) :
    GlobalCollectiveState Address DType :=
  let peers := state.nodePeers.erase node
  { state with
    registeredNodes := state.registeredNodes.erase session
    nodeAddresses := state.nodeAddresses.erase node
    nodePeers := peers
    numGlobalPeers := peerCount peers
    failed := some (.peerLost node)
    pendingCollectives := []
    registerRequests := [] }

/-- Without members the next epoch can begin. -/
def resetIfEmpty : GlobalCollectiveState Address DType :=
  if state.registeredNodes.keys = [] then
    { state with curNumNodes := none, nextNodeId := 0, failed := none }
  else state

def disconnect (session : SessionId) :
    GlobalCollectiveState Address DType × List (Answer Address) :=
  match state.registeredNodes.lookup session with
  | some node =>
      let error := RemoteResponse.error (.peerLost node)
      let left := state.dropNode session node
      ({ left with sessions := left.sessions.erase session }.resetIfEmpty,
        state.respondAll state.pendingCollectives error ++
          state.respondAll state.registerRequests error)
  | none =>
      ({ state with
          sessions := state.sessions.erase session }.resetIfEmpty, [])

def finish (session : SessionId) (requestId : RequestId) :
    Handled Address DType :=
  match state.registeredNodes.lookup session with
  | some node =>
      let error := RemoteResponse.error (.peerLost node)
      { state := (state.dropNode session node).resetIfEmpty
        sent := state.respondAll state.pendingCollectives error ++
          state.respondAll state.registerRequests error ++
          state.respond session requestId .finishAck
        result := .ok () }
  | none => ⟨state, [], .error .notRegisteredOnFinish⟩

/-- The first peer that is named twice or known already. -/
def firstDuplicate (known : List PeerId) :
    List PeerId → List PeerId → Option PeerId
  | _, [] => none
  | seen, peer :: rest =>
      if peer ∈ seen ∨ peer ∈ known then some peer
      else firstDuplicate known (peer :: seen) rest

def reject (error : GlobalCollectiveError) : Handled Address DType := ⟨state, [], .error error⟩

variable [DecidableEq Address]

/-- The part of `register` behind its checks. -/
def enroll (session : SessionId) (requestId : RequestId)
    (nodeAddr : Address) (numNodes : UInt32) (peers : List PeerId) :
    Except Panic (Handled Address DType) := do
  let counted := { state with
    numGlobalPeers := state.numGlobalPeers + UInt32.ofNat peers.length }
  let nodeId := state.nextNodeId
  let nextNodeId ← okOr (if nodeId.toNat + 1 < 2 ^ 32 then some (nodeId + 1) else none)
    .nodeIdentifierExhausted
  let named := { counted with
    nextNodeId := nextNodeId
    registeredNodes := counted.registeredNodes.insert session nodeId }
  if nodeAddr ∈ values named.nodeAddresses then
    .ok (named.reject .doubleRegister)
  else
    let joined := { named with
      nodeAddresses := named.nodeAddresses.insert nodeId nodeAddr
      nodePeers := named.nodePeers.insert nodeId peers
      registerRequests := named.registerRequests ++ [(session, requestId, nodeId)] }
    if joined.registeredNodes.keys.length = numNodes.toNat then
      .ok {
        state := { joined with registerRequests := [] }
        sent := joined.registerRequests.flatMap fun request =>
          joined.respond request.1 request.2.1
            (.register request.2.2 joined.nodeAddresses joined.numGlobalPeers)
        result := .ok () }
    else .ok ⟨joined, [], .ok ()⟩

def register (session : SessionId) (requestId : RequestId)
    (nodeAddr : Address) (numNodes : UInt32) (peers : List PeerId) :
    Except Panic (Handled Address DType) :=
  if numNodes = 0 ∨ peers = [] then
    .ok (state.reject .registerParamsMismatch)
  else if session ∈ state.registeredNodes ∨ nodeAddr ∈ values state.nodeAddresses then
    .ok (state.reject .doubleRegister)
  else if state.registeredNodes.keys ≠ [] ∧ state.registerRequests = [] then
    .ok (state.reject .registerParamsMismatch)
  else
    match firstDuplicate (values state.nodePeers).flatten [] peers with
    | some peer => .ok (state.reject (.duplicatePeer peer))
    | none =>
        match state.curNumNodes with
        | some agreed =>
            if agreed ≠ numNodes then
              .ok (state.reject .registerParamsMismatch)
            else state.enroll session requestId nodeAddr numNodes peers
        | none =>
            { state with curNumNodes := some numNodes }.enroll session
              requestId nodeAddr numNodes peers

variable [DecidableEq DType]

/-- A round is complete: all of its participants get the same answer. -/
def concludeRound : Except Panic (Handled Address DType) := do
  let requests := state.pendingCollectives
  let specs ← requests.mapM fun request => do
    let node ← okOr (state.registeredNodes.lookup request.1) .sessionNotRegistered
    .ok (node, request.2.2)
  match agreeCollective specs state.nodePeers with
  | .ok rootNode =>
      let transferId := state.nextTransferId
      let nextTransferId ← okOr
        (if transferId.toNat + 1 < 2 ^ 64 then some (transferId + 1)
          else none) .transferIdentifierExhausted
      .ok {
        state := { state with
          pendingCollectives := []
          nextTransferId := nextTransferId }
        sent := state.respondAll requests (.begin rootNode transferId)
        result := .ok () }
  | .error error =>
      .ok {
        state := { state with pendingCollectives := [] }
        sent := state.respondAll requests (.error error)
        result := .ok () }

def begin (session : SessionId) (requestId : RequestId)
    (spec : CollectiveSpec DType) : Except Panic (Handled Address DType) :=
  if session ∉ state.registeredNodes ∨ state.registerRequests ≠ [] ∨
      state.registeredNodes.keys.length ≠ (state.curNumNodes.getD 0).toNat then
    .ok (state.reject .collectiveBeforeRegister)
  else if session ∈ state.pendingCollectives.map Prod.fst then
    .ok (state.reject .collectiveParamsMismatch)
  else
    let waiting := { state with
      pendingCollectives := state.pendingCollectives ++ [(session, requestId, spec)] }
    if waiting.pendingCollectives.length ≠ waiting.registeredNodes.keys.length then
      .ok ⟨waiting, [], .ok ()⟩
    else waiting.concludeRound

def handle (session : SessionId) (requestId : RequestId) :
    RemoteRequest Address DType → Except Panic (Handled Address DType)
  | .register nodeAddr numNodes peers => state.register session requestId nodeAddr numNodes peers
  | .begin spec => state.begin session requestId spec
  | .finish => .ok (state.finish session requestId)

/-- The error of a failed group, for every request but the last one. -/
def refusal (request : RemoteRequest Address DType) :
    Option GlobalCollectiveError :=
  match request with
  | .finish => none
  | _ => state.failed

def processRequest (session : SessionId) (requestId : RequestId)
    (request : RemoteRequest Address DType) :
    Except Panic (GlobalCollectiveState Address DType × List (Answer Address)) :=
  match state.refusal request with
  | some error => .ok (state, state.respond session requestId (.error error))
  | none => do
      let handled ← state.handle session requestId request
      match handled.result with
      | .ok _ => .ok (handled.state, handled.sent)
      | .error error =>
          .ok (handled.state, handled.sent ++
            handled.state.respond session requestId (.error error))

end GlobalCollectiveState

inductive OrchestratorEvent (Address DType : Type) where
  | init (session : SessionId)
  | responder (session : SessionId)
  | request (session : SessionId) (requestId : RequestId) (request : RemoteRequest Address DType)
  | disconnect (session : SessionId)

variable {Address DType : Type} [DecidableEq Address] [DecidableEq DType]

def orchestratorStep (state : GlobalCollectiveState Address DType) :
    OrchestratorEvent Address DType → Except Panic
        (GlobalCollectiveState Address DType × List (Answer Address))
  | .init session => .ok (state.initSession session, [])
  | .responder session => .ok ((state.getSessionResponder session).1, [])
  | .request session requestId request => state.processRequest session requestId request
  | .disconnect session => .ok (state.disconnect session)

/-- The state part of a step. -/
def orchestratorNext (state : GlobalCollectiveState Address DType)
    (event : OrchestratorEvent Address DType) :
    Option (GlobalCollectiveState Address DType) :=
  match orchestratorStep state event with
  | .ok (successor, _) => some successor
  | .error _ => none

end RuCCL.Global
