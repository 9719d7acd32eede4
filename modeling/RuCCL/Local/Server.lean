import RuCCL.Local.Strategies

/-!
# The local collective server

One task takes the messages of all local peers from a channel and handles them
one after the other.  A callback is a channel of its own that the client makes
for each message; callers keep their ends of them, so that an answer is never
lost.  Whatever the global client returns belongs to the event.
-/

namespace RuCCL.Local

open RuCCL.Library RuCCL.Global

abbrev Callback := Nat

inductive CollectiveError where
  | invalidConfig | multipleUnregister | multipleRegister
  | registerParamsMismatch | allReduceShapeMismatch
  | allReduceOperationMismatch | reduceShapeMismatch
  | reduceOperationMismatch | reduceRootMismatch | broadcastRootMismatch
  | broadcastNoTensor | broadcastMultipleTensors | localServerMissing
  | registerNotFirstOperation
  | global (error : GlobalCollectiveError)
  | other (message : String)
  deriving DecidableEq

structure CollectiveConfig (Address : Type) where
  numDevices : Nat
  localAllReduceStrategy : AllReduceStrategy
  localReduceStrategy : ReduceStrategy
  localBroadcastStrategy : BroadcastStrategy
  numNodes : Option UInt32
  globalAddress : Option Address
  nodeAddress : Option Address
  dataServicePort : Option UInt16
  globalAllReduceStrategy : Option AllReduceStrategy
  globalReduceStrategy : Option ReduceStrategy
  globalBroadcastStrategy : Option BroadcastStrategy
  deriving DecidableEq

/-- The parameters of a registration with the other nodes. -/
structure GlobalRegisterParams (Address : Type) where
  globalAddress : Address
  nodeAddress : Address
  dataServicePort : UInt16
  numNodes : UInt32

namespace CollectiveConfig

variable {Address : Type} (config : CollectiveConfig Address)

def isValid : Bool :=
  match config.numNodes, config.globalAddress, config.nodeAddress, config.dataServicePort with
  | none, none, none, none => true
  | some _, some _, some _, some _ => true
  | _, _, _, _ => false

def globalRegisterParams : Option (GlobalRegisterParams Address) :=
  match config.numNodes, config.globalAddress, config.nodeAddress, config.dataServicePort with
  | some numNodes, some globalAddress, some nodeAddress, some port =>
      some ⟨globalAddress, nodeAddress, port, numNodes⟩
  | _, _, _, _ => none

end CollectiveConfig

/-- The value of an answer. -/
inductive Reply (Tensor : Type) where
  | done
  | tensor (tensor : Tensor)
  | optional (tensor : Option Tensor)

structure LocalAnswer (Tensor : Type) where
  callback : Callback
  result : Except CollectiveError (Reply Tensor)

/-- What the client of the other nodes returns. -/
structure GlobalReplies (Tensor Device : Type) where
  register : Except GlobalCollectiveError Unit
  allReduce : Tensor → AllReduceStrategy → ReduceOperation → Except GlobalCollectiveError Tensor
  reduce : Tensor → ReduceStrategy → PeerId → ReduceOperation →
    Except GlobalCollectiveError (Option Tensor)
  broadcast : Option Tensor → BroadcastStrategy → Device → Except GlobalCollectiveError Tensor

/-- An error of the other nodes. -/
def mapGlobal {α : Type} :
    Except GlobalCollectiveError α → Except CollectiveError α
  | .ok value => .ok value
  | .error error => .error (.global error)

/-- A call that brings a tensor. -/
structure TensorCall (Tensor : Type) where
  caller : PeerId
  input : Tensor
  resultSender : Callback

structure AllReduceOp (Tensor : Type) where
  calls : List (TensorCall Tensor)
  op : ReduceOperation
  shape : List Nat

structure ReduceOp (Tensor : Type) where
  calls : List (TensorCall Tensor)
  op : ReduceOperation
  root : PeerId
  shape : List Nat

structure BroadcastOpCall (Device : Type) where
  caller : PeerId
  device : Device
  resultSender : Callback

structure BroadcastOp (Tensor Device : Type) where
  calls : List (BroadcastOpCall Device)
  tensor : Option Tensor
  root : Option PeerId

variable {Tensor Device Address : Type}

/-- Send an error to some callers. -/
def failAll (callbacks : List Callback) (error : CollectiveError) : List (LocalAnswer Tensor) :=
  callbacks.map fun callback => ⟨callback, .error error⟩

/-- Each caller takes its tensor out of the map, which is empty then. -/
def handOut : List (PeerId × Callback) → CollectiveTensorMap Tensor →
    Except Stop (List (LocalAnswer Tensor))
  | [], tensors => if tensors.keys = [] then .ok [] else .error (.panic .tensorsLeft)
  | (caller, callback) :: rest, tensors => do
      let result ← okOr (tensors.lookup caller) (.panic .tensorPeerMismatch)
      let later ← handOut rest (tensors.erase caller)
      .ok (⟨callback, .ok (.tensor result)⟩ :: later)

section Operations

variable (B : Backend Tensor Device)

namespace AllReduceOp

variable (operation : AllReduceOp Tensor)

def callbacks : List Callback := operation.calls.map TensorCall.resultSender

def registerCall (caller : PeerId) (input : Tensor)
    (resultSender : Callback) (op : ReduceOperation) (peerCount : Nat) :
    Except CollectiveError (AllReduceOp Tensor × Bool) :=
  if operation.shape ≠ B.shape input then .error .allReduceShapeMismatch
  else if operation.op ≠ op then .error .allReduceOperationMismatch
  else
    let joined := { operation with
      calls := operation.calls ++ [⟨caller, input, resultSender⟩] }
    .ok (joined, decide (joined.calls.length = peerCount))

def fail (error : CollectiveError) : List (LocalAnswer Tensor) :=
  failAll operation.callbacks error

def allReduce (config : CollectiveConfig Address) (global : Bool)
    (replies : GlobalReplies Tensor Device) :
    Except Stop (Except CollectiveError (CollectiveTensorMap Tensor)) :=
  let tensors := collect (operation.calls.map fun call =>
    (call.caller, call.input))
  if global then do
    let result ← allReduceWithGlobal B tensors operation.op
      config.localAllReduceStrategy config.globalAllReduceStrategy
      replies.allReduce
    .ok (mapGlobal result)
  else do
    let result ← allReduceLocalOnly B tensors operation.op config.localAllReduceStrategy
    .ok (.ok result)

def execute (config : CollectiveConfig Address) (global : Bool)
    (replies : GlobalReplies Tensor Device) :
    Except Stop (List (LocalAnswer Tensor)) := do
  let result ← operation.allReduce B config global replies
  match result with
  | .ok tensors =>
      handOut (operation.calls.map fun call =>
        (call.caller, call.resultSender)) tensors
  | .error error => .ok (operation.fail error)

end AllReduceOp

namespace ReduceOp

variable (operation : ReduceOp Tensor)

def callbacks : List Callback := operation.calls.map TensorCall.resultSender

def registerCall (caller : PeerId) (input : Tensor)
    (resultSender : Callback) (op : ReduceOperation) (root : PeerId)
    (peerCount : Nat) :
    Except CollectiveError (ReduceOp Tensor × Bool) :=
  if operation.shape ≠ B.shape input then .error .reduceShapeMismatch
  else if operation.op ≠ op then .error .reduceOperationMismatch
  else if operation.root ≠ root then .error .reduceRootMismatch
  else
    let joined := { operation with
      calls := operation.calls ++ [⟨caller, input, resultSender⟩] }
    .ok (joined, decide (joined.calls.length = peerCount))

def fail (error : CollectiveError) : List (LocalAnswer Tensor) :=
  failAll operation.callbacks error

/-- The root need not be a peer of this node. -/
def localRoot (global : Bool) : Except Stop (Option PeerId) :=
  if operation.root ∈ operation.calls.map TensorCall.caller then
    .ok (some operation.root)
  else if global then do
    let first ← okOr operation.calls.head? (.panic .noCalls)
    .ok (some first.caller)
  else .ok none

/-- The sum of all tensors for one peer, by the chosen strategy. -/
def reduceSum (strategy : ReduceStrategy) (tensors : CollectiveTensorMap Tensor) (root : PeerId) :
    Except Stop Tensor :=
  match strategy with
  | .centralized => reduceSumCentralized B tensors root
  | .tree arity => reduceSumTree B tensors root arity

def reduce (config : CollectiveConfig Address) (global : Bool)
    (replies : GlobalReplies Tensor Device) :
    Except Stop (Except CollectiveError (Option Tensor)) := do
  let tensors := collect (operation.calls.map fun call =>
    (call.caller, call.input))
  match ← operation.localRoot global with
  | none => .ok (.error .reduceRootMismatch)
  | some localRoot => do
      let localSum ← reduceSum B config.localReduceStrategy tensors localRoot
      if global then
        let strategy ← okOr config.globalReduceStrategy (.panic .globalStrategyUndefined)
        .ok (mapGlobal (replies.reduce localSum strategy operation.root operation.op))
      else
        match operation.op with
        | .mean =>
            .ok (.ok (some (B.floatDivScalar localSum operation.calls.length)))
        | .sum => .ok (.ok (some localSum))

/-- The first call of the root gets the result, everyone else nothing. -/
def deliver (root : PeerId) :
    List (TensorCall Tensor) → Option Tensor → List (LocalAnswer Tensor)
  | [], _ => []
  | call :: rest, result =>
      if call.caller = root then
        ⟨call.resultSender, .ok (.optional result)⟩ :: deliver root rest none
      else
        ⟨call.resultSender, .ok (.optional none)⟩ :: deliver root rest result

def execute (root : PeerId) (config : CollectiveConfig Address)
    (global : Bool) (replies : GlobalReplies Tensor Device) :
    Except Stop (List (LocalAnswer Tensor)) := do
  match ← operation.reduce B config global replies with
  | .ok result => .ok (deliver root operation.calls result)
  | .error error => .ok (operation.fail error)

end ReduceOp

namespace BroadcastOp

variable (operation : BroadcastOp Tensor Device)

def callbacks : List Callback := operation.calls.map BroadcastOpCall.resultSender

def registerCall (caller : PeerId) (input : Option Tensor)
    (resultSender : Callback) (device : Device) (peerCount : Nat) :
    Except CollectiveError (BroadcastOp Tensor Device × Bool) :=
  if input.isSome ∧ operation.tensor.isSome then
    .error .broadcastMultipleTensors
  else
    let joined := {
      calls := operation.calls ++ [⟨caller, device, resultSender⟩]
      tensor := if input.isSome then input else operation.tensor
      root := if input.isSome then some caller else operation.root }
    .ok (joined, decide (joined.calls.length = peerCount))

def fail (error : CollectiveError) : List (LocalAnswer Tensor) :=
  failAll operation.callbacks error

def effectiveRoot : Except Stop PeerId := do
  -- the default is computed even when there is a root
  let first ← okOr operation.calls.head? (.panic .noCalls)
  .ok (operation.root.getD first.caller)

/-- The tensor after the broadcast between the nodes. -/
def mainTensor (config : CollectiveConfig Address) (global : Bool)
    (replies : GlobalReplies Tensor Device) :
    Except Stop (Except CollectiveError (Option Tensor)) :=
  if global then do
    let strategy ← okOr config.globalBroadcastStrategy (.panic .globalStrategyUndefined)
    let first ← okOr operation.calls.head? (.panic .noCalls)
    match replies.broadcast operation.tensor strategy first.device with
    | .ok tensor => .ok (.ok (some tensor))
    | .error error => .ok (.error (.global error))
  else .ok (.ok operation.tensor)

/-- One tensor for every peer, by the chosen strategy. -/
def broadcastLocally (strategy : BroadcastStrategy)
    (devices : PeerDeviceMap Device) (root : PeerId) (tensor : Tensor) :
    Except Stop (CollectiveTensorMap Tensor) :=
  match strategy with
  | .tree arity => broadcastTree B devices root tensor arity
  | .centralized => broadcastCentralized B devices root tensor

def broadcast (config : CollectiveConfig Address) (global : Bool)
    (replies : GlobalReplies Tensor Device) :
    Except Stop (Except CollectiveError (CollectiveTensorMap Tensor)) := do
  match ← operation.mainTensor config global replies with
  | .error error => .ok (.error error)
  | .ok none => .ok (.error .broadcastNoTensor)
  | .ok (some tensor) => do
      let root ← operation.effectiveRoot
      let peerDevices := collect (operation.calls.map fun call =>
        (call.caller, call.device))
      let output ← broadcastLocally B config.localBroadcastStrategy peerDevices root tensor
      .ok (.ok output)

def execute (config : CollectiveConfig Address) (global : Bool)
    (replies : GlobalReplies Tensor Device) :
    Except Stop (List (LocalAnswer Tensor)) := do
  match ← operation.broadcast B config global replies with
  | .ok tensors =>
      handOut (operation.calls.map fun call =>
        (call.caller, call.resultSender)) tensors
  | .error error => .ok (operation.fail error)

end BroadcastOp

end Operations

/-- The client of the other nodes, by what it has been made with. -/
structure GlobalClient (Address : Type) where
  globalAddress : Address
  dataServicePort : UInt16

structure LocalCollectiveServer (Tensor Device Address : Type) where
  config : Option (CollectiveConfig Address)
  peers : List PeerId
  callbacksRegister : List Callback
  devices : Table PeerId Device
  allReduceOp : Option (AllReduceOp Tensor)
  reduceOp : Option (ReduceOp Tensor)
  broadcastOp : Option (BroadcastOp Tensor Device)
  globalClient : Option (GlobalClient Address)

inductive Message (Tensor Device Address : Type) where
  | register (deviceId : PeerId) (device : Device)
      (config : CollectiveConfig Address) (callback : Callback)
  | allReduce (deviceId : PeerId) (tensor : Tensor) (op : ReduceOperation) (callback : Callback)
  | reduce (deviceId : PeerId) (tensor : Tensor) (op : ReduceOperation)
      (root : PeerId) (callback : Callback)
  | broadcast (deviceId : PeerId) (tensor : Option Tensor) (callback : Callback)
  | reset
  | finish (id : PeerId) (callback : Callback)

namespace LocalCollectiveServer

def new : LocalCollectiveServer Tensor Device Address where
  config := none
  peers := []
  callbacksRegister := []
  devices := ∅
  allReduceOp := none
  reduceOp := none
  broadcastOp := none
  globalClient := none

/-- The server that a message leaves and what it has answered. -/
abbrev Processed (Tensor Device Address : Type) :=
  LocalCollectiveServer Tensor Device Address × List (LocalAnswer Tensor)

variable (server : LocalCollectiveServer Tensor Device Address)

/-- Answer one message with an error and leave everything as it is. -/
def refuse (callback : Callback) (error : CollectiveError) :
    Except Stop (Processed Tensor Device Address) :=
  .ok (server, failAll [callback] error)

/-- What the registration with the other nodes returns, if there are any. -/
def registerGlobally (params : Option (GlobalRegisterParams Address))
    (client : Option (GlobalClient Address))
    (replies : GlobalReplies Tensor Device) :
    Except Stop (Except CollectiveError (Reply Tensor)) :=
  match params with
  | none => .ok (.ok .done)
  | some _ => do
      let _ ← okOr client (.panic .globalClientUndefined)
      .ok (mapGlobal (replies.register.map fun _ => Reply.done))

/-- The part of `processRegisterMessage` behind its checks. -/
def acceptPeer (deviceId : PeerId) (device : Device)
    (config : CollectiveConfig Address) (callback : Callback)
    (replies : GlobalReplies Tensor Device) :
    Except Stop (Processed Tensor Device Address) :=
  let params := config.globalRegisterParams
  let joined := { server with
    config := some config
    peers := server.peers ++ [deviceId]
    callbacksRegister := server.callbacksRegister ++ [callback]
    devices := server.devices.insert deviceId device
    globalClient :=
      match params, server.globalClient with
      | some params, none => some ⟨params.globalAddress, params.dataServicePort⟩
      | _, client => client }
  if joined.peers.length = config.numDevices then do
    let result ← registerGlobally params joined.globalClient replies
    .ok ({ joined with callbacksRegister := [] },
      joined.callbacksRegister.map fun waiting => ⟨waiting, result⟩)
  else .ok (joined, [])

def processRegisterMessage [DecidableEq Address] (deviceId : PeerId)
    (device : Device) (config : CollectiveConfig Address)
    (callback : Callback) (replies : GlobalReplies Tensor Device) :
    Except Stop (Processed Tensor Device Address) :=
  if ¬config.isValid then server.refuse callback .invalidConfig
  else if deviceId ∈ server.peers then
    server.refuse callback .multipleRegister
  else if server.peers = [] ∨ server.config = none then
    server.acceptPeer deviceId device config callback replies
  else if server.config ≠ some config then
    server.refuse callback .registerParamsMismatch
  else server.acceptPeer deviceId device config callback replies

section Collectives

variable (B : Backend Tensor Device)

def processAllReduceMessage (peerId : PeerId) (tensor : Tensor)
    (op : ReduceOperation) (callback : Callback)
    (replies : GlobalReplies Tensor Device) :
    Except Stop (Processed Tensor Device Address) :=
  if peerId ∉ server.peers then
    server.refuse callback .registerNotFirstOperation
  else
    let operation := server.allReduceOp.getD ⟨[], op, B.shape tensor⟩
    let taken := { server with allReduceOp := none }
    match operation.registerCall B peerId tensor callback op server.peers.length with
    | .ok (called, true) => do
        let config ← okOr server.config (.panic .configUndefined)
        let answers ← called.execute B config server.globalClient.isSome replies
        .ok (taken, answers)
    | .ok (called, false) => .ok ({ taken with allReduceOp := some called }, [])
    | .error error => .ok (taken, operation.fail error)

def processReduceMessage (peerId : PeerId) (tensor : Tensor)
    (op : ReduceOperation) (root : PeerId) (callback : Callback)
    (replies : GlobalReplies Tensor Device) :
    Except Stop (Processed Tensor Device Address) :=
  if root ∉ server.peers then
    server.refuse callback .registerNotFirstOperation
  else
    let operation := server.reduceOp.getD ⟨[], op, root, B.shape tensor⟩
    let taken := { server with reduceOp := none }
    match operation.registerCall B peerId tensor callback op root server.peers.length with
    | .ok (called, true) => do
        let config ← okOr server.config (.panic .configUndefined)
        let answers ← called.execute B root config server.globalClient.isSome replies
        .ok (taken, answers)
    | .ok (called, false) => .ok ({ taken with reduceOp := some called }, [])
    | .error error => .ok (taken, operation.fail error)

def processBroadcastMessage (caller : PeerId) (tensor : Option Tensor)
    (callback : Callback) (replies : GlobalReplies Tensor Device) :
    Except Stop (Processed Tensor Device Address) :=
  if server.config.isNone then
    server.refuse callback .registerNotFirstOperation
  else if caller ∉ server.peers then
    server.refuse callback .registerNotFirstOperation
  else do
    let device ← okOr (server.devices.lookup caller) (.panic .deviceUndefined)
    let operation := server.broadcastOp.getD ⟨[], none, none⟩
    let taken := { server with broadcastOp := none }
    match operation.registerCall caller tensor callback device server.peers.length with
    | .ok (called, true) =>
        let config ← okOr server.config (.panic .configUndefined)
        let answers ← called.execute B config server.globalClient.isSome replies
        .ok (taken, answers)
    | .ok (called, false) => .ok ({ taken with broadcastOp := some called }, [])
    | .error error => .ok (taken, operation.fail error)

end Collectives

def reset : LocalCollectiveServer Tensor Device Address :=
  { server with
    peers := []
    allReduceOp := none
    reduceOp := none
    broadcastOp := none }

def processFinishMessage (id : PeerId) (callback : Callback) :
    Except Stop (Processed Tensor Device Address) :=
  if server.config.isNone then
    server.refuse callback .registerNotFirstOperation
  else if id ∉ server.peers then
    server.refuse callback .multipleUnregister
  else
    let left := server.peers.filter fun peer => peer ≠ id
    .ok ({ server with
        peers := left
        globalClient :=
          if left = [] then none else server.globalClient },
      [⟨callback, .ok .done⟩])

def processMessage [DecidableEq Address] (B : Backend Tensor Device)
    (replies : GlobalReplies Tensor Device) :
    Message Tensor Device Address → Except Stop (Processed Tensor Device Address)
  | .register deviceId device config callback =>
      server.processRegisterMessage deviceId device config callback replies
  | .allReduce deviceId tensor op callback =>
      server.processAllReduceMessage B deviceId tensor op callback replies
  | .reduce deviceId tensor op root callback =>
      server.processReduceMessage B deviceId tensor op root callback replies
  | .broadcast deviceId tensor callback =>
      server.processBroadcastMessage B deviceId tensor callback replies
  | .reset => .ok (server.reset, [])
  | .finish id callback => server.processFinishMessage id callback

end LocalCollectiveServer

/-- A message with what the other nodes will say. -/
structure ServerEvent (Tensor Device Address : Type) where
  message : Message Tensor Device Address
  replies : GlobalReplies Tensor Device

variable [DecidableEq Address] (B : Backend Tensor Device)

def serverStep (server : LocalCollectiveServer Tensor Device Address)
    (event : ServerEvent Tensor Device Address) :
    Except Stop (LocalCollectiveServer.Processed Tensor Device Address) :=
  server.processMessage B event.replies event.message

/-- The state part of a step. -/
def serverNext (server : LocalCollectiveServer Tensor Device Address)
    (event : ServerEvent Tensor Device Address) :
    Option (LocalCollectiveServer Tensor Device Address) :=
  match serverStep B server event with
  | .ok (successor, _) => some successor
  | .error _ => none

end RuCCL.Local
