import RuCCL.Rank.CollectiveLoop

/-!
# Point-to-point routing of the coordinator

One loop takes the frames of all ranks in the order in which their reader
threads pass them on.  It keeps the sends and the receives that wait for a
partner in two queues, acknowledges every send and answers a matched receive
with the data of its send.

Requests are numbered by the event that brought them and a written answer names
the pair it belongs to; no branch of the code reads these marks.
-/

namespace RuCCL.Rank

open RuCCL.Library

/-- A request frame and the number of its event. -/
structure P2pRequest where
  number : Nat
  frame : Frame
  deriving DecidableEq

/-- A frame on the stream of a rank; the answer of a receive names its pair. -/
structure P2pWritten where
  rank : Nat
  frame : Frame
  pair : Option (P2pRequest × P2pRequest)
  deriving DecidableEq

/-- The loop's queues and everything it has written, oldest first. -/
structure P2pState where
  sends : List P2pRequest
  receives : List P2pRequest
  graceful : Nat → Bool
  closed : Nat → Bool
  written : List P2pWritten
  events : Nat
  /-- Sends and receives that were routed without an error. -/
  accepted : List P2pRequest
  stopped : Bool

/-- A fallible part of the loop; an error keeps what was done before it. -/
abbrev P2p := EStateM Fault P2pState

/-- The conversion behind `?` inside the loop. -/
def orStop {α : Type} (result : Except Fault α) : P2p α :=
  match result with
  | .ok value => pure value
  | .error failure => throw failure

section Route

variable (checksum : List UInt8 → UInt32)
variable (fromUtf8Lossy : List UInt8 → String)
variable (uniqueId : UniqueId) (worldSize : Nat)

/-- The shape of a frame that carries no data. -/
def emptyControl (frame : Frame) : Bool := frame.header.destinationRank = anyRank ∧
    frame.header.elementType = .none ∧ frame.header.elementCount = 0 ∧
    frame.payload = []

def validateP2pRequest (frame : Frame) (connectionRank : Nat) :
    Except Fault Unit := do
  rejectIf (frame.header.uniqueId ≠ uniqueId) (.error .wrongSession)
  invalidIf (frame.header.worldSize.toNat ≠ worldSize ∨
      frame.header.sourceRank.toNat ≠ connectionRank)
    s!"point-to-point connection rank {connectionRank} submitted source {frame.header.sourceRank} and world {frame.header.worldSize}"
  invalidIf (frame.header.rootRank ≠ anyRank)
    "point-to-point request cannot declare a collective root"
  match frame.header.opcode with
  | .send =>
      invalidIf (frame.header.destinationRank = anyRank)
        "point-to-point send requires a destination rank"
  | .receive =>
      invalidIf (frame.payload ≠ []) "point-to-point receive request cannot carry data"
  | .abort =>
      invalidIf (frame.header.destinationRank ≠ anyRank ∨
          frame.header.elementType ≠ .u8 ∨ frame.payload = [])
        "point-to-point abort requires a non-empty U8 message"
  | .heartbeat =>
      invalidIf (emptyControl frame = false)
        "point-to-point heartbeat must be an empty control frame"
  | .leave =>
      invalidIf (emptyControl frame = false) "point-to-point LEAVE must be an empty control frame"
  | opcode => invalid s!"opcode {opcode.debugName} is invalid on the point-to-point channel"

def p2pMatches (send receive : Frame) : Bool :=
  send.header.destinationRank = receive.header.sourceRank ∧
    (receive.header.destinationRank = anyRank ∨
      receive.header.destinationRank = send.header.sourceRank) ∧
    send.header.tag = receive.header.tag

def p2pSendAcknowledgement (send : Frame) : Except ProtocolError Frame := Frame.new checksum
    { FrameHeader.collective checksum uniqueId .send .none
        send.header.sourceRank anyRank (UInt32.ofNat worldSize)
        send.header.sequence 0 with
      destinationRank := send.header.sourceRank
      tag := send.header.tag }
    []

def p2pHeartbeatResponse (heartbeat : Frame) : Except ProtocolError Frame := Frame.new checksum
    { FrameHeader.collective checksum uniqueId .heartbeat .none
        heartbeat.header.sourceRank anyRank (UInt32.ofNat worldSize)
        heartbeat.header.sequence 0 with
      destinationRank := heartbeat.header.sourceRank }
    []

/-- The frame that answers a receive with the data of a send. -/
def p2pReceiveAnswer (send receive : Frame) : Except ProtocolError Frame := Frame.new checksum
    { FrameHeader.collective checksum uniqueId .receive
        send.header.elementType send.header.sourceRank anyRank
        (UInt32.ofNat worldSize) receive.header.sequence
        send.header.elementCount with
      destinationRank := receive.header.sourceRank
      tag := send.header.tag }
    send.payload

variable (outcome : Frame → Except NetworkError Unit)

/-- Write a frame to the stream of a rank; `outcome` says how a write ends. -/
def writeP2p (rank : Nat) (frame : Frame) (pair : Option (P2pRequest × P2pRequest)) : P2p Unit :=
  match outcome frame with
  | .ok () =>
      modify fun state =>
        { state with written := state.written ++ [⟨rank, frame, pair⟩] }
  | .error failure => throw (.error failure)

def deliverP2pReceive (send receive : P2pRequest) : P2p Unit := do
  orStop (invalidIf
    (send.frame.header.elementType ≠ receive.frame.header.elementType ∨
      send.frame.header.elementCount ≠ receive.frame.header.elementCount)
    s!"point-to-point tag {send.frame.header.tag} contract mismatch: send {send.frame.header.elementType.debugName}/{send.frame.header.elementCount} receive {receive.frame.header.elementType.debugName}/{receive.frame.header.elementCount}")
  let answer ← orStop (fromProtocol
    (p2pReceiveAnswer checksum uniqueId worldSize send.frame receive.frame))
  writeP2p outcome receive.frame.header.sourceRank.toNat answer (some (send, receive))

/-- `route_p2p_request`, the branch of a send. -/
def routeSend (request : P2pRequest) : P2p Unit := do
  let frame := request.frame
  let acknowledgement ← orStop (fromProtocol
    (p2pSendAcknowledgement checksum uniqueId worldSize frame))
  writeP2p outcome frame.header.sourceRank.toNat acknowledgement none
  let fits := fun receive : P2pRequest => p2pMatches frame receive.frame
  let state ← get
  match state.receives.find? fits with
  | some receive =>
      set { state with receives := state.receives.eraseP fits }
      deliverP2pReceive checksum uniqueId worldSize outcome request receive
  | none => set { state with sends := state.sends ++ [request] }

/-- `route_p2p_request`, the branch of a receive. -/
def routeReceive (request : P2pRequest) : P2p Unit := do
  let frame := request.frame
  let fits := fun send : P2pRequest => p2pMatches send.frame frame
  let state ← get
  match state.sends.find? fits with
  | some send =>
      set { state with sends := state.sends.eraseP fits }
      deliverP2pReceive checksum uniqueId worldSize outcome send request
  | none => set { state with receives := state.receives ++ [request] }

def routeP2pRequest (connectionRank : Nat) (request : P2pRequest) :
    P2p Unit := do
  let frame := request.frame
  orStop (validateP2pRequest uniqueId worldSize frame connectionRank)
  match frame.header.opcode with
  | .send => routeSend checksum uniqueId worldSize outcome request
  | .receive => routeReceive checksum uniqueId worldSize outcome request
  | .heartbeat =>
      let response ← orStop (fromProtocol
        (p2pHeartbeatResponse checksum uniqueId worldSize frame))
      writeP2p outcome connectionRank response none
  | .leave => pure ()
  | .abort =>
      throw (.error (.remoteAbort (.text
        s!"rank {connectionRank} aborted: {fromUtf8Lossy frame.payload}")))
  | _ => throw .panic

end Route

/-- What a reader thread passes to the loop. -/
inductive P2pEvent where
  | frame (rank : Nat) (frame : Frame)
  | closed (rank : Nat)
  | failed (rank : Nat) (message : String)
  deriving DecidableEq

/-- How the writes of one round of the loop end and, should the loop leave with
an error, its text and the streams that still take the abort. -/
structure P2pWrites where
  outcome : Frame → Except NetworkError Unit
  message : List UInt8
  takes : Nat → Bool

/-- One round of the loop: an event, or an expired heartbeat lease. -/
inductive P2pAction where
  | event (event : P2pEvent) (writes : P2pWrites)
  | expire (rank : Nat) (writes : P2pWrites)

section Loop

variable (checksum : List UInt8 → UInt32)
variable (fromUtf8Lossy : List UInt8 → String)
variable (uniqueId : UniqueId) (worldSize : Nat) (heartbeat : Bool)

def broadcastP2pAbort (writes : P2pWrites) (state : P2pState) : P2pState :=
  let aborts := (List.range worldSize).filterMap fun rank =>
    match abortFrame checksum uniqueId 0 (UInt32.ofNat rank)
        (UInt32.ofNat worldSize) writes.message with
    | .ok frame =>
        if writes.takes rank then some (⟨rank, frame, none⟩ : P2pWritten)
        else none
    | .error _ => none
  { state with written := state.written ++ aborts, stopped := true }

/-- The end of a round: an error is broadcast, and the loop ends once every
stream is closed. -/
def P2pState.finishRound (writes : P2pWrites) (routed : EStateM.Result Fault P2pState Unit) :
    P2pState :=
  match routed with
  | .error _ state => broadcastP2pAbort checksum uniqueId worldSize writes state
  | .ok _ state =>
      if (List.range worldSize).all state.closed then
        { state with stopped := true }
      else state

/-- A frame event before the end of its round. -/
def frameEvent (writes : P2pWrites) (rank : Nat) (frame : Frame) : P2p Unit := do
  let state ← get
  let request : P2pRequest := ⟨state.events, frame⟩
  set { state with events := state.events + 1 }
  if state.graceful rank then
    orStop (invalid s!"point-to-point rank {rank} sent data after LEAVE")
  else
    routeP2pRequest checksum fromUtf8Lossy uniqueId worldSize writes.outcome rank request
    modify fun state =>
      { state with
        graceful :=
          if frame.header.opcode = .leave then
            Function.update state.graceful rank true
          else state.graceful
        accepted :=
          if frame.header.opcode = .send ∨ frame.header.opcode = .receive
          then state.accepted ++ [request]
          else state.accepted }

/-- The end of a rank's stream, without a departure unless it was announced. -/
def closeEvent (rank : Nat) (message : String) : P2p Unit := do
  let state ← get
  set { state with closed := Function.update state.closed rank true }
  if heartbeat ∧ state.graceful rank = false then
    orStop (invalid message)

def handleEvent (writes : P2pWrites) : P2pEvent → P2p Unit
  | .frame rank frame => frameEvent checksum fromUtf8Lossy uniqueId worldSize writes rank frame
  | .closed rank =>
      closeEvent heartbeat rank s!"point-to-point rank {rank} disconnected without LEAVE"
  | .failed rank message =>
      closeEvent heartbeat rank s!"point-to-point rank {rank} failed without LEAVE: {message}"

def P2pEvent.rank : P2pEvent → Nat
  | .frame rank _ => rank
  | .closed rank => rank
  | .failed rank _ => rank

def p2pStep (state : P2pState) : P2pAction → Option P2pState
  | .event event writes =>
      if state.stopped = false ∧ event.rank < worldSize then
        some (P2pState.finishRound checksum uniqueId worldSize writes
          (handleEvent checksum fromUtf8Lossy uniqueId worldSize heartbeat writes event state))
      else none
  | .expire rank writes =>
      if state.stopped = false ∧ heartbeat = true ∧ rank < worldSize ∧
          state.closed rank = false ∧ state.graceful rank = false then
        some (broadcastP2pAbort checksum uniqueId worldSize writes state)
      else none

/-- The loop before its first event. -/
def p2pStart : P2pState where
  sends := []
  receives := []
  graceful := fun _ => false
  closed := fun _ => false
  written := []
  events := 0
  accepted := []
  stopped := false

end Loop

/-- The pairs whose answer was written, oldest first. -/
def P2pState.delivered (state : P2pState) : List (P2pRequest × P2pRequest) :=
  state.written.filterMap P2pWritten.pair

end RuCCL.Rank
