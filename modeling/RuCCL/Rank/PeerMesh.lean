import RuCCL.Library.Transition
import RuCCL.Rank.Routing

/-!
# The direct peer mesh

Every pair of ranks shares one connection per rail.  Data frames and
acknowledgements travel on the same streams; one reader thread per rank and
connection queues data frames in the inbox of its rank, acknowledges them, and
hands acknowledgements to the sends that wait for them.

Streams carry whole frames in order: a write that fails leaves nothing on its
stream.  Frames carry the call that they come from, and the mesh keeps the
history of its inboxes; no branch of the code reads either.
-/

namespace RuCCL.Rank

open RuCCL.Library

/-- One rank's side of the connection to a peer on a rail. -/
structure Endpoint where
  rank : UInt32
  peer : UInt32
  rail : Nat
  deriving DecidableEq

/-- The other side of the connection. -/
def Endpoint.mirror (side : Endpoint) : Endpoint :=
  { rank := side.peer, peer := side.rank, rail := side.rail }

@[simp]
theorem Endpoint.mirror_mirror (side : Endpoint) : side.mirror.mirror = side :=
  rfl

structure AckKey where
  peer : UInt32
  rail : Nat
  sequence : UInt64
  deriving DecidableEq

/-- What a frame on a stream is for. -/
inductive Origin where
  | data (send : Nat)
  | acknowledgement (send : Nat)
  | notice
  deriving DecidableEq

structure Packet where
  frame : Frame
  origin : Origin
  deriving DecidableEq

/-- A data frame in an inbox, with the call that sent it. -/
structure QueuedFrame where
  send : Nat
  rail : Nat
  frame : Frame
  deriving DecidableEq

/-- The arguments of `send_on_rail` at a rank. -/
structure SendCall where
  rank : UInt32
  rail : Nat
  destination : UInt32
  tag : UInt64
  elementType : ElementType
  elementCount : UInt64
  payload : List UInt8
  deriving DecidableEq

def SendCall.side (call : SendCall) : Endpoint :=
  { rank := call.rank, peer := call.destination, rail := call.rail }

/-- How far a call of `send_on_rail` has come. -/
inductive SendPhase where
  /-- The checks passed; the connection's lock is not taken yet. -/
  | checked
  /-- The frame is written and the loop is about to look at the failure slot. -/
  | polling (key : AckKey)
  /-- The failure slot was empty and the loop waits on its channel. -/
  | receiving (key : AckKey)
  | returned (result : Except NetworkError Unit)

/-- A call with the frame it built, once it has built one. -/
structure Send where
  call : SendCall
  frame : Option Frame
  phase : SendPhase

inductive ReaderPhase where
  | reading
  /-- The data frame is queued and its acknowledgement has to be written. -/
  | acknowledging (packet : Packet)
  | stopped

/-- The arguments of `receive_on_rail` at a rank. -/
structure ReceiveCall where
  rank : UInt32
  rail : Nat
  source : Option UInt32
  tag : UInt64
  elementType : ElementType
  elementCount : UInt64
  deriving DecidableEq

/-- All ranks of the mesh and everything under way between them. -/
structure MeshState where
  calls : Nat
  sends : Nat → Option Send
  nextSequence : Endpoint → UInt64
  /-- Frames that a side wrote and its peer has not read. -/
  streams : Endpoint → List Packet
  closed : Endpoint → Bool
  departed : UInt32 → Bool
  readers : Endpoint → ReaderPhase
  pendingAcks : UInt32 → List (AckKey × Nat)
  /-- The channel on which a send waits. -/
  channels : Nat → List (Except Message Unit)
  failure : UInt32 → Option Message
  inbox : UInt32 → List QueuedFrame
  /-- Every frame ever queued in an inbox. -/
  pushed : UInt32 → List QueuedFrame
  /-- Every frame ever taken from an inbox. -/
  taken : UInt32 → List QueuedFrame
  /-- What the readers took for acknowledgements. -/
  acknowledged : List Packet
  /-- Sides whose threads ran into the departure of a rank. -/
  noticed : List Endpoint

/-- The first message stays in the slot, and every waiting send gets one. -/
def setPeerFailure (rank : UInt32) (message : Message) (state : MeshState) : MeshState :=
  { state with
    failure := Function.update state.failure rank (some ((state.failure rank).getD message))
    channels := fun send =>
      if send ∈ (state.pendingAcks rank).map Prod.snd then
        state.channels send ++ [.error message]
      else state.channels send
    pendingAcks := Function.update state.pendingAcks rank [] }

def removePending (rank : UInt32) (key : AckKey) (state : MeshState) : MeshState :=
  { state with
    pendingAcks := Function.update state.pendingAcks rank
      ((state.pendingAcks rank).filter fun entry => entry.1 ≠ key) }

def MeshState.setPhase (state : MeshState) (send : Nat) (phase : SendPhase) : MeshState :=
  { state with
    sends := Function.update state.sends send
      ((state.sends send).map fun call => { call with phase := phase }) }

def MeshState.setReader (state : MeshState) (side : Endpoint) (phase : ReaderPhase) :
    MeshState :=
  { state with readers := Function.update state.readers side phase }

/-- A reader that gives up. -/
def stopReader (side : Endpoint) (message : Message) (state : MeshState) :
    MeshState :=
  (setPeerFailure side.rank message state).setReader side .stopped

def MeshState.notice (state : MeshState) (side : Endpoint) : MeshState :=
  { state with noticed := state.noticed ++ [side] }

/-- A departure on either side of the connection. -/
def MeshState.departing (state : MeshState) (side : Endpoint) : Bool :=
  state.closed side || state.closed side.mirror

/-- Record that a side ran into a departure. -/
def MeshState.noticeDeparture (state : MeshState) (side : Endpoint) :
    MeshState :=
  if state.departing side then state.notice side else state

def MeshState.write (state : MeshState) (side : Endpoint) (packet : Packet) : MeshState :=
  { state with
    streams := Function.update state.streams side (state.streams side ++ [packet]) }

def MeshState.push (state : MeshState) (rank : UInt32) (queued : QueuedFrame) :
    MeshState :=
  { state with
    inbox := Function.update state.inbox rank (state.inbox rank ++ [queued])
    pushed := Function.update state.pushed rank (state.pushed rank ++ [queued]) }

section Mesh

variable (checksum : List UInt8 → UInt32) (uniqueId : UniqueId)
variable (worldSize : UInt32) (rails : Nat)

def validateRail (rail : Nat) : Except NetworkError Unit := rejectIf (¬rail < rails)
    (.invalidConfiguration s!"direct peer rail {rail} is outside 0..{rails}")

def validatePeer (peer : UInt32) : Except NetworkError Unit := rejectIf (¬peer < worldSize)
    (.protocol (.rankOutOfRange "peer" peer worldSize))

def checkFailure (failure : Option Message) : Except NetworkError Unit :=
  match failure with
  | some message => .error (.remoteAbort message)
  | none => .ok ()

/-- The checks of `send_on_rail` before it touches a stream. -/
def SendCall.check (failure : Option Message) (call : SendCall) :
    Except NetworkError Unit := do
  validateRail rails call.rail
  validatePeer worldSize call.destination
  checkFailure failure

def SendCall.frame (sequence : UInt64) (call : SendCall) :
    Except ProtocolError Frame :=
  Frame.new checksum
    { FrameHeader.collective checksum uniqueId .send call.elementType
        call.rank anyRank worldSize sequence call.elementCount with
      destinationRank := call.destination
      tag := call.tag }
    call.payload

/-- A new call and its first phase. -/
def MeshState.addSend (state : MeshState) (send : Send) : MeshState :=
  { state with
    calls := state.calls + 1
    sends := Function.update state.sends state.calls (some send) }

def startStep (state : MeshState) (call : SendCall) : Option MeshState :=
  if state.departed call.rank then none
  else
    match call.check worldSize rails (state.failure call.rank) with
    | .error failure => some (state.addSend ⟨call, none, .returned (.error failure)⟩)
    | .ok () =>
        if call.destination = call.rank then
          match call.frame checksum uniqueId worldSize 0 with
          | .error failure =>
              some (state.addSend ⟨call, none, .returned (.error (.protocol failure))⟩)
          | .ok frame =>
              some ((state.addSend ⟨call, some frame, .returned (.ok ())⟩).push call.rank
                  ⟨state.calls, call.rail, frame⟩)
        else some (state.addSend ⟨call, none, .checked⟩)

/-- The part of `send_on_rail` under the connection's lock; `failed` is the
text of an I/O error that fails the write. -/
def submitStep (state : MeshState) (send : Nat) (failed : Option String) :
    Option MeshState :=
  match state.sends send with
  | some ⟨call, _, .checked⟩ =>
      let side := call.side
      let sequence := state.nextSequence side
      match checkedAdd sequence.toNat 1 with
      | none =>
          some (state.setPhase send (.returned (.error (.protocol .sequenceOverflow))))
      | some next =>
          let state :=
            { state with
              nextSequence := Function.update state.nextSequence side (UInt64.ofNat next) }
          match call.frame checksum uniqueId worldSize sequence with
          | .error failure =>
              some (state.setPhase send (.returned (.error (.protocol failure))))
          | .ok frame =>
              let key : AckKey := ⟨call.destination, call.rail, sequence⟩
              let state :=
                { state with
                  pendingAcks := Function.update state.pendingAcks call.rank
                      ((key, send) :: (state.pendingAcks call.rank).filter
                        fun entry => entry.1 ≠ key) }
              match failed with
              | some cause =>
                  some (((setPeerFailure call.rank
                    (.text s!"direct peer send to rank {call.destination} rail {call.rail} failed: {cause}")
                    state).setPhase send (.returned (.error (.io cause)))).noticeDeparture side)
              | none =>
                  some ({ state with
                    sends := Function.update state.sends send
                      (some ⟨call, some frame, .polling key⟩) }.write side ⟨frame, .data send⟩)
  | _ => none

/-- The loop of a waiting send looks at the failure slot. -/
def pollStep (state : MeshState) (send : Nat) : Option MeshState :=
  match state.sends send with
  | some ⟨call, _, .polling key⟩ =>
      match state.failure call.rank with
      | some message =>
          some ((removePending call.rank key state).setPhase send
            (.returned (.error (.remoteAbort message))))
      | none => some (state.setPhase send (.receiving key))
  | _ => none

/-- The deadline passes at the same place. -/
def expireStep (state : MeshState) (send : Nat) : Option MeshState :=
  match state.sends send with
  | some ⟨call, _, .polling key⟩ =>
      match state.failure call.rank with
      | some _ => none
      | none =>
          let message := s!"direct peer send to rank {call.destination} rail {call.rail} with tag {call.tag} timed out"
          some ((setPeerFailure call.rank (.text message)
            (removePending call.rank key state)).setPhase send
              (.returned (.error (.timeout message))))
  | _ => none

/-- The channel of a waiting send delivers, or nobody can send on it. -/
def receiveAckStep (state : MeshState) (send : Nat) : Option MeshState :=
  match state.sends send with
  | some ⟨call, _, .receiving _⟩ =>
      match state.channels send with
      | .ok () :: _ => some (state.setPhase send (.returned (.ok ())))
      | .error message :: _ =>
          some (state.setPhase send (.returned (.error (.remoteAbort message))))
      | [] =>
          if send ∈ (state.pendingAcks call.rank).map Prod.snd then none
          else
            some (state.setPhase send (.returned (.error .channelClosed)))
  | _ => none

/-- The poll interval passes without a message. -/
def retryStep (state : MeshState) (send : Nat) : Option MeshState :=
  match state.sends send with
  | some ⟨_, _, .receiving key⟩ =>
      match state.channels send with
      | [] => some (state.setPhase send (.polling key))
      | _ :: _ => none
  | _ => none

def peerSendAcknowledgement (side : Endpoint) (send : Frame) : Except ProtocolError Frame :=
  Frame.new checksum
    { FrameHeader.collective checksum uniqueId .send .none side.rank
        anyRank worldSize send.header.sequence 0 with
      destinationRank := side.peer
      tag := send.header.tag }
    []

/-- The envelope that a reader accepts. -/
def validEnvelope (side : Endpoint) (header : FrameHeader) : Bool :=
  header.uniqueId = uniqueId ∧ header.worldSize = worldSize ∧
    header.sourceRank = side.peer ∧ header.destinationRank = side.rank ∧
    header.rootRank = anyRank

/-- The call whose data frame this is. -/
def Origin.send : Origin → Nat
  | data send => send
  | acknowledgement send => send
  | notice => 0

/-- Hand an acknowledgement to the send that waits for it. -/
def acknowledgeSend (side : Endpoint) (packet : Packet) (state : MeshState) : MeshState :=
  let key : AckKey := ⟨side.peer, side.rail, packet.frame.header.sequence⟩
  let state := { state with acknowledged := state.acknowledged ++ [packet] }
  match (state.pendingAcks side.rank).find? fun entry => entry.1 = key with
  | some (_, send) =>
      { removePending side.rank key state with
        channels := Function.update state.channels send (state.channels send ++ [.ok ()]) }
  | none => state

/-- What a reader does with a frame it took from its stream. -/
def dispatchFrame (side : Endpoint) (packet : Packet) (state : MeshState) : MeshState :=
  let header := packet.frame.header
  if validEnvelope uniqueId worldSize side header = false then
    stopReader side (.text "invalid direct peer frame envelope") state
  else
    match header.opcode with
    | .send =>
        if header.elementType = .none then
          if packet.frame.payload ≠ [] ∨ header.elementCount ≠ 0 then
            stopReader side (.text "invalid direct peer send acknowledgement") state
          else acknowledgeSend side packet state
        else
          match peerSendAcknowledgement checksum uniqueId worldSize side packet.frame with
          | .error failure => stopReader side (.displayed failure) state
          | .ok acknowledgement =>
              (state.push side.rank ⟨packet.origin.send, side.rail, packet.frame⟩).setReader
                  side (.acknowledging
                    ⟨acknowledgement, .acknowledgement packet.origin.send⟩)
    | .abort => stopReader side (.received packet.frame.payload) state
    | .leave =>
        (stopReader side (.text s!"direct peer rank {side.peer} left") state).notice side
    | opcode =>
        stopReader side (.text s!"unexpected {opcode.debugName} on direct peer connection") state

def readPeerStep (state : MeshState) (side : Endpoint) :
    Option MeshState :=
  match state.readers side, state.streams side.mirror with
  | .reading, packet :: rest =>
      some (dispatchFrame checksum uniqueId worldSize side packet
        { state with
          streams := Function.update state.streams side.mirror rest })
  | _, _ => none

/-- The reader writes the acknowledgement of the frame it queued. -/
def acknowledgeStep (state : MeshState) (side : Endpoint) :
    Option MeshState :=
  match state.readers side with
  | .acknowledging packet =>
      if state.closed side then none
      else some ((state.write side packet).setReader side .reading)
  | _ => none

def acknowledgeFailStep (state : MeshState) (side : Endpoint) (cause : String) :
    Option MeshState :=
  match state.readers side with
  | .acknowledging _ =>
      some ((stopReader side (.text s!"direct peer acknowledgement failed: {cause}")
        state).noticeDeparture side)
  | _ => none

/-- The reader finds the end of its stream. -/
def readPeerClosedStep (state : MeshState) (side : Endpoint) :
    Option MeshState :=
  match state.readers side, state.streams side.mirror with
  | .reading, [] =>
      if state.departing side then
        some ((stopReader side (.text s!"direct peer rank {side.peer} rail {side.rail} closed")
          state).notice side)
      else none
  | _, _ => none

def readPeerFailStep (state : MeshState) (side : Endpoint) (cause : String) :
    Option MeshState :=
  match state.readers side with
  | .reading =>
      some (stopReader side
        (.text s!"direct peer rank {side.peer} rail {side.rail} read failed: {cause}")
        state)
  | _ => none

/-- The frames that `receive_on_rail` looks for. -/
def ReceiveCall.selects (call : ReceiveCall) (queued : QueuedFrame) : Bool :=
  decide (queued.rail = call.rail) &&
    decide (queued.frame.header.tag = call.tag) &&
    match call.source with
    | some source => decide (queued.frame.header.sourceRank = source)
    | none => true

/-- The element contract of the receive. -/
def ReceiveCall.agrees (call : ReceiveCall) (queued : QueuedFrame) : Bool :=
  queued.frame.header.elementType = call.elementType ∧
    queued.frame.header.elementCount = call.elementCount

/-- The error of a receive that took a frame with another contract. -/
def ReceiveCall.mismatch (call : ReceiveCall) (queued : QueuedFrame) :
    NetworkError :=
  let header := queued.frame.header
  .invalidConfiguration
    s!"direct peer tag {call.tag} contract mismatch: send {header.elementType.debugName}/{header.elementCount} receive {call.elementType.debugName}/{call.elementCount}"

/-- What a pass of the loop of `receive_on_rail` returns. -/
inductive Received where
  | failed (error : NetworkError)
  /-- A frame was taken; it is returned unless its contract differs. -/
  | took (queued : QueuedFrame) (result : Except NetworkError Frame)
  /-- Nothing matches yet. -/
  | waits

/-- The checks of `receive_on_rail` before its loop. -/
def ReceiveCall.check (call : ReceiveCall) : Except NetworkError Unit := do
  validateRail rails call.rail
  match call.source with
  | some source => validatePeer worldSize source
  | none => .ok ()

/-- One pass over a failure slot and an inbox. -/
def receiveOnRail (failure : Option Message) (inbox : List QueuedFrame)
    (call : ReceiveCall) : Received :=
  match call.check worldSize rails with
  | .error error => .failed error
  | .ok () =>
      match failure with
      | some message => .failed (.remoteAbort message)
      | none =>
          match inbox.find? call.selects with
          | some queued =>
              if call.agrees queued then .took queued (.ok queued.frame)
              else
                .took queued (.error (call.mismatch queued))
          | none => .waits

def receiveStep (state : MeshState) (call : ReceiveCall) :
    Option MeshState :=
  if state.departed call.rank then none
  else
    match receiveOnRail worldSize rails (state.failure call.rank)
        (state.inbox call.rank) call with
    | .failed _ => some state
    | .took queued _ =>
        some
          { state with
            inbox := Function.update state.inbox call.rank
              ((state.inbox call.rank).eraseP call.selects)
            taken := Function.update state.taken call.rank (state.taken call.rank ++ [queued]) }
    | .waits => none

def receiveExpireStep (state : MeshState) (call : ReceiveCall) :
    Option MeshState :=
  if state.departed call.rank then none
  else
    match receiveOnRail worldSize rails (state.failure call.rank)
        (state.inbox call.rank) call with
    | .waits =>
        some (setPeerFailure call.rank
          (.text s!"direct peer receive on rail {call.rail} with tag {call.tag} timed out")
          state)
    | _ => none

/-- The header of a frame without data to a peer. -/
def noticeHeader (side : Endpoint) (opcode : Opcode) (elementType : ElementType)
    (count : Nat) : FrameHeader :=
  { FrameHeader.collective checksum uniqueId opcode elementType side.rank
      anyRank worldSize 0 (UInt64.ofNat count) with
    destinationRank := side.peer }

/-- Write a notice when its frame can be built. -/
def MeshState.writeNotice (state : MeshState) (side : Endpoint)
    (frame : Except ProtocolError Frame) : MeshState :=
  match frame with
  | .ok frame => state.write side ⟨frame, .notice⟩
  | .error _ => state

/-- The sides that a mesh of `rails` rails has. -/
def Endpoint.connected (side : Endpoint) : Bool := side.rank ≠ side.peer ∧ side.rank < worldSize ∧
    side.peer < worldSize ∧ side.rail < rails

/-- `abort`, for one of its connections. -/
def abortStep (state : MeshState) (side : Endpoint) (message : List UInt8) :
    Option MeshState :=
  if state.departed side.rank ∨ ¬side.connected worldSize rails then none
  else
    some ((setPeerFailure side.rank (.received message) state).writeNotice
      side (Frame.new checksum
        (noticeHeader checksum uniqueId worldSize side .abort .u8 message.length) message))

/-- Calls of a rank that have not returned. -/
def MeshState.busy (state : MeshState) (rank : UInt32) : Bool :=
  (List.range state.calls).any fun send =>
    match state.sends send with
    | some ⟨_, _, .returned _⟩ => false
    | some ⟨call, _, _⟩ => call.rank = rank
    | none => false

/-- `drop` of the mesh handle, for one of its connections. -/
def leaveStep (state : MeshState) (side : Endpoint) : Option MeshState :=
  if state.busy side.rank ∨ state.closed side ∨ ¬side.connected worldSize rails then none
  else
    let state := state.writeNotice side (Frame.new checksum
      (noticeHeader checksum uniqueId worldSize side .leave .none 0) [])
    some
      { state with
        departed := Function.update state.departed side.rank true
        closed := Function.update state.closed side true }

end Mesh

/-- What a caller, a reader thread or the network does next. -/
inductive MeshAction where
  | start (call : SendCall)
  | submit (send : Nat)
  | submitFail (send : Nat) (cause : String)
  | poll (send : Nat)
  | expire (send : Nat)
  | receiveAck (send : Nat)
  | retry (send : Nat)
  | read (side : Endpoint)
  | acknowledge (side : Endpoint)
  | acknowledgeFail (side : Endpoint) (cause : String)
  | readClosed (side : Endpoint)
  | readFail (side : Endpoint) (cause : String)
  | receive (call : ReceiveCall)
  | receiveExpire (call : ReceiveCall)
  | abort (side : Endpoint) (message : List UInt8)
  | leave (side : Endpoint)
  /-- The control plane shares the failure slot. -/
  | failControl (rank : UInt32) (message : Message)

section Runs

variable (checksum : List UInt8 → UInt32) (uniqueId : UniqueId)
variable (worldSize : UInt32) (rails : Nat)

def meshStep (state : MeshState) : MeshAction → Option MeshState
  | .start call => startStep checksum uniqueId worldSize rails state call
  | .submit send => submitStep checksum uniqueId worldSize state send none
  | .submitFail send cause => submitStep checksum uniqueId worldSize state send (some cause)
  | .poll send => pollStep state send
  | .expire send => expireStep state send
  | .receiveAck send => receiveAckStep state send
  | .retry send => retryStep state send
  | .read side => readPeerStep checksum uniqueId worldSize state side
  | .acknowledge side => acknowledgeStep state side
  | .acknowledgeFail side cause => acknowledgeFailStep state side cause
  | .readClosed side => readPeerClosedStep state side
  | .readFail side cause => readPeerFailStep state side cause
  | .receive call => receiveStep worldSize rails state call
  | .receiveExpire call => receiveExpireStep worldSize rails state call
  | .abort side message => abortStep checksum uniqueId worldSize rails state side message
  | .leave side => leaveStep checksum uniqueId worldSize rails state side
  | .failControl rank message =>
      some
        { state with
          failure := Function.update state.failure rank
            (some ((state.failure rank).getD message)) }

/-- A connected mesh before its first call. -/
def meshStart : MeshState where
  calls := 0
  sends := fun _ => none
  nextSequence := fun _ => 0
  streams := fun _ => []
  closed := fun _ => false
  departed := fun _ => false
  readers := fun _ => .reading
  pendingAcks := fun _ => []
  channels := fun _ => []
  failure := fun _ => none
  inbox := fun _ => []
  pushed := fun _ => []
  taken := fun _ => []
  acknowledged := []
  noticed := []

end Runs

end RuCCL.Rank
