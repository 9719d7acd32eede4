import RuCCL.Library.Transition
import RuCCL.Rank.Routing

/-!
# The collective loop and its clients

One coordinator serves the collective streams of all ranks.  A reader thread per
rank forwards request frames to the loop, which waits for one request of every
rank, routes them and writes the responses.  A client writes one request,
waits for one frame and keeps its sequence unless it accepts that frame.

Streams carry whole frames in order.  A read that fails may have consumed a part
of a frame; from then on the client reads from the middle of a frame, and
nothing is assumed about what it decodes there.  Requests and answers carry the
call and the round they come from; no branch of the code reads these marks.
-/

namespace RuCCL.Rank

open RuCCL.Library

structure ExchangeOptions where
  rootRank : UInt32
  elementCount : UInt64
  flags : UInt16
  tag : UInt64
  deriving DecidableEq

/-- The two client functions that use the collective stream. -/
inductive Call where
  | exchange (opcode : Opcode) (elementType : ElementType)
      (options : ExchangeOptions) (payload : List UInt8)
  | setTimeout (timeoutMs : UInt64)
  deriving DecidableEq

/-- A request frame and the call of its session that wrote it. -/
structure Request where
  rank : Nat
  number : Nat
  call : Call
  frame : Frame
  deriving DecidableEq

/-- A frame written to a rank; a response names the requests of its round. -/
structure Answer where
  frame : Frame
  round : Option (List Request)
  deriving DecidableEq

/-- A finished call: its request, the mark of the frame it read and its result. -/
structure Returned where
  request : Request
  round : Option (List Request)
  result : Except NetworkError Frame

/-- A session's side of the collective stream. -/
structure Client where
  nextSequence : UInt64
  /-- Calls that wrote a request. -/
  calls : Nat
  /-- The request whose answer the lock holder waits for. -/
  waiting : Option Request
  /-- A failed read left the stream in the middle of a frame. -/
  torn : Bool
  /-- Some call failed in its read after it wrote its request. -/
  readFailed : Bool

/-- The coordinator, its clients and everything under way between them. -/
structure CollectiveState where
  clients : Nat → Client
  submitted : Nat → List Request
  events : List Request
  agreement : CollectiveAgreement
  requests : Nat → Option Request
  activeSequence : UInt64
  stopped : Bool
  answers : Nat → List Answer
  returned : List Returned

section Clients

variable (checksum : List UInt8 → UInt32) (uniqueId : UniqueId)

/-- The header that a call builds before its payload is attached. -/
def Call.header (rank worldSize : UInt32) (sequence : UInt64) :
    Call → FrameHeader
  | .exchange opcode elementType options _ =>
      let header := FrameHeader.collective checksum uniqueId opcode
        elementType rank options.rootRank worldSize sequence
        options.elementCount
      { header with
        flags := header.flags ||| options.flags
        tag := options.tag }
  | .setTimeout timeoutMs =>
      { FrameHeader.collective checksum uniqueId .setTimeout .none rank
          anyRank worldSize sequence 0 with
        tag := timeoutMs }

def Call.payload : Call → List UInt8
  | .exchange _ _ _ payload => payload
  | .setTimeout _ => []

def Call.request (rank worldSize : UInt32) (sequence : UInt64) (call : Call) :
    Except ProtocolError Frame :=
  Frame.new checksum (call.header checksum uniqueId rank worldSize sequence) call.payload

def validateResponse (frame : Frame) (rank worldSize : UInt32) (sequence : UInt64) :
    Except NetworkError Unit := do
  rejectIf (frame.header.uniqueId ≠ uniqueId ∨ frame.header.worldSize ≠ worldSize) .wrongSession
  rejectIf (frame.header.destinationRank ≠ rank)
    (.wrongDestination rank frame.header.destinationRank)
  rejectIf (frame.header.sequence ≠ sequence)
    (.protocol (.sequenceMismatch sequence frame.header.sequence))

/-- The check that `set_timeout` makes on its own response. -/
def Call.checkResponse (response : Frame) : Call → Except NetworkError Unit
  | .exchange _ _ _ _ => .ok ()
  | .setTimeout _ =>
      rejectIf (response.header.opcode ≠ .setTimeout ∨ response.payload ≠ [])
        (.invalidConfiguration "invalid SET_TIMEOUT response")

/-- The part of a call behind its read: the next sequence of the session and
the response. -/
def Call.finish (rank worldSize : UInt32) (sequence : UInt64) (response : Frame)
    (call : Call) : Except NetworkError (UInt64 × Frame) := do
  validateResponse uniqueId response rank worldSize sequence
  rejectIf (response.header.opcode = .abort) (.remoteAbort (.received response.payload))
  call.checkResponse response
  let next ← okOr (checkedAdd sequence.toNat 1) (.protocol .sequenceOverflow)
  .ok (UInt64.ofNat next, response)

/-- The error of a call whose stream ended before a response. -/
def Call.closedError : Call → NetworkError
  | .exchange _ _ _ _ => .invalidConfiguration "coordinator closed before collective response"
  | .setTimeout _ => .invalidConfiguration "coordinator closed before SET_TIMEOUT response"

/-- The session after a call that did not advance it. -/
def Client.release (client : Client) : Client := { client with waiting := none }

def Client.advance (client : Client) (sequence : UInt64) : Client :=
  { client with nextSequence := sequence, waiting := none }

def abortFrame (sequence : UInt64) (destination worldSize : UInt32)
    (message : List UInt8) : Except ProtocolError Frame :=
  Frame.new checksum
    { FrameHeader.collective checksum uniqueId .abort .u8 0 anyRank
        worldSize sequence (UInt64.ofNat message.length) with
      destinationRank := destination }
    message

/-- Append one answer to every stream that gets one. -/
def CollectiveState.write (state : CollectiveState) (written : Nat → Option Answer) :
    CollectiveState :=
  { state with
    answers := fun rank => state.answers rank ++ (written rank).toList }

def broadcastCollectiveAbort (worldSize : Nat) (message : List UInt8) (state : CollectiveState) :
    CollectiveState :=
  state.write fun rank =>
    if rank < worldSize then
      match abortFrame checksum uniqueId state.activeSequence
          (UInt32.ofNat rank) (UInt32.ofNat worldSize) message with
      | .ok frame => some { frame := frame, round := none }
      | .error _ => none
    else none

/-- Leave the loop: an error is broadcast, then every stream is shut down. -/
def CollectiveState.leave (worldSize : Nat) (message : Option (List UInt8))
    (state : CollectiveState) : CollectiveState :=
  match message with
  | some text =>
      { broadcastCollectiveAbort checksum uniqueId worldSize text state with
        stopped := true }
  | none => { state with stopped := true }

/-- The requests of all ranks, in rank order, once none is missing. -/
def CollectiveState.round (worldSize : Nat) (state : CollectiveState) : Option (List Request) :=
  (List.range worldSize).mapM state.requests

end Clients

/-- What one of the threads, a caller or the network does next.  Where the loop
may leave with an error, the action carries the text of the broadcast. -/
inductive CollectiveAction where
  /-- A caller takes the session's lock and writes its request. -/
  | call (rank : Nat) (call : Call)
  /-- The waiting call reads the next frame. -/
  | read (rank : Nat)
  /-- The waiting call reads from the middle of a frame. -/
  | readTorn (rank : Nat) (outcome : Except NetworkError Frame)
  /-- The read times out or fails. -/
  | failRead (rank : Nat) (failure : NetworkError) (torn : Bool)
  /-- The waiting call finds its stream at the end. -/
  | readClosed (rank : Nat)
  /-- The reader thread of a rank passes a frame to the loop. -/
  | forward (rank : Nat)
  /-- The loop takes the next event. -/
  | collect (message : List UInt8)
  /-- The loop routes a full round; `written` responses reach their stream. -/
  | route (written : Nat) (message : List UInt8)
  /-- The loop times out, sees a failure or a closed stream. -/
  | stop (message : Option (List UInt8))

section Runs

variable (checksum : List UInt8 → UInt32) (uniqueId : UniqueId)
variable (worldSize : Nat)

/-- The state with the client of a rank replaced. -/
def CollectiveState.setClient (state : CollectiveState) (rank : Nat) (client : Client) :
    CollectiveState :=
  { state with clients := Function.update state.clients rank client }

/-- Record the result of a finished call. -/
def CollectiveState.finished (state : CollectiveState) (request : Request)
    (round : Option (List Request)) (result : Except NetworkError Frame) :
    CollectiveState :=
  { state with
    returned := state.returned ++ [⟨request, round, result⟩] }

/-- `exchange_with_options` and `set_timeout` up to the written request. -/
def callStep (state : CollectiveState) (rank : Nat) (call : Call) :
    Option CollectiveState :=
  let client := state.clients rank
  if rank < worldSize ∧ client.waiting = none then
    match call.request checksum uniqueId (UInt32.ofNat rank)
        (UInt32.ofNat worldSize) client.nextSequence with
    | .error _ => some state
    | .ok frame =>
        let request : Request :=
          { rank := rank, number := client.calls, call := call
            frame := frame }
        some
          { state.setClient rank
              { client with
                calls := client.calls + 1
                waiting := some request } with
            submitted := Function.update state.submitted rank
              (state.submitted rank ++ [request]) }
  else none

/-- The waiting call of a rank takes an outcome of its read. -/
def finishStep (state : CollectiveState) (rank : Nat) (request : Request)
    (round : Option (List Request)) (response : Frame) : CollectiveState :=
  let client := state.clients rank
  match request.call.finish uniqueId (UInt32.ofNat rank)
      (UInt32.ofNat worldSize) client.nextSequence response with
  | .error failure =>
      (state.setClient rank client.release).finished request round (.error failure)
  | .ok (sequence, frame) =>
      (state.setClient rank (client.advance sequence)).finished request round (.ok frame)

def readStep (state : CollectiveState) (rank : Nat) :
    Option CollectiveState :=
  match (state.clients rank).waiting, state.answers rank with
  | some request, answer :: rest =>
      if (state.clients rank).torn then none
      else
        some (finishStep uniqueId worldSize
          { state with answers := Function.update state.answers rank rest }
          rank request answer.round answer.frame)
  | _, _ => none

def readTornStep (state : CollectiveState) (rank : Nat)
    (outcome : Except NetworkError Frame) : Option CollectiveState :=
  match (state.clients rank).waiting with
  | some request =>
      if (state.clients rank).torn then
        match outcome with
        | .ok response =>
            some (finishStep uniqueId worldSize state rank request none response)
        | .error failure =>
            some ((state.setClient rank (state.clients rank).release).finished request none
                (.error failure))
      else none
  | none => none

def failReadStep (state : CollectiveState) (rank : Nat) (failure : NetworkError)
    (torn : Bool) : Option CollectiveState :=
  let client := state.clients rank
  match client.waiting with
  | some request =>
      some ((state.setClient rank
        { client.release with
          torn := client.torn || torn
          readFailed := true }).finished request none (.error failure))
  | none => none

def readClosedStep (state : CollectiveState) (rank : Nat) :
    Option CollectiveState :=
  match (state.clients rank).waiting with
  | some request =>
      if state.stopped = true ∧ state.answers rank = [] then
        some ((state.setClient rank (state.clients rank).release).finished request none
            (.error request.call.closedError))
      else none
  | none => none

def forwardStep (state : CollectiveState) (rank : Nat) :
    Option CollectiveState :=
  match state.submitted rank with
  | request :: rest =>
      if rank < worldSize then
        some
          { state with
            submitted := Function.update state.submitted rank rest
            events := state.events ++ [request] }
      else none
  | [] => none

def collectStep (state : CollectiveState) (message : List UInt8) :
    Option CollectiveState :=
  if state.stopped = true ∨ (state.round worldSize).isSome then none
  else
    match state.events with
    | request :: rest =>
        let collected :=
          { state with
            events := rest
            requests := Function.update state.requests request.rank (some request) }
        -- a second request of one rank ends the session
        if (state.requests request.rank).isSome then
          some (collected.leave checksum uniqueId worldSize (some message))
        else some collected
    | [] => none

def routeStep (state : CollectiveState) (written : Nat) (message : List UInt8) :
    Option CollectiveState :=
  if state.stopped then none
  else
    match state.round worldSize with
    | none => none
    | some round =>
        let routed := validateAndRoute checksum state.agreement uniqueId
          state.agreement.nextSequence (round.map Request.frame)
        let state := { state with agreement := routed.1 }
        match routed.2 with
        | .error _ => some (state.leave checksum uniqueId worldSize (some message))
        | .ok responses =>
            let answered := state.write fun rank =>
              (responses.take written)[rank]?.map fun frame =>
                { frame := frame, round := some round }
            -- a write that fails ends the session behind the earlier ones
            if written < worldSize then
              some (answered.leave checksum uniqueId worldSize (some message))
            else
              some
                { answered with
                  requests := fun _ => none
                  activeSequence := routed.1.nextSequence }

/-- One step of the coordinator, its readers, a client or the network. -/
def collectiveStep (state : CollectiveState) :
    CollectiveAction → Option CollectiveState
  | .call rank call => callStep checksum uniqueId worldSize state rank call
  | .read rank => readStep uniqueId worldSize state rank
  | .readTorn rank outcome => readTornStep uniqueId worldSize state rank outcome
  | .failRead rank failure torn => failReadStep state rank failure torn
  | .readClosed rank => readClosedStep state rank
  | .forward rank => forwardStep worldSize state rank
  | .collect message => collectStep checksum uniqueId worldSize state message
  | .route written message => routeStep checksum uniqueId worldSize state written message
  | .stop message =>
      if state.stopped then none
      else some (state.leave checksum uniqueId worldSize message)

/-- A fresh session of every rank and the loop before its first round. -/
def collectiveStart : CollectiveState where
  clients := fun _ =>
    { nextSequence := 0, calls := 0, waiting := none, torn := false
      readFailed := false }
  submitted := fun _ => []
  events := []
  agreement := { worldSize := worldSize, nextSequence := 0, pending := fun _ => none }
  requests := fun _ => none
  activeSequence := 0
  stopped := false
  answers := fun _ => []
  returned := []

end Runs

end RuCCL.Rank
