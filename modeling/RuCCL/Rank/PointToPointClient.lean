import RuCCL.Rank.CollectiveLoop

/-!
# The point-to-point client of a rank

Callers of `request_with_timeout` share a submission lock, a failure slot and a
map of pending responses with one reader thread.  Each critical section is one
step; a caller keeps the submission lock from its failure check to the end of
its write.  Every request has its own caller, and its response channel is the
list of replies sent on it.
-/

namespace RuCCL.Rank

open RuCCL.Library

structure P2pResponseKey where
  opcode : Opcode
  sequence : UInt64
  deriving DecidableEq

/-- What is sent on the channel of a pending request. -/
inductive P2pReply where
  | response (frame : Frame)
  | failure (message : Message)
  deriving DecidableEq

/-- The arguments of a request. -/
structure P2pCall where
  opcode : Opcode
  peer : UInt32
  tag : UInt64
  elementType : ElementType
  elementCount : UInt64
  payload : List UInt8
  deriving DecidableEq

/-- Where a caller stands between its critical sections. -/
inductive CallerPhase where
  | idle
  /-- Holds the submission lock and has built its frame. -/
  | checked (call : P2pCall) (key : P2pResponseKey)
  /-- Holds the submission lock and is about to write. -/
  | registered (call : P2pCall) (key : P2pResponseKey)
  /-- Holds the submission lock; the write failed and `fail_pending` starts. -/
  | recording (error : NetworkError) (message : Message)
  | draining (error : NetworkError) (message : Message)
  | waiting (call : P2pCall) (key : P2pResponseKey)
  /-- The wait timed out; the entry is removed next. -/
  | expired (call : P2pCall) (key : P2pResponseKey)
  /-- The entry is removed; the stream is shut down next. -/
  | closing (call : P2pCall)
  | returned (result : Except NetworkError Frame)

/-- Where the reader thread stands. -/
inductive P2pReader where
  | reading
  /-- Has taken the sender of a caller out of the map. -/
  | answering (caller : Nat) (frame : Frame)
  | recording (message : Message)
  | draining (message : Message)
  | exited
  deriving DecidableEq

structure P2pSubmission where
  nextSendSequence : UInt64
  nextReceiveSequence : UInt64
  nextHeartbeatSequence : UInt64
  deriving DecidableEq

structure P2pClientState where
  submission : P2pSubmission
  /-- The caller that holds the submission lock. -/
  holder : Option Nat
  pending : List (P2pResponseKey × Nat)
  failure : Option Message
  callers : Nat → CallerPhase
  replies : Nat → List P2pReply
  reader : P2pReader

/-- The counter of an opcode, when requests may carry it. -/
def P2pSubmission.sequence (submission : P2pSubmission) :
    Opcode → Option UInt64
  | .send => some submission.nextSendSequence
  | .receive => some submission.nextReceiveSequence
  | .heartbeat => some submission.nextHeartbeatSequence
  | _ => none

def P2pSubmission.setSequence (submission : P2pSubmission) (opcode : Opcode) (value : UInt64) :
    P2pSubmission :=
  match opcode with
  | .send => { submission with nextSendSequence := value }
  | .receive => { submission with nextReceiveSequence := value }
  | .heartbeat => { submission with nextHeartbeatSequence := value }
  | _ => submission

def P2pClientState.setCaller (state : P2pClientState) (caller : Nat) (phase : CallerPhase) :
    P2pClientState :=
  { state with callers := Function.update state.callers caller phase }

/-- The first critical section of `fail_pending`. -/
def recordFailure (message : Message) (state : P2pClientState) :
    P2pClientState :=
  { state with failure := some (state.failure.getD message) }

/-- The second one: every pending sender gets the message. -/
def drainPending (message : Message) (state : P2pClientState) :
    P2pClientState :=
  { state with
    pending := []
    replies := fun caller =>
      state.replies caller ++ (state.pending.filter fun entry => entry.2 = caller).map
          fun _ => .failure message }

section Client

variable (checksum : List UInt8 → UInt32) (uniqueId : UniqueId)
variable (rank worldSize : UInt32)

def P2pCall.frame (sequence : UInt64) (call : P2pCall) :
    Except ProtocolError Frame :=
  Frame.new checksum
    { FrameHeader.collective checksum uniqueId call.opcode call.elementType
        rank anyRank worldSize sequence call.elementCount with
      destinationRank := call.peer
      tag := call.tag }
    call.payload

/-- `request_with_timeout` up to its built frame: the submission lock is taken
and kept, the failure lock is held for the check and the new sequence. -/
def checkStep (state : P2pClientState) (caller : Nat) (call : P2pCall) :
    Option P2pClientState :=
  match state.callers caller, state.holder with
  | .idle, none =>
      match state.failure with
      | some message =>
          some (state.setCaller caller (.returned (.error (.remoteAbort message))))
      | none =>
          match state.submission.sequence call.opcode with
          | none =>
              some (state.setCaller caller
                (.returned (.error (.invalidConfiguration
                  s!"{call.opcode.debugName} is not a point-to-point request"))))
          | some sequence =>
              match checkedAdd sequence.toNat 1 with
              | none =>
                  some (state.setCaller caller (.returned (.error (.protocol .sequenceOverflow))))
              | some next =>
                  let state :=
                    { state with
                      submission := state.submission.setSequence call.opcode (UInt64.ofNat next) }
                  match call.frame checksum uniqueId rank worldSize sequence with
                  | .error failure =>
                      some (state.setCaller caller (.returned (.error (.protocol failure))))
                  | .ok _ =>
                      some
                        { state.setCaller caller (.checked call ⟨call.opcode, sequence⟩) with
                          holder := some caller }
  | _, _ => none

/-- The insertion into the pending map. -/
def registerStep (state : P2pClientState) (caller : Nat) :
    Option P2pClientState :=
  match state.callers caller with
  | .checked call key =>
      some
        { state.setCaller caller (.registered call key) with
          pending := (key, caller) :: state.pending.filter fun entry => entry.1 ≠ key }
  | _ => none

/-- The write; an error carries the text that it is displayed with. -/
def writeStep (state : P2pClientState) (caller : Nat)
    (failed : Option (NetworkError × String)) : Option P2pClientState :=
  match state.callers caller with
  | .registered call key =>
      match failed with
      | none =>
          some
            { state.setCaller caller (.waiting call key) with
              holder := none }
      | some (error, text) => some (state.setCaller caller (.recording error (.text text)))
  | _ => none

/-- `fail_pending` of a caller whose write failed, then its return. -/
def failWriteStep (state : P2pClientState) (caller : Nat) :
    Option P2pClientState :=
  match state.callers caller with
  | .recording error message =>
      some ((recordFailure message state).setCaller caller (.draining error message))
  | .draining error message =>
      some
        { (drainPending message state).setCaller caller (.returned (.error error)) with
          holder := none }
  | _ => none

/-- The reader holds the sender of a caller. -/
def P2pReader.answers (reader : P2pReader) (caller : Nat) : Bool :=
  match reader with
  | .answering answered _ => answered = caller
  | _ => false

/-- The wait ends with the first reply, or because nobody can send one. -/
def takeReplyStep (state : P2pClientState) (caller : Nat) :
    Option P2pClientState :=
  match state.callers caller, state.replies caller with
  | .waiting _ _, .response frame :: _ => some (state.setCaller caller (.returned (.ok frame)))
  | .waiting _ _, .failure message :: _ =>
      some (state.setCaller caller (.returned (.error (.remoteAbort message))))
  | .waiting _ _, [] =>
      if caller ∈ state.pending.map Prod.snd ∨ state.reader.answers caller
      then none
      else some (state.setCaller caller (.returned (.error .channelClosed)))
  | _, _ => none

/-- The wait times out on an empty channel; the entry is removed, then the
stream is shut down. -/
def expireReplyStep (state : P2pClientState) (caller : Nat) :
    Option P2pClientState :=
  match state.callers caller, state.replies caller with
  | .waiting call key, [] => some (state.setCaller caller (.expired call key))
  | .expired call key, _ =>
      some
        { state.setCaller caller (.closing call) with
          pending := state.pending.filter fun entry => entry.1 ≠ key }
  | .closing call, _ =>
      if state.holder = none then
        some (state.setCaller caller
          (.returned (.error (.timeout
            s!"point-to-point {call.opcode.debugName} with tag {call.tag}"))))
      else none
  | _, _ => none

/-- What the reader does with a frame it read. -/
def readResponse (frame : Frame) (state : P2pClientState) :
    P2pClientState :=
  let header := frame.header
  if header.uniqueId ≠ uniqueId ∨ header.worldSize ≠ worldSize ∨
      header.destinationRank ≠ rank then
    { state with
      reader := .recording (.text "invalid point-to-point response envelope") }
  else if header.opcode = .abort then
    { state with reader := .recording (.received frame.payload) }
  else if header.opcode ≠ .send ∧ header.opcode ≠ .receive ∧ header.opcode ≠ .heartbeat then
    { state with
      reader := .recording (.text
        s!"unexpected {header.opcode.debugName} response on point-to-point channel") }
  else
    let key : P2pResponseKey := ⟨header.opcode, header.sequence⟩
    match state.pending.find? fun entry => entry.1 = key with
    | some (_, caller) =>
        { state with
          pending := state.pending.filter fun entry => entry.1 ≠ key
          reader := .answering caller frame }
    | none => state

/-- How a read of the reader thread ends. -/
inductive P2pRead where
  | frame (frame : Frame)
  | closed
  | failed (cause : String)
  deriving DecidableEq

def readResponseStep (state : P2pClientState) (read : P2pRead) :
    Option P2pClientState :=
  match state.reader, read with
  | .reading, .frame frame => some (readResponse uniqueId rank worldSize frame state)
  | .reading, .closed =>
      some
        { state with
          reader := .recording (.text "point-to-point coordinator closed") }
  | .reading, .failed cause =>
      some
        { state with
          reader := .recording (.text s!"point-to-point read failed: {cause}") }
  | _, _ => none

/-- The reader behind its read: it sends an answer, or it goes through
`fail_pending` and exits. -/
def readerStep (state : P2pClientState) : Option P2pClientState :=
  match state.reader with
  | .answering caller frame =>
      some
        { state with
          replies := Function.update state.replies caller
            (state.replies caller ++ [.response frame])
          reader := .reading }
  | .recording message => some { recordFailure message state with reader := .draining message }
  | .draining message => some { drainPending message state with reader := .exited }
  | _ => none

/-- What a caller or the reader does next. -/
inductive P2pClientAction where
  | check (caller : Nat) (call : P2pCall)
  | register (caller : Nat)
  | write (caller : Nat) (failed : Option (NetworkError × String))
  | failWrite (caller : Nat)
  | takeReply (caller : Nat)
  | expire (caller : Nat)
  | read (read : P2pRead)
  | reader
  /-- `abort` takes a send sequence under the submission lock. -/
  | abort
  /-- Another rail shares the failure slot. -/
  | failElsewhere (message : Message)

def abortRequestStep (state : P2pClientState) : Option P2pClientState :=
  if state.holder = none then
    match checkedAdd state.submission.nextSendSequence.toNat 1 with
    | some next =>
        some
          { state with
            submission := state.submission.setSequence .send (UInt64.ofNat next) }
    | none => some state
  else none

def p2pClientStep (state : P2pClientState) :
    P2pClientAction → Option P2pClientState
  | .check caller call => checkStep checksum uniqueId rank worldSize state caller call
  | .register caller => registerStep state caller
  | .write caller failed => writeStep state caller failed
  | .failWrite caller => failWriteStep state caller
  | .takeReply caller => takeReplyStep state caller
  | .expire caller => expireReplyStep state caller
  | .read read => readResponseStep uniqueId rank worldSize state read
  | .reader => readerStep state
  | .abort => abortRequestStep state
  | .failElsewhere message => some (recordFailure message state)

/-- A connected client before its first request. -/
def p2pClientStart : P2pClientState where
  submission := ⟨0, 0, 0⟩
  holder := none
  pending := []
  failure := none
  callers := fun _ => .idle
  replies := fun _ => []
  reader := .reading

end Client

end RuCCL.Rank
