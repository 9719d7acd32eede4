import RuCCL.Global.Orchestrator
import RuCCL.Library.Transition

/-!
# The worker of a global client

Callers put requests into a bounded queue.  One task takes them out, gives each an
id, sends it to the orchestrator and hands every response to the callback of the
pending request with its id.  When the task ends, it answers whoever is left.

Calls are numbered.  Between two critical sections anything else may happen; what
the orchestrator sends is up to the environment.
-/

namespace RuCCL.Global

open RuCCL.Library

variable {Address : Type}

/-- Where a call of `request` stands. -/
inductive CallPhase (Address : Type) where
  | idle
  /-- Waits for room in the queue. -/
  | sending
  /-- Has sent its request and waits for its callback. -/
  | waiting
  | completed (response : RemoteResponse Address)
  /-- The caller has given up on the call. -/
  | dropped

/-- The callback has a receiver. -/
def CallPhase.IsOpen : CallPhase Address → Bool
  | .sending => true
  | .waiting => true
  | _ => false

/-- The request has not got into the queue. -/
def CallPhase.IsUnsent : CallPhase Address → Bool
  | .idle => true
  | .sending => true
  | _ => false

/-- How the loop of the worker has ended. -/
abbrev WorkerResult := Except GlobalCollectiveError Unit

inductive WorkerPhase where
  | connecting
  | running
  /-- A request is being written to the socket. -/
  | submitting
  /-- The loop has ended; the token is cancelled next. -/
  | ending (result : WorkerResult)
  /-- Pending callbacks are answered. -/
  | failing (result : WorkerResult)
  /-- Queued requests are answered. -/
  | draining (result : WorkerResult)
  /-- The queue has been seen empty; its receiver is dropped next. -/
  | closing (result : WorkerResult)
  | ended (result : WorkerResult)
  /-- The task has been aborted at one of its awaits. -/
  | killed

/-- The result of the loop, once it has ended. -/
def WorkerPhase.result : WorkerPhase → Option WorkerResult
  | .ending result => some result
  | .failing result => some result
  | .draining result => some result
  | .closing result => some result
  | .ended result => some result
  | _ => none

/-- What callers get when the loop has ended. -/
def leftError : WorkerResult → GlobalCollectiveError
  | .error error => error
  | .ok _ => .communicatorAborted

/-- Where the content of a callback comes from: a response to a call, or to none, under
an id; or the end of the worker. -/
inductive Origin where
  | response (answers : Option Nat) (id : RequestId)
  | teardown (error : GlobalCollectiveError)
  deriving DecidableEq

structure Delivery (Address : Type) where
  call : Nat
  origin : Origin
  content : RemoteResponse Address

/-- The worker, its callers, and what has happened so far: the ids given to calls, the
calls that have been answered, what was put into callbacks and how calls completed. -/
structure ClientState (Address : Type) where
  calls : Nat → CallPhase Address
  callbacks : Nat → Option (RemoteResponse Address)
  queue : List Nat
  released : Bool
  pending : Table RequestId Nat
  cancelled : Bool
  worker : WorkerPhase
  counter : RequestId
  assigned : List (Nat × RequestId)
  answered : List Nat
  deliveries : List (Delivery Address)
  completions : List (Nat × RemoteResponse Address)

/-- The process may have drawn ids before. -/
def ClientState.start (counter : RequestId) : ClientState Address where
  calls := fun _ => .idle
  callbacks := fun _ => none
  queue := []
  released := false
  pending := ∅
  cancelled := false
  worker := .connecting
  counter := counter
  assigned := []
  answered := []
  deliveries := []
  completions := []

inductive ClientAction (Address : Type) where
  /-- `request` is called. -/
  | call (call : Nat)
  /-- Its request gets into the queue. -/
  | enqueue (call : Nat)
  /-- The receiver of the queue is gone. -/
  | refuse (call : Nat)
  /-- The callback has something. -/
  | receive (call : Nat)
  /-- The callback will never have anything. -/
  | hangUp (call : Nat)
  /-- The caller sees the token cancelled. -/
  | abort (call : Nat)
  | timeout (call : Nat)
  | drop (call : Nat)
  | cancel
  /-- The worker handle is dropped. -/
  | release
  | kill
  /-- Other workers of the process draw ids. -/
  | drawElsewhere (count : Nat)
  | connected
  | connectFailed (error : GlobalCollectiveError)
  /-- The worker sees the token cancelled. -/
  | observeCancel
  | take
  /-- There are no more senders of requests. -/
  | requestsClosed
  | submitted
  | submitFailed (error : GlobalCollectiveError)
  /-- A response to a call that was given the id, or to none. -/
  | respond (answers : Option Nat) (id : RequestId) (content : RemoteResponse Address)
  /-- The socket fails or ends, or a packet cannot be read. -/
  | receiveFailed (error : GlobalCollectiveError)
  | cancelToken
  | failPending (id : RequestId)
  | pendingDone
  | drainQueued
  | queueDone
  | finish

/-- The environment keeps ids apart as far as they are known: a response to a call has
the id that the call was given, any other one an unknown id. -/
def ClientState.Plausible (state : ClientState Address) (answers : Option Nat)
    (id : RequestId) : Prop :=
  match answers with
  | some call => (call, id) ∈ state.assigned
  | none => ∀ entry ∈ state.assigned, entry.2 ≠ id

instance (state : ClientState Address) (answers : Option Nat)
    (id : RequestId) : Decidable (state.Plausible answers id) := by
  cases answers with
  | some call => exact inferInstanceAs (Decidable ((call, id) ∈ state.assigned))
  | none => exact inferInstanceAs (Decidable (∀ entry ∈ state.assigned, entry.2 ≠ id))

namespace ClientState

variable (state : ClientState Address)

/-- `RequestId::new` -/
def drawn : ClientState Address := { state with counter := state.counter + 1 }

/-- A call ends with a response. -/
def complete (call : Nat) (response : RemoteResponse Address) :
    ClientState Address :=
  { state with
    calls := Function.update state.calls call (.completed response)
    completions := state.completions ++ [(call, response)] }

/-- A call ends with an error of its own, and cancels the token. -/
def fail (call : Nat) (error : GlobalCollectiveError) : ClientState Address :=
  { state.complete call (.error error) with cancelled := true }

/-- `callback.try_send`: the callback holds one response. -/
def trySend (call : Nat) (origin : Origin) (content : RemoteResponse Address) :
    ClientState Address :=
  if (state.calls call).IsOpen && (state.callbacks call).isNone then
    { state with
      callbacks := Function.update state.callbacks call (some content)
      deliveries := state.deliveries ++ [⟨call, origin, content⟩] }
  else state

/-- The queue still has its receiver. -/
def receiverAlive : Bool :=
  match state.worker with
  | .ended _ => false
  | .killed => false
  | _ => true

/-- One step of a caller. -/
def callerStep : ClientAction Address → Option (ClientState Address)
  | .call call =>
      match state.calls call with
      | .idle =>
          if state.released then none
          else if state.cancelled then
            some (state.complete call (.error .communicatorAborted))
          else some { state with
            calls := Function.update state.calls call .sending }
      | _ => none
  | .enqueue call =>
      match state.calls call with
      | .sending =>
          if state.receiverAlive ∧ state.queue.length < 10 then
            some { state with
              calls := Function.update state.calls call .waiting
              queue := state.queue ++ [call] }
          else none
      | _ => none
  | .refuse call =>
      match state.calls call with
      | .sending =>
          if state.receiverAlive then none
          else some (state.fail call .communicatorAborted)
      | _ => none
  | .receive call =>
      match state.calls call, state.callbacks call with
      | .waiting, some content => some (state.complete call content)
      | _, _ => none
  | .hangUp call =>
      match state.calls call, state.callbacks call with
      | .waiting, none =>
          if call ∈ state.queue ∨ call ∈ values state.pending then none
          else some (state.fail call .communicatorAborted)
      | _, _ => none
  | .abort call =>
      if (state.calls call).IsOpen ∧ state.cancelled then
        some (state.fail call .communicatorAborted)
      else none
  | .timeout call =>
      if (state.calls call).IsOpen then
        some (state.fail call .operationTimeout)
      else none
  | .drop call =>
      if (state.calls call).IsOpen then
        some { state with
          calls := Function.update state.calls call .dropped
          cancelled := true }
      else none
  | _ => none

/-- One step of the worker's loop. -/
def workerStep : ClientAction Address → Option (ClientState Address)
  | .connected =>
      match state.worker with
      | .connecting => some { state with worker := .running }
      | _ => none
  | .connectFailed error =>
      match state.worker with
      | .connecting => some { state with worker := .ending (.error error) }
      | _ => none
  | .observeCancel =>
      match state.worker with
      | .running =>
          if state.cancelled then
            some { state with
              worker := .ending (.error .communicatorAborted) }
          else none
      | _ => none
  | .take =>
      match state.worker, state.queue with
      | .running, call :: rest =>
          -- a call that nobody waits for any more is skipped
          if (state.calls call).IsOpen then
            some { state.drawn with
              queue := rest
              pending := state.pending.insert state.counter call
              assigned := state.assigned ++ [(call, state.counter)]
              worker := .submitting }
          else some { state with queue := rest }
      | _, _ => none
  | .requestsClosed =>
      match state.worker, state.queue with
      | .running, [] =>
          if state.released then
            some { state with worker := .ending (.ok ()) }
          else none
      | _, _ => none
  | .submitted =>
      match state.worker with
      | .submitting => some { state with worker := .running }
      | _ => none
  | .submitFailed error =>
      match state.worker with
      | .submitting => some { state with worker := .ending (.error error) }
      | _ => none
  | .respond answers id content =>
      match state.worker with
      | .running =>
          if state.Plausible answers id then
            match state.pending.lookup id with
            | some call =>
                some ({ state with
                  pending := state.pending.erase id
                  answered := state.answered ++ [call] }.trySend call
                    (.response answers id) content)
            | none =>
                some { state with
                  worker := .ending (.error .wrongOrchestratorResponse) }
          else none
      | _ => none
  | .receiveFailed error =>
      match state.worker with
      | .running => some { state with worker := .ending (.error error) }
      | _ => none
  | _ => none

/-- One step behind the worker's loop. -/
def teardownStep : ClientAction Address → Option (ClientState Address)
  | .cancelToken =>
      match state.worker with
      | .ending result => some { state with cancelled := true, worker := .failing result }
      | _ => none
  | .failPending id =>
      match state.worker, state.pending.lookup id with
      | .failing result, some call =>
          some ({ state with pending := state.pending.erase id }.trySend call
            (.teardown (leftError result)) (.error (leftError result)))
      | _, _ => none
  | .pendingDone =>
      match state.worker with
      | .failing result =>
          if state.pending.keys = [] then
            some { state with worker := .draining result }
          else none
      | _ => none
  | .drainQueued =>
      match state.worker, state.queue with
      | .draining result, call :: rest =>
          some ({ state with queue := rest }.trySend call
            (.teardown (leftError result)) (.error (leftError result)))
      | _, _ => none
  | .queueDone =>
      match state.worker, state.queue with
      | .draining result, [] => some { state with worker := .closing result }
      | _, _ => none
  | .finish =>
      match state.worker with
      | .closing result => some { state with queue := [], worker := .ended result }
      | _ => none
  | _ => none

/-- One step around the worker. -/
def outerStep : ClientAction Address → Option (ClientState Address)
  | .cancel => some { state with cancelled := true }
  | .release => some { state with released := true, cancelled := true }
  | .kill =>
      if state.cancelled then
        match state.worker with
        | .connecting | .running | .submitting =>
            some { state with queue := [], pending := ∅, worker := .killed }
        | _ => none
      else none
  | .drawElsewhere count => some { state with counter := state.counter + UInt32.ofNat count }
  | _ => none

def step (action : ClientAction Address) : Option (ClientState Address) :=
  match action with
  | .call _ | .enqueue _ | .refuse _ | .receive _ | .hangUp _ | .abort _
  | .timeout _ | .drop _ => state.callerStep action
  | .connected | .connectFailed _ | .observeCancel | .take | .requestsClosed
  | .submitted | .submitFailed _ | .respond _ _ _ | .receiveFailed _ => state.workerStep action
  | .cancelToken | .failPending _ | .pendingDone | .drainQueued | .queueDone
  | .finish => state.teardownStep action
  | .cancel | .release | .kill | .drawElsewhere _ => state.outerStep action

end ClientState

/-- The counter has not come back to the id of an earlier call. -/
def FreshId (state : ClientState Address) (action : ClientAction Address) :
    Prop :=
  match action with
  | .take =>
      ∀ call ∈ state.queue.head?, (state.calls call).IsOpen →
        ∀ entry ∈ state.assigned, entry.2 ≠ state.counter
  | _ => True

instance (state : ClientState Address) (action : ClientAction Address) :
    Decidable (FreshId state action) := by
  cases action with
  | take =>
      exact inferInstanceAs (Decidable (∀ call ∈ state.queue.head?,
        (state.calls call).IsOpen → ∀ entry ∈ state.assigned, entry.2 ≠ state.counter))
  | _ => exact inferInstanceAs (Decidable True)

end RuCCL.Global
