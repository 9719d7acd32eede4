import RuCCL.Rank.Layout

/-!
# The in-process communicator of a device group

Calls of `all_reduce` meet in generations: the last rank to arrive runs the
collective for all of them, every rank takes its own output, and the last one
to leave resets the shared state.  A critical section of the state mutex is one
step, from taking the lock to returning or waiting; a wait that cannot end is no
step at all.

Submissions name the call they belong to and finished generations are kept in a
log; no branch of the code reads these marks.
-/

namespace RuCCL.InProcess

open RuCCL.Library RuCCL.Rank

/-- How a device operation ends without a value: an error with its displayed
text, or a panic. -/
inductive DeviceFault where
  | error (text : String)
  | panic
  deriving DecidableEq

/-- The device executor, as it behaves at the time of a call. -/
structure NativeCollectiveDevice (DeviceId Tensor Prepared Work Operation : Type) where
  prepare : Tensor → DeviceId → Except DeviceFault Prepared
  begin : List DeviceId → List Prepared → Except DeviceFault Work
  elements : Work → Except DeviceFault Nat
  exchange : Work → List Span → Bool → Except DeviceFault Work
  finish : Work → Operation → Except DeviceFault (List Tensor)

structure Submission (Prepared Operation : Type) where
  operation : Operation
  prepared : Except String Prepared
  call : Nat

/-- The state behind the mutex. -/
structure NativeState (Tensor Prepared Operation : Type) where
  inputs : List (Option (Submission Prepared Operation))
  outputs : List (Option (Except String Tensor))
  arrived : Nat
  departed : Nat
  ready : Bool

/-- Where a call of `all_reduce` stands. -/
inductive NativeCall (Tensor Prepared Operation : Type) where
  | idle
  /-- Prepared, and waiting to submit. -/
  | prepared (rank : Nat) (operation : Operation) (prepared : Except String Prepared)
  /-- Submitted, and waiting for the generation. -/
  | submitted (rank : Nat)
  | returned (rank : Nat) (result : Except String Tensor)
  /-- An `expect` failed under the lock. -/
  | panicked

/-- What a generation was made of and what it gave to its ranks. -/
structure Generation (DeviceId Tensor Prepared Work Operation : Type) where
  device : NativeCollectiveDevice DeviceId Tensor Prepared Work Operation
  submissions : List (Submission Prepared Operation)
  outputs : List (Except String Tensor)

structure NativeCommunicator (DeviceId Tensor Prepared Work Operation : Type) where
  state : NativeState Tensor Prepared Operation
  poisoned : Bool
  calls : Nat → NativeCall Tensor Prepared Operation
  generations :
    List (Generation DeviceId Tensor Prepared Work Operation)

variable {DeviceId Tensor Prepared Work Operation : Type}

/-- The chunk that every rank sends in one step of a phase. -/
def stepRanges (chunks : List Span) (world step lead : Nat) : List Span :=
  (List.range world).map fun rank =>
    (chunks[(rank + lead + world - step) % world]?).getD ⟨0, 0⟩

def ringAllReduce (device : NativeCollectiveDevice DeviceId Tensor Prepared Work Operation)
    (devices : List DeviceId) (inputs : List Prepared)
    (operation : Operation) : Except DeviceFault (List Tensor) := do
  let work ← device.begin devices inputs
  let world := devices.length
  let elements ← device.elements work
  let chunks := balancedRanges elements world
  let reduced ← (List.range (world - 1)).foldlM
    (fun work step =>
      device.exchange work (stepRanges chunks world step 0) true) work
  let gathered ← (List.range (world - 1)).foldlM
    (fun work step =>
      device.exchange work (stepRanges chunks world step 1) false) reduced
  device.finish gathered operation

/-- A caught panic or an error becomes the text that the callers see. -/
def orText {α : Type} (panicked : String) (result : Except DeviceFault α) :
    Except String α :=
  match result with
  | .ok value => .ok value
  | .error (.error text) => .error text
  | .error .panic => .error panicked

/-- The result of a generation, from the submissions in rank order and the
operation of the first one. -/
def runGeneration [DecidableEq Operation]
    (device : NativeCollectiveDevice DeviceId Tensor Prepared Work Operation)
    (devices : List DeviceId) (agreed : Operation)
    (submissions : List (Submission Prepared Operation)) :
    Except String (List Tensor) :=
  if submissions.any fun entry => entry.operation ≠ agreed then
    .error "native collective reduction modes differ between ranks"
  else do
    let inputs ← submissions.mapM Submission.prepared
    orText "native collective executor panicked" (ringAllReduce device devices inputs agreed)

/-- One output for each rank; an error goes to all of them. -/
def distribute (world : Nat) (result : Except String (List Tensor)) :
    List (Except String Tensor) :=
  match result with
  | .ok outputs =>
      if outputs.length = world then outputs.map .ok
      else
        List.replicate world (.error
          s!"native collective returned {outputs.length} outputs for {world} ranks")
  | .error text => List.replicate world (.error text)

/-- The state of a new communicator. -/
def NativeState.initial (world : Nat) :
    NativeState Tensor Prepared Operation where
  inputs := List.replicate world none
  outputs := List.replicate world none
  arrived := 0
  departed := 0
  ready := false

def NativeCommunicator.new [DecidableEq DeviceId] (devices : List DeviceId) :
    Except String (NativeCommunicator DeviceId Tensor Prepared Work Operation) :=
  if devices = [] ∨ ¬devices.Nodup then
    .error "native collective requires distinct devices and a nonempty world"
  else
    .ok
      { state := .initial devices.length
        poisoned := false
        calls := fun _ => .idle
        generations := [] }

namespace NativeCommunicator

variable (devices : List DeviceId)
variable
  (communicator :
    NativeCommunicator DeviceId Tensor Prepared Work Operation)

def setCall (call : Nat) (phase : NativeCall Tensor Prepared Operation) :
    NativeCommunicator DeviceId Tensor Prepared Work Operation :=
  { communicator with
    calls := Function.update communicator.calls call phase }

/-- A failed `expect`: the lock is poisoned. -/
def panic (call : Nat) :
    NativeCommunicator DeviceId Tensor Prepared Work Operation :=
  { communicator.setCall call .panicked with poisoned := true }

/-- The end of `all_reduce`: take the rank's output, leave, and reset the state
behind the last rank. -/
def depart (call rank : Nat) :
    NativeCommunicator DeviceId Tensor Prepared Work Operation :=
  let state := communicator.state
  match state.outputs[rank]? with
  | some (some output) =>
      let outputs := state.outputs.set rank none
      let state :=
        if state.departed + 1 = devices.length then
          { state with
            outputs := outputs, arrived := 0, departed := 0
            ready := false }
        else
          { state with
            outputs := outputs, departed := state.departed + 1 }
      { communicator.setCall call (.returned rank output) with
        state := state }
  | _ => communicator.panic call

/-- The call before its lock: the rank is looked up and the tensor prepared. -/
def enterStep (device : NativeCollectiveDevice DeviceId Tensor Prepared Work Operation)
    (call rank : Nat) (tensor : Tensor) (operation : Operation) :
    Option (NativeCommunicator DeviceId Tensor Prepared Work Operation) :=
  match communicator.calls call with
  | .idle =>
      match devices[rank]? with
      | none =>
          some (communicator.setCall call (.returned rank
            (.error "native collective rank is outside the world")))
      | some deviceId =>
          some (communicator.setCall call (.prepared rank operation
            (orText "native device preparation panicked" (device.prepare tensor deviceId))))
  | _ => none

/-- The error of a call that finds the lock poisoned. -/
def poisonedResult : Except String Tensor := .error "native collective state is poisoned"

/-- A submission once the rank's slot is free; the last one runs the generation
and takes its own output before it gives the lock back. -/
def submitStep [DecidableEq Operation]
    (device : NativeCollectiveDevice DeviceId Tensor Prepared Work Operation)
    (call : Nat) :
    Option (NativeCommunicator DeviceId Tensor Prepared Work Operation) :=
  match communicator.calls call with
  | .prepared rank operation prepared =>
      if communicator.poisoned then
        some (communicator.setCall call (.returned rank poisonedResult))
      else
        let state := communicator.state
        match state.ready, state.inputs[rank]? with
        | false, some none =>
            let inputs := state.inputs.set rank (some ⟨operation, prepared, call⟩)
            let arrived := state.arrived + 1
            if arrived = devices.length then
              match inputs.mapM id with
              | some (first :: rest) =>
                  let submissions := first :: rest
                  let outputs := distribute devices.length
                    (runGeneration device devices first.operation submissions)
                  some (NativeCommunicator.depart devices
                    { communicator with
                      state :=
                        { inputs := List.replicate devices.length none
                          outputs := outputs.map some
                          arrived := arrived
                          departed := state.departed
                          ready := true }
                      generations := communicator.generations ++
                        [⟨device, submissions, outputs⟩] } call rank)
              | _ => some (communicator.panic call)
            else
              some
                { communicator.setCall call (.submitted rank) with
                  state := { state with inputs := inputs, arrived := arrived } }
        | _, _ => none
  | _ => none

/-- A submitted call goes on once its generation is ready. -/
def collectStep (call : Nat) :
    Option (NativeCommunicator DeviceId Tensor Prepared Work Operation) :=
  match communicator.calls call with
  | .submitted rank =>
      if communicator.poisoned then
        some (communicator.setCall call (.returned rank poisonedResult))
      else if communicator.state.ready then
        some (communicator.depart devices call rank)
      else none
  | _ => none

end NativeCommunicator

/-- What a call does next. -/
inductive NativeAction (DeviceId Tensor Prepared Work Operation : Type) where
  | enter
      (device : NativeCollectiveDevice DeviceId Tensor Prepared Work Operation)
      (call rank : Nat) (tensor : Tensor) (operation : Operation)
  | submit
      (device : NativeCollectiveDevice DeviceId Tensor Prepared Work Operation)
      (call : Nat)
  | collect (call : Nat)

def nativeStep [DecidableEq Operation] (devices : List DeviceId)
    (communicator :
      NativeCommunicator DeviceId Tensor Prepared Work Operation) :
    NativeAction DeviceId Tensor Prepared Work Operation →
      Option (NativeCommunicator DeviceId Tensor Prepared Work Operation)
  | .enter device call rank tensor operation =>
      communicator.enterStep devices device call rank tensor operation
  | .submit device call => communicator.submitStep devices device call
  | .collect call => communicator.collectStep devices call

end RuCCL.InProcess
