import RuCCL.Local.Server
import RuCCL.Local.StrategiesCorrect
import RuCCL.Library.Transition

/-!
# The state of the local server

An operation runs when it has as many calls as the server has peers.  The server
does not check who calls, so that its state stays consistent only as long as its
clients follow some rules; `Permitted` says which.
-/

namespace RuCCL.Local

open RuCCL.Library RuCCL.Global

variable {Tensor Device Address : Type}

def AllReduceOp.callers (operation : AllReduceOp Tensor) : List PeerId :=
  operation.calls.map TensorCall.caller

def ReduceOp.callers (operation : ReduceOp Tensor) : List PeerId :=
  operation.calls.map TensorCall.caller

def BroadcastOp.callers (operation : BroadcastOp Tensor Device) :
    List PeerId :=
  operation.calls.map BroadcastOpCall.caller

/-- The callers of an operation that still waits for others. -/
structure Waiting (peers callers : List PeerId) : Prop where
  distinct : callers.Nodup
  registered : ∀ caller ∈ callers, caller ∈ peers
  fewer : callers.length < peers.length

theorem nodup_add {callers : List PeerId} {caller : PeerId}
    (distinct : callers.Nodup) (new : caller ∉ callers) :
    (callers ++ [caller]).Nodup := by
  refine List.Nodup.append distinct (List.nodup_singleton _) ?_
  intro other earlier own
  rw [List.mem_singleton.mp own] at earlier
  exact new earlier

theorem mem_add {peers callers : List PeerId} {caller : PeerId}
    (registered : ∀ other ∈ callers, other ∈ peers)
    (member : caller ∈ peers) :
    ∀ other ∈ callers ++ [caller], other ∈ peers := by
  intro other among
  rcases List.mem_append.mp among with earlier | own
  · exact registered other earlier
  · rw [List.mem_singleton.mp own]
    exact member

/-- One more call, but not the last one. -/
theorem Waiting.add {peers callers : List PeerId} {caller : PeerId}
    (waiting : Waiting peers callers) (member : caller ∈ peers)
    (new : caller ∉ callers) (early : callers.length + 1 ≠ peers.length) :
    Waiting peers (callers ++ [caller]) where
  distinct := nodup_add waiting.distinct new
  registered := mem_add waiting.registered member
  fewer := by
    have fewer := waiting.fewer
    rw [List.length_append]
    exact lt_of_le_of_ne fewer early

theorem Waiting.grow {peers callers : List PeerId}
    (waiting : Waiting peers callers) (peer : PeerId) :
    Waiting (peers ++ [peer]) callers where
  distinct := waiting.distinct
  registered caller member := List.mem_append_left _ (waiting.registered caller member)
  fewer := by
    have fewer := waiting.fewer
    rw [List.length_append]
    omega

/-- As many distinct callers as peers are all of them. -/
theorem mem_of_full {peers callers : List PeerId} (distinct : callers.Nodup)
    (registered : ∀ caller ∈ callers, caller ∈ peers)
    (full : callers.length = peers.length) {peer : PeerId}
    (member : peer ∈ peers) :
    peer ∈ callers := by
  have sub := List.subperm_of_subset distinct registered
  have same := sub.perm_of_length_le (le_of_eq full.symm)
  exact same.mem_iff.mpr member

/-- The peers of the server and what waits for them. -/
structure ServerConsistent (B : Backend Tensor Device)
    (server : LocalCollectiveServer Tensor Device Address) : Prop where
  peersDistinct : server.peers.Nodup
  bounded : server.peers ≠ [] → ∃ config, server.config = some config ∧
    server.peers.length ≤ config.numDevices
  allReduce : ∀ operation, server.allReduceOp = some operation →
    Waiting server.peers operation.callers ∧
      ∀ call ∈ operation.calls, B.shape call.input = operation.shape
  reduce : ∀ operation, server.reduceOp = some operation →
    Waiting server.peers operation.callers ∧
      ∀ call ∈ operation.calls, B.shape call.input = operation.shape
  broadcast : ∀ operation, server.broadcastOp = some operation →
    Waiting server.peers operation.callers ∧ (operation.root.isSome ↔ operation.tensor.isSome) ∧
      ∀ root ∈ operation.root, root ∈ operation.callers

/-- The consistency of the server with the devices of its peers. -/
structure ServerSound (B : Backend Tensor Device)
    (server : LocalCollectiveServer Tensor Device Address) : Prop
    extends ServerConsistent B server where
  deviced : ∀ peer ∈ server.peers, peer ∈ server.devices

section Rules

variable (B : Backend Tensor Device) (server : LocalCollectiveServer Tensor Device Address)

/-- The group has room for a peer that the server admits. -/
def RegisterPermitted (deviceId : PeerId) (config : CollectiveConfig Address) : Prop :=
  config.isValid = true → deviceId ∉ server.peers →
    (server.peers = [] ∨ server.config = none ∨ server.config = some config) →
    server.peers.length < config.numDevices

/-- A matching call comes from a peer that has not called yet, and the last call
meets what the strategies need. -/
def AllReducePermitted (peerId : PeerId) (tensor : Tensor) (op : ReduceOperation) : Prop :=
  let operation := server.allReduceOp.getD ⟨[], op, B.shape tensor⟩
  peerId ∈ server.peers → operation.shape = B.shape tensor → operation.op = op →
    peerId ∉ operation.callers ∧
      (operation.calls.length + 1 = server.peers.length → ∀ config, server.config = some config →
          (config.localAllReduceStrategy = .ring → B.shape tensor ≠ []) ∧
          (server.globalClient ≠ none → config.globalAllReduceStrategy ≠ none))

/-- A matching call comes from a registered peer that has not called yet. -/
def ReducePermitted (peerId : PeerId) (tensor : Tensor)
    (op : ReduceOperation) (root : PeerId) : Prop :=
  let operation := server.reduceOp.getD ⟨[], op, root, B.shape tensor⟩
  root ∈ server.peers → operation.shape = B.shape tensor →
    operation.op = op → operation.root = root →
    peerId ∈ server.peers ∧ peerId ∉ operation.callers ∧
      (operation.calls.length + 1 = server.peers.length → ∀ config, server.config = some config →
          server.globalClient ≠ none → config.globalReduceStrategy ≠ none)

def BroadcastPermitted (caller : PeerId) (tensor : Option Tensor) : Prop :=
  let operation := server.broadcastOp.getD ⟨[], none, none⟩
  caller ∈ server.peers → ¬(tensor.isSome ∧ operation.tensor.isSome) →
    caller ∉ operation.callers ∧
      (operation.calls.length + 1 = server.peers.length → ∀ config, server.config = some config →
          server.globalClient ≠ none →
          config.globalBroadcastStrategy ≠ none)

/-- Nobody leaves whom an operation needs. -/
def MayLeave (id : PeerId) (callers : List PeerId) : Prop :=
  id ∉ callers ∧ callers.length + 1 < server.peers.length

def FinishPermitted (id : PeerId) : Prop := id ∈ server.peers →
    (∀ operation, server.allReduceOp = some operation → MayLeave server id operation.callers) ∧
    (∀ operation, server.reduceOp = some operation → MayLeave server id operation.callers) ∧
    ∀ operation, server.broadcastOp = some operation → MayLeave server id operation.callers

/-- The rules that keep the server consistent. -/
def Permitted (event : ServerEvent Tensor Device Address) : Prop :=
  match event.message with
  | .register deviceId _ config _ => RegisterPermitted server deviceId config
  | .allReduce deviceId tensor op _ => AllReducePermitted B server deviceId tensor op
  | .reduce deviceId tensor op root _ => ReducePermitted B server deviceId tensor op root
  | .broadcast deviceId tensor _ => BroadcastPermitted server deviceId tensor
  | .reset => True
  | .finish id _ => FinishPermitted server id

end Rules

section Execution

variable {B : Backend Tensor Device}

/-- Every caller finds its tensor, and nothing is left. -/
theorem handOut_ok {participants : List (PeerId × Callback)}
    {tensors : CollectiveTensorMap Tensor}
    (distinct : (participants.map Prod.fst).Nodup)
    (served : ∀ peer, peer ∈ tensors ↔ peer ∈ participants.map Prod.fst) :
    ∃ answers, handOut participants tensors = .ok answers ∧
      answers.map LocalAnswer.callback = participants.map Prod.snd := by
  induction participants generalizing tensors with
  | nil =>
      have empty : tensors.keys = [] := by
        apply List.eq_nil_iff_forall_not_mem.mpr
        intro peer member
        exact List.not_mem_nil ((served peer).mp (AList.mem_keys.mpr member))
      rw [handOut, if_pos empty]
      exact ⟨[], rfl, rfl⟩
  | cons participant rest ih =>
      obtain ⟨caller, callback⟩ := participant
      rw [List.map_cons, List.nodup_cons] at distinct
      obtain ⟨tensor, found⟩ := exists_lookup_of_mem ((served caller).mpr List.mem_cons_self)
      obtain ⟨later, handed, callbacks⟩ :=
        @ih (tensors.erase caller) distinct.2 (by
          intro peer
          rw [AList.mem_erase, served, List.map_cons, List.mem_cons]
          constructor
          · rintro ⟨different, same | member⟩
            · exact absurd same different
            · exact member
          · intro member
            refine ⟨fun same => ?_, Or.inr member⟩
            rw [same] at member
            exact distinct.1 member)
      rw [handOut, found, okOr_some, ok_bind, handed, ok_bind]
      refine ⟨_, rfl, ?_⟩
      rw [List.map_cons, callbacks]
      rfl

theorem collect_present {Value : Type} {entries : List (PeerId × Value)}
    (present : entries ≠ []) :
    (collect entries).keys ≠ [] := by
  cases entries with
  | nil => exact absurd rfl present
  | cons entry rest =>
      exact keys_ne_nil_of_mem (mem_collect_iff.mpr (List.mem_cons_self (a := entry.1)))

variable {config : CollectiveConfig Address} {global : Bool}

theorem AllReduceOp.reducible {operation : AllReduceOp Tensor}
    {strategy : AllReduceStrategy} (present : operation.calls ≠ [])
    (shaped : ∀ call ∈ operation.calls, B.shape call.input = operation.shape)
    (dimensions : strategy = .ring → operation.shape ≠ []) :
    Reducible B strategy (collect (operation.calls.map fun call =>
      (call.caller, call.input))) where
  present := collect_present fun none =>
    present (List.map_eq_nil_iff.mp none)
  shaped := by
    refine ⟨operation.shape, ?_, dimensions⟩
    intro tensor member
    have given := mem_values_collect member
    rw [List.map_map] at given
    obtain ⟨call, among, rfl⟩ := List.mem_map.mp given
    exact shaped call among

theorem AllReduceOp.allReduce_ends {operation : AllReduceOp Tensor}
    (present : operation.calls ≠ [])
    (shaped : ∀ call ∈ operation.calls, B.shape call.input = operation.shape)
    (dimensions : config.localAllReduceStrategy = .ring → operation.shape ≠ [])
    (chosen : global = true → config.globalAllReduceStrategy ≠ none)
    (replies : GlobalReplies Tensor Device) :
    Ends Unended
      (fun result => ∀ tensors, result = .ok tensors → ∀ peer,
        peer ∈ tensors ↔ peer ∈ operation.callers)
      (operation.allReduce B config global replies) := by
  have reducible := operation.reducible present shaped dimensions
  have callers : ∀ peer, peer ∈ collect (operation.calls.map fun call =>
      (call.caller, call.input)) ↔ peer ∈ operation.callers := by
    intro peer
    rw [mem_collect_iff, List.map_map]
    rfl
  rw [AllReduceOp.allReduce]
  cases global with
  | true =>
      refine Ends.bind (reducible.allReduceWithGlobal_ends _ (chosen rfl) replies.allReduce) ?_
      intro result served tensors succeeded peer
      cases result with
      | error error => cases succeeded
      | ok output =>
          cases succeeded
          rw [served _ rfl, callers]
  | false =>
      refine Ends.bind (reducible.allReduceLocalOnly_ends operation.op) ?_
      intro result served tensors succeeded peer
      cases succeeded
      rw [served, callers]

theorem map_callback_failAll (callbacks : List Callback) (error : CollectiveError) :
    (failAll callbacks error : List (LocalAnswer Tensor)).map
      LocalAnswer.callback = callbacks := by
  rw [failAll, List.map_map]
  exact List.map_id _

/-- Distinct callers with a result each are all answered. -/
theorem handOut_calls {Call : Type} {calls : List Call}
    (caller : Call → PeerId) (resultSender : Call → Callback)
    {tensors : CollectiveTensorMap Tensor}
    (distinct : (calls.map caller).Nodup)
    (served : ∀ peer, peer ∈ tensors ↔ peer ∈ calls.map caller) :
    ∃ answers, handOut (calls.map fun call =>
        (caller call, resultSender call)) tensors = .ok answers ∧
      answers.map LocalAnswer.callback = calls.map resultSender := by
  have participants : (calls.map fun call =>
      (caller call, resultSender call)).map Prod.fst = calls.map caller := by
    rw [List.map_map]
    rfl
  obtain ⟨answers, handed, callbacks⟩ := @handOut_ok _ _ tensors
    (by rwa [participants]) (by rwa [participants])
  rw [List.map_map] at callbacks
  exact ⟨answers, handed, callbacks⟩

/-- An all-reduce of distinct callers answers all of them. -/
theorem AllReduceOp.execute_ends {operation : AllReduceOp Tensor}
    (distinct : operation.callers.Nodup) (present : operation.calls ≠ [])
    (shaped : ∀ call ∈ operation.calls, B.shape call.input = operation.shape)
    (dimensions : config.localAllReduceStrategy = .ring → operation.shape ≠ [])
    (chosen : global = true → config.globalAllReduceStrategy ≠ none)
    (replies : GlobalReplies Tensor Device) :
    Ends Unended (fun answers =>
        answers.map LocalAnswer.callback = operation.callbacks)
      (operation.execute B config global replies) := by
  refine Ends.bind (operation.allReduce_ends present shaped dimensions chosen replies) ?_
  intro result served
  cases result with
  | error error => exact map_callback_failAll _ _
  | ok tensors =>
      obtain ⟨answers, handed, callbacks⟩ := handOut_calls TensorCall.caller
        TensorCall.resultSender distinct (served tensors rfl)
      simp only [handed]
      exact callbacks

theorem ReduceOp.map_callback_deliver (root : PeerId)
    (calls : List (TensorCall Tensor)) (result : Option Tensor) :
    (ReduceOp.deliver root calls result).map LocalAnswer.callback =
      calls.map TensorCall.resultSender := by
  induction calls generalizing result with
  | nil => rfl
  | cons call rest ih =>
      rw [ReduceOp.deliver]
      split
      case isTrue => rw [List.map_cons, ih, List.map_cons]
      case isFalse => rw [List.map_cons, ih, List.map_cons]

theorem ReduceOp.reduceSum_ends (strategy : ReduceStrategy)
    {tensors : CollectiveTensorMap Tensor} {root : PeerId}
    (member : root ∈ tensors) :
    Ends Unended (fun _ => True) (ReduceOp.reduceSum B strategy tensors root) := by
  cases strategy with
  | centralized => exact reduceSumCentralized_ends B member
  | tree arity => exact reduceSumTree_ends B member arity

/-- A reduce whose root has called answers all of its callers. -/
theorem ReduceOp.execute_ends {operation : ReduceOp Tensor}
    (rooted : operation.root ∈ operation.callers)
    (chosen : global = true → config.globalReduceStrategy ≠ none)
    (root : PeerId) (replies : GlobalReplies Tensor Device) :
    Ends Unended (fun answers =>
        answers.map LocalAnswer.callback = operation.callbacks)
      (operation.execute B root config global replies) := by
  have called : operation.root ∈ operation.calls.map TensorCall.caller := rooted
  refine @Ends.bind _ _ _ _ (fun _ => True) _ _ _ ?_ ?_
  · rw [ReduceOp.reduce, ReduceOp.localRoot, if_pos called, ok_bind]
    refine Ends.bind (ReduceOp.reduceSum_ends _ ?_) ?_
    · rw [mem_collect_iff, List.map_map]
      exact called
    · intro sum _
      cases global with
      | true =>
          obtain ⟨strategy, some⟩ := Option.ne_none_iff_exists'.mp (chosen rfl)
          rw [some]
          trivial
      | false =>
          cases operation.op with
          | sum => trivial
          | mean => trivial
  · intro result _
    cases result with
    | error error => exact map_callback_failAll _ _
    | ok tensor => exact map_callback_deliver _ _ _

theorem BroadcastOp.broadcastLocally_ends (strategy : BroadcastStrategy)
    {devices : PeerDeviceMap Device} {root : PeerId}
    (member : root ∈ devices) (tensor : Tensor) :
    Ends Unended (fun output => ∀ peer, peer ∈ output ↔ peer ∈ devices)
      (BroadcastOp.broadcastLocally B strategy devices root tensor) := by
  cases strategy with
  | centralized => exact broadcastCentralized_ends B member tensor
  | tree arity => exact broadcastTree_ends B member tensor arity

theorem BroadcastOp.mainTensor_ends {operation : BroadcastOp Tensor Device}
    (present : operation.calls ≠ [])
    (chosen : global = true → config.globalBroadcastStrategy ≠ none)
    (replies : GlobalReplies Tensor Device) :
    Ends Unended (fun _ => True) (operation.mainTensor config global replies) := by
  obtain ⟨first, rest, calls⟩ := List.exists_cons_of_ne_nil present
  cases global with
  | true =>
      obtain ⟨strategy, some⟩ := Option.ne_none_iff_exists'.mp (chosen rfl)
      simp only [BroadcastOp.mainTensor, some, calls, if_true, okOr_some,
        ok_bind, List.head?_cons]
      split
      case h_1 => trivial
      case h_2 => trivial
  | false => trivial

/-- A broadcast of distinct callers answers all of them. -/
theorem BroadcastOp.execute_ends {operation : BroadcastOp Tensor Device}
    (distinct : operation.callers.Nodup) (present : operation.calls ≠ [])
    (rooted : ∀ root ∈ operation.root, root ∈ operation.callers)
    (chosen : global = true → config.globalBroadcastStrategy ≠ none)
    (replies : GlobalReplies Tensor Device) :
    Ends Unended (fun answers =>
        answers.map LocalAnswer.callback = operation.callbacks)
      (operation.execute B config global replies) := by
  obtain ⟨first, rest, calls⟩ := List.exists_cons_of_ne_nil present
  have callers : ∀ peer, peer ∈ collect (operation.calls.map fun call =>
      (call.caller, call.device)) ↔ peer ∈ operation.callers := by
    intro peer
    rw [mem_collect_iff, List.map_map]
    rfl
  have effective : ∃ root, operation.effectiveRoot = .ok root ∧ root ∈ operation.callers := by
    rw [BroadcastOp.effectiveRoot, calls]
    refine ⟨operation.root.getD first.caller, rfl, ?_⟩
    cases chosenRoot : operation.root with
    | none =>
        rw [BroadcastOp.callers, calls]
        exact List.mem_cons_self
    | some root => exact rooted root chosenRoot
  obtain ⟨root, rootOk, rootCalled⟩ := effective
  refine @Ends.bind _ _ _ _ (fun result => ∀ tensors, result = .ok tensors →
    ∀ peer, peer ∈ tensors ↔ peer ∈ operation.callers) _ _ _ ?_ ?_
  · refine Ends.bind (operation.mainTensor_ends present chosen replies) ?_
    intro main _
    cases main with
    | error error =>
        intro tensors succeeded
        cases succeeded
    | ok tensor =>
        cases tensor with
        | none =>
            intro tensors succeeded
            cases succeeded
        | some tensor =>
            simp only [rootOk, ok_bind]
            refine Ends.bind (BroadcastOp.broadcastLocally_ends _
              ((callers root).mpr rootCalled) tensor) ?_
            intro output served tensors succeeded peer
            cases succeeded
            rw [served, callers]
  · intro result served
    cases result with
    | error error => exact map_callback_failAll _ _
    | ok tensors =>
        obtain ⟨answers, handed, callbacks⟩ := handOut_calls
          BroadcastOpCall.caller BroadcastOpCall.resultSender distinct
          (served tensors rfl)
        simp only [handed]
        exact callbacks

end Execution

section Calls

variable {B : Backend Tensor Device}

theorem AllReduceOp.registerCall_eq_ok {operation joined : AllReduceOp Tensor}
    {caller : PeerId} {input : Tensor} {resultSender : Callback}
    {op : ReduceOperation} {peerCount : Nat} {ready : Bool}
    (called : operation.registerCall B caller input resultSender op
      peerCount = .ok (joined, ready)) :
    operation.shape = B.shape input ∧ operation.op = op ∧
      joined = { operation with
        calls := operation.calls ++ [⟨caller, input, resultSender⟩] } ∧
      ready = decide (operation.calls.length + 1 = peerCount) := by
  unfold AllReduceOp.registerCall at called
  split at called
  case isTrue => cases called
  case isFalse shapes =>
    split at called
    case isTrue => cases called
    case isFalse ops =>
      rw [not_not] at shapes ops
      have result := Except.ok.inj called
      rw [List.length_append] at result
      cases result
      exact ⟨shapes, ops, rfl, rfl⟩

theorem ReduceOp.registerCall_eq_ok {operation joined : ReduceOp Tensor}
    {caller : PeerId} {input : Tensor} {resultSender : Callback}
    {op : ReduceOperation} {root : PeerId} {peerCount : Nat} {ready : Bool}
    (called : operation.registerCall B caller input resultSender op root
      peerCount = .ok (joined, ready)) :
    operation.shape = B.shape input ∧ operation.op = op ∧ operation.root = root ∧
      joined = { operation with
        calls := operation.calls ++ [⟨caller, input, resultSender⟩] } ∧
      ready = decide (operation.calls.length + 1 = peerCount) := by
  unfold ReduceOp.registerCall at called
  split at called
  case isTrue => cases called
  case isFalse shapes =>
    split at called
    case isTrue => cases called
    case isFalse ops =>
      split at called
      case isTrue => cases called
      case isFalse roots =>
        rw [not_not] at shapes ops roots
        have result := Except.ok.inj called
        rw [List.length_append] at result
        cases result
        exact ⟨shapes, ops, roots, rfl, rfl⟩

theorem BroadcastOp.registerCall_eq_ok
    {operation joined : BroadcastOp Tensor Device} {caller : PeerId}
    {input : Option Tensor} {resultSender : Callback} {device : Device}
    {peerCount : Nat} {ready : Bool}
    (called : operation.registerCall caller input resultSender device
      peerCount = .ok (joined, ready)) :
    ¬(input.isSome ∧ operation.tensor.isSome) ∧
      joined = {
        calls := operation.calls ++ [⟨caller, device, resultSender⟩]
        tensor := if input.isSome then input else operation.tensor
        root := if input.isSome then some caller else operation.root } ∧
      ready = decide (operation.calls.length + 1 = peerCount) := by
  unfold BroadcastOp.registerCall at called
  split at called
  case isTrue => cases called
  case isFalse single =>
    have result := Except.ok.inj called
    rw [List.length_append] at result
    cases result
    exact ⟨single, rfl, rfl⟩

end Calls

section Step

variable {B : Backend Tensor Device} {server : LocalCollectiveServer Tensor Device Address}

open LocalCollectiveServer

theorem ServerSound.new :
    ServerSound B (new : LocalCollectiveServer Tensor Device Address) where
  peersDistinct := List.nodup_nil
  bounded present := absurd rfl present
  allReduce _ absent := by
    cases absent
  reduce _ absent := by
    cases absent
  broadcast _ absent := by
    cases absent
  deviced _ member := (List.not_mem_nil member).elim

/-- The peers stay and the operations are replaced. -/
theorem ServerSound.withOperations (sound : ServerSound B server)
    {allReduceOp : Option (AllReduceOp Tensor)}
    {reduceOp : Option (ReduceOp Tensor)}
    {broadcastOp : Option (BroadcastOp Tensor Device)}
    (allReduce : ∀ operation, allReduceOp = some operation →
      Waiting server.peers operation.callers ∧
        ∀ call ∈ operation.calls, B.shape call.input = operation.shape)
    (reduce : ∀ operation, reduceOp = some operation → Waiting server.peers operation.callers ∧
        ∀ call ∈ operation.calls, B.shape call.input = operation.shape)
    (broadcast : ∀ operation, broadcastOp = some operation →
      Waiting server.peers operation.callers ∧ (operation.root.isSome ↔ operation.tensor.isSome) ∧
        ∀ root ∈ operation.root, root ∈ operation.callers) :
    ServerSound B { server with
      allReduceOp := allReduceOp
      reduceOp := reduceOp
      broadcastOp := broadcastOp } :=
  ⟨⟨sound.peersDistinct, sound.bounded, allReduce, reduce, broadcast⟩, sound.deviced⟩

theorem ServerSound.configured (sound : ServerSound B server)
    {peer : PeerId} (member : peer ∈ server.peers) :
    ∃ config, server.config = some config := by
  obtain ⟨config, some, _⟩ := sound.bounded (List.ne_nil_of_mem member)
  exact ⟨config, some⟩

/-- The operation that a call finds or makes. -/
theorem ServerSound.currentAllReduce (sound : ServerSound B server)
    {peerId : PeerId} (member : peerId ∈ server.peers) (tensor : Tensor)
    (op : ReduceOperation) :
    let operation := server.allReduceOp.getD ⟨[], op, B.shape tensor⟩
    Waiting server.peers operation.callers ∧
      ∀ call ∈ operation.calls, B.shape call.input = operation.shape := by
  cases pending : server.allReduceOp with
  | none =>
      exact ⟨⟨List.nodup_nil, fun _ absent =>
        (List.not_mem_nil absent).elim, List.length_pos_of_mem member⟩,
        fun _ absent => (List.not_mem_nil absent).elim⟩
  | some operation => exact sound.allReduce operation pending

theorem ServerSound.allReduce_ends (sound : ServerSound B server)
    {peerId : PeerId} {tensor : Tensor} {op : ReduceOperation}
    (permitted : AllReducePermitted B server peerId tensor op)
    (callback : Callback) (replies : GlobalReplies Tensor Device) :
    Ends Unended (fun result => ServerSound B result.1)
      (server.processAllReduceMessage B peerId tensor op callback replies) := by
  by_cases member : peerId ∈ server.peers
  · have taken := sound.withOperations
      (fun operation (absent : none = some operation) => by cases absent)
      sound.reduce sound.broadcast
    obtain ⟨waiting, shaped⟩ := sound.currentAllReduce member tensor op
    rw [processAllReduceMessage, if_neg (not_not_intro member)]
    cases called : (server.allReduceOp.getD
        ⟨[], op, B.shape tensor⟩).registerCall B peerId tensor callback op
        server.peers.length with
    | error error =>
        simp only [called]
        exact taken
    | ok result =>
        obtain ⟨joined, ready⟩ := result
        obtain ⟨shapes, ops, rfl, rfl⟩ := AllReduceOp.registerCall_eq_ok called
        obtain ⟨new, last⟩ := permitted member shapes ops
        have everyone : ∀ call ∈ (server.allReduceOp.getD
            ⟨[], op, B.shape tensor⟩).calls ++ [⟨peerId, tensor, callback⟩],
            B.shape call.input = (server.allReduceOp.getD ⟨[], op, B.shape tensor⟩).shape := by
          intro call among
          rcases List.mem_append.mp among with earlier | own
          · exact shaped call earlier
          · rw [List.mem_singleton.mp own, shapes]
        by_cases full : (server.allReduceOp.getD
            ⟨[], op, B.shape tensor⟩).calls.length + 1 = server.peers.length
        · rw [decide_eq_true full] at called
          obtain ⟨config, configured⟩ := sound.configured member
          obtain ⟨dimensions, chosen⟩ := last full config configured
          rw [configured] at taken
          simp only [called, configured, okOr_some, ok_bind]
          refine Ends.bind (AllReduceOp.execute_ends ?_ ?_ everyone ?_ ?_
            replies) fun _ _ => taken
          · rw [AllReduceOp.callers, List.map_append]
            exact nodup_add waiting.distinct new
          · exact fun none =>
              List.cons_ne_nil _ _ (List.append_eq_nil_iff.mp none).2
          · intro ring
            rw [shapes]
            exact dimensions ring
          · intro present
            exact chosen (Option.isSome_iff_ne_none.mp present)
        · rw [decide_eq_false full] at called
          simp only [called]
          refine sound.withOperations ?_ sound.reduce sound.broadcast
          intro operation same
          cases same
          refine ⟨?_, everyone⟩
          have early : (server.allReduceOp.getD ⟨[], op, B.shape tensor⟩).callers.length + 1 ≠
              server.peers.length := by
            rw [AllReduceOp.callers, List.length_map]
            exact full
          rw [AllReduceOp.callers, List.map_append]
          exact waiting.add member new early
  · rw [processAllReduceMessage, if_pos member]
    exact sound

theorem ServerSound.currentReduce (sound : ServerSound B server)
    {root : PeerId} (member : root ∈ server.peers) (tensor : Tensor)
    (op : ReduceOperation) :
    let operation := server.reduceOp.getD ⟨[], op, root, B.shape tensor⟩
    Waiting server.peers operation.callers ∧
      ∀ call ∈ operation.calls, B.shape call.input = operation.shape := by
  cases pending : server.reduceOp with
  | none =>
      exact ⟨⟨List.nodup_nil, fun _ absent =>
        (List.not_mem_nil absent).elim, List.length_pos_of_mem member⟩,
        fun _ absent => (List.not_mem_nil absent).elim⟩
  | some operation => exact sound.reduce operation pending

theorem ServerSound.reduce_ends (sound : ServerSound B server)
    {peerId : PeerId} {tensor : Tensor} {op : ReduceOperation}
    {root : PeerId}
    (permitted : ReducePermitted B server peerId tensor op root)
    (callback : Callback) (replies : GlobalReplies Tensor Device) :
    Ends Unended (fun result => ServerSound B result.1)
      (server.processReduceMessage B peerId tensor op root callback replies) := by
  by_cases rooted : root ∈ server.peers
  · have taken := sound.withOperations sound.allReduce
      (fun operation (absent : none = some operation) => by cases absent)
      sound.broadcast
    obtain ⟨waiting, shaped⟩ := sound.currentReduce rooted tensor op
    rw [processReduceMessage, if_neg (not_not_intro rooted)]
    cases called : (server.reduceOp.getD
        ⟨[], op, root, B.shape tensor⟩).registerCall B peerId tensor callback
        op root server.peers.length with
    | error error =>
        simp only [called]
        exact taken
    | ok result =>
        obtain ⟨joined, ready⟩ := result
        obtain ⟨shapes, ops, roots, rfl, rfl⟩ := ReduceOp.registerCall_eq_ok called
        obtain ⟨member, new, last⟩ := permitted rooted shapes ops roots
        by_cases full : (server.reduceOp.getD ⟨[], op, root, B.shape tensor⟩).calls.length + 1 =
            server.peers.length
        · rw [decide_eq_true full] at called
          obtain ⟨config, configured⟩ := sound.configured rooted
          have chosen := last full config configured
          rw [configured] at taken
          simp only [called, configured, okOr_some, ok_bind]
          refine Ends.bind (ReduceOp.execute_ends ?_ ?_ root replies) fun _ _ => taken
          · rw [ReduceOp.callers, List.map_append]
            refine mem_of_full (nodup_add waiting.distinct new)
              (mem_add waiting.registered member) ?_ (by
                rw [roots]
                exact rooted)
            rw [List.length_append, ReduceOp.callers, List.length_map]
            exact full
          · intro present
            exact chosen (Option.isSome_iff_ne_none.mp present)
        · rw [decide_eq_false full] at called
          simp only [called]
          refine sound.withOperations sound.allReduce ?_ sound.broadcast
          intro operation same
          cases same
          have early : (server.reduceOp.getD ⟨[], op, root, B.shape tensor⟩).callers.length + 1 ≠
              server.peers.length := by
            rw [ReduceOp.callers, List.length_map]
            exact full
          constructor
          · rw [ReduceOp.callers, List.map_append]
            exact waiting.add member new early
          · intro call among
            rcases List.mem_append.mp among with earlier | own
            · exact shaped call earlier
            · rw [List.mem_singleton.mp own, shapes]
  · rw [processReduceMessage, if_pos rooted]
    exact sound

theorem ServerSound.currentBroadcast (sound : ServerSound B server)
    {caller : PeerId} (member : caller ∈ server.peers) :
    let operation := server.broadcastOp.getD ⟨[], none, none⟩
    Waiting server.peers operation.callers ∧ (operation.root.isSome ↔ operation.tensor.isSome) ∧
      ∀ root ∈ operation.root, root ∈ operation.callers := by
  cases pending : server.broadcastOp with
  | none =>
      refine ⟨⟨List.nodup_nil, fun _ absent =>
        (List.not_mem_nil absent).elim, List.length_pos_of_mem member⟩,
        Iff.rfl, ?_⟩
      intro root absent
      cases absent
  | some operation => exact sound.broadcast operation pending

theorem ServerSound.broadcast_ends (sound : ServerSound B server)
    {caller : PeerId} {tensor : Option Tensor}
    (permitted : BroadcastPermitted server caller tensor)
    (callback : Callback) (replies : GlobalReplies Tensor Device) :
    Ends Unended (fun result => ServerSound B result.1)
      (server.processBroadcastMessage B caller tensor callback replies) := by
  rw [processBroadcastMessage]
  split
  case isTrue => exact sound
  case isFalse =>
    split
    case isTrue => exact sound
    case isFalse known =>
      rw [not_not] at known
      have taken := sound.withOperations sound.allReduce sound.reduce
        (fun operation (absent : none = some operation) => by cases absent)
      obtain ⟨waiting, both, rooted⟩ := sound.currentBroadcast known
      obtain ⟨device, found⟩ := exists_lookup_of_mem (sound.deviced caller known)
      simp only [found, okOr_some, ok_bind]
      cases called : (server.broadcastOp.getD
          ⟨[], none, none⟩).registerCall caller tensor callback device
          server.peers.length with
      | error error => exact taken
      | ok result =>
          obtain ⟨joined, ready⟩ := result
          obtain ⟨single, rfl, rfl⟩ := BroadcastOp.registerCall_eq_ok called
          obtain ⟨new, last⟩ := permitted known single
          have callers : List.map BroadcastOpCall.caller
              ((server.broadcastOp.getD ⟨[], none, none⟩).calls ++ [⟨caller, device, callback⟩]) =
              (server.broadcastOp.getD ⟨[], none, none⟩).callers ++ [caller] := List.map_append
          have roots : ∀ root ∈ (if tensor.isSome then some caller
              else (server.broadcastOp.getD ⟨[], none, none⟩).root),
              root ∈ (server.broadcastOp.getD ⟨[], none, none⟩).callers ++ [caller] := by
            intro root chosenRoot
            split at chosenRoot
            case isTrue =>
              cases chosenRoot
              exact List.mem_append_right _ List.mem_cons_self
            case isFalse => exact List.mem_append_left _ (rooted root chosenRoot)
          by_cases full : (server.broadcastOp.getD
              ⟨[], none, none⟩).calls.length + 1 = server.peers.length
          · rw [decide_eq_true full]
            obtain ⟨config, configured⟩ := sound.configured known
            have chosen := last full config configured
            rw [configured] at taken
            simp only [configured, okOr_some, ok_bind]
            refine Ends.bind (BroadcastOp.execute_ends ?_ ?_ ?_ ?_ replies) fun _ _ => taken
            · rw [BroadcastOp.callers, callers]
              exact nodup_add waiting.distinct new
            · exact fun none =>
                List.cons_ne_nil _ _ (List.append_eq_nil_iff.mp none).2
            · rw [BroadcastOp.callers, callers]
              exact roots
            · intro present
              exact chosen (Option.isSome_iff_ne_none.mp present)
          · rw [decide_eq_false full]
            refine sound.withOperations sound.allReduce sound.reduce ?_
            intro operation same
            cases same
            have early : (server.broadcastOp.getD ⟨[], none, none⟩).callers.length + 1 ≠
                server.peers.length := by
              rw [BroadcastOp.callers, List.length_map]
              exact full
            refine ⟨?_, ?_, ?_⟩
            · rw [BroadcastOp.callers, callers]
              exact waiting.add known new early
            · cases tensor with
              | none => exact both
              | some tensor => exact Iff.rfl
            · rw [BroadcastOp.callers, callers]
              exact roots

theorem registerGlobally_ends {params : Option (GlobalRegisterParams Address)}
    {client : Option (GlobalClient Address)}
    (connected : params ≠ none → client ≠ none)
    (replies : GlobalReplies Tensor Device) :
    Ends Unended (fun _ => True) (registerGlobally params client replies) := by
  cases params with
  | none => trivial
  | some params =>
      obtain ⟨present, some⟩ := Option.ne_none_iff_exists'.mp
        (connected fun absent => by cases absent)
      rw [some]
      trivial

theorem ServerSound.acceptPeer_ends (sound : ServerSound B server)
    {deviceId : PeerId} {config : CollectiveConfig Address}
    (new : deviceId ∉ server.peers)
    (room : server.peers.length < config.numDevices) (device : Device)
    (callback : Callback) (replies : GlobalReplies Tensor Device) :
    Ends Unended (fun result => ServerSound B result.1)
      (server.acceptPeer deviceId device config callback replies) := by
  have joined : ∀ (callbacks : List Callback) (client : Option (GlobalClient Address)),
      ServerSound B { server with
        config := some config
        peers := server.peers ++ [deviceId]
        callbacksRegister := callbacks
        devices := server.devices.insert deviceId device
        globalClient := client } := by
    intro callbacks client
    exact {
      peersDistinct := nodup_add sound.peersDistinct new
      bounded := fun _ => ⟨config, rfl, by
        rw [List.length_append]
        exact room⟩
      allReduce := fun operation pending =>
        ⟨(sound.allReduce operation pending).1.grow deviceId,
          (sound.allReduce operation pending).2⟩
      reduce := fun operation pending =>
        ⟨(sound.reduce operation pending).1.grow deviceId, (sound.reduce operation pending).2⟩
      broadcast := fun operation pending =>
        ⟨(sound.broadcast operation pending).1.grow deviceId,
          (sound.broadcast operation pending).2⟩
      deviced := fun peer member => by
        apply (AList.mem_insert _).mpr
        rcases List.mem_append.mp member with earlier | own
        · exact Or.inr (sound.deviced peer earlier)
        · exact Or.inl (List.mem_singleton.mp own) }
  unfold LocalCollectiveServer.acceptPeer
  by_cases complete :
      (server.peers ++ [deviceId]).length = config.numDevices
  · simp only [if_pos complete]
    refine Ends.bind (registerGlobally_ends ?_ replies) fun _ _ =>
      joined [] _
    intro global
    obtain ⟨params, some⟩ := Option.ne_none_iff_exists'.mp global
    cases client : server.globalClient with
    | none => simp [some]
    | some present => simp [some]
  · simp only [if_neg complete]
    exact joined _ _

theorem ServerSound.register_ends [DecidableEq Address]
    (sound : ServerSound B server) {deviceId : PeerId}
    {config : CollectiveConfig Address}
    (permitted : RegisterPermitted server deviceId config) (device : Device)
    (callback : Callback) (replies : GlobalReplies Tensor Device) :
    Ends Unended (fun result => ServerSound B result.1)
      (server.processRegisterMessage deviceId device config callback replies) := by
  rw [processRegisterMessage]
  split
  case isTrue => exact sound
  case isFalse valid =>
    rw [not_not] at valid
    split
    case isTrue => exact sound
    case isFalse new =>
      split
      case isTrue first =>
        exact sound.acceptPeer_ends new (permitted valid new
          (first.elim Or.inl fun none => Or.inr (Or.inl none))) device
          callback replies
      case isFalse =>
        split
        case isTrue => exact sound
        case isFalse same =>
          rw [not_not] at same
          exact sound.acceptPeer_ends new
            (permitted valid new (Or.inr (Or.inr same))) device callback
            replies

theorem ServerSound.reset : ServerSound B server.reset where
  peersDistinct := List.nodup_nil
  bounded present := absurd rfl present
  allReduce _ absent := by
    cases absent
  reduce _ absent := by
    cases absent
  broadcast _ absent := by
    cases absent
  deviced _ member := (List.not_mem_nil member).elim

/-- An operation that waits for others than the one who leaves. -/
theorem Waiting.leave {peers callers : List PeerId} {id : PeerId}
    (waiting : Waiting peers callers) (distinct : peers.Nodup)
    (member : id ∈ peers) (uninvolved : id ∉ callers)
    (fewer : callers.length + 1 < peers.length) :
    Waiting (peers.filter fun peer => peer ≠ id) callers where
  distinct := waiting.distinct
  registered caller among := by
    refine List.mem_filter.mpr ⟨waiting.registered caller among, ?_⟩
    refine decide_eq_true fun same => ?_
    rw [same] at among
    exact uninvolved among
  fewer := by
    have left := distinct.erase_eq_filter id
    have length := List.length_erase_of_mem member
    rw [left] at length
    have same : (peers.filter fun peer => decide (peer ≠ id)) =
        peers.filter fun peer => peer != id := by
      apply List.filter_congr
      intro peer _
      rw [Bool.eq_iff_iff, bne_iff_ne, decide_eq_true_iff]
    rw [same, length]
    omega

theorem ServerSound.finish_ends (sound : ServerSound B server)
    {id : PeerId} (permitted : FinishPermitted server id)
    (callback : Callback) :
    Ends Unended (fun result => ServerSound B result.1)
      (server.processFinishMessage id callback) := by
  rw [processFinishMessage]
  split
  case isTrue => exact sound
  case isFalse =>
    split
    case isTrue => exact sound
    case isFalse known =>
      rw [not_not] at known
      obtain ⟨allReduce, reduce, broadcast⟩ := permitted known
      obtain ⟨config, some, bound⟩ := sound.bounded (List.ne_nil_of_mem known)
      have shorter := List.length_filter_le (fun peer => decide (peer ≠ id)) server.peers
      exact {
        peersDistinct := sound.peersDistinct.filter _
        bounded := fun _ => ⟨config, some, le_trans shorter bound⟩
        allReduce := fun operation pending =>
          ⟨(sound.allReduce operation pending).1.leave sound.peersDistinct
            known (allReduce operation pending).1
            (allReduce operation pending).2,
            (sound.allReduce operation pending).2⟩
        reduce := fun operation pending =>
          ⟨(sound.reduce operation pending).1.leave sound.peersDistinct
            known (reduce operation pending).1 (reduce operation pending).2,
            (sound.reduce operation pending).2⟩
        broadcast := fun operation pending =>
          ⟨(sound.broadcast operation pending).1.leave sound.peersDistinct
            known (broadcast operation pending).1
            (broadcast operation pending).2,
            (sound.broadcast operation pending).2⟩
        deviced := fun peer member =>
          sound.deviced peer (List.mem_filter.mp member).1 }

variable [DecidableEq Address]

theorem ServerSound.step_ends (sound : ServerSound B server)
    {event : ServerEvent Tensor Device Address}
    (permitted : Permitted B server event) :
    Ends Unended (fun result => ServerSound B result.1) (serverStep B server event) := by
  obtain ⟨message, replies⟩ := event
  cases message with
  | register deviceId device config callback =>
      exact sound.register_ends permitted device callback replies
  | allReduce deviceId tensor op callback => exact sound.allReduce_ends permitted callback replies
  | reduce deviceId tensor op root callback => exact sound.reduce_ends permitted callback replies
  | broadcast deviceId tensor callback => exact sound.broadcast_ends permitted callback replies
  | reset => exact ServerSound.reset
  | finish id callback => exact sound.finish_ends permitted callback

end Step

/-! ## Every run -/

section Runs

variable [DecidableEq Address] {B : Backend Tensor Device}

theorem serverNext_eq_some_iff {server successor : LocalCollectiveServer Tensor Device Address}
    {event : ServerEvent Tensor Device Address} :
    serverNext B server event = some successor ↔
      ∃ answers, serverStep B server event = .ok (successor, answers) := by
  unfold serverNext
  cases serverStep B server event with
  | error stop => simp
  | ok result =>
      obtain ⟨next, answers⟩ := result
      simp

end Runs

/-- Tensors of one dimension on a single device. -/
def listBackend : Backend (List Nat) Unit where
  shape tensor := [tensor.length]
  floatDevice _ := ()
  deviceId _ := 0
  floatToDevice tensor _ := tensor
  floatAdd := List.zipWith (· + ·)
  floatDivScalar tensor count := tensor.map (· / count)
  floatSlice tensor ranges :=
    match ranges with
    | [(start, stop)] => (tensor.take stop).drop start
    | _ => tensor
  floatSliceAssign _ _ value := value
  floatCat slices _ := slices.flatten

/-- A group of two devices without other nodes. -/
def twoDevices : CollectiveConfig Unit where
  numDevices := 2
  localAllReduceStrategy := .centralized
  localReduceStrategy := .centralized
  localBroadcastStrategy := .centralized
  numNodes := none
  globalAddress := none
  nodeAddress := none
  dataServicePort := none
  globalAllReduceStrategy := some .ring
  globalReduceStrategy := some (.tree 2)
  globalBroadcastStrategy := some (.tree 2)

/-- A message in a group without other nodes. -/
def localEvent (message : Message (List Nat) Unit Unit) : ServerEvent (List Nat) Unit Unit :=
  ⟨message, .ok (), fun tensor _ _ => .ok tensor, fun _ _ _ _ => .ok none,
    fun _ _ _ => .error .broadcastNoTensor⟩

/-- Both devices have registered and the first one has called. -/
def oneCall : List (ServerEvent (List Nat) Unit Unit) :=
  [localEvent (.register 0 () twoDevices 0), localEvent (.register 1 () twoDevices 1),
    localEvent (.allReduce 0 [1, 2] .sum 2)]

end RuCCL.Local
