import RuCCL.Local.ServerInvariant

/-!
# Answers of the local server

Each message brings a callback, and a client that waits for it either gets an
answer or sees its channel close.  A callback is stored with the call or the
registration it belongs to until the server answers or forgets it.
-/

namespace RuCCL.Local

open RuCCL.Library RuCCL.Global

variable {Tensor Device Address : Type}

/-- The callback that a message brings. -/
def Message.callbacks : Message Tensor Device Address → List Callback
  | .register _ _ _ callback => [callback]
  | .allReduce _ _ _ callback => [callback]
  | .reduce _ _ _ _ callback => [callback]
  | .broadcast _ _ callback => [callback]
  | .reset => []
  | .finish _ callback => [callback]

/-- The callbacks of a pending operation. -/
def pendingCallbacks {Operation : Type} (callbacks : Operation → List Callback) :
    Option Operation → List Callback
  | none => []
  | some operation => callbacks operation

namespace LocalCollectiveServer

variable (server : LocalCollectiveServer Tensor Device Address)

/-- The callbacks that the server holds. -/
def waiting : List Callback := server.callbacksRegister ++
    (pendingCallbacks AllReduceOp.callbacks server.allReduceOp ++
      (pendingCallbacks ReduceOp.callbacks server.reduceOp ++
        pendingCallbacks BroadcastOp.callbacks server.broadcastOp))

/-- What a client gets for its callback, once there is something to get. -/
def wait (answers : List (LocalAnswer Tensor)) (callback : Callback) :
    Option (Except CollectiveError (Reply Tensor)) :=
  match answers.find? fun answer => answer.callback = callback with
  | some answer => some answer.result
  | none =>
      if callback ∈ server.waiting then none
      else some (.error .localServerMissing)

end LocalCollectiveServer

/-- The callbacks of all messages of a run. -/
def submitted
    (steps : List (LocalCollectiveServer Tensor Device Address ×
      ServerEvent Tensor Device Address)) : List Callback :=
  steps.flatMap fun step => step.2.message.callbacks

section Answered

variable [DecidableEq Address] (B : Backend Tensor Device)

def answersOf (server : LocalCollectiveServer Tensor Device Address)
    (event : ServerEvent Tensor Device Address) :
    List (LocalAnswer Tensor) :=
  match serverStep B server event with
  | .ok (_, answers) => answers
  | .error _ => []

/-- All answers of a run. -/
def answered
    (steps : List (LocalCollectiveServer Tensor Device Address ×
      ServerEvent Tensor Device Address)) : List (LocalAnswer Tensor) :=
  steps.flatMap fun step => answersOf B step.1 step.2

end Answered

section Executed

variable {B : Backend Tensor Device} {config : CollectiveConfig Address}
  {global : Bool} {replies : GlobalReplies Tensor Device}
  {answers : List (LocalAnswer Tensor)}

theorem handOut_callbacks {participants : List (PeerId × Callback)}
    {tensors : CollectiveTensorMap Tensor}
    (handed : handOut participants tensors = .ok answers) :
    answers.map LocalAnswer.callback = participants.map Prod.snd := by
  induction participants generalizing tensors answers with
  | nil =>
      rw [handOut] at handed
      split at handed
      case isTrue =>
        cases handed
        rfl
      case isFalse => cases handed
  | cons participant rest ih =>
      obtain ⟨caller, callback⟩ := participant
      rw [handOut] at handed
      obtain ⟨result, _, handed⟩ := of_bind handed
      obtain ⟨later, handedLater, handed⟩ := of_bind handed
      cases handed
      rw [List.map_cons, ih handedLater]
      rfl

theorem AllReduceOp.execute_callbacks {operation : AllReduceOp Tensor}
    (executed : operation.execute B config global replies = .ok answers) :
    answers.map LocalAnswer.callback = operation.callbacks := by
  obtain ⟨result, _, executed⟩ := of_bind executed
  cases result with
  | error error =>
      cases executed
      exact map_callback_failAll _ _
  | ok tensors =>
      rw [handOut_callbacks executed, List.map_map]
      rfl

theorem ReduceOp.execute_callbacks {operation : ReduceOp Tensor} {root : PeerId}
    (executed : operation.execute B root config global replies = .ok answers) :
    answers.map LocalAnswer.callback = operation.callbacks := by
  obtain ⟨result, _, executed⟩ := of_bind executed
  cases result with
  | error error =>
      cases executed
      exact map_callback_failAll _ _
  | ok tensor =>
      cases executed
      exact map_callback_deliver _ _ _

theorem BroadcastOp.execute_callbacks {operation : BroadcastOp Tensor Device}
    (executed : operation.execute B config global replies = .ok answers) :
    answers.map LocalAnswer.callback = operation.callbacks := by
  obtain ⟨result, _, executed⟩ := of_bind executed
  cases result with
  | error error =>
      cases executed
      exact map_callback_failAll _ _
  | ok tensors =>
      rw [handOut_callbacks executed, List.map_map]
      rfl

end Executed

section Step

open LocalCollectiveServer

variable {B : Backend Tensor Device}
  {server successor : LocalCollectiveServer Tensor Device Address}
  {replies : GlobalReplies Tensor Device}
  {answers : List (LocalAnswer Tensor)}

/-- Nothing is answered or stored that was not stored before or brought along.
-/
def Accounted (server : LocalCollectiveServer Tensor Device Address) (own : List Callback)
    (successor : LocalCollectiveServer Tensor Device Address)
    (answers : List (LocalAnswer Tensor)) : Prop :=
  ∀ callback, (answers.map LocalAnswer.callback).count callback +
      successor.waiting.count callback ≤
    server.waiting.count callback + own.count callback

theorem count_waiting (callback : Callback) :
    server.waiting.count callback = server.callbacksRegister.count callback +
        (pendingCallbacks AllReduceOp.callbacks server.allReduceOp).count callback +
        (pendingCallbacks ReduceOp.callbacks server.reduceOp).count callback +
        (pendingCallbacks BroadcastOp.callbacks server.broadcastOp).count
          callback := by
  rw [waiting, List.count_append, List.count_append, List.count_append]
  omega

theorem refuse_accounted {callback : Callback} {error : CollectiveError}
    (refused : server.refuse callback error = .ok (successor, answers)) :
    Accounted server [callback] successor answers := by
  cases refused
  intro other
  simp only [map_callback_failAll]
  omega

/-- A peer joins the ones before it and waits with them, or completes the group
and is answered with all that wait. -/
theorem acceptPeer_cases {deviceId : PeerId} {device : Device}
    {config : CollectiveConfig Address} {callback : Callback}
    (admitted : server.acceptPeer deviceId device config callback replies =
      .ok (successor, answers)) :
    (successor.peers = server.peers ++ [deviceId] ∧ successor.allReduceOp = server.allReduceOp ∧
      successor.reduceOp = server.reduceOp ∧
      successor.broadcastOp = server.broadcastOp) ∧
    ((successor.callbacksRegister = server.callbacksRegister ++ [callback] ∧ answers = []) ∨
    ∃ result, successor.callbacksRegister = [] ∧
      answers = (server.callbacksRegister ++ [callback]).map
        fun waiting => ⟨waiting, result⟩) := by
  unfold LocalCollectiveServer.acceptPeer at admitted
  by_cases complete :
      (server.peers ++ [deviceId]).length = config.numDevices
  · simp only [if_pos complete] at admitted
    obtain ⟨result, _, admitted⟩ := of_bind admitted
    cases admitted
    exact ⟨⟨rfl, rfl, rfl, rfl⟩, Or.inr ⟨result, rfl, rfl⟩⟩
  · simp only [if_neg complete] at admitted
    cases admitted
    exact ⟨⟨rfl, rfl, rfl, rfl⟩, Or.inl ⟨rfl, rfl⟩⟩

theorem acceptPeer_accounted {deviceId : PeerId} {device : Device}
    {config : CollectiveConfig Address} {callback : Callback}
    (admitted : server.acceptPeer deviceId device config callback replies =
      .ok (successor, answers)) :
    Accounted server [callback] successor answers := by
  intro other
  obtain ⟨⟨_, allReduce, reduce, broadcast⟩, outcome⟩ := acceptPeer_cases admitted
  have register : (answers.map LocalAnswer.callback).count other +
      successor.callbacksRegister.count other =
      server.callbacksRegister.count other + [callback].count other := by
    rcases outcome with ⟨stored, rfl⟩ | ⟨result, stored, rfl⟩
    · rw [stored, List.map_nil, List.count_nil, List.count_append]
      omega
    · rw [stored, List.map_map, List.count_nil, ← List.count_append]
      exact congrArg (List.count other) (List.map_id _)
  simp only [count_waiting, allReduce, reduce, broadcast]
  omega

/-- A registration is refused or makes a peer. -/
theorem register_cases [DecidableEq Address] {deviceId : PeerId}
    {device : Device} {config : CollectiveConfig Address}
    {callback : Callback}
    (processed : server.processRegisterMessage deviceId device config
      callback replies = .ok (successor, answers)) :
    (∃ error, server.refuse callback error = .ok (successor, answers)) ∨
      server.acceptPeer deviceId device config callback replies = .ok (successor, answers) := by
  rw [processRegisterMessage] at processed
  split at processed
  case isTrue => exact Or.inl ⟨_, processed⟩
  case isFalse =>
    split at processed
    case isTrue => exact Or.inl ⟨_, processed⟩
    case isFalse =>
      split at processed
      case isTrue => exact Or.inr processed
      case isFalse =>
        split at processed
        case isTrue => exact Or.inl ⟨_, processed⟩
        case isFalse => exact Or.inr processed

/-- A peer that finishes is refused or leaves the others. -/
theorem finish_cases {id : PeerId} {callback : Callback}
    (processed : server.processFinishMessage id callback = .ok (successor, answers)) :
    (∃ error, server.refuse callback error = .ok (successor, answers)) ∨
      ∃ client, successor = { server with
          peers := server.peers.filter fun peer => peer ≠ id
          globalClient := client } ∧
        answers = [⟨callback, .ok .done⟩] := by
  rw [processFinishMessage] at processed
  split at processed
  case isTrue => exact Or.inl ⟨_, processed⟩
  case isFalse =>
    split at processed
    case isTrue => exact Or.inl ⟨_, processed⟩
    case isFalse =>
      cases processed
      exact Or.inr ⟨_, rfl, rfl⟩

/-- What becomes of a call behind some earlier ones, where `store` replaces the
operation that they wait for: it is refused, ends the operation with an error,
waits too, or is the last one and the operation answers all calls. -/
inductive CallOutcome {Operation : Type} (server : LocalCollectiveServer Tensor Device Address)
    (store : Option Operation → LocalCollectiveServer Tensor Device Address)
    (callbacks : Operation → List Callback)
    (executes : Operation → List (LocalAnswer Tensor) → Prop)
    (earlier : List Callback) (own : Callback) :
    LocalCollectiveServer Tensor Device Address → List (LocalAnswer Tensor) → Prop
  | refused {error : CollectiveError} :
      CallOutcome server store callbacks executes earlier own server (failAll [own] error)
  | fails {error : CollectiveError} :
      CallOutcome server store callbacks executes earlier own (store none) (failAll earlier error)
  | waits {called : Operation} (joins : callbacks called = earlier ++ [own]) :
      CallOutcome server store callbacks executes earlier own (store (some called)) []
  | completes {called : Operation} {answers : List (LocalAnswer Tensor)}
      (joins : callbacks called = earlier ++ [own])
      (executed : executes called answers) :
      CallOutcome server store callbacks executes earlier own (store none) answers

/-- The callbacks of another operation are held in place of the earlier ones. -/
def Replaces {Operation : Type} (server : LocalCollectiveServer Tensor Device Address)
    (store : Option Operation → LocalCollectiveServer Tensor Device Address)
    (callbacks : Operation → List Callback) (earlier : List Callback) :
    Prop :=
  ∀ operation callback, (store operation).waiting.count callback + earlier.count callback =
      server.waiting.count callback + (pendingCallbacks callbacks operation).count callback

/-- The earlier calls are answered and no other operation is stored. -/
theorem Replaces.failed {Operation : Type}
    {store : Option Operation → LocalCollectiveServer Tensor Device Address}
    {callbacks : Operation → List Callback} {earlier : List Callback}
    (replaces : Replaces server store callbacks earlier)
    (error : CollectiveError) :
    Accounted server [] (store none) (failAll earlier error) := by
  intro other
  have emptied := replaces none other
  rw [pendingCallbacks, List.count_nil] at emptied
  rw [map_callback_failAll]
  omega

theorem CallOutcome.accounted {Operation : Type}
    {store : Option Operation → LocalCollectiveServer Tensor Device Address}
    {callbacks : Operation → List Callback}
    {executes : Operation → List (LocalAnswer Tensor) → Prop}
    {earlier : List Callback} {own : Callback}
    (outcome : CallOutcome server store callbacks executes earlier own successor answers)
    (replaces : Replaces server store callbacks earlier)
    (answersAll : ∀ operation answers, executes operation answers →
      answers.map LocalAnswer.callback = callbacks operation) :
    Accounted server [own] successor answers := by
  intro other
  have emptied := replaces none other
  rw [pendingCallbacks, List.count_nil] at emptied
  cases outcome with
  | refused => exact refuse_accounted rfl other
  | @fails error =>
      have failed := replaces.failed error other
      rw [List.count_nil] at failed
      omega
  | @waits called joins =>
      have stored := replaces (some called) other
      rw [pendingCallbacks, joins, List.count_append] at stored
      rw [List.map_nil, List.count_nil]
      omega
  | completes joins executed =>
      rw [answersAll _ _ executed, joins, List.count_append]
      omega

theorem replaces_allReduce : Replaces server
    (fun operation => { server with allReduceOp := operation })
    AllReduceOp.callbacks
    (pendingCallbacks AllReduceOp.callbacks server.allReduceOp) := by
  intro operation callback
  simp only [count_waiting]
  omega

theorem replaces_reduce : Replaces server (fun operation => { server with reduceOp := operation })
    ReduceOp.callbacks
    (pendingCallbacks ReduceOp.callbacks server.reduceOp) := by
  intro operation callback
  simp only [count_waiting]
  omega

theorem replaces_broadcast : Replaces server
    (fun operation => { server with broadcastOp := operation })
    BroadcastOp.callbacks
    (pendingCallbacks BroadcastOp.callbacks server.broadcastOp) := by
  intro operation callback
  simp only [count_waiting]
  omega

/-- An operation without calls is as good as none. -/
theorem callbacks_getD {Operation : Type}
    (callbacks : Operation → List Callback) (pending : Option Operation)
    {fresh : Operation} (empty : callbacks fresh = []) :
    callbacks (pending.getD fresh) = pendingCallbacks callbacks pending := by
  cases pending with
  | none => exact empty
  | some => rfl

theorem allReduce_cases {peerId : PeerId} {tensor : Tensor}
    {op : ReduceOperation} {callback : Callback}
    (processed : server.processAllReduceMessage B peerId tensor op callback
      replies = .ok (successor, answers)) :
    CallOutcome server (fun operation => { server with allReduceOp := operation })
      AllReduceOp.callbacks
      (fun called answers => ∃ (config : CollectiveConfig Address)
        (global : Bool), called.execute B config global replies = .ok answers)
      (pendingCallbacks AllReduceOp.callbacks server.allReduceOp) callback
      successor answers := by
  rw [processAllReduceMessage] at processed
  split at processed
  case isTrue =>
    cases processed
    exact .refused
  case isFalse =>
    have before := callbacks_getD AllReduceOp.callbacks server.allReduceOp
      (show AllReduceOp.callbacks ⟨[], op, B.shape tensor⟩ = [] from rfl)
    dsimp only at processed
    split at processed
    case h_1 called registered =>
      obtain ⟨_, _, rfl, _⟩ := AllReduceOp.registerCall_eq_ok registered
      obtain ⟨config, _, processed⟩ := of_bind processed
      obtain ⟨results, executed, processed⟩ := of_bind processed
      cases processed
      refine .completes ?_ ⟨config, _, executed⟩
      rw [← before, AllReduceOp.callbacks, List.map_append]
      rfl
    case h_2 called registered =>
      obtain ⟨_, _, rfl, _⟩ := AllReduceOp.registerCall_eq_ok registered
      cases processed
      refine .waits ?_
      rw [← before, AllReduceOp.callbacks, List.map_append]
      rfl
    case h_3 =>
      cases processed
      rw [AllReduceOp.fail, before]
      exact .fails

theorem reduce_cases {peerId : PeerId} {tensor : Tensor}
    {op : ReduceOperation} {root : PeerId} {callback : Callback}
    (processed : server.processReduceMessage B peerId tensor op root
      callback replies = .ok (successor, answers)) :
    CallOutcome server (fun operation => { server with reduceOp := operation }) ReduceOp.callbacks
      (fun called answers => ∃ (config : CollectiveConfig Address) (global : Bool),
        called.execute B root config global replies = .ok answers)
      (pendingCallbacks ReduceOp.callbacks server.reduceOp) callback
      successor answers := by
  rw [processReduceMessage] at processed
  split at processed
  case isTrue =>
    cases processed
    exact .refused
  case isFalse =>
    have before := callbacks_getD ReduceOp.callbacks server.reduceOp
      (show ReduceOp.callbacks ⟨[], op, root, B.shape tensor⟩ = [] from rfl)
    dsimp only at processed
    split at processed
    case h_1 called registered =>
      obtain ⟨_, _, _, rfl, _⟩ := ReduceOp.registerCall_eq_ok registered
      obtain ⟨config, _, processed⟩ := of_bind processed
      obtain ⟨results, executed, processed⟩ := of_bind processed
      cases processed
      refine .completes ?_ ⟨config, _, executed⟩
      rw [← before, ReduceOp.callbacks, List.map_append]
      rfl
    case h_2 called registered =>
      obtain ⟨_, _, _, rfl, _⟩ := ReduceOp.registerCall_eq_ok registered
      cases processed
      refine .waits ?_
      rw [← before, ReduceOp.callbacks, List.map_append]
      rfl
    case h_3 =>
      cases processed
      rw [ReduceOp.fail, before]
      exact .fails

theorem broadcast_cases {caller : PeerId} {tensor : Option Tensor} {callback : Callback}
    (processed : server.processBroadcastMessage B caller tensor callback
      replies = .ok (successor, answers)) :
    CallOutcome server (fun operation => { server with broadcastOp := operation })
      BroadcastOp.callbacks
      (fun called answers => ∃ (config : CollectiveConfig Address)
        (global : Bool), called.execute B config global replies = .ok answers)
      (pendingCallbacks BroadcastOp.callbacks server.broadcastOp) callback
      successor answers := by
  rw [processBroadcastMessage] at processed
  split at processed
  case isTrue =>
    cases processed
    exact .refused
  case isFalse =>
    split at processed
    case isTrue =>
      cases processed
      exact .refused
    case isFalse =>
      obtain ⟨device, _, processed⟩ := of_bind processed
      have before := callbacks_getD BroadcastOp.callbacks server.broadcastOp
        (show BroadcastOp.callbacks ⟨[], none, none⟩ = [] from rfl)
      dsimp only at processed
      split at processed
      case h_1 called registered =>
        obtain ⟨_, rfl, _⟩ := BroadcastOp.registerCall_eq_ok registered
        obtain ⟨config, _, processed⟩ := of_bind processed
        obtain ⟨results, executed, processed⟩ := of_bind processed
        cases processed
        refine .completes ?_ ⟨config, _, executed⟩
        rw [← before, BroadcastOp.callbacks, List.map_append]
        rfl
      case h_2 called registered =>
        obtain ⟨_, rfl, _⟩ := BroadcastOp.registerCall_eq_ok registered
        cases processed
        refine .waits ?_
        rw [← before, BroadcastOp.callbacks, List.map_append]
        rfl
      case h_3 =>
        cases processed
        rw [BroadcastOp.fail, before]
        exact .fails

theorem step_accounted [DecidableEq Address] {event : ServerEvent Tensor Device Address}
    (stepped : serverStep B server event = .ok (successor, answers)) :
    Accounted server event.message.callbacks successor answers := by
  obtain ⟨message, replies⟩ := event
  cases message with
  | register deviceId device config callback =>
      rcases register_cases stepped with ⟨_, refused⟩ | admitted
      · exact refuse_accounted refused
      · exact acceptPeer_accounted admitted
  | allReduce deviceId tensor op callback =>
      exact (allReduce_cases stepped).accounted replaces_allReduce
        fun _ _ ⟨_, _, executed⟩ => AllReduceOp.execute_callbacks executed
  | reduce deviceId tensor op root callback =>
      exact (reduce_cases stepped).accounted replaces_reduce
        fun _ _ ⟨_, _, executed⟩ => ReduceOp.execute_callbacks executed
  | broadcast deviceId tensor callback =>
      exact (broadcast_cases stepped).accounted replaces_broadcast
        fun _ _ ⟨_, _, executed⟩ => BroadcastOp.execute_callbacks executed
  | reset =>
      cases stepped
      intro other
      simp only [count_waiting, reset, pendingCallbacks, List.map_nil, List.count_nil]
      omega
  | finish id callback =>
      rcases finish_cases stepped with ⟨_, refused⟩ | ⟨_, rfl, rfl⟩
      · exact refuse_accounted refused
      · intro other
        simp only [count_waiting, List.map_cons, List.map_nil, Message.callbacks]
        omega

end Step

section Disagreements

open LocalCollectiveServer

variable {B : Backend Tensor Device} {server : LocalCollectiveServer Tensor Device Address}

/-- A call disagrees with the operation it would join: the error, the callbacks
of the calls before it, and its own. -/
inductive Disagrees (B : Backend Tensor Device)
    (server : LocalCollectiveServer Tensor Device Address) :
    Message Tensor Device Address → CollectiveError → List Callback → Callback → Prop
  | allReduceShape {peerId : PeerId} {tensor : Tensor}
      {op : ReduceOperation} {callback : Callback}
      {operation : AllReduceOp Tensor} :
      peerId ∈ server.peers → server.allReduceOp = some operation →
      operation.shape ≠ B.shape tensor →
      Disagrees B server (.allReduce peerId tensor op callback)
        .allReduceShapeMismatch operation.callbacks callback
  | allReduceOperation {peerId : PeerId} {tensor : Tensor}
      {op : ReduceOperation} {callback : Callback}
      {operation : AllReduceOp Tensor} :
      peerId ∈ server.peers → server.allReduceOp = some operation →
      operation.shape = B.shape tensor → operation.op ≠ op →
      Disagrees B server (.allReduce peerId tensor op callback)
        .allReduceOperationMismatch operation.callbacks callback
  | reduceShape {peerId root : PeerId} {tensor : Tensor}
      {op : ReduceOperation} {callback : Callback}
      {operation : ReduceOp Tensor} :
      root ∈ server.peers → server.reduceOp = some operation →
      operation.shape ≠ B.shape tensor →
      Disagrees B server (.reduce peerId tensor op root callback)
        .reduceShapeMismatch operation.callbacks callback
  | reduceOperation {peerId root : PeerId} {tensor : Tensor}
      {op : ReduceOperation} {callback : Callback}
      {operation : ReduceOp Tensor} :
      root ∈ server.peers → server.reduceOp = some operation →
      operation.shape = B.shape tensor → operation.op ≠ op →
      Disagrees B server (.reduce peerId tensor op root callback)
        .reduceOperationMismatch operation.callbacks callback
  | reduceRoot {peerId root : PeerId} {tensor : Tensor}
      {op : ReduceOperation} {callback : Callback}
      {operation : ReduceOp Tensor} :
      root ∈ server.peers → server.reduceOp = some operation →
      operation.shape = B.shape tensor → operation.op = op →
      operation.root ≠ root →
      Disagrees B server (.reduce peerId tensor op root callback)
        .reduceRootMismatch operation.callbacks callback
  | broadcastTensors {caller : PeerId} {tensor : Option Tensor}
      {callback : Callback} {operation : BroadcastOp Tensor Device} :
      server.config.isSome → caller ∈ server.peers →
      server.broadcastOp = some operation → tensor.isSome →
      operation.tensor.isSome →
      Disagrees B server (.broadcast caller tensor callback)
        .broadcastMultipleTensors operation.callbacks callback

section Failed

variable {successor : LocalCollectiveServer Tensor Device Address}
  {answers : List (LocalAnswer Tensor)} {error : CollectiveError}
  {peerId : PeerId} {callback : Callback}
  {replies : GlobalReplies Tensor Device}

theorem allReduce_failed {operation : AllReduceOp Tensor} {tensor : Tensor}
    {op : ReduceOperation} (member : peerId ∈ server.peers)
    (pending : server.allReduceOp = some operation)
    (failed : operation.registerCall B peerId tensor callback op
      server.peers.length = .error error)
    (processed : server.processAllReduceMessage B peerId tensor op callback
      replies = .ok (successor, answers)) :
    answers = failAll operation.callbacks error ∧ Accounted server [] successor answers := by
  rw [processAllReduceMessage, if_neg (not_not_intro member)] at processed
  simp only [pending, Option.getD_some, failed] at processed
  cases processed
  have forgotten := (@replaces_allReduce _ _ _ server).failed error
  rw [pending] at forgotten
  exact ⟨rfl, forgotten⟩

theorem reduce_failed {operation : ReduceOp Tensor} {tensor : Tensor}
    {op : ReduceOperation} {root : PeerId} (member : root ∈ server.peers)
    (pending : server.reduceOp = some operation)
    (failed : operation.registerCall B peerId tensor callback op root
      server.peers.length = .error error)
    (processed : server.processReduceMessage B peerId tensor op root
      callback replies = .ok (successor, answers)) :
    answers = failAll operation.callbacks error ∧ Accounted server [] successor answers := by
  rw [processReduceMessage, if_neg (not_not_intro member)] at processed
  simp only [pending, Option.getD_some, failed] at processed
  cases processed
  have forgotten := (@replaces_reduce _ _ _ server).failed error
  rw [pending] at forgotten
  exact ⟨rfl, forgotten⟩

theorem broadcast_failed {operation : BroadcastOp Tensor Device}
    {tensor : Option Tensor} (configured : server.config.isSome)
    (member : peerId ∈ server.peers)
    (pending : server.broadcastOp = some operation)
    (failed : ∀ device, operation.registerCall peerId tensor callback device
      server.peers.length = .error error)
    (processed : server.processBroadcastMessage B peerId tensor callback
      replies = .ok (successor, answers)) :
    answers = failAll operation.callbacks error ∧ Accounted server [] successor answers := by
  have known : ¬server.config.isNone := by
    rw [Option.isNone_iff_eq_none]
    exact Option.isSome_iff_ne_none.mp configured
  rw [processBroadcastMessage, if_neg known, if_neg (not_not_intro member)] at processed
  obtain ⟨device, _, processed⟩ := of_bind processed
  simp only [pending, Option.getD_some, failed] at processed
  cases processed
  have forgotten := (@replaces_broadcast _ _ _ server).failed error
  rw [pending] at forgotten
  exact ⟨rfl, forgotten⟩

end Failed

variable {event : ServerEvent Tensor Device Address}
  {error : CollectiveError} {earlier : List Callback} {own : Callback}

theorem Disagrees.own_callback (disagrees : Disagrees B server event.message error earlier own) :
    event.message.callbacks = [own] := by
  obtain ⟨message, replies⟩ := event
  cases disagrees <;> rfl

/-- The error is never the one of a closed channel. -/
theorem Disagrees.error_ne (disagrees : Disagrees B server event.message error earlier own) :
    error ≠ .localServerMissing := by
  obtain ⟨message, replies⟩ := event
  cases disagrees <;> exact nofun

/-- The calls of the operation get the error, and the call that disagrees with
them is forgotten. -/
theorem Disagrees.step [DecidableEq Address]
    {successor : LocalCollectiveServer Tensor Device Address}
    {answers : List (LocalAnswer Tensor)}
    (disagrees : Disagrees B server event.message error earlier own)
    (stepped : serverStep B server event = .ok (successor, answers)) :
    answers = failAll earlier error ∧ Accounted server [] successor answers := by
  obtain ⟨message, replies⟩ := event
  cases disagrees with
  | allReduceShape member pending different =>
      refine allReduce_failed member pending ?_ stepped
      rw [AllReduceOp.registerCall, if_pos different]
  | allReduceOperation member pending shapes different =>
      refine allReduce_failed member pending ?_ stepped
      rw [AllReduceOp.registerCall, if_neg (not_not_intro shapes), if_pos different]
  | reduceShape member pending different =>
      refine reduce_failed member pending ?_ stepped
      rw [ReduceOp.registerCall, if_pos different]
  | reduceOperation member pending shapes different =>
      refine reduce_failed member pending ?_ stepped
      rw [ReduceOp.registerCall, if_neg (not_not_intro shapes), if_pos different]
  | reduceRoot member pending shapes ops different =>
      refine reduce_failed member pending ?_ stepped
      rw [ReduceOp.registerCall, if_neg (not_not_intro shapes),
        if_neg (not_not_intro ops), if_pos different]
  | broadcastTensors configured member pending brings has =>
      refine broadcast_failed configured member pending ?_ stepped
      intro device
      rw [BroadcastOp.registerCall, if_pos ⟨brings, has⟩]

end Disagreements

section Runs

open LocalCollectiveServer

theorem wait_of_mem {server : LocalCollectiveServer Tensor Device Address}
    {answers : List (LocalAnswer Tensor)}
    (once : (answers.map LocalAnswer.callback).Nodup)
    {callback : Callback} {result : Except CollectiveError (Reply Tensor)}
    (sent : ⟨callback, result⟩ ∈ answers) :
    server.wait answers callback = some result := by
  have first : answers.find? (fun answer => answer.callback = callback) =
      some ⟨callback, result⟩ := by
    induction answers with
    | nil => cases sent
    | cons answer rest ih =>
        rw [List.map_cons, List.nodup_cons] at once
        rcases List.mem_cons.mp sent with rfl | later
        · exact List.find?_cons_of_pos (decide_eq_true rfl)
        · have different : answer.callback ≠ callback := by
            intro same
            rw [same] at once
            exact once.1 (List.mem_map_of_mem later)
          rw [List.find?_cons_of_neg (by simpa using different)]
          exact ih once.2 later
  rw [wait, first]

theorem wait_of_not_mem {server : LocalCollectiveServer Tensor Device Address}
    {answers : List (LocalAnswer Tensor)}
    {callback : Callback}
    (silent : callback ∉ answers.map LocalAnswer.callback)
    (gone : callback ∉ server.waiting) :
    server.wait answers callback = some (.error .localServerMissing) := by
  have none : answers.find? (fun answer => answer.callback = callback) =
      none := by
    apply List.find?_eq_none.mpr
    intro answer among same
    apply silent
    rw [← of_decide_eq_true same]
    exact List.mem_map_of_mem among
  rw [wait, none]
  exact if_neg gone

variable [DecidableEq Address] {B : Backend Tensor Device}

/-- The steps of a run of the server. -/
abbrev ServerRun (B : Backend Tensor Device)
    (steps : List (LocalCollectiveServer Tensor Device Address ×
      ServerEvent Tensor Device Address))
    (server : LocalCollectiveServer Tensor Device Address) : Prop :=
  Traced (serverNext B) (fun _ _ => True) .new steps server

variable {steps : List (LocalCollectiveServer Tensor Device Address ×
    ServerEvent Tensor Device Address)}
  {server : LocalCollectiveServer Tensor Device Address}

theorem answersOf_eq {successor : LocalCollectiveServer Tensor Device Address}
    {event : ServerEvent Tensor Device Address}
    {answers : List (LocalAnswer Tensor)}
    (stepped : serverStep B server event = .ok (successor, answers)) :
    answersOf B server event = answers := by
  rw [answersOf, stepped]

/-- Over a run, each callback is answered and stored at most as often as it was
brought, and once less if its call was forgotten. -/
theorem run_accounted (run : ServerRun B steps server) (callback : Callback) :
    ((answered B steps).map LocalAnswer.callback).count callback +
        server.waiting.count callback ≤ (submitted steps).count callback ∧
      ∀ step ∈ steps, ∀ error earlier, Disagrees B step.1 step.2.message error earlier callback →
        ((answered B steps).map LocalAnswer.callback).count callback +
          server.waiting.count callback < (submitted steps).count callback := by
  induction run with
  | start => exact ⟨le_refl 0, fun _ absent => (List.not_mem_nil absent).elim⟩
  | @next steps state successor event before _ moved ih =>
      obtain ⟨answers, stepped⟩ := (serverNext_eq_some_iff ..).mp moved
      have now : answered B (steps ++ [(state, event)]) = answered B steps ++ answers := by
        rw [answered, answered, List.flatMap_append, List.flatMap_singleton, answersOf_eq stepped]
      have brought : submitted (steps ++ [(state, event)]) =
          submitted steps ++ event.message.callbacks := by
        rw [submitted, submitted, List.flatMap_append, List.flatMap_singleton]
      have accounted := step_accounted stepped callback
      obtain ⟨most, fewer⟩ := ih
      rw [now, brought, List.map_append, List.count_append, List.count_append]
      refine ⟨by omega, ?_⟩
      intro step among error earlier disagrees
      rcases List.mem_append.mp among with past | present
      · have missing := fewer step past error earlier disagrees
        omega
      · rw [List.mem_singleton.mp present] at disagrees
        have forgotten := (disagrees.step stepped).2 callback
        rw [disagrees.own_callback, List.count_singleton_self]
        simp only [List.count_nil] at forgotten
        omega

/-- The answers of one step of a run are among the answers of the run. -/
theorem Disagrees.answered (run : ServerRun B steps server)
    {step : LocalCollectiveServer Tensor Device Address ×
      ServerEvent Tensor Device Address} (among : step ∈ steps)
    {error : CollectiveError} {earlier : List Callback} {own : Callback}
    (disagrees : Disagrees B step.1 step.2.message error earlier own) :
    ∀ callback ∈ earlier, ⟨callback, .error error⟩ ∈ answered B steps := by
  obtain ⟨successor, moved⟩ := run.step_of_mem among
  obtain ⟨answers, stepped⟩ := (serverNext_eq_some_iff ..).mp moved
  intro callback member
  refine List.mem_flatMap.mpr ⟨step, among, ?_⟩
  rw [answersOf_eq stepped, (disagrees.step stepped).1]
  exact List.mem_map_of_mem member

/-- All participants of a failed operation get its error. -/
def EveryoneLearns (B : Backend Tensor Device)
    (steps : List (LocalCollectiveServer Tensor Device Address ×
      ServerEvent Tensor Device Address))
    (server : LocalCollectiveServer Tensor Device Address) : Prop :=
  ∀ step ∈ steps, ∀ error earlier own, Disagrees B step.1 step.2.message error earlier own →
    ∀ callback ∈ earlier ++ [own], server.wait (answered B steps) callback = some (.error error)

/-- The calls that are there learn why their operation fails, and the one that
makes it fail is only told that the server is missing. -/
theorem failure_answers (run : ServerRun B steps server) (channels : (submitted steps).Nodup) :
    ((answered B steps).map LocalAnswer.callback).Nodup ∧
      (∀ step ∈ steps, ∀ error earlier own, Disagrees B step.1 step.2.message error earlier own →
        (∀ callback ∈ earlier, server.wait (answered B steps) callback = some (.error error)) ∧
        server.wait (answered B steps) own = some (.error .localServerMissing)) ∧
      (EveryoneLearns B steps server ↔ ∀ step ∈ steps, ∀ error earlier own,
          ¬Disagrees B step.1 step.2.message error earlier own) := by
  have once : ((answered B steps).map LocalAnswer.callback).Nodup := by
    apply List.nodup_iff_count_le_one.mpr
    intro callback
    have most := (run_accounted run callback).1
    have single := List.nodup_iff_count_le_one.mp channels callback
    omega
  have told : ∀ step ∈ steps, ∀ error earlier own,
      Disagrees B step.1 step.2.message error earlier own →
      (∀ callback ∈ earlier, server.wait (answered B steps) callback = some (.error error)) ∧
      server.wait (answered B steps) own = some (.error .localServerMissing) := by
    intro step among error earlier own disagrees
    constructor
    · intro callback member
      exact wait_of_mem once (disagrees.answered run among callback member)
    · have fewer := (run_accounted run own).2 step among error earlier disagrees
      have single := List.nodup_iff_count_le_one.mp channels own
      apply wait_of_not_mem
      · apply List.count_eq_zero.mp
        omega
      · apply List.count_eq_zero.mp
        omega
  refine ⟨once, told, ?_, ?_⟩
  · intro everyone step among error earlier own disagrees
    have learnt := everyone step among error earlier own disagrees own
      (List.mem_append_right _ (List.mem_singleton_self own))
    rw [(told step among error earlier own disagrees).2] at learnt
    cases learnt
    exact disagrees.error_ne rfl
  · intro agree step among error earlier own disagrees
    exact absurd disagrees (agree step among error earlier own)

/-- Two devices of which the first has called with two elements and the second
with one. -/
def shapesDiffer : List (ServerEvent (List Nat) Unit Unit) :=
  oneCall ++ [localEvent (.allReduce 1 [3] .sum 3)]

theorem failure_answers_two :
    let run := trail (serverNext listBackend) .new shapesDiffer
    run.1.length = 4 ∧ ((answered listBackend run.1).map LocalAnswer.callback).Nodup := by
  refine ⟨by decide, (failure_answers (traced_trail _ _ _) ?_).1⟩
  decide

/-- The second caller is told that the server is missing. -/
theorem disagreeing_caller_missing :
    let run := trail (serverNext listBackend) .new shapesDiffer
    ServerRun listBackend run.1 run.2 ∧ (submitted run.1).Nodup ∧
      ¬EveryoneLearns listBackend run.1 run.2 := by
  refine ⟨traced_trail _ _ _, by decide, ?_⟩
  intro everyone
  have disagrees : ∃ step, (trail (serverNext listBackend) .new shapesDiffer).1[3]? = some step ∧
      Disagrees listBackend step.1 step.2.message .allReduceShapeMismatch [2] 3 := by
    refine ⟨_, rfl, ?_⟩
    exact @Disagrees.allReduceShape _ _ _ _ _ 1 [3] .sum 3
      ⟨[⟨0, [1, 2], 2⟩], .sum, [2]⟩ (by decide) rfl (by decide)
  obtain ⟨step, among, disagrees⟩ := disagrees
  have learnt := everyone step (List.mem_of_getElem? among) _ _ _ disagrees 3 (by decide)
  cases learnt

end Runs

end RuCCL.Local
