import RuCCL.Local.ServerCallbacks

/-!
# Who may call a reduce

All-reduces and broadcasts are refused when their caller has not registered.  A
reduce is refused when its root has not, whoever calls: with the root on another
node every local call is refused, and a stranger that names a local root is not.
-/

namespace RuCCL.Local

open RuCCL.Library RuCCL.Global

variable {Tensor Device Address : Type}

/-- The result of a refused message. -/
def unregistered : Except CollectiveError (Reply Tensor) := .error .registerNotFirstOperation

/-- None of the answers is a refusal. -/
def NoneRefused (answers : List (LocalAnswer Tensor)) : Prop :=
  ∀ answer ∈ answers, answer.result ≠ unregistered

section Refused

variable [DecidableEq Address] (B : Backend Tensor Device)

/-- The event is answered with a refusal. -/
def Refused (server : LocalCollectiveServer Tensor Device Address)
    (event : ServerEvent Tensor Device Address) (callback : Callback) :
    Prop :=
  ⟨callback, unregistered⟩ ∈ answersOf B server event

/-- What the server answers to a call that completes or joins a reduce whose root
is on another node. -/
def RemoteRootServed (server : LocalCollectiveServer Tensor Device Address)
    (event : ServerEvent Tensor Device Address) (callback : Callback) :
    Prop :=
  let callbacks := pendingCallbacks ReduceOp.callbacks server.reduceOp ++ [callback]
  ∃ successor answers, serverStep B server event = .ok (successor, answers) ∧
      if callbacks.length = server.peers.length then
        answers = callbacks.map fun waiting =>
          ⟨waiting, .ok (.optional none)⟩
      else
        answers = [] ∧ pendingCallbacks ReduceOp.callbacks successor.reduceOp = callbacks

/-- A reduce is refused for its caller only; with a root on another node its
callers all get nothing in the end. -/
structure ChecksCaller (server : LocalCollectiveServer Tensor Device Address)
    (peerId : PeerId) (tensor : Tensor) (op : ReduceOperation)
    (root : PeerId) (callback : Callback)
    (replies : GlobalReplies Tensor Device) : Prop where
  refused_iff :
    Refused B server ⟨.reduce peerId tensor op root callback, replies⟩
      callback ↔ peerId ∉ server.peers
  remoteRoot :
    server.globalClient.isSome → root ∉ server.peers →
    peerId ∈ server.peers →
    (∀ operation, server.reduceOp = some operation →
      operation.shape = B.shape tensor ∧ operation.op = op ∧ operation.root = root) →
    (∀ localSum strategy, replies.reduce localSum strategy root op = .ok none) →
    RemoteRootServed B server ⟨.reduce peerId tensor op root callback, replies⟩ callback

end Refused

section Answers

variable {B : Backend Tensor Device} {config : CollectiveConfig Address}
  {global : Bool} {replies : GlobalReplies Tensor Device}
  {answers : List (LocalAnswer Tensor)}

theorem noneRefused_failAll {callbacks : List Callback}
    {error : CollectiveError} (other : error ≠ .registerNotFirstOperation) :
    NoneRefused (failAll callbacks error : List (LocalAnswer Tensor)) := by
  intro answer among
  obtain ⟨callback, _, rfl⟩ := List.mem_map.mp among
  intro same
  exact other (Except.error.inj same)

theorem noneRefused_deliver (root : PeerId)
    (calls : List (TensorCall Tensor)) (result : Option Tensor) :
    NoneRefused (ReduceOp.deliver root calls result) := by
  induction calls generalizing result with
  | nil => exact fun _ absent => (List.not_mem_nil absent).elim
  | cons call rest ih =>
      rw [ReduceOp.deliver]
      split
      case isTrue =>
        intro answer among
        rcases List.mem_cons.mp among with rfl | behind
        · intro same
          cases same
        · exact ih none answer behind
      case isFalse =>
        intro answer among
        rcases List.mem_cons.mp among with rfl | behind
        · intro same
          cases same
        · exact ih result answer behind

/-- A reduce fails for its root or for the other nodes. -/
theorem ReduceOp.reduce_error {operation : ReduceOp Tensor} {error : CollectiveError}
    (reduced : operation.reduce B config global replies = .ok (.error error)) :
    error ≠ .registerNotFirstOperation := by
  obtain ⟨chosen, _, reduced⟩ := of_bind reduced
  cases chosen with
  | none =>
      cases reduced
      exact nofun
  | some localRoot =>
      obtain ⟨localSum, _, reduced⟩ := of_bind reduced
      cases global with
      | true =>
          obtain ⟨strategy, _, reduced⟩ := of_bind reduced
          cases answered : replies.reduce localSum strategy operation.root operation.op with
          | ok result =>
              rw [answered] at reduced
              cases reduced
          | error failure =>
              rw [answered] at reduced
              cases reduced
              exact nofun
      | false =>
          cases kind : operation.op with
          | sum => simp [kind] at reduced
          | mean => simp [kind] at reduced

theorem ReduceOp.execute_noneRefused {operation : ReduceOp Tensor} {root : PeerId}
    (executed : operation.execute B root config global replies = .ok answers) :
    NoneRefused answers := by
  obtain ⟨result, reduced, executed⟩ := of_bind executed
  cases result with
  | error error =>
      cases executed
      exact noneRefused_failAll (ReduceOp.reduce_error reduced)
  | ok tensor =>
      cases executed
      exact noneRefused_deliver _ _ _

theorem ReduceOp.registerCall_error {operation : ReduceOp Tensor}
    {caller root : PeerId} {input : Tensor} {resultSender : Callback}
    {op : ReduceOperation} {peerCount : Nat} {error : CollectiveError}
    (called : operation.registerCall B caller input resultSender op root
      peerCount = .error error) :
    error ≠ .registerNotFirstOperation := by
  rw [registerCall] at called
  split at called
  case isTrue =>
    cases called
    intro same
    cases same
  case isFalse =>
    split at called
    case isTrue =>
      cases called
      intro same
      cases same
    case isFalse =>
      split at called
      case isTrue =>
        cases called
        intro same
        cases same
      case isFalse => cases called

end Answers

section Check

open LocalCollectiveServer

variable [DecidableEq Address] {B : Backend Tensor Device}
  {server : LocalCollectiveServer Tensor Device Address}
  {peerId root : PeerId} {tensor : Tensor} {op : ReduceOperation}
  {callback : Callback} {replies : GlobalReplies Tensor Device}

omit [DecidableEq Address] in
/-- Behind the check no answer is a refusal. -/
theorem processReduceMessage_noneRefused {successor : LocalCollectiveServer Tensor Device Address}
    {answers : List (LocalAnswer Tensor)} (known : root ∈ server.peers)
    (processed : server.processReduceMessage B peerId tensor op root
      callback replies = .ok (successor, answers)) :
    NoneRefused answers := by
  rw [processReduceMessage, if_neg (not_not_intro known)] at processed
  dsimp only at processed
  split at processed
  case h_1 =>
    obtain ⟨config, _, processed⟩ := of_bind processed
    obtain ⟨results, executed, processed⟩ := of_bind processed
    cases processed
    exact ReduceOp.execute_noneRefused executed
  case h_2 =>
    cases processed
    exact fun _ absent => (List.not_mem_nil absent).elim
  case h_3 error called =>
    cases processed
    exact noneRefused_failAll (ReduceOp.registerCall_error called)

/-- The code asks for the root. -/
theorem refused_iff_root :
    Refused B server ⟨.reduce peerId tensor op root callback, replies⟩
      callback ↔ root ∉ server.peers := by
  constructor
  · intro refused known
    rw [Refused, answersOf] at refused
    split at refused
    case h_1 successor answers stepped =>
      exact processReduceMessage_noneRefused known stepped _ refused rfl
    case h_2 => cases refused
  · intro unknown
    have stepped : serverStep B server ⟨.reduce peerId tensor op root callback, replies⟩ =
          .ok (server, failAll [callback] .registerNotFirstOperation) :=
      if_pos unknown
    rw [Refused, answersOf, stepped]
    exact List.mem_singleton.mpr rfl

/-- A reduce is checked as it should be exactly when caller and root are both
registered or both not. -/
theorem checksCaller_iff :
    ChecksCaller B server peerId tensor op root callback replies ↔
      (peerId ∈ server.peers ↔ root ∈ server.peers) := by
  constructor
  · intro checks
    have same := checks.refused_iff
    rw [refused_iff_root] at same
    exact (not_iff_not.mp same).symm
  · intro same
    refine ⟨?_, ?_⟩
    · rw [refused_iff_root]
      exact (not_congr same).symm
    · intro _ unknown known
      exact absurd (same.mp known) unknown

end Check

/-- Two devices of one node in a session of two nodes. -/
def twoNodes : CollectiveConfig Unit :=
  { twoDevices with
    numNodes := some 2
    globalAddress := some ()
    nodeAddress := some ()
    dataServicePort := some 9000 }

/-- Both devices of the node have registered. -/
def bothRegistered : List (ServerEvent (List Nat) Unit Unit) :=
  [localEvent (.register 0 () twoNodes 0), localEvent (.register 1 () twoNodes 1)]

/-- The server behind these registrations. -/
def registeredServer : LocalCollectiveServer (List Nat) Unit Unit :=
  (follow (serverNext listBackend) (fun _ _ => True) .new bothRegistered).getD .new

theorem registeredServer_reachable : Reachable (serverNext listBackend) .new registeredServer :=
  Reached.of_follow_isSome _ (by decide)

/-- A registered device names a root of the other node and is refused. -/
theorem remote_root_refused :
    Reachable (serverNext listBackend) .new registeredServer ∧
      registeredServer.globalClient.isSome ∧
      (0 : PeerId) ∈ registeredServer.peers ∧
      Refused listBackend registeredServer (localEvent (.reduce 0 [1, 2] .sum 7 2)) 2 ∧
      ¬ChecksCaller listBackend registeredServer 0 [1, 2] .sum 7 2
        (localEvent .reset).replies := by
  have refused : Refused listBackend registeredServer
      (localEvent (.reduce 0 [1, 2] .sum 7 2)) 2 :=
    refused_iff_root.mpr (by decide)
  refine ⟨registeredServer_reachable, by decide,
    by decide, refused, ?_⟩
  intro checks
  exact checks.refused_iff.mp refused (by decide)

end RuCCL.Local
