import RuCCL.Local.ServerCallbacks
import Mathlib.Data.List.Forall2

/-!
# Registrations of the local server

The peers that wait for the group to be complete are the last ones that have
registered, in the order of their callbacks.  A peer that leaves, or a reset,
takes peers away and leaves the callbacks as they are.
-/

namespace RuCCL.Local

open RuCCL.Library RuCCL.Global

variable {Tensor Device Address : Type}

section Unregistering

open LocalCollectiveServer

variable {B : Backend Tensor Device}
  {server successor : LocalCollectiveServer Tensor Device Address}
  {replies : GlobalReplies Tensor Device}
  {answers : List (LocalAnswer Tensor)}

/-- No registration succeeds with these answers. -/
def NoneDone (answers : List (LocalAnswer Tensor)) : Prop :=
  ∀ answer ∈ answers, answer.result ≠ .ok .done

/-- A step that keeps the peers and everyone who waits to become one. -/
structure Unregistering (server successor : LocalCollectiveServer Tensor Device Address)
    (answers : List (LocalAnswer Tensor)) : Prop where
  peers : successor.peers = server.peers
  callbacksRegister :
    successor.callbacksRegister = server.callbacksRegister
  noneDone : NoneDone answers

theorem noneDone_nil : NoneDone ([] : List (LocalAnswer Tensor)) :=
  fun _ absent => (List.not_mem_nil absent).elim

theorem noneDone_failAll (callbacks : List Callback) (error : CollectiveError) :
    NoneDone (failAll callbacks error : List (LocalAnswer Tensor)) := by
  intro answer among
  obtain ⟨callback, _, rfl⟩ := List.mem_map.mp among
  exact nofun

theorem noneDone_handOut {participants : List (PeerId × Callback)}
    {tensors : CollectiveTensorMap Tensor}
    (handed : handOut participants tensors = .ok answers) :
    NoneDone answers := by
  induction participants generalizing tensors answers with
  | nil =>
      rw [handOut] at handed
      split at handed
      case isTrue =>
        cases handed
        exact noneDone_nil
      case isFalse => cases handed
  | cons participant rest ih =>
      obtain ⟨caller, callback⟩ := participant
      rw [handOut] at handed
      obtain ⟨result, _, handed⟩ := of_bind handed
      obtain ⟨later, handedLater, handed⟩ := of_bind handed
      cases handed
      intro answer among
      rcases List.mem_cons.mp among with rfl | behind
      · intro same
        cases same
      · exact ih handedLater answer behind

theorem noneDone_deliver (root : PeerId) (calls : List (TensorCall Tensor))
    (result : Option Tensor) :
    NoneDone (ReduceOp.deliver root calls result) := by
  induction calls generalizing result with
  | nil => exact noneDone_nil
  | cons call rest ih =>
      rw [ReduceOp.deliver]
      split
      case isTrue =>
        intro answer among
        rcases List.mem_cons.mp among with rfl | behind
        · intro same
          cases same
        · exact ih none answer behind
      case isFalse =>
        intro answer among
        rcases List.mem_cons.mp among with rfl | behind
        · intro same
          cases same
        · exact ih result answer behind

theorem refuse_unregistering {callback : Callback} {error : CollectiveError}
    (refused : server.refuse callback error = .ok (successor, answers)) :
    Unregistering server successor answers := by
  cases refused
  exact ⟨rfl, rfl, noneDone_failAll _ _⟩

theorem CallOutcome.unregistering {Operation : Type}
    {store : Option Operation → LocalCollectiveServer Tensor Device Address}
    {callbacks : Operation → List Callback}
    {executes : Operation → List (LocalAnswer Tensor) → Prop}
    {earlier : List Callback} {own : Callback}
    (outcome : CallOutcome server store callbacks executes earlier own successor answers)
    (peers : ∀ operation, (store operation).peers = server.peers)
    (registering : ∀ operation, (store operation).callbacksRegister = server.callbacksRegister)
    (answersNone : ∀ operation answers, executes operation answers → NoneDone answers) :
    Unregistering server successor answers := by
  cases outcome with
  | refused => exact ⟨rfl, rfl, noneDone_failAll _ _⟩
  | fails => exact ⟨peers _, registering _, noneDone_failAll _ _⟩
  | waits => exact ⟨peers _, registering _, noneDone_nil⟩
  | completes _ executed => exact ⟨peers _, registering _, answersNone _ _ executed⟩

variable {config : CollectiveConfig Address} {global : Bool}

theorem AllReduceOp.execute_noneDone {operation : AllReduceOp Tensor}
    (executed : operation.execute B config global replies = .ok answers) :
    NoneDone answers := by
  obtain ⟨result, _, executed⟩ := of_bind executed
  cases result with
  | error error =>
      cases executed
      exact noneDone_failAll _ _
  | ok tensors => exact noneDone_handOut executed

theorem ReduceOp.execute_noneDone {operation : ReduceOp Tensor} {root : PeerId}
    (executed : operation.execute B root config global replies = .ok answers) :
    NoneDone answers := by
  obtain ⟨result, _, executed⟩ := of_bind executed
  cases result with
  | error error =>
      cases executed
      exact noneDone_failAll _ _
  | ok tensor =>
      cases executed
      exact noneDone_deliver _ _ _

theorem BroadcastOp.execute_noneDone {operation : BroadcastOp Tensor Device}
    (executed : operation.execute B config global replies = .ok answers) :
    NoneDone answers := by
  obtain ⟨result, _, executed⟩ := of_bind executed
  cases result with
  | error error =>
      cases executed
      exact noneDone_failAll _ _
  | ok tensors => exact noneDone_handOut executed

end Unregistering

section Waiting

open LocalCollectiveServer

/-- The steps of a run of the server. -/
abbrev ServerSteps (Tensor Device Address : Type) :=
  List (LocalCollectiveServer Tensor Device Address × ServerEvent Tensor Device Address)

/-- A message that some peer registers with. -/
def Message.Registers (message : Message Tensor Device Address)
    (callback : Callback) (peer : PeerId) : Prop :=
  ∃ device config, message = .register peer device config callback

/-- Only one peer has registered with this callback. -/
structure BelongsTo (steps : ServerSteps Tensor Device Address)
    (callback : Callback) (peer : PeerId) : Prop where
  brought : callback ∈ submitted steps
  unique : ∀ step ∈ steps, ∀ other, step.2.message.Registers callback other → other = peer

/-- The callbacks belong to the last peers. -/
def InOrder (steps : ServerSteps Tensor Device Address)
    (server : LocalCollectiveServer Tensor Device Address) : Prop :=
  ∃ settled pending, server.peers = settled ++ pending ∧
    List.Forall₂ (BelongsTo steps) server.callbacksRegister pending

/-- The peers that wait for the group to be complete. -/
def waitingPeers (server : LocalCollectiveServer Tensor Device Address) :
    List PeerId :=
  server.peers.drop (server.peers.length - server.callbacksRegister.length)

/-- Nobody who waits is taken away. -/
def KeepsWaiting (server : LocalCollectiveServer Tensor Device Address)
    (event : ServerEvent Tensor Device Address) : Prop :=
  match event.message with
  | .reset => server.callbacksRegister = []
  | .finish id _ => id ∉ waitingPeers server
  | _ => True

variable {steps : ServerSteps Tensor Device Address}
  {server successor : LocalCollectiveServer Tensor Device Address}
  {event : ServerEvent Tensor Device Address}
  {callback : Callback} {peer : PeerId}

theorem submitted_append :
    submitted (steps ++ [(server, event)]) = submitted steps ++ event.message.callbacks := by
  rw [submitted, submitted, List.flatMap_append, List.flatMap_singleton]

theorem Message.Registers.callbacks {message : Message Tensor Device Address}
    (registers : message.Registers callback peer) :
    message.callbacks = [callback] := by
  obtain ⟨device, config, rfl⟩ := registers
  rfl

/-- A callback that was brought earlier is not brought again. -/
theorem not_brought_again (channels : (submitted (steps ++ [(server, event)])).Nodup)
    (brought : callback ∈ submitted steps) :
    callback ∉ event.message.callbacks := by
  intro again
  rw [submitted_append] at channels
  exact (List.nodup_append.mp channels).2.2 callback brought callback again
    rfl

theorem mem_submitted_left {later : ServerSteps Tensor Device Address}
    (brought : callback ∈ submitted steps) :
    callback ∈ submitted (steps ++ later) := by
  rw [submitted, List.flatMap_append]
  exact List.mem_append_left _ brought

theorem not_registers_again (channels : (submitted (steps ++ [(server, event)])).Nodup)
    (brought : callback ∈ submitted steps) :
    ¬event.message.Registers callback peer := by
  intro registers
  apply not_brought_again channels brought
  rw [registers.callbacks]
  exact List.mem_singleton_self callback

theorem BelongsTo.later (belongs : BelongsTo steps callback peer)
    (channels : (submitted (steps ++ [(server, event)])).Nodup) :
    BelongsTo (steps ++ [(server, event)]) callback peer where
  brought := by
    rw [submitted_append]
    exact List.mem_append_left _ belongs.brought
  unique step among other registers := by
    rcases List.mem_append.mp among with earlier | last
    · exact belongs.unique step earlier other registers
    · rw [List.mem_singleton.mp last] at registers
      exact absurd registers (not_registers_again channels belongs.brought)

theorem submitted_of_registers
    {step : LocalCollectiveServer Tensor Device Address × ServerEvent Tensor Device Address}
    (among : step ∈ steps)
    (registers : step.2.message.Registers callback peer) :
    callback ∈ submitted steps := by
  refine List.mem_flatMap.mpr ⟨step, among, ?_⟩
  rw [registers.callbacks]
  exact List.mem_singleton_self callback

/-- The peer that has just registered. -/
theorem BelongsTo.now (channels : (submitted (steps ++ [(server, event)])).Nodup)
    (registers : event.message.Registers callback peer) :
    BelongsTo (steps ++ [(server, event)]) callback peer where
  brought := submitted_of_registers (List.mem_append_right _
    (List.mem_singleton_self _)) registers
  unique step among other again := by
    rcases List.mem_append.mp among with earlier | last
    · exact absurd registers (not_registers_again channels (submitted_of_registers earlier again))
    · rw [List.mem_singleton.mp last] at again
      obtain ⟨device, config, same⟩ := registers
      obtain ⟨otherDevice, otherConfig, again⟩ := again
      rw [same] at again
      cases again
      rfl

theorem InOrder.later (ordered : InOrder steps server)
    (channels : (submitted (steps ++ [(server, event)])).Nodup)
    (peers : successor.peers = server.peers)
    (callbacks : successor.callbacksRegister = server.callbacksRegister) :
    InOrder (steps ++ [(server, event)]) successor := by
  obtain ⟨settled, pending, split, belong⟩ := ordered
  refine ⟨settled, pending, peers.trans split, ?_⟩
  rw [callbacks]
  exact belong.imp fun _ _ belongs => belongs.later channels

theorem InOrder.waitingPeers_eq {settled pending : List PeerId}
    (split : server.peers = settled ++ pending)
    (belong : List.Forall₂ (BelongsTo steps) server.callbacksRegister pending) :
    waitingPeers server = pending := by
  rw [waitingPeers, split, List.length_append, belong.length_eq,
    Nat.add_sub_cancel, List.drop_left]

end Waiting

section Runs

open LocalCollectiveServer

variable {B : Backend Tensor Device} {steps : ServerSteps Tensor Device Address}
  {server successor : LocalCollectiveServer Tensor Device Address}
  {event : ServerEvent Tensor Device Address}
  {answers : List (LocalAnswer Tensor)}

/-- Every registration that succeeds with these answers is the one of a peer. -/
def AnswersPeers (steps : ServerSteps Tensor Device Address)
    (successor : LocalCollectiveServer Tensor Device Address)
    (answers : List (LocalAnswer Tensor)) : Prop :=
  ∀ answer ∈ answers, answer.result = .ok .done → ∀ step ∈ steps, ∀ peer,
      step.2.message.Registers answer.callback peer → peer ∈ successor.peers

/-- What a step leaves for the next one. -/
def KeepsOrder (steps : ServerSteps Tensor Device Address)
    (successor : LocalCollectiveServer Tensor Device Address)
    (answers : List (LocalAnswer Tensor)) : Prop :=
  InOrder steps successor ∧ AnswersPeers steps successor answers

theorem InOrder.unregistering (ordered : InOrder steps server)
    (channels : (submitted (steps ++ [(server, event)])).Nodup)
    (unregistering : Unregistering server successor answers) :
    KeepsOrder (steps ++ [(server, event)]) successor answers :=
  ⟨ordered.later channels unregistering.peers unregistering.callbacksRegister,
    fun answer among done =>
      absurd done (unregistering.noneDone answer among)⟩

theorem exists_owner {callbacks : List Callback} {peers : List PeerId}
    (belong : List.Forall₂ (BelongsTo steps) callbacks peers)
    {callback : Callback} (stored : callback ∈ callbacks) :
    ∃ peer ∈ peers, BelongsTo steps callback peer := by
  induction belong with
  | nil => cases stored
  | cons belongs _ ih =>
      rcases List.mem_cons.mp stored with rfl | behind
      · exact ⟨_, List.mem_cons_self, belongs⟩
      · obtain ⟨peer, member, owned⟩ := ih behind
        exact ⟨peer, List.mem_cons_of_mem _ member, owned⟩

theorem InOrder.acceptPeer {deviceId : PeerId} {device : Device}
    {config : CollectiveConfig Address} {callback : Callback}
    {replies : GlobalReplies Tensor Device}
    (ordered : InOrder steps server)
    (channels : (submitted (steps ++ [(server, event)])).Nodup)
    (registers : event.message.Registers callback deviceId)
    (admitted : server.acceptPeer deviceId device config callback replies =
      .ok (successor, answers)) :
    KeepsOrder (steps ++ [(server, event)]) successor answers := by
  obtain ⟨⟨peers, _⟩, outcome⟩ := acceptPeer_cases admitted
  obtain ⟨settled, pending, split, belong⟩ := ordered
  have everyone : List.Forall₂ (BelongsTo (steps ++ [(server, event)]))
      (server.callbacksRegister ++ [callback]) (pending ++ [deviceId]) :=
    List.rel_append (belong.imp fun _ _ belongs => belongs.later channels)
      (.cons (.now channels registers) .nil)
  have joined : successor.peers = settled ++ (pending ++ [deviceId]) := by
    rw [peers, split, List.append_assoc]
  rcases outcome with ⟨callbacks, rfl⟩ | ⟨result, callbacks, rfl⟩
  · refine ⟨⟨settled, pending ++ [deviceId], joined, ?_⟩, ?_⟩
    · rw [callbacks]
      exact everyone
    · intro answer absent
      exact (List.not_mem_nil absent).elim
  · refine ⟨⟨successor.peers, [], by rw [List.append_nil], ?_⟩, ?_⟩
    · rw [callbacks]
      exact .nil
    · intro answer among _ step taken peer again
      obtain ⟨waiting, stored, rfl⟩ := List.mem_map.mp among
      obtain ⟨owner, member, belongs⟩ := exists_owner everyone stored
      rw [belongs.unique step taken peer again, joined]
      exact List.mem_append_right _ member

theorem InOrder.register [DecidableEq Address] {deviceId : PeerId}
    {device : Device} {config : CollectiveConfig Address}
    {callback : Callback} {replies : GlobalReplies Tensor Device}
    (ordered : InOrder steps server)
    (channels : (submitted (steps ++ [(server, event)])).Nodup)
    (registers : event.message.Registers callback deviceId)
    (processed : server.processRegisterMessage deviceId device config
      callback replies = .ok (successor, answers)) :
    KeepsOrder (steps ++ [(server, event)]) successor answers := by
  rcases register_cases processed with ⟨_, refused⟩ | admitted
  · exact ordered.unregistering channels (refuse_unregistering refused)
  · exact ordered.acceptPeer channels registers admitted

theorem InOrder.finish {id : PeerId} {callback : Callback} (ordered : InOrder steps server)
    (channels : (submitted (steps ++ [(server, event)])).Nodup)
    (message : event.message = .finish id callback)
    (stays : id ∉ waitingPeers server)
    (processed : server.processFinishMessage id callback = .ok (successor, answers)) :
    KeepsOrder (steps ++ [(server, event)]) successor answers := by
  rcases finish_cases processed with ⟨_, refused⟩ | ⟨_, rfl, rfl⟩
  · exact ordered.unregistering channels (refuse_unregistering refused)
  · obtain ⟨settled, pending, split, belong⟩ := ordered
    rw [InOrder.waitingPeers_eq split belong] at stays
    refine ⟨⟨settled.filter fun peer => peer ≠ id, pending, ?_, ?_⟩, ?_⟩
    · have unaffected : pending.filter (fun peer => peer ≠ id) =
          pending := by
        apply List.filter_eq_self.mpr
        intro peer member
        apply decide_eq_true
        intro same
        exact stays (same ▸ member)
      simp only [split, List.filter_append, unaffected]
    · exact belong.imp fun _ _ belongs => belongs.later channels
    · intro answer among _ step taken peer registers
      rw [List.mem_singleton.mp among] at registers
      rcases List.mem_append.mp taken with earlier | last
      · -- the callback of this message would have been brought before
        have brought := submitted_of_registers earlier registers
        have fresh := not_brought_again channels brought
        rw [message] at fresh
        exact absurd (List.mem_singleton_self callback) fresh
      · rw [List.mem_singleton.mp last] at registers
        obtain ⟨device, config, same⟩ := registers
        rw [message] at same
        cases same

theorem submitted_sublist {state : LocalCollectiveServer Tensor Device Address}
    (channels : (submitted (steps ++ [(state, event)])).Nodup) :
    (submitted steps).Nodup := by
  rw [submitted_append] at channels
  exact (List.nodup_append.mp channels).1

variable [DecidableEq Address]

theorem InOrder.step (ordered : InOrder steps server)
    (channels : (submitted (steps ++ [(server, event)])).Nodup)
    (keeps : KeepsWaiting server event)
    (stepped : serverStep B server event = .ok (successor, answers)) :
    KeepsOrder (steps ++ [(server, event)]) successor answers := by
  obtain ⟨message, replies⟩ := event
  cases message with
  | register deviceId device config callback =>
      exact ordered.register channels ⟨device, config, rfl⟩ stepped
  | allReduce deviceId tensor op callback =>
      exact ordered.unregistering channels
        ((allReduce_cases stepped).unregistering (fun _ => rfl) (fun _ => rfl)
          fun _ _ ⟨_, _, executed⟩ => AllReduceOp.execute_noneDone executed)
  | reduce deviceId tensor op root callback =>
      exact ordered.unregistering channels
        ((reduce_cases stepped).unregistering (fun _ => rfl) (fun _ => rfl)
          fun _ _ ⟨_, _, executed⟩ => ReduceOp.execute_noneDone executed)
  | broadcast deviceId tensor callback =>
      exact ordered.unregistering channels
        ((broadcast_cases stepped).unregistering (fun _ => rfl) (fun _ => rfl)
          fun _ _ ⟨_, _, executed⟩ => BroadcastOp.execute_noneDone executed)
  | reset =>
      cases stepped
      refine ⟨⟨[], [], rfl, ?_⟩, ?_⟩
      · have nobody : server.callbacksRegister = [] := keeps
        simp only [LocalCollectiveServer.reset, nobody]
        exact .nil
      · intro answer absent
        exact (List.not_mem_nil absent).elim
  | finish id callback => exact ordered.finish channels rfl keeps stepped

theorem InOrder.run (run : Traced (serverNext B) KeepsWaiting .new steps server)
    (channels : (submitted steps).Nodup) :
    InOrder steps server := by
  induction run with
  | start => exact ⟨[], [], rfl, .nil⟩
  | next _ keeps moved ih =>
      obtain ⟨answers, stepped⟩ := (serverNext_eq_some_iff ..).mp moved
      have ordered := ih (submitted_sublist channels)
      exact (ordered.step channels keeps stepped).1

/-- What was brought before a reset is not stored any more. -/
theorem forgotten_after_reset (run : Traced (serverNext B) KeepsWaiting .new steps server)
    (channels : (submitted steps).Nodup) :
    ∀ earlier reset later, steps = earlier ++ reset :: later → reset.2.message = .reset →
      ∀ callback ∈ submitted earlier, callback ∉ server.waiting := by
  induction run with
  | start =>
      intro earlier reset later split
      exact (List.append_ne_nil_of_right_ne_nil _ (List.cons_ne_nil _ _) split.symm).elim
  | @next steps state successor event _ keeps moved ih =>
      obtain ⟨answers, stepped⟩ := (serverNext_eq_some_iff ..).mp moved
      intro earlier reset later split isReset callback brought
      rcases List.eq_nil_or_concat later with rfl | ⟨front, last, rfl⟩
      · -- the reset is the last step
        obtain ⟨rfl, same⟩ := List.append_inj split (by
          have lengths := congrArg List.length split
          simpa using lengths)
        cases same
        obtain ⟨message, replies⟩ := event
        cases isReset
        cases stepped
        have nobody : state.callbacksRegister = [] := keeps
        rw [waiting, LocalCollectiveServer.reset]
        simp only [nobody, pendingCallbacks, List.append_nil]
        exact List.not_mem_nil
      · rw [List.concat_eq_append, ← List.cons_append, ← List.append_assoc] at split
        obtain ⟨rfl, _⟩ := List.append_inj' split rfl
        have gone := ih (submitted_sublist channels)
          earlier reset front rfl isReset callback brought
        apply List.count_eq_zero.mp
        have accounted := step_accounted stepped callback
        have stored := List.count_eq_zero.mpr gone
        have own := not_brought_again channels (mem_submitted_left brought)
        have fresh := List.count_eq_zero.mpr own
        omega

/-- A registration succeeds only for a peer, and never for one from before a
reset. -/
theorem registered_peers_answered (run : Traced (serverNext B) KeepsWaiting .new steps server)
    (keeps : KeepsWaiting server event)
    (stepped : serverStep B server event = .ok (successor, answers))
    (channels : (submitted (steps ++ [(server, event)])).Nodup) :
    AnswersPeers (steps ++ [(server, event)]) successor answers ∧
      ∀ earlier reset later, steps = earlier ++ reset :: later → reset.2.message = .reset →
        ∀ answer ∈ answers, answer.callback ∉ submitted earlier := by
  have before := submitted_sublist channels
  refine ⟨((InOrder.run run before).step channels keeps stepped).2, ?_⟩
  intro earlier reset later split isReset answer among brought
  have gone := forgotten_after_reset run before earlier reset later split
    isReset answer.callback brought
  rw [split] at channels
  have own := not_brought_again channels (mem_submitted_left brought)
  have accounted := step_accounted stepped answer.callback
  have stored := List.count_eq_zero.mpr gone
  have fresh := List.count_eq_zero.mpr own
  have sent := List.count_pos_iff.mpr (List.mem_map_of_mem (f := LocalAnswer.callback) among)
  omega

/-- A device registers and waits for a second one. -/
def oneWaits : List (ServerEvent (List Nat) Unit Unit) :=
  [localEvent (.register 0 () twoDevices 0)]

theorem registered_peers_answered_two :
    let run := trail (serverNext listBackend) .new oneWaits
    run.2.callbacksRegister = [0] ∧ ∃ successor answers, serverStep listBackend run.2
          (localEvent (.register 1 () twoDevices 1)) = .ok (successor, answers) ∧
        answers.length = 2 ∧
        AnswersPeers (run.1 ++ [(run.2, localEvent (.register 1 () twoDevices 1))]) successor
          answers := by
  have waits : Traced (serverNext listBackend) KeepsWaiting .new
      (trail (serverNext listBackend) .new oneWaits).1
      (trail (serverNext listBackend) .new oneWaits).2 :=
    Traced.start.next trivial rfl
  refine ⟨rfl, _, _, rfl, rfl, ?_⟩
  have keeps : KeepsWaiting (trail (serverNext listBackend) .new oneWaits).2
      (localEvent (.register 1 () twoDevices 1)) := trivial
  exact (registered_peers_answered waits keeps rfl (by decide)).1

/-- A device that has registered before a reset gets the answer of two devices
that register after it. -/
theorem registration_survives_reset :
    let run := trail (serverNext listBackend) .new (oneWaits ++
      [localEvent .reset, localEvent (.register 1 () twoDevices 1)])
    let event := localEvent (.register 2 () twoDevices 2)
    ServerRun listBackend run.1 run.2 ∧ (submitted (run.1 ++ [(run.2, event)])).Nodup ∧
      ∃ successor answers, serverStep listBackend run.2 event = .ok (successor, answers) ∧
        ¬AnswersPeers (run.1 ++ [(run.2, event)]) successor answers := by
  refine ⟨traced_trail _ _ _, by decide, _, _, rfl, ?_⟩
  intro peers
  have member := peers ⟨0, .ok .done⟩ List.mem_cons_self rfl _ List.mem_cons_self 0 ⟨_, _, rfl⟩
  revert member
  decide

end Runs

end RuCCL.Local
