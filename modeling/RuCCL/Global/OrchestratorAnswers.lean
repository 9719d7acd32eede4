import RuCCL.Global.OrchestratorInvariant

/-!
# What the orchestrator answers

`Outcome` says everything one step can do to a sound state.  From it follows that
requests are conserved: what has been answered and what still waits is what has
been asked.  A group that has lost a member answers nobody with a success before
its last member has gone.
-/

namespace RuCCL.Global

open RuCCL.Library GlobalCollectiveState

variable {Address DType : Type}

/-- Everything that one step can do. -/
inductive Outcome [DecidableEq DType] (state : GlobalCollectiveState Address DType) :
    OrchestratorEvent Address DType → GlobalCollectiveState Address DType →
      List (Answer Address) → Prop
  | opened {event : OrchestratorEvent Address DType} {session : SessionId}
      {sessions : Table SessionId Session}
      (asked : event = .init session ∨ event = .responder session)
      (known : ∀ other, other ∈ sessions ↔ other = session ∨ other ∈ state.sessions) :
      Outcome state event { state with sessions := sessions } []
  | closed {session : SessionId} (absent : state.registeredNodes.lookup session = none) :
      Outcome state (.disconnect session)
        { state with sessions := state.sessions.erase session } []
  | lost {session : SessionId} {node : NodeId}
      (found : state.registeredNodes.lookup session = some node) :
      Outcome state (.disconnect session)
        { (state.dropNode session node).resetIfEmpty with
          sessions := state.sessions.erase session }
        (state.respondAll state.pendingCollectives (.error (.peerLost node)) ++
          state.respondAll state.registerRequests (.error (.peerLost node)))
  | finished {session : SessionId} {requestId : RequestId} {node : NodeId}
      (found : state.registeredNodes.lookup session = some node) :
      Outcome state (.request session requestId .finish)
        (state.dropNode session node).resetIfEmpty
        (state.respondAll state.pendingCollectives (.error (.peerLost node)) ++
          state.respondAll state.registerRequests (.error (.peerLost node)) ++
          state.respond session requestId .finishAck)
  | refused {session : SessionId} {requestId : RequestId} {request : RemoteRequest Address DType}
      (error : GlobalCollectiveError)
      (absent : request = .finish → session ∉ state.registeredNodes) :
      Outcome state (.request session requestId request) state
        (state.respond session requestId (.error error))
  | joined {session : SessionId} {requestId : RequestId}
      {nodeAddr : Address} {numNodes : UInt32} {peers : List PeerId}
      (admissible : state.Admissible session nodeAddr numNodes peers)
      (incomplete : (state.joined session requestId nodeAddr numNodes
        peers).registeredNodes.keys.length ≠ numNodes.toNat) :
      Outcome state (.request session requestId (.register nodeAddr numNodes peers))
        (state.joined session requestId nodeAddr numNodes peers) []
  | completed {session : SessionId} {requestId : RequestId}
      {nodeAddr : Address} {numNodes : UInt32} {peers : List PeerId}
      (admissible : state.Admissible session nodeAddr numNodes peers) :
      Outcome state (.request session requestId (.register nodeAddr numNodes peers))
        { state.joined session requestId nodeAddr numNodes peers with
          registerRequests := [] }
        (state.joined session requestId nodeAddr numNodes peers).welcome
  | arrived {session : SessionId} {requestId : RequestId} {spec : CollectiveSpec DType}
      (unfailed : state.failed = none)
      (acceptable : state.Acceptable session) :
      Outcome state (.request session requestId (.begin spec))
        (state.arrived session requestId spec) []
  | agreed {session : SessionId} {requestId : RequestId}
      {spec : CollectiveSpec DType} {root : NodeId}
      (unfailed : state.failed = none)
      (acceptable : state.Acceptable session)
      (verdict : agreeCollective (state.arrived session requestId
        spec).roundSpecs state.nodePeers = .ok root)
      (fits : state.nextTransferId.toNat + 1 < 2 ^ 64) :
      Outcome state (.request session requestId (.begin spec))
        ((state.arrived session requestId spec).concluded (state.nextTransferId + 1)
          (.begin root state.nextTransferId)).state
        ((state.arrived session requestId spec).concluded (state.nextTransferId + 1)
          (.begin root state.nextTransferId)).sent
  | disagreed {session : SessionId} {requestId : RequestId}
      {spec : CollectiveSpec DType} {error : GlobalCollectiveError}
      (unfailed : state.failed = none)
      (acceptable : state.Acceptable session)
      (verdict : agreeCollective (state.arrived session requestId
        spec).roundSpecs state.nodePeers = .error error) :
      Outcome state (.request session requestId (.begin spec))
        ((state.arrived session requestId spec).concluded
          state.nextTransferId (.error error)).state
        ((state.arrived session requestId spec).concluded
          state.nextTransferId (.error error)).sent

section Step

variable [DecidableEq DType] {state successor : GlobalCollectiveState Address DType}
  {event : OrchestratorEvent Address DType} {sent : List (Answer Address)}

/-- A rejected request is answered with its error. -/
theorem outcome_of_rejected {session : SessionId} {requestId : RequestId}
    {request : RemoteRequest Address DType} {handled : Handled Address DType}
    {error : GlobalCollectiveError}
    (absent : request = .finish → session ∉ state.registeredNodes)
    (rejected : handled = state.reject error)
    (same : successor = handled.state)
    (answered : handled.result = .ok () ∧ sent = handled.sent ∨
      ∃ failure, handled.result = .error failure ∧ sent = handled.sent ++
          successor.respond session requestId (.error failure)) :
    Outcome state (.request session requestId request) successor sent := by
  subst rejected
  subst same
  rcases answered with ⟨succeeded, _⟩ | ⟨failure, failed, rfl⟩
  · cases succeeded
  · rw [reject, List.nil_append]
    exact Outcome.refused failure absent

omit [DecidableEq DType] in
/-- What a method that has succeeded sends. -/
theorem answered_of_ok {session : SessionId} {requestId : RequestId}
    {handled : Handled Address DType} (succeeded : handled.result = .ok ())
    (answered : handled.result = .ok () ∧ sent = handled.sent ∨
      ∃ failure, handled.result = .error failure ∧ sent = handled.sent ++
          successor.respond session requestId (.error failure)) :
    sent = handled.sent := by
  rcases answered with ⟨_, same⟩ | ⟨failure, failed, _⟩
  · exact same
  · rw [succeeded] at failed
    cases failed

theorem outcome_of_register [DecidableEq Address] (sound : state.Sound)
    {session : SessionId} {requestId : RequestId} {nodeAddr : Address}
    {numNodes : UInt32} {peers : List PeerId}
    {handled : Handled Address DType}
    (called : state.register session requestId nodeAddr numNodes peers = .ok handled)
    (same : successor = handled.state)
    (answered : handled.result = .ok () ∧ sent = handled.sent ∨
      ∃ failure, handled.result = .error failure ∧ sent = handled.sent ++
          successor.respond session requestId (.error failure)) :
    Outcome state (.request session requestId (.register nodeAddr numNodes peers))
      successor sent := by
  rcases @register_cases _ _ _ state session requestId nodeAddr numNodes
      peers with ⟨error, rejected⟩ | ⟨admissible, enrolled⟩
  · rw [called] at rejected
    cases rejected
    refine outcome_of_rejected (fun other => ?_) rfl same answered
    cases other
  · rw [enroll_eq admissible.addressNew (sound.identified admissible), called] at enrolled
    have result := Except.ok.inj enrolled
    split at result
    case isTrue =>
      have all := answered_of_ok (by rw [result]) answered
      rw [all, same, result]
      exact Outcome.completed admissible
    case isFalse incomplete =>
      have all := answered_of_ok (by rw [result]) answered
      rw [all, same, result]
      exact Outcome.joined admissible incomplete

theorem outcome_of_begin (sound : state.Sound) (unfailed : state.failed = none)
    {session : SessionId} {requestId : RequestId}
    {spec : CollectiveSpec DType} {handled : Handled Address DType}
    (called : state.begin session requestId spec = .ok handled)
    (same : successor = handled.state)
    (answered : handled.result = .ok () ∧ sent = handled.sent ∨
      ∃ failure, handled.result = .error failure ∧ sent = handled.sent ++
          successor.respond session requestId (.error failure)) :
    Outcome state (.request session requestId (.begin spec))
      successor sent := by
  rcases @begin_cases _ _ _ state session requestId spec with
    ⟨error, rejected⟩ | ⟨acceptable, began⟩
  · rw [called] at rejected
    cases rejected
    refine outcome_of_rejected (fun other => ?_) rfl same answered
    cases other
  · rw [called] at began
    split at began
    case isTrue =>
      have result := Except.ok.inj began
      have all := answered_of_ok (by rw [result]) answered
      rw [all, same, result]
      exact Outcome.arrived unfailed acceptable
    case isFalse =>
      rw [sound.concludeRound_eq_of_acceptable acceptable] at began
      split at began
      case h_1 root verdict =>
        split at began
        case isTrue fits =>
          have result := Except.ok.inj began
          have all := answered_of_ok (by rw [result]; rfl) answered
          rw [all, same, result]
          exact Outcome.agreed unfailed acceptable verdict fits
        case isFalse => cases began
      case h_2 error verdict =>
        have result := Except.ok.inj began
        have all := answered_of_ok (by rw [result]; rfl) answered
        rw [all, same, result]
        exact Outcome.disagreed unfailed acceptable verdict

theorem outcome_of_step [DecidableEq Address] (sound : state.Sound)
    (stepped : orchestratorStep state event = .ok (successor, sent)) :
    Outcome state event successor sent := by
  cases event with
  | init session =>
      cases stepped
      obtain ⟨sessions, opened, known⟩ := @initSession_eq _ _ state session
      rw [opened]
      exact Outcome.opened (Or.inl rfl) known
  | responder session =>
      cases stepped
      obtain ⟨sessions, opened, known⟩ :=
        @getSessionResponder_eq _ _ state session
      rw [opened]
      exact Outcome.opened (Or.inr rfl) known
  | disconnect session =>
      rcases @disconnect_cases _ _ state session with
        ⟨node, found, left⟩ | ⟨absent, left⟩
      · rw [orchestratorStep, left] at stepped
        cases stepped
        exact Outcome.lost found
      · rw [orchestratorStep, left, sound.resetIfEmpty_eq] at stepped
        cases stepped
        exact Outcome.closed absent
  | request session requestId request =>
      rcases processRequest_cases stepped with
        ⟨error, refused, rfl, rfl⟩ | ⟨admitted, handled, called, same, answered⟩
      · refine Outcome.refused error fun finishing => ?_
        rw [finishing] at refused
        cases refused
      · cases request with
        | register nodeAddr numNodes peers => exact outcome_of_register sound called same answered
        | begin spec => exact outcome_of_begin sound admitted called same answered
        | finish =>
            have result := (Except.ok.inj called).symm
            rcases @finish_cases _ _ state session requestId with
              ⟨node, found, left⟩ | ⟨absent, rejected⟩
            · rw [left] at result
              have all := answered_of_ok (by rw [result]) answered
              rw [all, same, result]
              exact Outcome.finished found
            · exact outcome_of_rejected (fun _ => AList.lookup_eq_none.mp absent)
                (result.trans rejected) same answered

end Step

/-- The request that an answer is for. -/
def Answer.key (answer : Answer Address) : SessionId × RequestId :=
  (answer.session, answer.requestId)

/-- The identification of a request that waits. -/
def requestKey {α : Type} (request : SessionId × RequestId × α) : SessionId × RequestId :=
  (request.1, request.2.1)

/-- The requests that wait for an answer. -/
def GlobalCollectiveState.outstanding (state : GlobalCollectiveState Address DType) :
    List (SessionId × RequestId) :=
  state.pendingCollectives.map requestKey ++ state.registerRequests.map requestKey

/-- The request that an event brings. -/
def asked :
    OrchestratorEvent Address DType → List (SessionId × RequestId)
  | .request session requestId _ => [(session, requestId)]
  | _ => []

/-- Requests come only on sessions that have been initialised. -/
def Initialised (state : GlobalCollectiveState Address DType) :
    OrchestratorEvent Address DType → Prop
  | .request session _ _ => session ∈ state.sessions
  | _ => True

instance (state : GlobalCollectiveState Address DType) (event : OrchestratorEvent Address DType) :
    Decidable (Initialised state event) :=
  match event with
  | .request _ _ _ => inferInstanceAs (Decidable (_ ∈ _))
  | .init _ => isTrue trivial
  | .responder _ => isTrue trivial
  | .disconnect _ => isTrue trivial

/-- Every member still has its session. -/
def Served (state : GlobalCollectiveState Address DType) : Prop :=
  ∀ session ∈ state.registeredNodes, session ∈ state.sessions

section Conservation

variable {state successor : GlobalCollectiveState Address DType}
  {event : OrchestratorEvent Address DType} {sent : List (Answer Address)}

theorem resetIfEmpty_queues :
    state.resetIfEmpty.registeredNodes = state.registeredNodes ∧
      state.resetIfEmpty.pendingCollectives = state.pendingCollectives ∧
      state.resetIfEmpty.registerRequests = state.registerRequests ∧
      state.resetIfEmpty.sessions = state.sessions := by
  unfold resetIfEmpty
  split
  case isTrue => exact ⟨rfl, rfl, rfl, rfl⟩
  case isFalse => exact ⟨rfl, rfl, rfl, rfl⟩

theorem map_key_respond {session : SessionId} (known : session ∈ state.sessions)
    (requestId : RequestId) (content : RemoteResponse Address) :
    (state.respond session requestId content).map Answer.key = [(session, requestId)] := by
  rw [respond, if_pos known]
  rfl

theorem map_key_flatMap_respond {α : Type} (requests : List (SessionId × RequestId × α))
    (content : SessionId × RequestId × α → RemoteResponse Address)
    (known : ∀ request ∈ requests, request.1 ∈ state.sessions) :
    (requests.flatMap fun request =>
      state.respond request.1 request.2.1 (content request)).map
        Answer.key = requests.map requestKey := by
  induction requests with
  | nil => rfl
  | cons request rest ih =>
      rw [List.flatMap_cons, List.map_append, map_key_respond (known request List.mem_cons_self),
        ih fun other member =>
          known other (List.mem_cons_of_mem request member)]
      rfl

theorem map_key_respondAll {α : Type} {requests : List (SessionId × RequestId × α)}
    (known : ∀ request ∈ requests, request.1 ∈ state.sessions)
    (content : RemoteResponse Address) :
    (state.respondAll requests content).map Answer.key =
      requests.map requestKey :=
  map_key_flatMap_respond requests (fun _ => content) known

theorem pending_known (sound : state.Sound) (served : Served state) :
    ∀ request ∈ state.pendingCollectives, request.1 ∈ state.sessions :=
  fun request member => served _ (sound.pendingRegistered request member)

theorem waiting_known (sound : state.Sound) (served : Served state) :
    ∀ request ∈ state.registerRequests, request.1 ∈ state.sessions :=
  fun request member => served _ (sound.waitingRegistered request member)

/-- What the loss of a member sends. -/
theorem map_key_loss (sound : state.Sound) (served : Served state)
    (content : RemoteResponse Address) :
    (state.respondAll state.pendingCollectives content ++
      state.respondAll state.registerRequests content).map Answer.key =
      state.outstanding := by
  rw [List.map_append, map_key_respondAll (pending_known sound served),
    map_key_respondAll (waiting_known sound served)]
  rfl

theorem map_key_concluded (sound : state.Sound) (served : Served state)
    {session : SessionId} (known : session ∈ state.sessions)
    (requestId : RequestId) (spec : CollectiveSpec DType)
    (transferId : UInt64) (content : RemoteResponse Address) :
    ((state.arrived session requestId spec).concluded transferId content).sent.map Answer.key =
      state.pendingCollectives.map requestKey ++ [(session, requestId)] := by
  have all : ∀ request ∈ (state.arrived session requestId
      spec).pendingCollectives, request.1 ∈ state.sessions := by
    intro request member
    rcases List.mem_append.mp member with earlier | own
    · exact pending_known sound served request earlier
    · rw [List.mem_singleton.mp own]
      exact known
  have keys := @map_key_respondAll _ _ (state.arrived session requestId spec)
    _ _ all content
  rw [GlobalCollectiveState.arrived, List.map_append] at keys
  exact keys

theorem map_key_welcome (sound : state.Sound) (served : Served state)
    {session : SessionId} (known : session ∈ state.sessions)
    (requestId : RequestId) (nodeAddr : Address) (numNodes : UInt32)
    (peers : List PeerId) :
    (state.joined session requestId nodeAddr numNodes peers).welcome.map Answer.key =
      state.registerRequests.map requestKey ++ [(session, requestId)] := by
  have all : ∀ request ∈ (state.joined session requestId nodeAddr numNodes
      peers).registerRequests, request.1 ∈ state.sessions := by
    intro request member
    rcases List.mem_append.mp member with earlier | own
    · exact waiting_known sound served request earlier
    · rw [List.mem_singleton.mp own]
      exact known
  have keys := @map_key_flatMap_respond _ _ (state.joined session requestId
    nodeAddr numNodes peers) _ _ (fun request =>
      .register request.2.2 (state.joined session requestId nodeAddr numNodes
        peers).nodeAddresses (state.joined session requestId nodeAddr
          numNodes peers).numGlobalPeers) all
  rw [show List.map _ (state.joined session requestId nodeAddr numNodes
    peers).registerRequests = _ from List.map_append] at keys
  exact keys

/-- Nothing waits while a node can still ask for a collective or join. -/
theorem settled_of_acceptable {session : SessionId} (acceptable : state.Acceptable session) :
    state.outstanding = state.pendingCollectives.map requestKey := by
  rw [outstanding, acceptable.settled]
  exact List.append_nil _

theorem outstanding_left (session : SessionId) (node : NodeId) :
    (state.dropNode session node).resetIfEmpty.outstanding = [] := by
  obtain ⟨_, pending, waiting, _⟩ :=
    @resetIfEmpty_queues _ _ (state.dropNode session node)
  rw [outstanding, pending, waiting]
  rfl

theorem outstanding_joined (session : SessionId) (requestId : RequestId)
    (nodeAddr : Address) (numNodes : UInt32) (peers : List PeerId) :
    (state.joined session requestId nodeAddr numNodes peers).outstanding =
      state.outstanding ++ [(session, requestId)] := by
  rw [outstanding, outstanding, List.append_assoc]
  exact congrArg _ List.map_append

theorem outstanding_completed (session : SessionId) (requestId : RequestId)
    (nodeAddr : Address) (numNodes : UInt32) (peers : List PeerId) :
    { state.joined session requestId nodeAddr numNodes peers with
      registerRequests := [] }.outstanding =
      state.pendingCollectives.map requestKey :=
  List.append_nil _

theorem outstanding_arrived {session : SessionId}
    (acceptable : state.Acceptable session) (requestId : RequestId)
    (spec : CollectiveSpec DType) :
    (state.arrived session requestId spec).outstanding =
      state.outstanding ++ [(session, requestId)] := by
  have settled : (state.arrived session requestId spec).registerRequests =
      [] := acceptable.settled
  rw [settled_of_acceptable acceptable, outstanding, settled, List.map_nil, List.append_nil]
  exact List.map_append

theorem outstanding_concluded {session : SessionId}
    (acceptable : state.Acceptable session) (requestId : RequestId)
    (spec : CollectiveSpec DType) (transferId : UInt64)
    (content : RemoteResponse Address) :
    ((state.arrived session requestId spec).concluded transferId
      content).state.outstanding = [] := by
  have settled : ((state.arrived session requestId spec).concluded
      transferId content).state.registerRequests = [] :=
    acceptable.settled
  rw [outstanding, settled]
  rfl

/-- What has been answered and what waits is what has waited and what has been
asked. -/
theorem conserved_of_outcome [DecidableEq DType] (sound : state.Sound) (served : Served state)
    (initialised : Initialised state event)
    (outcome : Outcome state event successor sent) :
    (sent.map Answer.key ++ successor.outstanding).Perm (state.outstanding ++ asked event) := by
  cases outcome with
  | opened kind =>
      rcases kind with rfl | rfl
      · exact List.Perm.of_eq (List.append_nil _).symm
      · exact List.Perm.of_eq (List.append_nil _).symm
  | closed => exact List.Perm.of_eq (List.append_nil _).symm
  | @lost session node found =>
      have left := @outstanding_left _ _ state session node
      rw [map_key_loss sound served]
      exact List.Perm.of_eq (congrArg _ left)
  | finished =>
      rw [List.map_append, map_key_loss sound served,
        map_key_respond initialised, outstanding_left]
      exact List.Perm.of_eq (List.append_nil _)
  | refused error =>
      rw [map_key_respond initialised]
      exact List.perm_append_comm
  | joined =>
      rw [outstanding_joined]
      exact List.Perm.refl _
  | completed admissible =>
      have idle := sound.idle_of_registering admissible.registering
      rw [map_key_welcome sound served initialised, outstanding_completed, outstanding, idle]
      exact List.Perm.of_eq (List.append_nil _)
  | arrived _ acceptable =>
      rw [outstanding_arrived acceptable]
      exact List.Perm.refl _
  | agreed _ acceptable =>
      rw [outstanding_concluded acceptable,
        map_key_concluded sound served initialised, List.append_nil,
        settled_of_acceptable acceptable]
      exact List.Perm.refl _
  | disagreed _ acceptable =>
      rw [outstanding_concluded acceptable,
        map_key_concluded sound served initialised, List.append_nil,
        settled_of_acceptable acceptable]
      exact List.Perm.refl _

/-- Registrations and collectives never wait at the same time. -/
theorem apart_of_outcome [DecidableEq DType] (sound : state.Sound)
    (outcome : Outcome state event successor sent) :
    (state.registerRequests ≠ [] → state.pendingCollectives = [] ∧
        successor.pendingCollectives = []) ∧
      (state.pendingCollectives ≠ [] → state.registerRequests = [] ∧
        successor.registerRequests = []) := by
  have idle : state.registerRequests ≠ [] → state.pendingCollectives = [] := fun waiting =>
    sound.idle_of_registering (Or.inr waiting)
  have settled : state.pendingCollectives ≠ [] → state.registerRequests = [] := fun pending =>
    (sound.pendingComplete pending).1
  cases outcome with
  | opened =>
      exact ⟨fun waiting => ⟨idle waiting, idle waiting⟩,
        fun pending => ⟨settled pending, settled pending⟩⟩
  | closed =>
      exact ⟨fun waiting => ⟨idle waiting, idle waiting⟩,
        fun pending => ⟨settled pending, settled pending⟩⟩
  | refused =>
      exact ⟨fun waiting => ⟨idle waiting, idle waiting⟩,
        fun pending => ⟨settled pending, settled pending⟩⟩
  | lost =>
      obtain ⟨_, noPending, noWaiting, _⟩ :=
        @resetIfEmpty_queues _ _ (state.dropNode _ _)
      exact ⟨fun waiting => ⟨idle waiting, noPending⟩,
        fun pending => ⟨settled pending, noWaiting⟩⟩
  | finished =>
      obtain ⟨_, noPending, noWaiting, _⟩ :=
        @resetIfEmpty_queues _ _ (state.dropNode _ _)
      exact ⟨fun waiting => ⟨idle waiting, noPending⟩,
        fun pending => ⟨settled pending, noWaiting⟩⟩
  | joined admissible =>
      have none := sound.idle_of_registering admissible.registering
      exact ⟨fun _ => ⟨none, none⟩, fun pending => absurd none pending⟩
  | completed admissible =>
      have none := sound.idle_of_registering admissible.registering
      exact ⟨fun _ => ⟨none, none⟩, fun pending => absurd none pending⟩
  | arrived _ acceptable =>
      exact ⟨fun waiting => absurd acceptable.settled waiting,
        fun _ => ⟨acceptable.settled, acceptable.settled⟩⟩
  | agreed _ acceptable =>
      exact ⟨fun waiting => absurd acceptable.settled waiting,
        fun _ => ⟨acceptable.settled, acceptable.settled⟩⟩
  | disagreed _ acceptable =>
      exact ⟨fun waiting => absurd acceptable.settled waiting,
        fun _ => ⟨acceptable.settled, acceptable.settled⟩⟩

/-- A queue that is emptied has been answered, together with the request that
has emptied it. -/
theorem answered_of_outcome [DecidableEq DType] (sound : state.Sound) (served : Served state)
    (initialised : Initialised state event)
    (outcome : Outcome state event successor sent) :
    (state.registerRequests ≠ [] → successor.registerRequests = [] → (sent.map Answer.key).Perm
          (state.registerRequests.map requestKey ++ asked event)) ∧
      (state.pendingCollectives ≠ [] → successor.pendingCollectives = [] →
        (sent.map Answer.key).Perm (state.pendingCollectives.map requestKey ++ asked event)) := by
  have conserved := conserved_of_outcome sound served initialised outcome
  obtain ⟨registering, collecting⟩ := apart_of_outcome sound outcome
  rw [outstanding, outstanding] at conserved
  constructor
  · intro waiting emptied
    obtain ⟨before, after⟩ := registering waiting
    rw [before, after, emptied, List.map_nil, List.map_nil, List.nil_append,
      List.append_nil, List.nil_append] at conserved
    exact conserved
  · intro pending emptied
    obtain ⟨before, after⟩ := collecting pending
    rw [before, after, emptied, List.map_nil, List.map_nil, List.append_nil,
      List.append_nil, List.append_nil] at conserved
    exact conserved

theorem served_of_outcome [DecidableEq DType] (served : Served state)
    (initialised : Initialised state event)
    (outcome : Outcome state event successor sent) :
    Served successor := by
  cases outcome with
  | opened _ known =>
      exact fun session member =>
        (known session).mpr (Or.inr (served session member))
  | closed absent =>
      intro session member
      refine AList.mem_erase.mpr ⟨?_, served session member⟩
      intro same
      rw [same] at member
      exact AList.lookup_eq_none.mp absent member
  | @lost lostSession node found =>
      obtain ⟨members, _, _, _⟩ :=
        @resetIfEmpty_queues _ _ (state.dropNode lostSession node)
      intro session member
      replace member : session ∈ (state.dropNode lostSession
        node).resetIfEmpty.registeredNodes := member
      rw [members] at member
      have left := AList.mem_erase.mp member
      exact AList.mem_erase.mpr ⟨left.1, served session left.2⟩
  | @finished lostSession _ node found =>
      obtain ⟨members, _, _, sessions⟩ :=
        @resetIfEmpty_queues _ _ (state.dropNode lostSession node)
      intro session member
      rw [members] at member
      rw [sessions]
      exact served session (AList.mem_erase.mp member).2
  | refused => exact served
  | joined =>
      intro session member
      rcases (AList.mem_insert _).mp member with own | earlier
      · rw [own]
        exact initialised
      · exact served session earlier
  | completed =>
      intro session member
      rcases (AList.mem_insert _).mp member with own | earlier
      · rw [own]
        exact initialised
      · exact served session earlier
  | arrived => exact served
  | agreed => exact served
  | disagreed => exact served

end Conservation

/-- A registration or a collective that has succeeded. -/
def RemoteResponse.IsSuccess : RemoteResponse Address → Prop
  | .register _ _ _ => True
  | .begin _ _ => True
  | _ => False

/-- An event by which a member leaves. -/
def Loses (state : GlobalCollectiveState Address DType) :
    OrchestratorEvent Address DType → Prop
  | .disconnect session => session ∈ state.registeredNodes
  | .request session _ .finish => session ∈ state.registeredNodes
  | _ => False

section Epochs

variable {state successor : GlobalCollectiveState Address DType}
  {event : OrchestratorEvent Address DType} {sent : List (Answer Address)}

theorem content_of_mem_respond {session : SessionId} {requestId : RequestId}
    {content : RemoteResponse Address} {answer : Answer Address}
    (member : answer ∈ state.respond session requestId content) :
    answer.content = content := by
  unfold respond at member
  split at member
  case isTrue => rw [List.mem_singleton.mp member]
  case isFalse => exact (List.not_mem_nil member).elim

theorem content_of_mem_respondAll {α : Type} {requests : List (SessionId × RequestId × α)}
    {content : RemoteResponse Address} {answer : Answer Address}
    (member : answer ∈ state.respondAll requests content) :
    answer.content = content := by
  obtain ⟨request, _, among⟩ := List.mem_flatMap.mp member
  exact content_of_mem_respond among

theorem no_success_of_loss {node : NodeId} {answer : Answer Address}
    (member : answer ∈ state.respondAll state.pendingCollectives (.error (.peerLost node)) ++
      state.respondAll state.registerRequests (.error (.peerLost node))) :
    ¬answer.content.IsSuccess := by
  rcases List.mem_append.mp member with pending | waiting
  · rw [content_of_mem_respondAll pending]
    exact id
  · rw [content_of_mem_respondAll waiting]
    exact id

theorem failed_of_left (session : SessionId) (node : NodeId) :
    (state.dropNode session node).resetIfEmpty.failed ≠ none ∨
      (state.dropNode session node).resetIfEmpty.registeredNodes.keys = [] := by
  unfold resetIfEmpty
  split
  case isTrue empty => exact Or.inr empty
  case isFalse =>
    refine Or.inl fun unfailed => ?_
    cases unfailed

/-- A group that has lost a member sends no success, and it stays a failed group
while it has members. -/
theorem failed_of_outcome [DecidableEq DType] (sound : state.Sound)
    (failed : state.failed ≠ none ∨ Loses state event)
    (outcome : Outcome state event successor sent) :
    (successor.failed ≠ none ∨ successor.registeredNodes.keys = []) ∧
      ∀ answer ∈ sent, ¬answer.content.IsSuccess := by
  cases outcome with
  | opened kind =>
      refine ⟨Or.inl ?_, fun _ member => (List.not_mem_nil member).elim⟩
      rcases kind with rfl | rfl
      · exact failed.resolve_right id
      · exact failed.resolve_right id
  | closed absent =>
      refine ⟨Or.inl ?_, fun _ member => (List.not_mem_nil member).elim⟩
      exact failed.resolve_right (AList.lookup_eq_none.mp absent)
  | lost => exact ⟨failed_of_left _ _, fun _ => no_success_of_loss⟩
  | finished =>
      refine ⟨failed_of_left _ _, fun answer member => ?_⟩
      rcases List.mem_append.mp member with others | own
      · exact no_success_of_loss others
      · rw [content_of_mem_respond own]
        exact id
  | @refused session requestId request error absent =>
      refine ⟨Or.inl ?_, fun answer member => ?_⟩
      · refine failed.resolve_right fun loses => ?_
        cases request with
        | register => exact loses
        | begin => exact loses
        | finish => exact absent rfl loses
      · rw [content_of_mem_respond member]
        exact id
  | joined admissible =>
      have unfailed := sound.unfailed_of_registering admissible.registering
      exact (failed.elim (absurd unfailed) id).elim
  | completed admissible =>
      have unfailed := sound.unfailed_of_registering admissible.registering
      exact (failed.elim (absurd unfailed) id).elim
  | arrived unfailed => exact (failed.elim (absurd unfailed) id).elim
  | agreed unfailed => exact (failed.elim (absurd unfailed) id).elim
  | disagreed unfailed => exact (failed.elim (absurd unfailed) id).elim

end Epochs

section Runs

variable [DecidableEq Address] [DecidableEq DType]

/-- What a step sends. -/
def sentBy (state : GlobalCollectiveState Address DType)
    (event : OrchestratorEvent Address DType) : List (Answer Address) :=
  match orchestratorStep state event with
  | .ok (_, sent) => sent
  | .error _ => []

/-- What has been asked in a run. -/
def requested
    (steps : List (GlobalCollectiveState Address DType ×
      OrchestratorEvent Address DType)) : List (SessionId × RequestId) :=
  steps.flatMap fun step => asked step.2

/-- What has been answered in a run. -/
def answered
    (steps : List (GlobalCollectiveState Address DType ×
      OrchestratorEvent Address DType)) : List (SessionId × RequestId) :=
  steps.flatMap fun step => (sentBy step.1 step.2).map Answer.key

variable {state : GlobalCollectiveState Address DType}

theorem served_of_reached (reached : Reached orchestratorNext Initialised .new state) :
    state.Sound ∧ Served state := by
  refine @Reached.invariant _ _ _ _ _
    (fun earlier => earlier.Sound ∧ Served earlier) ?_ ?_ _ reached
  · refine ⟨Sound.new, fun session member => ?_⟩
    exact (AList.notMem_empty session member).elim
  · intro earlier event later holds initialised stepped
    obtain ⟨sent, ran⟩ := orchestratorNext_eq_some_iff.mp stepped
    exact ⟨sound_of_step holds.1 ran,
      served_of_outcome holds.2 initialised (outcome_of_step holds.1 ran)⟩

/-- Everything that has been asked has been answered once or still waits. -/
theorem conserved_of_traced
    {steps : List (GlobalCollectiveState Address DType × OrchestratorEvent Address DType)}
    (traced : Traced orchestratorNext Initialised .new steps state) :
    (answered steps ++ state.outstanding).Perm (requested steps) := by
  induction traced with
  | start => exact List.Perm.refl _
  | @next steps earlier later event traced initialised stepped ih =>
      obtain ⟨sound, served⟩ := served_of_reached traced.reached
      obtain ⟨sent, ran⟩ := orchestratorNext_eq_some_iff.mp stepped
      have step := conserved_of_outcome sound served initialised (outcome_of_step sound ran)
      have sentNow : sentBy earlier event = sent := by
        rw [sentBy, ran]
      have answers : answered (steps ++ [(earlier, event)]) =
          answered steps ++ sent.map Answer.key := by
        rw [answered, List.flatMap_append, List.flatMap_singleton, sentNow]
        rfl
      have requests : requested (steps ++ [(earlier, event)]) =
          requested steps ++ asked event := by
        rw [requested, List.flatMap_append, List.flatMap_singleton]
        rfl
      rw [answers, requests, List.append_assoc]
      refine (step.append_left _).trans ?_
      rw [← List.append_assoc]
      exact ih.append_right _

/-- Some member of an earlier group is still registered. -/
def MemberRemains (earlier state : GlobalCollectiveState Address DType) :
    Prop :=
  ∃ session, session ∈ earlier.registeredNodes ∧ session ∈ state.registeredNodes

/-- The group stays failed as long as one of its members is there. -/
theorem failed_while_member_remains {start later : GlobalCollectiveState Address DType}
    (sound : start.Sound)
    (failed : start.failed ≠ none ∨ start.registeredNodes.keys = [])
    (guard : GlobalCollectiveState Address DType → OrchestratorEvent Address DType → Prop)
    (members : ∀ between event, guard between event → between.registeredNodes.keys ≠ [])
    (reached : Reached orchestratorNext guard start later) :
    later.Sound ∧ (later.failed ≠ none ∨ later.registeredNodes.keys = []) := by
  refine @Reached.invariant _ _ _ _ _
    (fun between => between.Sound ∧ (between.failed ≠ none ∨ between.registeredNodes.keys = []))
    ?_ ?_ _ reached
  · exact ⟨sound, failed⟩
  · intro between event next holds permitted stepped
    obtain ⟨sent, ran⟩ := orchestratorNext_eq_some_iff.mp stepped
    have still := holds.2.resolve_right (members between event permitted)
    exact ⟨sound_of_step holds.1 ran, (failed_of_outcome holds.1
      (Or.inl still) (outcome_of_step holds.1 ran)).1⟩

end Runs

end RuCCL.Global
