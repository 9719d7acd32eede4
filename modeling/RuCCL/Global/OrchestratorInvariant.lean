import RuCCL.Global.Orchestrator
import RuCCL.Library.Transition
import Mathlib.Data.Fintype.Card
import Mathlib.Data.List.Flatten
import Mathlib.Data.List.Nodup

/-!
# The members of the orchestrator

Registering, leaving and the failure paths update the same maps and counters.
`Consistent` says how these fit together; `Sound` adds what its preservation
needs about the waiting requests and the identifiers.  A step is inverted once
per method, and every invariant is derived from these inversions.
-/

namespace RuCCL.Global

open RuCCL.Library

namespace GlobalCollectiveState

variable {Address DType : Type}

/-- All peers of all nodes. -/
def allPeers (state : GlobalCollectiveState Address DType) : List PeerId :=
  (values state.nodePeers).flatten

/-- How many nodes the current group has agreed on. -/
def agreedNodes (state : GlobalCollectiveState Address DType) : Nat :=
  (state.curNumNodes.getD 0).toNat

/-- The members and what is recorded about them. -/
structure Membership (state : GlobalCollectiveState Address DType) :
    Prop where
  addressed : ∀ node, node ∈ state.nodeAddresses ↔ node ∈ values state.registeredNodes
  peered : ∀ node, node ∈ state.nodePeers ↔ node ∈ values state.registeredNodes
  nodesDistinct : (values state.registeredNodes).Nodup
  addressesDistinct : (values state.nodeAddresses).Nodup
  peersDistinct : state.allPeers.Nodup
  counted : state.numGlobalPeers = UInt32.ofNat state.allPeers.length

/-- The members, the collective that waits for them and a failure among
them. -/
structure Consistent (state : GlobalCollectiveState Address DType) : Prop
    extends Membership state where
  bounded : state.registeredNodes.keys.length ≤ state.agreedNodes
  pendingDistinct : (state.pendingCollectives.map Prod.fst).Nodup
  pendingRegistered : ∀ request ∈ state.pendingCollectives, request.1 ∈ state.registeredNodes
  pendingFewer : state.pendingCollectives ≠ [] →
    state.pendingCollectives.length < state.registeredNodes.keys.length
  pendingComplete : state.pendingCollectives ≠ [] → state.registerRequests = [] ∧
      state.registeredNodes.keys.length = state.agreedNodes
  failedMember : state.failed ≠ none → state.registeredNodes.keys ≠ []

/-- The consistency of the members with what keeps it. -/
structure Sound (state : GlobalCollectiveState Address DType) : Prop
    extends Consistent state where
  failedIdle : state.failed ≠ none → state.registerRequests = [] ∧ state.pendingCollectives = []
  waiting : state.registerRequests ≠ [] → state.registeredNodes.keys.length < state.agreedNodes
  waitingRegistered : ∀ request ∈ state.registerRequests, request.1 ∈ state.registeredNodes
  fresh : state.registeredNodes.keys = [] →
    state.curNumNodes = none ∧ state.registerRequests = [] ∧ state.pendingCollectives = []
  numbered : state.failed = none → state.nextNodeId.toNat = state.registeredNodes.keys.length ∧
      ∀ node ∈ values state.registeredNodes, node < state.nextNodeId

section Leaving

variable {state : GlobalCollectiveState Address DType}

theorem peerCount_eq (peers : Table NodeId (List PeerId)) :
    peerCount peers = UInt32.ofNat (values peers).flatten.length := by
  have general : ∀ (groups : List (List PeerId)) (start : UInt32), groups.foldl
        (fun total group => total + UInt32.ofNat group.length) start =
      start + UInt32.ofNat groups.flatten.length := by
    intro groups
    induction groups with
    | nil =>
        intro start
        simp
    | cons group rest ih =>
        intro start
        rw [List.foldl_cons, ih, List.flatten_cons,
          List.length_append, UInt32.ofNat_add, UInt32.add_assoc]
  rw [peerCount, general, UInt32.zero_add]

theorem Sound.withSessions (sound : state.Sound) (sessions : Table SessionId Session) :
    { state with sessions := sessions }.Sound :=
  ⟨⟨⟨sound.addressed, sound.peered, sound.nodesDistinct,
    sound.addressesDistinct, sound.peersDistinct, sound.counted⟩,
    sound.bounded, sound.pendingDistinct, sound.pendingRegistered,
    sound.pendingFewer, sound.pendingComplete, sound.failedMember⟩,
    sound.failedIdle, sound.waiting, sound.waitingRegistered, sound.fresh,
    sound.numbered⟩

theorem resetIfEmpty_withSessions (sessions : Table SessionId Session) :
    { state with sessions := sessions }.resetIfEmpty =
      { state.resetIfEmpty with sessions := sessions } := by
  unfold resetIfEmpty
  by_cases empty : state.registeredNodes.keys = []
  · rw [if_pos empty, if_pos empty]
  · rw [if_neg empty, if_neg empty]

/-- Without members there is nothing left to reset. -/
theorem Sound.resetIfEmpty_eq (sound : state.Sound) : state.resetIfEmpty = state := by
  unfold resetIfEmpty
  by_cases empty : state.registeredNodes.keys = []
  · rw [if_pos empty]
    have unfailed : state.failed = none := by
      by_contra failed
      exact sound.failedMember failed empty
    have unnumbered : state.nextNodeId = 0 := by
      apply UInt32.toNat.inj
      rw [(sound.numbered unfailed).1, empty]
      rfl
    rw [← (sound.fresh empty).1, ← unfailed, ← unnumbered]
  · rw [if_neg empty]

/-- Which nodes are left when one has gone. -/
theorem mem_values_erase_iff {registered : Table SessionId NodeId} {session : SessionId}
    {node : NodeId} (distinct : (values registered).Nodup)
    (found : registered.lookup session = some node) (other : NodeId) :
    other ∈ values (registered.erase session) ↔ other ≠ node ∧ other ∈ values registered := by
  have split := values_perm_of_lookup found
  have apart := split.nodup_iff.mp distinct
  rw [List.nodup_cons] at apart
  rw [split.mem_iff, List.mem_cons]
  constructor
  · intro member
    exact ⟨fun same => apart.1 (same ▸ member), Or.inr member⟩
  · rintro ⟨different, same | member⟩
    · exact absurd same different
    · exact member

theorem Membership.dropNode (members : state.Membership) {session : SessionId} {node : NodeId}
    (found : state.registeredNodes.lookup session = some node) :
    (state.dropNode session node).Membership where
  addressed other := by
    have left := mem_values_erase_iff members.nodesDistinct found other
    rw [← members.addressed] at left
    exact AList.mem_erase.trans left.symm
  peered other := by
    have left := mem_values_erase_iff members.nodesDistinct found other
    rw [← members.peered] at left
    exact AList.mem_erase.trans left.symm
  nodesDistinct := members.nodesDistinct.sublist (values_erase_sublist _ _)
  addressesDistinct := members.addressesDistinct.sublist (values_erase_sublist _ _)
  peersDistinct := members.peersDistinct.sublist (values_erase_sublist _ _).flatten
  counted := peerCount_eq _

/-- A node has left, and the group is over when it was the last one. -/
theorem Sound.dropNode (sound : state.Sound) {session : SessionId} {node : NodeId}
    (found : state.registeredNodes.lookup session = some node) :
    (state.dropNode session node).resetIfEmpty.Sound := by
  have members := sound.toMembership.dropNode found
  have smaller := length_keys_erase_of_lookup found
  have bounded := sound.bounded
  unfold resetIfEmpty
  by_cases empty : (state.registeredNodes.erase session).keys = []
  · have noValues : values (state.registeredNodes.erase session) = [] :=
      (values_eq_nil_iff _).mpr empty
    have reset : (state.dropNode session node).registeredNodes.keys = [] := empty
    rw [if_pos reset]
    exact {
      toMembership := ⟨members.addressed, members.peered,
        members.nodesDistinct, members.addressesDistinct,
        members.peersDistinct, members.counted⟩
      bounded := le_of_eq_of_le (congrArg List.length empty) (Nat.zero_le _)
      pendingDistinct := List.nodup_nil
      pendingRegistered := fun request member =>
        (List.not_mem_nil member).elim
      pendingFewer := fun present => absurd rfl present
      pendingComplete := fun present => absurd rfl present
      failedMember := fun present => absurd rfl present
      failedIdle := fun present => absurd rfl present
      waiting := fun present => absurd rfl present
      waitingRegistered := fun request member =>
        (List.not_mem_nil member).elim
      fresh := fun _ => ⟨rfl, rfl, rfl⟩
      numbered := fun _ => ⟨(congrArg List.length empty).symm, fun other member =>
          (List.not_mem_nil (noValues ▸ member)).elim⟩ }
  · have staying : ¬(state.dropNode session node).registeredNodes.keys = [] := empty
    rw [if_neg staying]
    exact {
      toMembership := members
      bounded := Nat.le_trans (Nat.le_of_lt (Nat.lt_of_lt_of_eq
        (Nat.lt_succ_self _) smaller.symm)) bounded
      pendingDistinct := List.nodup_nil
      pendingRegistered := fun request member =>
        (List.not_mem_nil member).elim
      pendingFewer := fun present => absurd rfl present
      pendingComplete := fun present => absurd rfl present
      failedMember := fun _ => empty
      failedIdle := fun _ => ⟨rfl, rfl⟩
      waiting := fun present => absurd rfl present
      waitingRegistered := fun request member =>
        (List.not_mem_nil member).elim
      fresh := fun gone => absurd gone empty
      numbered := fun unfailed => by
        cases unfailed }

end Leaving

theorem firstDuplicate_eq_none_iff {known : List PeerId} (seen peers : List PeerId) :
    firstDuplicate known seen peers = none ↔
      peers.Nodup ∧ ∀ peer ∈ peers, peer ∉ seen ∧ peer ∉ known := by
  induction peers generalizing seen with
  | nil => simp [firstDuplicate]
  | cons peer rest ih =>
      rw [firstDuplicate]
      by_cases repeated : peer ∈ seen ∨ peer ∈ known
      · rw [if_pos repeated]
        constructor
        · intro absent
          cases absent
        · intro distinct
          have new := distinct.2 peer List.mem_cons_self
          exact (repeated.elim new.1 new.2).elim
      · rw [if_neg repeated, ih]
        rw [not_or] at repeated
        simp only [List.nodup_cons, List.mem_cons, forall_eq_or_imp]
        constructor
        · rintro ⟨distinct, new⟩
          refine ⟨⟨fun member => (new peer member).1 (Or.inl rfl), distinct⟩,
            repeated, fun other member => ?_⟩
          exact ⟨fun earlier => (new other member).1 (Or.inr earlier), (new other member).2⟩
        · rintro ⟨⟨single, distinct⟩, _, new⟩
          refine ⟨distinct, fun other member => ⟨?_, (new other member).2⟩⟩
          rintro (same | earlier)
          · exact single (same ▸ member)
          · exact (new other member).1 earlier

/-- A node that passes the checks of a registration. -/
structure Admissible (state : GlobalCollectiveState Address DType)
    (session : SessionId) (nodeAddr : Address) (numNodes : UInt32)
    (peers : List PeerId) : Prop where
  countPositive : numNodes ≠ 0
  peersPresent : peers ≠ []
  sessionNew : session ∉ state.registeredNodes
  addressNew : nodeAddr ∉ values state.nodeAddresses
  registering :
    state.registeredNodes.keys = [] ∨ state.registerRequests ≠ []
  peersNew : peers.Nodup ∧ ∀ peer ∈ peers, peer ∉ state.allPeers
  sameCount : state.curNumNodes = none ∨ state.curNumNodes = some numNodes

/-- The state in which a node has joined. -/
def joined (state : GlobalCollectiveState Address DType)
    (session : SessionId) (requestId : RequestId) (nodeAddr : Address)
    (numNodes : UInt32) (peers : List PeerId) :
    GlobalCollectiveState Address DType :=
  { state with
    curNumNodes := some numNodes
    numGlobalPeers := state.numGlobalPeers + UInt32.ofNat peers.length
    nextNodeId := state.nextNodeId + 1
    registeredNodes := state.registeredNodes.insert session state.nextNodeId
    nodeAddresses := state.nodeAddresses.insert state.nextNodeId nodeAddr
    nodePeers := state.nodePeers.insert state.nextNodeId peers
    registerRequests := state.registerRequests ++ [(session, requestId, state.nextNodeId)] }

/-- What a registration that completes the group sends. -/
def welcome (joined : GlobalCollectiveState Address DType) : List (Answer Address) :=
  joined.registerRequests.flatMap fun request =>
    joined.respond request.1 request.2.1
      (.register request.2.2 joined.nodeAddresses joined.numGlobalPeers)

section Joining

variable [DecidableEq Address] {state : GlobalCollectiveState Address DType}
  {session : SessionId} {requestId : RequestId} {nodeAddr : Address}
  {numNodes : UInt32} {peers : List PeerId}

/-- Behind its checks a registration either completes the group or waits. -/
theorem enroll_eq (addressNew : nodeAddr ∉ values state.nodeAddresses)
    (fits : state.nextNodeId.toNat + 1 < 2 ^ 32) :
    { state with curNumNodes := some numNodes }.enroll session requestId nodeAddr numNodes peers =
      .ok (if (state.joined session requestId nodeAddr numNodes
            peers).registeredNodes.keys.length = numNodes.toNat then
          ⟨{ state.joined session requestId nodeAddr numNodes peers with
              registerRequests := [] },
            (state.joined session requestId nodeAddr numNodes peers).welcome,
            .ok ()⟩
        else ⟨state.joined session requestId nodeAddr numNodes peers, [], .ok ()⟩) := by
  have known : ¬nodeAddr ∈ values state.nodeAddresses := addressNew
  simp only [enroll, if_pos fits, okOr_some, ok_bind, if_neg known]
  by_cases complete : (state.joined session requestId nodeAddr numNodes
      peers).registeredNodes.keys.length = numNodes.toNat
  · have same : (state.registeredNodes.insert session
        state.nextNodeId).keys.length = numNodes.toNat := complete
    rw [if_pos complete, if_pos same]
    rfl
  · have same : ¬(state.registeredNodes.insert session
        state.nextNodeId).keys.length = numNodes.toNat := complete
    rw [if_neg complete, if_neg same]
    rfl

/-- A registration is refused, or it has passed every check. -/
theorem register_cases :
    (∃ error, state.register session requestId nodeAddr numNodes peers =
        .ok (state.reject error)) ∨
      state.Admissible session nodeAddr numNodes peers ∧
        state.register session requestId nodeAddr numNodes peers =
          { state with curNumNodes := some numNodes }.enroll session
            requestId nodeAddr numNodes peers := by
  unfold register
  split
  case isTrue => exact Or.inl ⟨_, rfl⟩
  case isFalse present =>
    rw [not_or] at present
    split
    case isTrue => exact Or.inl ⟨_, rfl⟩
    case isFalse new =>
      rw [not_or] at new
      split
      case isTrue => exact Or.inl ⟨_, rfl⟩
      case isFalse registering =>
        rw [Classical.not_and_iff_not_or_not, not_not] at registering
        split
        case h_1 => exact Or.inl ⟨_, rfl⟩
        case h_2 unique =>
          have peersNew := (firstDuplicate_eq_none_iff _ _).mp unique
          have fresh : peers.Nodup ∧ ∀ peer ∈ peers, peer ∉ state.allPeers :=
            ⟨peersNew.1, fun peer member => (peersNew.2 peer member).2⟩
          split
          case h_1 agreed counted =>
            split
            case isTrue => exact Or.inl ⟨_, rfl⟩
            case isFalse same =>
              rw [not_not] at same
              rw [same] at counted
              refine Or.inr ⟨⟨present.1, present.2, new.1, new.2,
                registering, fresh, Or.inr counted⟩, ?_⟩
              rw [← counted]
          case h_2 uncounted =>
            exact Or.inr ⟨⟨present.1, present.2, new.1, new.2, registering,
              fresh, Or.inl uncounted⟩, rfl⟩

end Joining

section Joined

variable {state : GlobalCollectiveState Address DType}
  {session : SessionId} {nodeAddr : Address} {numNodes : UInt32}
  {peers : List PeerId}

theorem Membership.joined (members : state.Membership)
    (admissible : state.Admissible session nodeAddr numNodes peers)
    (unused : state.nextNodeId ∉ values state.registeredNodes)
    (requestId : RequestId) :
    (state.joined session requestId nodeAddr numNodes peers).Membership := by
  have nodes : values (state.joined session requestId nodeAddr numNodes peers).registeredNodes =
      state.nextNodeId :: values state.registeredNodes :=
    values_insert_of_notMem admissible.sessionNew _
  have addressNew : state.nextNodeId ∉ state.nodeAddresses :=
    fun present => unused ((members.addressed _).mp present)
  have peersNew : state.nextNodeId ∉ state.nodePeers :=
    fun present => unused ((members.peered _).mp present)
  have addresses : values (state.joined session requestId nodeAddr numNodes
      peers).nodeAddresses = nodeAddr :: values state.nodeAddresses :=
    values_insert_of_notMem addressNew _
  have groups : values (state.joined session requestId nodeAddr numNodes
      peers).nodePeers = peers :: values state.nodePeers :=
    values_insert_of_notMem peersNew _
  have everyone : (state.joined session requestId nodeAddr numNodes
      peers).allPeers = peers ++ state.allPeers := by
    rw [allPeers, groups]
    rfl
  exact {
    addressed := fun node => by
      rw [nodes, List.mem_cons, ← members.addressed]
      exact AList.mem_insert _
    peered := fun node => by
      rw [nodes, List.mem_cons, ← members.peered]
      exact AList.mem_insert _
    nodesDistinct := by
      rw [nodes]
      exact List.nodup_cons.mpr ⟨unused, members.nodesDistinct⟩
    addressesDistinct := by
      rw [addresses]
      exact List.nodup_cons.mpr ⟨admissible.addressNew, members.addressesDistinct⟩
    peersDistinct := by
      rw [everyone]
      refine List.Nodup.append admissible.peersNew.1 members.peersDistinct ?_
      intro peer member known
      exact admissible.peersNew.2 peer member known
    counted := by
      rw [everyone, List.length_append, Nat.add_comm, UInt32.ofNat_add, ← members.counted]
      rfl }

/-- No failure is recorded while a node can still join. -/
theorem Sound.unfailed_of_registering (sound : state.Sound)
    (registering :
      state.registeredNodes.keys = [] ∨ state.registerRequests ≠ []) :
    state.failed = none := by
  by_contra failed
  rcases registering with empty | waiting
  · exact sound.failedMember failed empty
  · exact waiting (sound.failedIdle failed).1

theorem Sound.idle_of_registering (sound : state.Sound)
    (registering :
      state.registeredNodes.keys = [] ∨ state.registerRequests ≠ []) :
    state.pendingCollectives = [] := by
  rcases registering with empty | waiting
  · exact (sound.fresh empty).2.2
  · by_contra pending
    exact waiting (sound.pendingComplete pending).1

theorem Sound.room_of_admissible (sound : state.Sound)
    (admissible : state.Admissible session nodeAddr numNodes peers) :
    state.registeredNodes.keys.length < numNodes.toNat := by
  rcases admissible.registering with empty | waiting
  · rw [empty]
    have positive : numNodes.toNat ≠ (0 : UInt32).toNat :=
      fun same => admissible.countPositive (UInt32.toNat.inj same)
    exact Nat.pos_of_ne_zero positive
  · have fewer := sound.waiting waiting
    rcases admissible.sameCount with absent | agreed
    · rw [agreedNodes, absent] at fewer
      exact (Nat.not_lt_zero _ fewer).elim
    · rw [agreedNodes, agreed] at fewer
      exact fewer

/-- There is always an identifier for a node that may join. -/
theorem Sound.identified (sound : state.Sound)
    (admissible : state.Admissible session nodeAddr numNodes peers) :
    state.nextNodeId.toNat + 1 < 2 ^ 32 := by
  have unfailed := sound.unfailed_of_registering admissible.registering
  have room := sound.room_of_admissible admissible
  have word := numNodes.toNat_lt
  rw [(sound.numbered unfailed).1]
  omega

/-- A node has joined; nobody waits any more when the group is complete. -/
theorem Sound.joined (sound : state.Sound)
    (admissible : state.Admissible session nodeAddr numNodes peers)
    (requestId : RequestId) {left : List (SessionId × RequestId × NodeId)}
    (waiting : left ≠ [] → (state.joined session requestId nodeAddr numNodes
      peers).registeredNodes.keys.length ≠ numNodes.toNat)
    (known : left ⊆ (state.joined session requestId nodeAddr numNodes peers).registerRequests) :
    { state.joined session requestId nodeAddr numNodes peers with
      registerRequests := left }.Sound := by
  have unfailed := sound.unfailed_of_registering admissible.registering
  have idle := sound.idle_of_registering admissible.registering
  have numbered := sound.numbered unfailed
  have room := sound.room_of_admissible admissible
  have unused : state.nextNodeId ∉ values state.registeredNodes :=
    fun member => UInt32.lt_irrefl _ (numbered.2 _ member)
  have length : (state.joined session requestId nodeAddr numNodes
      peers).registeredNodes.keys.length =
      state.registeredNodes.keys.length + 1 :=
    length_keys_insert_of_notMem admissible.sessionNew _
  have nodes : values (state.joined session requestId nodeAddr numNodes peers).registeredNodes =
      state.nextNodeId :: values state.registeredNodes :=
    values_insert_of_notMem admissible.sessionNew _
  have next : (state.nextNodeId + 1).toNat = state.nextNodeId.toNat + 1 := by
    rw [UInt32.toNat_add]
    exact Nat.mod_eq_of_lt (sound.identified admissible)
  have members := sound.toMembership.joined admissible unused requestId
  exact {
    toMembership := ⟨members.addressed, members.peered,
      members.nodesDistinct, members.addressesDistinct,
      members.peersDistinct, members.counted⟩
    bounded := le_of_eq_of_le length room
    pendingDistinct := sound.pendingDistinct
    pendingRegistered := fun request member =>
      (List.not_mem_nil (idle ▸ member)).elim
    pendingFewer := fun present => absurd idle present
    pendingComplete := fun present => absurd idle present
    failedMember := fun failed => absurd unfailed failed
    failedIdle := fun failed => absurd unfailed failed
    waiting := fun present =>
      lt_of_le_of_ne (le_of_eq_of_le length room) (waiting present)
    waitingRegistered := fun request member => by
      apply (AList.mem_insert _).mpr
      rcases List.mem_append.mp (known member) with earlier | own
      · exact Or.inr (sound.waitingRegistered request earlier)
      · rw [List.mem_singleton.mp own]
        exact Or.inl rfl
    fresh := fun empty => by
      have nobody := congrArg List.length empty
      rw [show List.length _ = _ from length] at nobody
      cases nobody
    numbered := fun _ => by
      refine ⟨?_, fun node member => ?_⟩
      · rw [← numbered.1] at length
        exact next.trans length.symm
      · replace member : node ∈ values (state.joined session requestId
          nodeAddr numNodes peers).registeredNodes := member
        rw [nodes] at member
        have later : state.nextNodeId < state.nextNodeId + 1 := by
          rw [UInt32.lt_iff_toNat_lt, next]
          exact Nat.lt_succ_self _
        rcases List.mem_cons.mp member with own | earlier
        · rw [own]
          exact later
        · exact UInt32.lt_trans (numbered.2 node earlier) later }

end Joined

/-- A node that passes the checks of a collective. -/
structure Acceptable (state : GlobalCollectiveState Address DType)
    (session : SessionId) : Prop where
  registered : session ∈ state.registeredNodes
  settled : state.registerRequests = []
  complete : state.registeredNodes.keys.length = state.agreedNodes
  sessionNew : session ∉ state.pendingCollectives.map Prod.fst

/-- The state in which one more node waits for the collective. -/
def arrived (state : GlobalCollectiveState Address DType)
    (session : SessionId) (requestId : RequestId)
    (spec : CollectiveSpec DType) : GlobalCollectiveState Address DType :=
  { state with
    pendingCollectives := state.pendingCollectives ++ [(session, requestId, spec)] }

/-- The node of a session. -/
def nodeOf (state : GlobalCollectiveState Address DType) (session : SessionId) : NodeId :=
  (state.registeredNodes.lookup session).getD 0

/-- What the nodes that wait have asked for. -/
def roundSpecs (state : GlobalCollectiveState Address DType) :
    List (NodeId × CollectiveSpec DType) :=
  state.pendingCollectives.map fun request =>
    (state.nodeOf request.1, request.2.2)

/-- The round is over; all of its requests have the same answer. -/
def concluded (state : GlobalCollectiveState Address DType)
    (nextTransferId : UInt64) (content : RemoteResponse Address) :
    Handled Address DType :=
  ⟨{ state with
      pendingCollectives := []
      nextTransferId := nextTransferId },
    state.respondAll state.pendingCollectives content, .ok ()⟩

section Collectives

variable [DecidableEq DType] {state : GlobalCollectiveState Address DType}
  {session : SessionId} {requestId : RequestId} {spec : CollectiveSpec DType}

theorem concludeRound_eq
    (registered : ∀ request ∈ state.pendingCollectives, request.1 ∈ state.registeredNodes) :
    state.concludeRound =
      match agreeCollective state.roundSpecs state.nodePeers with
      | .ok root =>
          if state.nextTransferId.toNat + 1 < 2 ^ 64 then
            .ok (state.concluded (state.nextTransferId + 1) (.begin root state.nextTransferId))
          else .error .transferIdentifierExhausted
      | .error error =>
          .ok (state.concluded state.nextTransferId (.error error)) := by
  have located : (state.pendingCollectives.mapM fun request => do
      let node ← okOr (state.registeredNodes.lookup request.1) Panic.sessionNotRegistered
      .ok (node, request.2.2)) = .ok state.roundSpecs := by
    rw [mapM_eq_ok_iff, roundSpecs, List.map_map]
    apply List.map_congr_left
    intro request member
    obtain ⟨node, found⟩ := exists_lookup_of_mem (registered request member)
    simp only [found, okOr_some, ok_bind, Function.comp_apply, nodeOf, Option.getD_some]
  rw [concludeRound, located, ok_bind]
  cases verdict : agreeCollective state.roundSpecs state.nodePeers with
  | ok root =>
      by_cases fits : state.nextTransferId.toNat + 1 < 2 ^ 64
      · simp only [if_pos fits, okOr_some, ok_bind]
        rfl
      · simp only [if_neg fits]
        rfl
  | error error => rfl

/-- A collective is refused, waits for more nodes or is decided. -/
theorem begin_cases :
    (∃ error, state.begin session requestId spec = .ok (state.reject error)) ∨
      state.Acceptable session ∧ state.begin session requestId spec =
          if (state.arrived session requestId spec).pendingCollectives.length ≠
              state.registeredNodes.keys.length then
            .ok ⟨state.arrived session requestId spec, [], .ok ()⟩
          else (state.arrived session requestId spec).concludeRound := by
  unfold begin
  split
  case isTrue => exact Or.inl ⟨_, rfl⟩
  case isFalse ready =>
    rw [not_or, not_or, not_not, not_not, not_not] at ready
    split
    case isTrue => exact Or.inl ⟨_, rfl⟩
    case isFalse new => exact Or.inr ⟨⟨ready.1, ready.2.1, ready.2.2, new⟩, rfl⟩

end Collectives

section Arrived

variable {state : GlobalCollectiveState Address DType} {session : SessionId}

/-- The collective waits for more nodes. -/
theorem Sound.arrived (sound : state.Sound) (unfailed : state.failed = none)
    (acceptable : state.Acceptable session) (requestId : RequestId)
    (spec : CollectiveSpec DType)
    (fewer : (state.arrived session requestId spec).pendingCollectives.length ≠
      state.registeredNodes.keys.length) :
    (state.arrived session requestId spec).Sound := by
  have present := keys_ne_nil_of_mem acceptable.registered
  have length : (state.arrived session requestId spec).pendingCollectives.length =
      state.pendingCollectives.length + 1 := List.length_append
  have room : state.pendingCollectives.length <
      state.registeredNodes.keys.length := by
    by_cases idle : state.pendingCollectives = []
    · rw [idle]
      exact List.length_pos_iff.mpr present
    · exact sound.pendingFewer idle
  exact {
    toMembership := ⟨sound.addressed, sound.peered, sound.nodesDistinct,
      sound.addressesDistinct, sound.peersDistinct, sound.counted⟩
    bounded := sound.bounded
    pendingDistinct := by
      rw [GlobalCollectiveState.arrived, List.map_append, List.map_singleton]
      refine List.Nodup.append sound.pendingDistinct (List.nodup_singleton _) ?_
      intro other earlier own
      rw [List.mem_singleton.mp own] at earlier
      exact acceptable.sessionNew earlier
    pendingRegistered := fun request member => by
      rcases List.mem_append.mp member with earlier | own
      · exact sound.pendingRegistered request earlier
      · rw [List.mem_singleton.mp own]
        exact acceptable.registered
    pendingFewer := fun _ => by
      rw [length] at fewer ⊢
      exact lt_of_le_of_ne room fewer
    pendingComplete := fun _ => ⟨acceptable.settled, acceptable.complete⟩
    failedMember := fun failed => absurd unfailed failed
    failedIdle := fun failed => absurd unfailed failed
    waiting := sound.waiting
    waitingRegistered := sound.waitingRegistered
    fresh := fun empty => absurd empty present
    numbered := sound.numbered }

/-- The collective has been decided. -/
theorem Sound.decided (sound : state.Sound) (transferId : UInt64) :
    @Sound Address DType { state with
      pendingCollectives := []
      nextTransferId := transferId } where
  toMembership := ⟨sound.addressed, sound.peered, sound.nodesDistinct,
    sound.addressesDistinct, sound.peersDistinct, sound.counted⟩
  bounded := sound.bounded
  pendingDistinct := List.nodup_nil
  pendingRegistered _ member := (List.not_mem_nil member).elim
  pendingFewer present := absurd rfl present
  pendingComplete present := absurd rfl present
  failedMember := sound.failedMember
  failedIdle failed := ⟨(sound.failedIdle failed).1, rfl⟩
  waiting := sound.waiting
  waitingRegistered := sound.waitingRegistered
  fresh empty := ⟨(sound.fresh empty).1, (sound.fresh empty).2.1, rfl⟩
  numbered := sound.numbered

end Arrived

theorem Sound.new : (new : GlobalCollectiveState Address DType).Sound where
  addressed node := by
    simp [GlobalCollectiveState.new]
  peered node := by
    simp [GlobalCollectiveState.new]
  nodesDistinct := List.nodup_nil
  addressesDistinct := List.nodup_nil
  peersDistinct := List.nodup_nil
  counted := rfl
  bounded := Nat.zero_le _
  pendingDistinct := List.nodup_nil
  pendingRegistered request member := (List.not_mem_nil member).elim
  pendingFewer present := absurd rfl present
  pendingComplete present := absurd rfl present
  failedMember present := absurd rfl present
  failedIdle present := absurd rfl present
  waiting present := absurd rfl present
  waitingRegistered request member := (List.not_mem_nil member).elim
  fresh _ := ⟨rfl, rfl, rfl⟩
  numbered _ := ⟨rfl, fun node member => (List.not_mem_nil member).elim⟩

section Step

variable {state : GlobalCollectiveState Address DType}

/-- Opening a session changes nothing but the sessions. -/
theorem initSession_eq (session : SessionId) :
    ∃ sessions : Table SessionId Session,
      state.initSession session = { state with sessions := sessions } ∧
      ∀ other, other ∈ sessions ↔ other = session ∨ other ∈ state.sessions := by
  unfold initSession
  split
  case isTrue known =>
    refine ⟨state.sessions, rfl, fun other => ?_⟩
    exact ⟨Or.inr, fun member =>
      member.elim (fun same => same ▸ known) id⟩
  case isFalse => exact ⟨_, rfl, fun other => AList.mem_insert _⟩

theorem getSessionResponder_eq (session : SessionId) :
    ∃ sessions : Table SessionId Session, (state.getSessionResponder session).1 =
        { state with sessions := sessions } ∧
      ∀ other, other ∈ sessions ↔ other = session ∨ other ∈ state.sessions := by
  obtain ⟨sessions, opened, known⟩ := @initSession_eq _ _ state session
  simp only [getSessionResponder, opened]
  split
  case h_1 =>
    refine ⟨_, rfl, fun other => ?_⟩
    rw [AList.mem_insert, known]
    exact ⟨fun member => member.elim Or.inl id, Or.inr⟩
  case h_2 => exact ⟨sessions, rfl, known⟩

/-- A session that goes takes its node with it. -/
theorem disconnect_cases (session : SessionId) :
    (∃ node, state.registeredNodes.lookup session = some node ∧ state.disconnect session =
        ({ (state.dropNode session node).resetIfEmpty with
            sessions := state.sessions.erase session },
          state.respondAll state.pendingCollectives (.error (.peerLost node)) ++
            state.respondAll state.registerRequests (.error (.peerLost node)))) ∨
      state.registeredNodes.lookup session = none ∧ state.disconnect session =
          ({ state.resetIfEmpty with
              sessions := state.sessions.erase session }, []) := by
  unfold disconnect
  split
  case h_1 node found =>
    refine Or.inl ⟨node, found, ?_⟩
    rw [← resetIfEmpty_withSessions]
    rfl
  case h_2 absent =>
    refine Or.inr ⟨absent, ?_⟩
    rw [← resetIfEmpty_withSessions]

/-- So does a node that finishes, but its session stays. -/
theorem finish_cases (session : SessionId) (requestId : RequestId) :
    (∃ node, state.registeredNodes.lookup session = some node ∧ state.finish session requestId =
        ⟨(state.dropNode session node).resetIfEmpty, state.respondAll state.pendingCollectives
              (.error (.peerLost node)) ++
            state.respondAll state.registerRequests (.error (.peerLost node)) ++
            state.respond session requestId .finishAck, .ok ()⟩) ∨
      state.registeredNodes.lookup session = none ∧ state.finish session requestId =
          state.reject .notRegisteredOnFinish := by
  unfold finish
  split
  case h_1 node found => exact Or.inl ⟨node, found, rfl⟩
  case h_2 absent => exact Or.inr ⟨absent, rfl⟩

theorem Sound.finish (sound : state.Sound) (session : SessionId) (requestId : RequestId) :
    (state.finish session requestId).state.Sound := by
  rcases @finish_cases _ _ state session requestId with
    ⟨node, found, left⟩ | ⟨_, refused⟩
  · rw [left]
    exact sound.dropNode found
  · rw [refused]
    exact sound

theorem Sound.register [DecidableEq Address] (sound : state.Sound)
    (session : SessionId) (requestId : RequestId) (nodeAddr : Address)
    (numNodes : UInt32) (peers : List PeerId) :
    ∃ handled, state.register session requestId nodeAddr numNodes peers =
      .ok handled ∧ handled.state.Sound := by
  rcases @register_cases _ _ _ state session requestId nodeAddr numNodes
      peers with ⟨error, rejected⟩ | ⟨admissible, enrolled⟩
  · exact ⟨_, rejected, sound⟩
  · rw [enroll_eq admissible.addressNew (sound.identified admissible)] at enrolled
    refine ⟨_, enrolled, ?_⟩
    split
    case isTrue =>
      exact sound.joined admissible requestId
        (fun present => absurd rfl present) (List.nil_subset _)
    case isFalse incomplete =>
      exact sound.joined admissible requestId (fun _ => incomplete) (List.Subset.refl _)

variable [DecidableEq DType]

/-- A node that may ask for a collective finds all others registered. -/
theorem Sound.concludeRound_eq_of_acceptable (sound : state.Sound)
    {session : SessionId} (acceptable : state.Acceptable session)
    (requestId : RequestId) (spec : CollectiveSpec DType) :
    (state.arrived session requestId spec).concludeRound =
      match agreeCollective (state.arrived session requestId spec).roundSpecs state.nodePeers with
      | .ok root =>
          if state.nextTransferId.toNat + 1 < 2 ^ 64 then
            .ok ((state.arrived session requestId spec).concluded
              (state.nextTransferId + 1) (.begin root state.nextTransferId))
          else .error .transferIdentifierExhausted
      | .error error =>
          .ok ((state.arrived session requestId spec).concluded
            state.nextTransferId (.error error)) := by
  refine concludeRound_eq fun request member => ?_
  rcases List.mem_append.mp member with earlier | own
  · exact sound.pendingRegistered request earlier
  · rw [List.mem_singleton.mp own]
    exact acceptable.registered

/-- A collective fails only when the transfer identifiers are used up. -/
theorem Sound.begin (sound : state.Sound) (unfailed : state.failed = none)
    (session : SessionId) (requestId : RequestId)
    (spec : CollectiveSpec DType) :
    state.begin session requestId spec = .error .transferIdentifierExhausted ∧
        ¬state.nextTransferId.toNat + 1 < 2 ^ 64 ∨
      ∃ handled, state.begin session requestId spec = .ok handled ∧
        handled.state.Sound := by
  rcases @begin_cases _ _ _ state session requestId spec with
    ⟨error, rejected⟩ | ⟨acceptable, began⟩
  · exact Or.inr ⟨_, rejected, sound⟩
  · by_cases fewer : (state.arrived session requestId spec).pendingCollectives.length ≠
        state.registeredNodes.keys.length
    · rw [if_pos fewer] at began
      exact Or.inr ⟨_, began, sound.arrived unfailed acceptable requestId spec fewer⟩
    · rw [if_neg fewer, sound.concludeRound_eq_of_acceptable acceptable] at began
      rw [began]
      split
      case h_1 root agreed =>
        split
        case isTrue => exact Or.inr ⟨_, rfl, sound.decided _⟩
        case isFalse exhausted => exact Or.inl ⟨rfl, exhausted⟩
      case h_2 error disagreed => exact Or.inr ⟨_, rfl, sound.decided _⟩

end Step

/-- A registration that is answered with an error. -/
def RegistrationRejected [DecidableEq Address] (state : GlobalCollectiveState Address DType)
    (session : SessionId) (requestId : RequestId) (nodeAddr : Address)
    (numNodes : UInt32) (peers : List PeerId) : Prop :=
  state.failed ≠ none ∨ ∃ handled error,
      state.register session requestId nodeAddr numNodes peers =
        .ok handled ∧ handled.result = .error error

end GlobalCollectiveState

open GlobalCollectiveState

variable {Address DType : Type} [DecidableEq Address] [DecidableEq DType]

/-- A request is refused, or a method has been called for it. -/
theorem processRequest_cases {state successor : GlobalCollectiveState Address DType}
    {session : SessionId} {requestId : RequestId}
    {request : RemoteRequest Address DType} {sent : List (Answer Address)}
    (ran : state.processRequest session requestId request = .ok (successor, sent)) :
    (∃ error, state.refusal request = some error ∧ successor = state ∧
        sent = state.respond session requestId (.error error)) ∨
      state.refusal request = none ∧
        ∃ handled, state.handle session requestId request = .ok handled ∧
          successor = handled.state ∧
          (handled.result = .ok () ∧ sent = handled.sent ∨
            ∃ error, handled.result = .error error ∧ sent = handled.sent ++
                successor.respond session requestId (.error error)) := by
  unfold processRequest at ran
  split at ran
  case h_1 error refused =>
    cases ran
    exact Or.inl ⟨error, refused, rfl, rfl⟩
  case h_2 admitted =>
    refine Or.inr ⟨admitted, ?_⟩
    obtain ⟨handled, called, later⟩ := of_bind ran
    refine ⟨handled, called, ?_⟩
    split at later
    case h_1 succeeded =>
      cases later
      exact ⟨rfl, Or.inl ⟨succeeded, rfl⟩⟩
    case h_2 error failed =>
      cases later
      exact ⟨rfl, Or.inr ⟨error, failed, rfl⟩⟩

/-- What a step of a sound state leads to. -/
theorem sound_of_handle {state : GlobalCollectiveState Address DType} (sound : state.Sound)
    (session : SessionId) (requestId : RequestId)
    {request : RemoteRequest Address DType}
    (admitted : state.refusal request = none) :
    state.handle session requestId request = .error .transferIdentifierExhausted ∧
        ¬state.nextTransferId.toNat + 1 < 2 ^ 64 ∨
      ∃ handled, state.handle session requestId request = .ok handled ∧
        handled.state.Sound := by
  cases request with
  | register nodeAddr numNodes peers =>
      exact Or.inr (sound.register session requestId nodeAddr numNodes peers)
  | begin spec => exact sound.begin admitted session requestId spec
  | finish => exact Or.inr ⟨_, rfl, sound.finish session requestId⟩

theorem sound_of_step {state successor : GlobalCollectiveState Address DType}
    (sound : state.Sound) {event : OrchestratorEvent Address DType}
    {sent : List (Answer Address)}
    (stepped : orchestratorStep state event = .ok (successor, sent)) :
    successor.Sound := by
  cases event with
  | init session =>
      cases stepped
      obtain ⟨sessions, opened, _⟩ := @initSession_eq _ _ state session
      rw [opened]
      exact sound.withSessions sessions
  | responder session =>
      cases stepped
      obtain ⟨sessions, opened, _⟩ :=
        @getSessionResponder_eq _ _ state session
      rw [opened]
      exact sound.withSessions sessions
  | request session requestId request =>
      rcases processRequest_cases stepped with
        ⟨error, _, rfl, _⟩ | ⟨admitted, handled, called, rfl, _⟩
      · exact sound
      · rcases sound_of_handle sound session requestId admitted with
          ⟨panicked, _⟩ | ⟨result, returned, kept⟩
        · rw [called] at panicked
          cases panicked
        · rw [called] at returned
          cases returned
          exact kept
  | disconnect session =>
      rcases @disconnect_cases _ _ state session with
        ⟨node, found, left⟩ | ⟨_, left⟩
      · rw [orchestratorStep, left] at stepped
        cases stepped
        exact (sound.dropNode found).withSessions _
      · rw [orchestratorStep, left, sound.resetIfEmpty_eq] at stepped
        cases stepped
        exact sound.withSessions _

/-- Only the transfer identifiers can run out. -/
theorem panic_of_step {state : GlobalCollectiveState Address DType} (sound : state.Sound)
    {event : OrchestratorEvent Address DType} {panic : Panic}
    (stopped : orchestratorStep state event = .error panic) :
    panic = .transferIdentifierExhausted ∧ ¬state.nextTransferId.toNat + 1 < 2 ^ 64 := by
  cases event with
  | init session => cases stopped
  | responder session => cases stopped
  | disconnect session => cases stopped
  | request session requestId request =>
      rw [orchestratorStep, processRequest] at stopped
      split at stopped
      case h_1 => cases stopped
      case h_2 admitted =>
        rcases sound_of_handle sound session requestId admitted with
          ⟨panicked, exhausted⟩ | ⟨handled, returned, _⟩
        · rw [panicked] at stopped
          cases stopped
          exact ⟨rfl, exhausted⟩
        · rw [returned, ok_bind] at stopped
          split at stopped
          case h_1 => cases stopped
          case h_2 => cases stopped

/-! ## Every run -/

theorem orchestratorNext_eq_some_iff {state successor : GlobalCollectiveState Address DType}
    {event : OrchestratorEvent Address DType} :
    orchestratorNext state event = some successor ↔
      ∃ sent, orchestratorStep state event = .ok (successor, sent) := by
  unfold orchestratorNext
  cases orchestratorStep state event with
  | error panic => simp
  | ok result =>
      obtain ⟨next, sent⟩ := result
      simp

theorem sound_of_reached
    {guard : GlobalCollectiveState Address DType → OrchestratorEvent Address DType → Prop}
    {state : GlobalCollectiveState Address DType}
    (reached : Reached orchestratorNext guard .new state) :
    state.Sound := by
  refine reached.invariant Sound.new ?_
  intro earlier event later sound _ stepped
  obtain ⟨sent, ran⟩ := orchestratorNext_eq_some_iff.mp stepped
  exact sound_of_step sound ran

omit [DecidableEq Address] [DecidableEq DType] in
/-- The sum of the peer counts does not fit only when all identifiers are
taken. -/
theorem numGlobalPeers_eq {state : GlobalCollectiveState Address DType}
    (members : state.Membership) :
    state.allPeers.length ≤ 2 ^ 32 ∧
      (state.allPeers.length < 2 ^ 32 → state.numGlobalPeers.toNat = state.allPeers.length) := by
  constructor
  · have distinct : (state.allPeers.map UInt32.toNat).Nodup :=
      members.peersDistinct.map fun _ _ same => UInt32.toNat.inj same
    have within : state.allPeers.map UInt32.toNat ⊆ List.range (2 ^ 32) := by
      intro number member
      obtain ⟨peer, _, rfl⟩ := List.mem_map.mp member
      exact List.mem_range.mpr peer.toNat_lt
    have fits := (List.subperm_of_subset distinct within).length_le
    rwa [List.length_map, List.length_range] at fits
  · intro fits
    rw [members.counted, UInt32.toNat_ofNat']
    exact Nat.mod_eq_of_lt fits

theorem state_eq_of_rejected {state successor : GlobalCollectiveState Address DType}
    (sound : state.Sound) {session : SessionId} {requestId : RequestId}
    {nodeAddr : Address} {numNodes : UInt32} {peers : List PeerId}
    {sent : List (Answer Address)}
    (rejected : RegistrationRejected state session requestId nodeAddr numNodes peers)
    (ran : state.processRequest session requestId
      (.register nodeAddr numNodes peers) = .ok (successor, sent)) :
    successor = state := by
  rcases processRequest_cases ran with
    ⟨_, _, same, _⟩ | ⟨admitted, handled, called, same, _⟩
  · exact same
  · rcases rejected with failed | ⟨result, error, returned, refused⟩
    · exact absurd admitted failed
    · replace called : state.register session requestId nodeAddr numNodes
        peers = .ok handled := called
      rw [called] at returned
      cases returned
      rcases @register_cases _ _ _ state session requestId nodeAddr numNodes
          peers with ⟨_, unchanged⟩ | ⟨admissible, enrolled⟩
      · rw [called] at unchanged
        cases unchanged
        exact same
      · rw [enroll_eq admissible.addressNew (sound.identified admissible), called] at enrolled
        cases enrolled
        split at refused
        case isTrue => cases refused
        case isFalse => cases refused

/-- In every state that some run reaches the members, the counters and the
waiting collective fit together, and a registration that is rejected leaves all
of them as they are. -/
theorem orchestrator_consistent {state : GlobalCollectiveState Address DType}
    (reached : Reachable orchestratorNext .new state) :
    state.Consistent ∧ state.allPeers.length ≤ 2 ^ 32 ∧
      (state.allPeers.length < 2 ^ 32 → state.numGlobalPeers.toNat = state.allPeers.length) ∧
      (∀ event panic, orchestratorStep state event = .error panic →
        panic = .transferIdentifierExhausted) ∧
      ∀ session requestId nodeAddr numNodes peers successor sent,
        RegistrationRejected state session requestId nodeAddr numNodes peers →
        orchestratorStep state (.request session requestId
          (.register nodeAddr numNodes peers)) = .ok (successor, sent) →
        successor = state := by
  have sound := sound_of_reached reached
  obtain ⟨bounded, summed⟩ := numGlobalPeers_eq sound.toMembership
  refine ⟨sound.toConsistent, bounded, summed, ?_, ?_⟩
  · intro event panic stopped
    exact (panic_of_step sound stopped).1
  · intro session requestId nodeAddr numNodes peers successor sent rejected stepped
    exact state_eq_of_rejected sound rejected stepped

/-- Two nodes have registered and one of them waits for the other. -/
def twoNodes : List (OrchestratorEvent Nat Unit) :=
  [.init 1, .init 2, .request 1 0 (.register 10 2 [0, 1]), .request 2 0 (.register 11 2 [2]),
    .request 1 1 (.begin (.broadcast .centralized none))]

theorem orchestrator_consistent_two :
    let state := (follow orchestratorNext (fun _ _ => True) .new twoNodes).getD .new
    state.pendingCollectives.length = 1 ∧ state.Consistent := by
  refine ⟨by decide, (orchestrator_consistent ?_).1⟩
  exact Reached.of_follow_isSome _ (by decide)

end RuCCL.Global
