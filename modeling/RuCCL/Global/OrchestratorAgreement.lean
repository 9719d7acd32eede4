import RuCCL.Global.OrchestratorAnswers
import Mathlib.Data.List.Pairwise

/-!
# The agreement on a collective

`Agreed` says when a round succeeds and with which root, in terms that do not
mention the order of the requests or of the entries of a map.  The code's verdict
is that rule, and the transfer identifiers it hands out only grow.
-/

namespace RuCCL.Global

open RuCCL.Library GlobalCollectiveState

variable {Address DType : Type}

def CollectiveSpec.HasTensor : CollectiveSpec DType → Bool
  | .broadcast _ (some _) => true
  | _ => false

/-- All nodes ask for the same collective and its root is determined. -/
inductive Agreed (specs : List (NodeId × CollectiveSpec DType))
    (peers : Table NodeId (List PeerId)) (root : NodeId) : Prop
  | allReduce (op : ReduceOperation) (strategy : AllReduceStrategy)
      (shape : List Nat) (dtype : DType)
      (same : ∀ entry ∈ specs, entry.2 = .allReduce op strategy shape dtype)
      (arity : strategy ≠ .tree 0) (present : root ∈ peers)
      (least : ∀ node ∈ peers, root.toNat ≤ node.toNat)
  | reduce (peer : PeerId) (op : ReduceOperation) (strategy : ReduceStrategy)
      (shape : List Nat) (dtype : DType)
      (same : ∀ entry ∈ specs, entry.2 = .reduce peer op strategy shape dtype)
      (arity : strategy ≠ .tree 0) (group : List PeerId)
      (found : peers.lookup root = some group) (member : peer ∈ group)
  | broadcast (strategy : BroadcastStrategy)
      (same : ∀ entry ∈ specs, ∃ metadata, entry.2 = .broadcast strategy metadata)
      (arity : strategy ≠ .tree 0)
      (single : specs.countP (fun entry => entry.2.HasTensor) = 1)
      (source : ∃ spec, (root, spec) ∈ specs ∧ spec.HasTensor = true)

/-- The order in which the nodes ask does not matter. -/
theorem Agreed.perm {specs others : List (NodeId × CollectiveSpec DType)}
    {peers : Table NodeId (List PeerId)} {root : NodeId}
    (order : specs.Perm others) (agreed : Agreed specs peers root) :
    Agreed others peers root := by
  cases agreed with
  | allReduce op strategy shape dtype same arity present least =>
      exact .allReduce op strategy shape dtype
        (fun entry member => same entry (order.mem_iff.mpr member)) arity
        present least
  | reduce peer op strategy shape dtype same arity group found member =>
      exact .reduce peer op strategy shape dtype
        (fun entry among => same entry (order.mem_iff.mpr among)) arity
        group found member
  | broadcast strategy same arity single source =>
      obtain ⟨spec, member, tensor⟩ := source
      refine .broadcast strategy
        (fun entry among => same entry (order.mem_iff.mpr among)) arity ?_
        ⟨spec, order.mem_iff.mp member, tensor⟩
      rw [← order.countP_eq]
      exact single

theorem leastNode_foldl (nodes : List NodeId) (best : NodeId) :
    ∃ least, nodes.foldl
        (fun least node =>
          match least with
          | none => some node
          | some best => some (if node < best then node else best))
        (some best) = some least ∧
      least ∈ best :: nodes ∧
      ∀ node ∈ best :: nodes, least.toNat ≤ node.toNat := by
  induction nodes generalizing best with
  | nil =>
      refine ⟨best, rfl, List.mem_cons_self, fun node member => ?_⟩
      rw [List.mem_singleton.mp member]
  | cons node rest ih =>
      obtain ⟨least, folded, member, lower⟩ := ih (if node < best then node else best)
      refine ⟨least, folded, ?_, ?_⟩
      · rcases List.mem_cons.mp member with chosen | later
        · split at chosen
          case isTrue =>
            rw [chosen]
            exact List.mem_cons_of_mem _ List.mem_cons_self
          case isFalse =>
            rw [chosen]
            exact List.mem_cons_self
        · exact List.mem_cons_of_mem _ (List.mem_cons_of_mem _ later)
      · have bound := lower _ List.mem_cons_self
        have both : least.toNat ≤ node.toNat ∧ least.toNat ≤ best.toNat := by
          split at bound
          case isTrue smaller =>
            rw [UInt32.lt_iff_toNat_lt] at smaller
            omega
          case isFalse larger =>
            rw [UInt32.lt_iff_toNat_lt] at larger
            omega
        intro other among
        rcases List.mem_cons.mp among with first | others
        · rw [first]
          exact both.2
        · rcases List.mem_cons.mp others with second | later
          · rw [second]
            exact both.1
          · exact lower other (List.mem_cons_of_mem _ later)

theorem leastNode_eq_some_iff {nodes : List NodeId} {root : NodeId} :
    leastNode nodes = some root ↔ root ∈ nodes ∧ ∀ node ∈ nodes, root.toNat ≤ node.toNat := by
  cases nodes with
  | nil => simp [leastNode]
  | cons first rest =>
      obtain ⟨least, folded, member, lower⟩ := leastNode_foldl rest first
      replace folded : leastNode (first :: rest) = some least := folded
      rw [folded]
      constructor
      · intro same
        cases same
        exact ⟨member, lower⟩
      · rintro ⟨among, bound⟩
        have equal : least.toNat = root.toNat :=
          Nat.le_antisymm (lower root among) (bound least member)
        rw [UInt32.toNat.inj equal]

/-- No peer belongs to two nodes. -/
theorem owner_unique {peers : Table NodeId (List PeerId)}
    (distinct : (values peers).flatten.Nodup)
    {first second : Sigma fun _ : NodeId => List PeerId}
    (firstMember : first ∈ peers.entries)
    (secondMember : second ∈ peers.entries) {peer : PeerId}
    (inFirst : peer ∈ first.2) (inSecond : peer ∈ second.2) :
    first = second := by
  have apart := (List.nodup_flatten.mp distinct).2
  rw [values, List.pairwise_map] at apart
  have symmetric : Std.Symm fun left right :
      Sigma fun _ : NodeId => List PeerId => List.Disjoint left.2 right.2 :=
    ⟨fun _ _ disjoint => disjoint.symm⟩
  by_contra different
  exact apart.forall firstMember secondMember different inFirst inSecond

theorem owner_eq_some_iff {peers : Table NodeId (List PeerId)}
    (distinct : (values peers).flatten.Nodup) {peer : PeerId}
    {root : NodeId} :
    (peers.entries.find? fun entry => decide (peer ∈ entry.2)).map Sigma.fst = some root ↔
      ∃ group, peers.lookup root = some group ∧ peer ∈ group := by
  rw [Option.map_eq_some_iff]
  constructor
  · rintro ⟨entry, found, rfl⟩
    have holds := List.find?_some found
    exact ⟨entry.2, AList.mem_lookup_iff.mpr
      (List.mem_of_find?_eq_some found), of_decide_eq_true holds⟩
  · rintro ⟨group, located, member⟩
    have among := AList.mem_lookup_iff.mp located
    have some : (peers.entries.find? fun entry =>
        decide (peer ∈ entry.2)).isSome :=
      List.find?_isSome.mpr ⟨_, among, decide_eq_true member⟩
    obtain ⟨entry, found⟩ := Option.isSome_iff_exists.mp some
    have holds := List.find?_some found
    have same := owner_unique distinct (List.mem_of_find?_eq_some found)
      among (of_decide_eq_true holds) member
    exact ⟨entry, found, congrArg Sigma.fst same⟩

section Broadcast

variable {strategy : BroadcastStrategy}

theorem broadcastSource_some
    {specs : List (NodeId × CollectiveSpec DType)} {source root : NodeId} :
    broadcastSource strategy (some source) specs = .ok root ↔ root = source ∧
        ∀ entry ∈ specs, entry.2 = .broadcast strategy none := by
  induction specs with
  | nil => simp [broadcastSource, eq_comm]
  | cons entry rest ih =>
      obtain ⟨node, spec⟩ := entry
      cases spec with
      | allReduce op strategy shape dtype => simp [broadcastSource]
      | reduce root op strategy shape dtype => simp [broadcastSource]
      | broadcast other metadata =>
          rw [broadcastSource]
          by_cases same : strategy = other
          · subst same
            cases metadata with
            | none => simp [ih]
            | some metadata => simp
          · have different : ¬other = strategy := fun equal =>
              same equal.symm
            simp [same, different]

/-- Without a tensor all requests of a broadcast are the same. -/
theorem no_tensor_iff {specs : List (NodeId × CollectiveSpec DType)} :
    (∀ entry ∈ specs, entry.2 = .broadcast strategy none) ↔
      (∀ entry ∈ specs, ∃ metadata, entry.2 = .broadcast strategy metadata) ∧
        specs.countP (fun entry => entry.2.HasTensor) = 0 := by
  rw [List.countP_eq_zero]
  constructor
  · intro same
    refine ⟨fun entry member => ⟨none, same entry member⟩, ?_⟩
    intro entry member
    rw [same entry member]
    exact Bool.false_ne_true
  · rintro ⟨same, none⟩ entry member
    obtain ⟨metadata, shape⟩ := same entry member
    have absent := none entry member
    cases metadata with
    | none => exact shape
    | some metadata =>
        rw [shape] at absent
        exact absurd rfl absent

theorem broadcastSource_none {specs : List (NodeId × CollectiveSpec DType)} {root : NodeId} :
    broadcastSource strategy none specs = .ok root ↔
      (∀ entry ∈ specs, ∃ metadata, entry.2 = .broadcast strategy metadata) ∧
        specs.countP (fun entry => entry.2.HasTensor) = 1 ∧
        ∃ spec, (root, spec) ∈ specs ∧ spec.HasTensor = true := by
  induction specs with
  | nil => simp [broadcastSource, okOr]
  | cons entry rest ih =>
      obtain ⟨node, spec⟩ := entry
      cases spec with
      | allReduce op strategy shape dtype => simp [broadcastSource]
      | reduce root op strategy shape dtype => simp [broadcastSource]
      | broadcast other metadata =>
          rw [broadcastSource]
          by_cases same : strategy = other
          · subst same
            rw [if_neg (not_not_intro rfl), List.forall_mem_cons]
            cases metadata with
            | none =>
                have absent : ¬(CollectiveSpec.broadcast strategy none :
                  CollectiveSpec DType).HasTensor = true :=
                  Bool.false_ne_true
                have counted : List.countP (fun entry =>
                    entry.2.HasTensor) ((node, .broadcast strategy none) ::
                      rest) = rest.countP fun entry => entry.2.HasTensor :=
                  List.countP_cons_of_neg absent
                rw [if_neg (by simp), ih, counted]
                constructor
                · rintro ⟨all, single, spec, member, tensor⟩
                  exact ⟨⟨⟨none, rfl⟩, all⟩, single, spec, List.mem_cons_of_mem _ member, tensor⟩
                · rintro ⟨⟨_, all⟩, single, spec, member, tensor⟩
                  refine ⟨all, single, spec, ?_, tensor⟩
                  rcases List.mem_cons.mp member with first | later
                  · cases first
                    exact absurd tensor absent
                  · exact later
            | some metadata =>
                have present : (CollectiveSpec.broadcast strategy
                  (some metadata) : CollectiveSpec DType).HasTensor = true :=
                  rfl
                have counted : List.countP (fun entry =>
                    entry.2.HasTensor)
                    ((node, .broadcast strategy (some metadata)) :: rest) =
                    (rest.countP fun entry => entry.2.HasTensor) + 1 :=
                  List.countP_cons_of_pos present
                rw [if_pos (by simp), if_neg (by simp), broadcastSource_some,
                  no_tensor_iff, counted]
                constructor
                · rintro ⟨rfl, all, none⟩
                  exact ⟨⟨⟨_, rfl⟩, all⟩, by rw [none], _,
                    List.mem_cons_self, present⟩
                · rintro ⟨⟨_, all⟩, single, spec, member, tensor⟩
                  have none := Nat.succ.inj single
                  refine ⟨?_, all, none⟩
                  rcases List.mem_cons.mp member with first | later
                  · exact congrArg Prod.fst first
                  · exact absurd tensor (List.countP_eq_zero.mp none _ later)
          · have different : ¬other = strategy := fun equal =>
              same equal.symm
            simp [same, different]

end Broadcast

section Verdict

variable [DecidableEq DType] {specs : List (NodeId × CollectiveSpec DType)}
  {peers : Table NodeId (List PeerId)} {root : NodeId}

/-- The code's verdict is the rule. -/
theorem agreeCollective_eq_ok_iff (distinct : (values peers).flatten.Nodup) (asked : specs ≠ []) :
    agreeCollective specs peers = .ok root ↔ Agreed specs peers root := by
  cases specs with
  | nil => exact absurd rfl asked
  | cons entry rest =>
      obtain ⟨node, first⟩ := entry
      have head := @List.mem_cons_self _ (node, first) rest
      cases first with
      | allReduce op strategy shape dtype =>
          simp only [agreeCollective, bind_eq_ok_iff, rejectIf_eq_ok_iff,
            okOr_eq_ok_iff, leastNode_eq_some_iff]
          constructor
          · rintro ⟨_, same, _, arity, present, least⟩
            refine .allReduce op strategy shape dtype ?_ arity present least
            intro entry member
            by_contra different
            exact same ⟨entry, member, different⟩
          · intro agreed
            cases agreed with
            | allReduce _ _ _ _ same arity present least =>
                cases same _ head
                refine ⟨(), ?_, (), arity, present, least⟩
                rintro ⟨entry, member, different⟩
                exact different (same entry member)
            | reduce _ _ _ _ _ same => cases same _ head
            | broadcast _ same =>
                obtain ⟨_, shape⟩ := same _ head
                cases shape
      | reduce peer op strategy shape dtype =>
          simp only [agreeCollective, bind_eq_ok_iff, rejectIf_eq_ok_iff,
            okOr_eq_ok_iff, owner_eq_some_iff distinct]
          constructor
          · rintro ⟨_, same, _, arity, group, found, member⟩
            refine .reduce peer op strategy shape dtype ?_ arity group found member
            intro entry among
            by_contra different
            exact same ⟨entry, among, different⟩
          · intro agreed
            cases agreed with
            | allReduce _ _ _ _ same => cases same _ head
            | reduce _ _ _ _ _ same arity group found member =>
                cases same _ head
                refine ⟨(), ?_, (), arity, group, found, member⟩
                rintro ⟨entry, among, different⟩
                exact different (same entry among)
            | broadcast _ same =>
                obtain ⟨_, shape⟩ := same _ head
                cases shape
      | broadcast strategy metadata =>
          simp only [agreeCollective, bind_eq_ok_iff, rejectIf_eq_ok_iff, broadcastSource_none]
          constructor
          · rintro ⟨_, arity, same, single, source⟩
            exact .broadcast strategy same arity single source
          · intro agreed
            cases agreed with
            | allReduce _ _ _ _ same => cases same _ head
            | reduce _ _ _ _ _ same => cases same _ head
            | broadcast _ same arity single source =>
                obtain ⟨_, shape⟩ := same _ head
                cases shape
                exact ⟨(), arity, same, single, source⟩

/-- There is at most one root. -/
theorem Agreed.unique {other : NodeId}
    (distinct : (values peers).flatten.Nodup) (asked : specs ≠ [])
    (agreed : Agreed specs peers root) (again : Agreed specs peers other) :
    root = other := by
  have first := (agreeCollective_eq_ok_iff distinct asked).mpr agreed
  have second := (agreeCollective_eq_ok_iff distinct asked).mpr again
  rw [first] at second
  exact Except.ok.inj second

end Verdict

/-- Every member asks once, and nothing else is going on. -/
structure Round (state : GlobalCollectiveState Address DType)
    (requests : List (SessionId × RequestId × CollectiveSpec DType)) :
    Prop where
  unfailed : state.failed = none
  settled : state.registerRequests = []
  complete : state.registeredNodes.keys.length = state.agreedNodes
  idle : state.pendingCollectives = []
  asked : requests ≠ []
  everyone : (requests.map Prod.fst).Perm state.registeredNodes.keys

/-- What the nodes ask for in a round. -/
def specsOf (state : GlobalCollectiveState Address DType)
    (requests : List (SessionId × RequestId × CollectiveSpec DType)) :
    List (NodeId × CollectiveSpec DType) :=
  requests.map fun request => (state.nodeOf request.1, request.2.2)

theorem Round.perm {state : GlobalCollectiveState Address DType}
    {requests others : List (SessionId × RequestId × CollectiveSpec DType)}
    (round : Round state requests) (order : requests.Perm others) :
    Round state others :=
  ⟨round.unfailed, round.settled, round.complete, round.idle,
    fun empty => round.asked (empty ▸ order).eq_nil,
    (order.symm.map Prod.fst).trans round.everyone⟩

variable [DecidableEq Address] [DecidableEq DType]

/-- The nodes ask one after the other. -/
def beginAll (state : GlobalCollectiveState Address DType) :
    List (SessionId × RequestId × CollectiveSpec DType) → Except Panic
        (GlobalCollectiveState Address DType × List (Answer Address))
  | [] => .ok (state, [])
  | (session, requestId, spec) :: rest => do
      let (next, sent) ← orchestratorStep state (.request session requestId (.begin spec))
      let (final, later) ← beginAll next rest
      .ok (final, sent ++ later)

/-- The end of a round with all of its requests. -/
def roundEnd (state : GlobalCollectiveState Address DType)
    (requests : List (SessionId × RequestId × CollectiveSpec DType))
    (nextTransferId : UInt64) (content : RemoteResponse Address) :
    GlobalCollectiveState Address DType × List (Answer Address) :=
  ({ state with
      pendingCollectives := []
      nextTransferId := nextTransferId },
    state.respondAll requests content)

section Rounds

variable {state : GlobalCollectiveState Address DType}
  {session : SessionId} {requestId : RequestId} {spec : CollectiveSpec DType}

theorem step_of_acceptable (sound : state.Sound) (unfailed : state.failed = none)
    (acceptable : state.Acceptable session) :
    orchestratorStep state (.request session requestId (.begin spec)) =
      if (state.arrived session requestId spec).pendingCollectives.length ≠
          state.registeredNodes.keys.length then
        .ok (state.arrived session requestId spec, [])
      else
        match agreeCollective (specsOf state
          (state.pendingCollectives ++ [(session, requestId, spec)]))
          state.nodePeers with
        | .ok root =>
            if state.nextTransferId.toNat + 1 < 2 ^ 64 then
              .ok (roundEnd state (state.pendingCollectives ++ [(session, requestId, spec)])
                (state.nextTransferId + 1)
                (.begin root state.nextTransferId))
            else .error .transferIdentifierExhausted
        | .error error =>
            .ok (roundEnd state (state.pendingCollectives ++ [(session, requestId, spec)])
              state.nextTransferId (.error error)) := by
  have ready : ¬(session ∉ state.registeredNodes ∨ state.registerRequests ≠ [] ∨
      state.registeredNodes.keys.length ≠ (state.curNumNodes.getD 0).toNat) := by
    rintro (absent | waiting | incomplete)
    · exact absent acceptable.registered
    · exact waiting acceptable.settled
    · exact incomplete acceptable.complete
  have began : state.begin session requestId spec =
      if (state.arrived session requestId spec).pendingCollectives.length ≠
          state.registeredNodes.keys.length then
        .ok ⟨state.arrived session requestId spec, [], .ok ()⟩
      else (state.arrived session requestId spec).concludeRound := by
    rw [GlobalCollectiveState.begin, if_neg ready, if_neg acceptable.sessionNew]
    rfl
  have admitted : state.refusal (.begin spec : RemoteRequest Address DType) = none := unfailed
  simp only [orchestratorStep, processRequest, admitted, handle]
  rw [began]
  split
  case isTrue => rfl
  case isFalse =>
    rw [sound.concludeRound_eq_of_acceptable acceptable]
    have specs : (state.arrived session requestId spec).roundSpecs =
        specsOf state (state.pendingCollectives ++ [(session, requestId, spec)]) := rfl
    rw [specs]
    cases agreeCollective (specsOf state (state.pendingCollectives ++
      [(session, requestId, spec)])) state.nodePeers with
    | ok root =>
        by_cases fits : state.nextTransferId.toNat + 1 < 2 ^ 64
        · simp only [if_pos fits]
          rfl
        · simp only [if_neg fits]
          rfl
    | error error => rfl

theorem bind_pair {ε α β : Type} (result : Except ε (α × β)) :
    (do
      let pair ← result
      .ok (pair.1, pair.2)) = result := by
  cases result with
  | ok pair => rfl
  | error failure => rfl

/-- The last request of a round decides for all of them. -/
theorem beginAll_eq {rest : List (SessionId × RequestId × CollectiveSpec DType)}
    (sound : state.Sound) (unfailed : state.failed = none)
    (settled : state.registerRequests = [])
    (complete : state.registeredNodes.keys.length = state.agreedNodes)
    (asked : rest ≠ [])
    (everyone : ((state.pendingCollectives ++ rest).map Prod.fst).Perm
      state.registeredNodes.keys) :
    beginAll state rest =
      match agreeCollective (specsOf state
        (state.pendingCollectives ++ rest)) state.nodePeers with
      | .ok root =>
          if state.nextTransferId.toNat + 1 < 2 ^ 64 then
            .ok (roundEnd state (state.pendingCollectives ++ rest) (state.nextTransferId + 1)
              (.begin root state.nextTransferId))
          else .error .transferIdentifierExhausted
      | .error error =>
          .ok (roundEnd state (state.pendingCollectives ++ rest)
            state.nextTransferId (.error error)) := by
  induction rest generalizing state with
  | nil => exact absurd rfl asked
  | cons request rest ih =>
      obtain ⟨session, requestId, spec⟩ := request
      have distinct := everyone.nodup_iff.mpr state.registeredNodes.keys_nodup
      have count := everyone.length_eq
      rw [List.map_append, List.map_cons] at distinct everyone
      rw [List.length_map, List.length_append, List.length_cons] at count
      have acceptable : state.Acceptable session := by
        refine ⟨?_, settled, complete, fun again => ?_⟩
        · rw [AList.mem_keys]
          exact everyone.mem_iff.mp (List.mem_append_right _ List.mem_cons_self)
        · exact (List.nodup_append.mp distinct).2.2 session again session List.mem_cons_self rfl
      have length : (state.arrived session requestId spec).pendingCollectives.length =
          state.pendingCollectives.length + 1 := List.length_append
      cases rest with
      | nil =>
          have full : ¬(state.arrived session requestId spec).pendingCollectives.length ≠
              state.registeredNodes.keys.length := by
            rw [length, not_not]
            exact count
          rw [beginAll, step_of_acceptable sound unfailed acceptable, if_neg full]
          cases agreeCollective (specsOf state (state.pendingCollectives ++
            [(session, requestId, spec)])) state.nodePeers with
          | ok root =>
              by_cases fits : state.nextTransferId.toNat + 1 < 2 ^ 64
              · simp only [if_pos fits, ok_bind, beginAll, List.append_nil]
              · simp only [if_neg fits, error_bind]
          | error error => simp only [ok_bind, beginAll, List.append_nil]
      | cons next rest =>
          have fewer : (state.arrived session requestId spec).pendingCollectives.length ≠
              state.registeredNodes.keys.length := by
            rw [length]
            rw [List.length_cons] at count
            omega
          have joined : (state.arrived session requestId
              spec).pendingCollectives ++ next :: rest =
              state.pendingCollectives ++ (session, requestId, spec) :: next :: rest := by
            rw [GlobalCollectiveState.arrived, List.append_assoc]
            rfl
          have later := @ih (state.arrived session requestId spec)
            (sound.arrived unfailed acceptable requestId spec fewer)
            unfailed settled complete (List.cons_ne_nil _ _) (by
              rw [joined, List.map_append, List.map_cons]
              exact everyone)
          rw [joined] at later
          rw [beginAll, step_of_acceptable sound unfailed acceptable, if_pos fewer, ok_bind]
          simp only [later, List.nil_append]
          exact bind_pair _

/-- When a round succeeds, and what its nodes are told. -/
theorem beginAll_of_round {requests : List (SessionId × RequestId × CollectiveSpec DType)}
    (sound : state.Sound) (round : Round state requests) :
    (∀ root, Agreed (specsOf state requests) state.nodePeers root → beginAll state requests =
        if state.nextTransferId.toNat + 1 < 2 ^ 64 then
          .ok (roundEnd state requests (state.nextTransferId + 1)
            (.begin root state.nextTransferId))
        else .error .transferIdentifierExhausted) ∧
      ((∀ root, ¬Agreed (specsOf state requests) state.nodePeers root) →
        ∃ error, beginAll state requests =
          .ok (roundEnd state requests state.nextTransferId (.error error))) := by
  have whole := beginAll_eq sound round.unfailed round.settled round.complete
    round.asked (by
      rw [round.idle]
      exact round.everyone)
  rw [round.idle, List.nil_append] at whole
  have some : specsOf state requests ≠ [] := fun empty =>
    round.asked (List.map_eq_nil_iff.mp empty)
  have rule : ∀ root, _ ↔ _ := fun root =>
    @agreeCollective_eq_ok_iff _ _ _ _ root sound.peersDistinct some
  constructor
  · intro root agreed
    rw [whole, (rule root).mpr agreed]
  · intro disagreed
    cases verdict : agreeCollective (specsOf state requests) state.nodePeers with
    | ok root => exact absurd ((rule root).mp verdict) (disagreed root)
    | error error =>
        rw [verdict] at whole
        exact ⟨error, whole⟩

end Rounds

/-- The collective that an event begins. -/
def begunBy :
    OrchestratorEvent Address DType → List (SessionId × RequestId × CollectiveSpec DType)
  | .request session requestId (.begin spec) => [(session, requestId, spec)]
  | _ => []

/-- The answer to the requests of a round follows the rule. -/
def Decided (state : GlobalCollectiveState Address DType)
    (requests : List (SessionId × RequestId × CollectiveSpec DType))
    (content : RemoteResponse Address) : Prop :=
  (∃ root, content = .begin root state.nextTransferId ∧
      Agreed (specsOf state requests) state.nodePeers root) ∨
    ∃ error, content = .error error ∧
      ∀ root, ¬Agreed (specsOf state requests) state.nodePeers root

section Transfers

variable {state successor : GlobalCollectiveState Address DType}
  {event : OrchestratorEvent Address DType} {sent : List (Answer Address)}

omit [DecidableEq Address] [DecidableEq DType] in
theorem nextTransferId_resetIfEmpty :
    state.resetIfEmpty.nextTransferId = state.nextTransferId := by
  unfold resetIfEmpty
  split
  case isTrue => rfl
  case isFalse => rfl

omit [DecidableEq Address] [DecidableEq DType] in
theorem specsOf_ne_nil (session : SessionId) (requestId : RequestId)
    (spec : CollectiveSpec DType) :
    specsOf state (state.pendingCollectives ++ [(session, requestId, spec)]) ≠ [] := by
  intro empty
  have none := List.map_eq_nil_iff.mp empty
  exact List.cons_ne_nil _ _ (List.append_eq_nil_iff.mp none).2

omit [DecidableEq Address] in
/-- Either the round goes on or all of its requests get one answer, which the
rule decides unless a member has left. -/
theorem same_answer_of_outcome (sound : state.Sound)
    (outcome : Outcome state event successor sent) :
    successor.pendingCollectives = state.pendingCollectives ∨ successor.pendingCollectives =
        state.pendingCollectives ++ begunBy event ∨
      ∃ content others, successor.pendingCollectives = [] ∧ sent = state.respondAll
          (state.pendingCollectives ++ begunBy event) content ++ others ∧
        (∀ answer ∈ others, answer.content = content ∨ answer.key ∈ asked event) ∧
        (begunBy event ≠ [] → Decided state
          (state.pendingCollectives ++ begunBy event) content) := by
  cases outcome with
  | opened => exact Or.inl rfl
  | closed => exact Or.inl rfl
  | refused => exact Or.inl rfl
  | joined => exact Or.inl rfl
  | completed => exact Or.inl rfl
  | arrived => exact Or.inr (Or.inl rfl)
  | @lost session node found =>
      refine Or.inr (Or.inr ⟨.error (.peerLost node),
        state.respondAll state.registerRequests (.error (.peerLost node)),
        (@resetIfEmpty_queues _ _ (state.dropNode session node)).2.1,
        ?_, ?_, fun begun => absurd rfl begun⟩)
      · have none : begunBy (.disconnect session :
          OrchestratorEvent Address DType) = [] := rfl
        rw [none, List.append_nil]
      · intro answer member
        exact Or.inl (content_of_mem_respondAll member)
  | @finished session requestId node found =>
      refine Or.inr (Or.inr ⟨.error (.peerLost node),
        state.respondAll state.registerRequests (.error (.peerLost node)) ++
          state.respond session requestId .finishAck,
        (@resetIfEmpty_queues _ _ (state.dropNode session node)).2.1,
        ?_, ?_, fun begun => absurd rfl begun⟩)
      · have none : begunBy (.request session requestId .finish :
          OrchestratorEvent Address DType) = [] := rfl
        rw [none, List.append_nil, List.append_assoc]
      · intro answer member
        rcases List.mem_append.mp member with waiting | own
        · exact Or.inl (content_of_mem_respondAll waiting)
        · unfold respond at own
          split at own
          case isTrue =>
            rw [List.mem_singleton.mp own]
            exact Or.inr List.mem_cons_self
          case isFalse => exact (List.not_mem_nil own).elim
  | @agreed session requestId spec root _ _ verdict _ =>
      refine Or.inr (Or.inr ⟨_, [], rfl, (List.append_nil _).symm,
        fun _ member => (List.not_mem_nil member).elim, fun _ => ?_⟩)
      refine Or.inl ⟨root, rfl, ?_⟩
      exact (agreeCollective_eq_ok_iff sound.peersDistinct
        (specsOf_ne_nil session requestId spec)).mp verdict
  | @disagreed session requestId spec error _ _ verdict =>
      refine Or.inr (Or.inr ⟨_, [], rfl, (List.append_nil _).symm,
        fun _ member => (List.not_mem_nil member).elim, fun _ => ?_⟩)
      refine Or.inr ⟨error, rfl, fun root agreed => ?_⟩
      have succeeded := (agreeCollective_eq_ok_iff sound.peersDistinct
        (specsOf_ne_nil session requestId spec)).mpr agreed
      have both := verdict.symm.trans succeeded
      cases both

omit [DecidableEq Address] in
/-- A success uses up one identifier; nothing else touches the counter. -/
theorem transfer_of_outcome (outcome : Outcome state event successor sent) :
    state.nextTransferId.toNat ≤ successor.nextTransferId.toNat ∧
      ∀ answer ∈ sent, ∀ root transferId, answer.content = .begin root transferId →
        transferId = state.nextTransferId ∧
          state.nextTransferId.toNat < successor.nextTransferId.toNat := by
  cases outcome with
  | opened => exact ⟨le_refl _, fun _ member => (List.not_mem_nil member).elim⟩
  | closed => exact ⟨le_refl _, fun _ member => (List.not_mem_nil member).elim⟩
  | joined => exact ⟨le_refl _, fun _ member => (List.not_mem_nil member).elim⟩
  | arrived => exact ⟨le_refl _, fun _ member => (List.not_mem_nil member).elim⟩
  | refused =>
      refine ⟨le_refl _, fun answer member root transferId begun => ?_⟩
      rw [content_of_mem_respond member] at begun
      cases begun
  | @lost session node found =>
      have same := @nextTransferId_resetIfEmpty _ _ (state.dropNode session node)
      refine ⟨le_of_eq (congrArg UInt64.toNat same.symm), ?_⟩
      intro answer member root transferId begun
      have silent := no_success_of_loss member
      rw [begun] at silent
      exact absurd trivial silent
  | @finished session requestId node found =>
      have same := @nextTransferId_resetIfEmpty _ _ (state.dropNode session node)
      refine ⟨le_of_eq (congrArg UInt64.toNat same.symm), ?_⟩
      intro answer member root transferId begun
      rcases List.mem_append.mp member with others | own
      · have silent := no_success_of_loss others
        rw [begun] at silent
        exact absurd trivial silent
      · rw [content_of_mem_respond own] at begun
        cases begun
  | completed =>
      refine ⟨le_refl _, fun answer member root transferId begun => ?_⟩
      obtain ⟨request, _, among⟩ := List.mem_flatMap.mp member
      rw [content_of_mem_respond among] at begun
      cases begun
  | agreed _ _ _ fits =>
      have next : (state.nextTransferId + 1).toNat = state.nextTransferId.toNat + 1 := by
        rw [UInt64.toNat_add]
        exact Nat.mod_eq_of_lt fits
      have later : state.nextTransferId.toNat < (state.nextTransferId + 1).toNat := by
        rw [next]
        exact Nat.lt_succ_self _
      refine ⟨Nat.le_of_lt later, ?_⟩
      intro answer member root transferId begun
      rw [content_of_mem_respondAll member] at begun
      cases begun
      exact ⟨rfl, later⟩
  | disagreed =>
      refine ⟨le_refl _, fun answer member root transferId begun => ?_⟩
      rw [content_of_mem_respondAll member] at begun
      cases begun

/-- Over a run the counter never decreases. -/
theorem transfer_of_reached {start later : GlobalCollectiveState Address DType}
    (sound : start.Sound) (reached : Reachable orchestratorNext start later) :
    later.Sound ∧ start.nextTransferId.toNat ≤ later.nextTransferId.toNat := by
  refine @Reached.invariant _ _ _ _ _
    (fun between => between.Sound ∧ start.nextTransferId.toNat ≤ between.nextTransferId.toNat)
    ⟨sound, le_refl _⟩ ?_ _ reached
  intro between event next holds _ stepped
  obtain ⟨sent, ran⟩ := orchestratorNext_eq_some_iff.mp stepped
  have grown := (transfer_of_outcome (outcome_of_step holds.1 ran)).1
  exact ⟨sound_of_step holds.1 ran, le_trans holds.2 grown⟩

end Transfers

/-! ## Every run -/

/-- In every run the nodes of one collective get one answer and the transfer
identifiers grow; a round succeeds, with a root that is determined, exactly when
the rule says so, in whichever order its nodes ask. -/
theorem begin_agreement {state : GlobalCollectiveState Address DType}
    (reached : Reachable orchestratorNext .new state) :
    (∀ event successor sent, orchestratorStep state event = .ok (successor, sent) →
      (successor.pendingCollectives = state.pendingCollectives ∨ successor.pendingCollectives =
          state.pendingCollectives ++ begunBy event ∨
        ∃ content others, successor.pendingCollectives = [] ∧ sent = state.respondAll
            (state.pendingCollectives ++ begunBy event) content ++ others ∧
          (∀ answer ∈ others, answer.content = content ∨ answer.key ∈ asked event) ∧
          (begunBy event ≠ [] → Decided state
            (state.pendingCollectives ++ begunBy event) content)) ∧
      ∀ answer ∈ sent, ∀ root transferId, answer.content = .begin root transferId →
        ∀ later, Reachable orchestratorNext successor later →
          ∀ following, ∀ other ∈ sentBy later following, ∀ otherRoot otherId,
              other.content = .begin otherRoot otherId →
              transferId.toNat < otherId.toNat) ∧
      ∀ requests, Round state requests →
        (∀ root, Agreed (specsOf state requests) state.nodePeers root → beginAll state requests =
            if state.nextTransferId.toNat + 1 < 2 ^ 64 then
              .ok (roundEnd state requests (state.nextTransferId + 1)
                (.begin root state.nextTransferId))
            else .error .transferIdentifierExhausted) ∧
        ((∀ root, ¬Agreed (specsOf state requests) state.nodePeers root) →
          ∃ error, beginAll state requests =
            .ok (roundEnd state requests state.nextTransferId (.error error))) ∧
        (∀ root other, Agreed (specsOf state requests) state.nodePeers root →
          Agreed (specsOf state requests) state.nodePeers other →
          root = other) ∧
        ∀ others, requests.Perm others → Round state others ∧
          ∀ root, Agreed (specsOf state others) state.nodePeers root ↔
            Agreed (specsOf state requests) state.nodePeers root := by
  have sound := sound_of_reached reached
  constructor
  · intro event successor sent stepped
    have outcome := outcome_of_step sound stepped
    refine ⟨same_answer_of_outcome sound outcome, ?_⟩
    intro answer member root transferId begun later after following other
      among otherRoot otherId otherBegun
    obtain ⟨first, used⟩ := (transfer_of_outcome outcome).2 answer member root transferId begun
    obtain ⟨laterSound, grown⟩ := transfer_of_reached (sound_of_step sound stepped) after
    unfold sentBy at among
    split at among
    case h_1 next answers ran =>
      have second := ((transfer_of_outcome
        (outcome_of_step laterSound ran)).2 other among otherRoot otherId otherBegun).1
      rw [first, second]
      exact Nat.lt_of_lt_of_le used grown
    case h_2 => exact (List.not_mem_nil among).elim
  · intro requests round
    obtain ⟨succeeds, fails⟩ := beginAll_of_round sound round
    have some : specsOf state requests ≠ [] := fun empty =>
      round.asked (List.map_eq_nil_iff.mp empty)
    refine ⟨succeeds, fails, fun root other agreed again =>
      agreed.unique sound.peersDistinct some again, ?_⟩
    intro others order
    refine ⟨round.perm order, fun root => ⟨?_, ?_⟩⟩
    · exact Agreed.perm (order.symm.map _)
    · exact Agreed.perm (order.map _)

/-- The other node of the group asks as well, and it has the tensor. -/
theorem begin_agreement_two :
    let state := (follow orchestratorNext (fun _ _ => True) .new (twoNodes.take 4)).getD .new
    let requests : List (SessionId × RequestId × CollectiveSpec Unit) :=
      [(1, 1, .broadcast .centralized none), (2, 1, .broadcast .centralized (some ([4], ())))]
    Agreed (specsOf state requests) state.nodePeers 1 ∧ beginAll state requests =
        .ok (roundEnd state requests 3 (.begin 1 2)) := by
  intro state requests
  have reached : Reachable orchestratorNext .new state :=
    Reached.of_follow_isSome _ (by decide)
  have specs : specsOf state requests = [(0, .broadcast .centralized none),
      (1, .broadcast .centralized (some ([4], ())))] := by
    decide
  have agreed : Agreed (specsOf state requests) state.nodePeers 1 := by
    rw [specs]
    refine .broadcast .centralized ?_ (by decide) rfl
      ⟨_, List.mem_cons_of_mem _ List.mem_cons_self, rfl⟩
    intro entry member
    rcases List.mem_cons.mp member with rfl | later
    · exact ⟨none, rfl⟩
    · rw [List.mem_singleton.mp later]
      exact ⟨_, rfl⟩
  have round : Round state requests :=
    ⟨by decide, by decide, by decide,
      by decide, List.cons_ne_nil _ _, by decide⟩
  have told := ((begin_agreement reached).2 requests round).1 1 agreed
  have counter : state.nextTransferId = 2 := by
    decide
  rw [counter] at told
  exact ⟨agreed, told⟩

end RuCCL.Global
