import RuCCL.Global.Node
import RuCCL.Global.OrchestratorAgreement
import RuCCL.Library.SpanningTree
import RuCCL.Local.ServerInvariant
import Mathlib.Data.Fintype.EquivFin

/-!
# The transfer ids of collectives

The all-reduces name their own transfers, the orchestrator names those of rooted
collectives, from 2 on.  One central node and a tree use 0 and 1; a ring counts
its steps, and with three nodes or more it gets to 2 and beyond.
-/

namespace RuCCL.Global

open RuCCL.Library RuCCL.Local GlobalCollectiveState

variable {Tensor Device DType Address : Type}

section Uses

variable {B : Backend Tensor Device} {used : Nat}

theorem not_uses_fail {Result : Type} (error : GlobalCollectiveError) :
    ¬(fail error : NodeProgram Tensor Result).Uses used :=
  id

theorem uses_sumDownloads {Result : Type} {shape : List Nat} {device : Device} {id : Nat}
    {next : Tensor → NodeProgram Tensor Result} {count : Nat}
    {sources : List NodeId} {sum : Tensor}
    (uses : (sumDownloads B shape device id next count sources sum).Uses used) :
    used = id ∨ ∃ total, (next total).Uses used := by
  induction count generalizing sources sum with
  | zero => exact Or.inr ⟨sum, uses⟩
  | succ count ih =>
      obtain ⟨source, _, now | ⟨data, later⟩⟩ := uses
      · exact Or.inl now
      · dsimp only at later
        split at later
        case isTrue => exact absurd later (not_uses_fail _)
        case isFalse => exact ih later

theorem uses_exposeToChildren {children : Option (List NodeId)}
    {result : Tensor} (uses : (exposeToChildren children result).Uses used) :
    used = 1 := by
  unfold exposeToChildren at uses
  split at uses
  case h_1 => exact uses.elim id False.elim
  case h_2 => exact uses.elim

theorem uses_centralizedAllReduceSum {node : NodeId}
    {nodes : Table NodeId Address} {tensor : Tensor}
    (uses : (centralizedAllReduceSum B node nodes tensor).Uses used) :
    used < 2 := by
  rw [centralizedAllReduceSum] at uses
  dsimp only at uses
  split at uses
  case h_1 => exact uses.elim
  case h_2 central _ =>
    split at uses
    case isTrue =>
      rcases uses_sumDownloads uses with first | ⟨total, second | none⟩
      · omega
      · omega
      · exact none.elim
    case isFalse =>
      rcases uses with first | ⟨source, _, second | ⟨data, later⟩⟩
      · omega
      · omega
      · dsimp only at later
        split at later
        case isTrue => exact absurd later (not_uses_fail _)
        case isFalse => exact later.elim

theorem uses_treeAllReduceSum {node : NodeId} {nodes : Table NodeId Address}
    {tensor : Tensor} {arity : UInt32}
    (uses : (treeAllReduceSum B node nodes tensor arity).Uses used) :
    used < 2 := by
  rw [treeAllReduceSum] at uses
  dsimp only at uses
  split at uses
  case h_1 => exact uses.elim
  case h_2 strategy _ =>
    rcases uses_sumDownloads uses with first | ⟨total, later⟩
    · omega
    · split at later
      case h_1 parent _ =>
        rcases later with up | ⟨source, _, down | ⟨data, below⟩⟩
        · omega
        · omega
        · dsimp only at below
          split at below
          case isTrue => exact absurd below (not_uses_fail _)
          case isFalse =>
            have second := uses_exposeToChildren below
            omega
      case h_2 =>
        have second := uses_exposeToChildren later
        omega

/-- The cycles of a ring count on. -/
theorem uses_doCycles {isPhaseOne : Bool} {prevNode : NodeId}
    {device : Device} {cycles : Nat} {state : RingState Tensor}
    (uses : (doCycles B isPhaseOne prevNode device cycles state).Uses used) :
    used < state.transferCounter + cycles := by
  induction cycles generalizing state with
  | zero => exact uses.elim
  | succ cycles ih =>
      rw [doCycles] at uses
      dsimp only at uses
      split at uses
      case h_1 =>
        rcases uses with now | ⟨data, later⟩
        · omega
        · dsimp only at later
          split at later
          case isTrue => exact absurd later (not_uses_fail _)
          case isFalse =>
            have bound := ih later
            dsimp only at bound
            omega
      case h_2 => exact uses.elim

theorem returns_doCycles {isPhaseOne : Bool} {prevNode : NodeId}
    {device : Device} {cycles : Nat} {state final : RingState Tensor}
    (returns : (doCycles B isPhaseOne prevNode device cycles state).Returns (.ok final)) :
    final.transferCounter = state.transferCounter + cycles := by
  induction cycles generalizing state with
  | zero =>
      cases returns
      rfl
  | succ cycles ih =>
      rw [doCycles] at returns
      dsimp only at returns
      split at returns
      case h_1 =>
        obtain ⟨data, later⟩ := returns
        dsimp only at later
        split at later
        case isTrue => cases later
        case isFalse =>
          have count := ih later
          dsimp only at count
          omega
      case h_2 => cases returns

theorem uses_andThen {Result Other : Type} {program : NodeProgram Tensor Result}
    {further : Result → NodeProgram Tensor Other}
    (uses : (andThen program further).Uses used) :
    program.Uses used ∨ ∃ result, program.Returns (.ok result) ∧ (further result).Uses used := by
  rcases Routine.uses_bind uses with first | ⟨result, returns, second⟩
  · exact Or.inl first
  · cases result with
    | ok value => exact Or.inr ⟨value, returns, second⟩
    | error failure => exact second.elim

theorem uses_ringCyclesOf {ring : List NodeId} {position : Nat}
    {prevNode : NodeId} {device : Device} {slices : List Tensor}
    {sliceDim : Nat}
    (uses : (ringCyclesOf B ring position prevNode device slices sliceDim).Uses used) :
    used < 2 * (ring.length - 1) := by
  rcases uses_andThen uses with first | ⟨reduced, returns, later⟩
  · have bound := uses_doCycles first
    dsimp only at bound
    omega
  · rcases uses_andThen later with second | ⟨gathered, _, last⟩
    · have bound := uses_doCycles second
      have count := returns_doCycles returns
      dsimp only at count
      omega
    · exact last.elim

theorem length_getRingTopology (nodes : List NodeId) :
    (getRingTopology nodes).length = nodes.length :=
  List.length_insertionSort _ _

theorem mem_getRingTopology {nodes : List NodeId} {node : NodeId} :
    node ∈ getRingTopology nodes ↔ node ∈ nodes :=
  List.mem_insertionSort _

theorem uses_ringAllReduceSum {node : NodeId} {nodes : Table NodeId Address} {tensor : Tensor}
    (uses : (ringAllReduceSum B node nodes tensor).Uses used) :
    used < 2 * (nodes.keys.length - 1) ∧
      ∃ sliceDim, getSliceDim (B.shape tensor) = some sliceDim ∧
        nodes.keys.length ≤ (B.shape tensor).getD sliceDim 0 := by
  unfold ringAllReduceSum at uses
  dsimp only at uses
  split at uses
  case h_1 => exact uses.elim
  case h_2 sliceDim chosen =>
    split at uses
    case isTrue => exact uses.elim
    case isFalse large =>
      refine ⟨?_, sliceDim, chosen, Nat.le_of_not_lt large⟩
      split at uses
      case h_1 =>
        split at uses
        case h_1 =>
          have bound := uses_ringCyclesOf uses
          rwa [length_getRingTopology] at bound
        case h_2 => exact uses.elim
      case h_2 => exact uses.elim
      case h_3 => exact uses.elim

/-- A ring can be walked: its slices are there, and so is the one to send. -/
structure RingReady (count : Nat) (state : RingState Tensor) : Prop where
  slices : state.slices.length = count
  sends : state.sendSliceIdx < count

/-- A cycle of a ring that can be walked exposes under the current id. -/
theorem doCycles_ready {count : Nat} {state : RingState Tensor}
    (ready : RingReady count state) (isPhaseOne : Bool) (prevNode : NodeId)
    (device : Device) (cycles : Nat) :
    ∃ sliceSend old, doCycles B isPhaseOne prevNode device (cycles + 1) state =
        .exchange sliceSend 1 state.transferCounter prevNode fun data =>
          if ¬isPhaseOne ∧ B.shape old ≠ B.shape (B.floatToDevice data device) then
            fail .peerSentIncoherentTensor
          else doCycles B isPhaseOne prevNode device cycles
            { slices := state.slices.set
                ((state.sendSliceIdx + state.slices.length - 1) % state.slices.length)
                (if isPhaseOne then
                  B.floatAdd old (B.floatToDevice data device)
                else B.floatToDevice data device)
              transferCounter := state.transferCounter + 1
              sendSliceIdx := (state.sendSliceIdx + state.slices.length - 1) %
                  state.slices.length } := by
  obtain ⟨slices, sends⟩ := ready
  have present : state.sendSliceIdx < state.slices.length := by
    rw [slices]
    exact sends
  have received : (state.sendSliceIdx + state.slices.length - 1) %
      state.slices.length < state.slices.length :=
    Nat.mod_lt _ (by omega)
  obtain ⟨sliceSend, sent⟩ : ∃ slice, state.slices[state.sendSliceIdx]? =
      some slice := ⟨_, List.getElem?_eq_getElem present⟩
  obtain ⟨old, held⟩ : ∃ slice, state.slices[(state.sendSliceIdx +
      state.slices.length - 1) % state.slices.length]? = some slice :=
    ⟨_, List.getElem?_eq_getElem received⟩
  refine ⟨sliceSend, old, ?_⟩
  simp only [doCycles, sent, held]

/-- The first phase of a ring uses all ids of its cycles and goes on to the next
phase, whatever arrives. -/
theorem doCycles_uses_all {count : Nat} {prevNode : NodeId} {device : Device}
    (cycles : Nat) {state : RingState Tensor} (ready : RingReady count state) :
    (∀ cycle < cycles, (doCycles B true prevNode device cycles state).Uses
      (state.transferCounter + cycle)) ∧
      ∃ final, RingReady count final ∧ (doCycles B true prevNode device cycles state).Returns
          (.ok final) := by
  induction cycles generalizing state with
  | zero =>
      exact ⟨fun _ none => absurd none (Nat.not_lt_zero _), state, ready,
        rfl⟩
  | succ cycles ih =>
      obtain ⟨sliceSend, old, walked⟩ :=
        @doCycles_ready _ _ B _ _ ready true prevNode device cycles
      simp only [not_true_eq_false, false_and, if_false, if_true] at walked
      rw [walked]
      have onward : RingReady count
          { slices := state.slices.set
              ((state.sendSliceIdx + state.slices.length - 1) % state.slices.length)
              (B.floatAdd old (B.floatToDevice sliceSend device))
            transferCounter := state.transferCounter + 1
            sendSliceIdx := (state.sendSliceIdx + state.slices.length - 1) %
                state.slices.length : RingState Tensor } := by
        refine ⟨by rw [List.length_set, ready.slices], ?_⟩
        have sends := ready.sends
        rw [ready.slices]
        exact Nat.mod_lt _ (by omega)
      obtain ⟨all, final, finalReady, returns⟩ := ih onward
      refine ⟨?_, final, finalReady, sliceSend, returns⟩
      intro cycle within
      cases cycle with
      | zero => exact Or.inl rfl
      | succ before =>
          refine Or.inr ⟨sliceSend, ?_⟩
          have later := all before (by omega)
          rwa [Nat.add_assoc, Nat.add_comm 1 before] at later

theorem RingReady.uses_first {count : Nat} {state : RingState Tensor}
    (ready : RingReady count state) (isPhaseOne : Bool) (prevNode : NodeId)
    (device : Device) (cycles : Nat) :
    (doCycles B isPhaseOne prevNode device (cycles + 1) state).Uses
      state.transferCounter := by
  obtain ⟨sliceSend, old, walked⟩ :=
    @doCycles_ready _ _ B _ _ ready isPhaseOne prevNode device cycles
  rw [walked]
  exact Or.inl rfl

/-- With three nodes or more a ring uses the id 2. -/
theorem ringCyclesOf_uses_two {ring : List NodeId} (three : 3 ≤ ring.length)
    {position : Nat} (within : position < ring.length) (prevNode : NodeId)
    (device : Device) {slices : List Tensor}
    (sliced : slices.length = ring.length) (sliceDim : Nat) :
    (ringCyclesOf B ring position prevNode device slices sliceDim).Uses
      2 := by
  have ready : RingReady ring.length
      (⟨slices, 0, position⟩ : RingState Tensor) := ⟨sliced, within⟩
  obtain ⟨all, reduced, reducedReady, returns⟩ :=
    @doCycles_uses_all _ _ B _ prevNode device (ring.length - 1) _ ready
  rcases Nat.lt_or_ge 2 (ring.length - 1) with first | second
  · have now := all 2 first
    rw [Nat.zero_add] at now
    exact now.bind _
  · have count := returns_doCycles returns
    dsimp only at count
    refine returns.uses_bind ?_
    refine Routine.Uses.bind ?_ _
    have last : ring.length - 1 = 1 + 1 := by omega
    rw [last]
    have now := reducedReady.uses_first (B := B) false prevNode device 1
    rwa [count, last] at now

/-- A member of a ring whose tensor is long enough walks the ring. -/
theorem ringAllReduceSum_eq {node : NodeId} {nodes : Table NodeId Address}
    {tensor : Tensor} (member : node ∈ nodes) {sliceDim : Nat}
    (chosen : getSliceDim (B.shape tensor) = some sliceDim)
    (large : nodes.keys.length ≤ (B.shape tensor).getD sliceDim 0)
    {ranges : List (Nat × Nat)}
    (computed : getRingReduceSliceRanges ((B.shape tensor).getD sliceDim 0)
      nodes.keys.length = .ok ranges) :
    let ring := getRingTopology nodes.keys
    ring.idxOf node < ring.length ∧ ∃ prevNode,
      ring[(ring.idxOf node + ring.length - 1) % ring.length]? = some prevNode ∧
      ringAllReduceSum B node nodes tensor = ringCyclesOf B ring (ring.idxOf node) prevNode
          (B.floatDevice tensor) (sliceTensor B tensor sliceDim ranges)
          sliceDim := by
  have among : node ∈ getRingTopology nodes.keys :=
    (mem_getRingTopology).mpr (AList.mem_keys.mp member)
  have found := idxOf?_of_mem among
  rw [← length_getRingTopology] at computed
  unfold ringAllReduceSum
  generalize getRingTopology nodes.keys = ring at *
  have position : ring.idxOf node < ring.length := List.idxOf_lt_length_iff.mpr among
  have previous : (ring.idxOf node + ring.length - 1) % ring.length <
      ring.length := Nat.mod_lt _ (by omega)
  have precedes := List.getElem?_eq_getElem previous
  refine ⟨position, _, precedes, ?_⟩
  simp only [chosen, if_neg (Nat.not_lt.mpr large), computed, found, precedes]

theorem ringAllReduceSum_uses_two {node : NodeId}
    {nodes : Table NodeId Address} {tensor : Tensor} (member : node ∈ nodes)
    (three : 3 ≤ nodes.keys.length) {sliceDim : Nat}
    (chosen : getSliceDim (B.shape tensor) = some sliceDim)
    (large : nodes.keys.length ≤ (B.shape tensor).getD sliceDim 0) :
    (ringAllReduceSum B node nodes tensor).Uses 2 := by
  have count := length_getRingTopology nodes.keys
  obtain ⟨position, prevNode, _, walked⟩ := ringAllReduceSum_eq member chosen
    large (if_neg (by omega))
  rw [walked]
  refine ringCyclesOf_uses_two (by omega) position _ _ ?_ _
  rw [sliceTensor, List.length_map, List.length_map, List.length_range, count]

/-- The ids of an all-reduce are those of its strategy. -/
theorem uses_allReduceInner {state : RegisteredNode Address}
    {tensor : Tensor} {strategy : AllReduceStrategy} {op : ReduceOperation}
    (uses : (allReduceInner B state tensor strategy op).Uses used) :
    used < 2 ∨ strategy = .ring ∧
      (ringAllReduceSum B state.nodeId state.nodes tensor).Uses used := by
  rcases uses_andThen uses with within | ⟨result, _, behind⟩
  · cases strategy with
    | centralized => exact Or.inl (uses_centralizedAllReduceSum within)
    | tree arity => exact Or.inl (uses_treeAllReduceSum within)
    | ring => exact Or.inr ⟨rfl, within⟩
  · cases op with
    | sum => exact behind.elim
    | mean => exact behind.elim

end Uses

def CollectiveSpec.IsRooted : CollectiveSpec DType → Prop
  | .allReduce .. => False
  | .reduce .. => True
  | .broadcast .. => True

variable [DecidableEq Address] [DecidableEq DType]

/-- The orchestrator gives the id to a rooted collective of so many nodes. -/
def AssignedToRooted (Address DType : Type) [DecidableEq Address]
    [DecidableEq DType] (count id : Nat) : Prop :=
  ∃ (state : GlobalCollectiveState Address DType) (session : SessionId)
    (requestId : RequestId) (spec : CollectiveSpec DType)
    (successor : GlobalCollectiveState Address DType)
    (sent : List (Answer Address)),
    Reachable orchestratorNext .new state ∧
    state.registeredNodes.keys.length = count ∧ spec.IsRooted ∧
    orchestratorStep state (.request session requestId (.begin spec)) = .ok (successor, sent) ∧
    ∃ answer ∈ sent, ∃ root transferId,
      answer.content = .begin root transferId ∧ transferId.toNat = id

theorem two_le_of_assigned {count id : Nat} (assigned : AssignedToRooted Address DType count id) :
    2 ≤ id := by
  obtain ⟨state, session, requestId, spec, successor, sent, reached, _, _,
    stepped, answer, among, root, transferId, begun, same⟩ := assigned
  obtain ⟨sound, grown⟩ := transfer_of_reached Sound.new reached
  have own := (transfer_of_outcome (outcome_of_step sound stepped)).2 answer
    among root transferId begun
  rw [← same, own.1]
  exact grown

/-- The session, the address and the peer of the nodes that have registered so
far. -/
structure Filling (address : Nat → Address) (numNodes : UInt32)
    (count : Nat) (state : GlobalCollectiveState Address DType) :
    Prop where
  unfailed : state.failed = none
  idle : state.pendingCollectives = []
  counter : state.nextTransferId = 2
  members : state.registeredNodes.keys.length = count
  sessions : ∀ session ∈ state.registeredNodes, session.toNat < count ∧ session ∈ state.sessions
  addresses : ∀ used ∈ values state.nodeAddresses, ∃ index < count, used = address index
  peers : ∀ peer ∈ state.allPeers, peer.toNat < count
  agreed : 0 < count → state.curNumNodes = some numNodes
  waiting : 0 < count → count < numNodes.toNat → state.registerRequests ≠ []
  settled : count = numNodes.toNat → state.registerRequests = []
  rooted : 0 < count → ∃ node peers, state.nodePeers.lookup node = some peers ∧ 0 ∈ peers

omit [DecidableEq DType] in
/-- A registration that passes all checks joins the group. -/
theorem register_of_admissible {state : GlobalCollectiveState Address DType} {session : SessionId}
    {nodeAddr : Address} {numNodes : UInt32} {peers : List PeerId}
    (admissible : state.Admissible session nodeAddr numNodes peers)
    (requestId : RequestId) :
    state.register session requestId nodeAddr numNodes peers =
      { state with curNumNodes := some numNodes }.enroll session requestId
        nodeAddr numNodes peers := by
  have unique : firstDuplicate (values state.nodePeers).flatten [] peers =
      none :=
    (firstDuplicate_eq_none_iff [] peers).mpr ⟨admissible.peersNew.1,
      fun peer member => ⟨List.not_mem_nil, admissible.peersNew.2 peer member⟩⟩
  have open_ : ¬(state.registeredNodes.keys ≠ [] ∧ state.registerRequests = []) := by
    rintro ⟨present, none⟩
    rcases admissible.registering with empty | waiting
    · exact present empty
    · exact waiting none
  rw [register, if_neg (not_or.mpr ⟨admissible.countPositive,
    admissible.peersPresent⟩), if_neg (not_or.mpr ⟨admissible.sessionNew,
    admissible.addressNew⟩), if_neg open_, unique]
  dsimp only
  rcases admissible.sameCount with none | same
  · rw [none]
  · simp only [same, ne_eq, not_true_eq_false, if_false]
    congr 1
    rw [← same]

section Filling

variable {address : Nat → Address} {numNodes : UInt32} {count : Nat}
  {state : GlobalCollectiveState Address DType}

omit [DecidableEq Address] [DecidableEq DType] in
theorem Filling.new :
    Filling address numNodes 0 (.new : GlobalCollectiveState Address DType) where
  unfailed := rfl
  idle := rfl
  counter := rfl
  members := rfl
  sessions _ absent := (AList.notMem_empty _ absent).elim
  addresses _ absent := (List.not_mem_nil absent).elim
  peers _ absent := (List.not_mem_nil absent).elim
  agreed positive := absurd positive (Nat.lt_irrefl 0)
  waiting positive := absurd positive (Nat.lt_irrefl 0)
  settled _ := rfl
  rooted positive := absurd positive (Nat.lt_irrefl 0)

omit [DecidableEq Address] [DecidableEq DType] in
/-- The next node passes the checks of its registration. -/
theorem Filling.admissible (filling : Filling address numNodes count state)
    (sound : state.Sound) (injective : Function.Injective address)
    (room : count < numNodes.toNat) :
    state.Admissible (UInt64.ofNat count) (address count) numNodes [UInt32.ofNat count] := by
  have small : count < 2 ^ 32 := room.trans numNodes.toNat_lt
  have session : (UInt64.ofNat count).toNat = count :=
    UInt64.toNat_ofNat_of_lt' (by rw [UInt64.size]; omega)
  have peer : (UInt32.ofNat count).toNat = count := UInt32.toNat_ofNat_of_lt' small
  constructor
  case countPositive =>
    rintro rfl
    exact absurd room (Nat.not_lt_zero _)
  case peersPresent => exact List.cons_ne_nil _ _
  case sessionNew =>
    intro present
    have earlier := (filling.sessions _ present).1
    omega
  case addressNew =>
    intro present
    obtain ⟨index, earlier, same⟩ := filling.addresses _ present
    have equal := injective same
    omega
  case registering =>
    rcases Nat.eq_zero_or_pos count with none | some
    · refine Or.inl (List.length_eq_zero_iff.mp ?_)
      rw [filling.members, none]
    · exact Or.inr (filling.waiting some room)
  case peersNew =>
    refine ⟨List.nodup_singleton _, fun other member present => ?_⟩
    rw [List.mem_singleton.mp member] at present
    have earlier := filling.peers _ present
    omega
  case sameCount =>
    rcases Nat.eq_zero_or_pos count with none | some
    · refine Or.inl (sound.fresh (List.length_eq_zero_iff.mp ?_)).1
      rw [filling.members, none]
    · exact Or.inr (filling.agreed some)

omit [DecidableEq Address] [DecidableEq DType] in
/-- The state behind the next registration. -/
theorem Filling.joined (filling : Filling address numNodes count state)
    (sound : state.Sound) (room : count < numNodes.toNat)
    (fresh : UInt64.ofNat count ∉ state.registeredNodes)
    (opened : UInt64.ofNat count ∈ state.sessions)
    (requestId : RequestId)
    {requests : List (SessionId × RequestId × NodeId)}
    (waiting : count + 1 < numNodes.toNat → requests ≠ [])
    (settled : count + 1 = numNodes.toNat → requests = []) :
    Filling address numNodes (count + 1)
      { state.joined (UInt64.ofNat count) requestId (address count) numNodes
          [UInt32.ofNat count] with registerRequests := requests } := by
  have small : count < 2 ^ 32 := room.trans numNodes.toNat_lt
  have session : (UInt64.ofNat count).toNat = count :=
    UInt64.toNat_ofNat_of_lt' (by rw [UInt64.size]; omega)
  have peer : (UInt32.ofNat count).toNat = count := UInt32.toNat_ofNat_of_lt' small
  have numbered := sound.numbered filling.unfailed
  -- the identifier of the new node is not in use
  have unused : ∀ node ∈ values state.registeredNodes, node ≠ state.nextNodeId := by
    intro node among same
    have lower := numbered.2 node among
    rw [same] at lower
    exact UInt32.lt_irrefl _ lower
  constructor
  case unfailed => exact filling.unfailed
  case idle => exact filling.idle
  case counter => exact filling.counter
  case members =>
    have longer := length_keys_insert_of_notMem fresh state.nextNodeId
    rw [filling.members] at longer
    exact longer
  case sessions =>
    intro other present
    rcases (AList.mem_insert _).mp present with rfl | earlier
    · exact ⟨by omega, opened⟩
    · have old := filling.sessions other earlier
      exact ⟨by omega, old.2⟩
  case addresses =>
    intro used present
    have missing : state.nextNodeId ∉ state.nodeAddresses := fun present =>
      unused _ ((sound.addressed _).mp present) rfl
    have split : values (state.nodeAddresses.insert state.nextNodeId
        (address count)) = address count :: values state.nodeAddresses :=
      values_insert_of_notMem missing _
    rcases List.mem_cons.mp (split ▸ present) with rfl | earlier
    · exact ⟨count, Nat.lt_succ_self _, rfl⟩
    · obtain ⟨index, before, same⟩ := filling.addresses used earlier
      exact ⟨index, by omega, same⟩
  case peers =>
    intro other present
    have missing : state.nextNodeId ∉ state.nodePeers := fun present =>
      unused _ ((sound.peered _).mp present) rfl
    have split : values (state.nodePeers.insert state.nextNodeId [UInt32.ofNat count]) =
        [UInt32.ofNat count] :: values state.nodePeers :=
      values_insert_of_notMem missing _
    have everyone : other ∈ (values (state.nodePeers.insert
        state.nextNodeId [UInt32.ofNat count])).flatten := present
    rw [split, List.flatten_cons, List.singleton_append, List.mem_cons] at everyone
    rcases everyone with rfl | earlier
    · omega
    · have old := filling.peers other earlier
      omega
  case agreed =>
    intro _
    rfl
  case waiting =>
    intro _ more
    exact waiting more
  case settled =>
    intro full
    exact settled full
  case rooted =>
    intro _
    rcases Nat.eq_zero_or_pos count with none | some
    · refine ⟨state.nextNodeId, _, AList.lookup_insert _, ?_⟩
      rw [none]
      exact List.mem_singleton.mpr rfl
    · obtain ⟨node, group, found, member⟩ := filling.rooted some
      have known := unused node ((sound.peered node).mp (mem_of_lookup found))
      exact ⟨node, group, (AList.lookup_insert_ne known).trans found, member⟩

omit [DecidableEq Address] [DecidableEq DType] in
theorem Filling.withSessions (filling : Filling address numNodes count state)
    {sessions : Table SessionId Session}
    (kept : ∀ session ∈ state.sessions, session ∈ sessions) :
    Filling address numNodes count { state with sessions := sessions } :=
  { filling with
    sessions := fun session present =>
      ⟨(filling.sessions session present).1, kept session (filling.sessions session present).2⟩ }

/-- The session of the next node is opened. -/
theorem Filling.opened (filling : Filling address numNodes count state)
    (reached : Reachable orchestratorNext .new state) :
    ∃ successor : GlobalCollectiveState Address DType, Reachable orchestratorNext .new successor ∧
      Filling address numNodes count successor ∧
      UInt64.ofNat count ∈ successor.sessions := by
  obtain ⟨sessions, opened, known⟩ :=
    @initSession_eq _ _ state (UInt64.ofNat count)
  refine ⟨{ state with sessions := sessions }, ?_, filling.withSessions fun session present =>
      (known session).mpr (Or.inr present), (known _).mpr (Or.inl rfl)⟩
  refine @Reached.next _ _ _ _ _ _ _ (.init (UInt64.ofNat count)) reached
    trivial ?_
  rw [orchestratorNext, orchestratorStep, opened]

/-- The next node registers. -/
theorem Filling.registered (filling : Filling address numNodes count state)
    (reached : Reachable orchestratorNext .new state)
    (opened : UInt64.ofNat count ∈ state.sessions)
    (injective : Function.Injective address)
    (room : count < numNodes.toNat) :
    ∃ successor : GlobalCollectiveState Address DType, Reachable orchestratorNext .new successor ∧
      Filling address numNodes (count + 1) successor := by
  have sound := sound_of_reached reached
  have admissible := filling.admissible sound injective room
  have fits : state.nextNodeId.toNat + 1 < 2 ^ 32 := by
    have number := (sound.numbered filling.unfailed).1
    have members := filling.members
    have bound := numNodes.toNat_lt
    omega
  have more : (state.joined (UInt64.ofNat count) 0 (address count) numNodes
      [UInt32.ofNat count]).registeredNodes.keys.length = count + 1 := by
    have longer := length_keys_insert_of_notMem admissible.sessionNew state.nextNodeId
    rw [filling.members] at longer
    exact longer
  have admitted : state.refusal (.register (address count) numNodes
      [UInt32.ofNat count] : RemoteRequest Address DType) = none :=
    filling.unfailed
  have joins := @Filling.joined _ _ _ _ _ _ filling sound room admissible.sessionNew opened 0
  have stepped : ∀ successor sent, state.register (UInt64.ofNat count) 0 (address count) numNodes
        [UInt32.ofNat count] = .ok ⟨successor, sent, .ok ()⟩ →
      Reachable orchestratorNext .new successor := by
    intro successor sent called
    refine @Reached.next _ _ _ _ _ _ _ (.request (UInt64.ofNat count) 0
      (.register (address count) numNodes [UInt32.ofNat count])) reached
      trivial ?_
    simp only [orchestratorNext, orchestratorStep, processRequest, admitted,
      handle, called, ok_bind]
  have result := register_of_admissible admissible 0
  rw [enroll_eq admissible.addressNew fits, more] at result
  by_cases full : count + 1 = numNodes.toNat
  · rw [if_pos full] at result
    exact ⟨_, stepped _ _ result,
      joins (fun less => absurd full (Nat.ne_of_lt less)) fun _ => rfl⟩
  · rw [if_neg full] at result
    exact ⟨_, stepped _ _ result,
      joins (fun _ => List.append_ne_nil_of_right_ne_nil _
        (List.cons_ne_nil _ _)) fun same => absurd same full⟩

/-- All nodes of a session of any size register. -/
theorem exists_filled (injective : Function.Injective address) (within : count ≤ numNodes.toNat) :
    ∃ full : GlobalCollectiveState Address DType, Reachable orchestratorNext .new full ∧
      Filling address numNodes count full := by
  induction count with
  | zero => exact ⟨.new, Reached.start, Filling.new⟩
  | succ before ih =>
      obtain ⟨state, reached, filling⟩ := ih (by omega)
      obtain ⟨known, knownReached, knownFilling, opened⟩ := filling.opened reached
      exact knownFilling.registered knownReached opened injective (by omega)

end Filling

section First

variable {state : GlobalCollectiveState Address DType}

/-- A request to begin leaves the members as they are. -/
theorem registeredNodes_of_begin {session : SessionId}
    {requestId : RequestId} {spec : CollectiveSpec DType}
    {successor : GlobalCollectiveState Address DType}
    {sent : List (Answer Address)} (sound : state.Sound)
    (stepped : orchestratorStep state
      (.request session requestId (.begin spec)) = .ok (successor, sent)) :
    successor.registeredNodes = state.registeredNodes := by
  generalize same : OrchestratorEvent.request session requestId
    (RemoteRequest.begin spec) = event at stepped
  cases outcome_of_step sound stepped with
  | opened => rfl
  | closed => cases same
  | joined => cases same
  | arrived => rfl
  | refused => rfl
  | lost => cases same
  | finished => cases same
  | completed => cases same
  | agreed => rfl
  | disagreed => rfl

/-- Whatever is answered in a round is answered to one of its requests. -/
theorem exists_step_of_beginAll {requests : List (SessionId × RequestId × CollectiveSpec DType)}
    {final : GlobalCollectiveState Address DType}
    {sent : List (Answer Address)}
    (reached : Reachable orchestratorNext .new state)
    (begun : beginAll state requests = .ok (final, sent))
    {answer : Answer Address} (among : answer ∈ sent) :
    ∃ between request successor now, Reachable orchestratorNext .new between ∧
      between.registeredNodes = state.registeredNodes ∧
      request ∈ requests ∧
      orchestratorStep between (.request request.1 request.2.1 (.begin request.2.2)) =
        .ok (successor, now) ∧ answer ∈ now := by
  induction requests generalizing state sent with
  | nil =>
      cases begun
      cases among
  | cons request rest ih =>
      obtain ⟨session, requestId, spec⟩ := request
      rw [beginAll] at begun
      obtain ⟨⟨next, now⟩, stepped, begun⟩ := of_bind begun
      obtain ⟨⟨last, later⟩, goesOn, begun⟩ := of_bind begun
      cases begun
      rcases List.mem_append.mp among with first | behind
      · exact ⟨state, _, next, now, reached, rfl, List.mem_cons_self, stepped, first⟩
      · have kept := registeredNodes_of_begin (sound_of_reached reached) stepped
        have further := reached.next trivial (orchestratorNext_eq_some_iff.mpr ⟨now, stepped⟩)
        obtain ⟨between, request, successor, answers, onward, same, member,
          ran, there⟩ := ih further goesOn behind
        exact ⟨between, request, successor, answers, onward,
          same.trans kept, List.mem_cons_of_mem _ member, ran, there⟩

/-- In a session of any size the first rooted collective gets the id 2. -/
theorem assigned_two [Infinite Address] [Nonempty DType] {count : Nat}
    (positive : 0 < count) (small : count < 2 ^ 32) :
    AssignedToRooted Address DType count 2 := by
  obtain ⟨dtype⟩ := ‹Nonempty DType›
  have size : (UInt32.ofNat count).toNat = count := UInt32.toNat_ofNat_of_lt' small
  obtain ⟨state, reached, filling⟩ := @exists_filled DType Address _ _
    (Infinite.natEmbedding Address) (UInt32.ofNat count) count
    (Infinite.natEmbedding Address).injective (by omega)
  have sound := sound_of_reached reached
  obtain ⟨root, group, found, member⟩ := filling.rooted positive
  -- every node asks for a reduce to the peer 0
  let spec : CollectiveSpec DType := .reduce 0 .sum .centralized [] dtype
  let requests := state.registeredNodes.keys.map fun session =>
    (session, (0 : RequestId), spec)
  have names : requests.map Prod.fst = state.registeredNodes.keys := by
    rw [List.map_map]
    exact List.map_id _
  have asked : requests ≠ [] := by
    intro none
    have empty := congrArg List.length (List.map_eq_nil_iff.mp none)
    rw [filling.members] at empty
    exact absurd empty (Nat.ne_of_gt positive)
  have round : Round state requests := by
    refine ⟨filling.unfailed, filling.settled size.symm, ?_, filling.idle,
      asked, List.Perm.of_eq names⟩
    rw [filling.members, agreedNodes, filling.agreed positive]
    exact size.symm
  have agreed : Agreed (specsOf state requests) state.nodePeers root := by
    refine .reduce 0 .sum .centralized [] dtype ?_ ?_ group found member
    case refine_2 =>
      intro absent
      cases absent
    intro entry among
    obtain ⟨request, inRequests, rfl⟩ := List.mem_map.mp among
    obtain ⟨session, _, rfl⟩ := List.mem_map.mp inRequests
    rfl
  have begun := (beginAll_of_round sound round).1 root agreed
  rw [filling.counter, if_pos (by decide)] at begun
  -- the first request has an answer
  obtain ⟨first, present⟩ := List.exists_mem_of_ne_nil _ asked
  have known : first.1 ∈ state.sessions := by
    obtain ⟨session, registered, rfl⟩ := List.mem_map.mp present
    exact (filling.sessions session (AList.mem_keys.mpr registered)).2
  have answered : (⟨first.1, first.2.1, .begin root 2⟩ : Answer Address) ∈
      state.respondAll requests (.begin root 2) := by
    refine List.mem_flatMap.mpr ⟨first, present, ?_⟩
    rw [respond, if_pos known]
    exact List.mem_singleton.mpr rfl
  obtain ⟨between, request, successor, now, onward, same, inRequests, ran,
    there⟩ := exists_step_of_beginAll reached begun answered
  obtain ⟨session, _, rfl⟩ := List.mem_map.mp inRequests
  refine ⟨between, session, 0, spec, successor, now, onward, ?_, trivial,
    ran, _, there, root, 2, rfl, rfl⟩
  rw [same]
  exact filling.members

end First

/-! ## Collisions -/

/-- The ids of an all-reduce are apart from those of the rooted collectives of its
session exactly when it is no ring, or a ring of at most two nodes, or a ring that
its tensor is too small for. -/
theorem transfer_ids_apart_iff {B : Backend Tensor Device}
    [Infinite Address] [Nonempty DType] {state : RegisteredNode Address}
    (member : state.nodeId ∈ state.nodes)
    (counted : state.nodes.keys.length < 2 ^ 32) (tensor : Tensor)
    (strategy : AllReduceStrategy) (op : ReduceOperation) :
    (∀ id, (allReduceInner B state tensor strategy op).Uses id →
      ¬AssignedToRooted Address DType state.nodes.keys.length id) ↔
      (strategy = .ring → state.nodes.keys.length ≤ 2 ∨
        ∀ sliceDim, getSliceDim (B.shape tensor) = some sliceDim →
          (B.shape tensor).getD sliceDim 0 < state.nodes.keys.length) := by
  constructor
  · intro apart isRing
    by_contra collides
    rw [not_or] at collides
    obtain ⟨three, notSmall⟩ := collides
    push Not at notSmall
    obtain ⟨sliceDim, chosen, large⟩ := notSmall
    have uses := ringAllReduceSum_uses_two member (by omega) chosen large
    subst isRing
    exact apart 2 (uses.bind _) (assigned_two (by omega) counted)
  · intro condition id uses assigned
    have large := two_le_of_assigned assigned
    rcases uses_allReduceInner uses with small | ⟨isRing, inRing⟩
    · omega
    · obtain ⟨bound, sliceDim, chosen, fits⟩ := uses_ringAllReduceSum inRing
      rcases condition isRing with two | tooSmall
      · omega
      · have short := tooSmall sliceDim chosen
        omega

/-- A member of a session with the nodes 0, 1 and so on. -/
def memberOf (nodes : List NodeId) : RegisteredNode Nat where
  nodeId := 0
  nodes := nodes.foldr (fun node table => table.insert node node.toNat) ∅
  numGlobalDevices := 4

theorem transfer_ids_apart_two :
    (memberOf [0, 1]).nodes.keys.length = 2 ∧
      ∀ id, (allReduceInner listBackend (memberOf [0, 1]) [1, 2, 3] .ring .sum).Uses id →
        ¬AssignedToRooted Nat Unit (memberOf [0, 1]).nodes.keys.length
          id := by
  refine ⟨by decide, ?_⟩
  exact (transfer_ids_apart_iff (by decide) (by decide) _ _
    _).mpr fun _ => Or.inl (by decide)

/-- A ring of three nodes uses the id of the first rooted collective. -/
theorem ring_of_three_collides :
    (allReduceInner listBackend (memberOf [0, 1, 2]) [1, 2, 3] .ring .sum).Uses 2 ∧
      AssignedToRooted Nat Unit (memberOf [0, 1, 2]).nodes.keys.length
        2 := by
  have three : (memberOf [0, 1, 2]).nodes.keys.length = 3 := by
    decide
  have chosen : getSliceDim (listBackend.shape [1, 2, 3]) = some 0 := rfl
  have present : (memberOf [0, 1, 2]).nodeId ∈ (memberOf [0, 1, 2]).nodes := by
    decide
  have large : (memberOf [0, 1, 2]).nodes.keys.length ≤
      (listBackend.shape [1, 2, 3]).getD 0 0 := by
    rw [three]
    decide
  constructor
  · exact (ringAllReduceSum_uses_two present three.ge chosen large).bind _
  · rw [three]
    exact assigned_two (by decide) (by decide)

end RuCCL.Global
