import RuCCL.Rank.HierarchyRuns
import RuCCL.Rank.LeaderPieces

/-!
# Runs of an all-gather within groups

Followers hand their inputs to their leaders, the pieces of all bundles go round the
leaders, and the leaders hand all values back.
-/

namespace RuCCL.Rank

open RuCCL.Library
open RankTransport

namespace DeviceCollective

variable {T : Type} {size length : Nat}
  {collective : DeviceCollective T size} {hierarchy : Hierarchy size}
  {channels channel : Nat}

variable (collective) in
/-- Followers send their inputs, which their leader bundles. -/
def bundleTransfer : ValuesTransfer T size (AllGatherMemory T size length) where
  tag := fun source _ =>
    hierarchyDataTag collective.operation 4 (UInt32.ofNat source)
  count := length
  values := fun _ _ memory => .ok (RankDevice.copyFromDevice memory.input)
  use := fun _ _ values memory =>
    .ok { memory with ownBundle := memory.ownBundle ++ values }

variable (collective) in
/-- Leaders send all values, which their followers copy. -/
def valuesTransfer : ValuesTransfer T size (AllGatherMemory T size length) where
  tag := fun _ target =>
    hierarchyDataTag collective.operation 6 (UInt32.ofNat target)
  count := length * size
  values := fun _ _ memory => .ok memory.outputValues
  use := fun _ _ values memory => collective.takeAll values memory

theorem bundleTransfer_delivers :
    (collective.bundleTransfer :
      ValuesTransfer T size (AllGatherMemory T size length)).Delivers
      fun _ _ values memory =>
        { memory with ownBundle := memory.ownBundle ++ values } :=
  fun _ _ _ _ _ => rfl

/-- All values are in the output. -/
def filledOutput (collective : DeviceCollective T size) (values : List T)
    (memory : AllGatherMemory T size length) :
    AllGatherMemory T size length :=
  { memory with
    output := mergeAt overwrite 0 values (collective.execution.fresh (length * size)) }

theorem takeAll_eq_ok {values : List T} (sized : values.length = length * size)
    (memory : AllGatherMemory T size length) :
    collective.takeAll values memory = .ok (collective.filledOutput values memory) := by
  rw [takeAll, RankDevice.copyToDevice_eq_ok _ sized, ok_bind]
  rfl

theorem valuesTransfer_delivers :
    (collective.valuesTransfer :
      ValuesTransfer T size (AllGatherMemory T size length)).Delivers
      fun _ _ values memory => collective.filledOutput values memory :=
  fun _ _ _ memory sized => takeAll_eq_ok sized memory

/-- What a rank does once the leaders have all pieces. -/
def finishGather (collective : DeviceCollective T size)
    (hierarchy : Hierarchy size) (channels : Nat) (rank : Fin size) :
    RankThread size (AllGatherMemory T size length) :=
  (if hierarchy.Leads rank then [.compute (joinBundles hierarchy channels)]
    else []) ++
    (Handover.thread (hierarchy.handovers
        (collective.valuesTransfer.spreading collective)) rank ++
      ((if hierarchy.Leads rank then
        [.compute fun memory =>
          collective.takeAll memory.outputValues memory]
      else []) ++ []))

theorem allGatherHierarchical_eq (rank : Fin size) (ringChannels : Nat) :
    (collective.allGatherHierarchical hierarchy rank ringChannels :
        RankProgram size (AllGatherMemory T size length)) =
      [collective.hierarchyAgreement rank hierarchy length 0x700 ringChannels ++
        ((if True then [.compute fun memory => do
            let _ ← okOr (checkedMul length size)
              (.rank (.overflow "hierarchical all-gather output length"))
            .ok memory] else []) ++
        ((if hierarchy.Leads rank then
            [.compute (startBundle (hierarchy.groupOf rank).members.length)]
          else []) ++
        (Handover.thread (hierarchy.handovers
            (collective.bundleTransfer.collecting collective)) rank ++
        ((if hierarchy.Leads rank then
            [.compute (startPieces (hierarchy.groupIndex rank)
              (effectiveRingChannels ringChannels length))]
          else []) ++
        if hierarchy.Leads rank then []
        else collective.finishGather hierarchy
          (effectiveRingChannels ringChannels length) rank))))] ::
        if hierarchy.Leads rank then
          [forkedPhase (collective.pieceStages hierarchy length
              (effectiveRingChannels ringChannels length))
            (effectiveRingChannels ringChannels length) rank,
          [collective.finishGather hierarchy (effectiveRingChannels ringChannels length) rank]]
        else [] := by
  unfold allGatherHierarchical finishGather
  dsimp only
  by_cases leads : hierarchy.Leads rank
  · have leader : (hierarchy.groupOf rank).leader = rank := leads
    have channelThreads : ((List.range
        (effectiveRingChannels ringChannels length)).map fun channel =>
          collective.leaderAllGatherRingChannel hierarchy rank
            (hierarchy.groupIndex rank) length channel
            (effectiveRingChannels ringChannels length) :
              Phase (Box size) Frame (AllGatherMemory T size length) CollectiveFault) =
        forkedPhase (collective.pieceStages hierarchy length
          (effectiveRingChannels ringChannels length))
          (effectiveRingChannels ringChannels length) rank :=
      List.map_congr_left fun channel _ => leaderAllGatherRingChannel_eq leads
    simp only [if_pos leads, if_true]
    rw [if_neg (not_not.mpr leader.symm), channelThreads,
      ValuesTransfer.collects.thread_leader leads,
      ValuesTransfer.spreads.thread_leader leads]
    simp only [List.append_nil, List.append_assoc,
      ValuesTransfer.collecting, ValuesTransfer.spreading, leader]
    rfl
  · have follower : rank ≠ (hierarchy.groupOf rank).leader := Ne.symm leads
    simp only [if_neg leads, if_true]
    rw [if_pos follower, ValuesTransfer.collects.thread_follower leads,
      ValuesTransfer.spreads.thread_follower leads, List.append_assoc]
    rfl

/-- The inputs of all ranks. -/
def inputsOf (before : Fin size → AllGatherMemory T size length)
    (rank : Fin size) : Buffer T length :=
  (before rank).input

/-- The leaders have started their bundles. -/
def bundlesStarted (hierarchy : Hierarchy size)
    (before : Fin size → AllGatherMemory T size length)
    (rank : Fin size) : AllGatherMemory T size length :=
  if hierarchy.Leads rank then
    { before rank with ownBundle := List.ofFn (before rank).input }
  else before rank

/-- The leaders have the bundles of their groups. -/
def bundlesFilled (hierarchy : Hierarchy size) (before : Fin size → AllGatherMemory T size length)
    (rank : Fin size) : AllGatherMemory T size length :=
  if hierarchy.Leads rank then
    { before rank with
      ownBundle := hierarchy.bundleOf (inputsOf before) (hierarchy.groupIndex rank) }
  else before rank

theorem startBundle_eq_ok {members : Nat} (small : members * length < wordSize)
    (memory : AllGatherMemory T size length) :
    startBundle members memory = .ok { memory with ownBundle := List.ofFn memory.input } := by
  have multiplied := (checkedMul_eq_some_iff members length _).mpr ⟨small, rfl⟩
  rw [startBundle, multiplied, okOr_some, ok_bind]
  rfl

/-- Bundles grow by what arrives. -/
theorem foldl_ownBundle (sent : Fin size → List T)
    (followers : List (Fin size)) (memory : AllGatherMemory T size length) :
    followers.foldl (fun memory follower =>
        { memory with ownBundle := memory.ownBundle ++ sent follower })
        memory =
      { memory with
        ownBundle := memory.ownBundle ++ followers.flatMap sent } := by
  induction followers generalizing memory with
  | nil => simp
  | cons follower rest ih => simp [ih]

theorem collected_bundleTransfer (before : Fin size → AllGatherMemory T size length) :
    ValuesTransfer.collected
        (fun _ _ values memory =>
          { memory with ownBundle := memory.ownBundle ++ values })
        hierarchy (fun source _ => List.ofFn (before source).input)
        (bundlesStarted hierarchy before) =
      bundlesFilled hierarchy before := by
  funext rank
  unfold ValuesTransfer.collected bundlesFilled bundlesStarted
  by_cases leads : hierarchy.Leads rank
  · have leader : (hierarchy.groupOf rank).leader = rank := leads
    have bundle := hierarchy.bundleOf_groupIndex (inputsOf before) rank
    rw [RankGroup.members, List.flatMap_cons, leader] at bundle
    rw [if_pos leads, if_pos leads, if_pos leads, bundle]
    exact foldl_ownBundle _ _ _
  · rw [if_neg leads, if_neg leads, if_neg leads]

theorem do_bundleTransfer (lawful : collective.execution.Lawful)
    (fits : hierarchy.Shared → collective.FitsFrame (length * size))
    (before : Fin size → AllGatherMemory T size length) :
    Handover.Do (hierarchy.handovers (collective.bundleTransfer.collecting collective))
      (bundlesStarted hierarchy before) (bundlesFilled hierarchy before) := by
  have does := @ValuesTransfer.do_collecting T size
    (AllGatherMemory T size length) collective.bundleTransfer collective _
    (bundlesStarted hierarchy before)
    (fun source _ => List.ofFn (before source).input) hierarchy lawful
    bundleTransfer_delivers
    fun group listed follower follows => {
      fits := (fits ⟨group, listed, List.ne_nil_of_mem follows⟩).mono
        (Nat.le_mul_of_pos_right length (lt_of_le_of_lt (Nat.zero_le _) follower.isLt))
      ready := by
        dsimp only [bundleTransfer, RankDevice.copyFromDevice]
        unfold bundlesStarted
        split
        · rfl
        · rfl
      sized := List.length_ofFn }
  rwa [collected_bundleTransfer] at does

/-- Every channel starts with its piece of the own bundle. -/
theorem startPieces_eq_ok {rank : Fin size} (leads : hierarchy.Leads rank)
    (before : Fin size → AllGatherMemory T size length) :
    startPieces (hierarchy.groupIndex rank) channels (bundlesFilled hierarchy before rank) =
      .ok (piecesHeld hierarchy (hierarchy.bundleOf (inputsOf before))
        channels (fun _ => 0) (bundlesFilled hierarchy before) rank) := by
  have index := hierarchy.groupIndex_lt rank
  rw [startPieces, piecesHeld, if_pos leads]
  dsimp only
  refine congrArg Except.ok (congrArg
    (fun pieces => { bundlesFilled hierarchy before rank with
      pieces := pieces }) (funext fun channel => funext fun group => ?_))
  have own : (bundlesFilled hierarchy before rank).ownBundle =
      hierarchy.bundleOf (inputsOf before) (hierarchy.groupIndex rank) := by
    rw [bundlesFilled, if_pos leads]
  rw [own]
  by_cases inside : channel < channels
  · rw [getElem?_balancedRanges _ _ _ inside]
    dsimp only
    by_cases among : group < hierarchy.groups.length
    · have both : channel < channels ∧ group < hierarchy.groups.length := ⟨inside, among⟩
      have place : hierarchy.leaders.place rank = (group : ZMod hierarchy.groups.length) ↔
          group = hierarchy.groupIndex rank := by
        rw [RingOrder.place, hierarchy.position_leader leads,
          ZMod.natCast_eq_natCast_iff, Nat.ModEq, Nat.mod_eq_of_lt among,
          Nat.mod_eq_of_lt index, eq_comm]
      rw [heldPieces, if_pos both, relayed_zero]
      by_cases same : group = hierarchy.groupIndex rank
      · rw [if_pos same, if_pos (place.mpr same), ZMod.val_natCast_of_lt among, same]
        rfl
      · rw [if_neg same, if_neg fun held => same (place.mp held)]
    · have different : group ≠ hierarchy.groupIndex rank := by omega
      rw [if_neg different, heldPieces, if_neg fun both => among both.2]
  · have absent : (balancedRanges (hierarchy.bundleOf (inputsOf before)
        (hierarchy.groupIndex rank)).length channels)[channel]? = none := by
      rw [List.getElem?_eq_none_iff, length_balancedRanges]
      exact Nat.le_of_not_lt inside
    rw [absent, heldPieces, if_neg fun both => inside both.1]

/-- The leaders have the pieces of all bundles. -/
def piecesComplete (hierarchy : Hierarchy size) (channels : Nat)
    (before : Fin size → AllGatherMemory T size length) :
    Fin size → AllGatherMemory T size length :=
  piecesHeld hierarchy (hierarchy.bundleOf (inputsOf before)) channels
    (fun channel =>
      if channel < channels then hierarchy.groups.length - 1 else 0)
    (bundlesFilled hierarchy before)

theorem pieces_piecesComplete {rank : Fin size} (leads : hierarchy.Leads rank)
    (before : Fin size → AllGatherMemory T size length) :
    ∀ channel < channels, ∀ group < hierarchy.groups.length,
      (piecesComplete hierarchy channels before rank).pieces channel group =
        some (pieceOf channels channel (hierarchy.bundleOf (inputsOf before) group)) := by
  intro channel inside group among
  have both : channel < channels ∧ group < hierarchy.groups.length := ⟨inside, among⟩
  rw [piecesComplete, piecesHeld, if_pos leads]
  dsimp only
  rw [heldPieces, if_pos both, if_pos inside, relayed_last, ZMod.val_natCast_of_lt among]

/-- All values in rank order. -/
def allValues (before : Fin size → AllGatherMemory T size length) : List T :=
  (List.finRange size).flatMap fun rank => List.ofFn (inputsOf before rank)

theorem length_allValues (before : Fin size → AllGatherMemory T size length) :
    (allValues before).length = length * size := by
  simp [allValues, List.length_flatMap, Nat.mul_comm]

/-- The leaders have put all values together. -/
def valuesJoined (hierarchy : Hierarchy size) (channels : Nat)
    (before : Fin size → AllGatherMemory T size length)
    (rank : Fin size) : AllGatherMemory T size length :=
  if hierarchy.Leads rank then
    { piecesComplete hierarchy channels before rank with
      outputValues := allValues before }
  else piecesComplete hierarchy channels before rank

/-- All ranks have all values in their outputs. -/
def outputsFilled (collective : DeviceCollective T size)
    (hierarchy : Hierarchy size) (channels : Nat)
    (before : Fin size → AllGatherMemory T size length)
    (rank : Fin size) : AllGatherMemory T size length :=
  collective.filledOutput (allValues before) (valuesJoined hierarchy channels before rank)

theorem do_valuesTransfer (lawful : collective.execution.Lawful)
    (fits : hierarchy.Shared → collective.FitsFrame (length * size))
    (before : Fin size → AllGatherMemory T size length) :
    Handover.Do (hierarchy.handovers (collective.valuesTransfer.spreading collective))
      (valuesJoined hierarchy channels before)
      (fun rank =>
        if hierarchy.Leads rank then valuesJoined hierarchy channels before rank
        else collective.outputsFilled hierarchy channels before rank) :=
  @ValuesTransfer.do_spreading T size (AllGatherMemory T size length)
    collective.valuesTransfer collective _
    (valuesJoined hierarchy channels before)
    (fun _ _ => allValues before) hierarchy lawful
    valuesTransfer_delivers
    fun group listed follower follows => {
      fits := fits ⟨group, listed, List.ne_nil_of_mem follows⟩
      ready := by
        have leads : hierarchy.Leads group.leader :=
          congrArg RankGroup.leader (hierarchy.groupOf_leader listed)
        dsimp only [valuesTransfer]
        rw [valuesJoined, if_pos leads]
      sized := length_allValues before }

/-- Every rank gets all values from its leader. -/
theorem reaches_finishGather (lawful : collective.execution.Lawful)
    (addressable :
      length * size * collective.execution.elementSize < wordSize)
    (fits : hierarchy.Shared → collective.FitsFrame (length * size))
    (positive : 0 < channels)
    (before : Fin size → AllGatherMemory T size length) :
    Reaches collective.deviceStep
      (quiet (fun rank => [[collective.finishGather hierarchy channels rank]])
        (piecesComplete hierarchy channels before))
      (quiet (fun _ => []) (collective.outputsFilled hierarchy channels before)) := by
  have total : length * size < wordSize :=
    lt_of_le_of_lt (Nat.le_mul_of_pos_right _ lawful.positive) addressable
  have joins := @reaches_computes T size _ collective hierarchy.Leads _
    (fun _ => joinBundles hierarchy channels)
    (fun rank => Handover.thread (hierarchy.handovers
        (collective.valuesTransfer.spreading collective)) rank ++
      ((if hierarchy.Leads rank then
        [.compute fun memory =>
          collective.takeAll memory.outputValues memory]
      else []) ++ []))
    (fun _ => []) (piecesComplete hierarchy channels before) _
    (fun rank leads => joinBundles_eq_ok positive total (inputsOf before)
      (pieces_piecesComplete leads before))
  have spreads := @Hierarchy.reaches_handovers T size _ collective hierarchy _
    (@ValuesTransfer.spreads T size (AllGatherMemory T size length)
      collective.valuesTransfer collective).apart
    (fun rank => (if hierarchy.Leads rank then
        [.compute fun memory =>
          collective.takeAll memory.outputValues memory]
      else []) ++ [])
    (fun _ => []) _ _
    (@do_valuesTransfer T size length collective hierarchy channels lawful fits before)
  have takes := @reaches_computes T size _ collective hierarchy.Leads _
    (fun _ memory => collective.takeAll memory.outputValues memory)
    (fun _ => []) (fun _ => [])
    (fun rank =>
      if hierarchy.Leads rank then valuesJoined hierarchy channels before rank
      else collective.outputsFilled hierarchy channels before rank)
    (collective.outputsFilled hierarchy channels before)
    (by
      intro rank leads
      have held : (valuesJoined hierarchy channels before
          rank).outputValues = allValues before := by
        rw [valuesJoined, if_pos leads]
      rw [if_pos leads, held, takeAll_eq_ok (length_allValues before)]
      rfl)
  refine joins.trans (Reaches.trans spreads ?_)
  refine Reaches.trans ?_ reaches_join
  refine cast (congrArg _ (congrArg _ (funext fun rank => ?_))) takes
  split
  · rfl
  · rfl

section Whole

variable [NeZero size]

/-- Every rank gets the inputs of all ranks. -/
theorem reaches_allGatherHierarchical (lawful : collective.execution.Lawful)
    (addressable :
      length * size * collective.execution.elementSize < wordSize)
    {ringChannels : Nat} (requested : 1 ≤ ringChannels)
    (outputFits : hierarchy.Shared → collective.FitsFrame (length * size))
    (groupsFit : collective.GroupsFit hierarchy length
      (effectiveRingChannels ringChannels length))
    (before : Fin size → AllGatherMemory T size length) :
    ∃ after : Fin size → AllGatherMemory T size length, Reaches collective.deviceStep
        (quiet (fun rank => collective.allGatherHierarchical hierarchy rank ringChannels) before)
        (quiet (fun _ => []) after) ∧
      ∀ rank, Gathers (fun other => (before other).input) (after rank).output := by
  have positive := effectiveRingChannels_pos requested length
  have total : length * size < wordSize :=
    lt_of_le_of_lt (Nat.le_mul_of_pos_right _ lawful.positive) addressable
  have multiplied := (checkedMul_eq_some_iff length size _).mpr ⟨total, rfl⟩
  let channels := effectiveRingChannels ringChannels length
  let later : Fin size → RankProgram size (AllGatherMemory T size length) := fun rank =>
      if hierarchy.Leads rank then
        [forkedPhase (collective.pieceStages hierarchy length channels) channels rank,
        [collective.finishGather hierarchy channels rank]]
      else []
  let wait : Fin size → RankThread size (AllGatherMemory T size length) := fun rank =>
      if hierarchy.Leads rank then []
      else collective.finishGather hierarchy channels rank
  let pieces : Fin size → RankThread size (AllGatherMemory T size length) :=
    fun rank => (if hierarchy.Leads rank then
      [.compute (startPieces (hierarchy.groupIndex rank) channels)]
      else []) ++ wait rank
  let bundles : Fin size → RankThread size (AllGatherMemory T size length) :=
    fun rank => Handover.thread (hierarchy.handovers
      (collective.bundleTransfer.collecting collective)) rank ++ pieces rank
  have checks := @reaches_computes T size _ collective (fun _ => True) _
    (fun _ memory => do
      let _ ← okOr (checkedMul length size)
        (.rank (.overflow "hierarchical all-gather output length"))
      .ok memory)
    (fun rank => (if hierarchy.Leads rank then
      [.compute (startBundle (hierarchy.groupOf rank).members.length)]
      else []) ++ bundles rank) later before before
    (fun rank _ => by rw [multiplied, okOr_some, ok_bind])
  have starts := @reaches_computes T size _ collective hierarchy.Leads _
    (fun rank => startBundle (hierarchy.groupOf rank).members.length) bundles
    later before _
    (fun rank _ => startBundle_eq_ok (by
      have small := Nat.mul_le_mul_right length
        (hierarchy.length_members_le (hierarchy.groupOf_mem rank))
      rw [Nat.mul_comm size] at small
      exact lt_of_le_of_lt small total) (before rank))
  have collects := @Hierarchy.reaches_handovers T size _ collective hierarchy _
    (@ValuesTransfer.collects T size (AllGatherMemory T size length)
      collective.bundleTransfer collective).apart pieces later _ _
    (do_bundleTransfer lawful outputFits before)
  have splits := @reaches_computes T size _ collective hierarchy.Leads _
    (fun rank => startPieces (hierarchy.groupIndex rank) channels) wait later
    (bundlesFilled hierarchy before) _
    (fun rank leads => startPieces_eq_ok leads before)
  have relays := @Hierarchy.reaches_leaders T size _ collective hierarchy _ _
    (collective.finishGather hierarchy channels) _ _
    (fun channel _ => pieceStages_proper channel)
    (@allPieces_do T size length collective hierarchy channels lawful
      addressable groupsFit (inputsOf before)
      (bundlesFilled hierarchy before))
  have finishes := @reaches_finishGather T size length collective hierarchy
    channels lawful addressable outputFits positive before
  have started : (fun rank =>
      if hierarchy.Leads rank then
        piecesHeld hierarchy (hierarchy.bundleOf (inputsOf before)) channels
          (fun _ => 0) (bundlesFilled hierarchy before) rank
      else bundlesFilled hierarchy before rank) =
      piecesHeld hierarchy (hierarchy.bundleOf (inputsOf before)) channels
        (fun _ => 0) (bundlesFilled hierarchy before) := by
    funext rank
    by_cases leads : hierarchy.Leads rank
    · rw [if_pos leads]
    · rw [if_neg leads, piecesHeld, if_neg leads]
  rw [started] at splits
  have checked : Reaches collective.deviceStep _
      (quiet (fun rank => [(if hierarchy.Leads rank then
        [.compute (startBundle (hierarchy.groupOf rank).members.length)]
        else []) ++ bundles rank] :: later rank) before) := checks
  simp only [allGatherHierarchical_eq]
  refine ⟨_, Reaches.trans (reaches_agreement _ _ _ _ before)
    (checked.trans (starts.trans (Reaches.trans collects (splits.trans
      (Reaches.trans relays finishes))))), fun rank other => ?_⟩
  exact shardOf_flatMap _ _ _ other

omit [NeZero size] in
/-- Only the pieces of the channel itself are sent. -/
theorem pieceContent_hidden {other sent received : Nat}
    {rail : Nat} {source destination : Fin size}
    (different : other ≠ channel) (tag : UInt64) (receiveBytes : Nat) :
    (AllGatherMemory.piecesCell.component other).Hidden
      (collective.dataMessage rail source destination tag collective.elementType
        (hostContent collective.elementType receiveBytes
          (collective.pieceContent hierarchy channel sent received length channels :
              AllGatherMemory T size length → Except CollectiveFault (List UInt8)))) := by
  intro value memory
  have same : ((AllGatherMemory.piecesCell.component other).write value
      memory).pieces channel = memory.pieces channel :=
    Function.update_of_ne (Ne.symm different) _ _
  simp only [dataMessage, hostContent, pieceContent, same]

omit [NeZero size] in
/-- Only the pieces of the channel itself change. -/
theorem keepPiece_changes {group receiveElements : Nat}
    (check : Frame → Except CollectiveFault (List UInt8)) :
    (AllGatherMemory.piecesCell.component channel).Changes
      (fun frame (memory : AllGatherMemory T size length) => do
        let received ← check frame
        collective.keepPiece channel group receiveElements received memory)
      (fun frame _ => do
        let received ← check frame
        collective.execution.decodeExact received receiveElements)
      fun values pieces => Function.update pieces group (some values) := by
  intro frame memory
  dsimp only
  cases check frame with
  | error failure => rfl
  | ok received =>
      simp only [ok_bind, keepPiece]
      cases collective.execution.decodeExact received receiveElements with
      | error failure => rfl
      | ok values => rfl

omit [NeZero size] in
/-- A channel keeps its pieces to itself. -/
theorem pieceStages_keeps {rank : Fin size} (among : rank ∈ hierarchy.leaders.members)
    {instruction : RankInstruction size (AllGatherMemory T size length)}
    (member : instruction ∈ (collective.pieceStages hierarchy length channels channel).flatMap
        (Stage.instructions rank)) :
    Keeps (AllGatherMemory.piecesCell.component) channel
      (fun box => ∃ source target rail, ∃ step < hierarchy.groups.length - 1,
        box = .rail source target rail (hierarchyRingDataTag collective.operation 5 channel step))
      (fun box => ∃ source target rail, ∃ step < hierarchy.groups.length - 1,
        box = .rail source target rail (hierarchyRingDataTag collective.operation 5 channel step))
      instruction := by
  obtain ⟨stage, listed, inside⟩ := List.mem_flatMap.mp member
  obtain ⟨step, early, rfl⟩ := List.mem_map.mp listed
  have early := List.mem_range.mp early
  simp only [Stage.instructions, pieceRound, instructions_shiftRound among,
    List.mem_cons, List.not_mem_nil, or_false] at inside
  rcases inside with rfl | rfl
  · exact ⟨⟨_, _, _, step, early, rfl⟩, fun other different => pieceContent_hidden different _ _⟩
  · exact ⟨⟨_, _, _, step, early, rfl⟩, _, _, _, keepPiece_changes _, fun _ _ _ _ _ => rfl⟩

omit [NeZero size] in
theorem pieceStages_owned {rank : Fin size} (among : rank ∈ hierarchy.leaders.members) :
    ∀ instruction ∈ (collective.pieceStages hierarchy length channels
      channel).flatMap (Stage.instructions rank),
      collective.OwnedBy rank instruction := by
  intro instruction member
  obtain ⟨stage, listed, inside⟩ := List.mem_flatMap.mp member
  obtain ⟨step, _, rfl⟩ := List.mem_map.mp listed
  simp only [Stage.instructions, pieceRound, instructions_shiftRound among,
    List.mem_cons, List.not_mem_nil, or_false] at inside
  rcases inside with rfl | rfl
  · exact owned_send
  · exact owned_receive

omit [NeZero size] in
/-- The channels of a leader have tags of their own. -/
theorem separate_allGatherHierarchical
    {ringChannels : Nat} (bounded : ringChannels ≤ maxRingChannels)
    (rank : Fin size) :
    ∀ phase ∈ (collective.allGatherHierarchical hierarchy rank ringChannels :
        RankProgram size (AllGatherMemory T size length)),
      SeparatePhase collective.controlPath Box.sender Box.receiver rank
        phase := by
  have few : effectiveRingChannels ringChannels length ≤ 64 :=
    (effectiveRingChannels_le ringChannels length).trans bounded
  have groups := hierarchy.length_groups_le
  have world := collective.world
  have finishes : ∀ instruction ∈
      (collective.finishGather hierarchy (effectiveRingChannels ringChannels length) rank :
          RankThread size (AllGatherMemory T size length)),
      collective.OwnedBy rank instruction := by
    refine List.forall_mem_append.mpr ⟨fun _ => owned_if, ?_⟩
    refine List.forall_mem_append.mpr ⟨ValuesTransfer.owned_spreading, ?_⟩
    rw [List.append_nil]
    exact fun _ => owned_if
  intro phase member
  rw [allGatherHierarchical_eq] at member
  rcases List.mem_cons.mp member with rfl | member
  · apply SeparatePhase.single
    refine List.forall_mem_append.mpr ⟨owned_exchange rank, ?_⟩
    refine List.forall_mem_append.mpr ⟨fun _ => owned_if, ?_⟩
    refine List.forall_mem_append.mpr ⟨fun _ => owned_if, ?_⟩
    refine List.forall_mem_append.mpr ⟨ValuesTransfer.owned_collecting, ?_⟩
    refine List.forall_mem_append.mpr ⟨fun _ => owned_if, ?_⟩
    split
    · simp
    · exact finishes
  · split at member
    case isTrue leads =>
      have among := (hierarchy.mem_leaders rank).mpr leads
      rcases List.mem_cons.mp member with rfl | member
      · apply SeparatePhase.forked
        · intro channel inside other otherInside different instruction listed
            concurrent otherListed
          have tags {step another : Nat} (early : step < hierarchy.groups.length - 1)
              (late : another < hierarchy.groups.length - 1) :
              hierarchyRingDataTag collective.operation 5 channel step ≠
                hierarchyRingDataTag collective.operation 5 other another :=
            hierarchyRingDataTag_ne collective.operation
              (show UInt32.toNat 5 < 256 by decide) (Or.inl rfl) (by omega)
              (by omega) (by omega) (by omega) different
          have boxes (box : Box size)
              (own : ∃ source target rail, ∃ step < hierarchy.groups.length - 1,
                box = .rail source target rail
                  (hierarchyRingDataTag collective.operation 5 channel step)) :
              ¬∃ source target rail, ∃ step < hierarchy.groups.length - 1,
                box = .rail source target rail
                  (hierarchyRingDataTag collective.operation 5 other step) := by
            obtain ⟨_, _, _, step, early, rfl⟩ := own
            rintro ⟨_, _, _, another, late, same⟩
            rw [Box.rail.injEq] at same
            exact tags early late same.2.2.2
          exact Keeps.apart AllGatherMemory.piecesCell.component
            (AllGatherMemory.piecesCell.independent_components different)
            different boxes boxes (pieceStages_keeps among listed)
            (pieceStages_keeps among otherListed)
        · intro channel inside instruction listed
          exact pieceStages_owned among instruction listed
      · rw [List.mem_singleton.mp member]
        exact SeparatePhase.single finishes
    case isFalse => cases member

end Whole

end DeviceCollective

end RuCCL.Rank
