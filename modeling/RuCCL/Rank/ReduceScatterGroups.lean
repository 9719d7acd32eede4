import RuCCL.Rank.ReduceScatterRuns

/-!
# Runs of a reduce-scatter within groups

The leaders reduce the inputs of their groups, pack the shards group by group and reduce
what each group needs around their ring.
-/

namespace RuCCL.Rank

open RuCCL.Library
open RankTransport

variable {T : Type} {size length outputLength : Nat}

theorem memberShard_eq_ok {values : List T} {member : Nat}
    (inside : member * outputLength + outputLength ≤ values.length)
    (addressable : values.length < wordSize) (startName stopName : String) :
    memberShard values member outputLength startName stopName =
      .ok (Library.segment values (member * outputLength) outputLength) := by
  have multiplied := (checkedMul_eq_some_iff member outputLength _).mpr ⟨by omega, rfl⟩
  have added := (checkedAdd_eq_some_iff (member * outputLength)
    outputLength _).mpr ⟨by omega, rfl⟩
  have ordered : ¬(member * outputLength + outputLength < member * outputLength ∨
        values.length < member * outputLength + outputLength) := by
    omega
  rw [memberShard, multiplied, okOr_some, ok_bind, added, okOr_some, ok_bind,
    sliceOf, rejectIf, if_neg ordered, ok_bind, Nat.add_sub_cancel_left]

/-- The shards of some ranks, one behind the other. -/
def shardsOf (reduced : List T) (outputLength : Nat) (ranks : List (Fin size)) : List T :=
  ranks.flatMap fun rank : Fin size =>
    Library.segment reduced (rank * outputLength) outputLength

section Packing

variable {reduced : List T} (whole : reduced.length = size * outputLength)

include whole

theorem length_shardsOf (ranks : List (Fin size)) :
    (shardsOf reduced outputLength ranks).length = ranks.length * outputLength := by
  induction ranks with
  | nil => exact (Nat.zero_mul outputLength).symm
  | cons rank rest ih =>
      rw [shardsOf, List.flatMap_cons, List.length_append, ← shardsOf,
        ih, length_segment (shard_fits whole rank),
        List.length_cons, Nat.succ_mul, Nat.add_comm]

theorem packMembers_eq_ok (addressable : reduced.length < wordSize)
    (ranks : List (Fin size)) (values : List T) :
    ranks.foldlM (fun values (rank : Fin size) => do
        let shard ← memberShard reduced rank outputLength
          "hierarchical reduce-scatter rank offset"
          "hierarchical reduce-scatter rank range"
        .ok (values ++ shard)) values =
      (.ok (values ++ shardsOf reduced outputLength ranks) :
        Except CollectiveFault (List T)) := by
  induction ranks generalizing values with
  | nil => exact congrArg Except.ok (List.append_nil values).symm
  | cons rank rest ih =>
      rw [List.foldlM_cons, memberShard_eq_ok (shard_fits whole rank)
        addressable, ok_bind, ok_bind, ih, shardsOf,
        shardsOf, List.flatMap_cons, List.append_assoc]

end Packing

namespace Hierarchy

variable (hierarchy : Hierarchy size)

/-- One group after the other is packed. -/
theorem packGroups_eq_ok {reduced : List T} (whole : reduced.length = size * outputLength)
    (addressable : reduced.length < wordSize) :
    hierarchy.packGroups reduced outputLength =
      .ok (shardsOf reduced outputLength hierarchy.packed.members,
        hierarchy.groupRanges outputLength) := by
  have groups (list : List (RankGroup size)) (values : List T) (ranges : List Span) :
      list.foldlM (fun packed group => do
          let start := packed.1.length
          let values ← group.members.foldlM (fun values (rank : Fin size) => do
            let shard ← memberShard reduced rank outputLength
              "hierarchical reduce-scatter rank offset"
              "hierarchical reduce-scatter rank range"
            .ok (values ++ shard)) packed.1
          .ok (values, packed.2 ++ [⟨start, values.length⟩]))
          (values, ranges) =
        (.ok (values ++ shardsOf reduced outputLength (list.flatMap RankGroup.members),
          ranges ++ spansFrom values.length (list.map fun group =>
            group.members.length * outputLength)) :
          Except CollectiveFault (List T × List Span)) := by
    induction list generalizing values ranges with
    | nil =>
        simp only [List.foldlM_nil, List.flatMap_nil, List.map_nil,
          spansFrom, shardsOf, List.append_nil]
        rfl
    | cons group rest ih =>
        have joined : shardsOf reduced outputLength
            (group.members ++ rest.flatMap RankGroup.members) =
            shardsOf reduced outputLength group.members ++ shardsOf reduced outputLength
                (rest.flatMap RankGroup.members) :=
          List.flatMap_append
        rw [List.foldlM_cons, packMembers_eq_ok whole addressable, ok_bind,
          ok_bind, ih, List.flatMap_cons, joined,
          List.map_cons, spansFrom, List.length_append,
          length_shardsOf whole, List.append_assoc, List.append_assoc]
        rfl
  have packed := groups hierarchy.groups [] []
  rw [List.nil_append, List.nil_append] at packed
  exact packed

theorem rangeAt_groupRanges (outputLength : Nat) {index : Nat}
    (inside : index < hierarchy.groups.length) :
    rangeAt (hierarchy.groupRanges outputLength) index =
      ⟨hierarchy.groupOffset outputLength index,
        hierarchy.groupOffset outputLength (index + 1)⟩ := by
  have lengths : (hierarchy.groups.map fun group =>
      group.members.length * outputLength) =
      hierarchy.memberCounts.map (· * outputLength) := by
    rw [memberCounts, List.map_map]
    rfl
  have start := before_map_mul hierarchy.memberCounts outputLength
  unfold before at start
  rw [rangeAt, List.getD_eq_getElem?_getD, groupRanges, lengths,
    getElem?_spansFrom 0 _ index (by simpa [memberCounts] using inside),
    start, start, Nat.zero_add, Nat.zero_add]
  rfl

end Hierarchy

namespace DeviceCollective

variable {collective : DeviceCollective T size} {function : T → T → T}
  {hierarchy : Hierarchy size}

theorem packWorking_eq_ok [NeZero size]
    (whole : length = size * outputLength) (addressable : length < wordSize)
    (memory : ReduceScatterMemory T length outputLength) :
    collective.packWorking hierarchy memory =
      .ok { memory with
        packed := hierarchy.packedBuffer whole memory.working } := by
  have sized : (List.ofFn memory.working).length = size * outputLength := by
    rw [List.length_ofFn, whole]
  have packs := hierarchy.packGroups_eq_ok sized (by
    rw [List.length_ofFn]
    exact addressable)
  have values : shardsOf (List.ofFn memory.working) outputLength hierarchy.packed.members =
      List.ofFn (hierarchy.packedBuffer whole memory.working) := by
    rw [hierarchy.ofFn_packedBuffer, shardsOf]
    simp only [segment_ofFn whole]
  rw [packWorking, RankDevice.copyFromDevice]
  dsimp only
  rw [packs, ok_bind, values]
  dsimp only
  rw [rejectIf, if_neg (not_not.mpr List.length_ofFn), ok_bind,
    RankDevice.copyToDevice_ofFn, ok_bind]

/-- The shards of the groups go round the leaders. -/
def groupLayout (hierarchy : Hierarchy size)
    (whole : length = size * outputLength) {channels : Nat}
    (positive : 0 < channels) :
    ChannelLayout length channels hierarchy.groups.length :=
  ChannelLayout.blocks (hierarchy.cut_groups whole) positive fun _ => placeOrder _

theorem GroupsFit.span {channels channel : Nat}
    (fits : collective.GroupsFit hierarchy outputLength channels)
    (whole : length = size * outputLength) (positive : 0 < channels)
    (inside : channel < channels) (slot : ZMod hierarchy.groups.length) :
    collective.FitsFrame ((groupLayout hierarchy whole positive).span channel slot).length := by
  have early := (placeOrder hierarchy.groups.length slot).isLt
  have part := fits _ (List.getElem_mem early) channel inside
  have next := hierarchy.groupOffset_succ outputLength (List.getElem?_eq_getElem early)
  have width := Nat.sub_eq_of_eq_add' next
  rw [← width] at part
  exact (Span.length_shift ..).symm ▸ part

/-- The passes of the leaders. -/
def leaderScatterPass (collective : DeviceCollective T size)
    (hierarchy : Hierarchy size) (whole : length = size * outputLength)
    {channels : Nat} (positive : 0 < channels) (function : T → T → T)
    (channel : Nat) :
    List (Stage (Fin size) (Box size) Frame
      (ReduceScatterMemory T length outputLength) CollectiveFault) :=
  collective.channelPass (groupLayout hierarchy whole positive)
    (fun _ => hierarchy.leaders) ReduceScatterMemory.packedCell (-1)
    (fun channel => hierarchyRingDataTag collective.operation 8 channel)
    (collective.reduceChunk ReduceScatterMemory.packedCell function) channel

theorem rangeAt_channelSlices {ranges : List Span}
    {channels channel index : Nat} (inside : index < ranges.length)
    (among : channel < channels) :
    rangeAt (channelSlices ranges channels channel) index =
      (channelSpan (rangeAt ranges index).length channels channel).shift
        (rangeAt ranges index).start := by
  have located : ranges[index]? = some (rangeAt ranges index) := by
    rw [rangeAt, List.getD_eq_getElem?_getD, List.getElem?_eq_getElem inside]
    rfl
  rw [← rangeAt_balancedRanges among]
  conv_lhs => rw [rangeAt, List.getD_eq_getElem?_getD, channelSlices, List.getElem?_map, located]
  rfl

/-- How many channels the leaders use. -/
def leaderChannels (hierarchy : Hierarchy size) (outputLength ringChannels : Nat) : Nat :=
  effectiveRingChannels ringChannels
    (((hierarchy.groupRanges outputLength).map Span.length).min?.getD 0)

theorem leaderChannels_pos (hierarchy : Hierarchy size) (outputLength : Nat) {ringChannels : Nat}
    (requested : 1 ≤ ringChannels) :
    0 < leaderChannels hierarchy outputLength ringChannels :=
  effectiveRingChannels_pos requested _

theorem leaderReduceScatterRing_eq (whole : length = size * outputLength) {ringChannels : Nat}
    (requested : 1 ≤ ringChannels) {rank : Fin size}
    (leads : hierarchy.Leads rank) :
    (collective.leaderReduceScatterRing hierarchy rank
        (hierarchy.groupIndex rank) (hierarchy.groupRanges outputLength)
        function ringChannels : Phase (Box size) Frame
          (ReduceScatterMemory T length outputLength) CollectiveFault) =
      forkedPhase (collective.leaderScatterPass hierarchy whole
          (leaderChannels_pos hierarchy outputLength requested) function)
        (leaderChannels hierarchy outputLength ringChannels) rank := by
  have among := (hierarchy.mem_leaders rank).mpr leads
  refine List.map_congr_left fun channel member => ?_
  have inside : channel < leaderChannels hierarchy outputLength
      ringChannels := List.mem_range.mp member
  have chunks (index : Nat) :
      rangeAt (channelSlices (hierarchy.groupRanges outputLength)
          (leaderChannels hierarchy outputLength ringChannels) channel)
          (index % hierarchy.groups.length) =
        (groupLayout hierarchy whole (leaderChannels_pos hierarchy outputLength requested)).span
            channel (index : ZMod hierarchy.groups.length) := by
    have early := Nat.mod_lt index (NeZero.pos hierarchy.groups.length)
    rw [rangeAt_channelSlices _ inside, hierarchy.rangeAt_groupRanges _ early,
      ← placeOrder_natCast]
    · rfl
    · rw [Hierarchy.groupRanges, length_spansFrom, List.length_map]
      exact early
  rw [leaderScatterPass, channelPass, flatMap_scatterStages among chunks]
  unfold leaderReduceScatterRingChannel
  dsimp only
  rw [← hierarchy.position_leader leads, RingOrder.memberAt_ahead, RingOrder.memberAt_behind]
  rfl

/-- The part of the packed buffer for the group of a rank. -/
def groupPart (hierarchy : Hierarchy size) (outputLength : Nat)
    (rank : Fin size) (packed : Buffer T length) : List T :=
  readAt ⟨hierarchy.groupOffset outputLength (hierarchy.groupIndex rank),
    hierarchy.groupOffset outputLength (hierarchy.groupIndex rank + 1)⟩ packed

theorem group_within (hierarchy : Hierarchy size)
    (whole : length = size * outputLength) (rank : Fin size) :
    Within length
      ⟨hierarchy.groupOffset outputLength (hierarchy.groupIndex rank),
        hierarchy.groupOffset outputLength (hierarchy.groupIndex rank + 1)⟩ := by
  have cut := hierarchy.cut_groups whole
  have last := cut.growing (Nat.succ_le_of_lt (hierarchy.groupIndex_lt rank))
  rw [cut.whole] at last
  exact ⟨cut.growing (Nat.le_succ _), last⟩

theorem takeGroup_eq_ok (whole : length = size * outputLength) (rank : Fin size)
    (memory : ReduceScatterMemory T length outputLength) :
    takeGroup hierarchy (hierarchy.groupIndex rank) memory =
      .ok { memory with
        localGroupValues := groupPart hierarchy outputLength rank memory.packed } := by
  have within := group_within hierarchy whole rank
  have read := RankDevice.copyFromDeviceAt_eq_ok memory.packed within.fits
  rw [within.whole] at read
  rw [takeGroup, hierarchy.rangeAt_groupRanges _ (hierarchy.groupIndex_lt rank)]
  dsimp only
  rw [read, ok_bind]
  rfl

/-- The shard of a member among those of its group. -/
theorem memberShard_groupPart (whole : length = size * outputLength)
    (addressable : length < wordSize) (rank : Fin size)
    (packed : Buffer T length) (startName stopName : String) :
    memberShard (groupPart hierarchy outputLength rank packed)
        ((hierarchy.groupOf rank).members.idxOf rank) outputLength startName
        stopName =
      .ok (List.ofFn (partAt (hierarchy.packed.position rank * outputLength)
        (hierarchy.position_fits whole rank) packed)) := by
  have within := group_within hierarchy whole rank
  have among := List.idxOf_lt_length_of_mem (hierarchy.mem_groupOf rank)
  have width := hierarchy.groupOffset_succ outputLength (hierarchy.getElem?_groups rank)
  have part : (hierarchy.groupOf rank).members.idxOf rank * outputLength + outputLength ≤
        (hierarchy.groupOf rank).members.length * outputLength := by
    rw [← Nat.succ_mul]
    exact Nat.mul_le_mul_right outputLength among
  have sized : (groupPart hierarchy outputLength rank packed).length =
      (hierarchy.groupOf rank).members.length * outputLength := by
    rw [groupPart, within.length_readAt, Span.length]
    dsimp only
    omega
  have last := within.inside
  dsimp only at last
  have values : groupPart hierarchy outputLength rank packed = Library.segment (List.ofFn packed)
        (hierarchy.groupOffset outputLength (hierarchy.groupIndex rank))
        ((hierarchy.groupOf rank).members.length * outputLength) := by
    rw [groupPart, readAt, Span.length]
    dsimp only
    rw [width, Nat.add_sub_cancel_left]
    rfl
  rw [memberShard_eq_ok (by omega) (by omega), ofFn_partAt, values,
    segment_segment part, ← hierarchy.position_packed_mul, readAt,
    Span.length, Nat.add_sub_cancel_left]
  rfl

variable (collective function hierarchy) in
/-- Followers send their inputs, which their leader reduces. -/
def inputTransfer :
    ValuesTransfer T size (ReduceScatterMemory T length outputLength) where
  tag := fun source _ =>
    hierarchyDataTag collective.operation 7 (UInt32.ofNat source)
  count := length
  values := fun _ _ memory => .ok (RankDevice.copyFromDevice memory.input)
  use := fun _ _ values memory => do
    let working ← collective.execution.reduceValuesInto memory.working 0 values function
    .ok { memory with working := working }

variable (collective hierarchy) in
/-- Leaders send their followers the shards of these. -/
def shardTransfer :
    ValuesTransfer T size (ReduceScatterMemory T length outputLength) where
  tag := fun _ target =>
    hierarchyDataTag collective.operation 9 (UInt32.ofNat target)
  count := outputLength
  values := fun _ target memory =>
    memberShard memory.localGroupValues
      ((hierarchy.groupOf target).members.idxOf target) outputLength
      "hierarchical reduce-scatter member offset"
      "hierarchical reduce-scatter member range"
  use := fun _ _ values memory => do
    let output ← RankDevice.copyToDevice (collective.execution.fresh outputLength) values
    .ok { memory with output := output }

theorem inputTransfer_delivers (lawful : collective.execution.Lawful)
    (addressable : length * collective.execution.elementSize < wordSize) :
    (collective.inputTransfer function :
      ValuesTransfer T size (ReduceScatterMemory T length outputLength)).Delivers
      fun _ _ values memory =>
        ReduceScatterMemory.workingCell.merge function 0 values memory := by
  intro _ _ values memory sized
  have inside : 0 + values.length ≤ length := by
    rw [Nat.zero_add]
    exact Nat.le_of_eq sized
  have reduced := RankDevice.reduceBytesInto_encode lawful inside
    addressable memory.working function
  dsimp only [inputTransfer, RankDevice.reduceValuesInto]
  rw [reduced]
  rfl

theorem shardTransfer_delivers :
    (collective.shardTransfer hierarchy :
      ValuesTransfer T size (ReduceScatterMemory T length outputLength)).Delivers
      fun _ _ values memory => { memory with
        output := mergeAt overwrite 0 values (collective.execution.fresh outputLength) } := by
  intro _ _ values memory sized
  have copied := RankDevice.copyToDevice_eq_ok (collective.execution.fresh outputLength)
    (show values.length = outputLength from sized)
  dsimp only [shardTransfer]
  rw [copied]
  rfl

/-- The followers of a group with their places in it. -/
theorem map_zipIdx_followers {α : Type} {group : RankGroup size}
    (distinct : group.members.Nodup) (part : Fin size × Nat → α) :
    (group.followers.zipIdx 1).map part = group.followers.map fun member =>
        part (member, group.members.idxOf member) := by
  apply List.ext_getElem?
  intro index
  rw [List.getElem?_map, List.getElem?_zipIdx, List.getElem?_map]
  cases located : group.followers[index]? with
  | none => rfl
  | some member =>
      have place : group.members[index + 1]? = some member := by
        rw [RankGroup.members, List.getElem?_cons_succ, located]
      obtain ⟨bounded, same⟩ := List.getElem?_eq_some_iff.mp place
      have position := distinct.idxOf_getElem _ bounded
      rw [same] at position
      simp only [Option.map_some, position, Nat.add_comm]

/-- A leader sends the shards in the order of its group. -/
theorem thread_shardTransfer {rank : Fin size} (leads : hierarchy.Leads rank) :
    Handover.thread (hierarchy.handovers
        ((@shardTransfer T size length outputLength collective
          hierarchy).spreading collective)) rank =
      ((hierarchy.groupOf rank).followers.zipIdx 1).map fun entry =>
        collective.send rank entry.1
          (hierarchyDataTag collective.operation 9 (UInt32.ofNat entry.1))
          fun memory => (do
            let values ← memberShard memory.localGroupValues entry.2
              outputLength "hierarchical reduce-scatter member offset"
              "hierarchical reduce-scatter member range"
            .ok (outputLength, collective.execution.encode values)) := by
  have leader : (hierarchy.groupOf rank).leader = rank := leads
  rw [ValuesTransfer.spreads.thread_leader leads,
    map_zipIdx_followers (hierarchy.nodup_group (hierarchy.groupOf_mem rank))]
  refine List.map_congr_left fun follower follows => ?_
  have same := hierarchy.groupOf_eq (hierarchy.groupOf_mem rank) (RankGroup.follower_mem follows)
  simp only [ValuesTransfer.spreading, ValuesTransfer.handover, shardTransfer, leader, same]
  rfl

/-- What a rank does once the leaders have reduced. -/
def finishScatter (collective : DeviceCollective T size)
    (hierarchy : Hierarchy size) (rank : Fin size) :
    RankThread size (ReduceScatterMemory T length outputLength) :=
  (if hierarchy.Leads rank then
      [.compute (takeGroup hierarchy (hierarchy.groupIndex rank))]
    else []) ++
    (Handover.thread (hierarchy.handovers
        ((collective.shardTransfer hierarchy).spreading collective)) rank ++
      ((if hierarchy.Leads rank then
        [.compute (collective.takeOwn ((hierarchy.groupOf rank).members.idxOf rank))]
      else []) ++ []))

theorem reduceScatterHierarchical_eq (whole : length = size * outputLength) {ringChannels : Nat}
    (requested : 1 ≤ ringChannels) (operation : ReductionOperation)
    (rank : Fin size) :
    (collective.reduceScatterHierarchical hierarchy rank operation function ringChannels :
          RankProgram size (ReduceScatterMemory T length outputLength)) =
      [collective.hierarchyAgreement rank hierarchy length
          (0x800 + operation.code) ringChannels ++
        ((if hierarchy.Leads rank then [.compute collective.loadWorking]
          else []) ++
        (Handover.thread (hierarchy.handovers
            ((collective.inputTransfer function).collecting collective))
            rank ++
        ((if hierarchy.Leads rank then
            [.compute (collective.packWorking hierarchy)]
          else []) ++
        if hierarchy.Leads rank then []
        else collective.finishScatter hierarchy rank)))] ::
        if hierarchy.Leads rank then
          [forkedPhase (collective.leaderScatterPass hierarchy whole
              (leaderChannels_pos hierarchy outputLength requested) function)
            (leaderChannels hierarchy outputLength ringChannels) rank,
          [collective.finishScatter hierarchy rank]]
        else [] := by
  unfold reduceScatterHierarchical finishScatter
  dsimp only
  by_cases leads : hierarchy.Leads rank
  · have leader : (hierarchy.groupOf rank).leader = rank := leads
    simp only [if_pos leads]
    rw [if_neg (not_not.mpr leader.symm), ValuesTransfer.collects.thread_leader leads,
      leaderReduceScatterRing_eq whole requested leads,
      ← thread_shardTransfer leads]
    simp only [List.append_nil, List.append_assoc, ValuesTransfer.collecting, leader]
    rfl
  · have follower : rank ≠ (hierarchy.groupOf rank).leader := Ne.symm leads
    simp only [if_neg leads]
    rw [if_pos follower, ValuesTransfer.collects.thread_follower leads,
      ValuesTransfer.spreads.thread_follower leads]
    rfl

section Runs

variable [NeZero size]

omit [NeZero size] in
theorem takeOwn_eq_ok (whole : length = size * outputLength)
    (addressable : length < wordSize) (rank : Fin size)
    {packed : Buffer T length}
    {memory : ReduceScatterMemory T length outputLength}
    (taken : memory.localGroupValues = groupPart hierarchy outputLength rank packed) :
    collective.takeOwn ((hierarchy.groupOf rank).members.idxOf rank) memory =
      .ok { memory with
        output := partAt (hierarchy.packed.position rank * outputLength)
          (hierarchy.position_fits whole rank) packed } := by
  rw [takeOwn, taken, memberShard_groupPart whole addressable, ok_bind,
    RankDevice.copyToDevice_ofFn, ok_bind]

/-- The leaders have loaded their inputs. -/
def leadersLoaded (hierarchy : Hierarchy size)
    (before : Fin size → ReduceScatterMemory T length outputLength)
    (rank : Fin size) : ReduceScatterMemory T length outputLength :=
  if hierarchy.Leads rank then
    { before rank with working := (before rank).input }
  else before rank

/-- The leaders have reduced the inputs of their groups. -/
def groupsSummed (hierarchy : Hierarchy size) (function : T → T → T)
    (before : Fin size → ReduceScatterMemory T length outputLength)
    (rank : Fin size) : ReduceScatterMemory T length outputLength :=
  if hierarchy.Leads rank then
    { before rank with
      working := hierarchy.groupTotals function (fun other => (before other).input) rank }
  else before rank

/-- The leaders have packed what they have reduced. -/
def groupsPacked (hierarchy : Hierarchy size)
    (whole : length = size * outputLength) (function : T → T → T)
    (before : Fin size → ReduceScatterMemory T length outputLength)
    (rank : Fin size) : ReduceScatterMemory T length outputLength :=
  let summed := groupsSummed hierarchy function before rank
  if hierarchy.Leads rank then
    { summed with packed := hierarchy.packedBuffer whole summed.working }
  else summed

omit [NeZero size] in
theorem leadersLoaded_input (before : Fin size → ReduceScatterMemory T length outputLength)
    (rank : Fin size) :
    (leadersLoaded hierarchy before rank).input = (before rank).input := by
  unfold leadersLoaded
  split
  · rfl
  · rfl

omit [NeZero size] in
theorem collected_inputTransfer (before : Fin size → ReduceScatterMemory T length outputLength) :
    ValuesTransfer.collected
        (fun _ _ values memory =>
          ReduceScatterMemory.workingCell.merge function 0 values memory)
        hierarchy (fun source _ => List.ofFn (before source).input)
        (leadersLoaded hierarchy before) =
      groupsSummed hierarchy function before := by
  funext rank
  unfold ValuesTransfer.collected groupsSummed leadersLoaded
  split
  · rw [Cell.foldl_merge, foldl_mergeAt_ofFn]
    rfl
  · rfl

omit [NeZero size] in
theorem do_inputTransfer (lawful : collective.execution.Lawful)
    (addressable : length * collective.execution.elementSize < wordSize)
    (fits : hierarchy.Shared → collective.FitsFrame length)
    (before : Fin size → ReduceScatterMemory T length outputLength) :
    Handover.Do (hierarchy.handovers ((collective.inputTransfer function).collecting collective))
      (leadersLoaded hierarchy before)
      (groupsSummed hierarchy function before) := by
  have does := @ValuesTransfer.do_collecting T size (ReduceScatterMemory T length outputLength)
    (collective.inputTransfer function) collective _
    (leadersLoaded hierarchy before)
    (fun source _ => List.ofFn (before source).input) hierarchy lawful
    (inputTransfer_delivers lawful addressable)
    fun group listed follower follows => {
      fits := fits ⟨group, listed, List.ne_nil_of_mem follows⟩
      ready := by
        dsimp only [inputTransfer, RankDevice.copyFromDevice]
        rw [leadersLoaded_input]
      sized := List.length_ofFn }
  rwa [collected_inputTransfer] at does

/-- The leaders have what their groups need. -/
def groupsScattered (hierarchy : Hierarchy size)
    (whole : length = size * outputLength) (function : T → T → T)
    {channels : Nat} (positive : 0 < channels)
    (before : Fin size → ReduceScatterMemory T length outputLength) :
    Fin size → ReduceScatterMemory T length outputLength :=
  elementwise hierarchy.leaders.members ReduceScatterMemory.packedCell (fun _ => True)
    (settling (groupLayout hierarchy whole positive)
      (fun _ => hierarchy.leaders) fun slot values =>
        reducing function values (slot - -1) (hierarchy.groups.length - 1))
    (groupsPacked hierarchy whole function before)

/-- Every rank has the totals of its shard. -/
def groupShards (hierarchy : Hierarchy size)
    (whole : length = size * outputLength) (function : T → T → T)
    {channels : Nat} (positive : 0 < channels)
    (inputs : Fin size → Buffer T length) (rank : Fin size) :
    Buffer T outputLength :=
  partAt (hierarchy.packed.position rank * outputLength) (hierarchy.position_fits whole rank)
    (scatterTotals (groupLayout hierarchy whole positive)
      (fun _ => hierarchy.leaders) function fun leader =>
        hierarchy.packedBuffer whole (hierarchy.groupTotals function inputs leader))

theorem packed_groupsScattered (whole : length = size * outputLength)
    {channels : Nat} (positive : 0 < channels)
    (before : Fin size → ReduceScatterMemory T length outputLength)
    {rank : Fin size} (among : rank ∈ hierarchy.leaders.members)
    (element : Fin length) :
    (groupsScattered hierarchy whole function positive before rank).packed element =
      settling (groupLayout hierarchy whole positive) (fun _ => hierarchy.leaders)
        (fun slot values =>
          reducing function values (slot - -1) (hierarchy.groups.length - 1))
        element
        (fun other =>
          (groupsPacked hierarchy whole function before other).packed element) rank := by
  have read := @read_elementwise (Fin size)
    (ReduceScatterMemory T length outputLength) T (Fin length) _
    hierarchy.leaders.members ReduceScatterMemory.packedCell
    (settling (groupLayout hierarchy whole positive)
      (fun _ => hierarchy.leaders) fun slot values =>
        reducing function values (slot - -1) (hierarchy.groups.length - 1))
    (fun _ => True) _ (groupsPacked hierarchy whole function before) _ among
    element
  rw [if_pos trivial] at read
  exact read

theorem partAt_groupsScattered (whole : length = size * outputLength)
    {channels : Nat} (positive : 0 < channels)
    (before : Fin size → ReduceScatterMemory T length outputLength)
    (rank : Fin size) :
    partAt (hierarchy.packed.position rank * outputLength) (hierarchy.position_fits whole rank)
        (groupsScattered hierarchy whole function positive before
          (hierarchy.groupOf rank).leader).packed =
      groupShards hierarchy whole function positive (fun other => (before other).input) rank := by
  funext index
  have among : (hierarchy.groupOf rank).leader ∈ hierarchy.leaders.members :=
    List.mem_map.mpr ⟨_, hierarchy.groupOf_mem rank, rfl⟩
  have bounded : hierarchy.packed.position rank * outputLength + index <
      length := by
    have fits := hierarchy.position_fits whole rank
    omega
  have cut := hierarchy.cut_groups whole
  have slot := (@covers_iff_slotOf _ hierarchy.groups.length
    (hierarchy.packed.position rank * outputLength + index)
    (hierarchy.groupIndex rank) cut.begins cut.growing
    (cut.whole.symm ▸ bounded)).mp (hierarchy.groupOffset_covers rank index.isLt)
  have own : hierarchy.leaders.place (hierarchy.groupOf rank).leader =
      (groupLayout hierarchy whole positive).slotOf ⟨_, bounded⟩ := by
    rw [RingOrder.place, hierarchy.position_groupLeader, ← slot]
    rfl
  have read := @packed_groupsScattered T size length outputLength function
    hierarchy _ whole _ positive before _ among ⟨_, bounded⟩
  have settled := @settling_scatterTotals T size length hierarchy.groups.length channels _
    (groupLayout hierarchy whole positive) (fun _ => hierarchy.leaders)
    function _ _ own
    fun other => (groupsPacked hierarchy whole function before other).packed
  refine read.trans (settled.trans ?_)
  refine @scatterTotals_congr T size length hierarchy.groups.length channels
    _ (groupLayout hierarchy whole positive) (fun _ => hierarchy.leaders)
    function
    (fun other => (groupsPacked hierarchy whole function before other).packed)
    (fun leader => hierarchy.packedBuffer whole
      (hierarchy.groupTotals function (fun other => (before other).input) leader))
    (fun _ other member => ?_) ⟨_, bounded⟩
  have leads := (hierarchy.mem_leaders other).mp member
  simp only [groupsPacked, groupsSummed, if_pos leads]

/-- The leaders have the shards of their groups at hand. -/
def groupsTaken (hierarchy : Hierarchy size)
    (scattered : Fin size → ReduceScatterMemory T length outputLength)
    (rank : Fin size) : ReduceScatterMemory T length outputLength :=
  if hierarchy.Leads rank then
    { scattered rank with
      localGroupValues := groupPart hierarchy outputLength rank (scattered rank).packed }
  else scattered rank

/-- The shard of a rank, as its leader holds it. -/
def heldShard (hierarchy : Hierarchy size) (whole : length = size * outputLength)
    (scattered : Fin size → ReduceScatterMemory T length outputLength)
    (rank : Fin size) : Buffer T outputLength :=
  partAt (hierarchy.packed.position rank * outputLength) (hierarchy.position_fits whole rank)
    (scattered (hierarchy.groupOf rank).leader).packed

/-- All ranks have their shards. -/
def shardsHeld (hierarchy : Hierarchy size) (whole : length = size * outputLength)
    (scattered : Fin size → ReduceScatterMemory T length outputLength)
    (rank : Fin size) : ReduceScatterMemory T length outputLength :=
  { groupsTaken hierarchy scattered rank with
    output := heldShard hierarchy whole scattered rank }

theorem do_shardTransfer (lawful : collective.execution.Lawful)
    (addressable : length * collective.execution.elementSize < wordSize)
    (fits : hierarchy.Shared → collective.FitsFrame length)
    (whole : length = size * outputLength)
    (scattered : Fin size → ReduceScatterMemory T length outputLength) :
    Handover.Do (hierarchy.handovers ((collective.shardTransfer hierarchy).spreading collective))
      (groupsTaken hierarchy scattered)
      (fun rank =>
        if hierarchy.Leads rank then groupsTaken hierarchy scattered rank
        else shardsHeld hierarchy whole scattered rank) := by
  have elements : length < wordSize :=
    lt_of_le_of_lt (Nat.le_mul_of_pos_right length lawful.positive) addressable
  have smaller : outputLength ≤ length := by
    rw [whole]
    exact Nat.le_mul_of_pos_left outputLength (NeZero.pos size)
  have does := @ValuesTransfer.do_spreading T size (ReduceScatterMemory T length outputLength)
    (collective.shardTransfer hierarchy) collective _
    (groupsTaken hierarchy scattered)
    (fun _ target =>
      List.ofFn (heldShard hierarchy whole scattered target)) hierarchy
    lawful shardTransfer_delivers
    fun group listed follower follows => {
      fits := (fits ⟨group, listed, List.ne_nil_of_mem follows⟩).mono smaller
      ready := by
        have same := hierarchy.groupOf_eq listed (RankGroup.follower_mem follows)
        have own := hierarchy.groupOf_leader listed
        have leads : hierarchy.Leads group.leader := congrArg RankGroup.leader own
        have index : hierarchy.groupIndex group.leader =
            hierarchy.groupIndex follower :=
          by
            have place := hierarchy.position_groupLeader follower
            rw [same, hierarchy.position_leader leads] at place
            exact place
        dsimp only [shardTransfer]
        rw [groupsTaken, if_pos leads, groupPart, index, ← groupPart,
          memberShard_groupPart whole elements, heldShard, same]
      sized := List.length_ofFn }
  refine cast (congrArg _ (funext fun rank => ?_)) does
  unfold ValuesTransfer.spread
  by_cases leads : hierarchy.Leads rank
  · rw [if_pos leads, if_pos leads]
  · rw [if_neg leads, if_neg leads, shardsHeld]
    dsimp only
    rw [mergeAt_overwrite_ofFn]

/-- Every rank gets its shard of what its leader holds. -/
theorem reaches_finishScatter (lawful : collective.execution.Lawful)
    (addressable : length * collective.execution.elementSize < wordSize)
    (fits : hierarchy.Shared → collective.FitsFrame length)
    (whole : length = size * outputLength)
    (scattered : Fin size → ReduceScatterMemory T length outputLength) :
    Reaches collective.deviceStep
      (quiet (fun rank => [[collective.finishScatter hierarchy rank]]) scattered)
      (quiet (fun _ => []) (shardsHeld hierarchy whole scattered)) := by
  have elements : length < wordSize :=
    lt_of_le_of_lt (Nat.le_mul_of_pos_right length lawful.positive) addressable
  have takes := @reaches_computes T size _ collective hierarchy.Leads _
    (fun rank => takeGroup hierarchy (hierarchy.groupIndex rank))
    (fun rank => Handover.thread (hierarchy.handovers
        ((collective.shardTransfer hierarchy).spreading collective)) rank ++
      ((if hierarchy.Leads rank then
        [.compute (collective.takeOwn ((hierarchy.groupOf rank).members.idxOf rank))]
      else []) ++ []))
    (fun _ => []) scattered _
    (fun rank _ => takeGroup_eq_ok whole rank (scattered rank))
  have owns := @reaches_computes T size _ collective hierarchy.Leads _
    (fun rank => collective.takeOwn ((hierarchy.groupOf rank).members.idxOf rank))
    (fun _ => []) (fun _ => [])
    (fun rank =>
      if hierarchy.Leads rank then groupsTaken hierarchy scattered rank
      else shardsHeld hierarchy whole scattered rank)
    (shardsHeld hierarchy whole scattered)
    (by
      intro rank leads
      have leader : (hierarchy.groupOf rank).leader = rank := leads
      simp only [if_pos leads]
      have taken : (groupsTaken hierarchy scattered rank).localGroupValues =
          groupPart hierarchy outputLength rank (scattered rank).packed := by
        simp only [groupsTaken, if_pos leads]
      rw [takeOwn_eq_ok whole elements rank taken]
      simp only [shardsHeld, heldShard, leader])
  have spreads := @Hierarchy.reaches_handovers T size _ collective hierarchy _
    (@ValuesTransfer.spreads T size (ReduceScatterMemory T length outputLength)
      (collective.shardTransfer hierarchy) collective).apart
    (fun rank => (if hierarchy.Leads rank then
        [.compute (collective.takeOwn ((hierarchy.groupOf rank).members.idxOf rank))]
      else []) ++ [])
    (fun _ => []) _ _
    (do_shardTransfer lawful addressable fits whole scattered)
  refine takes.trans (Reaches.trans spreads ?_)
  refine Reaches.trans ?_ reaches_join
  refine cast (congrArg _ (congrArg _ (funext fun rank => ?_))) owns
  split
  · rfl
  · rfl

/-- Every rank gets its shard of the totals of the leaders. -/
theorem reaches_reduceScatterHierarchical (lawful : collective.execution.Lawful)
    (addressable : length * collective.execution.elementSize < wordSize)
    (whole : length = size * outputLength)
    {ringChannels : Nat} (requested : 1 ≤ ringChannels)
    (inputFits : hierarchy.Shared → collective.FitsFrame length)
    (groupsFit : collective.GroupsFit hierarchy outputLength
      (leaderChannels hierarchy outputLength ringChannels))
    (operation : ReductionOperation)
    (before : Fin size → ReduceScatterMemory T length outputLength) :
    ∃ after : Fin size → ReduceScatterMemory T length outputLength, Reaches collective.deviceStep
        (quiet (fun rank => collective.reduceScatterHierarchical hierarchy
          rank operation function ringChannels) before)
        (quiet (fun _ => []) after) ∧
      ∀ rank, (after rank).output = groupShards hierarchy whole function
        (leaderChannels_pos hierarchy outputLength requested)
        (fun other => (before other).input) rank := by
  have positive := leaderChannels_pos hierarchy outputLength requested
  have elements : length < wordSize :=
    lt_of_le_of_lt (Nat.le_mul_of_pos_right length lawful.positive) addressable
  let later : Fin size → RankProgram size (ReduceScatterMemory T length outputLength) :=
    fun rank =>
      if hierarchy.Leads rank then
        [forkedPhase (collective.leaderScatterPass hierarchy whole positive function)
          (leaderChannels hierarchy outputLength ringChannels) rank,
        [collective.finishScatter hierarchy rank]]
      else []
  have loads := @reaches_computes T size _ collective hierarchy.Leads _
    (fun _ => collective.loadWorking)
    (fun rank => Handover.thread (hierarchy.handovers
        ((collective.inputTransfer function).collecting collective)) rank ++
      ((if hierarchy.Leads rank then
          [.compute (collective.packWorking hierarchy)]
        else []) ++
      if hierarchy.Leads rank then []
      else collective.finishScatter hierarchy rank)) later before
    (fun rank => { before rank with working := (before rank).input })
    (fun rank _ => loadWorking_eq_ok _)
  have collects := @Hierarchy.reaches_handovers T size _ collective hierarchy _
    (@ValuesTransfer.collects T size (ReduceScatterMemory T length outputLength)
      (collective.inputTransfer function) collective).apart
    (fun rank => (if hierarchy.Leads rank then
        [.compute (collective.packWorking hierarchy)]
      else []) ++
      if hierarchy.Leads rank then []
      else collective.finishScatter hierarchy rank) later _ _
    (do_inputTransfer lawful addressable inputFits before)
  have packs := @reaches_computes T size _ collective hierarchy.Leads _
    (fun _ => collective.packWorking hierarchy)
    (fun rank => if hierarchy.Leads rank then []
      else collective.finishScatter hierarchy rank) later
    (groupsSummed hierarchy function before) _
    (fun rank _ => packWorking_eq_ok whole elements _)
  have reduces := @reducePass_does T size length hierarchy.groups.length _
    _ _ (groupLayout hierarchy whole positive)
    (fun _ => hierarchy.leaders) hierarchy.leaders.members
    ReduceScatterMemory.packedCell collective (-1)
    (fun channel => hierarchyRingDataTag collective.operation 8 channel)
    function lawful addressable
    (fun _ inside => groupsFit.span whole positive inside)
    (fun _ _ => Iff.rfl)
    (groupsPacked hierarchy whole function before)
  have leads := @Hierarchy.reaches_leaders T size _ collective hierarchy _ _
    (collective.finishScatter hierarchy) _ _
    (fun channel _ => channelPass_proper (fun _ _ => Iff.rfl) channel)
    reduces
  have finishes := @reaches_finishScatter T size length outputLength
    collective hierarchy _ lawful addressable inputFits whole
    (groupsScattered hierarchy whole function positive before)
  simp only [reduceScatterHierarchical_eq whole requested]
  refine ⟨_, Reaches.trans (reaches_agreement _ _ _ _ before)
    (loads.trans (Reaches.trans collects (packs.trans
      (Reaches.trans leads finishes)))), fun rank => ?_⟩
  exact partAt_groupsScattered whole positive before rank

omit [NeZero size] in
/-- The channels of a leader have tags of their own. -/
theorem separate_reduceScatterHierarchical (lawful : collective.execution.Lawful)
    (addressable : length * collective.execution.elementSize < wordSize)
    (whole : length = size * outputLength)
    {ringChannels : Nat} (requested : 1 ≤ ringChannels)
    (bounded : ringChannels ≤ maxRingChannels)
    (operation : ReductionOperation) (rank : Fin size) :
    ∀ phase ∈ (collective.reduceScatterHierarchical hierarchy rank operation
        function ringChannels :
          RankProgram size (ReduceScatterMemory T length outputLength)),
      SeparatePhase collective.controlPath Box.sender Box.receiver rank
        phase := by
  have positive := leaderChannels_pos hierarchy outputLength requested
  have few : leaderChannels hierarchy outputLength ringChannels ≤ 64 :=
    (effectiveRingChannels_le ringChannels _).trans bounded
  have groups := hierarchy.length_groups_le
  have world := collective.world
  have finishes : ∀ instruction ∈
      (collective.finishScatter hierarchy rank :
        RankThread size (ReduceScatterMemory T length outputLength)),
      collective.OwnedBy rank instruction := by
    refine List.forall_mem_append.mpr ⟨fun _ => owned_if, ?_⟩
    refine List.forall_mem_append.mpr ⟨ValuesTransfer.owned_spreading, ?_⟩
    rw [List.append_nil]
    exact fun _ => owned_if
  intro phase member
  rw [reduceScatterHierarchical_eq whole requested] at member
  rcases List.mem_cons.mp member with rfl | member
  · apply SeparatePhase.single
    refine List.forall_mem_append.mpr ⟨owned_exchange rank, ?_⟩
    refine List.forall_mem_append.mpr ⟨fun _ => owned_if, ?_⟩
    refine List.forall_mem_append.mpr ⟨ValuesTransfer.owned_collecting, ?_⟩
    refine List.forall_mem_append.mpr ⟨fun _ => owned_if, ?_⟩
    split
    · simp
    · exact finishes
  · split at member
    case isTrue leads =>
      rcases List.mem_cons.mp member with rfl | member
      · refine channelPass_separate (fun _ => (hierarchy.mem_leaders rank).mpr leads)
          (fun channel inside slot => arrives_reduceChunk lawful
            ReduceScatterMemory.packedCell function
            ((groupLayout hierarchy whole positive).within channel inside slot) addressable) ?_
        intro channel inside other otherInside different step early another late
        have near : UInt32.toNat 8 < 256 := by decide
        exact hierarchyRingDataTag_ne collective.operation near
          (Or.inl rfl) (by omega) (by omega) (by omega) (by omega) different
      · rw [List.mem_singleton.mp member]
        exact SeparatePhase.single finishes
    case isFalse => cases member

end Runs

end DeviceCollective

end RuCCL.Rank
