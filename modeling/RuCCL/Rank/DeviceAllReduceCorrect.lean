import RuCCL.Rank.DeviceAllReduce

/-!
# All-reduce leaves one result

Whatever the plan picks, every run of the ranks ends, and all of them hold the same
buffer.  Each element of it is reduced along one way and only copied afterwards.
-/

namespace RuCCL.Rank

open RuCCL.Library
open RankTransport

namespace DeviceCollective

variable {T : Type} {size length : Nat} {σ : Type} [NeZero size]
  {collective : DeviceCollective T size} {buffer : Cell σ (Buffer T length)}
  {function : T → T → T}

/-- The ranks reduce the same payloads in the same order. -/
theorem reaches_allReduceDirect (lawful : collective.execution.Lawful)
    (fits : collective.FitsFrame (length * size))
    (operation : ReductionOperation) (before : Fin size → σ) :
    Reaches collective.deviceStep
      (quiet (fun rank => [[collective.allReduceDirect rank buffer operation function]]) before)
      (quiet (fun _ => []) fun rank => buffer.write
        (reduceBuffers function (fun other => buffer.read (before other)) 0
          (List.finRange size).tail) (before rank)) := by
  obtain ⟨others, listed⟩ := @exists_finRange_cons size _
  have several : size = others.length + 1 := by
    have count := congrArg List.length listed
    rwa [List.length_finRange, List.length_cons] at count
  have reduced (output : Buffer T length) :
      collective.execution.reduceConcatenated size
        ((List.finRange size).flatMap fun rank =>
          collective.execution.encode (RankDevice.copyFromDevice (buffer.read (before rank))))
        output function =
      .ok (reduceBuffers function (fun other => buffer.read (before other)) 0
        (List.finRange size).tail) := by
    have bounded : length * collective.execution.elementSize *
        (others.length + 1) < wordSize := by
      rw [← several, Nat.mul_right_comm]
      exact fits.addressable
    have whole := RankDevice.reduceConcatenated_encode lawful
      (fun other => buffer.read (before other)) (0 : Fin size) others
      bounded output function
    rw [← several, ← listed] at whole
    rw [whole, listed]
    rfl
  have exchanged := @reaches_gathered T size σ collective _ lawful .allReduce
    (operation.code.toUInt64 + 1)
    (fun _ memory => .ok (collective.execution.encode
      (RankDevice.copyFromDevice (buffer.read memory))))
    (fun _ response memory => do
      let reduced ← collective.execution.reduceConcatenated size
        response.payload (buffer.read memory) function
      .ok (buffer.write reduced memory))
    (fun _ => []) (fun _ => []) before
    (fun rank => buffer.write
      (reduceBuffers function (fun other => buffer.read (before other)) 0
        (List.finRange size).tail) (before rank)) _ length (fun _ => rfl)
    (fun rank => by
      rw [lawful.length_encode, RankDevice.copyFromDevice, List.length_ofFn]) (Or.inr rfl) fits
    (fun rank response gathered => by
      rw [gathered, reduced, ok_bind])
  simp only [List.append_nil] at exchanged
  exact exchanged.trans reaches_join

omit [NeZero size] in
theorem separate_allReduceDirect (operation : ReductionOperation) (rank : Fin size) :
    SeparatePhase collective.controlPath Box.sender Box.receiver rank
      [collective.allReduceDirect rank buffer operation function] :=
  SeparatePhase.single (owned_exchange rank)

omit [NeZero size] in
theorem effectiveRingChannels_pos {ringChannels : Nat}
    (positive : 1 ≤ ringChannels) (elements : Nat) :
    0 < effectiveRingChannels ringChannels elements := by
  unfold effectiveRingChannels
  omega

omit [NeZero size] in
theorem effectiveRingChannels_le (ringChannels elements : Nat) :
    effectiveRingChannels ringChannels elements ≤ ringChannels :=
  Nat.min_le_left ..

section Rings

variable {channels : Nat}

/-- The chunk of a channel that a rank owns is the one of its number. -/
def ringLayout (collective : DeviceCollective T size) (length : Nat)
    (positive : 0 < channels) : ChannelLayout length channels size :=
  ChannelLayout.chunks length channels positive
    fun channel => (collective.ringOrderForChannel channel).order

/-- The channels of an all-reduce around the rings. -/
def allReduceRingStages (collective : DeviceCollective T size)
    (buffer : Cell σ (Buffer T length)) (function : T → T → T)
    (positive : 0 < channels) (channel : Nat) :
    List (Stage (Fin size) (Box size) Frame σ CollectiveFault) :=
  collective.channelStages (collective.ringLayout length positive)
    collective.ringOrderForChannel buffer
    (fun channel => ringDataTag collective.operation 0 channel)
    (fun channel => ringDataTag collective.operation 1 channel) function
    channel

theorem allReduceRingChannel_eq (positive : 0 < channels) (rank : Fin size) (channel : Nat) :
    collective.allReduceRingChannel rank buffer
        (channelSpan length channels channel) channel function =
      (collective.allReduceRingStages buffer function positive
        channel).flatMap (Stage.instructions rank) := by
  have among := (collective.ringOrderForChannel channel).mem_members rank
  have chunks (index : Nat) :
      rangeAt (channelChunks (channelSpan length channels channel) size)
          ((collective.ringOrderForChannel channel).memberAt index) =
        (collective.ringLayout length positive).span channel (index : ZMod size) := by
    rw [rangeAt_channelChunks (Fin.isLt _), RingOrder.memberAt_eq]
    rfl
  rw [allReduceRingStages, channelStages, flatMap_allReduceStages among chunks]
  unfold allReduceRingChannel
  dsimp only
  rw [RingOrder.memberAt_ahead, RingOrder.memberAt_behind]

theorem forkChannels_allReduceRing (positive : 0 < channels) (rank : Fin size) :
    (forkChannels (balancedRanges length channels)
      fun channelRange channel => collective.allReduceRingChannel rank buffer
        channelRange channel function) =
      forkedPhase (collective.allReduceRingStages buffer function positive)
        channels rank := by
  rw [forkChannels_balancedRanges]
  exact List.map_congr_left fun channel _ =>
    allReduceRingChannel_eq positive rank channel

/-- Every chunk of every channel fits into a frame. -/
def ChunksFit (collective : DeviceCollective T size) (length channels parts : Nat) : Prop :=
  ∀ channel < channels, ∀ chunk < parts, collective.FitsFrame
    (chunkSpan length channels parts channel chunk).length

theorem mem_ringOrder_iff (channel : Nat) (rank : Fin size) :
    rank ∈ (collective.ringOrderForChannel channel).members ↔ rank ∈ List.finRange size :=
  iff_of_true (RingOrder.mem_members _ rank) (List.mem_finRange rank)

/-- All ranks get the totals of the rings. -/
theorem reaches_allReduceRing (lawful : collective.execution.Lawful)
    (addressable : length * collective.execution.elementSize < wordSize)
    {ringChannels : Nat} (requested : 1 ≤ ringChannels)
    (fits : collective.ChunksFit length (effectiveRingChannels ringChannels length) size)
    (operation : ReductionOperation) (before : Fin size → σ) :
    Reaches collective.deviceStep
      (quiet (fun rank => collective.allReduceRing rank buffer operation
        function ringChannels) before)
      (quiet (fun _ => []) fun rank => buffer.write
        (ringTotals (collective.ringLayout length (effectiveRingChannels_pos requested length))
          collective.ringOrderForChannel function
          fun other => buffer.read (before other)) (before rank)) := by
  have positive := effectiveRingChannels_pos requested length
  have does := @channelStages_does T size length size σ collective _ _
    (collective.ringLayout length positive) collective.ringOrderForChannel
    buffer (fun channel => ringDataTag collective.operation 0 channel)
    (fun channel => ringDataTag collective.operation 1 channel) function
    (List.finRange size) lawful addressable
    (fun channel inside slot => fits channel inside _ (Fin.isLt _))
    mem_ringOrder_iff before
  rw [overlay_finRange] at does
  have ran := @reaches_channels T size σ collective
    (collective.allReduceRingStages buffer function positive) _ (fun _ => [])
    _ _ (fun channel _ => channelStages_proper mem_ringOrder_iff channel)
    does
  simp only [← forkChannels_allReduceRing] at ran
  refine Reaches.trans (reaches_agreement _ _ (fun _ => []) _ before) ?_
  exact reaches_join.trans ran

/-- The channels of one rank have tags of their own. -/
theorem separate_allReduceRing (lawful : collective.execution.Lawful)
    (addressable : length * collective.execution.elementSize < wordSize)
    {ringChannels : Nat} (requested : 1 ≤ ringChannels)
    (bounded : ringChannels ≤ maxRingChannels)
    (operation : ReductionOperation) (rank : Fin size) :
    ∀ phase ∈ collective.allReduceRing rank buffer operation function ringChannels,
      SeparatePhase collective.controlPath Box.sender Box.receiver rank phase := by
  have positive := effectiveRingChannels_pos requested length
  have few : effectiveRingChannels ringChannels length ≤ 64 :=
    (effectiveRingChannels_le ringChannels length).trans bounded
  intro phase member
  rcases List.mem_cons.mp member with rfl | member
  · exact SeparatePhase.single (owned_exchange rank)
  · rw [List.mem_singleton.mp member, forkChannels_allReduceRing positive]
    refine channelStages_separate lawful addressable
      (fun channel => RingOrder.mem_members _ rank) ?_
    intro channel inside other otherInside different step _ another _
    have apart (phase otherPhase : UInt64) :
        ringDataTag collective.operation phase channel step ≠
          ringDataTag collective.operation otherPhase other another :=
      ringDataTag_ne step another (by omega) (by omega) different
    exact ⟨apart 0 0, apart 0 1, apart 1 1⟩

end Rings

section Groups

variable (collective buffer function) (hierarchy : Hierarchy size)

/-- Followers send their buffers, which their leader reduces. -/
def reduceTransfer : ValuesTransfer T size σ where
  tag := fun source _ =>
    hierarchyDataTag collective.operation 0 (UInt32.ofNat source)
  count := length
  values := fun _ _ memory =>
    .ok (RankDevice.copyFromDevice (buffer.read memory))
  use := fun _ _ values memory => do
    let reduced ← collective.execution.reduceValuesInto (buffer.read memory) 0 values function
    .ok (buffer.write reduced memory)

/-- Leaders send their buffers, which their followers copy. -/
def copyTransfer : ValuesTransfer T size σ where
  tag := fun _ target =>
    hierarchyDataTag collective.operation 3 (UInt32.ofNat target)
  count := length
  values := fun _ _ memory =>
    .ok (RankDevice.copyFromDevice (buffer.read memory))
  use := fun _ _ values memory => do
    let reduced ← RankDevice.copyToDevice (buffer.read memory) values
    .ok (buffer.write reduced memory)

variable {collective buffer function hierarchy}

omit [NeZero size] in
theorem reduceTransfer_delivers (lawful : collective.execution.Lawful)
    (addressable : length * collective.execution.elementSize < wordSize) :
    (collective.reduceTransfer buffer function).Delivers
      fun _ _ values memory => buffer.merge function 0 values memory := by
  intro _ _ values memory sized
  have inside : 0 + values.length ≤ length := by
    rw [Nat.zero_add]
    exact Nat.le_of_eq sized
  have reduced := RankDevice.reduceBytesInto_encode lawful inside
    addressable (buffer.read memory) function
  dsimp only [reduceTransfer, RankDevice.reduceValuesInto]
  rw [reduced]
  rfl

omit [NeZero size] in
theorem copyTransfer_delivers :
    (collective.copyTransfer buffer).Delivers
      fun _ _ values memory => buffer.merge overwrite 0 values memory := by
  intro _ _ values memory sized
  have copied := RankDevice.copyToDevice_eq_ok (buffer.read memory)
    (show values.length = length from sized)
  dsimp only [copyTransfer]
  rw [copied]
  rfl

variable (buffer) in
/-- The buffers that the ranks send. -/
def buffersSent (before : Fin size → σ) (source _ : Fin size) : List T :=
  RankDevice.copyFromDevice (buffer.read (before source))

omit [NeZero size] in
theorem reduceTransfer_sends (fits : collective.FitsFrame length)
    (before : Fin size → σ) (source target : Fin size) :
    (collective.reduceTransfer buffer function).Sends collective before
      (buffersSent buffer before) source target where
  fits := fits
  ready := rfl
  sized := List.length_ofFn

omit [NeZero size] in
theorem copyTransfer_sends (fits : collective.FitsFrame length)
    (before : Fin size → σ) (source target : Fin size) :
    (collective.copyTransfer buffer).Sends collective before
      (buffersSent buffer before) source target where
  fits := fits
  ready := rfl
  sized := List.length_ofFn

/-- The chunks of a channel go round the leaders. -/
def leaderLayout (hierarchy : Hierarchy size) (length : Nat) {channels : Nat}
    (positive : 0 < channels) :
    ChannelLayout length channels hierarchy.groups.length :=
  ChannelLayout.chunks length channels positive fun _ => placeOrder _

/-- The channels of the leaders. -/
def leaderAllReduceStages (collective : DeviceCollective T size)
    (hierarchy : Hierarchy size) (buffer : Cell σ (Buffer T length))
    (function : T → T → T) {channels : Nat} (positive : 0 < channels)
    (channel : Nat) :
    List (Stage (Fin size) (Box size) Frame σ CollectiveFault) :=
  collective.channelStages (leaderLayout hierarchy length positive)
    (fun _ => hierarchy.leaders) buffer
    (fun channel => hierarchyRingDataTag collective.operation 1 channel)
    (fun channel => hierarchyRingDataTag collective.operation 2 channel)
    function channel

omit [NeZero size] in
theorem forkChannels_leaderAllReduce {channels : Nat} (positive : 0 < channels) {rank : Fin size}
    (leads : hierarchy.Leads rank) :
    (forkChannels (balancedRanges length channels)
      fun channelRange channel => collective.leaderAllReduceRingChannel
        hierarchy rank buffer (hierarchy.groupIndex rank) channelRange
        channel function) =
      forkedPhase (collective.leaderAllReduceStages hierarchy buffer function
        positive) channels rank := by
  have among := (hierarchy.mem_leaders rank).mpr leads
  rw [forkChannels_balancedRanges]
  refine List.map_congr_left fun channel _ => ?_
  have chunks (index : Nat) :
      rangeAt (channelChunks (channelSpan length channels channel)
          hierarchy.groups.length) (index % hierarchy.groups.length) =
        (leaderLayout hierarchy length positive).span channel
          (index : ZMod hierarchy.groups.length) := by
    rw [rangeAt_channelChunks (Nat.mod_lt _ (NeZero.pos _)), ← placeOrder_natCast]
    rfl
  rw [leaderAllReduceStages, channelStages, flatMap_allReduceStages among chunks]
  unfold leaderAllReduceRingChannel
  dsimp only
  rw [← hierarchy.position_leader leads, RingOrder.memberAt_ahead, RingOrder.memberAt_behind]

omit [NeZero size] in
/-- The ranks follow the handovers and the channels of their groups. -/
theorem allReduceHierarchical_eq {ringChannels : Nat}
    (requested : 1 ≤ ringChannels) (operation : ReductionOperation)
    (rank : Fin size) :
    collective.allReduceHierarchical hierarchy rank buffer operation function ringChannels =
      [collective.hierarchyAgreement rank hierarchy length
          (0x600 + operation.code) ringChannels ++
        (Handover.thread (hierarchy.handovers
            ((collective.reduceTransfer buffer function).collecting collective)) rank ++
          if hierarchy.Leads rank then []
          else Handover.thread (hierarchy.handovers
            ((collective.copyTransfer buffer).spreading collective)) rank)] ::
        if hierarchy.Leads rank then
          [forkedPhase (collective.leaderAllReduceStages hierarchy buffer
              function (effectiveRingChannels_pos requested length))
            (effectiveRingChannels ringChannels length) rank,
          [Handover.thread (hierarchy.handovers
            ((collective.copyTransfer buffer).spreading collective)) rank]]
        else [] := by
  unfold allReduceHierarchical
  dsimp only
  by_cases leads : hierarchy.Leads rank
  · have leader : (hierarchy.groupOf rank).leader = rank := leads
    rw [if_neg (not_not.mpr leader.symm), if_pos leads, if_pos leads,
      ValuesTransfer.collects.thread_leader leads,
      ValuesTransfer.spreads.thread_leader leads,
      forkChannels_leaderAllReduce (effectiveRingChannels_pos requested length) leads]
    simp only [ValuesTransfer.collecting, ValuesTransfer.spreading, leader, List.append_nil]
    rfl
  · have follower : rank ≠ (hierarchy.groupOf rank).leader := Ne.symm leads
    rw [if_pos follower, if_neg leads, if_neg leads,
      ValuesTransfer.collects.thread_follower leads,
      ValuesTransfer.spreads.thread_follower leads]
    rfl

/-- The leaders have reduced the buffers of their groups. -/
def groupsReduced (hierarchy : Hierarchy size)
    (buffer : Cell σ (Buffer T length)) (function : T → T → T)
    (before : Fin size → σ) : Fin size → σ :=
  fun rank =>
    if hierarchy.Leads rank then
      buffer.write (hierarchy.groupTotals function
        (fun other => buffer.read (before other)) rank) (before rank)
    else before rank

omit [NeZero size] in
theorem collected_reduceTransfer (before : Fin size → σ) :
    ValuesTransfer.collected (fun _ _ values memory => buffer.merge function 0 values memory)
        hierarchy (buffersSent buffer before) before =
      groupsReduced hierarchy buffer function before := by
  funext rank
  unfold ValuesTransfer.collected groupsReduced
  split
  · unfold buffersSent RankDevice.copyFromDevice
    rw [buffer.foldl_merge, foldl_mergeAt_ofFn]
    rfl
  · rfl

/-- What all ranks hold after an all-reduce within groups. -/
def hierarchicalTotals (hierarchy : Hierarchy size) (function : T → T → T)
    {channels : Nat} (positive : 0 < channels)
    (inputs : Fin size → Buffer T length) : Buffer T length :=
  ringTotals (leaderLayout hierarchy length positive) (fun _ => hierarchy.leaders) function
    (hierarchy.groupTotals function inputs)

/-- The leaders of all groups hold the totals. -/
def leadersTotal (hierarchy : Hierarchy size)
    (buffer : Cell σ (Buffer T length)) (totals : Buffer T length)
    (gathered : Fin size → σ) : Fin size → σ :=
  overlay hierarchy.leaders.members (fun rank => buffer.write totals (gathered rank)) gathered

omit [NeZero size] in
theorem leadersTotal_leader {totals : Buffer T length} {gathered : Fin size → σ} {rank : Fin size}
    (leads : hierarchy.Leads rank) :
    leadersTotal hierarchy buffer totals gathered rank = buffer.write totals (gathered rank) :=
  overlay_of_mem ((hierarchy.mem_leaders rank).mpr leads)

omit [NeZero size] in
/-- The leaders reduce around their rings what their groups have collected. -/
theorem leaders_do (lawful : collective.execution.Lawful)
    (addressable : length * collective.execution.elementSize < wordSize)
    {channels : Nat} (positive : 0 < channels)
    (fits : collective.ChunksFit length channels hierarchy.groups.length)
    (before : Fin size → σ) :
    DoesAll hierarchy.leaders.members
      (byChannel (collective.leaderAllReduceStages hierarchy buffer function positive) channels)
      (groupsReduced hierarchy buffer function before)
      (leadersTotal hierarchy buffer
        (hierarchicalTotals hierarchy function positive fun other => buffer.read (before other))
        (groupsReduced hierarchy buffer function before)) := by
  have does := @channelStages_does T size length hierarchy.groups.length σ
    collective _ _ (leaderLayout hierarchy length positive)
    (fun _ => hierarchy.leaders) buffer
    (fun channel => hierarchyRingDataTag collective.operation 1 channel)
    (fun channel => hierarchyRingDataTag collective.operation 2 channel)
    function hierarchy.leaders.members lawful addressable
    (fun channel inside slot => fits channel inside _ (Fin.isLt _))
    (fun _ _ => Iff.rfl)
    (groupsReduced hierarchy buffer function before)
  have totals : (ringTotals (leaderLayout hierarchy length positive)
      (fun _ => hierarchy.leaders) function fun other => buffer.read
        (groupsReduced hierarchy buffer function before other)) =
      hierarchicalTotals hierarchy function positive fun other => buffer.read (before other) := by
    funext element
    unfold hierarchicalTotals ringTotals
    congr 1
    funext place
    have leads := (hierarchy.mem_leaders _).mp (hierarchy.leaders.member_mem place)
    dsimp only
    rw [groupsReduced, if_pos leads, buffer.read_write]
  rwa [totals] at does

omit [NeZero size] in
/-- The followers copy what their leaders hold. -/
theorem spread_leadersTotal (totals : Buffer T length) (before : Fin size → σ) :
    ValuesTransfer.spread (fun _ _ values memory => buffer.merge overwrite 0 values memory)
        hierarchy
        (buffersSent buffer (leadersTotal hierarchy buffer totals
          (groupsReduced hierarchy buffer function before)))
        (leadersTotal hierarchy buffer totals (groupsReduced hierarchy buffer function before)) =
      fun rank => buffer.write totals (before rank) := by
  funext rank
  rw [ValuesTransfer.spread]
  split
  case isTrue leads =>
    rw [leadersTotal_leader leads, groupsReduced, if_pos leads, buffer.write_write]
  case isFalse follows =>
    have leads : hierarchy.Leads (hierarchy.groupOf rank).leader := by
      rw [Hierarchy.Leads, hierarchy.groupOf_leader (hierarchy.groupOf_mem rank)]
    have waits : leadersTotal hierarchy buffer totals
        (groupsReduced hierarchy buffer function before) rank = before rank := by
      rw [leadersTotal, overlay_of_not_mem (mt (hierarchy.mem_leaders rank).mp follows),
        groupsReduced, if_neg follows]
    dsimp only [buffersSent]
    rw [leadersTotal_leader leads, buffer.read_write, waits, Cell.merge,
      RankDevice.copyFromDevice, mergeAt_overwrite_ofFn]

/-- All ranks get the totals of the leaders. -/
theorem reaches_allReduceHierarchical (lawful : collective.execution.Lawful)
    (addressable : length * collective.execution.elementSize < wordSize)
    {ringChannels : Nat} (requested : 1 ≤ ringChannels)
    (bufferFits : hierarchy.Shared → collective.FitsFrame length)
    (chunksFit : collective.ChunksFit length
      (effectiveRingChannels ringChannels length) hierarchy.groups.length)
    (operation : ReductionOperation) (before : Fin size → σ) :
    Reaches collective.deviceStep
      (quiet (fun rank => collective.allReduceHierarchical hierarchy rank
        buffer operation function ringChannels) before)
      (quiet (fun _ => []) fun rank => buffer.write
        (hierarchicalTotals hierarchy function (effectiveRingChannels_pos requested length)
          fun other => buffer.read (before other)) (before rank)) := by
  have positive := effectiveRingChannels_pos requested length
  have gather := @ValuesTransfer.do_collecting T size σ
    (collective.reduceTransfer buffer function) collective _ before _
    hierarchy lawful (reduceTransfer_delivers lawful addressable)
    fun group listed follower follows => reduceTransfer_sends
      (bufferFits ⟨group, listed, List.ne_nil_of_mem follows⟩) before
      follower group.leader
  have reduce := @leaders_do T size length σ collective buffer function
    hierarchy lawful addressable _ positive chunksFit before
  have scatter := @ValuesTransfer.do_spreading T size σ
    (collective.copyTransfer buffer) collective _
    (leadersTotal hierarchy buffer
      (hierarchicalTotals hierarchy function positive fun other => buffer.read (before other))
      (groupsReduced hierarchy buffer function before)) _ hierarchy lawful
    copyTransfer_delivers
    fun group listed follower follows => copyTransfer_sends
      (bufferFits ⟨group, listed, List.ne_nil_of_mem follows⟩) _
      group.leader follower
  rw [collected_reduceTransfer] at gather
  rw [spread_leadersTotal] at scatter
  simp only [allReduceHierarchical_eq requested]
  refine Reaches.trans (reaches_agreement _ _ _ _ before) ?_
  refine Reaches.trans (hierarchy.reaches_handovers ValuesTransfer.collects.apart gather) ?_
  refine Reaches.trans (hierarchy.reaches_leaders
    (fun channel _ => channelStages_proper (fun _ _ => Iff.rfl) channel)
    reduce) ?_
  have spread := @Hierarchy.reaches_handovers T size σ collective hierarchy _
    ValuesTransfer.spreads.apart (fun _ => []) (fun _ => []) _ _ scatter
  simp only [List.append_nil] at spread
  exact spread.trans reaches_join

omit [NeZero size] in
/-- The channels of a leader have tags of their own. -/
theorem separate_allReduceHierarchical (lawful : collective.execution.Lawful)
    (addressable : length * collective.execution.elementSize < wordSize)
    {ringChannels : Nat} (requested : 1 ≤ ringChannels)
    (bounded : ringChannels ≤ maxRingChannels)
    (operation : ReductionOperation) (rank : Fin size) :
    ∀ phase ∈ collective.allReduceHierarchical hierarchy rank buffer
      operation function ringChannels,
      SeparatePhase collective.controlPath Box.sender Box.receiver rank phase := by
  have positive := effectiveRingChannels_pos requested length
  have few : effectiveRingChannels ringChannels length ≤ 64 :=
    (effectiveRingChannels_le ringChannels length).trans bounded
  have groups := hierarchy.length_groups_le
  have world := collective.world
  intro phase member
  rw [allReduceHierarchical_eq requested] at member
  rcases List.mem_cons.mp member with rfl | member
  · refine SeparatePhase.single ?_
    intro instruction among
    rcases List.mem_append.mp among with agrees | among
    · exact owned_exchange rank instruction agrees
    · rcases List.mem_append.mp among with collects | spreads
      · exact ValuesTransfer.owned_collecting instruction collects
      · split at spreads
        · cases spreads
        · exact ValuesTransfer.owned_spreading instruction spreads
  · split at member
    case isTrue leads =>
      rcases List.mem_cons.mp member with rfl | member
      · refine channelStages_separate lawful addressable
          (fun _ => (hierarchy.mem_leaders rank).mpr leads) ?_
        intro channel inside other otherInside different step early another late
        have apart {phase otherPhase : UInt32} (small : phase.toNat < 256)
            (phases : phase = otherPhase ∨ phase = 1 ∧ otherPhase = 2 ∨
              phase = 2 ∧ otherPhase = 1) :
            hierarchyRingDataTag collective.operation phase channel step ≠
              hierarchyRingDataTag collective.operation otherPhase other
                another :=
          hierarchyRingDataTag_ne collective.operation small phases
            (by omega) (by omega) (by omega) (by omega) different
        have near : UInt32.toNat 1 < 256 := by decide
        have behind : UInt32.toNat 2 < 256 := by decide
        exact ⟨apart near (Or.inl rfl), apart near (Or.inr (Or.inl ⟨rfl, rfl⟩)),
          apart behind (Or.inl rfl)⟩
      · rw [List.mem_singleton.mp member]
        exact SeparatePhase.single ValuesTransfer.owned_spreading
    case isFalse => cases member

end Groups

section Results

/-- Every element of the result is the reduction of that element of all inputs. -/
def Reduces (function : T → T → T) (inputs : Fin size → Buffer T length)
    (result : Buffer T length) : Prop :=
  ∀ element, reduceAll function ((List.finRange size).map fun rank => inputs rank element) =
      some (result element)

theorem reduces_buffers (inputs : Fin size → Buffer T length) :
    Reduces function inputs (reduceBuffers function inputs 0 (List.finRange size).tail) := by
  intro element
  obtain ⟨others, listed⟩ := @exists_finRange_cons size _
  rw [listed, reduceAll_reduceBuffers]
  rfl

variable [Std.Associative function] [Std.Commutative function]

theorem reduces_ringTotals {channels : Nat} {layout : ChannelLayout length channels size}
    {rings : Nat → RingOrder (Fin size) size}
    (inputs : Fin size → Buffer T length) :
    Reduces function inputs (ringTotals layout rings function inputs) := by
  intro element
  rw [reduceAll_perm function
    (((rings (layout.channelOf element)).members_perm.symm).map fun rank => inputs rank element)]
  exact (rings (layout.channelOf element)).reduceAll_members function _ _

omit [NeZero size] in
/-- The leaders have reduced the inputs of all ranks. -/
theorem reduceAll_groupTotals (hierarchy : Hierarchy size)
    (inputs : Fin size → Buffer T length) (element : Fin length) :
    reduceAll function ((List.finRange size).map fun rank => inputs rank element) =
      reduceAll function (hierarchy.leaders.members.map fun rank =>
        hierarchy.groupTotals function inputs rank element) := by
  have blocks := @reduceAll_flatMap _ _ function _ hierarchy.groups
    (fun group => group.members.map fun rank => inputs rank element)
    (fun group =>
      hierarchy.groupTotals function inputs group.leader element)
    (by
      intro group listed
      rw [Hierarchy.groupTotals, hierarchy.groupOf_leader listed]
      exact reduceAll_reduceBuffers ..)
  rw [← reduceAll_perm function (hierarchy.partition.map
    fun rank => inputs rank element), List.map_flatMap, blocks,
    Hierarchy.leaders, List.map_map]
  rfl

omit [NeZero size] in
theorem reduces_hierarchicalTotals {hierarchy : Hierarchy size}
    {channels : Nat} (positive : 0 < channels)
    (inputs : Fin size → Buffer T length) :
    Reduces function inputs (hierarchicalTotals hierarchy function positive inputs) := by
  intro element
  rw [reduceAll_groupTotals hierarchy]
  exact hierarchy.leaders.reduceAll_members function _ _

end Results

/-- Whatever the plan picks, each frame of an all-reduce carries what fits into it:
the payloads of all ranks, a chunk of a ring, or in a group of several ranks a whole
buffer. -/
def AllReduceFits (collective : DeviceCollective T size) (length : Nat) :
    Prop :=
  let plan := collective.plan .allReduce (length * collective.execution.elementSize)
  let channels := effectiveRingChannels plan.ringChannels length
  if 1 < size then
    match plan.algorithm with
    | .hierarchical => ∀ hierarchy, collective.hierarchyGroups = some hierarchy →
        (hierarchy.Shared → collective.FitsFrame length) ∧
          collective.ChunksFit length channels hierarchy.groups.length
    | .ring => collective.ChunksFit length channels size
    | .direct | .pairwise => collective.FitsFrame (length * size)
  else collective.FitsFrame (length * size)

omit [NeZero size] in
theorem ChunksFit.of_whole {channels parts : Nat} (fits : collective.FitsFrame length) :
    collective.ChunksFit length channels parts := by
  intro channel inside chunk among
  have within := nestedSpan_within (Cut.balanced length (Nat.zero_lt_of_lt inside)) inside among
  exact fits.mono ((Nat.sub_le ..).trans within.2)

/-- It is enough that the inputs of all ranks fit into one frame. -/
theorem AllReduceFits.of_gathered (fits : collective.FitsFrame (length * size)) :
    collective.AllReduceFits length := by
  have whole : collective.FitsFrame length :=
    fits.mono (Nat.le_mul_of_pos_right _ (NeZero.pos size))
  unfold AllReduceFits
  dsimp only
  split
  · split
    · exact fun hierarchy _ => ⟨fun _ => whole, .of_whole whole⟩
    · exact .of_whole whole
    · exact fits
    · exact fits
  · exact fits

/-- Every run ends with one result in all buffers. -/
def LeavesResult (collective : DeviceCollective T size)
    (buffer : Cell σ (Buffer T length)) (operation : ReductionOperation)
    (function : T → T → T) (before : Fin size → σ)
    (result : Buffer T length) : Prop :=
  Library.Settles collective.deviceStep
    (quiet (fun rank => collective.allReduce rank buffer operation function) before)
    (Completed fun memory =>
      ∀ rank, memory rank = buffer.write result (before rank))

theorem leavesResult_of_reaches {operation : ReductionOperation}
    {before : Fin size → σ} {result : Buffer T length}
    {programs : Fin size → RankProgram size σ}
    (same : ∀ rank, collective.allReduce rank buffer operation function = programs rank)
    (separate : ∀ rank, ∀ phase ∈ programs rank,
      SeparatePhase collective.controlPath Box.sender Box.receiver rank phase)
    (reaches : Reaches collective.deviceStep (quiet programs before)
      (quiet (fun _ => []) fun rank => buffer.write result (before rank))) :
    collective.LeavesResult buffer operation function before result := by
  unfold LeavesResult
  rw [funext same]
  exact settles_of_reaches separate reaches fun _ => rfl

theorem leavesResult_direct (lawful : collective.execution.Lawful)
    (fits : collective.FitsFrame (length * size))
    (operation : ReductionOperation) (before : Fin size → σ)
    (same : ∀ rank, collective.allReduce rank buffer operation function =
      [[collective.allReduceDirect rank buffer operation function]]) :
    collective.LeavesResult buffer operation function before
      (reduceBuffers function (fun other => buffer.read (before other)) 0
        (List.finRange size).tail) := by
  refine leavesResult_of_reaches same ?_ (reaches_allReduceDirect lawful fits operation before)
  intro rank phase member
  rw [List.mem_singleton.mp member]
  exact separate_allReduceDirect operation rank

/-- Nothing is reduced when a buffer is too large for the frame of its rank. -/
theorem unsettled_allReduceDirect (lawful : collective.execution.Lawful)
    (large : ¬ collective.FitsFrame length)
    {operation : ReductionOperation} {before : Fin size → σ}
    {result : Buffer T length}
    (same : ∀ rank, collective.allReduce rank buffer operation function =
      [[collective.allReduceDirect rank buffer operation function]]) :
    ¬ collective.LeavesResult buffer operation function before result := by
  have starts : collective.allReduce 0 buffer operation function =
      [collective.allReduceDirect 0 buffer operation function ++ []] :: [] := by
    rw [same, List.append_nil]
  have long : maxFramePayloadBytes < (collective.execution.encode
      (RankDevice.copyFromDevice (buffer.read (before 0)))).length := by
    rw [lawful.length_encode, RankDevice.copyFromDevice, List.length_ofFn]
    exact Nat.not_le.mp large
  exact unsettled_exchange starts rfl long

/-- All runs leave one result, which is the reduction where that does not depend on
an order. -/
theorem exists_leavesResult (lawful : collective.execution.Lawful)
    (addressable : length * collective.execution.elementSize < wordSize)
    (fits : collective.AllReduceFits length)
    (operation : ReductionOperation) (before : Fin size → σ) :
    ∃ result, collective.LeavesResult buffer operation function before result ∧
      (Std.Associative function → Std.Commutative function →
        Reduces function (fun other => buffer.read (before other)) result) := by
  obtain ⟨requested, bounded⟩ := collective.channeled .allReduce
    (length * collective.execution.elementSize)
  unfold AllReduceFits at fits
  by_cases several : 1 < size
  · simp only [if_pos several] at fits
    cases picked : (collective.plan .allReduce
        (length * collective.execution.elementSize)).algorithm with
    | direct =>
        simp only [picked] at fits
        refine ⟨_, leavesResult_direct lawful fits operation before
          fun rank => ?_, fun _ _ => reduces_buffers _⟩
        simp only [allReduce, if_pos several, picked]
    | pairwise =>
        simp only [picked] at fits
        refine ⟨_, leavesResult_direct lawful fits operation before
          fun rank => ?_, fun _ _ => reduces_buffers _⟩
        simp only [allReduce, if_pos several, picked]
    | ring =>
        simp only [picked] at fits
        refine ⟨_, leavesResult_of_reaches (fun rank => ?_)
          (separate_allReduceRing lawful addressable requested bounded operation)
          (reaches_allReduceRing lawful addressable requested fits operation
            before), fun _ _ => reduces_ringTotals _⟩
        simp only [allReduce, if_pos several, picked]
    | hierarchical =>
        simp only [picked] at fits
        obtain ⟨hierarchy, grouped⟩ := Option.ne_none_iff_exists'.mp
          (collective.grouped _ _ picked)
        obtain ⟨bufferFits, chunksFit⟩ := fits hierarchy grouped
        refine ⟨_, leavesResult_of_reaches (fun rank => ?_)
          (@separate_allReduceHierarchical T size length σ collective buffer
            function hierarchy lawful addressable _ requested bounded
            operation)
          (reaches_allReduceHierarchical lawful addressable requested
            bufferFits chunksFit operation before),
          fun _ _ => reduces_hierarchicalTotals _ _⟩
        simp only [allReduce, if_pos several, picked, grouped]
  · rw [if_neg several] at fits
    refine ⟨_, leavesResult_direct lawful fits operation before
      fun rank => ?_, fun _ _ => reduces_buffers _⟩
    simp only [allReduce, if_neg several]

/-- Where its frames carry what fits into them, every all-reduce ends with the
reduction of all inputs in every buffer. -/
theorem allReduce_reduces [Std.Associative function]
    [Std.Commutative function] (lawful : collective.execution.Lawful)
    (addressable : length * collective.execution.elementSize < wordSize)
    (fits : collective.AllReduceFits length)
    (operation : ReductionOperation) (before : Fin size → σ) :
    ∃ result, collective.LeavesResult buffer operation function before result ∧
      Reduces function (fun other => buffer.read (before other)) result := by
  obtain ⟨result, leaves, reduces⟩ := @exists_leavesResult T size length σ _
    collective buffer function lawful addressable fits operation before
  exact ⟨result, leaves, reduces inferInstance inferInstance⟩

theorem allReduce_reduces_bytes :
    ∃ result, (ofBytes .hierarchical).LeavesResult (Cell.whole (Buffer UInt8 5)) .sum (· + ·)
        (fun rank => fun element => UInt8.ofNat (rank * 7 + element))
        result ∧
      Reduces (· + ·) (fun (rank : Fin 3) element =>
        UInt8.ofNat (rank * 7 + element)) result :=
  @allReduce_reduces _ 3 5 _ _ (ofBytes .hierarchical) _ _ _ _
    RankDevice.lawful_bytes (by decide)
    (.of_gathered (by unfold FitsFrame; decide)) .sum _

/-- One byte more than a frame carries is not summed. -/
theorem allReduce_oversized :
    ¬ ∃ result, (ofBytes .direct).LeavesResult
        (Cell.whole (Buffer UInt8 (2 ^ 30 + 1))) .sum (· + ·)
        (fun _ _ => 1) result ∧
      Reduces (· + ·) (fun (_ : Fin 3) _ => 1) result :=
  fun ⟨_, leaves, _⟩ => unsettled_allReduceDirect RankDevice.lawful_bytes
    (by unfold FitsFrame; decide) (fun _ => rfl) leaves

/-- Under any operation every all-reduce ends with the same buffer on every rank. -/
theorem allReduce_replicates (lawful : collective.execution.Lawful)
    (addressable : length * collective.execution.elementSize < wordSize)
    (fits : collective.AllReduceFits length)
    (operation : ReductionOperation) (before : Fin size → σ) :
    ∃ result,
      collective.LeavesResult buffer operation function before result := by
  obtain ⟨result, leaves, _⟩ := @exists_leavesResult T size length σ _
    collective buffer function lawful addressable fits operation before
  exact ⟨result, leaves⟩

theorem allReduce_replicates_bytes :
    ∃ result, (ofBytes .ring).LeavesResult (Cell.whole (Buffer UInt8 5))
      .sum (fun total value => total + total + value)
      (fun rank => fun element => UInt8.ofNat (rank * 7 + element))
      result :=
  @allReduce_replicates _ 3 5 _ _ (ofBytes .ring) _ _
    RankDevice.lawful_bytes (by decide)
    (.of_gathered (by unfold FitsFrame; decide)) .sum _

/-- Buffers that no frame carries are not replicated under any operation. -/
theorem allReduce_unreplicated :
    ¬ ∃ result, (ofBytes .direct).LeavesResult (Cell.whole (Buffer UInt8 (2 ^ 30 + 1))) .sum
      (fun total value => total + total + value)
      (fun rank _ => UInt8.ofNat rank) result :=
  fun ⟨_, leaves⟩ => unsettled_allReduceDirect RankDevice.lawful_bytes
    (by unfold FitsFrame; decide) (fun _ => rfl) leaves

end DeviceCollective

end RuCCL.Rank
