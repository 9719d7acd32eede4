import RuCCL.Rank.DeviceAllGather
import RuCCL.Rank.ReduceScatterRuns

/-!
# Runs of an all-gather

Through the control path and around the rings every rank ends with the inputs of all
ranks in its output.
-/

namespace RuCCL.Rank

open RuCCL.Library
open RankTransport

namespace DeviceCollective

variable {T : Type} {size length : Nat} [NeZero size] {collective : DeviceCollective T size}

/-- The output of a rank is made up of the inputs of all ranks. -/
def Gathers (inputs : Fin size → Buffer T length) (output : Buffer T (length * size)) : Prop :=
  ∀ rank, shardOf (Nat.mul_comm length size) rank output = inputs rank

omit [NeZero size] in
/-- Encodings one behind the other are the encoding of all values. -/
theorem encode_flatMap {device : RankDevice T} (lawful : device.Lawful)
    (concatenates : device.Concatenates) {ι : Type} (values : ι → List T)
    (sources : List ι) :
    sources.flatMap (fun source => device.encode (values source)) =
      device.encode (sources.flatMap values) := by
  induction sources with
  | nil =>
      have empty := lawful.length_encode []
      rw [List.length_nil, Nat.zero_mul] at empty
      exact (List.eq_nil_of_length_eq_zero empty).symm
  | cons source rest ih =>
      rw [List.flatMap_cons, List.flatMap_cons, ih, concatenates]

/-- Every rank gets all inputs from the control path. -/
theorem reaches_allGatherDirect (lawful : collective.execution.Lawful)
    (concatenates : collective.execution.Concatenates)
    (fits : collective.FitsFrame (length * size))
    (before : Fin size → AllGatherMemory T size length) :
    ∃ after : Fin size → AllGatherMemory T size length, Reaches collective.deviceStep
        (quiet (fun rank => [[collective.allGatherDirect rank]]) before)
        (quiet (fun _ => []) after) ∧
      ∀ rank, Gathers (fun other => (before other).input) (after rank).output := by
  have total : length * size < wordSize :=
    lt_of_le_of_lt (Nat.le_mul_of_pos_right _ lawful.positive) fits.addressable
  have multiplied := (checkedMul_eq_some_iff length size _).mpr ⟨total, rfl⟩
  let values : List T := (List.finRange size).flatMap fun other =>
    List.ofFn (before other).input
  have sized : values.length = length * size := by
    simp [values, List.length_flatMap, Nat.mul_comm]
  have payload : ((List.finRange size).flatMap fun rank =>
      collective.execution.encode (RankDevice.copyFromDevice (before rank).input)) =
      collective.execution.encode values :=
    encode_flatMap lawful concatenates _ _
  have decoded := RankDevice.decodeExact_encode lawful sized fits.addressable
  have exchanged := @reaches_gathered T size _ collective _ lawful .allGather 0
    (fun _ memory => .ok (collective.execution.encode (RankDevice.copyFromDevice memory.input)))
    (fun _ response memory => do
      let outputLength ← okOr (checkedMul length size)
        (.rank (.overflow "TCP all-gather output length"))
      let values ← collective.execution.decodeExact response.payload outputLength
      let output ← RankDevice.copyToDevice (collective.execution.fresh (length * size)) values
      .ok { memory with output := output })
    (fun _ => []) (fun _ => []) before
    (fun rank => { before rank with
      output := mergeAt overwrite 0 values
        (collective.execution.fresh (length * size)) }) _ length
    (fun _ => rfl)
    (fun rank => by
      rw [lawful.length_encode, RankDevice.copyFromDevice, List.length_ofFn]) (Or.inl rfl) fits
    (fun rank response gathered => by
      rw [multiplied, okOr_some, ok_bind, gathered, payload, decoded, ok_bind,
        RankDevice.copyToDevice_eq_ok _ sized, ok_bind])
  simp only [List.append_nil] at exchanged
  refine ⟨_, exchanged.trans reaches_join, fun rank other => ?_⟩
  exact shardOf_flatMap _ _ _ other

section Rings

variable {channels : Nat}

omit [NeZero size] in
/-- The instructions of a member when each chunk starts at its owner. -/
theorem flatMap_gatherStages {count : Nat} {σ : Type} [NeZero count]
    {ring : RingOrder (Fin size) count} {buffer : Cell σ (Buffer T length)}
    {spans : ZMod count → Span} {channel : Nat} {tag : Nat → UInt64}
    {use : Span → List UInt8 → σ → Except CollectiveFault σ}
    {rank : Fin size} (among : rank ∈ ring.members) {chunk : Nat → Span}
    (chunks : ∀ index, chunk index = spans (index : ZMod count)) :
    (collective.passStages ring buffer spans 0 channel tag use
        (count - 1)).flatMap (Stage.instructions rank) =
      collective.ringPass rank buffer (count - 1) (ring.next rank)
        (ring.previous rank) channel tag
        (fun step => chunk (ring.position rank + count - step))
        (fun step => chunk (ring.position rank + count - step - 1)) use := by
  have bounded := ring.position_lt among
  rw [flatMap_passStages among]
  refine ringPass_congr ?_ ?_
  · intro step early
    rw [chunks, passed, RingOrder.place, Nat.cast_sub (by omega)]
    congr 1
    push_cast
    simp
  · intro step early
    rw [chunks, passed_previous, RingOrder.place, Nat.sub_sub, Nat.cast_sub (by omega)]
    congr 1
    push_cast
    simp
    ring

/-- The outputs go round the ring of a channel. -/
def allGatherPass (collective : DeviceCollective T size) (length : Nat)
    (positive : 0 < channels) (channel : Nat) :
    List (Stage (Fin size) (Box size) Frame (AllGatherMemory T size length) CollectiveFault) :=
  collective.channelPass
    (shardLayout collective.ringOrderForChannel (Nat.mul_comm length size) positive)
    collective.ringOrderForChannel AllGatherMemory.outputCell 0
    (fun channel => ringDataTag collective.operation 0 channel)
    (collective.copyChunk AllGatherMemory.outputCell) channel

theorem allGatherRingChannel_eq (positive : 0 < channels) (rank : Fin size) (channel : Nat) :
    (collective.allGatherRingChannel rank (channelSpan length channels channel) channel :
          RankThread size (AllGatherMemory T size length)) =
      (collective.allGatherPass length positive channel).flatMap (Stage.instructions rank) := by
  have among := (collective.ringOrderForChannel channel).mem_members rank
  have chunks (index : Nat) :
      rangeAt (shardRanges size length (channelSpan length channels channel))
          ((collective.ringOrderForChannel channel).memberAt index) =
        (shardLayout collective.ringOrderForChannel
          (Nat.mul_comm length size) positive).span channel (index : ZMod size) := by
    rw [rangeAt_shardRanges (Fin.isLt _), RingOrder.memberAt_eq, ← nestedSpan_shards]
    rfl
  rw [allGatherPass, channelPass, flatMap_gatherStages among chunks]
  unfold allGatherRingChannel
  dsimp only
  rw [RingOrder.memberAt_ahead, RingOrder.memberAt_behind]

theorem forkChannels_allGatherRing (positive : 0 < channels) (rank : Fin size) :
    (forkChannels (balancedRanges length channels)
      fun channelRange channel => (collective.allGatherRingChannel rank channelRange channel :
          RankThread size (AllGatherMemory T size length))) =
      forkedPhase (collective.allGatherPass length positive) channels
        rank := by
  rw [forkChannels_balancedRanges]
  exact List.map_congr_left fun channel _ =>
    allGatherRingChannel_eq positive rank channel

omit [NeZero size] in
theorem placeOwn_eq_ok (lawful : collective.execution.Lawful)
    (addressable : length * size < wordSize) (rank : Fin size)
    (memory : AllGatherMemory T size length) :
    collective.placeOwn rank memory =
      .ok { memory with
        output := mergeAt overwrite (rank * length) (List.ofFn memory.input)
          (collective.execution.fresh (length * size)) } := by
  have multiplied := (checkedMul_eq_some_iff length size _).mpr ⟨addressable, rfl⟩
  have read := @RankDevice.copyBytesFromDeviceAt_eq_ok _ collective.execution
    _ memory.input _ _ (Nat.le_of_eq (Nat.zero_add length))
  have fits := shard_fits (Nat.mul_comm length size) rank
  have loaded := @RankDevice.fitting_encode _ _ (length * size) lawful
    (rank * length) (List.ofFn memory.input) (by
      rw [List.length_ofFn]
      exact fits)
  rw [Nat.zero_add, readAt_all] at read
  rw [placeOwn, multiplied, okOr_some, ok_bind, read, ok_bind,
    RankDevice.copyBytesToDeviceAt, loaded]
  rfl

/-- Every rank gets the inputs of all ranks. -/
theorem reaches_allGatherRing (lawful : collective.execution.Lawful)
    (addressable :
      length * size * collective.execution.elementSize < wordSize)
    {ringChannels : Nat} (requested : 1 ≤ ringChannels)
    (fits : collective.ChannelsFit length (effectiveRingChannels ringChannels length))
    (before : Fin size → AllGatherMemory T size length) :
    ∃ after : Fin size → AllGatherMemory T size length, Reaches collective.deviceStep
        (quiet (fun rank => collective.allGatherRing rank ringChannels) before)
        (quiet (fun _ => []) after) ∧
      ∀ rank, Gathers (fun other => (before other).input) (after rank).output := by
  have positive := effectiveRingChannels_pos requested length
  have total : length * size < wordSize :=
    lt_of_le_of_lt (Nat.le_mul_of_pos_right _ lawful.positive) addressable
  have whole := Nat.mul_comm length size
  let placed : Fin size → AllGatherMemory T size length :=
    fun rank => { before rank with
      output := mergeAt overwrite (rank * length) (List.ofFn (before rank).input)
        (collective.execution.fresh (length * size)) }
  have places := @reaches_computes T size _ collective (fun _ => True) _
    (fun rank => collective.placeOwn rank)
    (fun rank => collective.ringAgreement rank length 0x200
      (effectiveRingChannels ringChannels length))
    (fun rank => [forkedPhase (collective.allGatherPass length positive)
      (effectiveRingChannels ringChannels length) rank]) before placed
    (fun rank _ => placeOwn_eq_ok lawful total rank (before rank))
  have copies := @copyPass_does T size (length * size) size _ _ _
    (shardLayout collective.ringOrderForChannel whole positive)
    collective.ringOrderForChannel (List.finRange size)
    AllGatherMemory.outputCell collective 0
    (fun channel => ringDataTag collective.operation 0 channel)
    (collective.copyChunk AllGatherMemory.outputCell) lawful
    (fun channel inside slot => by
      have part := fits channel inside
      rwa [← length_shardLayout_span whole positive slot] at part)
    (fun channel inside slot => arrives_copyChunk lawful _
      ((shardLayout collective.ringOrderForChannel whole positive).within
        channel inside slot)) mem_ringOrder_iff placed
  have runs := @reaches_channels T size _ collective _ _ (fun _ => []) _ _
    (fun channel _ => channelPass_proper mem_ringOrder_iff channel) copies
  have starts := places.trans (Reaches.trans
    (reaches_agreement _ _ (fun _ => []) _ placed) (reaches_join.trans runs))
  simp only [if_true, ← forkChannels_allGatherRing] at starts
  refine ⟨_, starts, fun rank other => funext fun element => ?_⟩
  let layout := shardLayout collective.ringOrderForChannel whole positive
  let index : Fin (length * size) :=
    ⟨other * length + element, by
      have fits := shard_fits whole other
      omega⟩
  have own : (collective.ringOrderForChannel
      (layout.channelOf index)).place other = layout.slotOf index := by
    apply place_eq_slotOf _ whole positive
    constructor
    · exact Nat.le_add_right _ _
    · rw [Nat.succ_mul]
      exact Nat.add_lt_add_left element.isLt _
  have among := (collective.ringOrderForChannel (layout.channelOf index)).mem_members other
  have read := @read_elementwise (Fin size) (AllGatherMemory T size length)
    T (Fin (length * size)) _ (List.finRange size) AllGatherMemory.outputCell
    (settling layout collective.ringOrderForChannel
      fun slot values _ => values (slot - 0)) (fun _ => True) _ placed rank
    (List.mem_finRange rank) index
  rw [if_pos trivial, settling, sub_zero, ← own] at read
  dsimp only at read
  rw [RingOrder.member_place _ among] at read
  exact read.trans (congrFun (partAt_mergeAt_overwrite
    (shard_fits whole other) (before other).input _) element)

/-- The channels of one rank have tags of their own. -/
theorem separate_allGatherRing (lawful : collective.execution.Lawful)
    {ringChannels : Nat} (requested : 1 ≤ ringChannels)
    (bounded : ringChannels ≤ maxRingChannels) (rank : Fin size) :
    ∀ phase ∈ (collective.allGatherRing rank ringChannels :
        RankProgram size (AllGatherMemory T size length)),
      SeparatePhase collective.controlPath Box.sender Box.receiver rank
        phase := by
  have positive := effectiveRingChannels_pos requested length
  have few : effectiveRingChannels ringChannels length ≤ 64 :=
    (effectiveRingChannels_le ringChannels length).trans bounded
  intro phase member
  rcases List.mem_cons.mp member with rfl | member
  · exact separate_compute (owned_exchange rank)
  · rw [List.mem_singleton.mp member, forkChannels_allGatherRing positive]
    apply channelPass_separate (fun channel => RingOrder.mem_members _ rank)
    · intro channel inside slot
      exact arrives_copyChunk lawful _
        ((shardLayout collective.ringOrderForChannel
          (Nat.mul_comm length size) positive).within channel inside slot)
    · intro channel inside other otherInside different step early another late
      exact ringDataTag_ne step another (by omega) (by omega) different

end Rings

end DeviceCollective

end RuCCL.Rank
