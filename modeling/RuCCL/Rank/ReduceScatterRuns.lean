import RuCCL.Rank.DeviceAllReduceCorrect
import RuCCL.Rank.DeviceReduceScatter
import RuCCL.Rank.Shards

/-!
# Runs of a reduce-scatter

Through the control path and around the rings every rank ends with its shard of totals.
-/

namespace RuCCL.Rank

open RuCCL.Library
open RankTransport

namespace DeviceCollective

variable {T : Type} {size length outputLength : Nat} [NeZero size]
  {collective : DeviceCollective T size} {function : T → T → T}

omit [NeZero size] in
/-- The instructions of a member when each chunk starts behind its owner. -/
theorem flatMap_scatterStages {count : Nat} {σ : Type} [NeZero count]
    {ring : RingOrder (Fin size) count} {buffer : Cell σ (Buffer T length)}
    {spans : ZMod count → Span} {channel : Nat} {tag : Nat → UInt64}
    {use : Span → List UInt8 → σ → Except CollectiveFault σ}
    {rank : Fin size} (among : rank ∈ ring.members) {chunk : Nat → Span}
    (chunks : ∀ index, chunk index = spans (index : ZMod count)) :
    (collective.passStages ring buffer spans (-1) channel tag use
        (count - 1)).flatMap (Stage.instructions rank) =
      collective.ringPass rank buffer (count - 1) (ring.next rank)
        (ring.previous rank) channel tag
        (fun step => chunk (ring.position rank + count - 1 - step))
        (fun step => chunk (ring.position rank + 2 * count - 2 - step))
        use := by
  have bounded := ring.position_lt among
  rw [flatMap_passStages among]
  refine ringPass_congr ?_ ?_
  · intro step early
    rw [chunks, passed, RingOrder.place, Nat.sub_sub, Nat.cast_sub (by omega)]
    congr 1
    push_cast
    simp
    ring
  · intro step early
    rw [chunks, passed_previous, RingOrder.place, Nat.sub_sub, Nat.cast_sub (by omega)]
    congr 1
    push_cast
    simp
    ring

section Direct

/-- Every rank reduces its parts of all payloads. -/
theorem reaches_reduceScatterDirect (lawful : collective.execution.Lawful)
    (concatenates : collective.execution.Concatenates)
    (fits : collective.FitsFrame length)
    (whole : length = size * outputLength) (operation : ReductionOperation)
    (before : Fin size → ReduceScatterMemory T length outputLength) :
    Reaches collective.deviceStep
      (quiet (fun rank => [[collective.reduceScatterDirect rank operation function]]) before)
      (quiet (fun _ => []) fun rank => { before rank with
        output := reduceBuffers function (fun other => shardOf whole rank (before other).input) 0
          (List.finRange size).tail }) := by
  obtain ⟨others, listed⟩ := @exists_finRange_cons size _
  have several : size = others.length + 1 := by
    have count := congrArg List.length listed
    rwa [List.length_finRange, List.length_cons] at count
  have part (rank other : Fin size) :
      equalPart size rank (collective.execution.encode
        (RankDevice.copyFromDevice (before other).input)) =
      collective.execution.encode (List.ofFn (shardOf whole rank (before other).input)) := by
    have sized : (List.ofFn (before other).input).length = size * outputLength := by
      rw [List.length_ofFn, whole]
    rw [RankDevice.copyFromDevice, equalPart_encode lawful concatenates sized
      rank.isLt, segment_ofFn whole]
  have reduced (rank : Fin size) :
      collective.execution.reduceConcatenated size
        ((List.finRange size).flatMap fun other =>
          equalPart size rank (collective.execution.encode
            (RankDevice.copyFromDevice (before other).input)))
        (collective.execution.fresh outputLength) function =
      .ok (reduceBuffers function (fun other => shardOf whole rank (before other).input) 0
        (List.finRange size).tail) := by
    have bounded : outputLength * collective.execution.elementSize *
        (others.length + 1) < wordSize := by
      rw [← several, Nat.mul_right_comm, Nat.mul_comm outputLength, ← whole]
      exact fits.addressable
    have all := RankDevice.reduceConcatenated_encode lawful
      (fun other => shardOf whole rank (before other).input) (0 : Fin size)
      others bounded (collective.execution.fresh outputLength) function
    simp only [part]
    rw [← several, ← listed] at all
    refine (show _ = _ from all).trans ?_
    rw [listed]
    rfl
  have exchanged := @reaches_transposed T size _ collective _ lawful
    .reduceScatter (operation.code.toUInt64 + 1)
    (fun _ memory => .ok (collective.execution.encode (RankDevice.copyFromDevice memory.input)))
    (fun _ response memory => do
      let output ← collective.execution.reduceConcatenated size
        response.payload (collective.execution.fresh outputLength) function
      .ok { memory with output := output })
    (fun _ => []) (fun _ => []) before
    (fun rank => { before rank with
      output := reduceBuffers function (fun other => shardOf whole rank (before other).input) 0
        (List.finRange size).tail }) _ length (fun _ => rfl)
    (fun rank => by
      rw [lawful.length_encode, RankDevice.copyFromDevice, List.length_ofFn]) (Or.inl rfl)
    (by
      rw [whole]
      exact Nat.mul_mod_right size outputLength) fits
    (fun rank response transposed => by
      rw [transposed, reduced, ok_bind])
  simp only [List.append_nil] at exchanged
  exact exchanged.trans reaches_join

end Direct

section Rings

variable {channels : Nat}

omit [NeZero size] in
theorem rangeAt_shardRanges {channelRange : Span} {rank : Nat} (inside : rank < size) :
    rangeAt (shardRanges size outputLength channelRange) rank =
      channelRange.shift (rank * outputLength) := by
  rw [rangeAt, List.getD_eq_getElem?_getD, shardRanges, List.getElem?_map,
    List.getElem?_range inside]
  rfl

/-- The pass of a channel. -/
def reduceScatterPass (collective : DeviceCollective T size)
    (whole : length = size * outputLength) (positive : 0 < channels)
    (function : T → T → T) (channel : Nat) :
    List (Stage (Fin size) (Box size) Frame
      (ReduceScatterMemory T length outputLength) CollectiveFault) :=
  collective.channelPass (shardLayout collective.ringOrderForChannel whole positive)
    collective.ringOrderForChannel ReduceScatterMemory.workingCell (-1)
    (fun channel => ringDataTag collective.operation 0 channel)
    (collective.reduceChunk ReduceScatterMemory.workingCell function) channel

/-- The end of a channel. -/
def takeShards (collective : DeviceCollective T size)
    (outputLength channels : Nat) (channel : Nat) :
    List (Stage (Fin size) (Box size) Frame
      (ReduceScatterMemory T length outputLength) CollectiveFault) :=
  [.alone fun rank => collective.takeShard rank (channelSpan outputLength channels channel)]

theorem reduceScatterRingChannel_eq
    (whole : length = size * outputLength) (positive : 0 < channels)
    (rank : Fin size) (channel : Nat) :
    (collective.reduceScatterRingChannel rank
        (channelSpan outputLength channels channel) channel function :
          RankThread size (ReduceScatterMemory T length outputLength)) =
      (collective.reduceScatterPass whole positive function channel ++
        collective.takeShards outputLength channels channel).flatMap
          (Stage.instructions rank) := by
  have among := (collective.ringOrderForChannel channel).mem_members rank
  have chunks (index : Nat) :
      rangeAt (shardRanges size outputLength (channelSpan outputLength channels channel))
          ((collective.ringOrderForChannel channel).memberAt index) =
        (shardLayout collective.ringOrderForChannel whole positive).span
          channel (index : ZMod size) := by
    rw [rangeAt_shardRanges (Fin.isLt _), RingOrder.memberAt_eq, ← nestedSpan_shards]
    rfl
  rw [List.flatMap_append, reduceScatterPass, channelPass, flatMap_scatterStages among chunks]
  unfold reduceScatterRingChannel
  dsimp only
  rw [RingOrder.memberAt_ahead, RingOrder.memberAt_behind]
  rfl

theorem forkChannels_reduceScatterRing
    (whole : length = size * outputLength) (positive : 0 < channels)
    (rank : Fin size) :
    (forkChannels (balancedRanges outputLength channels)
      fun channelRange channel => (collective.reduceScatterRingChannel rank
        channelRange channel function :
          RankThread size (ReduceScatterMemory T length outputLength))) =
      forkedPhase (fun channel =>
        collective.reduceScatterPass whole positive function channel ++
          collective.takeShards outputLength channels channel) channels
        rank := by
  rw [forkChannels_balancedRanges]
  exact List.map_congr_left fun channel _ =>
    reduceScatterRingChannel_eq whole positive rank channel

theorem independent_working_output :
    Cell.Independent (@ReduceScatterMemory.workingCell T length outputLength)
      ReduceScatterMemory.outputCell :=
  ⟨fun _ _ => rfl, fun _ _ => rfl, fun _ _ _ => rfl⟩

omit [NeZero size] in
/-- The own part of the working buffer is copied to the output. -/
theorem copies_takeShard (lawful : collective.execution.Lawful)
    (whole : length = size * outputLength) (rank : Fin size)
    {channel : Nat} (inside : channel < channels) :
    Copies (@ReduceScatterMemory.workingCell T length outputLength) ReduceScatterMemory.outputCell
      ((channelSpan outputLength channels channel).shift (rank * outputLength))
      (channelSpan outputLength channels channel).start
      (collective.takeShard rank (channelSpan outputLength channels channel)) := by
  intro memory
  have within := @channelSpan_within outputLength channels channel inside
  have shifted := within.shift (shard_fits whole rank)
  have read := @RankDevice.copyBytesFromDeviceAt_eq_ok _ collective.execution
    _ memory.working _ _ shifted.fits
  have sized := shifted.length_readAt memory.working
  rw [shifted.whole, Span.length_shift] at read
  rw [Span.length_shift] at sized
  have loaded := @RankDevice.fitting_encode _ _ outputLength lawful
    (channelSpan outputLength channels channel).start _
    (sized.symm ▸ within.fits)
  refine (congrArg (· >>= _) read).trans ?_
  rw [ok_bind, RankDevice.copyBytesToDeviceAt, loaded]
  rfl

omit [NeZero size] in
theorem loadWorking_eq_ok (memory : ReduceScatterMemory T length outputLength) :
    collective.loadWorking memory = .ok { memory with working := memory.input } := by
  rw [loadWorking, RankDevice.copyFromDevice, RankDevice.copyToDevice_ofFn, ok_bind]

omit [NeZero size] in
theorem separate_compute {σ : Type} {rank : Fin size}
    {change : σ → Except CollectiveFault σ} {rest : RankThread size σ}
    (owned : ∀ instruction ∈ rest, collective.OwnedBy rank instruction) :
    SeparatePhase collective.controlPath Box.sender Box.receiver rank [.compute change :: rest] :=
  SeparatePhase.single (List.forall_mem_cons.mpr ⟨trivial, owned⟩)

/-- A channel has as much of the shard of every rank. -/
theorem length_shardLayout_span {rings : Nat → RingOrder (Fin size) size}
    (whole : length = size * outputLength) (positive : 0 < channels)
    {channel : Nat} (slot : ZMod size) :
    ((shardLayout rings whole positive).span channel slot).length =
      (channelSpan outputLength channels channel).length :=
  (congrArg Span.length (nestedSpan_shards ..)).trans (Span.length_shift ..)

/-- Every rank gets its shard of the totals. -/
theorem reaches_reduceScatterRing (lawful : collective.execution.Lawful)
    (addressable : length * collective.execution.elementSize < wordSize)
    (whole : length = size * outputLength)
    {ringChannels : Nat} (requested : 1 ≤ ringChannels)
    (fits : collective.ChannelsFit outputLength (effectiveRingChannels ringChannels outputLength))
    (operation : ReductionOperation)
    (before : Fin size → ReduceScatterMemory T length outputLength) :
    ∃ after : Fin size → ReduceScatterMemory T length outputLength, Reaches collective.deviceStep
        (quiet (fun rank => collective.reduceScatterRing rank operation
          function ringChannels) before)
        (quiet (fun _ => []) after) ∧
      ∀ rank, (after rank).output = shardOf whole rank
        (scatterTotals
          (shardLayout collective.ringOrderForChannel whole
            (effectiveRingChannels_pos requested outputLength))
          collective.ringOrderForChannel function
          fun other => (before other).input) := by
  have positive := effectiveRingChannels_pos requested outputLength
  let loaded : Fin size → ReduceScatterMemory T length outputLength :=
    fun rank => { before rank with
      working := (before rank).input
      output := collective.execution.fresh outputLength }
  have loads := @reaches_computes T size _ collective (fun _ => True) _
    (fun _ memory => do
      let memory ← collective.loadWorking memory
      .ok { memory with
        output := collective.execution.fresh outputLength })
    (fun rank => collective.ringAgreement rank length (0x300 + operation.code)
      (effectiveRingChannels ringChannels outputLength))
    (fun rank => [forkedPhase (fun channel =>
      collective.reduceScatterPass whole positive function channel ++
        collective.takeShards outputLength
          (effectiveRingChannels ringChannels outputLength) channel)
      (effectiveRingChannels ringChannels outputLength) rank]) before loaded
    (fun rank _ => by rw [loadWorking_eq_ok, ok_bind])
  have reduces := @reducePass_does T size length size _ _ _
    (shardLayout collective.ringOrderForChannel whole positive)
    collective.ringOrderForChannel
    (List.finRange size) ReduceScatterMemory.workingCell collective (-1)
    (fun channel => ringDataTag collective.operation 0 channel) function
    lawful addressable
    (fun channel inside slot => by
      have part := fits channel inside
      rwa [← length_shardLayout_span whole positive slot] at part)
    mem_ringOrder_iff loaded
  have takes := copies_do (fun rank => shard_fits whole rank) positive independent_working_output
    (fun _ rank inside => copies_takeShard lawful whole rank inside)
    (elementwise (List.finRange size) ReduceScatterMemory.workingCell (fun _ => True)
      (settling (shardLayout collective.ringOrderForChannel whole positive)
        collective.ringOrderForChannel fun slot values =>
          reducing function values (slot - -1) (size - 1)) loaded)
  have runs := @reaches_channelsTwice T size _ collective _ _ _ (fun _ => []) _ _ _
    (fun channel _ => channelPass_proper mem_ringOrder_iff channel)
    (fun channel _ stage member => by
      rw [List.mem_singleton.mp member]
      trivial) reduces takes
  have starts := loads.trans (Reaches.trans
    (reaches_agreement _ _ (fun _ => []) _ loaded) (reaches_join.trans runs))
  simp only [if_true, ← forkChannels_reduceScatterRing] at starts
  refine ⟨_, starts, fun rank => funext fun element => ?_⟩
  dsimp only [ReduceScatterMemory.outputCell]
  rw [shardOf, partAt, partAt, read_elementwise (List.mem_finRange rank), if_pos trivial]
  refine settling_scatterTotals (place_eq_slotOf _ whole positive ?_)
    fun other => (before other).input
  constructor
  · exact Nat.le_add_right _ _
  · rw [Nat.succ_mul]
    exact Nat.add_lt_add_left element.isLt _

/-- What a channel takes is not reduced by another channel. -/
theorem shard_apart_pass (whole : length = size * outputLength)
    (positive : 0 < channels) (rank : Fin size) {channel other : Nat}
    (inside : channel < channels) (otherInside : other < channels)
    (different : channel ≠ other) (span : Span)
    (passes : ∃ slot, span = (shardLayout collective.ringOrderForChannel whole positive).span
        channel slot) :
    ((channelSpan outputLength channels other).shift (rank * outputLength)).Apart span := by
  obtain ⟨slot, rfl⟩ := passes
  rw [← nestedSpan_shards]
  exact nestedSpan_apart (cut_shards whole).growing otherInside inside
    (Or.inr (Ne.symm different))

/-- The channels of one rank have tags of their own, and each takes only what it has
reduced. -/
theorem separate_reduceScatterRing (lawful : collective.execution.Lawful)
    (addressable : length * collective.execution.elementSize < wordSize)
    (whole : length = size * outputLength)
    {ringChannels : Nat} (requested : 1 ≤ ringChannels)
    (bounded : ringChannels ≤ maxRingChannels)
    (operation : ReductionOperation) (rank : Fin size) :
    ∀ phase ∈ (collective.reduceScatterRing rank operation function ringChannels :
          RankProgram size (ReduceScatterMemory T length outputLength)),
      SeparatePhase collective.controlPath Box.sender Box.receiver rank
        phase := by
  have positive := effectiveRingChannels_pos requested outputLength
  have few : effectiveRingChannels ringChannels outputLength ≤ 64 :=
    (effectiveRingChannels_le ringChannels outputLength).trans bounded
  have among (channel : Nat) : rank ∈ (collective.ringOrderForChannel channel).members :=
    RingOrder.mem_members _ rank
  have arrives (channel : Nat)
      (inside : channel < effectiveRingChannels ringChannels outputLength)
      (slot : ZMod size) :=
    arrives_reduceChunk lawful (@ReduceScatterMemory.workingCell T length outputLength) function
      ((shardLayout collective.ringOrderForChannel whole positive).within
        channel inside slot) addressable
  have tags (channel : Nat) (inside : channel < effectiveRingChannels ringChannels outputLength)
      (other : Nat)
      (otherInside : other < effectiveRingChannels ringChannels outputLength)
      (different : channel ≠ other) (step another : Nat) :
      ringDataTag collective.operation 0 channel step ≠
        ringDataTag collective.operation 0 other another :=
    ringDataTag_ne step another (by omega) (by omega) different
  intro phase member
  rcases List.mem_cons.mp member with rfl | member
  · exact separate_compute (owned_exchange rank)
  · rw [List.mem_singleton.mp member, forkChannels_reduceScatterRing whole positive]
    refine SeparatePhase.forked ?_ ?_
    · intro channel inside other otherInside different instruction listed concurrent otherListed
      rw [List.flatMap_append, List.mem_append] at listed otherListed
      rcases listed with passes | takes <;>
        rcases otherListed with otherPasses | otherTakes
      · exact channelPass_apart inside otherInside different among arrives
          (fun step _ another _ =>
            tags channel inside other otherInside different step another)
          instruction passes concurrent otherPasses
      · rw [List.mem_singleton.mp otherTakes]
        exact (channelPass_serves inside (among channel)
          (arrives channel inside) passes).apart_copies
          independent_working_output
          (copies_takeShard lawful whole rank otherInside)
          (shard_apart_pass whole positive rank inside otherInside different)
      · rw [List.mem_singleton.mp takes]
        exact ((channelPass_serves otherInside (among other)
          (arrives other otherInside) otherPasses).apart_copies
          independent_working_output
          (copies_takeShard lawful whole rank inside)
          (shard_apart_pass whole positive rank otherInside inside (Ne.symm different))).symm
      · rw [List.mem_singleton.mp takes, List.mem_singleton.mp otherTakes]
        have shards := shard_fits whole rank
        refine Copies.apart independent_working_output ((channelSpan_within inside).shift shards)
          ((channelSpan_within otherInside).shift shards)
          (copies_takeShard lawful whole rank inside)
          (copies_takeShard lawful whole rank otherInside) ?_
        rw [Span.length_shift, Span.length_shift, (channelSpan_within inside).whole,
          (channelSpan_within otherInside).whole]
        exact channelSpan_apart different
    · intro channel inside instruction listed
      rw [List.flatMap_append, List.mem_append] at listed
      rcases listed with passes | takes
      · exact (channelPass_serves inside (among channel) (arrives channel inside) passes).owned
      · rw [List.mem_singleton.mp takes]
        trivial

end Rings

end DeviceCollective

end RuCCL.Rank
