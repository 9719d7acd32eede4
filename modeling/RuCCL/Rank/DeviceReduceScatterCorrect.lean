import RuCCL.Rank.ReduceScatterGroups

/-!
# Reduce-scatter leaves the shards of the reduction

Whatever the plan picks, every run ends, and every rank holds its shard of the reduction
of all inputs.
-/

namespace RuCCL.Rank

open RuCCL.Library
open RankTransport

namespace DeviceCollective

variable {T : Type} {size length outputLength : Nat} [NeZero size]
  {collective : DeviceCollective T size} {function : T → T → T}

/-- Every rank holds its shard of the reduction of all inputs. -/
def ReducesShards (function : T → T → T) (whole : length = size * outputLength)
    (inputs : Fin size → Buffer T length)
    (shards : Fin size → Buffer T outputLength) : Prop :=
  ∀ rank, Reduces function (fun other => shardOf whole rank (inputs other)) (shards rank)

section Results

variable [Std.Associative function] [Std.Commutative function]

omit [NeZero size] in
/-- Each element of the totals is reduced around the ring of its channel. -/
theorem reduceAll_scatterTotals {count channels : Nat} [NeZero count]
    {layout : ChannelLayout length channels count}
    {rings : Nat → RingOrder (Fin size) count}
    (inputs : Fin size → Buffer T length) (element : Fin length) :
    reduceAll function ((rings (layout.channelOf element)).members.map
        fun rank => inputs rank element) =
      some (scatterTotals layout rings function inputs element) :=
  (rings (layout.channelOf element)).reduceAll_members function _ _

theorem reducesShards_scatterTotals (whole : length = size * outputLength)
    {channels : Nat} {layout : ChannelLayout length channels size}
    {rings : Nat → RingOrder (Fin size) size}
    (inputs : Fin size → Buffer T length) :
    ReducesShards function whole inputs fun rank => shardOf whole rank
      (scatterTotals layout rings function inputs) := by
  intro rank index
  have reduced := @reduceAll_scatterTotals T size length function _ _ _ _ _
    layout rings inputs ⟨rank * outputLength + index,
      by
        have fits := shard_fits whole rank
        omega⟩
  rw [reduceAll_perm function ((RingOrder.members_perm _).map _)] at reduced
  exact reduced

theorem reducesShards_groupShards {hierarchy : Hierarchy size}
    (whole : length = size * outputLength) {channels : Nat}
    (positive : 0 < channels) (inputs : Fin size → Buffer T length) :
    ReducesShards function whole inputs
      (groupShards hierarchy whole function positive inputs) := by
  intro rank index
  have fits := shard_fits whole rank
  have packedFits := hierarchy.position_fits whole rank
  have packed (buffer : Buffer T length) :
      hierarchy.packedBuffer whole buffer
        ⟨hierarchy.packed.position rank * outputLength + index, by omega⟩ =
      shardOf whole rank buffer index :=
    congrFun (hierarchy.partAt_position whole rank buffer) index
  have reduced := @reduceAll_scatterTotals T size length function _ _ _
    channels _ (groupLayout hierarchy whole positive)
    (fun _ => hierarchy.leaders)
    (fun leader => hierarchy.packedBuffer whole (hierarchy.groupTotals function inputs leader))
    ⟨hierarchy.packed.position rank * outputLength + index, by omega⟩
  simp only [packed] at reduced
  exact (reduceAll_groupTotals hierarchy inputs
    ⟨rank * outputLength + index, by omega⟩).trans reduced

end Results

omit [NeZero size] in
/-- Inputs are cut into equal shards. -/
theorem shards_whole (divides : length % size = 0) : length = size * (length / size) :=
  (Nat.mul_div_cancel' (Nat.dvd_of_mod_eq_zero divides)).symm

/-- Whatever the plan picks, each frame of a reduce-scatter carries what fits into it:
an input, what a channel has of a shard or of the shards of a group, and in a group of
several ranks a whole input. -/
def ReduceScatterFits (collective : DeviceCollective T size) (length : Nat) : Prop :=
  let outputLength := length / size
  let plan := collective.plan .reduceScatter (length * collective.execution.elementSize)
  if 1 < size then
    match plan.algorithm with
    | .hierarchical => ∀ hierarchy, collective.hierarchyGroups = some hierarchy →
        (hierarchy.Shared → collective.FitsFrame length) ∧
          collective.GroupsFit hierarchy outputLength
            (leaderChannels hierarchy outputLength plan.ringChannels)
    | .ring => collective.ChannelsFit outputLength
        (effectiveRingChannels plan.ringChannels outputLength)
    | .direct | .pairwise => collective.FitsFrame length
  else collective.FitsFrame length

omit [NeZero size] in
/-- It is enough that an input fits into a frame. -/
theorem ReduceScatterFits.of_whole (fits : collective.FitsFrame length) :
    collective.ReduceScatterFits length := by
  have shard : collective.FitsFrame (length / size) := fits.mono (Nat.div_le_self ..)
  unfold ReduceScatterFits
  dsimp only
  split
  · split
    · exact fun _ _ => ⟨fun _ => fits, .of_whole (fits.mono (Nat.mul_div_le ..))⟩
    · exact .of_whole shard
    · exact fits
    · exact fits
  · exact fits

/-- Every run ends with such shards in the outputs. -/
def LeavesShards (collective : DeviceCollective T size)
    (operation : ReductionOperation) (function : T → T → T)
    (before : Fin size → ReduceScatterMemory T length (length / size))
    (shards : Fin size → Buffer T (length / size)) : Prop :=
  Library.Settles collective.deviceStep
    (quiet (fun rank => collective.reduceScatter rank operation function) before)
    (Completed fun memory => ∀ rank, (memory rank).output = shards rank)

theorem leavesShards_of_reaches {operation : ReductionOperation}
    {before after : Fin size → ReduceScatterMemory T length (length / size)}
    {shards : Fin size → Buffer T (length / size)}
    {programs : Fin size → RankProgram size (ReduceScatterMemory T length (length / size))}
    (same : ∀ rank, collective.reduceScatter rank operation function = programs rank)
    (separate : ∀ rank, ∀ phase ∈ programs rank,
      SeparatePhase collective.controlPath Box.sender Box.receiver rank phase)
    (reaches : Reaches collective.deviceStep (quiet programs before) (quiet (fun _ => []) after))
    (held : ∀ rank, (after rank).output = shards rank) :
    collective.LeavesShards operation function before shards := by
  unfold LeavesShards
  rw [funext same]
  exact settles_of_reaches separate reaches held

theorem leavesShards_direct (lawful : collective.execution.Lawful)
    (concatenates : collective.execution.Concatenates)
    (fits : collective.FitsFrame length)
    (divides : length % size = 0) (operation : ReductionOperation)
    (before : Fin size → ReduceScatterMemory T length (length / size))
    (same : ∀ rank, collective.reduceScatter rank operation function =
      ([[collective.reduceScatterDirect rank operation function]] :
        RankProgram size (ReduceScatterMemory T length (length / size)))) :
    collective.LeavesShards operation function before fun rank =>
      reduceBuffers function
        (fun other => shardOf (shards_whole divides) rank
          (before other).input) 0 (List.finRange size).tail := by
  refine leavesShards_of_reaches same ?_
    (reaches_reduceScatterDirect lawful concatenates fits
      (shards_whole divides) operation before) fun _ => rfl
  intro rank phase member
  rw [List.mem_singleton.mp member]
  exact SeparatePhase.single (owned_exchange rank)

end DeviceCollective

end RuCCL.Rank
