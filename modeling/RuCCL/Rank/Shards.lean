import RuCCL.Library.Segment
import RuCCL.Rank.ChunkRanges
import RuCCL.Rank.Hierarchy

/-!
# Shards of buffers

Every rank has a shard of a buffer.  Leaders keep the shards group by group: a rank's
shard lies behind the shards of the groups before its own and of the members before it.
-/

namespace RuCCL.Rank

open RuCCL.Library

variable {T : Type} {size length outputLength : Nat}

theorem shard_fits (whole : length = size * outputLength) (rank : Fin size) :
    rank * outputLength + outputLength ≤ length := by
  rw [whole, ← Nat.succ_mul]
  exact Nat.mul_le_mul_right outputLength rank.isLt

/-- The shard of a rank. -/
def shardOf (whole : length = size * outputLength) (rank : Fin size)
    (buffer : Buffer T length) : Buffer T outputLength :=
  partAt (rank * outputLength) (shard_fits whole rank) buffer

theorem segment_ofFn (whole : length = size * outputLength)
    (rank : Fin size) (buffer : Buffer T length) :
    Library.segment (List.ofFn buffer) (rank * outputLength) outputLength =
      List.ofFn (shardOf whole rank buffer) := by
  rw [shardOf, ofFn_partAt, readAt, Span.length, Nat.add_sub_cancel_left]
  rfl

/-- Values that are written one behind the other are the shards. -/
theorem shardOf_flatMap (whole : length = size * outputLength)
    (values : Fin size → Buffer T outputLength) (target : Buffer T length)
    (rank : Fin size) :
    shardOf whole rank (mergeAt overwrite 0
        ((List.finRange size).flatMap fun other => List.ofFn (values other))
        target) =
      values rank := by
  have sized : ((List.finRange size).flatMap fun other =>
      List.ofFn (values other)).length = length := by
    simp [List.length_flatMap, whole]
  have located : ((List.finRange size).map fun other =>
      List.ofFn (values other))[rank.val]? = some (List.ofFn (values rank)) := by
    simp
  have block := @segment_flatten_of_length T _ outputLength (by simp) rank _ located
  apply List.ofFn_injective
  rw [← segment_ofFn whole, ofFn_mergeAt_overwrite target sized, List.flatMap_def, block]

theorem cut_shards (whole : length = size * outputLength) :
    Cut (fun slot => slot * outputLength) size length :=
  whole ▸ Cut.equal outputLength size

/-- A channel has the same part of every shard. -/
theorem nestedSpan_shards (outputLength channels rank channel : Nat) :
    nestedSpan (fun slot => slot * outputLength) channels rank channel =
      (channelSpan outputLength channels channel).shift (rank * outputLength) := by
  have width : (rank + 1) * outputLength - rank * outputLength =
      outputLength := by
    rw [Nat.succ_mul, Nat.add_sub_cancel_left]
  unfold nestedSpan
  dsimp only
  rw [width]
  rfl

/-- A channel has its part of the shard of each rank, which stands in the ring of the
channel where its shard belongs. -/
def shardLayout [NeZero size] (rings : Nat → RingOrder (Fin size) size)
    (whole : length = size * outputLength) {channels : Nat}
    (positive : 0 < channels) : ChannelLayout length channels size :=
  ChannelLayout.blocks (cut_shards whole) positive fun channel => (rings channel).order

theorem place_eq_slotOf [NeZero size] (rings : Nat → RingOrder (Fin size) size)
    (whole : length = size * outputLength) {channels : Nat}
    (positive : 0 < channels) {rank : Fin size} {element : Fin length}
    (own : (⟨rank * outputLength, (rank + 1) * outputLength⟩ : Span).Covers element) :
    (rings ((shardLayout rings whole positive).channelOf element)).place rank =
      (shardLayout rings whole positive).slotOf element := by
  have cut := cut_shards whole
  have shard := @covers_iff_slotOf _ size element rank cut.begins
    cut.growing (cut.whole.symm ▸ element.isLt)
  refine congrArg (RingOrder.place _) (Fin.ext ?_)
  exact (shard.mp own).symm

/-- The piece of a list that a channel has. -/
def pieceOf (channels channel : Nat) (values : List T) : List T :=
  let range := channelSpan values.length channels channel
  Library.segment values range.start range.length

theorem length_pieceOf {channels channel : Nat} (inside : channel < channels) (values : List T) :
    (pieceOf channels channel values).length =
      (channelSpan values.length channels channel).length :=
  length_segment (channelSpan_within inside).fits

/-- A list is made up of its pieces. -/
theorem flatMap_pieceOf {channels : Nat} (positive : 0 < channels) (values : List T) :
    ((List.range channels).flatMap fun channel =>
      pieceOf channels channel values) = values := by
  have parts := ofFn_eq_flatten (Cut.balanced values.length positive) values.get
  rw [List.ofFn_get] at parts
  conv_rhs => rw [parts]
  rw [List.flatMap_def]
  refine congrArg List.flatten (List.map_congr_left fun channel _ => ?_)
  rw [readAt, List.ofFn_get]
  rfl

namespace Hierarchy

variable (hierarchy : Hierarchy size)

/-- All ranks, group by group. -/
def packed : RingOrder (Fin size) size where
  members := hierarchy.groups.flatMap RankGroup.members
  length_members := hierarchy.partition.length_eq.trans List.length_finRange
  nodup := hierarchy.nodup_members

/-- How many ranks each group has. -/
def memberCounts : List Nat := hierarchy.groups.map fun group => group.members.length

/-- Where a group starts. -/
def groupOffset (outputLength index : Nat) : Nat :=
  before hierarchy.memberCounts index * outputLength

theorem sum_memberCounts : hierarchy.memberCounts.sum = size := by
  rw [memberCounts, ← List.length_flatMap]
  exact hierarchy.packed.length_members

theorem getElem?_groups (rank : Fin size) :
    hierarchy.groups[hierarchy.groupIndex rank]? = some (hierarchy.groupOf rank) := by
  rw [List.getElem?_eq_getElem (hierarchy.groupIndex_lt rank)]
  rfl

/-- A rank stands behind the groups before its own and the members before it. -/
theorem position_packed (rank : Fin size) :
    hierarchy.packed.position rank = before hierarchy.memberCounts (hierarchy.groupIndex rank) +
        (hierarchy.groupOf rank).members.idxOf rank := by
  have inside := List.idxOf_lt_length_of_mem (hierarchy.mem_groupOf rank)
  have block := @segment_flatten _ (hierarchy.groups.map RankGroup.members)
    (hierarchy.groupIndex rank) (hierarchy.groupOf rank).members (by
      rw [List.getElem?_map, hierarchy.getElem?_groups]
      rfl)
  have counts : (hierarchy.groups.map RankGroup.members).map List.length =
      hierarchy.memberCounts := by
    rw [List.map_map]
    rfl
  rw [counts] at block
  have located : hierarchy.packed.members[
      before hierarchy.memberCounts (hierarchy.groupIndex rank) +
        (hierarchy.groupOf rank).members.idxOf rank]? = some rank := by
    have read := congrArg (fun values => values[(hierarchy.groupOf rank).members.idxOf rank]?)
      block
    rw [getElem?_segment, if_pos inside, List.getElem?_eq_getElem inside,
      List.getElem_idxOf inside] at read
    exact read
  obtain ⟨bounded, same⟩ := List.getElem?_eq_some_iff.mp located
  have index := hierarchy.packed.nodup.idxOf_getElem _ bounded
  rw [same] at index
  exact index

/-- The groups make up the buffer. -/
theorem cut_groups (whole : length = size * outputLength) :
    Cut (hierarchy.groupOffset outputLength) hierarchy.groups.length length where
  begins := Nat.zero_mul _
  growing := fun _ _ ordered => Nat.mul_le_mul_right _ (before_mono _ ordered)
  whole := by
    have all := before_length hierarchy.memberCounts
    rw [memberCounts, List.length_map] at all
    rw [groupOffset, memberCounts, all, ← memberCounts, hierarchy.sum_memberCounts, whole]

/-- A group has one shard for each of its members. -/
theorem groupOffset_succ (outputLength : Nat) {index : Nat} {group : RankGroup size}
    (located : hierarchy.groups[index]? = some group) :
    hierarchy.groupOffset outputLength (index + 1) = hierarchy.groupOffset outputLength index +
        group.members.length * outputLength := by
  have count : hierarchy.memberCounts[index]? =
      some group.members.length := by
    rw [memberCounts, List.getElem?_map, located]
    rfl
  rw [groupOffset, before_succ count, Nat.add_mul, groupOffset]

/-- The shard of a rank lies among those of its group. -/
theorem position_packed_mul (outputLength : Nat) (rank : Fin size) :
    hierarchy.packed.position rank * outputLength =
      hierarchy.groupOffset outputLength (hierarchy.groupIndex rank) +
        (hierarchy.groupOf rank).members.idxOf rank * outputLength := by
  rw [hierarchy.position_packed, Nat.add_mul, groupOffset]

theorem groupOffset_covers (rank : Fin size) {index : Nat} (inside : index < outputLength) :
    (⟨hierarchy.groupOffset outputLength (hierarchy.groupIndex rank),
      hierarchy.groupOffset outputLength (hierarchy.groupIndex rank + 1)⟩ :
        Span).Covers
      (hierarchy.packed.position rank * outputLength + index) := by
  have among := List.idxOf_lt_length_of_mem (hierarchy.mem_groupOf rank)
  have behind := Nat.mul_le_mul_right outputLength among
  have next := hierarchy.groupOffset_succ outputLength (hierarchy.getElem?_groups rank)
  have start := hierarchy.position_packed_mul outputLength rank
  rw [Nat.succ_mul] at behind
  constructor
  · dsimp only
    omega
  · dsimp only
    omega

theorem mem_packed (rank : Fin size) : rank ∈ hierarchy.packed.members :=
  hierarchy.partition.mem_iff.mpr (List.mem_finRange rank)

theorem position_fits (whole : length = size * outputLength) (rank : Fin size) :
    hierarchy.packed.position rank * outputLength + outputLength ≤
      length := by
  rw [whole, ← Nat.succ_mul]
  exact Nat.mul_le_mul_right outputLength
    (hierarchy.packed.position_lt (hierarchy.mem_packed rank))

section Elements

variable [NeZero size] (whole : length = size * outputLength)

/-- Where an element of the packed buffer comes from. -/
def unpacked (index : Fin length) : Fin length where
  val := hierarchy.packed.memberAt (index / outputLength) * outputLength + index % outputLength
  isLt := by
    have fits := shard_fits whole (hierarchy.packed.memberAt (index / outputLength))
    have positive : 0 < outputLength := by
      rcases Nat.eq_zero_or_pos outputLength with empty | positive
      · have inside := index.isLt
        have none : length = 0 := by rw [whole, empty, Nat.mul_zero]
        omega
      · exact positive
    have small := Nat.mod_lt index positive
    omega

/-- The shards of a buffer, group by group. -/
def packedBuffer (buffer : Buffer T length) : Buffer T length :=
  fun index => buffer (hierarchy.unpacked whole index)

theorem partAt_packedBuffer {slot : Nat} (fits : slot * outputLength + outputLength ≤ length)
    (buffer : Buffer T length) :
    partAt (slot * outputLength) fits (hierarchy.packedBuffer whole buffer) =
      shardOf whole (hierarchy.packed.memberAt slot) buffer := by
  funext index
  have positive : 0 < outputLength := lt_of_le_of_lt (Nat.zero_le _) index.isLt
  have block : (slot * outputLength + index) / outputLength = slot := by
    rw [Nat.add_comm, Nat.add_mul_div_right _ _ positive,
      Nat.div_eq_of_lt index.isLt, Nat.zero_add]
  have offset : (slot * outputLength + index) % outputLength = index := by
    rw [Nat.add_comm, Nat.add_mul_mod_self_right, Nat.mod_eq_of_lt index.isLt]
  refine congrArg buffer (Fin.ext ?_)
  simp only [unpacked, block, offset]

/-- The packed buffer has the shard of each rank behind those before it. -/
theorem partAt_position (rank : Fin size) (buffer : Buffer T length) :
    partAt (hierarchy.packed.position rank * outputLength) (hierarchy.position_fits whole rank)
        (hierarchy.packedBuffer whole buffer) =
      shardOf whole rank buffer := by
  have among := hierarchy.mem_packed rank
  rw [partAt_packedBuffer _ whole, hierarchy.packed.memberAt_position among]

theorem ofFn_packedBuffer (buffer : Buffer T length) :
    List.ofFn (hierarchy.packedBuffer whole buffer) = hierarchy.packed.members.flatMap fun rank =>
        List.ofFn (shardOf whole rank buffer) := by
  rw [ofFn_eq_flatten (cut_shards whole), hierarchy.packed.members_eq_map,
    List.flatMap_map, List.flatMap_def]
  refine congrArg List.flatten (List.map_congr_left fun slot member => ?_)
  have inside := List.mem_range.mp member
  have fits : slot * outputLength + outputLength ≤ length := shard_fits whole ⟨slot, inside⟩
  rw [← hierarchy.partAt_packedBuffer whole fits, ofFn_partAt, Nat.succ_mul]

end Elements

end Hierarchy

end RuCCL.Rank
