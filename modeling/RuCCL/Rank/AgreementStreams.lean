import RuCCL.Library.PrefixFree
import RuCCL.Library.Result
import RuCCL.Rank.Tags

/-!
# Streams of agreements

An agreement hashes its lists of ranks without their number.  The stream can be
read back all the same: the channels stand in front and count the rings and the
rails.
-/

namespace RuCCL.Rank

open RuCCL.Library

theorem prefixFree_leBytes (width : Nat) :
    PrefixFree (fun value => value < 256 ^ width) (leBytes width) := by
  intro first second firstFits secondFits behindFirst behindSecond same
  obtain ⟨fields, behind⟩ := List.append_inj same (by rw [leBytes_length, leBytes_length])
  have values := congrArg leValue fields
  rw [leValue_leBytes firstFits, leValue_leBytes secondFits] at values
  exact ⟨values, behind⟩

theorem prefixFree_rank :
    PrefixFree (fun _ => True) fun rank : UInt32 => leBytes 4 rank.toNat := by
  intro first second _ _ behindFirst behindSecond same
  obtain ⟨values, behind⟩ := prefixFree_leBytes 4 first.toNat_lt second.toNat_lt same
  exact ⟨UInt32.toNat_inj.mp values, behind⟩

/-- A ring or a group behind its length. -/
def rankGroupBytes (group : List UInt32) : List UInt8 :=
  leBytes 8 group.length ++ group.flatMap fun rank => leBytes 4 rank.toNat

theorem rankListBytes_eq (groups : List (List UInt32)) :
    rankListBytes groups = groups.flatMap rankGroupBytes :=
  rfl

theorem rankGroupBytes_ne_nil (group : List UInt32) : rankGroupBytes group ≠ [] := by
  have field : leBytes 8 group.length ≠ [] :=
    List.ne_nil_of_length_pos (by rw [leBytes_length]; decide)
  exact List.append_ne_nil_of_left_ne_nil field _

/-- The lengths of two groups are read off their first fields. -/
theorem rankGroupBytes_length {first second : List UInt32} (firstFits : first.length < wordSize)
    (secondFits : second.length < wordSize)
    {behindFirst behindSecond : List UInt8}
    (same : rankGroupBytes first ++ behindFirst = rankGroupBytes second ++ behindSecond) :
    first.length = second.length ∧
      (first.flatMap fun rank => leBytes 4 rank.toNat) ++ behindFirst =
        (second.flatMap fun rank => leBytes 4 rank.toNat) ++
          behindSecond := by
  rw [rankGroupBytes, rankGroupBytes, List.append_assoc, List.append_assoc] at same
  exact prefixFree_leBytes 8 firstFits secondFits same

theorem prefixFree_rankGroup :
    PrefixFree (fun group : List UInt32 => group.length < wordSize)
      rankGroupBytes := by
  intro first second firstFits secondFits behindFirst behindSecond same
  obtain ⟨lengths, ranks⟩ := rankGroupBytes_length firstFits secondFits same
  exact prefixFree_rank.flatMap lengths (fun _ _ => trivial) (fun _ _ => trivial) ranks

/-- What the ranks agree on: `groups` are the rings, or the groups of a
hierarchy.  Lengths, counts and rails are machine words. -/
@[ext]
structure AgreementInput where
  operation : UInt64
  length : Nat
  groups : List (List UInt32)
  discriminator : UInt32
  channels : Nat
  channelRails : List Nat
  lengthFits : length < wordSize
  groupsFit : ∀ group ∈ groups, group.length < wordSize
  channelsFit : channels < wordSize
  railsFit : ∀ rail ∈ channelRails, rail < wordSize

namespace AgreementInput

/-- The stream that `ringAgreementTag` and `hierarchyAgreementTag` hash. -/
def stream (input : AgreementInput) : List UInt8 :=
  agreementBytes input.operation input.length input.groups
    input.discriminator input.channels input.channelRails

/-- Every ring visits the whole world. -/
def RingsOfWorld (input : AgreementInput) (world : Nat) : Prop := ∀ ring ∈ input.groups,
    (ring.map UInt32.toNat).Perm (List.range world)

instance (input : AgreementInput) (world : Nat) : Decidable (input.RingsOfWorld world) :=
  inferInstanceAs (Decidable (∀ ring ∈ input.groups,
    (ring.map UInt32.toNat).Perm (List.range world)))

/-- Every rank of the world is in one of the groups, and none is empty. -/
structure Partitions (input : AgreementInput) (world : Nat) : Prop where
  nonempty : ∀ group ∈ input.groups, group ≠ []
  covers : (input.groups.flatten.map UInt32.toNat).Perm (List.range world)

/-- The words in front of the groups. -/
theorem stream_header {first second : AgreementInput} (same : first.stream = second.stream) :
    first.operation = second.operation ∧ first.length = second.length ∧
      first.discriminator = second.discriminator ∧
      first.channels = second.channels ∧
      first.groups.flatMap rankGroupBytes ++ first.channelRails.flatMap (leBytes 8) =
        second.groups.flatMap rankGroupBytes ++ second.channelRails.flatMap (leBytes 8) := by
  simp only [stream, agreementBytes, rankListBytes_eq, List.append_assoc] at same
  obtain ⟨operations, same⟩ := prefixFree_leBytes 8
    first.operation.toNat_lt second.operation.toNat_lt same
  obtain ⟨lengths, same⟩ := prefixFree_leBytes 8 first.lengthFits second.lengthFits same
  obtain ⟨discriminators, same⟩ := prefixFree_leBytes 4
    first.discriminator.toNat_lt second.discriminator.toNat_lt same
  obtain ⟨channels, same⟩ := prefixFree_leBytes 8 first.channelsFit second.channelsFit same
  exact ⟨UInt64.toNat_inj.mp operations, lengths,
    UInt32.toNat_inj.mp discriminators, channels, same⟩

/-- As many rails have as many bytes. -/
theorem length_rails {rails others : List Nat} (lengths : rails.length = others.length) :
    (rails.flatMap (leBytes 8)).length = (others.flatMap (leBytes 8)).length := by
  rw [List.length_flatMap, List.length_flatMap]
  simp [leBytes_length, lengths]

theorem rails_inj {first second : AgreementInput}
    (lengths : first.channelRails.length = second.channelRails.length)
    (same : first.channelRails.flatMap (leBytes 8) = second.channelRails.flatMap (leBytes 8)) :
    first.channelRails = second.channelRails :=
  ((prefixFree_leBytes 8).flatMap lengths first.railsFit second.railsFit
    (congrArg (· ++ []) same)).1

/-- The channels count the rails, so the groups end where the rails begin. -/
theorem stream_injective {first second : AgreementInput}
    (firstRails : first.channelRails.length = first.channels)
    (secondRails : second.channelRails.length = second.channels)
    (same : first.stream = second.stream) : first = second := by
  obtain ⟨operations, lengths, discriminators, channels, lists⟩ := stream_header same
  have rails : first.channelRails.length = second.channelRails.length := by
    rw [firstRails, channels, secondRails]
  obtain ⟨groups, behind⟩ := List.append_inj' lists (length_rails rails)
  exact AgreementInput.ext operations lengths
    (prefixFree_rankGroup.flatMap_end rankGroupBytes_ne_nil first.groupsFit
      second.groupsFit groups)
    discriminators channels (rails_inj rails behind)

theorem length_ring {input : AgreementInput} {world : Nat}
    (rings : input.RingsOfWorld world) {ring : List UInt32}
    (among : ring ∈ input.groups) : ring.length = world := by
  have lengths := (rings ring among).length_eq
  rwa [List.length_map, List.length_range] at lengths

/-- The first of several groups leaves ranks to the others. -/
theorem length_group_lt {input : AgreementInput} {world : Nat}
    (partition : input.Partitions world) {first second : List UInt32}
    {others : List (List UInt32)}
    (groups : input.groups = first :: second :: others) :
    first.length < world := by
  have lengths := partition.covers.length_eq
  rw [List.length_map, List.length_range, groups] at lengths
  have present : second ≠ [] := partition.nonempty second (by
    rw [groups]
    exact List.mem_cons_of_mem _ List.mem_cons_self)
  have positive := List.length_pos_of_ne_nil present
  simp only [List.flatten_cons, List.length_append] at lengths
  omega

theorem ring_stream_ne {ring hierarchy : AgreementInput} {world : Nat}
    (rings : ring.RingsOfWorld world)
    (counted : ring.groups.length = ring.channels)
    (rails : ring.channelRails.length = ring.channels)
    (partition : hierarchy.Partitions world)
    (several : 2 ≤ hierarchy.groups.length) :
    ring.stream ≠ hierarchy.stream := by
  intro same
  obtain ⟨-, -, -, -, lists⟩ := stream_header same
  obtain ⟨first, second, others, groups⟩ :
      ∃ first second others, hierarchy.groups = first :: second :: others := by
    match present : hierarchy.groups with
    | first :: second :: others => exact ⟨first, second, others, rfl⟩
    | [] | [_] =>
        rw [present] at several
        simp at several
  rw [groups, List.flatMap_cons, List.append_assoc] at lists
  cases visited : ring.groups with
  | nil =>
      -- no channel: the ring's stream ends behind its header
      have none : ring.channelRails = [] := by
        rw [← List.length_eq_zero_iff, rails, ← counted, visited]
        rfl
      rw [visited, none] at lists
      exact rankGroupBytes_ne_nil first (List.append_eq_nil_iff.mp lists.symm).1
  | cons visit visits =>
      have among : visit ∈ ring.groups := by
        rw [visited]
        exact List.mem_cons_self
      have firstAmong : first ∈ hierarchy.groups := by
        rw [groups]
        exact List.mem_cons_self
      rw [visited, List.flatMap_cons, List.append_assoc] at lists
      have lengths := (rankGroupBytes_length (ring.groupsFit visit among)
        (hierarchy.groupsFit first firstAmong) lists).1
      rw [length_ring rings among] at lengths
      exact absurd lengths (length_group_lt partition groups).ne'

end AgreementInput

/-- No two agreements are hashed as one stream: not of two rings, not of two
hierarchies, and not of a ring and a hierarchy. -/
theorem agreement_streams_injective :
    (∀ first second : AgreementInput, first.groups.length = first.channels →
      first.channelRails.length = first.channels →
      second.groups.length = second.channels →
      second.channelRails.length = second.channels →
      first.stream = second.stream → first = second) ∧
    (∀ (world : Nat) (first second : AgreementInput),
      first.Partitions world → first.channelRails.length = first.channels →
      second.Partitions world →
      second.channelRails.length = second.channels →
      first.stream = second.stream → first = second) ∧
    ∀ (world : Nat) (ring hierarchy : AgreementInput),
      ring.RingsOfWorld world → ring.groups.length = ring.channels →
      ring.channelRails.length = ring.channels →
      hierarchy.Partitions world → 2 ≤ hierarchy.groups.length →
      hierarchy.channelRails.length = hierarchy.channels →
      ring.stream ≠ hierarchy.stream := by
  refine ⟨?rings, ?hierarchies, ?apart⟩
  case rings =>
    intro first second _ firstRails _ secondRails same
    exact AgreementInput.stream_injective firstRails secondRails same
  case hierarchies =>
    intro world first second _ firstRails _ secondRails same
    exact AgreementInput.stream_injective firstRails secondRails same
  case apart =>
    intro world ring hierarchy rings counted rails partition several _
    exact AgreementInput.ring_stream_ne rings counted rails partition several

/-- A ring of two ranks against a hierarchy of two groups of one. -/
theorem agreement_streams_injective_two :
    agreementBytes 7 3 [[1, 0]] 0 1 [0] ≠ agreementBytes 7 3 [[0], [1]] 0 1 [0] :=
  agreement_streams_injective.2.2 2
    ⟨7, 3, [[1, 0]], 0, 1, [0], by decide, by decide, by decide, by decide⟩
    ⟨7, 3, [[0], [1]], 0, 1, [0], by decide, by decide, by decide,
      by decide⟩
    (by decide) rfl rfl ⟨by decide, by decide⟩ (by decide) rfl

end RuCCL.Rank
