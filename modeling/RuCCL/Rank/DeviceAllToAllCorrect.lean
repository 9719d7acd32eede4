import RuCCL.Rank.AllToAllRuns
import RuCCL.Rank.AllToAllVRuns

/-!
# All-to-all hands everything over

Whatever the plan picks, every run ends, and what a rank has got from another one is what
the other one had for it.  With counts the ranks have to pick the same algorithm: each of
them plans for the length of its own input.
-/

namespace RuCCL.Rank

open RuCCL.Library
open RankTransport

namespace DeviceCollective

variable {T : Type} {size length shardLength : Nat} [NeZero size]
  {collective : DeviceCollective T size} {ring : RingOrder (Fin size) size}

/-- Whatever the plan picks, each frame of an all-to-all carries what fits into it: an
input, or what a channel has of a shard. -/
def AllToAllFits (collective : DeviceCollective T size) (length : Nat) :
    Prop :=
  let plan := collective.plan .allToAll (length * collective.execution.elementSize)
  if plan.algorithm = .pairwise ∧ 1 < size then
    collective.ChannelsFit (length / size)
      (effectiveRingChannels plan.ringChannels (length / size))
  else collective.FitsFrame length

omit [NeZero size] in
/-- It is enough that an input fits into a frame. -/
theorem AllToAllFits.of_whole (fits : collective.FitsFrame length) :
    collective.AllToAllFits length := by
  unfold AllToAllFits
  dsimp only
  split
  · exact .of_whole (fits.mono (Nat.div_le_self ..))
  · exact fits

/-- Every run ends with the shards of all inputs transposed in the outputs. -/
def LeavesTransposed (collective : DeviceCollective T size) (ring : RingOrder (Fin size) size)
    (whole : length = size * shardLength)
    (before : Fin size → AllToAllMemory T length) : Prop :=
  Library.Settles collective.deviceStep (quiet (fun rank => collective.allToAll ring rank) before)
    (Completed fun memory => Transposes whole
      (fun rank => (before rank).input) fun rank => (memory rank).output)

section Counted

variable {counts : Fin size → Fin size → Nat} {inputs : Fin size → SizedBuffer T}

/-- Every run ends with what all ranks had for each other. -/
def LeavesExchanged (collective : DeviceCollective T size)
    (ring : RingOrder (Fin size) size) (counts : Fin size → Fin size → Nat)
    (inputs : Fin size → SizedBuffer T)
    (before : Fin size → AllToAllVMemory T) : Prop :=
  Library.Settles collective.deviceStep
    (quiet (fun rank => collective.allToAllV ring rank (inputs rank)
      (List.ofFn (counts rank))) before)
    (Completed (Exchanged counts inputs))

/-- The plan of a rank for its own input. -/
def planFor (collective : DeviceCollective T size) (input : SizedBuffer T) : CollectivePlan :=
  collective.plan .allToAll (input.length * collective.execution.elementSize)

/-- All ranks pick the same algorithm with the same channels. -/
def SamePlans (collective : DeviceCollective T size) (inputs : Fin size → SizedBuffer T) : Prop :=
  ∀ rank other, (collective.planFor (inputs rank)).algorithm =
        (collective.planFor (inputs other)).algorithm ∧
      (collective.planFor (inputs rank)).ringChannels =
        (collective.planFor (inputs other)).ringChannels

/-- Whatever the ranks pick, each frame carries what fits into it: counts with elements,
or what a channel has for another rank. -/
def AllToAllVFits (collective : DeviceCollective T size)
    (counts : Fin size → Fin size → Nat) (inputs : Fin size → SizedBuffer T) :
    Prop :=
  let plan := collective.planFor (inputs 0)
  if plan.algorithm = .pairwise ∧ 1 < size then
    ∀ rank other, rank ≠ other → collective.ChannelsFit (counts rank other)
      (max plan.ringChannels 1)
  else collective.CountsFit counts inputs

/-- It is enough that what a rank has or gets fits into a frame with its counts. -/
theorem AllToAllVFits.of_counts (fits : collective.CountsFit counts inputs) :
    collective.AllToAllVFits counts inputs := by
  unfold AllToAllVFits
  dsimp only
  split
  · intro rank other _
    have most := before_add_le_sum
      (Carries.getElem?_counts (fun source => counts source other) rank)
    have column := (fits other).2
    refine .of_whole ((Nat.mul_le_mul_right _ ?_).trans (Nat.le_of_add_left_le column))
    exact (Nat.le_add_left _ _).trans most
  · exact fits

/-- The counts of an input pass the checks. -/
theorem allToAllV_eq (lawful : collective.execution.Lawful) (whole : Whole counts inputs)
    (sent : ∀ rank, (inputs rank).length *
      collective.execution.elementSize < wordSize) (rank : Fin size) :
    collective.allToAllV ring rank (inputs rank) (List.ofFn (counts rank)) =
      if (collective.planFor (inputs rank)).algorithm = .pairwise ∧ 1 < size then
        collective.allToAllVPairwise ring rank (inputs rank) (List.ofFn (counts rank))
          (collective.planFor (inputs rank)).ringChannels
      else [[collective.allToAllVDirect rank (inputs rank) (List.ofFn (counts rank))]] := by
  have small : (List.ofFn (counts rank)).sum < wordSize := by
    rw [whole rank]
    exact lt_of_le_of_lt (Nat.le_mul_of_pos_right _ lawful.positive) (sent rank)
  have summed := checkedSum_eq_some_iff.mpr ⟨small, rfl⟩
  have width : ¬(List.ofFn (counts rank)).length ≠ size := not_not.mpr List.length_ofFn
  have filled : ¬(List.ofFn (counts rank)).sum ≠ (inputs rank).length := not_not.mpr (whole rank)
  unfold allToAllV
  dsimp only
  rw [if_neg width, summed]
  dsimp only
  rw [if_neg filled]
  rfl

end Counted

end DeviceCollective

end RuCCL.Rank
