import RuCCL.Rank.AllGatherGroups

/-!
# All-gather leaves all inputs

Whatever the plan picks, every run ends, and every rank holds the inputs of all ranks in
rank order.
-/

namespace RuCCL.Rank

open RuCCL.Library
open RankTransport

namespace DeviceCollective

variable {T : Type} {size length : Nat} [NeZero size] {collective : DeviceCollective T size}

/-- Whatever the plan picks, each frame of an all-gather carries what fits into it: the
inputs of all ranks, what a channel has of an input or of the inputs of a group, and in a
group of several ranks all inputs again. -/
def AllGatherFits (collective : DeviceCollective T size) (length : Nat) :
    Prop :=
  let plan := collective.plan .allGather (length * collective.execution.elementSize)
  let channels := effectiveRingChannels plan.ringChannels length
  if 1 < size then
    match plan.algorithm with
    | .hierarchical => ∀ hierarchy, collective.hierarchyGroups = some hierarchy →
        (hierarchy.Shared → collective.FitsFrame (length * size)) ∧
          collective.GroupsFit hierarchy length channels
    | .ring => collective.ChannelsFit length channels
    | .direct | .pairwise => collective.FitsFrame (length * size)
  else collective.FitsFrame (length * size)

/-- It is enough that all inputs fit into one frame. -/
theorem AllGatherFits.of_gathered (fits : collective.FitsFrame (length * size)) :
    collective.AllGatherFits length := by
  unfold AllGatherFits
  dsimp only
  split
  · split
    · exact fun _ _ => ⟨fun _ => fits, .of_whole (fits.mono (Nat.mul_comm size length).le)⟩
    · exact .of_whole (fits.mono (Nat.le_mul_of_pos_right _ (NeZero.pos size)))
    · exact fits
    · exact fits
  · exact fits

/-- Every run ends with all inputs in every output. -/
def LeavesInputs (collective : DeviceCollective T size)
    (before : Fin size → AllGatherMemory T size length) : Prop :=
  Library.Settles collective.deviceStep (quiet (fun rank => collective.allGather rank) before)
    (Completed fun memory => ∀ rank,
      Gathers (fun other => (before other).input) (memory rank).output)

theorem leavesInputs_of_reaches {before : Fin size → AllGatherMemory T size length}
    {programs : Fin size → RankProgram size (AllGatherMemory T size length)}
    (same : ∀ rank, collective.allGather rank = programs rank)
    (separate : ∀ rank, ∀ phase ∈ programs rank,
      SeparatePhase collective.controlPath Box.sender Box.receiver rank phase)
    (reaches : ∃ after : Fin size → AllGatherMemory T size length,
      Reaches collective.deviceStep (quiet programs before) (quiet (fun _ => []) after) ∧
      ∀ rank, Gathers (fun other => (before other).input) (after rank).output) :
    collective.LeavesInputs before := by
  obtain ⟨after, runs, gathered⟩ := reaches
  unfold LeavesInputs
  rw [funext same]
  exact settles_of_reaches separate runs gathered

end DeviceCollective

end RuCCL.Rank
