import RuCCL.Rank.CollectiveRuns

/-!
# Runs of hierarchical collectives

Followers hand values to the leader of their group, the leaders run their channels, and
then they hand results to their followers.
-/

namespace RuCCL.Rank

open RuCCL.Library
open RankTransport

namespace DeviceCollective

variable {T : Type} {size length : Nat} {σ : Type} (collective : DeviceCollective T size)

/-- `receive_values`, and what the rank does with them. -/
def receiveValues (source rank : Fin size) (tag : UInt64) (length : Nat)
    (use : List T → σ → Except CollectiveFault σ) : RankInstruction size σ :=
  collective.receive source rank tag (fun _ => length)
    fun payload memory => do
      let values ← collective.execution.decodeExact payload length
      use values memory

/-- What a channel has of each group fits into a frame when all ranks have equally
many elements. -/
def GroupsFit (hierarchy : Hierarchy size) (length channels : Nat) : Prop :=
  ∀ group ∈ hierarchy.groups, collective.ChannelsFit (group.members.length * length) channels

variable {collective} in
theorem GroupsFit.of_whole {hierarchy : Hierarchy size}
    {length channels : Nat} (fits : collective.FitsFrame (size * length)) :
    collective.GroupsFit hierarchy length channels :=
  fun _ listed => .of_whole (fits.mono
    (Nat.mul_le_mul_right _ (hierarchy.length_members_le listed)))

/-- All elements of the buffer are sent. -/
def sendBuffer (rank destination : Fin size) (tag : UInt64)
    (buffer : Cell σ (Buffer T length)) : RankInstruction size σ :=
  collective.send rank destination tag fun memory =>
    .ok (length, collective.execution.encode (RankDevice.copyFromDevice (buffer.read memory)))

end DeviceCollective

/-- What ranks send to each other under a tag, and what they do with it. -/
structure ValuesTransfer (T : Type) (size : Nat) (σ : Type) where
  tag : Fin size → Fin size → UInt64
  count : Nat
  values : Fin size → Fin size → σ → Except CollectiveFault (List T)
  use : Fin size → Fin size → List T → σ → Except CollectiveFault σ

namespace ValuesTransfer

variable {T : Type} {size : Nat} {σ : Type}
  (transfer : ValuesTransfer T size σ) (collective : DeviceCollective T size)

/-- The values that one rank sends to another one. -/
def handover (source target : Fin size) :
    Handover (Fin size) (Box size) Frame σ CollectiveFault where
  source := source
  target := target
  box := .rail source target ((transfer.tag source target).toNat % collective.p2pRails)
    (transfer.tag source target)
  message := collective.dataMessage
    ((transfer.tag source target).toNat % collective.p2pRails) source target
    (transfer.tag source target) collective.elementType fun memory => do
      let values ← transfer.values source target memory
      .ok (transfer.count, collective.execution.encode values)
  accept := fun frame memory => do
    let payload ← checkContract (transfer.tag source target)
      collective.elementType transfer.count frame
    let values ← collective.execution.decodeExact payload transfer.count
    transfer.use source target values memory

/-- As many values as announced are used. -/
def Delivers (change : Fin size → Fin size → List T → σ → σ) : Prop :=
  ∀ source target values memory, values.length = transfer.count →
    transfer.use source target values memory = .ok (change source target values memory)

/-- As many values as announced are sent in one frame. -/
structure Sends (before : Fin size → σ) (sent : Fin size → Fin size → List T)
    (source target : Fin size) : Prop where
  fits : collective.FitsFrame transfer.count
  ready : transfer.values source target (before source) = .ok (sent source target)
  sized : (sent source target).length = transfer.count

variable {transfer collective}
  {change : Fin size → Fin size → List T → σ → σ} {before : Fin size → σ}
  {sent : Fin size → Fin size → List T}

/-- Values that have been sent are taken. -/
theorem handover_accept (lawful : collective.execution.Lawful)
    (fits : collective.FitsFrame transfer.count)
    (delivers : transfer.Delivers change) (source target : Fin size)
    {values : List T} (sized : values.length = transfer.count)
    (memory : σ) :
    (transfer.handover collective source target).accept
        (collective.dataFrame source target (transfer.tag source target)
          collective.elementType transfer.count
          (collective.execution.encode values)) memory =
      .ok (change source target values memory) := by
  dsimp only [handover]
  rw [DeviceCollective.checkContract_dataFrame, ok_bind,
    RankDevice.decodeExact_encode lawful sized fits.addressable, ok_bind]
  exact delivers source target values memory sized

/-- Handovers of a transfer that are apart change their targets. -/
theorem do_handovers (lawful : collective.execution.Lawful) (delivers : transfer.Delivers change)
    {handovers :
      List (Handover (Fin size) (Box size) Frame σ CollectiveFault)}
    (apart : ∀ handover ∈ handovers, ∀ other ∈ handovers, handover.source ≠ other.target)
    (transfers : ∀ handover ∈ handovers, ∃ source target,
      handover = transfer.handover collective source target ∧
        transfer.Sends collective before sent source target) :
    Handover.Do handovers before
      (Handover.outcome
        (fun handover => change handover.source handover.target
          (sent handover.source handover.target)) handovers before) := by
  refine @Handover.do_outcome _ _ _ _ _ _
    (fun handover => change handover.source handover.target
      (sent handover.source handover.target))
    (fun handover => collective.dataFrame handover.source handover.target
      (transfer.tag handover.source handover.target) collective.elementType
      transfer.count (collective.execution.encode
        (sent handover.source handover.target))) handovers before apart ?_ ?_
  · intro handover member
    obtain ⟨source, target, rfl, sends⟩ := transfers handover member
    refine DeviceCollective.dataMessage_encode lawful ?_ sends.sized sends.fits
    dsimp only [handover]
    rw [sends.ready]
    rfl
  · intro handover member memory
    obtain ⟨source, target, rfl, sends⟩ := transfers handover member
    exact handover_accept lawful sends.fits delivers source target sends.sized memory

section Groups

variable (transfer collective change) (hierarchy : Hierarchy size)

/-- Followers send to their leaders. -/
def collecting (group : RankGroup size) (follower : Fin size) :
    Handover (Fin size) (Box size) Frame σ CollectiveFault :=
  transfer.handover collective follower group.leader

/-- Leaders send to their followers. -/
def spreading (group : RankGroup size) (follower : Fin size) :
    Handover (Fin size) (Box size) Frame σ CollectiveFault :=
  transfer.handover collective group.leader follower

variable {transfer collective}

/-- Every leader has used what its followers have sent. -/
def collected (sent : Fin size → Fin size → List T) (before : Fin size → σ) : Fin size → σ :=
  fun rank =>
    if hierarchy.Leads rank then
      (hierarchy.groupOf rank).followers.foldl
        (fun memory follower =>
          change follower rank (sent follower rank) memory) (before rank)
    else before rank

/-- Every follower has used what its leader has sent. -/
def spread (sent : Fin size → Fin size → List T) (before : Fin size → σ) : Fin size → σ :=
  fun rank =>
    if hierarchy.Leads rank then before rank
    else
      let leader := (hierarchy.groupOf rank).leader
      change leader rank (sent leader rank) (before rank)

variable {change hierarchy}

theorem collects : Hierarchy.Collects (transfer.collecting collective) where
  source := fun _ _ => rfl
  target := fun _ _ => rfl

theorem spreads : Hierarchy.Spreads (transfer.spreading collective) where
  source := fun _ _ => rfl
  target := fun _ _ => rfl

theorem do_collecting (lawful : collective.execution.Lawful) (delivers : transfer.Delivers change)
    (sends : ∀ group ∈ hierarchy.groups, ∀ follower ∈ group.followers,
      transfer.Sends collective before sent follower group.leader) :
    Handover.Do (hierarchy.handovers (transfer.collecting collective))
      before (collected change hierarchy sent before) := by
  have does := @do_handovers T size σ transfer collective change before sent lawful delivers
    (hierarchy.handovers (transfer.collecting collective)) collects.apart
    (by
      intro handover member
      obtain ⟨group, listed, follower, follows, same⟩ := hierarchy.mem_handovers member
      exact ⟨_, _, same, sends group listed follower follows⟩)
  have outcome : Handover.outcome
      (fun handover => change handover.source handover.target
        (sent handover.source handover.target))
      (hierarchy.handovers (transfer.collecting collective)) before =
      collected change hierarchy sent before := by
    funext rank
    unfold collected
    split
    case isTrue leads =>
      rw [collects.outcome_leader leads]
      have leader : (hierarchy.groupOf rank).leader = rank := leads
      simp only [collecting, handover, leader]
    case isFalse follows => exact collects.outcome_follower follows
  rwa [outcome] at does

theorem do_spreading (lawful : collective.execution.Lawful) (delivers : transfer.Delivers change)
    (sends : ∀ group ∈ hierarchy.groups, ∀ follower ∈ group.followers,
      transfer.Sends collective before sent group.leader follower) :
    Handover.Do (hierarchy.handovers (transfer.spreading collective))
      before (spread change hierarchy sent before) := by
  have does := @do_handovers T size σ transfer collective change before sent lawful delivers
    (hierarchy.handovers (transfer.spreading collective)) spreads.apart
    (by
      intro handover member
      obtain ⟨group, listed, follower, follows, same⟩ := hierarchy.mem_handovers member
      exact ⟨_, _, same, sends group listed follower follows⟩)
  have outcome : Handover.outcome
      (fun handover => change handover.source handover.target
        (sent handover.source handover.target))
      (hierarchy.handovers (transfer.spreading collective)) before =
      spread change hierarchy sent before := by
    funext rank
    unfold spread
    split
    case isTrue leads => exact spreads.outcome_leader leads
    case isFalse follows => exact spreads.outcome_follower follows
  rwa [outcome] at does

end Groups

/-- A rank sends and receives at its own ends. -/
theorem owned_handovers {rank : Fin size}
    {handovers :
      List (Handover (Fin size) (Box size) Frame σ CollectiveFault)}
    (transfers : ∀ handover ∈ handovers, ∃ source target,
      handover = transfer.handover collective source target) :
    ∀ instruction ∈ Handover.thread handovers rank,
      collective.OwnedBy rank instruction := by
  intro instruction member
  obtain ⟨handover, among, acts⟩ := List.mem_filterMap.mp member
  obtain ⟨source, target, rfl⟩ := transfers handover among
  unfold Handover.instruction at acts
  split at acts
  case isTrue sends =>
    cases acts
    rw [sends]
    exact owned_send
  case isFalse =>
    split at acts
    case isTrue receives =>
      cases acts
      rw [receives]
      exact owned_receive
    case isFalse => cases acts

theorem owned_collecting {hierarchy : Hierarchy size} {rank : Fin size} :
    ∀ instruction ∈ Handover.thread (hierarchy.handovers (transfer.collecting collective)) rank,
      collective.OwnedBy rank instruction := by
  refine @owned_handovers T size σ transfer collective _ _ ?_
  intro handover member
  obtain ⟨group, _, follower, _, same⟩ := hierarchy.mem_handovers member
  exact ⟨_, _, same⟩

theorem owned_spreading {hierarchy : Hierarchy size} {rank : Fin size} :
    ∀ instruction ∈ Handover.thread (hierarchy.handovers (transfer.spreading collective)) rank,
      collective.OwnedBy rank instruction := by
  refine @owned_handovers T size σ transfer collective _ _ ?_
  intro handover member
  obtain ⟨group, _, follower, _, same⟩ := hierarchy.mem_handovers member
  exact ⟨_, _, same⟩

end ValuesTransfer

namespace Hierarchy

variable {T : Type} {size length : Nat} {σ : Type}
  {collective : DeviceCollective T size} (hierarchy : Hierarchy size)

/-- There are no more groups than ranks. -/
theorem length_groups_le : hierarchy.groups.length ≤ size := by
  have few := hierarchy.leaders.nodup.length_le_card
  rwa [hierarchy.leaders.length_members, Fintype.card_fin] at few

/-- What a leader holds once it has reduced the buffers of its followers. -/
def groupTotals (function : T → T → T) (inputs : Fin size → Buffer T length)
    (rank : Fin size) : Buffer T length :=
  reduceBuffers function inputs rank (hierarchy.groupOf rank).followers

/-- Every group hands over its values. -/
theorem reaches_handovers
    {handover : RankGroup size → Fin size →
      Handover (Fin size) (Box size) Frame σ CollectiveFault}
    (apart : ∀ one ∈ hierarchy.handovers handover,
      ∀ other ∈ hierarchy.handovers handover, one.source ≠ other.target)
    {rest : Fin size → RankThread size σ}
    {later : Fin size → RankProgram size σ} {before after : Fin size → σ}
    (does : Handover.Do (hierarchy.handovers handover) before after) :
    Reaches collective.deviceStep
      (quiet (fun rank =>
        [Handover.thread (hierarchy.handovers handover) rank ++ rest rank] :: later rank) before)
      (quiet (fun rank => [rest rank] :: later rank) after) :=
  (Run.handovers _ (fun one member => apart one member one member) does).reaches

/-- The leaders join their threads, run their channels and go on, while the followers
wait. -/
theorem reaches_leaders
    {stages : Nat → List (Stage (Fin size) (Box size) Frame σ CollectiveFault)}
    {channels : Nat} {rest : Fin size → RankThread size σ}
    {before after : Fin size → σ}
    (proper : ∀ channel < channels, ∀ stage ∈ stages channel,
      stage.Proper hierarchy.leaders.members Box.sender Box.receiver)
    (does : DoesAll hierarchy.leaders.members (byChannel stages channels) before after) :
    Reaches collective.deviceStep
      (quiet (fun rank =>
        [if hierarchy.Leads rank then [] else rest rank] ::
          if hierarchy.Leads rank then
            [forkedPhase stages channels rank, [rest rank]]
          else []) before)
      (quiet (fun rank => [[rest rank]]) after) := by
  have joined := @Run.joins _ _ _ _ _ _ _ collective.controlPath hierarchy.leaders.members
    (fun rank =>
      [if hierarchy.Leads rank then [] else rest rank] ::
        if hierarchy.Leads rank then
          [forkedPhase stages channels rank, [rest rank]]
        else [])
    (fun rank => [forkedPhase stages channels rank, [rest rank]]) before
    hierarchy.leaders.nodup (by
      intro rank member
      have leads := (hierarchy.mem_leaders rank).mp member
      rw [if_pos leads, if_pos leads]
      exact ⟨_, rfl, rfl⟩)
  have ran := @Run.forked _ _ _ _ _ _ _ collective.controlPath Box.sender
    Box.receiver hierarchy.leaders.members channels
    (fun rank => [[rest rank]]) (fun rank => [[rest rank]]) stages before
    after hierarchy.leaders.nodup proper does
  have forked : overlay hierarchy.leaders.members
      (fun rank => [forkedPhase stages channels rank, [rest rank]])
      (fun rank =>
        [if hierarchy.Leads rank then [] else rest rank] ::
          if hierarchy.Leads rank then
            [forkedPhase stages channels rank, [rest rank]]
          else []) =
      overlay hierarchy.leaders.members
        (fun rank => [forkedPhase stages channels rank, [rest rank]])
        (fun rank => [[rest rank]]) := by
    funext rank
    by_cases member : rank ∈ hierarchy.leaders.members
    · rw [overlay_of_mem member, overlay_of_mem member]
    · have follows := mt (hierarchy.mem_leaders rank).mpr member
      rw [overlay_of_not_mem member, overlay_of_not_mem member, if_neg follows, if_neg follows]
  have waiting : overlay hierarchy.leaders.members
      (fun rank => [[rest rank]]) (fun rank => [[rest rank]]) =
      (fun rank => [[rest rank]]) :=
    overlay_of_agree fun _ _ => rfl
  rw [forked] at joined
  rw [waiting] at ran
  exact joined.reaches.trans ran

end Hierarchy

end RuCCL.Rank
