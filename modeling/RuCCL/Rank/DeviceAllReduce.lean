import RuCCL.Rank.AllReducePasses
import RuCCL.Rank.HierarchyRuns

/-!
# All-reduce on devices

All ranks reduce their buffers into one result that each of them holds: through the
control path, around the rings of the channels, or within groups whose leaders form the
rings.  Statistics are left out.
-/

namespace RuCCL.Rank

open RuCCL.Library
open RankTransport

def reductionExchangeOptions (rootRank : UInt32) (elementCount : Nat)
    (operation : UInt32) : ExchangeOptions where
  rootRank := rootRank
  elementCount := UInt64.ofNat elementCount
  flags := 0
  tag := operation.toUInt64 + 1

namespace DeviceCollective

variable {T : Type} {size length : Nat} {σ : Type} (collective : DeviceCollective T size)

/-- All payloads come back to every rank, which reduces them. -/
def allReduceDirect (rank : Fin size) (buffer : Cell σ (Buffer T length))
    (operation : ReductionOperation) (function : T → T → T) :
    RankThread size σ :=
  collective.exchangeWithOptions rank .allReduce collective.elementType
    (reductionExchangeOptions anyRank length operation.code)
    (fun memory => .ok (collective.execution.encode
      (RankDevice.copyFromDevice (buffer.read memory))))
    fun response memory => do
      let reduced ← collective.execution.reduceConcatenated size
        response.payload (buffer.read memory) function
      .ok (buffer.write reduced memory)

section Rings

variable [NeZero size]

def allReduceRingChannel (rank : Fin size)
    (buffer : Cell σ (Buffer T length)) (channelRange : Span)
    (channel : Nat) (function : T → T → T) : RankThread size σ :=
  let ring := collective.ringOrderForChannel channel
  let position := ring.position rank
  let previousRank := ring.memberAt (position + size - 1)
  let nextRank := ring.memberAt (position + 1)
  let ranges := channelChunks channelRange size
  collective.allReducePasses rank buffer size position nextRank previousRank
    channel (fun index => rangeAt ranges (ring.memberAt index))
    (ringDataTag collective.operation 0 channel)
    (ringDataTag collective.operation 1 channel) function

def allReduceRing (rank : Fin size) (buffer : Cell σ (Buffer T length))
    (reductionOperation : ReductionOperation) (function : T → T → T)
    (ringChannels : Nat) : RankProgram size σ :=
  let channels := effectiveRingChannels ringChannels length
  let channelRanges := balancedRanges length channels
  [[collective.ringAgreement rank length (0x100 + reductionOperation.code) channels],
    forkChannels channelRanges fun channelRange channel =>
      collective.allReduceRingChannel rank buffer channelRange channel function]

end Rings

section Groups

variable (hierarchy : Hierarchy size)

def leaderAllReduceRingChannel (rank : Fin size)
    (buffer : Cell σ (Buffer T length)) (position : Nat)
    (channelRange : Span) (channel : Nat) (function : T → T → T) :
    RankThread size σ :=
  let leaders := hierarchy.leaders
  let leaderCount := hierarchy.groups.length
  let previousRank := leaders.memberAt (position + leaderCount - 1)
  let nextRank := leaders.memberAt (position + 1)
  let ranges := channelChunks channelRange leaderCount
  collective.allReducePasses rank buffer leaderCount position nextRank
    previousRank channel (fun index => rangeAt ranges (index % leaderCount))
    (hierarchyRingDataTag collective.operation 1 channel)
    (hierarchyRingDataTag collective.operation 2 channel) function

def allReduceHierarchical (rank : Fin size) (buffer : Cell σ (Buffer T length))
    (reductionOperation : ReductionOperation) (function : T → T → T)
    (ringChannels : Nat) : RankProgram size σ :=
  let groupIndex := hierarchy.groupIndex rank
  let group := hierarchy.groupOf rank
  let agreement := collective.hierarchyAgreement rank hierarchy length
    (0x600 + reductionOperation.code) ringChannels
  let tag (phase : UInt32) (member : Fin size) :=
    hierarchyDataTag collective.operation phase (UInt32.ofNat member)
  if rank ≠ group.leader then
    [[agreement ++
      [collective.sendBuffer rank group.leader (tag 0 rank) buffer,
        collective.receiveValues group.leader rank (tag 3 rank) length fun values memory => do
            let reduced ← RankDevice.copyToDevice (buffer.read memory) values
            .ok (buffer.write reduced memory)]]]
  else
    let channels := effectiveRingChannels ringChannels length
    let channelRanges := balancedRanges length channels
    [[agreement ++ group.followers.map fun member =>
        collective.receiveValues member rank (tag 0 member) length fun values memory => do
            let reduced ← collective.execution.reduceValuesInto
              (buffer.read memory) 0 values function
            .ok (buffer.write reduced memory)],
      forkChannels channelRanges fun channelRange channel =>
        collective.leaderAllReduceRingChannel hierarchy rank buffer
          groupIndex channelRange channel function,
      [group.followers.map fun member =>
        collective.sendBuffer rank member (tag 3 member) buffer]]

end Groups

def allReduce [NeZero size] (rank : Fin size)
    (buffer : Cell σ (Buffer T length)) (operation : ReductionOperation)
    (function : T → T → T) : RankProgram size σ :=
  let direct := [[collective.allReduceDirect rank buffer operation function]]
  if 1 < size then
    let plan := collective.plan .allReduce (length * collective.execution.elementSize)
    match plan.algorithm with
    | .hierarchical =>
        match collective.hierarchyGroups with
        | some hierarchy =>
            collective.allReduceHierarchical hierarchy rank buffer operation
              function plan.ringChannels
        | none => [[[.compute fun _ => .error (.invalidHierarchy
            "hierarchical collective selected without topology groups")]]]
    | .ring =>
        collective.allReduceRing rank buffer operation function plan.ringChannels
    | .direct | .pairwise => direct
  else direct

end DeviceCollective

end RuCCL.Rank
