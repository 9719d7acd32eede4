import RuCCL.Rank.DeviceReduceScatter
import RuCCL.Rank.HostExchange
import RuCCL.Rank.Shards

/-!
# All-gather on devices

Every rank gets the inputs of all ranks in rank order: through the control path, around
the rings of the channels, or as bundles of groups that go round the leaders.
Statistics are left out.
-/

namespace RuCCL.Rank

open RuCCL.Library
open RankTransport

/-- The buffers of a rank, and what a leader keeps on the host: the bundle of its group,
the pieces that each channel has of the bundles of all groups, and all values. -/
structure AllGatherMemory (T : Type) (size length : Nat) where
  input : Buffer T length
  output : Buffer T (length * size)
  ownBundle : List T
  pieces : Nat → Nat → Option (List T)
  outputValues : List T

namespace AllGatherMemory

variable {T : Type} {size length : Nat}

def outputCell :
    Cell (AllGatherMemory T size length) (Buffer T (length * size)) where
  read := fun memory => memory.output
  write := fun output memory => { memory with output := output }
  read_write := fun _ _ => rfl
  write_read := fun _ => rfl
  write_write := fun _ _ _ => rfl

def piecesCell :
    Cell (AllGatherMemory T size length) (Nat → Nat → Option (List T)) where
  read := fun memory => memory.pieces
  write := fun pieces memory => { memory with pieces := pieces }
  read_write := fun _ _ => rfl
  write_read := fun _ => rfl
  write_write := fun _ _ _ => rfl

end AllGatherMemory

namespace DeviceCollective

variable {T : Type} {size length : Nat} (collective : DeviceCollective T size)

def allGatherDirect (rank : Fin size) : RankThread size (AllGatherMemory T size length) :=
  collective.exchange rank .allGather collective.elementType anyRank length
    (fun memory => .ok (collective.execution.encode (RankDevice.copyFromDevice memory.input)))
    fun response memory => do
      let outputLength ← okOr (checkedMul length size)
        (.rank (.overflow "TCP all-gather output length"))
      let values ← collective.execution.decodeExact response.payload outputLength
      let output ← RankDevice.copyToDevice (collective.execution.fresh (length * size)) values
      .ok { memory with output := output }

section Rings

variable [NeZero size]

/-- The own input is copied to its place in the output. -/
def placeOwn (rank : Fin size) (memory : AllGatherMemory T size length) :
    Except CollectiveFault (AllGatherMemory T size length) := do
  let _ ← okOr (checkedMul length size) (.rank (.overflow "ring all-gather output length"))
  let own ← collective.execution.copyBytesFromDeviceAt memory.input 0 length
  let output ← collective.execution.copyBytesToDeviceAt
    (collective.execution.fresh (length * size)) (rank * length) own
  .ok { memory with output := output }

def allGatherRingChannel (rank : Fin size) (channelRange : Span)
    (channel : Nat) : RankThread size (AllGatherMemory T size length) :=
  let ring := collective.ringOrderForChannel channel
  let position := ring.position rank
  let previousRank := ring.memberAt (position + size - 1)
  let nextRank := ring.memberAt (position + 1)
  let ranges := shardRanges size length channelRange
  collective.ringPass rank AllGatherMemory.outputCell (size - 1) nextRank
    previousRank channel (ringDataTag collective.operation 0 channel)
    (fun step => rangeAt ranges (ring.memberAt (position + size - step)))
    (fun step => rangeAt ranges (ring.memberAt (position + size - step - 1)))
    (collective.copyChunk AllGatherMemory.outputCell)

def allGatherRing (rank : Fin size) (ringChannels : Nat) :
    RankProgram size (AllGatherMemory T size length) :=
  let channels := effectiveRingChannels ringChannels length
  let channelRanges := balancedRanges length channels
  [[[.compute (collective.placeOwn rank)] ++ collective.ringAgreement rank length 0x200 channels],
    forkChannels channelRanges fun channelRange channel =>
      collective.allGatherRingChannel rank channelRange channel]

end Rings

section Groups

variable (hierarchy : Hierarchy size)

/-- Every channel starts with its piece of the own bundle. -/
def startPieces (position channels : Nat) (memory : AllGatherMemory T size length) :
    Except CollectiveFault (AllGatherMemory T size length) :=
  let ownChannelRanges := balancedRanges memory.ownBundle.length channels
  .ok { memory with
    pieces := fun channel group =>
      match ownChannelRanges[channel]? with
      | some ownRange =>
          if group = position then
            some (Library.segment memory.ownBundle ownRange.start ownRange.length)
          else none
      | none => none }

/-- The elements that a channel has of the bundle of a group. -/
def pieceLength (inputLength channels channel group : Nat) : Nat :=
  let members := hierarchy.memberCounts.getD group 0
  (rangeAt (balancedRanges (members * inputLength) channels) channel).length

/-- A piece that a channel has already is sent. -/
def pieceContent (channel sendGroup receiveGroup inputLength channels : Nat)
    (memory : AllGatherMemory T size length) :
    Except CollectiveFault (List UInt8) := do
  let sendValues ← okOr (memory.pieces channel sendGroup) .panic
  let payload := collective.execution.encode sendValues
  let members := hierarchy.memberCounts.getD receiveGroup 0
  let _ ← okOr (checkedMul members inputLength)
    (.rank (.overflow "hierarchical all-gather leader bundle length"))
  let _ ← okOr
    (checkedMul (pieceLength hierarchy inputLength channels channel receiveGroup)
      collective.execution.elementSize)
    (.rank (.overflow "hierarchical all-gather leader bundle bytes"))
  .ok payload

/-- A piece that has arrived is kept. -/
def keepPiece (channel receiveGroup receiveElements : Nat)
    (received : List UInt8) (memory : AllGatherMemory T size length) :
    Except CollectiveFault (AllGatherMemory T size length) := do
  let values ← collective.execution.decodeExact received receiveElements
  .ok { memory with
    pieces := Function.update memory.pieces channel
      (Function.update (memory.pieces channel) receiveGroup (some values)) }

def leaderAllGatherRingChannel (rank : Fin size) (position inputLength channel channels : Nat) :
    RankThread size (AllGatherMemory T size length) :=
  let leaders := hierarchy.leaders
  let leaderCount := hierarchy.groups.length
  let previousLeader := leaders.memberAt (position + leaderCount - 1)
  let nextLeader := leaders.memberAt (position + 1)
  (List.range (leaderCount - 1)).flatMap fun step =>
    let sendGroup := (position + leaderCount - step) % leaderCount
    let receiveGroup := (position + leaderCount - step - 1) % leaderCount
    let receiveElements := pieceLength hierarchy inputLength channels channel receiveGroup
    collective.exchangeHostPayload rank collective.elementType
      (collective.pieceContent hierarchy channel sendGroup receiveGroup inputLength channels)
      (receiveElements * collective.execution.elementSize) nextLeader
      previousLeader channel
      (hierarchyRingDataTag collective.operation 5 channel step)
      (collective.keepPiece channel receiveGroup receiveElements)

/-- The pieces of a channel are appended to all bundles. -/
def appendPieces (pieces : Nat → Nat → Option (List T))
    (bundles : List (List T)) (channel : Nat) :
    Except CollectiveFault (List (List T)) :=
  bundles.zipIdx.mapM fun entry => do
    let piece ← okOr (pieces channel entry.2)
      (.network (.invalidConfiguration
        "hierarchical all-gather did not receive every leader bundle channel"))
    .ok (entry.1 ++ piece)

/-- A bundle has the elements of all members of its group. -/
def checkBundle (inputLength : Nat) (entry : RankGroup size × List T) :
    Except CollectiveFault Unit := do
  let expected ← okOr (checkedMul entry.1.members.length inputLength)
    (.rank (.overflow "hierarchical all-gather bundle length"))
  rejectIf (entry.2.length ≠ expected) (.network (.invalidConfiguration
    s!"hierarchical all-gather bundle has {entry.2.length} elements, expected {expected}"))

/-- The bundles of all groups, each joined from the pieces of all channels. -/
def joinPieces (channels inputLength : Nat) (pieces : Nat → Nat → Option (List T)) :
    Except CollectiveFault (List (List T)) := do
  let bundles ← (List.range channels).foldlM (appendPieces pieces)
    (List.replicate hierarchy.groups.length [])
  (hierarchy.groups.zip bundles).forM (checkBundle inputLength)
  .ok bundles

/-- The next values of a bundle go to a member of its group. -/
def takeMember (inputLength : Nat) (bundle : List T)
    (state : (Fin size → List T) × Nat) (member : Fin size) :
    Except CollectiveFault ((Fin size → List T) × Nat) := do
  let (rankValues, offset) := state
  let stop ← okOr (checkedAdd offset inputLength)
    (.rank (.overflow "hierarchical all-gather bundle offset"))
  let values ← sliceOf bundle offset stop
  .ok (Function.update rankValues member (rankValues member ++ values), stop)

/-- The values of a bundle go to the ranks of its group. -/
def unbundle (inputLength : Nat) (rankValues : Fin size → List T)
    (entry : RankGroup size × List T) :
    Except CollectiveFault (Fin size → List T) := do
  let result ← entry.1.members.foldlM (takeMember inputLength entry.2) (rankValues, 0)
  .ok result.1

/-- The values of all ranks in rank order. -/
def joinBundles (channels : Nat) (memory : AllGatherMemory T size length) :
    Except CollectiveFault (AllGatherMemory T size length) := do
  let bundles ← joinPieces hierarchy channels length memory.pieces
  let rankValues ← (hierarchy.groups.zip bundles).foldlM (unbundle length) fun _ => []
  let outputValues := (List.finRange size).flatMap rankValues
  rejectIf (outputValues.length ≠ length * size)
    (.network (.invalidConfiguration "hierarchical all-gather assembled the wrong output length"))
  .ok { memory with outputValues := outputValues }

/-- All values are copied to the output. -/
def takeAll (values : List T) (memory : AllGatherMemory T size length) :
    Except CollectiveFault (AllGatherMemory T size length) := do
  let output ← RankDevice.copyToDevice (collective.execution.fresh (length * size)) values
  .ok { memory with output := output }

/-- The bundle of a group starts with the input of its leader. -/
def startBundle (members : Nat) (memory : AllGatherMemory T size length) :
    Except CollectiveFault (AllGatherMemory T size length) := do
  let _ ← okOr (checkedMul members length)
    (.rank (.overflow "hierarchical all-gather local bundle length"))
  .ok { memory with ownBundle := RankDevice.copyFromDevice memory.input }

def allGatherHierarchical (rank : Fin size) (ringChannels : Nat) :
    RankProgram size (AllGatherMemory T size length) :=
  let groupIndex := hierarchy.groupIndex rank
  let group := hierarchy.groupOf rank
  let tag (phase : UInt32) (member : Fin size) :=
    hierarchyDataTag collective.operation phase (UInt32.ofNat member)
  let agreement := collective.hierarchyAgreement rank hierarchy length 0x700 ringChannels ++
      [.compute fun memory => do
        let _ ← okOr (checkedMul length size)
          (.rank (.overflow "hierarchical all-gather output length"))
        .ok memory]
  if rank ≠ group.leader then
    [[agreement ++
      [collective.send rank group.leader (tag 4 rank) fun memory =>
          .ok (length, collective.execution.encode (RankDevice.copyFromDevice memory.input)),
        collective.receiveValues group.leader rank (tag 6 rank)
          (length * size) collective.takeAll]]]
  else
    let channels := effectiveRingChannels ringChannels length
    [[agreement ++ [.compute (startBundle group.members.length)] ++
        (group.followers.map fun member =>
          collective.receiveValues member rank (tag 4 member) length
            fun values memory => .ok { memory with
              ownBundle := memory.ownBundle ++ values }) ++
        [.compute (startPieces groupIndex channels)]],
      (List.range channels).map fun channel =>
        collective.leaderAllGatherRingChannel hierarchy rank groupIndex length channel channels,
      [[.compute (joinBundles hierarchy channels)] ++
        (group.followers.map fun member =>
          collective.send rank member (tag 6 member) fun memory =>
            .ok (length * size, collective.execution.encode memory.outputValues)) ++
        [.compute fun memory =>
          collective.takeAll memory.outputValues memory]]]

end Groups

def allGather [NeZero size] (rank : Fin size) :
    RankProgram size (AllGatherMemory T size length) :=
  let direct := [[collective.allGatherDirect rank]]
  if 1 < size then
    let plan := collective.plan .allGather (length * collective.execution.elementSize)
    match plan.algorithm with
    | .hierarchical =>
        match collective.hierarchyGroups with
        | some hierarchy => collective.allGatherHierarchical hierarchy rank plan.ringChannels
        | none => [[[.compute fun _ => .error (.invalidHierarchy
            "hierarchical collective selected without topology groups")]]]
    | .ring => collective.allGatherRing rank plan.ringChannels
    | .direct | .pairwise => direct
  else direct

end DeviceCollective

end RuCCL.Rank
