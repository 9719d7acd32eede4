import RuCCL.Rank.DeviceAllReduce

/-!
# Reduce-scatter on devices

Every rank gets its shard of the reduction of all inputs: through the control path,
around the rings of the channels, or within groups whose leaders reduce what they have
packed group by group.  Statistics are left out.
-/

namespace RuCCL.Rank

open RuCCL.Library
open RankTransport

/-- The buffers of a rank, and what a leader has copied of its group. -/
structure ReduceScatterMemory (T : Type) (length outputLength : Nat) where
  input : Buffer T length
  working : Buffer T length
  packed : Buffer T length
  localGroupValues : List T
  output : Buffer T outputLength

namespace ReduceScatterMemory

variable {T : Type} {length outputLength : Nat}

def workingCell :
    Cell (ReduceScatterMemory T length outputLength) (Buffer T length) where
  read := fun memory => memory.working
  write := fun working memory => { memory with working := working }
  read_write := fun _ _ => rfl
  write_read := fun _ => rfl
  write_write := fun _ _ _ => rfl

def packedCell :
    Cell (ReduceScatterMemory T length outputLength) (Buffer T length) where
  read := fun memory => memory.packed
  write := fun packed memory => { memory with packed := packed }
  read_write := fun _ _ => rfl
  write_read := fun _ => rfl
  write_write := fun _ _ _ => rfl

def outputCell :
    Cell (ReduceScatterMemory T length outputLength) (Buffer T outputLength) where
  read := fun memory => memory.output
  write := fun output memory => { memory with output := output }
  read_write := fun _ _ => rfl
  write_read := fun _ => rfl
  write_write := fun _ _ _ => rfl

end ReduceScatterMemory

/-- `&values[start..end]` -/
def sliceOf {T : Type} (values : List T) (start stop : Nat) :
    Except CollectiveFault (List T) := do
  rejectIf (stop < start ∨ values.length < stop) .panic
  .ok (Library.segment values start (stop - start))

/-- The shard of a member among the values of its group. -/
def memberShard {T : Type} (values : List T) (member outputLength : Nat)
    (startName stopName : String) : Except CollectiveFault (List T) := do
  let start ← okOr (checkedMul member outputLength) (.rank (.overflow startName))
  let stop ← okOr (checkedAdd start outputLength) (.rank (.overflow stopName))
  sliceOf values start stop

namespace Hierarchy

variable {T : Type} {size : Nat} (hierarchy : Hierarchy size)

/-- The shards of all groups, group by group, and where each group lies. -/
def packGroups (reduced : List T) (outputLength : Nat) :
    Except CollectiveFault (List T × List Span) :=
  hierarchy.groups.foldlM (fun packed group => do
    let start := packed.1.length
    let values ← group.members.foldlM (fun values (rank : Fin size) => do
      let shard ← memberShard reduced rank outputLength "hierarchical reduce-scatter rank offset"
        "hierarchical reduce-scatter rank range"
      .ok (values ++ shard)) packed.1
    .ok (values, packed.2 ++ [⟨start, values.length⟩])) ([], [])

/-- Where the groups lie. -/
def groupRanges (outputLength : Nat) : List Span :=
  spansFrom 0 (hierarchy.groups.map fun group =>
    group.members.length * outputLength)

end Hierarchy

namespace DeviceCollective

variable {T : Type} {size length outputLength : Nat} (collective : DeviceCollective T size)

def reduceScatterDirect (rank : Fin size) (operation : ReductionOperation)
    (function : T → T → T) :
    RankThread size (ReduceScatterMemory T length outputLength) :=
  collective.exchangeWithOptions rank .reduceScatter collective.elementType
    (reductionExchangeOptions anyRank length operation.code)
    (fun memory => .ok (collective.execution.encode (RankDevice.copyFromDevice memory.input)))
    fun response memory => do
      let output ← collective.execution.reduceConcatenated size
        response.payload (collective.execution.fresh outputLength) function
      .ok { memory with output := output }

/-- The working buffer is a copy of the input. -/
def loadWorking (memory : ReduceScatterMemory T length outputLength) :
    Except CollectiveFault (ReduceScatterMemory T length outputLength) := do
  let working ← RankDevice.copyToDevice (collective.execution.fresh length)
    (RankDevice.copyFromDevice memory.input)
  .ok { memory with working := working }

section Rings

variable [NeZero size]

/-- The part of every rank's shard that a channel reduces. -/
def shardRanges (size outputLength : Nat) (channelRange : Span) :
    List Span :=
  (List.range size).map fun rank => channelRange.shift (rank * outputLength)

/-- The own part of the working buffer is copied to the output. -/
def takeShard (rank : Fin size) (channelRange : Span)
    (memory : ReduceScatterMemory T length outputLength) :
    Except CollectiveFault (ReduceScatterMemory T length outputLength) := do
  let outputValues ← collective.execution.copyBytesFromDeviceAt
    memory.working (rank * outputLength + channelRange.start)
    channelRange.length
  let output ← collective.execution.copyBytesToDeviceAt memory.output
    channelRange.start outputValues
  .ok { memory with output := output }

def reduceScatterRingChannel (rank : Fin size) (channelRange : Span)
    (channel : Nat) (function : T → T → T) :
    RankThread size (ReduceScatterMemory T length outputLength) :=
  let ring := collective.ringOrderForChannel channel
  let position := ring.position rank
  let previousRank := ring.memberAt (position + size - 1)
  let nextRank := ring.memberAt (position + 1)
  let ranges := shardRanges size outputLength channelRange
  collective.ringPass rank ReduceScatterMemory.workingCell (size - 1)
      nextRank previousRank channel
      (ringDataTag collective.operation 0 channel)
      (fun step => rangeAt ranges (ring.memberAt (position + size - 1 - step)))
      (fun step =>
        rangeAt ranges (ring.memberAt (position + 2 * size - 2 - step)))
      (collective.reduceChunk ReduceScatterMemory.workingCell function) ++
    [.compute (collective.takeShard rank channelRange)]

def reduceScatterRing (rank : Fin size)
    (reductionOperation : ReductionOperation) (function : T → T → T)
    (ringChannels : Nat) :
    RankProgram size (ReduceScatterMemory T length outputLength) :=
  let channels := effectiveRingChannels ringChannels outputLength
  let channelRanges := balancedRanges outputLength channels
  [[[.compute fun memory => do
        let memory ← collective.loadWorking memory
        .ok { memory with
          output := collective.execution.fresh outputLength }] ++
      collective.ringAgreement rank length (0x300 + reductionOperation.code) channels],
    forkChannels channelRanges fun channelRange channel =>
      collective.reduceScatterRingChannel rank channelRange channel function]

end Rings

section Groups

variable (hierarchy : Hierarchy size)

/-- The reduced shards are packed group by group. -/
def packWorking (memory : ReduceScatterMemory T length outputLength) :
    Except CollectiveFault (ReduceScatterMemory T length outputLength) := do
  let reducedValues := RankDevice.copyFromDevice memory.working
  let (packedValues, _) ← hierarchy.packGroups reducedValues outputLength
  rejectIf (packedValues.length ≠ length) (.network (.invalidConfiguration
    "hierarchical reduce-scatter packing changed the input length"))
  let packed ← RankDevice.copyToDevice (collective.execution.fresh length) packedValues
  .ok { memory with packed := packed }

def leaderReduceScatterRingChannel (rank : Fin size) (position : Nat)
    (ranges : List Span) (channel : Nat) (function : T → T → T) :
    RankThread size (ReduceScatterMemory T length outputLength) :=
  let leaders := hierarchy.leaders
  let leaderCount := hierarchy.groups.length
  let previousRank := leaders.memberAt (position + leaderCount - 1)
  let nextRank := leaders.memberAt (position + 1)
  collective.ringPass rank ReduceScatterMemory.packedCell (leaderCount - 1)
    nextRank previousRank channel
    (hierarchyRingDataTag collective.operation 8 channel)
    (fun step =>
      rangeAt ranges ((position + leaderCount - 1 - step) % leaderCount))
    (fun step =>
      rangeAt ranges ((position + 2 * leaderCount - 2 - step) % leaderCount))
    (collective.reduceChunk ReduceScatterMemory.packedCell function)

/-- The part of every group's range that a channel reduces. -/
def channelSlices (ranges : List Span) (channels channel : Nat) :
    List Span :=
  ranges.map fun range =>
    (rangeAt (balancedRanges range.length channels) channel).shift range.start

def leaderReduceScatterRing (rank : Fin size) (position : Nat)
    (ranges : List Span) (function : T → T → T) (ringChannels : Nat) :
    Phase (Box size) Frame (ReduceScatterMemory T length outputLength)
      CollectiveFault :=
  let minimumRange := (ranges.map Span.length).min?.getD 0
  let channels := effectiveRingChannels ringChannels minimumRange
  (List.range channels).map fun channel =>
    collective.leaderReduceScatterRingChannel hierarchy rank position
      (channelSlices ranges channels channel) channel function

/-- The reduced values of the own group. -/
def takeGroup (groupIndex : Nat) (memory : ReduceScatterMemory T length outputLength) :
    Except CollectiveFault (ReduceScatterMemory T length outputLength) := do
  let range := rangeAt (hierarchy.groupRanges outputLength) groupIndex
  let values ← RankDevice.copyFromDeviceAt memory.packed range.start range.length
  .ok { memory with localGroupValues := values }

/-- The shard of the leader itself. -/
def takeOwn (memberIndex : Nat) (memory : ReduceScatterMemory T length outputLength) :
    Except CollectiveFault (ReduceScatterMemory T length outputLength) := do
  let values ← memberShard memory.localGroupValues memberIndex outputLength
    "hierarchical reduce-scatter own offset"
    "hierarchical reduce-scatter own range"
  let output ← RankDevice.copyToDevice (collective.execution.fresh outputLength) values
  .ok { memory with output := output }

def reduceScatterHierarchical (rank : Fin size)
    (reductionOperation : ReductionOperation) (function : T → T → T)
    (ringChannels : Nat) :
    RankProgram size (ReduceScatterMemory T length outputLength) :=
  let groupIndex := hierarchy.groupIndex rank
  let group := hierarchy.groupOf rank
  let memberIndex := group.members.idxOf rank
  let agreement := collective.hierarchyAgreement rank hierarchy length
    (0x800 + reductionOperation.code) ringChannels
  let tag (phase : UInt32) (member : Fin size) :=
    hierarchyDataTag collective.operation phase (UInt32.ofNat member)
  if rank ≠ group.leader then
    [[agreement ++
      [collective.send rank group.leader (tag 7 rank) fun memory =>
          .ok (length, collective.execution.encode (RankDevice.copyFromDevice memory.input)),
        collective.receiveValues group.leader rank (tag 9 rank) outputLength
          fun values memory => do
            let output ← RankDevice.copyToDevice (collective.execution.fresh outputLength) values
            .ok { memory with output := output }]]]
  else
    [[agreement ++ [.compute collective.loadWorking] ++
        (group.followers.map fun member =>
          collective.receiveValues member rank (tag 7 member) length fun values memory => do
              let working ← collective.execution.reduceValuesInto memory.working 0 values function
              .ok { memory with working := working }) ++
        [.compute (collective.packWorking hierarchy)]],
      collective.leaderReduceScatterRing hierarchy rank groupIndex
        (hierarchy.groupRanges outputLength) function ringChannels,
      [[.compute (takeGroup hierarchy groupIndex)] ++
        ((group.followers.zipIdx 1).map fun entry =>
          collective.send rank entry.1 (tag 9 entry.1) fun memory => do
            let values ← memberShard memory.localGroupValues entry.2
              outputLength "hierarchical reduce-scatter member offset"
              "hierarchical reduce-scatter member range"
            .ok (outputLength, collective.execution.encode values)) ++
        [.compute (collective.takeOwn memberIndex)]]]

end Groups

def reduceScatter [NeZero size] (rank : Fin size)
    (operation : ReductionOperation) (function : T → T → T) :
    RankProgram size (ReduceScatterMemory T length (length / size)) :=
  let direct := [[collective.reduceScatterDirect rank operation function]]
  if length % size ≠ 0 then
    [[[.compute fun _ => .error (.rank (.invalidLength
      "TCP reduce-scatter input length must be divisible by world size"))]]]
  else if 1 < size then
    let plan := collective.plan .reduceScatter (length * collective.execution.elementSize)
    match plan.algorithm with
    | .hierarchical =>
        match collective.hierarchyGroups with
        | some hierarchy =>
            collective.reduceScatterHierarchical hierarchy rank operation
              function plan.ringChannels
        | none => [[[.compute fun _ => .error (.invalidHierarchy
            "hierarchical collective selected without topology groups")]]]
    | .ring =>
        collective.reduceScatterRing rank operation function plan.ringChannels
    | .direct | .pairwise => direct
  else direct

end DeviceCollective

end RuCCL.Rank
