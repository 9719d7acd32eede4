import RuCCL.Library.Slice
import RuCCL.Tensor.Element

/-!
# Host-staged collectives within one process

One call drives all ranks: values are downloaded to the host, and uploaded to
the buffer of another rank.  A buffer carries its length in its type, so a rank
buffer always has the length of its collective buffer, and the buffers of
different ranks are different storage.

Every copy from rank to rank is noted; no branch of the code reads these notes.
-/

namespace RuCCL.InProcess

open RuCCL.Library
open RuCCL.Rank (CollectiveAlgorithm CollectiveStats)
open RuCCL.Tensor (TensorElement)

inductive InProcessError where
  | emptyWorld
  | rankOutOfRange (rank worldSize : Nat)
  | wrongCommunicator
  | invalidLength (message : String)
  | overflow (what : String)
  deriving DecidableEq

/-- How a collective ends without a result. -/
inductive CollectiveError where
  | inProcess (error : InProcessError)
  /-- A range or a length that the device refuses. -/
  | invalidBuffer (message : String)
  | panic
  deriving DecidableEq

/-- Elements staged on the host on their way from rank to rank. -/
structure Transfer where
  source : Nat
  destination : Nat
  elements : Nat
  deriving DecidableEq

/-- The bytes that went from one rank to a different one. -/
def stagedBytes (elementSize : Nat) (transfers : List Transfer) : Nat :=
  ((transfers.filter fun transfer =>
    transfer.source ≠ transfer.destination).map fun transfer =>
      transfer.elements * elementSize).sum

structure Outcome (Result : Type) where
  result : Result
  stats : CollectiveStats
  transfers : List Transfer

/-- `values[index]` -/
def indexAt {α : Type} (values : List α) (index : Nat) :
    Except CollectiveError α :=
  okOr values[index]? .panic

/-- A device; new storage holds whatever was there. -/
structure TensorDevice (T : Type) where
  empty : Nat → T

def isizeMax : Nat := 2 ^ 63 - 1

variable {T : Type} [TensorElement T] {length scratch : Nat}

def checkedLength (T : Type) [TensorElement T] (length : Nat) :
    Except CollectiveError Unit := do
  let bytes ← okOr (checkedMul length (TensorElement.elementSize T))
    (.invalidBuffer "collective buffer byte length overflow")
  rejectIf (isizeMax < bytes) (.invalidBuffer "collective buffer exceeds addressable size")

def checkedRange (total offset length : Nat) :
    Except CollectiveError Span := do
  let stop ← okOr (checkedAdd offset length) (.invalidBuffer "collective element range overflow")
  rejectIf (total < stop) (.invalidBuffer "collective element range out of bounds")
  return ⟨offset, stop⟩

def alloc (device : TensorDevice T) (length : Nat) :
    Except CollectiveError (Buffer T length) := do
  checkedLength T length
  return fun index => device.empty index

def copyToDeviceAt (buffer : Buffer T length) (offset : Nat)
    (values : List T) : Except CollectiveError (Buffer T length) := do
  let _ ← checkedRange length offset values.length
  return mergeAt overwrite offset values buffer

def copyToDevice (buffer : Buffer T length) (values : List T) :
    Except CollectiveError (Buffer T length) := do
  rejectIf (values.length ≠ length) (.invalidBuffer "collective full write length mismatch")
  copyToDeviceAt buffer 0 values

def copyFromDeviceAt (buffer : Buffer T length) (offset count : Nat) :
    Except CollectiveError (List T) := do
  let range ← checkedRange length offset count
  return readAt range buffer

def copyFromDevice (buffer : Buffer T length) : Except CollectiveError (List T) :=
  copyFromDeviceAt buffer 0 length

structure ReductionLaunch where
  length : Nat
  destinationOffset : Nat

def prepareReduction (length destinationOffset : Nat) : ReductionLaunch :=
  ⟨length, destinationOffset⟩

/-- The kernel takes the destination's element and the source's. -/
def launchReduction (kernel : T → T → T) (launch : ReductionLaunch)
    (source : Buffer T scratch) (destination : Buffer T length) :
    Except CollectiveError (Buffer T length) := do
  let range ← checkedRange scratch 0 launch.length
  let _ ← checkedRange length launch.destinationOffset launch.length
  return mergeAt kernel launch.destinationOffset (readAt range source) destination

structure InProcessCollective (T : Type) where
  id : Nat
  contexts : List (TensorDevice T)

structure DistributedBuffer (T : Type) where
  communicatorId : Nat
  lengthPerRank : Nat
  buffers : List (Buffer T lengthPerRank)

/-- A buffer on one rank only. -/
structure RootedBuffer (T : Type) where
  communicatorId : Nat
  root : Nat
  length : Nat
  buffer : Buffer T length

/-- A buffer of any length. -/
structure SizedBuffer (T : Type) where
  length : Nat
  contents : Buffer T length

structure VariableDistributedBuffer (T : Type) where
  communicatorId : Nat
  buffers : List (Option (SizedBuffer T))
  lengths : List Nat

/-- No storage for an empty buffer. -/
def allocNonempty (device : TensorDevice T) (length : Nat) :
    Except CollectiveError (Option (SizedBuffer T)) :=
  if length = 0 then pure none
  else do
    let contents ← alloc device length
    return some ⟨length, contents⟩

def ringChunks (length worldSize : Nat) :
    Except CollectiveError (List Span) := do
  rejectIf (worldSize = 0) (.inProcess .emptyWorld)
  let base := length / worldSize
  let remainder := length % worldSize
  return spansFrom 0 ((List.range worldSize).map fun rank =>
    base + if rank < remainder then 1 else 0)

def transferredBytes (transfers elements elementBytes : Nat) :
    Except CollectiveError Nat :=
  okOr ((checkedMul transfers elements).bind fun value =>
    checkedMul value elementBytes)
    (.inProcess (.overflow "transferred bytes"))

/-- `u32::try_from` of a length. -/
def lengthU32 (length : Nat) : Except CollectiveError Nat := do
  rejectIf (2 ^ 32 ≤ length) (.inProcess (.invalidLength "GX kernels use u32 element indices"))
  return length

namespace InProcessCollective

variable (collective : InProcessCollective T)

def worldSize : Nat := collective.contexts.length

def context (rank : Nat) : Except CollectiveError (TensorDevice T) :=
  okOr collective.contexts[rank]? (.inProcess (.rankOutOfRange rank collective.worldSize))

def validateBuffer (buffer : DistributedBuffer T) :
    Except CollectiveError Unit :=
  rejectIf (buffer.communicatorId ≠ collective.id ∨ buffer.buffers.length ≠ collective.worldSize)
    (.inProcess .wrongCommunicator)

def validateRootedBuffer (buffer : RootedBuffer T) :
    Except CollectiveError Unit := do
  rejectIf (buffer.communicatorId ≠ collective.id) (.inProcess .wrongCommunicator)
  let _ ← collective.context buffer.root
  return ()

def allocate (lengthPerRank : Nat) :
    Except CollectiveError (DistributedBuffer T) := do
  let buffers ← collective.contexts.mapM fun context =>
    alloc context lengthPerRank
  return ⟨collective.id, lengthPerRank, buffers⟩

def allocateRooted (root length : Nat) :
    Except CollectiveError (RootedBuffer T) := do
  let context ← collective.context root
  let buffer ← alloc context length
  return ⟨collective.id, root, length, buffer⟩

def allocateVariable (lengths : List Nat) :
    Except CollectiveError (VariableDistributedBuffer T) := do
  rejectIf (lengths.length ≠ collective.worldSize)
    (.inProcess (.invalidLength "variable buffer lengths must contain one entry per rank"))
  let buffers ← (collective.contexts.zip lengths).mapM fun entry =>
    allocNonempty entry.1 entry.2
  return ⟨collective.id, buffers, lengths⟩

def downloadRank (buffer : DistributedBuffer T) (rank : Nat) :
    Except CollectiveError (List T) := do
  collective.validateBuffer buffer
  let _ ← collective.context rank
  let rankBuffer ← okOr buffer.buffers[rank]?
    (.inProcess (.rankOutOfRange rank collective.worldSize))
  copyFromDevice rankBuffer

end InProcessCollective

/-- The memory of all ranks within a ring, and what has been counted. -/
structure RingState (T : Type) (length scratch : Nat) where
  buffers : List (Buffer T length)
  scratch : List (Buffer T scratch)
  steps : UInt32
  launches : UInt32
  transfers : List Transfer

/-- Every rank's download of the chunk it sends. -/
def stageChunks (chunks : List Span) (worldSize : Nat)
    (sendChunk : Nat → Nat) (buffers : List (Buffer T length)) :
    Except CollectiveError (List (List T)) :=
  (List.range worldSize).mapM fun rank => do
    let range ← indexAt chunks (sendChunk rank)
    let buffer ← indexAt buffers rank
    copyFromDeviceAt buffer range.start range.length

/-- One rank's part of a reduction step: the chunk of the rank before goes to
the scratch buffer and is reduced from there. -/
def reduceRank
    (upload : Buffer T scratch → List T → Except CollectiveError (Buffer T scratch))
    (kernel : T → T → T) (chunks : List Span) (worldSize step : Nat)
    (staged : List (List T)) (state : RingState T length scratch)
    (rank : Nat) :
    Except CollectiveError (Buffer T length × Buffer T scratch × Option Transfer) := do
  let scratchBuffer ← indexAt state.scratch rank
  let buffer ← indexAt state.buffers rank
  let sourceRank := (rank + worldSize - 1) % worldSize
  let range ← indexAt chunks ((rank + worldSize - step - 2) % worldSize)
  if range.length = 0 then
    return (buffer, scratchBuffer, none)
  else do
    let values ← indexAt staged sourceRank
    let scratchBuffer ← upload scratchBuffer values
    let launch := prepareReduction range.length range.start
    let buffer ← launchReduction kernel launch scratchBuffer buffer
    return (buffer, scratchBuffer, some ⟨sourceRank, rank, values.length⟩)

def reduceStep
    (upload : Buffer T scratch → List T → Except CollectiveError (Buffer T scratch))
    (kernel : T → T → T) (chunks : List Span) (worldSize : Nat)
    (state : RingState T length scratch) (step : Nat) :
    Except CollectiveError (RingState T length scratch) := do
  let staged ← stageChunks chunks worldSize
    (fun rank => (rank + worldSize - step - 1) % worldSize) state.buffers
  let ranks ← (List.range worldSize).mapM
    (reduceRank upload kernel chunks worldSize step staged state)
  let transfers := ranks.filterMap fun entry => entry.2.2
  return {
    buffers := ranks.map fun entry => entry.1
    scratch := ranks.map fun entry => entry.2.1
    steps := state.steps + 1
    launches := state.launches + UInt32.ofNat transfers.length
    transfers := state.transfers ++ transfers }

/-- One rank's part of a step of the gather behind a reduction: empty chunks are
skipped. -/
def gatherRank (chunks : List Span) (worldSize step : Nat)
    (staged : List (List T)) (buffers : List (Buffer T length))
    (rank : Nat) :
    Except CollectiveError (Buffer T length × Option Transfer) := do
  let buffer ← indexAt buffers rank
  let sourceRank := (rank + worldSize - 1) % worldSize
  let range ← indexAt chunks ((rank + worldSize - step - 1) % worldSize)
  if range.length = 0 then return (buffer, none)
  else do
    let values ← indexAt staged sourceRank
    let buffer ← copyToDeviceAt buffer range.start values
    return (buffer, some ⟨sourceRank, rank, values.length⟩)

def gatherStep (chunks : List Span) (worldSize : Nat)
    (state : RingState T length scratch) (step : Nat) :
    Except CollectiveError (RingState T length scratch) := do
  let staged ← stageChunks chunks worldSize
    (fun rank => (rank + worldSize - step) % worldSize) state.buffers
  let ranks ← (List.range worldSize).mapM (gatherRank chunks worldSize step staged state.buffers)
  return { state with
    buffers := ranks.map Prod.fst
    steps := state.steps + 1
    transfers := state.transfers ++ ranks.filterMap Prod.snd }

def maxChunk (chunks : List Span) : Nat := (chunks.map Span.length).foldl max 0

/-- Where an all-to-all-v has got with one destination. -/
structure Destination (T : Type) where
  buffer : Option (SizedBuffer T)
  offset : Nat

/-- What one source sends to one destination; also where its next shard
starts. -/
def sendShard (source destination : Nat) (values : List T)
    (sendOffset count : Nat) (target : Destination T) :
    Except CollectiveError (Nat × Destination T × List Transfer) := do
  let sendEnd ← okOr (checkedAdd sendOffset count)
    (.inProcess (.overflow "all-to-all-v source range"))
  let (buffer, transfers) ←
    if count ≠ 0 then do
      let buffer ← okOr target.buffer .panic
      rejectIf (values.length < sendEnd) .panic
      let shard := (values.drop sendOffset).take (sendEnd - sendOffset)
      let contents ← copyToDeviceAt buffer.contents target.offset shard
      pure (some (⟨buffer.length, contents⟩ : SizedBuffer T),
        [(⟨source, destination, shard.length⟩ : Transfer)])
    else pure (target.buffer, [])
  let offset ← okOr (checkedAdd target.offset count)
    (.inProcess (.overflow "all-to-all-v destination range"))
  return (sendEnd, ⟨buffer, offset⟩, transfers)

/-- The row of one source, destination by destination. -/
def sendRow (source : Nat) (values : List T) :
    Nat → Nat → List Nat → List (Destination T) →
      Except CollectiveError (List (Destination T) × List Transfer)
  | destination, sendOffset, count :: counts, target :: targets => do
      let (sendEnd, target, transfers) ←
        sendShard source destination values sendOffset count target
      let (targets, others) ← sendRow source values (destination + 1) sendEnd counts targets
      return (target :: targets, transfers ++ others)
  | _, _, _, targets => pure (targets, [])

/-- The elements that leave their rank. -/
def remoteElements (sendCounts : List (List Nat)) : Option Nat :=
  (sendCounts.zipIdx).foldlM (fun total (counts, source) =>
    (counts.zipIdx).foldlM (fun total (count, destination) =>
      if source = destination then some total
      else checkedAdd total count) total) 0

structure PointToPointTransfer where
  sourceRank : Nat
  sourceRange : Span
  destinationRank : Nat
  destinationOffset : Nat
  tag : Nat

namespace InProcessCollective

variable (collective : InProcessCollective T)

def reduceSum (input : DistributedBuffer T) (root : Nat) (kernel : T → T → T) :
    Except CollectiveError (Outcome (RootedBuffer T)) := do
  collective.validateBuffer input
  let rootContext ← collective.context root
  let output ← collective.allocateRooted root input.lengthPerRank
  let rootValues ← collective.downloadRank input root
  let buffer ← copyToDevice output.buffer rootValues
  let own : Transfer := ⟨root, root, rootValues.length⟩
  if input.lengthPerRank = 0 then
    return ⟨{ output with buffer := buffer }, .new .direct, [own]⟩
  let scratch ← alloc rootContext input.lengthPerRank
  let launch := prepareReduction (← lengthU32 input.lengthPerRank) 0
  let (buffer, _, stats, transfers) ← (List.range collective.worldSize).foldlM
      (fun (buffer, scratch, stats, transfers) rank =>
        if rank = root then pure (buffer, scratch, stats, transfers)
        else do
          let values ← collective.downloadRank input rank
          let scratch ← copyToDevice scratch values
          let buffer ← launchReduction kernel launch scratch buffer
          let stats : CollectiveStats :=
            { stats with
              steps := stats.steps + 1
              reductionKernelLaunches := stats.reductionKernelLaunches + 1 }
          return (buffer, scratch, stats,
            transfers ++ [(⟨rank, root, values.length⟩ : Transfer)]))
      (buffer, scratch, CollectiveStats.new .direct, [own])
  let bytes ← transferredBytes (collective.worldSize - 1)
    input.lengthPerRank (TensorElement.elementSize T)
  return ⟨{ output with buffer := buffer }, { stats with transferredBytes := bytes }, transfers⟩

def allReduceSum (buffer : DistributedBuffer T) (kernel : T → T → T) :
    Except CollectiveError (Outcome (DistributedBuffer T)) := do
  collective.validateBuffer buffer
  let worldSize := collective.worldSize
  if worldSize = 1 then return ⟨buffer, .new .ring, []⟩
  let chunks ← ringChunks (← lengthU32 buffer.lengthPerRank) worldSize
  let scratch ← collective.contexts.mapM fun context =>
    alloc context (max (maxChunk chunks) 1)
  let start : RingState T buffer.lengthPerRank (max (maxChunk chunks) 1) :=
    ⟨buffer.buffers, scratch, 0, 0, []⟩
  let reduced ← (List.range (worldSize - 1)).foldlM
    (reduceStep (fun scratch values => copyToDeviceAt scratch 0 values)
      kernel chunks worldSize) start
  let gathered ← (List.range (worldSize - 1)).foldlM (gatherStep chunks worldSize) reduced
  let bytes ← transferredBytes (2 * (worldSize - 1))
    buffer.lengthPerRank (TensorElement.elementSize T)
  return ⟨{ buffer with buffers := gathered.buffers },
    { CollectiveStats.new .ring with
      steps := gathered.steps
      reductionKernelLaunches := gathered.launches
      transferredBytes := bytes }, gathered.transfers⟩

/-- Every rank's input, copied to a buffer of its own. -/
def workingCopies (input : DistributedBuffer T) (working : List (Buffer T length)) :
    Except CollectiveError (List (Buffer T length)) :=
  (List.range collective.worldSize).mapM fun rank => do
    let values ← collective.downloadRank input rank
    let empty ← indexAt working rank
    copyToDevice empty values

/-- Every rank's own chunk, copied to its output. -/
def ownChunks (chunks : List Span) (buffers : List (Buffer T length))
    (outputs : List (Buffer T scratch)) :
    Except CollectiveError (List (Buffer T scratch)) :=
  chunks.zipIdx.mapM fun (range, rank) => do
    let buffer ← indexAt buffers rank
    let values ← copyFromDeviceAt buffer range.start range.length
    let empty ← indexAt outputs rank
    copyToDevice empty values

def reduceScatterSum (input : DistributedBuffer T) (kernel : T → T → T) :
    Except CollectiveError (Outcome (DistributedBuffer T)) := do
  collective.validateBuffer input
  let worldSize := collective.worldSize
  rejectIf (¬worldSize ∣ input.lengthPerRank)
    (.inProcess (.invalidLength "reduce-scatter input length must be divisible by world size"))
  let outputLength := input.lengthPerRank / worldSize
  let chunks ← ringChunks (← lengthU32 input.lengthPerRank) worldSize
  let working ← collective.allocate input.lengthPerRank
  let buffers ← collective.workingCopies input working.buffers
  let scratch ← collective.contexts.mapM fun context =>
    alloc context outputLength
  let start : RingState T working.lengthPerRank outputLength := ⟨buffers, scratch, 0, 0, []⟩
  let reduced ← (List.range (worldSize - 1)).foldlM
    (reduceStep copyToDevice kernel chunks worldSize) start
  let output ← collective.allocate outputLength
  let results ← ownChunks chunks reduced.buffers output.buffers
  let bytes ← transferredBytes (worldSize - 1) input.lengthPerRank (TensorElement.elementSize T)
  return ⟨⟨collective.id, output.lengthPerRank, results⟩,
    { CollectiveStats.new .ring with
      steps := reduced.steps
      reductionKernelLaunches := reduced.launches
      transferredBytes := bytes }, reduced.transfers⟩

def broadcast (buffer : DistributedBuffer T) (root : Nat) :
    Except CollectiveError (Outcome (DistributedBuffer T)) := do
  collective.validateBuffer buffer
  let rootValues ← collective.downloadRank buffer root
  let ranks ← (List.range collective.worldSize).mapM fun rank => do
    let current ← indexAt buffer.buffers rank
    if rank ≠ root then do
      let written ← copyToDevice current rootValues
      return (written, [(⟨root, rank, rootValues.length⟩ : Transfer)])
    else return (current, [])
  let bytes ← transferredBytes (collective.worldSize - 1)
    buffer.lengthPerRank (TensorElement.elementSize T)
  return ⟨{ buffer with buffers := ranks.map Prod.fst },
    { CollectiveStats.new .direct with
      steps := if 1 < collective.worldSize then 1 else 0
      transferredBytes := bytes },
    ranks.flatMap Prod.snd⟩

/-- One rank's part of a step of the gather of whole shards. -/
def allGatherRank (worldSize shard step : Nat) (staged : List (List T))
    (buffers : List (Buffer T length)) (rank : Nat) :
    Except CollectiveError (Buffer T length × Transfer) := do
  let sourceRank := (rank + worldSize - 1) % worldSize
  let receiveRank := (rank + worldSize - step - 1) % worldSize
  let values ← indexAt staged sourceRank
  let buffer ← indexAt buffers rank
  let buffer ← copyToDeviceAt buffer (receiveRank * shard) values
  return (buffer, ⟨sourceRank, rank, values.length⟩)

def allGatherStep (worldSize shard : Nat)
    (state : List (Buffer T length) × List Transfer) (step : Nat) :
    Except CollectiveError (List (Buffer T length) × List Transfer) := do
  let staged ← (List.range worldSize).mapM fun rank => do
    let sendRank := (rank + worldSize - step) % worldSize
    let buffer ← indexAt state.1 rank
    copyFromDeviceAt buffer (sendRank * shard) shard
  let ranks ← (List.range worldSize).mapM (allGatherRank worldSize shard step staged state.1)
  return (ranks.map Prod.fst, state.2 ++ ranks.map Prod.snd)

/-- Every rank's input, at its place in the rank's output. -/
def ownShards (input : DistributedBuffer T) (outputs : List (Buffer T length)) :
    Except CollectiveError (List (Buffer T length × Transfer)) :=
  (List.range collective.worldSize).mapM fun rank => do
    let values ← collective.downloadRank input rank
    let empty ← indexAt outputs rank
    let buffer ← copyToDeviceAt empty (rank * input.lengthPerRank) values
    return (buffer, ⟨rank, rank, values.length⟩)

def allGather (input : DistributedBuffer T) :
    Except CollectiveError (Outcome (DistributedBuffer T)) := do
  collective.validateBuffer input
  let worldSize := collective.worldSize
  let outputLength ← okOr (checkedMul input.lengthPerRank worldSize)
    (.inProcess (.overflow "all-gather output length"))
  let output ← collective.allocate outputLength
  let placed ← collective.ownShards input output.buffers
  let (buffers, transfers) ← (List.range (worldSize - 1)).foldlM
    (allGatherStep worldSize input.lengthPerRank)
    (placed.map Prod.fst, placed.map Prod.snd)
  let bytes ← transferredBytes (min (worldSize * (worldSize - 1))
    (wordSize - 1)) input.lengthPerRank (TensorElement.elementSize T)
  return ⟨⟨collective.id, output.lengthPerRank, buffers⟩,
    { CollectiveStats.new .ring with
      steps := UInt32.ofNat (worldSize - 1)
      transferredBytes := bytes }, transfers⟩

def gather (input : DistributedBuffer T) (root : Nat) :
    Except CollectiveError (Outcome (RootedBuffer T)) := do
  collective.validateBuffer input
  let outputLength ← okOr (checkedMul input.lengthPerRank collective.worldSize)
    (.inProcess (.overflow "gather output length"))
  let output ← collective.allocateRooted root outputLength
  let (buffer, transfers) ← (List.range collective.worldSize).foldlM
    (fun (buffer, transfers) rank => do
      let values ← collective.downloadRank input rank
      let buffer ← copyToDeviceAt buffer (rank * input.lengthPerRank) values
      return (buffer, transfers ++ [(⟨rank, root, values.length⟩ : Transfer)]))
    (output.buffer, [])
  let bytes ← transferredBytes (collective.worldSize - 1)
    input.lengthPerRank (TensorElement.elementSize T)
  return ⟨{ output with buffer := buffer },
    { CollectiveStats.new .direct with
      steps := if 1 < collective.worldSize then 1 else 0
      transferredBytes := bytes }, transfers⟩

def scatter (input : RootedBuffer T) :
    Except CollectiveError (Outcome (DistributedBuffer T)) := do
  collective.validateRootedBuffer input
  rejectIf (¬collective.worldSize ∣ input.length)
    (.inProcess (.invalidLength "scatter input length must be divisible by world size"))
  let outputLength := input.length / collective.worldSize
  let output ← collective.allocate outputLength
  let ranks ← (List.range collective.worldSize).mapM fun rank => do
    let values ← copyFromDeviceAt input.buffer (rank * outputLength) outputLength
    let empty ← indexAt output.buffers rank
    let buffer ← copyToDevice empty values
    return (buffer, (⟨input.root, rank, values.length⟩ : Transfer))
  let bytes ← transferredBytes (collective.worldSize - 1) outputLength
    (TensorElement.elementSize T)
  return ⟨⟨collective.id, output.lengthPerRank, ranks.map Prod.fst⟩,
    { CollectiveStats.new .direct with
      steps := if 1 < collective.worldSize then 1 else 0
      transferredBytes := bytes }, ranks.map Prod.snd⟩

def sendRecv (source destination : DistributedBuffer T) (transfer : PointToPointTransfer) :
    Except CollectiveError (Outcome (DistributedBuffer T)) := do
  collective.validateBuffer source
  collective.validateBuffer destination
  let _ ← collective.context transfer.sourceRank
  let _ ← collective.context transfer.destinationRank
  rejectIf (transfer.sourceRange.stop < transfer.sourceRange.start ∨
    source.lengthPerRank < transfer.sourceRange.stop)
    (.inProcess (.invalidLength "send source range is outside the rank buffer"))
  let length := transfer.sourceRange.length
  let destinationEnd ← okOr (checkedAdd transfer.destinationOffset length)
    (.inProcess (.overflow "send destination range"))
  rejectIf (destination.lengthPerRank < destinationEnd)
    (.inProcess (.invalidLength "receive destination range is outside the rank buffer"))
  let sourceBuffer ← indexAt source.buffers transfer.sourceRank
  let values ← copyFromDeviceAt sourceBuffer transfer.sourceRange.start length
  let current ← indexAt destination.buffers transfer.destinationRank
  let written ← copyToDeviceAt current transfer.destinationOffset values
  let bytes ← transferredBytes 1 length (TensorElement.elementSize T)
  return ⟨{ destination with
      buffers := destination.buffers.set transfer.destinationRank written },
    { CollectiveStats.new .direct with
      steps := if length ≠ 0 then 1 else 0
      transferredBytes := bytes },
    [⟨transfer.sourceRank, transfer.destinationRank, values.length⟩]⟩

/-- The shards of one source, destination by destination. -/
def allToAllRow (input : DistributedBuffer T) (worldSize shard : Nat)
    (state : List (Buffer T length) × List Transfer) (source : Nat) :
    Except CollectiveError (List (Buffer T length) × List Transfer) := do
  let ranks ← (List.range worldSize).mapM fun destination => do
    let sourceBuffer ← indexAt input.buffers source
    let values ← copyFromDeviceAt sourceBuffer (destination * shard) shard
    let buffer ← indexAt state.1 destination
    let buffer ← copyToDeviceAt buffer (source * shard) values
    return (buffer, (⟨source, destination, values.length⟩ : Transfer))
  return (ranks.map Prod.fst, state.2 ++ ranks.map Prod.snd)

def allToAll (input : DistributedBuffer T) :
    Except CollectiveError (Outcome (DistributedBuffer T)) := do
  collective.validateBuffer input
  rejectIf (¬collective.worldSize ∣ input.lengthPerRank)
    (.inProcess (.invalidLength "all-to-all rank length must be divisible by world size"))
  let shard := input.lengthPerRank / collective.worldSize
  let output ← collective.allocate input.lengthPerRank
  let (buffers, transfers) ← (List.range collective.worldSize).foldlM
    (allToAllRow input collective.worldSize shard) (output.buffers, [])
  let bytes ← transferredBytes (min (collective.worldSize *
    (collective.worldSize - 1)) (wordSize - 1)) shard
    (TensorElement.elementSize T)
  return ⟨⟨collective.id, output.lengthPerRank, buffers⟩,
    { CollectiveStats.new .direct with
      steps := UInt32.ofNat (collective.worldSize - 1)
      transferredBytes := bytes }, transfers⟩

/-- All shards of one source. -/
def sendSource (input : DistributedBuffer T) (state : List (Destination T) × List Transfer)
    (row : List Nat × Nat) :
    Except CollectiveError (List (Destination T) × List Transfer) := do
  let values ← collective.downloadRank input row.2
  let (targets, transfers) ← sendRow row.2 values 0 0 row.1 state.1
  return (targets, state.2 ++ transfers)

def allToAllV (input : DistributedBuffer T) (sendCounts : List (List Nat)) :
    Except CollectiveError (Outcome (VariableDistributedBuffer T)) := do
  collective.validateBuffer input
  let worldSize := collective.worldSize
  rejectIf (sendCounts.length ≠ worldSize ∨
    sendCounts.any fun counts => counts.length ≠ worldSize)
    (.inProcess (.invalidLength "all-to-all-v send_counts must be a world_size square matrix"))
  sendCounts.forM fun counts => do
    let total ← okOr (counts.foldlM checkedAdd 0)
      (.inProcess (.overflow "all-to-all-v send count"))
    rejectIf (total ≠ input.lengthPerRank)
      (.inProcess (.invalidLength
        "each all-to-all-v send-count row must sum to the input rank length"))
  let receiveLengths ← okOr ((List.range worldSize).mapM fun destination =>
    sendCounts.foldlM (fun total counts => do
      let count ← counts[destination]?
      checkedAdd total count) 0)
    (.inProcess (.overflow "all-to-all-v receive count"))
  let output ← collective.allocateVariable receiveLengths
  let (targets, transfers) ← sendCounts.zipIdx.foldlM (collective.sendSource input)
    (output.buffers.map fun buffer => ⟨buffer, 0⟩, [])
  let remote ← okOr (remoteElements sendCounts)
    (.inProcess (.overflow "all-to-all-v transferred elements"))
  let bytes ← transferredBytes 1 remote (TensorElement.elementSize T)
  return ⟨{ output with buffers := targets.map Destination.buffer },
    { CollectiveStats.new .direct with
      steps := UInt32.ofNat (worldSize - 1)
      transferredBytes := bytes }, transfers⟩

end InProcessCollective

end RuCCL.InProcess
