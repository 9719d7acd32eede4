import RuCCL.Rank.CountedPayload
import RuCCL.Rank.PairwiseExchange

/-!
# All-to-all with counts on devices

Every rank has some elements for every rank, as many as its counts say: through the
control path, or in pairwise rounds.  In these the ranks first tell each other the counts
and then exchange the elements.  Statistics are left out.
-/

namespace RuCCL.Rank

open RuCCL.Library
open RankTransport

/-- A buffer and its length. -/
structure SizedBuffer (T : Type) where
  length : Nat
  elements : Buffer T length

/-- `VariableCollectiveOutput`, and what a rank has while it exchanges: where the elements
for each rank start, where those of each rank go, and what the channels of the round under
way have got. -/
structure AllToAllVMemory (T : Type) where
  buffer : Option (SizedBuffer T)
  counts : List Nat
  sendOffsets : List Nat
  receiveOffsets : List Nat
  received : Nat → List UInt8

namespace AllToAllVMemory

variable {T : Type}

def receivedCell : Cell (AllToAllVMemory T) (Nat → List UInt8) where
  read := fun memory => memory.received
  write := fun received memory => { memory with received := received }
  read_write := fun _ _ => rfl
  write_read := fun _ => rfl
  write_write := fun _ _ _ => rfl

end AllToAllVMemory

/-- A fault of the counts decoder ends the collective. -/
def fromCounts {α : Type} (result : Except CountsFault α) :
    Except CollectiveFault α :=
  match result with
  | .ok value => .ok value
  | .error (.rank error) => .error (.rank error)
  | .error (.network error) => .error (.network error)
  | .error .panic => .error .panic

namespace DeviceCollective

variable {T : Type} {size : Nat} (collective : DeviceCollective T size)

/-- What the answer of the control path holds. -/
def takeCounted (response : Frame) (memory : AllToAllVMemory T) :
    Except CollectiveFault (AllToAllVMemory T) := do
  let (receiveCounts, data) ← fromCounts
    (decodeCountsResponse response size collective.execution.elementSize)
  let outputLength ← okOr (checkedSum receiveCounts)
    (.rank (.overflow "TCP all-to-all-v receive count"))
  if outputLength = 0 then do
    rejectIf (data ≠ []) (.network (.invalidConfiguration
      "zero-length all-to-all-v response contains data"))
    .ok { memory with buffer := none, counts := receiveCounts }
  else do
    let values ← collective.execution.decodeExact data outputLength
    let output ← RankDevice.copyToDevice (collective.execution.fresh outputLength) values
    .ok { memory with
      buffer := some ⟨outputLength, output⟩
      counts := receiveCounts }

def allToAllVDirect (rank : Fin size) (input : SizedBuffer T)
    (sendCounts : List Nat) : RankThread size (AllToAllVMemory T) :=
  collective.exchangeWithOptions rank .allToAllV collective.elementType
    ⟨anyRank, UInt64.ofNat input.length, flagCountsPrefix, 0⟩
    (fun _ => .ok (Payload.encodeCounts sendCounts ++ collective.execution.encode
        (RankDevice.copyFromDevice input.elements)))
    collective.takeCounted

section Pairwise

variable [NeZero size] (ring : RingOrder (Fin size) size)

/-- `values[rank as usize]` -/
def entryOf {α : Type} (values : List α) (rank : Fin size) :
    Except CollectiveFault α :=
  okOr values[rank.val]? .panic

/-- A rank knows its own count. -/
def startCounts (rank : Fin size) (sendCounts : List Nat) (memory : AllToAllVMemory T) :
    Except CollectiveFault (AllToAllVMemory T) := do
  let own ← entryOf sendCounts rank
  .ok { memory with counts := (List.replicate size 0).set rank own }

/-- A count that has arrived is kept. -/
def keepCount (source : Fin size) (received : List UInt8) (memory : AllToAllVMemory T) :
    Except CollectiveFault (AllToAllVMemory T) := do
  rejectIf (received.length ≠ 8) .panic
  .ok { memory with counts := memory.counts.set source (leValue received) }

def exchangeCount (rank : Fin size) (sendCounts : List Nat) (step : Nat) :
    RankThread size (AllToAllVMemory T) :=
  let position := ring.position rank
  let destination := ring.memberAt (position + step)
  let source := ring.memberAt (position + size - step)
  collective.exchangeHostPayload rank .u8
    (fun _ => do
      let count ← entryOf sendCounts destination
      .ok (leBytes 8 count))
    8 destination source 0 (ringDataTag collective.operation 0 0 step)
    (keepCount source)

/-- The output is allocated, and the elements for the rank itself are copied. -/
def startOutput (rank : Fin size) (input : SizedBuffer T)
    (sendCounts : List Nat) (memory : AllToAllVMemory T) :
    Except CollectiveFault (AllToAllVMemory T) := do
  let sendOffsets ← (prefixOffsets sendCounts).mapError .rank
  let receiveOffsets ← (prefixOffsets memory.counts).mapError .rank
  let outputLength ← okOr (checkedSum memory.counts)
    (.rank (.overflow "pairwise all-to-all-v receive count"))
  let output : Option (SizedBuffer T) :=
    if outputLength = 0 then none
    else some ⟨outputLength, collective.execution.fresh outputLength⟩
  let memory := { memory with
    buffer := output
    sendOffsets := sendOffsets
    receiveOffsets := receiveOffsets }
  let selfCount ← entryOf sendCounts rank
  if selfCount = 0 then .ok memory
  else do
    let start ← entryOf sendOffsets rank
    let values ← collective.execution.copyBytesFromDeviceAt input.elements start selfCount
    let buffer ← okOr output .panic
    let place ← entryOf receiveOffsets rank
    let elements ← collective.execution.copyBytesToDeviceAt buffer.elements place values
    .ok { memory with buffer := some ⟨buffer.length, elements⟩ }

/-- What a channel sends: its range of the elements for the destination. -/
def countedContent (input : SizedBuffer T) (sendCounts : List Nat)
    (destination : Fin size) (channels channel : Nat)
    (memory : AllToAllVMemory T) :
    Except CollectiveFault (Nat × List UInt8) := do
  let sendStart ← entryOf memory.sendOffsets destination
  let sendLength ← entryOf sendCounts destination
  let sendRange := rangeAt (balancedRanges sendLength channels) channel
  let absoluteSend := sendRange.shift sendStart
  let payload ← collective.execution.copyBytesFromDeviceAt input.elements
    absoluteSend.start absoluteSend.length
  .ok (absoluteSend.length, payload)

/-- How many elements a channel awaits. -/
def awaitedLength (source : Fin size) (channels channel : Nat)
    (memory : AllToAllVMemory T) : Nat :=
  let receiveLength := memory.counts.getD source 0
  (rangeAt (balancedRanges receiveLength channels) channel).length

def allToAllVChannel (rank : Fin size) (input : SizedBuffer T)
    (sendCounts : List Nat) (channels step channel : Nat) :
    RankThread size (AllToAllVMemory T) :=
  let position := ring.position rank
  let destination := ring.memberAt (position + step)
  let source := ring.memberAt (position + size - step)
  collective.exchangeChunk rank
    (collective.countedContent input sendCounts destination channels channel)
    (awaitedLength source channels channel) destination source channel
    (ringDataTag collective.operation 1 channel step)
    (keepReceived AllToAllVMemory.receivedCell channel)

/-- Nothing is copied for a channel that has got nothing. -/
def copyCountedRange (start : Nat) (received : Nat → List UInt8)
    (output : Option (SizedBuffer T)) (entry : Span × Nat) :
    Except CollectiveFault (Option (SizedBuffer T)) :=
  if (received entry.2).isEmpty then .ok output
  else do
    let buffer ← okOr output .panic
    let elements ← collective.execution.copyBytesToDeviceAt buffer.elements
      (start + entry.1.start) (received entry.2)
    .ok (some ⟨buffer.length, elements⟩)

/-- What the channels of a round have got is copied behind the elements of the ranks
before its source. -/
def copyCountedRound (rank : Fin size) (step channels : Nat) (memory : AllToAllVMemory T) :
    Except CollectiveFault (AllToAllVMemory T) := do
  let source := ring.memberAt (ring.position rank + size - step)
  let receiveLength ← entryOf memory.counts source
  let place ← entryOf memory.receiveOffsets source
  let output ← (balancedRanges receiveLength channels).zipIdx.foldlM
    (collective.copyCountedRange place memory.received) memory.buffer
  .ok { memory with buffer := output }

def allToAllVPairwise (rank : Fin size) (input : SizedBuffer T)
    (sendCounts : List Nat) (ringChannels : Nat) :
    RankProgram size (AllToAllVMemory T) :=
  let channels := max ringChannels 1
  -- The phases with a single thread are the main thread going on.
  [collective.ringAgreement rank 0 0x500 channels ++ [.compute (startCounts rank sendCounts)]] ::
    [(List.range (size - 1)).flatMap fun earlier =>
      collective.exchangeCount ring rank sendCounts (earlier + 1)] ::
    [[.compute (collective.startOutput rank input sendCounts)]] ::
    (List.range (size - 1)).flatMap fun earlier =>
      let step := earlier + 1
      [(List.range channels).map fun channel =>
          collective.allToAllVChannel ring rank input sendCounts channels step channel,
        [[.compute (collective.copyCountedRound ring rank step channels)]]]

def allToAllV (rank : Fin size) (input : SizedBuffer T)
    (sendCounts : List Nat) : RankProgram size (AllToAllVMemory T) :=
  let fails (error : RankError) : RankProgram size (AllToAllVMemory T) :=
    [[[.compute fun _ => .error (.rank error)]]]
  if sendCounts.length ≠ size then
    fails (.invalidLength
      "TCP all-to-all-v send_counts must have one entry per rank")
  else
    match checkedSum sendCounts with
    | none => fails (.overflow "TCP all-to-all-v send count")
    | some sendTotal =>
        if sendTotal ≠ input.length then
          fails (.invalidLength "TCP all-to-all-v send_counts do not sum to input length")
        else
          let plan := collective.plan .allToAll (input.length * collective.execution.elementSize)
          if plan.algorithm = .pairwise ∧ 1 < size then
            collective.allToAllVPairwise ring rank input sendCounts plan.ringChannels
          else [[collective.allToAllVDirect rank input sendCounts]]

end Pairwise

end DeviceCollective

end RuCCL.Rank
