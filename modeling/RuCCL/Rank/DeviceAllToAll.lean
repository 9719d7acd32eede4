import RuCCL.Rank.PairwiseExchange

/-!
# All-to-all on devices

Every rank has a shard for every rank: through the control path, or in pairwise rounds,
one for each distance in the primary ring.  Statistics are left out.
-/

namespace RuCCL.Rank

open RuCCL.Library
open RankTransport

/-- The buffers of a rank, and what the channels of the round under way have got. -/
structure AllToAllMemory (T : Type) (length : Nat) where
  input : Buffer T length
  output : Buffer T length
  received : Nat → List UInt8

namespace AllToAllMemory

variable {T : Type} {length : Nat}

def inputCell : Cell (AllToAllMemory T length) (Buffer T length) where
  read := fun memory => memory.input
  write := fun input memory => { memory with input := input }
  read_write := fun _ _ => rfl
  write_read := fun _ => rfl
  write_write := fun _ _ _ => rfl

def receivedCell :
    Cell (AllToAllMemory T length) (Nat → List UInt8) where
  read := fun memory => memory.received
  write := fun received memory => { memory with received := received }
  read_write := fun _ _ => rfl
  write_read := fun _ => rfl
  write_write := fun _ _ _ => rfl

end AllToAllMemory

namespace DeviceCollective

variable {T : Type} {size length : Nat} (collective : DeviceCollective T size)

def allToAllDirect (rank : Fin size) : RankThread size (AllToAllMemory T length) :=
  collective.exchange rank .allToAll collective.elementType anyRank length
    (fun memory => .ok (collective.execution.encode (RankDevice.copyFromDevice memory.input)))
    fun response memory => do
      let values ← collective.execution.decodeExact response.payload length
      let output ← RankDevice.copyToDevice (collective.execution.fresh length) values
      .ok { memory with output := output }

section Pairwise

variable [NeZero size] (ring : RingOrder (Fin size) size)

/-- The shard for the rank itself is copied. -/
def placeOwnShard (rank : Fin size) (memory : AllToAllMemory T length) :
    Except CollectiveFault (AllToAllMemory T length) := do
  let shardLength := length / size
  let selfStart := rank * shardLength
  let selfValues ← collective.execution.copyBytesFromDeviceAt memory.input selfStart shardLength
  let output ← collective.execution.copyBytesToDeviceAt
    (collective.execution.fresh length) selfStart selfValues
  .ok { memory with output := output }

def allToAllChannel (rank : Fin size) (step : Nat) (range : Span)
    (channel : Nat) : RankThread size (AllToAllMemory T length) :=
  let position := ring.position rank
  let destination := ring.memberAt (position + step)
  let source := ring.memberAt (position + size - step)
  let sendStart := destination * (length / size)
  collective.exchangeRingChunkBytes rank AllToAllMemory.inputCell
    (range.shift sendStart) range.length destination source channel
    (ringDataTag collective.operation 0 channel step)
    (keepReceived AllToAllMemory.receivedCell channel)

/-- What the channels of a round have got is copied to the shard of its source. -/
def copyRound (rank : Fin size) (step channels : Nat) (memory : AllToAllMemory T length) :
    Except CollectiveFault (AllToAllMemory T length) := do
  let shardLength := length / size
  let source := ring.memberAt (ring.position rank + size - step)
  let output ← collective.copyRanges (source * shardLength)
    (balancedRanges shardLength channels) memory.received memory.output
  .ok { memory with output := output }

def allToAllPairwise (rank : Fin size) (ringChannels : Nat) :
    RankProgram size (AllToAllMemory T length) :=
  let shardLength := length / size
  let channels := effectiveRingChannels ringChannels shardLength
  [[.compute (collective.placeOwnShard rank)] ++
      collective.ringAgreement rank length 0x400 channels] ::
    (List.range (size - 1)).flatMap fun earlier =>
      let step := earlier + 1
      [forkChannels (balancedRanges shardLength channels) fun range channel =>
            collective.allToAllChannel ring rank step range channel,
        [[.compute (collective.copyRound ring rank step channels)]]]

def allToAll (rank : Fin size) : RankProgram size (AllToAllMemory T length) :=
  if length % size ≠ 0 then
    [[[.compute fun _ => .error (.rank (.invalidLength
      "TCP all-to-all input length must be divisible by world size"))]]]
  else
    let plan := collective.plan .allToAll (length * collective.execution.elementSize)
    if plan.algorithm = .pairwise ∧ 1 < size then
      collective.allToAllPairwise ring rank plan.ringChannels
    else [[collective.allToAllDirect rank]]

end Pairwise

end DeviceCollective

end RuCCL.Rank
