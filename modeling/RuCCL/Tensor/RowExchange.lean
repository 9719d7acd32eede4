import RuCCL.Library.Segment
import RuCCL.Rank.BoundedBroadcast
import RuCCL.Tensor.Element

/-!
# Row exchanges in bounded rounds

Each rank sends some of its rows to every rank.  The bounded exchange does so in
rounds, so that no packet exceeds a budget of bytes.  A tensor is its shape and
its elements in order; slices out of range and reshapes to another size are
panics of the backend and end a rank with `outOfRange`.  The variable all-to-all
below the rows is taken as correct: it brings every rank the parts for it in the
order of their sources.
-/

namespace RuCCL.Tensor

open RuCCL.Library RuCCL.Rank

def nativeElementType : DType → Except TensorDeviceError ElementType
  | .f32 => .ok .f32
  | .f16 => .ok .f16
  | .bf16 => .ok .bf16
  | .u8 => .ok .u8
  | .u32 => .ok .u32
  | .i32 => .ok .i32
  | .i64 => .ok .i64
  | .other code => .error (.unsupportedDType (.other code))

/-- How the messages name the kind of a tensor. -/
def DType.kind : DType → String
  | .f32 | .f16 | .bf16 => "floating"
  | _ => "integer"

/-- The error of a collective as one of a tensor device. -/
def fromCollective {β : Type} :
    Except DeviceError β → Except TensorDeviceError β
  | .ok value => .ok value
  | .error failure => .error (.collective failure)

variable {α : Type}

structure NativeTensor (α : Type) where
  shape : List Nat
  data : List α
  dtype : DType
  device : Nat
  sized : data.length = shape.prod

def NativeTensor.reshape (tensor : NativeTensor α) (shape : List Nat) :
    Except TensorDeviceError (NativeTensor α) :=
  if sized : tensor.data.length = shape.prod then
    .ok { tensor with shape := shape, sized := sized }
  else .error .outOfRange

def sliceAt (values : List α) (start stop : Nat) : Except TensorDeviceError (List α) :=
  if start ≤ stop ∧ stop ≤ values.length then
    .ok (segment values start (stop - start))
  else .error .outOfRange

def assignAt (values : List α) (start stop : Nat) (piece : List α) :
    Except TensorDeviceError (List α) :=
  if start ≤ stop ∧ stop ≤ values.length ∧ piece.length = stop - start then
    .ok (splice values start piece)
  else .error .outOfRange

/-- `storage::checked_length` -/
def checkedLength (elementBytes length : Nat) :
    Except TensorDeviceError Unit := do
  let bytes ← okOr (checkedMul length elementBytes)
    (.invalidBuffer "collective buffer byte length overflow")
  rejectIf (bytes > isizeLimit) (.invalidBuffer "collective buffer exceeds addressable size")

/-- A frame for the coordinator, or the parts for all ranks with the elements of
each of them. -/
inductive RowMessage (α : Type) where
  | frame (request : Frame)
  | packet (counts : List Nat) (data : List α)

/-- The answers to both kinds of messages. -/
structure RowAnswer (α : Type) where
  frame : Except NetworkError Frame
  rows : Except NetworkError (List Nat × List α)

def RowMessage.frame? : RowMessage α → Option Frame
  | .frame request => some request
  | .packet _ _ => none

def RowMessage.packet? : RowMessage α → Option (List Nat × List α)
  | .frame _ => none
  | .packet counts data => some (counts, data)

/-- What a rank gets of the packets: the parts for it, by source. -/
def deliver {worldSize : Nat} (packets : Fin worldSize → List Nat × List α)
    (rank : Fin worldSize) : List Nat × List α :=
  (List.ofFn fun source => (packets source).1.getD rank 0,
    (List.ofFn fun source => segment (packets source).2 (before (packets source).1 rank)
      ((packets source).1.getD rank 0)).flatten)

/-- The answers when all ranks ask for the same kind of exchange. -/
def meet (checksum : List UInt8 → UInt32) (uniqueId : UniqueId)
    {worldSize : UInt32} (lost : NetworkError)
    (messages : Fin worldSize.toNat → RowMessage α)
    (rank : Fin worldSize.toNat) : RowAnswer α where
  frame :=
    match everywhere fun member => (messages member).frame? with
    | some frames => coordinate checksum uniqueId lost frames rank
    | none => .error lost
  rows :=
    match everywhere fun member => (messages member).packet? with
    | some packets => .ok (deliver packets rank)
    | none => .error lost

/-- What a rank does in a row exchange. -/
abbrev RowExchanging (α : Type) := Dialogue (RowMessage α) (RowAnswer α)

section Rank

variable (session : Session) (device : Nat)

structure RowExchangePlan where
  shape : List Nat
  rowElements : Nat
  inputElements : Nat
  sendElements : List Nat

/-- A product of dimensions as the source computes it. -/
def checkedProduct (dimensions : List Nat) : Option Nat := dimensions.foldlM checkedMul 1

/-- The elements of a row, unless there are none. -/
def rowElementsOf (dimensions : List Nat) : Option Nat :=
  (checkedProduct dimensions).filter fun size => size ≠ 0

def RowExchangePlan.new (shape counts : List Nat) (world : Nat) :
    Except TensorDeviceError RowExchangePlan := do
  rejectIf (shape = [] ∨ world = 0 ∨ counts.length ≠ world)
    (.invalidBuffer "row exchange requires a leading axis and one count per rank")
  let rows ← okOr (checkedSum counts) (.invalidBuffer "row exchange row count overflows")
  rejectIf (some rows ≠ shape.head?)
    (.invalidBuffer "row exchange counts differ from actual leading-axis rows")
  let rowElements ← okOr (rowElementsOf shape.tail)
    (.invalidBuffer "row exchange trailing axes are zero or overflowed")
  let inputElements ← okOr (checkedMul rows rowElements)
    (.invalidBuffer "row exchange input size overflows")
  let sendElements ← okOr (counts.mapM fun count => checkedMul count rowElements)
    (.invalidBuffer "row exchange send element count overflows")
  .ok ⟨shape, rowElements, inputElements, sendElements⟩

/-- The shape of the output, the rows by source and the number of elements. -/
def RowExchangePlan.receive (plan : RowExchangePlan) (counts : List Nat) (world : Nat) :
    Except TensorDeviceError (List Nat × List Nat × Nat) := do
  rejectIf (counts.length ≠ world ∨ ∃ count ∈ counts, count % plan.rowElements ≠ 0)
    (.invalidBuffer "row exchange response does not contain complete source rows")
  let total ← okOr (checkedSum counts) (.invalidBuffer "row exchange receive count overflows")
  .ok (plan.shape.set 0 (total / plan.rowElements),
    counts.map fun count => count / plan.rowElements, total)

/-- The buffer is absent when there is nothing in it. -/
def allToAllV (input : List α) (sendCounts : List Nat) :
    RowExchanging α (Except DeviceError (Option (List α) × List Nat)) :=
  .attempt (do
      rejectIf (sendCounts.length ≠ session.worldSize.toNat)
        (.rank (.invalidLength
          "TCP all-to-all-v send_counts must have one entry per rank"))
      let sendTotal ← okOr (checkedSum sendCounts)
        (.rank (.overflow "TCP all-to-all-v send count"))
      rejectIf (sendTotal ≠ input.length)
        (.rank (.invalidLength "TCP all-to-all-v send_counts do not sum to input length")))
    fun _ => .ask (.packet sendCounts input) fun answer => .done (do
      let (receiveCounts, data) ← fromNetwork answer.rows
      let outputLength ← okOr (checkedSum receiveCounts)
        (.rank (.overflow "TCP all-to-all-v receive count"))
      .ok (if outputLength = 0 then none else some data, receiveCounts))

/-- What `exchangeRows` does before it sends. -/
def planRows (value : NativeTensor α) (counts : List Nat) :
    Except TensorDeviceError (RowExchangePlan × List α × Nat) := do
  let elementType ← nativeElementType value.dtype
  rejectIf (value.device ≠ device) .deviceMismatch
  let plan ← RowExchangePlan.new value.shape counts session.worldSize.toNat
  checkedLength elementType.byteWidth plan.inputElements
  let flat ← value.reshape [plan.inputElements]
  .ok (plan, flat.data, elementType.byteWidth)

/-- The values of a received buffer. -/
def receivedValues (kind : String) (buffer : Option (List α))
    (total : Nat) : Except TensorDeviceError (List α) :=
  match buffer with
  | some values => .ok values
  | none =>
      if total = 0 then .ok []
      else .error (.invalidBuffer s!"nonempty {kind} row exchange lacks its native output buffer")

/-- What `exchangeRows` does with the answer. -/
def finishRows (value : NativeTensor α) (plan : RowExchangePlan) (elementBytes : Nat)
    (answer : Except DeviceError (Option (List α) × List Nat)) :
    Except TensorDeviceError (NativeTensor α × List Nat) := do
  let (buffer, counts) ← fromCollective answer
  let (shape, receiveCounts, total) ← plan.receive counts session.worldSize.toNat
  checkedLength elementBytes total
  let kind := value.dtype.kind
  let values ← receivedValues kind buffer total
  if flat : values.length = [total].prod then do
    let flattened : NativeTensor α := ⟨[total], values, value.dtype, device, flat⟩
    let output ← flattened.reshape shape
    .ok (output, receiveCounts)
  else .error (.invalidBuffer
    s!"{kind} row exchange output length differs from actual receive counts")

/-- `exchange_float_rows` and `exchange_int_rows` -/
def exchangeRows (value : NativeTensor α) (counts : List Nat) :
    RowExchanging α (Except TensorDeviceError (NativeTensor α × List Nat)) :=
  .attempt (planRows session device value counts) fun (plan, data, elementBytes) =>
      (allToAllV session data plan.sendElements).bind fun answer =>
        .done (finishRows session device value plan elementBytes answer)

variable (checksum : List UInt8 → UInt32)

/-- All ranks' words, as bytes. -/
def gatherWords (words : List Nat) : RowExchanging α (Except TensorDeviceError (List UInt8)) :=
  ((allGatherHostStaged checksum session .u64 words.length
    (words.flatMap (leBytes 8))).translate .frame RowAnswer.frame).bind
      fun gathered => .done ((fromCollective gathered).map Prod.fst)

def nativeChunkAgreement (shape : List Nat) (elementType : ElementType)
    (operation maxChunkBytes : Nat) :
    RowExchanging α (Except TensorDeviceError Unit) :=
  let fields := [elementType.toByte.toNat, operation, maxChunkBytes,
    session.worldSize.toNat, shape.length] ++ shape
  let payload := fields.flatMap (leBytes 8)
  (gatherWords session checksum fields).bind fun gathered => .done (do
    let requests ← gathered
    rejectIf (∃ other ∈ chunksExact payload.length requests, other ≠ payload)
      (.invalidOperation "chunked reduction geometry/type/operation/budget differs across ranks"))

structure RowExchangeProgress where
  completedRounds : Nat
  totalRounds : Nat
  sentRows : Nat
  totalSendRows : Nat
  receivedRows : Nat
  totalReceiveRows : Nat
  deriving DecidableEq

/-- The sums behind each of the counts. -/
def rowPrefixFrom (last : Nat) :
    List Nat → Except TensorDeviceError (List Nat)
  | [] => .ok []
  | count :: rest => do
      let next ← okOr (checkedAdd last count) (.invalidBuffer "variable-row prefix overflow")
      let later ← rowPrefixFrom next rest
      .ok (next :: later)

def rowPrefix (counts : List Nat) :
    Except TensorDeviceError (List Nat) := do
  let later ← rowPrefixFrom 0 counts
  .ok (0 :: later)

/-- The checks of `NativeChunkPlan::new`; nothing else is used of the plan. -/
def checkNativeChunkPlan (elements elementBytes maxChunkBytes : Nat) :
    Except DeviceError Unit := do
  rejectIf (elementBytes = 0 ∨ maxChunkBytes < elementBytes)
    (.rank (.invalidLength "broadcast chunk must fit one native element"))
  rejectIf (elementBytes = 0 ∨ maxChunkBytes / elementBytes = 0)
    (.rank (.invalidLength "native broadcast width/chunk must be nonzero"))
  let bytes ← okOr (checkedMul elements elementBytes)
    (.rank (.overflow "native broadcast buffer bytes"))
  rejectIf (bytes > isizeLimit)
    (.rank (.invalidLength "native broadcast buffer exceeds addressable size"))

/-- All that a rank computes before its rounds. -/
structure RowSchedule where
  rowElements : Nat
  receiveCounts : List Nat
  sendPrefix : List Nat
  receivePrefix : List Nat
  receivedRows : Nat
  inputElements : Nat
  outputElements : Nat
  peerRows : Nat
  totalRounds : Nat

/-- The number of rows from each source for this rank. -/
def receiveCountsOf (world rank : Nat) (matrix : List Nat) :
    Except TensorDeviceError (List Nat) :=
  (List.range world).mapM fun source =>
    okOr matrix[source * world + rank]? .outOfRange

def rowSchedule (rows rowElements elementBytes maxChunkBytes : Nat)
    (sendCounts matrix : List Nat) :
    Except TensorDeviceError RowSchedule := do
  let world := session.worldSize.toNat
  let receiveCounts ← receiveCountsOf world session.rank.toNat matrix
  let sendPrefix ← rowPrefix sendCounts
  let receivePrefix ← rowPrefix receiveCounts
  let receivedRows ← okOr receivePrefix.getLast? .outOfRange
  let inputElements ← okOr (checkedMul rows rowElements)
    (.invalidBuffer "variable-row source size overflow")
  let outputElements ← okOr (checkedMul receivedRows rowElements)
    (.invalidBuffer "variable-row output size overflow")
  let maximumPeerRows := matrix.max?.getD 0
  let rowBytes ← okOr (checkedMul rowElements elementBytes)
    (.invalidBuffer "native row byte count overflow")
  let peerRows :=
    if maximumPeerRows = 0 then 1 else maxChunkBytes / world / rowBytes
  rejectIf (peerRows = 0)
    (.invalidBuffer "variable-row budget must fit one native row per participant")
  fromCollective (checkNativeChunkPlan inputElements elementBytes elementBytes)
  fromCollective (checkNativeChunkPlan outputElements elementBytes elementBytes)
  .ok ⟨rowElements, receiveCounts, sendPrefix, receivePrefix, receivedRows,
    inputElements, outputElements, peerRows,
    ChunkedBroadcastPlan.divCeil maximumPeerRows peerRows⟩

/-- The rows of each count that belong to one round. -/
def roundCounts (peerRows offset : Nat) (counts : List Nat) : List Nat :=
  counts.map fun count => min (count - offset) peerRows

/-- The elements that are sent in one round. -/
def packRound (schedule : RowSchedule) (value : List α) (offset : Nat)
    (counts : List Nat) : Except TensorDeviceError (List α) := do
  let pieces ← (counts.zipIdx.filter fun (count, _) => 0 < count).mapM
    fun (count, destination) => do
      let front ← okOr schedule.sendPrefix[destination]? .outOfRange
      let start := (front + offset) * schedule.rowElements
      sliceAt value start (start + count * schedule.rowElements)
  .ok pieces.flatten

/-- The piece of one source, put in its place. -/
def unpackSource (schedule : RowSchedule) (offset : Nat)
    (chunkCounts chunkPrefix : List Nat) (received output : List α)
    (source : Nat) : Except TensorDeviceError (List α) := do
  let count ← okOr chunkCounts[source]? .outOfRange
  if count = 0 then .ok output
  else do
    let front ← okOr schedule.receivePrefix[source]? .outOfRange
    let start := (front + offset) * schedule.rowElements
    let first ← okOr chunkPrefix[source]? .outOfRange
    let last ← okOr chunkPrefix[source + 1]? .outOfRange
    let piece ← sliceAt received (first * schedule.rowElements) (last * schedule.rowElements)
    assignAt output start (start + count * schedule.rowElements) piece

def unpackRound (schedule : RowSchedule) (offset : Nat)
    (chunkCounts chunkPrefix : List Nat) (received output : List α) :
    Except TensorDeviceError (List α) :=
  (List.range session.worldSize.toNat).foldlM
    (unpackSource schedule offset chunkCounts chunkPrefix received) output

/-- What a round makes of the answer of its exchange: the output and the rows
received. -/
def finishRound (schedule : RowSchedule) (offset : Nat) (output : List α)
    (answer : Except TensorDeviceError (NativeTensor α × List Nat)) :
    Except TensorDeviceError (List α × Nat) := do
  let (received, chunkCounts) ← answer
  rejectIf (chunkCounts ≠ roundCounts schedule.peerRows offset schedule.receiveCounts)
    (.invalidBuffer "native row round receive counts differ from original source matrix")
  let chunkPrefix ← rowPrefix chunkCounts
  let total ← okOr chunkPrefix[session.worldSize.toNat]? .outOfRange
  let flat ← received.reshape [total * schedule.rowElements]
  let written ← unpackRound session schedule offset chunkCounts chunkPrefix flat.data output
  .ok (written, total)

/-- The packet of a round as a tensor of whole rows. -/
def packetTensor (schedule : RowSchedule) (tensor : NativeTensor α)
    (value : List α) (offset : Nat) (counts : List Nat) :
    Except TensorDeviceError (NativeTensor α) := do
  let packet ← packRound schedule value offset counts
  if sized : packet.length = (tensor.shape.set 0 counts.sum).prod then
    .ok ⟨tensor.shape.set 0 counts.sum, packet, tensor.dtype, device, sized⟩
  else .error .outOfRange

/-- What a rank has at the end: the reports to its callback, and the output with
the rows by source. -/
structure RowsExchanged (α : Type) where
  reports : List RowExchangeProgress
  result : Except TensorDeviceError (NativeTensor α × List Nat)

/-- The output in the shape of the input, but for its rows. -/
def finishOutput (schedule : RowSchedule) (tensor : NativeTensor α) (output : List α) :
    Except TensorDeviceError (NativeTensor α × List Nat) :=
  let shape := tensor.shape.set 0 schedule.receivedRows
  if sized : output.length = shape.prod then
    .ok (⟨shape, output, tensor.dtype, device, sized⟩, schedule.receiveCounts)
  else .error .outOfRange

/-- The progress behind a round. -/
def nextRound (state : RowExchangeProgress) (sent received : Nat) :
    RowExchangeProgress :=
  { state with
    completedRounds := state.completedRounds + 1
    sentRows := state.sentRows + sent
    receivedRows := state.receivedRows + received }

/-- The rounds from `round` on. -/
def rowRounds (schedule : RowSchedule) (tensor : NativeTensor α)
    (value : List α) (sendCounts : List Nat) :
    Nat → Nat → List α → RowExchangeProgress → List RowExchangeProgress →
      RowExchanging α (RowsExchanged α)
  | 0, _, output, _, reports => .done ⟨reports, finishOutput device schedule tensor output⟩
  | remaining + 1, round, output, state, reports =>
      let offset := round * schedule.peerRows
      let counts := roundCounts schedule.peerRows offset sendCounts
      let exchanged := Dialogue.attempt (packetTensor device schedule tensor value offset counts)
        fun packet => (exchangeRows session device packet counts).bind fun answer => .done
            (finishRound session schedule offset output answer)
      exchanged.bind fun
        | .error failure => .done ⟨reports, .error failure⟩
        | .ok (written, received) =>
            let reached := nextRound state counts.sum received
            rowRounds schedule tensor value sendCounts remaining (round + 1)
              written reached (reports ++ [reached])

/-- The progress before the first round. -/
def firstProgress (schedule : RowSchedule) (rows : Nat) :
    RowExchangeProgress :=
  ⟨0, schedule.totalRounds, 0, rows, 0, schedule.receivedRows⟩

/-- The rounds of a schedule; `fresh` are the values of a new buffer. -/
def exchangeScheduled (schedule : RowSchedule) (tensor : NativeTensor α)
    (sendCounts : List Nat) (rows : Nat)
    (fresh : (length : Nat) → {values : List α // values.length = length}) :
    RowExchanging α (RowsExchanged α) :=
  match tensor.reshape [schedule.inputElements] with
  | .error failure => .done ⟨[], .error failure⟩
  | .ok flat =>
      let state := firstProgress schedule rows
      rowRounds session device schedule tensor flat.data sendCounts
        schedule.totalRounds 0 (fresh schedule.outputElements).val state
        [state]

/-- Go on with a value, or end with the error. -/
def orStop {β : Type} (result : Except TensorDeviceError β)
    (next : β → RowExchanging α (RowsExchanged α)) :
    RowExchanging α (RowsExchanged α) :=
  match result with
  | .ok value => next value
  | .error failure => .done ⟨[], .error failure⟩

/-- The arguments of a rank fit together. -/
def validRows (tensor : NativeTensor α) (sendCounts : List Nat) : Bool :=
  !tensor.shape.isEmpty && sendCounts.length == session.worldSize.toNat &&
    checkedSum sendCounts == tensor.shape.head?

def nativeRowsChunked (tensor : NativeTensor α) (sendCounts : List Nat) (maxChunkBytes : Nat)
    (fresh : (length : Nat) → {values : List α // values.length = length}) :
    RowExchanging α (RowsExchanged α) :=
  orStop (do
      rejectIf (tensor.device ≠ device) .deviceMismatch
      rejectIf (session.worldSize.toNat = 0)
        (.invalidOperation "variable-row world must be positive"))
    fun _ =>
  (gatherWords session checksum
    [if validRows session tensor sendCounts then 1 else 0,
      sendCounts.length]).bind fun statuses =>
  orStop (do
      let bytes ← statuses
      rejectIf (∃ state ∈ chunksExact 16 bytes, leValue (state.take 8) = 0)
        (.invalidBuffer
          "at least one rank's row counts differ from its actual input/leading axis")
      let rows ← okOr tensor.shape.head? .outOfRange
      let elementType ← nativeElementType tensor.dtype
      .ok (rows, elementType))
    fun (rows, elementType) =>
  (nativeChunkAgreement session checksum tensor.shape.tail elementType 0x300
    maxChunkBytes).bind fun agreed =>
  orStop (do
      let _ ← agreed
      okOr (rowElementsOf tensor.shape.tail)
        (.invalidBuffer "variable-row trailing axes are zero or overflowed"))
    fun rowElements =>
  (gatherWords session checksum sendCounts).bind fun gathered =>
  orStop (do
      let bytes ← gathered
      rowSchedule session rows rowElements elementType.byteWidth maxChunkBytes
        sendCounts ((chunksExact 8 bytes).map leValue))
    fun schedule =>
  exchangeScheduled session device schedule tensor sendCounts rows fresh

end Rank

end RuCCL.Tensor
