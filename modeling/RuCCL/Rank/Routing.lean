import RuCCL.Rank.Agreement

/-!
# Collective routing of the coordinator

`validateAndRoute` takes one request frame per rank, in rank order, and answers
with one response frame per rank.  Arithmetic that the source leaves unchecked
and slices that it takes without a test are explicit here: they end in `panic`
when they overflow or leave their buffer.
-/

namespace RuCCL.Rank

open RuCCL.Library

/-- A text for the caller.  Text that arrived in a payload is kept as the bytes
that the lossy UTF-8 decoder reads, and a displayed error as the error. -/
inductive Message where
  | text (content : String)
  | received (payload : List UInt8)
  | displayed (error : ProtocolError)
  deriving DecidableEq

inductive NetworkError where
  | io (message : String)
  | protocol (error : ProtocolError)
  | invalidConfiguration (message : String)
  | rankAlreadyJoined (rank : UInt32)
  | wrongSession
  | wrongDestination (expected actual : UInt32)
  | remoteAbort (message : Message)
  | timeout (operation : String)
  | channelClosed
  | poisoned
  deriving DecidableEq

/-- How a computation can end without a value. -/
inductive Fault where
  | error (error : NetworkError)
  | panic
  deriving DecidableEq

def invalid {α : Type} (message : String) : Except Fault α :=
  .error (.error (.invalidConfiguration message))

/-- Return an invalid configuration when `condition` holds. -/
def invalidIf (condition : Prop) [Decidable condition] (message : String) : Except Fault Unit :=
  rejectIf condition (.error (.invalidConfiguration message))

/-- The conversion behind `?` on a protocol result. -/
def fromProtocol {α : Type} (result : Except ProtocolError α) :
    Except Fault α :=
  match result with
  | .ok value => .ok value
  | .error failure => .error (.error (.protocol failure))

/-- An absent value becomes an invalid configuration. -/
def orInvalid {α : Type} (value : Option α) (message : String) :
    Except Fault α :=
  okOr value (.error (.invalidConfiguration message))

def uncheckedMul (left right : Nat) : Except Fault Nat := okOr (checkedMul left right) .panic

def uncheckedAdd (left right : Nat) : Except Fault Nat := okOr (checkedAdd left right) .panic

/-- `&values[start..stop]` -/
def sliceRange {α : Type} (values : List α) (start stop : Nat) : Except Fault (List α) :=
  if start ≤ stop ∧ stop ≤ values.length then
    .ok ((values.drop start).take (stop - start))
  else .error .panic

/-- `values[index]` -/
def indexAt {α : Type} (values : List α) (index : Nat) :
    Except Fault α :=
  okOr values[index]? .panic

/-- `try_fold` with `checked_add` from zero. -/
def checkedSum (values : List Nat) : Option Nat := values.foldlM checkedAdd 0

section Routing

variable (checksum : List UInt8 → UInt32)

def responseHeader (uniqueId : UniqueId) (opcode : Opcode) (elementType : ElementType)
    (sequence : UInt64) (destination worldSize count : Nat) :
    FrameHeader :=
  { FrameHeader.collective checksum uniqueId opcode elementType 0 anyRank
      (UInt32.ofNat worldSize) sequence (UInt64.ofNat count) with
    destinationRank := UInt32.ofNat destination }

def dataResponse (requests : List Frame) (uniqueId : UniqueId) (sequence : UInt64)
    (opcode : Opcode) (elementType : ElementType)
    (destination count : Nat) (payload : List UInt8) :
    Except Fault Frame :=
  fromProtocol (Frame.new checksum
    (responseHeader checksum uniqueId opcode elementType sequence
      destination requests.length count) payload)

def routeEmpty (requests : List Frame) (uniqueId : UniqueId) (sequence : UInt64)
    (opcode : Opcode) : Except Fault (List Frame) :=
  if requests.any fun request => !request.payload.isEmpty then
    invalid s!"{opcode.debugName} cannot carry a payload"
  else
    (List.range requests.length).mapM fun rank =>
      fromProtocol (Frame.new checksum
        (responseHeader checksum uniqueId opcode .none sequence rank requests.length 0) [])

def routeSamePayload (requests : List Frame) (uniqueId : UniqueId) (sequence : UInt64)
    (opcode : Opcode) (elementType : ElementType) (count : Nat)
    (payload : List UInt8) : Except Fault (List Frame) :=
  (List.range requests.length).mapM fun rank =>
    dataResponse checksum requests uniqueId sequence opcode elementType rank count payload

def routeRootPayload (requests : List Frame) (uniqueId : UniqueId) (sequence : UInt64)
    (opcode : Opcode) (elementType : ElementType) (root count : Nat)
    (payload : List UInt8) : Except Fault (List Frame) :=
  (List.range requests.length).mapM fun rank =>
    if rank = root then
      dataResponse checksum requests uniqueId sequence opcode elementType rank count payload
    else
      fromProtocol (Frame.new checksum
        (responseHeader checksum uniqueId opcode .none sequence rank requests.length 0) [])

def requiredRoot (root : Option Nat) (worldSize : Nat) :
    Except Fault Nat :=
  match root with
  | some root =>
      if root < worldSize then .ok root
      else invalid "rooted collective requires a valid root rank"
  | none => invalid "rooted collective requires a valid root rank"

def requireAllPayloads (requests : List Frame) (bytes : Nat) :
    Except Fault Unit :=
  match requests.zipIdx.find? fun (request, _) =>
      request.payload.length ≠ bytes with
  | some (request, rank) =>
      let actual := request.payload.length
      invalid s!"rank {rank} payload has {actual} bytes, expected {bytes}"
  | none => .ok ()

def requireOnlyRootPayload (requests : List Frame) (root bytes : Nat) : Except Fault Unit :=
  requests.zipIdx.forM fun (request, rank) =>
    let expected := if rank = root then bytes else 0
    let actual := request.payload.length
    invalidIf (actual ≠ expected) s!"rank {rank} payload has {actual} bytes, expected {expected}"

def concatenatePayloads (requests : List Frame) :
    Except Fault (List UInt8) := do
  let _ ← orInvalid (checkedSum (requests.map fun request => request.payload.length))
    "response payload overflow"
  .ok (requests.flatMap Frame.payload)

/-- `chunks_exact(8)`: a shorter tail is dropped. -/
def chunksOfEight : List UInt8 → List (List UInt8)
  | b0 :: b1 :: b2 :: b3 :: b4 :: b5 :: b6 :: b7 :: rest =>
      [b0, b1, b2, b3, b4, b5, b6, b7] :: chunksOfEight rest
  | _ => []

def encodeCounts (counts : List Nat) : List UInt8 := counts.flatMap (leBytes 8)

def decodeCountsPayload (frame : Frame) (worldSize elementBytes : Nat) :
    Except Fault (List Nat × List UInt8) := do
  invalidIf (frame.header.flags &&& flagCountsPrefix = 0)
    "all-to-all-v frame is missing its counts prefix"
  let prefixBytes ← orInvalid (checkedMul worldSize 8) "all-to-all-v prefix size overflow"
  invalidIf (frame.payload.length < prefixBytes) "all-to-all-v counts prefix is truncated"
  let encoded ← sliceRange frame.payload 0 prefixBytes
  let counts := (chunksOfEight encoded).map leValue
  let total ← orInvalid (checkedSum counts) "all-to-all-v count sum overflow"
  let declared := frame.header.elementCount
  invalidIf (total ≠ declared.toNat)
    s!"all-to-all-v counts sum to {total}, header declares {declared}"
  let expectedData ← orInvalid (checkedMul total elementBytes) "all-to-all-v data size overflow"
  let data ← sliceRange frame.payload prefixBytes frame.payload.length
  let actual := data.length
  invalidIf (actual ≠ expectedData)
    s!"all-to-all-v data has {actual} bytes, expected {expectedData}"
  .ok (counts, data)

/-- The shard that one row holds for `destination`. -/
def rowShard (elementBytes destination : Nat) (row : List Nat × List UInt8) :
    Except Fault (List UInt8) := do
  let before ← sliceRange row.1 0 destination
  let startElements ← orInvalid (checkedSum before) "all-to-all-v source offset overflow"
  let start ← orInvalid (checkedMul startElements elementBytes)
    "all-to-all-v byte offset overflow"
  let count ← indexAt row.1 destination
  let bytes ← orInvalid (checkedMul count elementBytes) "all-to-all-v shard size overflow"
  let stop ← uncheckedAdd start bytes
  sliceRange row.2 start stop

def routeAllToAllV (requests : List Frame) (uniqueId : UniqueId) (sequence : UInt64)
    (elementType : ElementType) (elementBytes : Nat) :
    Except Fault (List Frame) := do
  invalidIf (elementType = .none ∨ elementBytes = 0)
    "all-to-all-v requires a concrete element type"
  let worldSize := requests.length
  let rows ← requests.mapM fun request =>
    decodeCountsPayload request worldSize elementBytes
  (List.range worldSize).mapM fun destination => do
    let receiveCounts ← rows.mapM fun row => indexAt row.1 destination
    let receiveTotal ← orInvalid (checkedSum receiveCounts) "all-to-all-v receive count overflow"
    let _ ← orInvalid (checkedMul receiveTotal elementBytes) "all-to-all-v response size overflow"
    let shards ← rows.mapM (rowShard elementBytes destination)
    let header := responseHeader checksum uniqueId .allToAllV elementType
      sequence destination worldSize receiveTotal
    fromProtocol (Frame.new checksum { header with flags := header.flags ||| flagCountsPrefix }
      (encodeCounts receiveCounts ++ shards.flatten))

/-- The equal shards of one payload that go to `destination`. -/
def equalShard (shardBytes destination : Nat) (request : Frame) :
    Except Fault (List UInt8) := do
  let start ← uncheckedMul destination shardBytes
  let stop ← uncheckedAdd start shardBytes
  sliceRange request.payload start stop

def routeScatter (requests : List Frame) (uniqueId : UniqueId) (sequence : UInt64)
    (first : FrameHeader) (root count elementBytes : Nat) :
    Except Fault (List Frame) := do
  let worldSize := requests.length
  invalidIf (count % worldSize ≠ 0) "scatter total element count is not divisible by world size"
  let shardCount := count / worldSize
  let shardBytes ← uncheckedMul shardCount elementBytes
  (List.range worldSize).mapM fun rank => do
    let request ← indexAt requests root
    let payload ← equalShard shardBytes rank request
    dataResponse checksum requests uniqueId sequence first.opcode
      first.elementType rank shardCount payload

/-- Reduce-scatter and all-to-all transpose equal shards; they differ in the
error text and in how they compute the response's capacity and element count. -/
def routeTransposed (requests : List Frame) (uniqueId : UniqueId) (sequence : UInt64)
    (first : FrameHeader) (count elementBytes : Nat) (message : String)
    (responseCount : Nat → Nat → Except Fault Nat) :
    Except Fault (List Frame) := do
  let worldSize := requests.length
  invalidIf (count % worldSize ≠ 0) message
  let shardCount := count / worldSize
  let shardBytes ← uncheckedMul shardCount elementBytes
  (List.range worldSize).mapM fun destination => do
    let shards ← requests.mapM (equalShard shardBytes destination)
    let elements ← responseCount shardCount shardBytes
    dataResponse checksum requests uniqueId sequence first.opcode
      first.elementType destination elements shards.flatten

def routeReduceScatter (requests : List Frame) (uniqueId : UniqueId) (sequence : UInt64)
    (first : FrameHeader) (count elementBytes : Nat) :
    Except Fault (List Frame) :=
  routeTransposed checksum requests uniqueId sequence first count
    elementBytes "reduce-scatter count is not divisible by world size"
    fun shardCount shardBytes => do
      let _ ← uncheckedMul shardBytes requests.length
      uncheckedMul shardCount requests.length

def routeAllToAll (requests : List Frame) (uniqueId : UniqueId) (sequence : UInt64)
    (first : FrameHeader) (count elementBytes : Nat) :
    Except Fault (List Frame) :=
  routeTransposed checksum requests uniqueId sequence first count
    elementBytes "all-to-all count is not divisible by world size"
    fun _ _ => .ok count

/-- Concatenate all payloads and count their elements. -/
def gatherPayloads (requests : List Frame) (count rankPayloadBytes : Nat)
    (message : String) : Except Fault (List UInt8 × Nat) := do
  requireAllPayloads requests rankPayloadBytes
  let payload ← concatenatePayloads requests
  let total ← orInvalid (checkedMul count requests.length) message
  .ok (payload, total)

/-- Every rank gets all payloads: all-gather and all-reduce differ only in the
text of the overflow. -/
def routeGathered (requests : List Frame) (uniqueId : UniqueId) (sequence : UInt64)
    (first : FrameHeader) (count rankPayloadBytes : Nat)
    (message : String) : Except Fault (List Frame) := do
  let (payload, total) ← gatherPayloads requests count rankPayloadBytes message
  routeSamePayload checksum requests uniqueId sequence first.opcode
    first.elementType total payload

/-- The common branch of gather and reduce. -/
def routeRooted (requests : List Frame) (uniqueId : UniqueId) (sequence : UInt64)
    (first : FrameHeader) (root : Option Nat)
    (count rankPayloadBytes : Nat) : Except Fault (List Frame) := do
  let root ← requiredRoot root requests.length
  let (payload, total) ← gatherPayloads requests count rankPayloadBytes
    "rooted collective count overflow"
  routeRootPayload checksum requests uniqueId sequence first.opcode
    first.elementType root total payload

def routeRequests (requests : List Frame) (uniqueId : UniqueId) (sequence : UInt64) :
    Except Fault (List Frame) := do
  let first := (← indexAt requests 0).header
  let worldSize := requests.length
  let elementBytes := first.elementType.byteWidth
  let count := first.elementCount.toNat
  let rankPayloadBytes ← orInvalid (checkedMul count elementBytes)
    "collective payload size overflow"
  let root :=
    if first.rootRank = anyRank then none else some first.rootRank.toNat
  match first.opcode with
  | .barrier => routeEmpty checksum requests uniqueId sequence .barrier
  | .setTimeout =>
      if first.elementType ≠ .none ∨ first.rootRank ≠ anyRank ∨ first.tag = 0 then
        invalid "SET_TIMEOUT requires an empty control frame and non-zero millisecond tag"
      else routeEmpty checksum requests uniqueId sequence .setTimeout
  | .broadcast => do
      let root ← requiredRoot root worldSize
      requireOnlyRootPayload requests root rankPayloadBytes
      let request ← indexAt requests root
      routeSamePayload checksum requests uniqueId sequence first.opcode
        first.elementType count request.payload
  | .allGather =>
      routeGathered checksum requests uniqueId sequence first count
        rankPayloadBytes "all-gather count overflow"
  | .gather | .reduce =>
      routeRooted checksum requests uniqueId sequence first root count rankPayloadBytes
  | .scatter => do
      let root ← requiredRoot root worldSize
      requireOnlyRootPayload requests root rankPayloadBytes
      routeScatter checksum requests uniqueId sequence first root count elementBytes
  | .allReduce =>
      routeGathered checksum requests uniqueId sequence first count
        rankPayloadBytes "all-reduce count overflow"
  | .reduceScatter => do
      requireAllPayloads requests rankPayloadBytes
      routeReduceScatter checksum requests uniqueId sequence first count elementBytes
  | .allToAll => do
      requireAllPayloads requests rankPayloadBytes
      routeAllToAll checksum requests uniqueId sequence first count elementBytes
  | .allToAllV =>
      routeAllToAllV checksum requests uniqueId sequence first.elementType elementBytes
  | .join | .ready | .peerEndpoint | .send | .receive | .abort
  | .heartbeat | .leave =>
      invalid s!"opcode {first.opcode.debugName} is not a coordinator collective request"

/-- The descriptor that a request submits to the agreement. -/
def requestDescriptor (header : FrameHeader) : OperationDescriptor where
  opcode := header.opcode
  elementType := header.elementType
  rootRank := header.rootRank
  elementCount :=
    if header.opcode = .allToAllV then 0 else header.elementCount
  layoutHash := if header.opcode = .allToAllV then 0 else header.tag

/-- Check every request against its connection and submit its descriptor. -/
def submitRequests (uniqueId : UniqueId) (sequence : UInt64) (worldSize : Nat) :
    CollectiveAgreement → Nat → List Frame → CollectiveAgreement × Except Fault Unit
  | agreement, _, [] => (agreement, .ok ())
  | agreement, rank, request :: rest =>
      let header := request.header
      if header.uniqueId ≠ uniqueId then
        (agreement, .error (.error .wrongSession))
      else if header.sourceRank.toNat ≠ rank ∨ header.worldSize.toNat ≠ worldSize then
        (agreement, invalid s!"connection rank {rank} submitted source rank {header.sourceRank} and world size {header.worldSize}")
      else
        let submitted := agreement.submit rank sequence (requestDescriptor header)
        match submitted.2 with
        | .error failure => (submitted.1, .error (.error (.protocol failure)))
        | .ok _ =>
            submitRequests uniqueId sequence worldSize submitted.1 (rank + 1) rest

def validateAndRoute (agreement : CollectiveAgreement) (uniqueId : UniqueId)
    (sequence : UInt64) (requests : List Frame) :
    CollectiveAgreement × Except Fault (List Frame) :=
  let submitted := submitRequests uniqueId sequence requests.length agreement 0 requests
  match submitted.2 with
  | .error failure => (submitted.1, .error failure)
  | .ok _ => (submitted.1, routeRequests checksum requests uniqueId sequence)

end Routing

end RuCCL.Rank
