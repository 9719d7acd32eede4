import RuCCL.Rank.DeviceBuffer
import RuCCL.Rank.Session

/-!
# Broadcasts in bounded chunks

All ranks first gather their arguments and compare them, and then broadcast a
buffer chunk by chunk.
-/

namespace RuCCL.Rank

open RuCCL.Library

/-- The fields are `usize`. -/
structure ChunkedBroadcastPlan where
  elements : Nat
  elementBytes : Nat
  chunkElements : Nat
  fits : elements < wordSize ∧ elementBytes < wordSize ∧ chunkElements < wordSize

namespace ChunkedBroadcastPlan

variable (plan : ChunkedBroadcastPlan)

def validate : Except DeviceError Unit := do
  rejectIf (plan.elementBytes = 0 ∨ plan.chunkElements = 0)
    (.rank (.invalidLength "native broadcast width/chunk must be nonzero"))
  let bytes ← okOr (checkedMul plan.elements plan.elementBytes)
    (.rank (.overflow "native broadcast buffer bytes"))
  rejectIf (bytes > isizeLimit)
    (.rank (.invalidLength "native broadcast buffer exceeds addressable size"))

/-- `div_ceil` -/
def divCeil (left right : Nat) : Nat :=
  if left % right = 0 then left / right else left / right + 1

def chunkCount : Except DeviceError Nat := do
  plan.validate
  .ok (divCeil plan.elements plan.chunkElements)

end ChunkedBroadcastPlan

structure BroadcastProgress where
  completedElements : Nat
  totalElements : Nat
  completedChunks : Nat
  totalChunks : Nat
  restoredElements : Nat
  deriving DecidableEq

section Collective

variable (checksum : List UInt8 → UInt32) (session : Session)

def validateHostReductionPayload (elementType : ElementType)
    (elementCount : Nat) (payload : List UInt8) :
    Except DeviceError Nat := do
  let elementBytes := elementType.byteWidth
  rejectIf (elementBytes = 0)
    (.rank (.invalidLength "host reduction requires a tensor element type"))
  let expected ← okOr (checkedMul elementCount elementBytes)
    (.rank (.overflow "host reduction payload bytes"))
  let actual := payload.length
  rejectIf (actual ≠ expected) (.network (.invalidConfiguration
    s!"host reduction payload has {actual} bytes, expected {expected}"))
  .ok expected

def validateHostReductionResponse (operation : String)
    (payload : List UInt8) (expected : Nat) : Except DeviceError Unit :=
  let actual := payload.length
  rejectIf (actual ≠ expected) (.network (.invalidConfiguration
    s!"host {operation} response has {actual} bytes, expected {expected}"))

/-- The error of an exchange as one of the collective. -/
def fromNetwork {α : Type} :
    Except NetworkError α → Except DeviceError α
  | .ok value => .ok value
  | .error failure => .error (.network failure)

/-- `stats` for a number of bytes that is a `usize`. -/
def directStats (steps : UInt32) (transferredBytes : Nat) :
    CollectiveStats :=
  { CollectiveStats.new .direct with
    steps := steps
    transferredBytes := transferredBytes }

/-- The part of `allGatherHostStaged` behind its exchange. -/
def gatheredResponse (worldSize : UInt32) (rankBytes : Nat)
    (response : Frame) : Except DeviceError (List UInt8 × CollectiveStats) :=
  do
  let expected ← okOr (checkedMul rankBytes worldSize.toNat)
    (.rank (.overflow "host all-gather response bytes"))
  validateHostReductionResponse "all-gather" response.payload expected
  let transferred ← okOr (checkedAdd rankBytes expected)
    (.rank (.overflow "host all-gather transferred bytes"))
  -- `saturating_sub` on a world of at least one rank
  .ok (response.payload, directStats (worldSize - 1) transferred)

def allGatherHostStaged (elementType : ElementType) (elementCount : Nat) (payload : List UInt8) :
    Exchanging (Except DeviceError (List UInt8 × CollectiveStats)) :=
  .attempt (validateHostReductionPayload elementType elementCount payload) fun rankBytes =>
      (session.exchange checksum .allGather elementType anyRank
        (UInt64.ofNat elementCount) payload).bind fun answer =>
          .done (do
            let response ← fromNetwork answer
            gatheredResponse session.worldSize rankBytes response)

def validateRoot (root : UInt32) : Except DeviceError Unit := rejectIf (root ≥ session.worldSize)
    (.rankOutOfRange root.toNat session.worldSize.toNat)

variable {elementSize : Nat} (elementType : ElementType)

/-- What `broadcastAt` does before its exchange: the bytes of the range, and what
this rank sends. -/
def rangePayload (buffer : DeviceBuffer elementSize) (offset length : Nat)
    (root : UInt32) : Except DeviceError (Nat × List UInt8) := do
  validateRoot session root
  let stop ← okOr (checkedAdd offset length) (.rank (.overflow "broadcast range end"))
  rejectIf (stop > buffer.length)
    (.rank (.invalidLength "broadcast range exceeds actual native buffer"))
  let expected ← okOr (checkedMul length elementSize) (.rank (.overflow "broadcast range bytes"))
  if session.rank = root then
    let payload ← buffer.copyBytesFromDeviceAt offset length
    rejectIf (payload.length ≠ expected)
      (.rank (.invalidLength "native range readback changed byte count"))
    .ok (expected, payload)
  else .ok (expected, [])

/-- The part of `broadcastAt` behind its exchange. -/
def storeRange (buffer : DeviceBuffer elementSize) (offset expected : Nat) (response : Frame) :
    Except DeviceError (DeviceBuffer elementSize × CollectiveStats) := do
  rejectIf (response.payload.length ≠ expected)
    (.network (.invalidConfiguration "broadcast range response byte count differs"))
  let written ← buffer.copyBytesToDeviceAt offset response.payload
  .ok (written, directStats (if session.worldSize > 1 then 1 else 0) expected)

def broadcastAt (buffer : DeviceBuffer elementSize) (offset length : Nat) (root : UInt32) :
    Exchanging (Except DeviceError (DeviceBuffer elementSize × CollectiveStats)) :=
  .attempt (rangePayload session buffer offset length root) fun (expected, payload) =>
      (session.exchangeWithOptions checksum .broadcast elementType
        ⟨root, UInt64.ofNat length, 0, UInt64.ofNat offset⟩ payload).bind
          fun answer => .done (do
            let response ← fromNetwork answer
            storeRange session buffer offset expected response)

/-- How a broadcast can end without statistics; the fuel of its loop is part of
the model only. -/
inductive BroadcastStop where
  | failed (error : DeviceError)
  | endless
  deriving DecidableEq

/-- What a rank has at the end: its buffer, the reports to its callback and the
result. -/
structure Broadcasted (elementSize : Nat) where
  buffer : DeviceBuffer elementSize
  reports : List BroadcastProgress
  result : Except BroadcastStop CollectiveStats

/-- The sums of the statistics. -/
def addStats (stats chunk : CollectiveStats) :
    Except DeviceError CollectiveStats := do
  let steps ← okOr (checkedAddSteps stats.steps chunk.steps)
    (.rank (.overflow "native broadcast step statistics"))
  let transferredBytes ← okOr (checkedAdd stats.transferredBytes chunk.transferredBytes)
    (.rank (.overflow "native broadcast transfer statistics"))
  .ok { stats with steps := steps, transferredBytes := transferredBytes }

variable (root : UInt32) (plan : ChunkedBroadcastPlan)

/-- The elements of the next chunk. -/
def chunkLength (completed : Nat) : Nat := min plan.chunkElements (plan.elements - completed)

/-- The progress behind the next chunk. -/
def nextProgress (state : BroadcastProgress) : BroadcastProgress :=
  { state with
    completedElements := state.completedElements + chunkLength plan state.completedElements
    completedChunks := state.completedChunks + 1 }

def broadcastChunks : Nat → DeviceBuffer elementSize → BroadcastProgress →
    List BroadcastProgress → CollectiveStats → Exchanging (Broadcasted elementSize)
  | 0, buffer, state, reports, stats =>
      if state.completedElements < plan.elements then
        .done ⟨buffer, reports, .error .endless⟩
      else .done ⟨buffer, reports, .ok stats⟩
  | fuel + 1, buffer, state, reports, stats =>
      if state.completedElements < plan.elements then
        (broadcastAt checksum session elementType buffer state.completedElements
          (chunkLength plan state.completedElements) root).bind fun
            | .error failure => .done ⟨buffer, reports, .error (.failed failure)⟩
            | .ok (written, chunk) =>
                let reached := nextProgress plan state
                match addStats stats chunk with
                | .error failure => .done ⟨written, reports ++ [reached],
                    .error (.failed failure)⟩
                | .ok total => broadcastChunks fuel written reached (reports ++ [reached]) total
      else .done ⟨buffer, reports, .ok stats⟩

/-- What each rank compares with the others. -/
def planFields (buffer : DeviceBuffer elementSize) (restored : Nat) :
    List Nat :=
  [root.toNat, buffer.length, plan.elements, plan.elementBytes,
    plan.chunkElements, restored, elementType.toByte.toNat]

/-- `chunks_exact` -/
def chunksExact (size : Nat) (bytes : List UInt8) : List (List UInt8) :=
  (List.range (bytes.length / size)).map fun index =>
    getBytes bytes (index * size) size

/-- Gather the arguments of all ranks and compare them with the own ones. -/
def agreeOnPlan (payload : List UInt8) (count : Nat) :
    Exchanging (Except DeviceError CollectiveStats) :=
  (allGatherHostStaged checksum session .u64 count payload).bind
    fun gathered => .done (do
      let (requests, stats) ← gathered
      rejectIf (∃ other ∈ chunksExact payload.length requests, other ≠ payload)
        (.network (.invalidConfiguration "native broadcast plans/ranges differ across ranks"))
      .ok stats)

/-- The checks that follow the agreement, and the number of chunks. -/
def checkArguments (buffer : DeviceBuffer elementSize) (restored : Nat) :
    Except DeviceError Nat := do
  plan.validate
  validateRoot session root
  rejectIf (plan.elements ≠ buffer.length ∨ plan.elementBytes ≠ elementSize ∨
      plan.elementBytes ≠ elementType.byteWidth)
    (.rank (.invalidLength "broadcast plan does not match actual native buffer/type"))
  rejectIf (restored > plan.elements ∨
      (restored ≠ plan.elements ∧ restored % plan.chunkElements ≠ 0))
    (.rank (.invalidLength "restored broadcast prefix is not an actual chunk boundary"))
  plan.chunkCount

/-- The progress of the prefix that the caller has restored. -/
def restoredProgress (restored totalChunks : Nat) : BroadcastProgress where
  completedElements := restored
  totalElements := plan.elements
  completedChunks :=
    if restored = plan.elements then totalChunks
    else restored / plan.chunkElements
  totalChunks := totalChunks
  restoredElements := restored

/-- With a callback that does not fail. -/
def broadcastChunkedWithFallibleProgress (buffer : DeviceBuffer elementSize) (restored : Nat) :
    Exchanging (Broadcasted elementSize) :=
  let fields := planFields elementType root plan buffer restored
  let payload := fields.flatMap (leBytes 8)
  (agreeOnPlan checksum session payload fields.length).bind fun
    | .error failure => .done ⟨buffer, [], .error (.failed failure)⟩
    | .ok stats =>
        match checkArguments session elementType root plan buffer restored with
        | .error failure => .done ⟨buffer, [], .error (.failed failure)⟩
        | .ok totalChunks =>
            let state := restoredProgress plan restored totalChunks
            broadcastChunks checksum session elementType root plan
              (plan.elements - restored) buffer state [state] stats

end Collective

end RuCCL.Rank
