import RuCCL.Library.Segment
import RuCCL.Rank.BoundedBroadcast

/-!
# Chunked broadcasts are all or nothing

After the agreement every rank works on the same arguments, so that its checks
and its loop go the same way as those of the others.  Only the root can fail
alone, when its first chunk is too large for a frame; then nothing has been sent
and the other ranks wait in vain.
-/

namespace RuCCL.Rank

open RuCCL.Library

section Range

variable {checksum : List UInt8 → UInt32} {uniqueId : UniqueId}
  {worldSize : UInt32} {lost : NetworkError} {elementSize : Nat}
  {elementType : ElementType} {root : UInt32}

theorem rank_eq_iff (rank : Fin worldSize.toNat) :
    UInt32.ofNat rank.val = root ↔ rank.val = root.toNat := by
  have small : rank.val < 2 ^ 32 := lt_trans rank.isLt worldSize.toNat_lt
  rw [← UInt32.toNat_inj, UInt32.toNat_ofNat_of_lt' small]

/-- A range that lies in the buffers of all ranks. -/
structure RangeFits (worldSize : UInt32) (elementSize : Nat)
    (elementType : ElementType) (root : UInt32)
    (buffers : Fin worldSize.toNat → DeviceBuffer elementSize)
    (offset length : Nat) : Prop where
  rooted : root < worldSize
  typed : elementType ≠ .none
  width : elementType.byteWidth = elementSize
  inside : ∀ rank, offset + length ≤ (buffers rank).length
  bytes : length * elementSize < wordSize

variable {buffers : Fin worldSize.toNat → DeviceBuffer elementSize} {offset length : Nat}

/-- The rank of the root. -/
def rootRank (rooted : root < worldSize) : Fin worldSize.toNat :=
  ⟨root.toNat, UInt32.lt_iff_toNat_lt.mp rooted⟩

/-- What the root sends. -/
def rootRange (buffers : Fin worldSize.toNat → DeviceBuffer elementSize)
    (root : UInt32) (rooted : root < worldSize) (offset length : Nat) :
    List UInt8 :=
  getBytes (buffers (rootRank rooted)).bytes (offset * elementSize) (length * elementSize)

theorem RangeFits.inBytes
    (range : RangeFits worldSize elementSize elementType root buffers offset
      length) (rank : Fin worldSize.toNat) :
    offset * elementSize + length * elementSize ≤ (buffers rank).bytes.length := by
  rw [(buffers rank).sized, ← Nat.add_mul]
  exact Nat.mul_le_mul_right elementSize (range.inside rank)

theorem RangeFits.rootRange_length
    (range : RangeFits worldSize elementSize elementType root buffers offset length) :
    (rootRange buffers root range.rooted offset length).length = length * elementSize :=
  getBytes_length (range.inBytes _)

theorem RangeFits.rangePayload_eq
    (range : RangeFits worldSize elementSize elementType root buffers offset
      length) (rank : Fin worldSize.toNat) :
    rangePayload (sessionOf uniqueId rank) (buffers rank) offset length root =
      .ok (length * elementSize, if rank.val = root.toNat then
        rootRange buffers root range.rooted offset length else []) := by
  have valid : ¬root ≥ worldSize := UInt32.not_le.mpr range.rooted
  have inside := range.inside rank
  have fits := (buffers rank).fits
  have stop : offset + length < wordSize := by omega
  have bounded : ¬offset + length > (buffers rank).length := by omega
  unfold rangePayload validateRoot
  simp only [sessionOf, rejectIf, valid, if_false, ok_bind, checkedAdd,
    if_pos stop, okOr_some, bounded, checkedMul, if_pos range.bytes,
    rank_eq_iff]
  by_cases atRoot : rank.val = root.toNat
  · have same : rank = rootRank range.rooted := Fin.ext atRoot
    have length' := range.rootRange_length
    simp only [if_pos atRoot, DeviceBuffer.copyBytesFromDeviceAt, if_pos inside, ok_bind]
    rw [same]
    simp only [rootRange] at length' ⊢
    simp only [length', ne_eq, not_true_eq_false, if_false, ok_bind]
  · simp only [if_neg atRoot]

theorem withRange_sized {buffer : DeviceBuffer elementSize} {offset : Nat} {values : List UInt8}
    (inside : offset * elementSize + values.length ≤ buffer.bytes.length) :
    (putBytes buffer.bytes (offset * elementSize) values).length = buffer.length * elementSize :=
  (DeviceBuffer.putBytes_sized inside).trans buffer.sized

/-- The buffer of a rank after the range of the root has been stored. -/
def withRange (buffer : DeviceBuffer elementSize) (offset : Nat) (values : List UInt8)
    (inside : offset * elementSize + values.length ≤ buffer.bytes.length) :
    DeviceBuffer elementSize :=
  { buffer with
    bytes := putBytes buffer.bytes (offset * elementSize) values
    sized := withRange_sized inside }

theorem RangeFits.stored
    (range : RangeFits worldSize elementSize elementType root buffers offset
      length) (rank : Fin worldSize.toNat) :
    offset * elementSize + (rootRange buffers root range.rooted offset length).length ≤
      (buffers rank).bytes.length := by
  rw [range.rootRange_length]
  exact range.inBytes rank

/-- The statistics of one range. -/
def rangeStats (worldSize : UInt32) (bytes : Nat) : CollectiveStats :=
  directStats (if worldSize > 1 then 1 else 0) bytes

theorem RangeFits.storeRange_eq
    (range : RangeFits worldSize elementSize elementType root buffers offset
      length) (rank : Fin worldSize.toNat) {response : Frame}
    (payload : response.payload = rootRange buffers root range.rooted offset length) :
    storeRange (sessionOf uniqueId rank) (buffers rank) offset (length * elementSize) response =
      .ok (withRange (buffers rank) offset (rootRange buffers root range.rooted offset length)
          (range.stored rank),
        rangeStats worldSize (length * elementSize)) := by
  unfold storeRange
  simp only [payload, range.rootRange_length, rejectIf, ne_eq,
    not_true_eq_false, if_false, ok_bind,
    DeviceBuffer.copyBytesToDeviceAt, dif_pos (range.inBytes rank)]
  rfl

/-- The requests of one range. -/
def rangeRequests (checksum : List UInt8 → UInt32) (uniqueId : UniqueId)
    (elementType : ElementType) (root : UInt32) (offset length : Nat)
    (payload : List UInt8) : Fin worldSize.toNat → Frame :=
  requestFrames checksum uniqueId .broadcast elementType
    ⟨root, UInt64.ofNat length, 0, UInt64.ofNat offset⟩
    fun rank => if rank.val = root.toNat then payload else []

/-- All ranks store the range of the root. -/
theorem RangeFits.broadcastAt_lockstep
    (range : RangeFits worldSize elementSize elementType root buffers offset length)
    (counted : length < wordSize)
    (small : length * elementSize ≤ maxFramePayloadBytes) :
    Lockstep (coordinate checksum uniqueId lost)
      (fun rank => broadcastAt checksum (sessionOf uniqueId rank)
        elementType (buffers rank) offset length root)
      [rangeRequests checksum uniqueId elementType root offset length
        (rootRange buffers root range.rooted offset length)]
      (fun rank => .ok (withRange (buffers rank) offset
          (rootRange buffers root range.rooted offset length)
          (range.stored rank),
        rangeStats worldSize (length * elementSize))) := by
  have bytes := range.rootRange_length
  have count : (UInt64.ofNat length).toNat = length := UInt64.toNat_ofNat_of_lt' counted
  obtain ⟨responses, lockstep, payloads⟩ := @broadcast_lockstep checksum
    uniqueId worldSize lost elementType root (UInt64.ofNat length)
    (UInt64.ofNat offset) (rootRange buffers root range.rooted offset length)
    range.rooted range.typed (by rw [bytes]; exact small)
    (by rw [bytes, count, range.width])
  have dialogues : (fun rank : Fin worldSize.toNat =>
      broadcastAt checksum (sessionOf uniqueId rank) elementType
        (buffers rank) offset length root) =
      fun rank => ((sessionOf uniqueId rank).exchangeWithOptions checksum .broadcast elementType
        ⟨root, UInt64.ofNat length, 0, UInt64.ofNat offset⟩
        (if rank.val = root.toNat then
          rootRange buffers root range.rooted offset length else [])).bind
        fun answer => .done (do
          let response ← fromNetwork answer
          storeRange (sessionOf uniqueId rank) (buffers rank) offset
            (length * elementSize) response) := by
    funext rank
    unfold broadcastAt
    rw [range.rangePayload_eq rank]
    rfl
  rw [dialogues]
  have values : (fun rank : Fin worldSize.toNat =>
      storeRange (sessionOf uniqueId rank) (buffers rank) offset
        (length * elementSize) (responses rank)) =
      fun rank => .ok (withRange (buffers rank) offset
          (rootRange buffers root range.rooted offset length)
          (range.stored rank),
        rangeStats worldSize (length * elementSize)) :=
    funext fun rank => range.storeRange_eq rank (payloads rank)
  rw [← values]
  exact lockstep.bind (.done _)

/-- A range that is too large for a frame ends on the root before it is sent. -/
theorem RangeFits.broadcastAt_too_large
    (range : RangeFits worldSize elementSize elementType root buffers offset length)
    (large : maxFramePayloadBytes < length * elementSize)
    (rank : Fin worldSize.toNat) :
    (rank.val = root.toNat → broadcastAt checksum (sessionOf uniqueId rank)
        elementType (buffers rank) offset length root =
      .done (.error (.network (.protocol (.payloadTooLarge (length * elementSize)))))) ∧
    (rank.val ≠ root.toNat → ∃ request, request.payload = [] ∧
      broadcastAt checksum (sessionOf uniqueId rank) elementType
        (buffers rank) offset length root =
      .ask request fun answer => .done (do
        let response ← fromNetwork (concluded uniqueId
          (.exchange .broadcast elementType
            ⟨root, UInt64.ofNat length, 0, UInt64.ofNat offset⟩ []) rank
          answer)
        storeRange (sessionOf uniqueId rank) (buffers rank) offset
          (length * elementSize) response)) := by
  constructor
  · intro atRoot
    unfold broadcastAt
    rw [range.rangePayload_eq rank, if_pos atRoot]
    have bytes := range.rootRange_length
    simp only [Dialogue.attempt]
    rw [exchangeWithOptions_too_large (by rw [bytes]; exact large), bytes]
    rfl
  · intro other
    unfold broadcastAt
    rw [range.rangePayload_eq rank, if_neg other]
    simp only [Dialogue.attempt]
    have plain : PlainHeader checksum ((Call.exchange .broadcast elementType
        ⟨root, UInt64.ofNat length, 0, UInt64.ofNat offset⟩ []).header
          checksum uniqueId (UInt32.ofNat rank) worldSize 0) :=
      exchangeHeader_plain (fun none => absurd none range.typed) (Or.inr range.rooted) rank
    refine ⟨⟨(Call.exchange .broadcast elementType
        ⟨root, UInt64.ofNat length, 0, UInt64.ofNat offset⟩ []).header
          checksum uniqueId (UInt32.ofNat rank) worldSize 0, []⟩, rfl, ?_⟩
    rw [exchangeWithOptions_asks plain.new_nil]
    rfl

end Range

section Gather

variable {checksum : List UInt8 → UInt32} {uniqueId : UniqueId}
  {worldSize : UInt32} {lost : NetworkError}

/-- The statistics of gathering. -/
def gatherStats (worldSize : UInt32) (rankBytes : Nat) : CollectiveStats :=
  directStats (worldSize - 1) (rankBytes + rankBytes * worldSize.toNat)

theorem gatheredResponse_eq {rankBytes : Nat} {response : Frame}
    (bytes : response.payload.length = rankBytes * worldSize.toNat)
    (fits : rankBytes + rankBytes * worldSize.toNat < wordSize) :
    gatheredResponse worldSize rankBytes response =
      .ok (response.payload, gatherStats worldSize rankBytes) := by
  have product : rankBytes * worldSize.toNat < wordSize :=
    lt_of_le_of_lt (Nat.le_add_left _ _) fits
  simp only [gatheredResponse, checkedMul, if_pos product, okOr_some,
    ok_bind, validateHostReductionResponse, bytes, rejectIf, ne_eq,
    not_true_eq_false, if_false, checkedAdd, if_pos fits, gatherStats]

/-- All ranks get all payloads when these fit a frame, and otherwise none
does. -/
theorem allGatherHostStaged_lockstep {count : Nat} {payload : Fin worldSize.toNat → List UInt8}
    (positive : 0 < worldSize.toNat)
    (sized : ∀ rank, (payload rank).length = count * 8)
    (small : count * 8 ≤ maxFramePayloadBytes) :
    ∃ results : Fin worldSize.toNat → Except DeviceError (List UInt8 × CollectiveStats),
      Lockstep (coordinate checksum uniqueId lost)
        (fun rank => allGatherHostStaged checksum (sessionOf uniqueId rank)
          .u64 count (payload rank))
        [requestFrames checksum uniqueId .allGather .u64
          ⟨anyRank, UInt64.ofNat count, 0, 0⟩ payload] results ∧
      ((maxFramePayloadBytes < worldSize.toNat * (count * 8) ∧
        ∀ rank, results rank = .error (.network lost)) ∨
      (worldSize.toNat * (count * 8) ≤ maxFramePayloadBytes ∧
        ∀ rank, results rank = .ok ((List.ofFn payload).flatten,
          gatherStats worldSize (count * 8)))) := by
  have limit : maxFramePayloadBytes < wordSize := by decide
  have counted : (UInt64.ofNat count).toNat = count := by
    apply UInt64.toNat_ofNat_of_lt'
    change count < wordSize
    omega
  have valid (rank : Fin worldSize.toNat) :
      validateHostReductionPayload .u64 count (payload rank) = .ok (count * 8) := by
    have product : count * 8 < wordSize := lt_of_le_of_lt small limit
    simp [validateHostReductionPayload, ElementType.byteWidth, rejectIf,
      checkedMul, product, sized rank]
  have dialogues : (fun rank => allGatherHostStaged checksum
      (sessionOf uniqueId rank) .u64 count (payload rank)) =
      fun rank => ((sessionOf uniqueId rank).exchange checksum .allGather
        .u64 anyRank (UInt64.ofNat count) (payload rank)).bind
          fun answer => .done (do
            let response ← fromNetwork answer
            gatheredResponse worldSize (count * 8) response) := by
    funext rank
    rw [allGatherHostStaged, valid rank]
    rfl
  obtain ⟨results, lockstep, gathered⟩ := @allGather_lockstep checksum
    uniqueId worldSize lost .u64 (UInt64.ofNat count) payload positive
    (fun absent => by cases absent)
    (fun rank => by rw [sized]; exact small)
    (fun rank => by rw [sized, counted]; rfl)
  rw [counted] at gathered
  rw [dialogues]
  refine ⟨_, lockstep.bind (.done _), ?_⟩
  rcases gathered with ⟨large, refused⟩ | ⟨fits, gathered⟩
  · refine Or.inl ⟨large, fun rank => ?_⟩
    rw [refused rank]
    rfl
  · refine Or.inr ⟨fits, fun rank => ?_⟩
    obtain ⟨response, answered, payloads⟩ := gathered rank
    have total := flatten_payloads_length fun rank => (sized rank).symm
    rw [← payloads, Nat.mul_comm] at total
    rw [answered, ← payloads]
    refine gatheredResponse_eq total ?_
    change worldSize.toNat * (count * 8) ≤ maxFramePayloadBytes at fits
    unfold maxFramePayloadBytes at fits small
    unfold wordSize
    rw [Nat.mul_comm (count * 8)]
    omega

end Gather

theorem chunksExact_flatten {size : Nat} (positive : 0 < size) {parts : List (List UInt8)}
    (exact : ∀ part ∈ parts, part.length = size) :
    chunksExact size parts.flatten = parts :=
  exactSegments_flatten positive exact

/-- The arguments of one rank. -/
structure BroadcastArguments (elementSize : Nat) where
  buffer : DeviceBuffer elementSize
  elementType : ElementType
  root : UInt32
  plan : ChunkedBroadcastPlan
  restored : Nat
  fits : restored < wordSize

namespace BroadcastArguments

variable {elementSize : Nat} (arguments : BroadcastArguments elementSize)

def fields : List Nat := planFields arguments.elementType arguments.root arguments.plan
    arguments.buffer arguments.restored

def payload : List UInt8 := arguments.fields.flatMap (leBytes 8)

/-- The call of one rank. -/
def broadcast (checksum : List UInt8 → UInt32) (session : Session) :
    Exchanging (Broadcasted elementSize) :=
  broadcastChunkedWithFallibleProgress checksum session
    arguments.elementType arguments.root arguments.plan arguments.buffer
    arguments.restored

theorem payload_length : arguments.payload.length = 56 := by
  simp [payload, fields, planFields]

theorem fields_fit : ∀ value ∈ arguments.fields, value < 256 ^ 8 := by
  have plan := arguments.plan.fits
  have buffer := arguments.buffer.fits
  have restored := arguments.fits
  have root := arguments.root.toNat_lt
  have type := arguments.elementType.toByte.toNat_lt
  have word : wordSize = 256 ^ 8 := by decide
  intro value member
  simp only [fields, planFields, List.mem_cons, List.not_mem_nil, or_false] at member
  rcases member with rfl | rfl | rfl | rfl | rfl | rfl | rfl <;> omega

end BroadcastArguments

theorem flatMap_leBytes_injective {width : Nat} {left right : List Nat}
    (lengths : left.length = right.length)
    (leftFits : ∀ value ∈ left, value < 256 ^ width)
    (rightFits : ∀ value ∈ right, value < 256 ^ width)
    (same : left.flatMap (leBytes width) = right.flatMap (leBytes width)) :
    left = right := by
  induction left generalizing right with
  | nil => exact (List.length_eq_zero_iff.mp lengths.symm).symm
  | cons first rest ih =>
      cases right with
      | nil => cases lengths
      | cons other others =>
          rw [List.flatMap_cons, List.flatMap_cons] at same
          obtain ⟨heads, tails⟩ := List.append_inj same (by simp)
          have values := congrArg leValue heads
          rw [leValue_leBytes (leftFits first List.mem_cons_self),
            leValue_leBytes (rightFits other List.mem_cons_self)] at values
          rw [values, ih (Nat.succ.inj lengths)
            (fun value member =>
              leftFits value (List.mem_cons_of_mem _ member))
            (fun value member =>
              rightFits value (List.mem_cons_of_mem _ member)) tails]

/-- Two ranks have the same arguments, their buffers' contents apart. -/
structure SameArguments {elementSize : Nat}
    (left right : BroadcastArguments elementSize) : Prop where
  root : left.root = right.root
  length : left.buffer.length = right.buffer.length
  plan : left.plan = right.plan
  restored : left.restored = right.restored
  elementType : left.elementType = right.elementType

theorem ElementType.toByte_injective {left right : ElementType}
    (same : left.toByte = right.toByte) : left = right := by
  have leftType := ElementType.tryFrom_toByte left
  rw [same, ElementType.tryFrom_toByte right] at leftType
  exact (Except.ok.inj leftType).symm

/-- The gathered fields determine the arguments. -/
theorem BroadcastArguments.same_of_payload {elementSize : Nat}
    {left right : BroadcastArguments elementSize}
    (same : left.payload = right.payload) : SameArguments left right := by
  have equal : left.fields = right.fields :=
    flatMap_leBytes_injective rfl left.fields_fit right.fields_fit same
  simp only [fields, planFields, List.cons.injEq, and_true] at equal
  obtain ⟨root, length, elements, elementBytes, chunkElements, restored, elementType⟩ := equal
  refine ⟨UInt32.toNat_inj.mp root, length, ?_, restored,
    ElementType.toByte_injective (UInt8.toNat_inj.mp elementType)⟩
  obtain ⟨_, leftType, leftRoot, leftPlan, leftRestored, _⟩ := left
  obtain ⟨_, rightType, rightRoot, rightPlan, rightRestored, _⟩ := right
  cases leftPlan
  cases rightPlan
  simp only [ChunkedBroadcastPlan.mk.injEq]
  exact ⟨elements, elementBytes, chunkElements⟩

theorem BroadcastArguments.payload_of_same {elementSize : Nat}
    {left right : BroadcastArguments elementSize}
    (same : SameArguments left right) : left.payload = right.payload := by
  simp only [payload, fields, planFields, same.root, same.length, same.plan,
    same.restored, same.elementType]

section Agreement

variable {checksum : List UInt8 → UInt32} {uniqueId : UniqueId}
  {worldSize : UInt32} {lost : NetworkError} {elementSize : Nat}
  {arguments : Fin worldSize.toNat → BroadcastArguments elementSize}

/-- The requests of the agreement. -/
def agreementRequests (checksum : List UInt8 → UInt32) (uniqueId : UniqueId)
    (arguments : Fin worldSize.toNat → BroadcastArguments elementSize) :
    Fin worldSize.toNat → Frame :=
  requestFrames checksum uniqueId .allGather .u64
    ⟨anyRank, UInt64.ofNat 7, 0, 0⟩ fun rank => (arguments rank).payload

/-- What a rank makes of the gathered fields. -/
def judged (payload : List UInt8) (gathered : Except DeviceError (List UInt8 × CollectiveStats)) :
    Except DeviceError CollectiveStats := do
  let (requests, stats) ← gathered
  rejectIf (∃ other ∈ chunksExact payload.length requests, other ≠ payload)
    (.network (.invalidConfiguration "native broadcast plans/ranges differ across ranks"))
  .ok stats

theorem judged_gathered {payloads : Fin worldSize.toNat → List UInt8}
    (sized : ∀ rank, (payloads rank).length = 56) {stats : CollectiveStats}
    (rank : Fin worldSize.toNat) :
    judged (payloads rank) (.ok ((List.ofFn payloads).flatten, stats)) =
      if ∀ other, payloads other = payloads rank then .ok stats
      else .error (.network (.invalidConfiguration
        "native broadcast plans/ranges differ across ranks")) := by
  have pieces : ∀ part ∈ List.ofFn payloads, part.length = 56 := by
    intro part member
    obtain ⟨other, rfl⟩ := (List.mem_ofFn ..).mp member
    exact sized other
  have chunks : chunksExact (payloads rank).length
      (List.ofFn payloads).flatten = List.ofFn payloads := by
    rw [sized]
    exact chunksExact_flatten (by decide) pieces
  simp only [judged, ok_bind, chunks, rejectIf]
  by_cases all : ∀ other, payloads other = payloads rank
  · have none : ¬∃ other ∈ List.ofFn payloads, other ≠ payloads rank := by
      intro differs
      obtain ⟨part, member, different⟩ := differs
      obtain ⟨other, rfl⟩ := (List.mem_ofFn ..).mp member
      exact different (all other)
    rw [if_neg none, if_pos all]
    rfl
  · have some : ∃ other ∈ List.ofFn payloads, other ≠ payloads rank := by
      obtain ⟨other, different⟩ := not_forall.mp all
      exact ⟨_, (List.mem_ofFn ..).mpr ⟨other, rfl⟩, different⟩
    rw [if_pos some, if_neg all]
    rfl

/-- The arguments of all ranks are the same and fit a frame. -/
structure Agreeing (arguments : Fin worldSize.toNat → BroadcastArguments elementSize) :
    Prop where
  small : worldSize.toNat * 56 ≤ maxFramePayloadBytes
  same : ∀ rank other, SameArguments (arguments rank) (arguments other)

/-- All ranks refuse, or all of them have the same arguments. -/
theorem agreeOnPlan_lockstep (positive : 0 < worldSize.toNat) :
    ∃ results : Fin worldSize.toNat → Except DeviceError CollectiveStats,
      Lockstep (coordinate checksum uniqueId lost)
        (fun rank => agreeOnPlan checksum (sessionOf uniqueId rank) (arguments rank).payload 7)
        [agreementRequests checksum uniqueId arguments] results ∧
      ((¬Agreeing arguments ∧ ∀ rank, ∃ failure, results rank = .error failure) ∨
        (Agreeing arguments ∧ ∀ rank, results rank = .ok (gatherStats worldSize 56))) := by
  have sized (rank : Fin worldSize.toNat) : (arguments rank).payload.length = 56 :=
    (arguments rank).payload_length
  obtain ⟨results, lockstep, gathered⟩ := @allGatherHostStaged_lockstep
    checksum uniqueId worldSize lost 7 (fun rank => (arguments rank).payload)
    positive sized (by decide)
  refine ⟨fun rank => judged (arguments rank).payload (results rank), lockstep.bind (.done _), ?_⟩
  dsimp only
  rcases gathered with ⟨large, refused⟩ | ⟨small, gathered⟩
  · refine Or.inl ⟨fun agreeing => absurd agreeing.small (not_le.mpr large),
      fun rank => ⟨.network lost, ?_⟩⟩
    rw [refused rank]
    rfl
  have judgements (rank : Fin worldSize.toNat) :
      judged (arguments rank).payload (results rank) =
        if ∀ other, (arguments other).payload = (arguments rank).payload then
          .ok (gatherStats worldSize 56)
        else .error (.network (.invalidConfiguration
          "native broadcast plans/ranges differ across ranks")) := by
    rw [gathered rank]
    exact judged_gathered sized rank
  by_cases alike : ∀ rank other, (arguments other).payload = (arguments rank).payload
  · refine Or.inr ⟨⟨small, fun rank other =>
      BroadcastArguments.same_of_payload (alike other rank)⟩, fun rank => ?_⟩
    rw [judgements rank, if_pos (alike rank)]
  · refine Or.inl ⟨fun agreeing => alike fun rank other =>
      BroadcastArguments.payload_of_same (agreeing.same other rank),
      fun rank => ?_⟩
    have mixed : ¬∀ other, (arguments other).payload = (arguments rank).payload := by
      intro all
      exact alike fun one other => (all other).trans (all one).symm
    rw [judgements rank, if_neg mixed]
    exact ⟨_, rfl⟩

end Agreement

theorem checkArguments_same {uniqueId : UniqueId} {worldSize : UInt32}
    {elementSize : Nat} {left right : BroadcastArguments elementSize}
    (same : SameArguments left right) (one other : Fin worldSize.toNat) :
    checkArguments (sessionOf uniqueId one) left.elementType left.root
        left.plan left.buffer left.restored =
      checkArguments (sessionOf uniqueId other) right.elementType right.root
        right.plan right.buffer right.restored := by
  unfold checkArguments validateRoot
  simp only [sessionOf, same.root, same.plan, same.length, same.restored, same.elementType]
  -- only the decision procedures of the conditions are left to compare
  congr!

/-- What the checks say about the arguments. -/
structure CheckedArguments (worldSize : UInt32) {elementSize : Nat}
    (arguments : BroadcastArguments elementSize) (total : Nat) : Prop where
  rooted : arguments.root < worldSize
  nonempty : elementSize ≠ 0
  width : arguments.elementType.byteWidth = elementSize
  chunk : 0 < arguments.plan.chunkElements
  length : arguments.buffer.length = arguments.plan.elements
  bytes : arguments.plan.elements * elementSize ≤ isizeLimit
  restored : arguments.restored ≤ arguments.plan.elements
  boundary : arguments.restored = arguments.plan.elements ∨
    arguments.restored % arguments.plan.chunkElements = 0
  counted : arguments.plan.chunkCount = .ok total
  total : total = ChunkedBroadcastPlan.divCeil arguments.plan.elements
    arguments.plan.chunkElements

theorem ChunkedBroadcastPlan.validate_ok {plan : ChunkedBroadcastPlan}
    (valid : plan.validate = .ok ()) :
    plan.elementBytes ≠ 0 ∧ 0 < plan.chunkElements ∧
      plan.elements * plan.elementBytes ≤ isizeLimit := by
  unfold validate at valid
  obtain ⟨_, nonzero, rest⟩ := of_bind valid
  obtain ⟨bytes, product, fits⟩ := of_bind rest
  rw [rejectIf_eq_ok_iff, not_or] at nonzero
  rw [okOr_eq_ok_iff, checkedMul_eq_some_iff] at product
  rw [rejectIf_eq_ok_iff, product.2] at fits
  exact ⟨nonzero.1, Nat.pos_of_ne_zero nonzero.2, not_lt.mp fits⟩

theorem checkArguments_ok {uniqueId : UniqueId} {worldSize : UInt32}
    {elementSize : Nat} {arguments : BroadcastArguments elementSize}
    {rank : Fin worldSize.toNat} {total : Nat}
    (checked : checkArguments (sessionOf uniqueId rank)
      arguments.elementType arguments.root arguments.plan arguments.buffer
      arguments.restored = .ok total) :
    CheckedArguments worldSize arguments total := by
  unfold checkArguments validateRoot at checked
  obtain ⟨_, valid, rest⟩ := of_bind checked
  obtain ⟨_, rooted, rest⟩ := of_bind rest
  obtain ⟨_, matching, rest⟩ := of_bind rest
  obtain ⟨_, boundary, counted⟩ := of_bind rest
  obtain ⟨nonzero, chunk, bytes⟩ := ChunkedBroadcastPlan.validate_ok valid
  rw [rejectIf_eq_ok_iff] at rooted matching boundary
  push Not at matching boundary
  obtain ⟨elements, width, typeWidth⟩ := matching
  have count := counted
  unfold ChunkedBroadcastPlan.chunkCount at count
  rw [valid, ok_bind] at count
  rw [width] at nonzero bytes
  refine ⟨UInt32.not_le.mp rooted, nonzero, typeWidth.symm.trans width,
    chunk, elements.symm, bytes, boundary.1, ?_, counted,
    (Except.ok.inj count).symm⟩
  · by_cases whole : arguments.restored = arguments.plan.elements
    · exact Or.inl whole
    · exact Or.inr (boundary.2 whole)

/-- Nonempty chunks of at most `limit` elements, each behind the one before, from
`start` to `stop`. -/
def Covers (limit : Nat) : Nat → Nat → List (Nat × Nat) → Prop
  | start, stop, [] => start = stop
  | start, stop, (offset, length) :: later =>
      offset = start ∧ 0 < length ∧ length ≤ limit ∧ Covers limit (start + length) stop later

/-- There is a cover of every range. -/
theorem exists_covers {limit : Nat} (positive : 0 < limit) (start count : Nat) :
    ∃ chunks, Covers limit start (start + count) chunks := by
  induction count generalizing start with
  | zero => exact ⟨[], rfl⟩
  | succ count ih =>
      obtain ⟨chunks, covers⟩ := ih (start + 1)
      refine ⟨(start, 1) :: chunks, rfl, Nat.one_pos, positive, ?_⟩
      rw [Nat.add_comm count 1, ← Nat.add_assoc]
      exact covers

section Loop

variable {checksum : List UInt8 → UInt32} {uniqueId : UniqueId}
  {worldSize : UInt32} {lost : NetworkError} {elementSize : Nat}
  {elementType : ElementType} {root : UInt32} {plan : ChunkedBroadcastPlan}

/-- The buffers of all ranks are those of the plan. -/
structure ChunksFit (worldSize : UInt32) (elementSize : Nat)
    (elementType : ElementType) (root : UInt32) (plan : ChunkedBroadcastPlan)
    (buffers : Fin worldSize.toNat → DeviceBuffer elementSize) : Prop where
  rooted : root < worldSize
  typed : elementType ≠ .none
  width : elementType.byteWidth = elementSize
  chunk : 0 < plan.chunkElements
  lengths : ∀ rank, (buffers rank).length = plan.elements
  bytes : plan.elements * elementSize < wordSize

variable {buffers : Fin worldSize.toNat → DeviceBuffer elementSize} {completed : Nat}

theorem chunkLength_le_rest (plan : ChunkedBroadcastPlan) (completed : Nat) :
    chunkLength plan completed ≤ plan.elements - completed :=
  Nat.min_le_right _ _

theorem chunkLength_antitone (plan : ChunkedBroadcastPlan)
    {early late : Nat} (later : early ≤ late) :
    chunkLength plan late ≤ chunkLength plan early := by
  unfold chunkLength
  omega

theorem ChunksFit.chunkLength_pos
    (fit : ChunksFit worldSize elementSize elementType root plan buffers)
    (unfinished : completed < plan.elements) :
    0 < chunkLength plan completed := by
  have chunk := fit.chunk
  unfold chunkLength
  omega

theorem ChunksFit.range (fit : ChunksFit worldSize elementSize elementType root plan buffers)
    (unfinished : completed < plan.elements) :
    RangeFits worldSize elementSize elementType root buffers completed
      (chunkLength plan completed) := by
  have rest := chunkLength_le_rest plan completed
  refine ⟨fit.rooted, fit.typed, fit.width, fun rank => ?_, ?_⟩
  · rw [fit.lengths rank]
    omega
  · have fewer : chunkLength plan completed ≤ plan.elements := by omega
    exact lt_of_le_of_lt (Nat.mul_le_mul_right elementSize fewer) fit.bytes

/-- The buffers behind one chunk. -/
def chunkWritten (plan : ChunkedBroadcastPlan)
    (buffers : Fin worldSize.toNat → DeviceBuffer elementSize)
    (range : RangeFits worldSize elementSize elementType root buffers
      completed (chunkLength plan completed))
    (rank : Fin worldSize.toNat) : DeviceBuffer elementSize :=
  withRange (buffers rank) completed
    (rootRange buffers root range.rooted completed (chunkLength plan completed))
    (range.stored rank)

theorem ChunksFit.written (fit : ChunksFit worldSize elementSize elementType root plan buffers)
    (range : RangeFits worldSize elementSize elementType root buffers
      completed (chunkLength plan completed)) :
    ChunksFit worldSize elementSize elementType root plan (chunkWritten plan buffers range) :=
  ⟨fit.rooted, fit.typed, fit.width, fit.chunk, fit.lengths, fit.bytes⟩

/-- The own bytes before an offset and those of the root from there on. -/
def suffixFrom (buffers : Fin worldSize.toNat → DeviceBuffer elementSize)
    (source : Fin worldSize.toNat) (offset : Nat)
    (rank : Fin worldSize.toNat) : List UInt8 :=
  (buffers rank).bytes.take (offset * elementSize) ++
    (buffers source).bytes.drop (offset * elementSize)

theorem take_putBytes {bytes source : List UInt8} {offset width : Nat}
    (inside : offset + width ≤ bytes.length)
    (sourced : offset + width ≤ source.length) :
    (putBytes bytes offset (getBytes source offset width)).take (offset + width) =
      bytes.take offset ++ getBytes source offset width := by
  have field := getBytes_length sourced
  have front : (bytes.take offset ++ getBytes source offset width).length = offset + width := by
    rw [List.length_append, List.length_take, field]
    omega
  rw [putBytes, ← front, List.take_left]

theorem drop_putBytes {bytes : List UInt8} {offset width : Nat}
    (inside : offset + width ≤ bytes.length) :
    (putBytes bytes offset (getBytes bytes offset width)).drop
        (offset + width) = bytes.drop (offset + width) := by
  have field := getBytes_length inside
  have front : (bytes.take offset ++ getBytes bytes offset width).length = offset + width := by
    rw [List.length_append, List.length_take, field]
    omega
  rw [putBytes, field]
  nth_rewrite 1 [← front]
  exact List.drop_left

/-- A chunk more and the rest from the root is the rest from the root. -/
theorem suffixFrom_chunkWritten
    (range : RangeFits worldSize elementSize elementType root buffers
      completed (chunkLength plan completed))
    (rank : Fin worldSize.toNat) :
    suffixFrom (chunkWritten plan buffers range) (rootRank range.rooted)
        (completed + chunkLength plan completed) rank =
      suffixFrom buffers (rootRank range.rooted) completed rank := by
  have own := range.inBytes rank
  have source := range.inBytes (rootRank range.rooted)
  unfold suffixFrom chunkWritten withRange rootRange
  simp only [Nat.add_mul]
  rw [take_putBytes own source, drop_putBytes source, List.append_assoc,
    getBytes, ← List.drop_drop, List.take_append_drop]

/-- The progress is at a chunk boundary or at the end. -/
def OnBoundary (plan : ChunkedBroadcastPlan) (state : BroadcastProgress) :
    Prop :=
  (state.completedElements = plan.elements ∧ state.completedChunks =
        ChunkedBroadcastPlan.divCeil plan.elements plan.chunkElements) ∨
    (state.completedElements < plan.elements ∧
      state.completedElements = state.completedChunks * plan.chunkElements)

theorem OnBoundary.next {state : BroadcastProgress} (boundary : OnBoundary plan state)
    (chunk : 0 < plan.chunkElements)
    (unfinished : state.completedElements < plan.elements) :
    OnBoundary plan (nextProgress plan state) := by
  have multiple : state.completedElements = state.completedChunks * plan.chunkElements := by
    rcases boundary with ⟨finished, _⟩ | ⟨_, multiple⟩
    · omega
    · exact multiple
  have step : (state.completedChunks + 1) * plan.chunkElements =
      state.completedElements + plan.chunkElements := by
    rw [Nat.add_mul, Nat.one_mul, multiple]
  unfold OnBoundary nextProgress chunkLength
  dsimp only
  by_cases whole :
      state.completedElements + plan.chunkElements < plan.elements
  · right
    rw [step]
    omega
  left
  refine ⟨by omega, ?_⟩
  unfold ChunkedBroadcastPlan.divCeil
  by_cases last :
      state.completedElements + plan.chunkElements = plan.elements
  · rw [← last, ← step, Nat.mul_mod_left, if_pos rfl, Nat.mul_div_cancel _ chunk]
  · obtain ⟨tail, split⟩ := Nat.exists_eq_add_of_lt unfinished
    have short : tail + 1 < plan.chunkElements := by omega
    have elements : plan.elements = tail + 1 + plan.chunkElements * state.completedChunks := by
      rw [Nat.mul_comm, ← multiple]
      omega
    have remainder : plan.elements % plan.chunkElements = tail + 1 := by
      rw [elements, Nat.add_mul_mod_self_left, Nat.mod_eq_of_lt short]
    have quotient : plan.elements / plan.chunkElements =
        state.completedChunks := by
      rw [elements, Nat.add_mul_div_left _ _ chunk, Nat.div_eq_of_lt short, Nat.zero_add]
    rw [if_neg (by omega), quotient]

/-- The chunk that a request of a broadcast is for. -/
def ChunkRequests (checksum : List UInt8 → UInt32) (uniqueId : UniqueId)
    (elementType : ElementType) (root : UInt32)
    (requests : Fin worldSize.toNat → Frame) (chunk : Nat × Nat) : Prop :=
  ∃ payload, requests = rangeRequests checksum uniqueId elementType root chunk.1 chunk.2 payload

theorem chunkRequests_range {chunk : Nat × Nat} {payload : List UInt8} :
    ChunkRequests checksum uniqueId elementType root
      (rangeRequests checksum uniqueId elementType root chunk.1 chunk.2
        payload : Fin worldSize.toNat → Frame) chunk :=
  ⟨payload, rfl⟩

/-- All ranks have every element, and the last report says so. -/
structure Finished (plan : ChunkedBroadcastPlan) (total completed : Nat)
    (buffers : Fin worldSize.toNat → DeviceBuffer elementSize)
    (source : Fin worldSize.toNat) (performed : List (Nat × Nat))
    (outcomes : Fin worldSize.toNat → Broadcasted elementSize) : Prop where
  result : ∃ stats, ∀ rank, (outcomes rank).result = .ok stats
  covers : Covers plan.chunkElements completed plan.elements performed
  bytes : ∀ rank, (outcomes rank).buffer.bytes = suffixFrom buffers source completed rank
  reported : ∀ rank, ∃ last, (outcomes rank).reports.getLast? = some last ∧
    last.completedElements = plan.elements ∧
    last.completedChunks = ChunkedBroadcastPlan.divCeil plan.elements plan.chunkElements ∧
    last.totalChunks = total

/-- The chunks that are left. -/
def chunksLeft (plan : ChunkedBroadcastPlan) (completed : Nat) : Nat :=
  ChunkedBroadcastPlan.divCeil (plan.elements - completed) plan.chunkElements

theorem chunksLeft_eq_succ (chunk : 0 < plan.chunkElements)
    (unfinished : completed < plan.elements) :
    chunksLeft plan completed = chunksLeft plan (completed + chunkLength plan completed) + 1 := by
  unfold chunksLeft chunkLength ChunkedBroadcastPlan.divCeil
  obtain ⟨rest, counted⟩ := Nat.exists_eq_add_of_lt unfinished
  have left : plan.elements - completed = rest + 1 := by omega
  rw [Nat.sub_add_eq, left]
  by_cases last : rest + 1 ≤ plan.chunkElements
  · rw [Nat.min_eq_right last, Nat.sub_self, Nat.zero_mod, if_pos rfl, Nat.zero_div]
    by_cases whole : rest + 1 = plan.chunkElements
    · rw [whole, Nat.mod_self, if_pos rfl, Nat.div_self chunk]
    · have short : rest + 1 < plan.chunkElements := by omega
      rw [Nat.mod_eq_of_lt short, if_neg (Nat.succ_ne_zero rest), Nat.div_eq_of_lt short]
  · obtain ⟨more, split⟩ := Nat.exists_eq_add_of_le (not_le.mp last).le
    rw [Nat.min_eq_left (not_le.mp last).le, split,
      Nat.add_sub_cancel_left, Nat.add_mod_left, Nat.add_div_left _ chunk]
    split <;> rfl

theorem addStats_eq_ok_iff {stats chunk total : CollectiveStats} :
    addStats stats chunk = .ok total ↔ stats.steps.toNat + chunk.steps.toNat < 2 ^ 32 ∧
      stats.transferredBytes + chunk.transferredBytes < wordSize ∧
      total = { stats with
        steps := stats.steps + chunk.steps
        transferredBytes := stats.transferredBytes + chunk.transferredBytes } := by
  simp only [addStats, bind_eq_ok_iff, okOr_eq_ok_iff, checkedAddSteps,
    checkedAdd_eq_some_iff, Option.ite_none_right_eq_some,
    Option.some.injEq, Except.ok.injEq]
  constructor
  · rintro ⟨_, ⟨steps, rfl⟩, _, ⟨bytes, rfl⟩, rfl⟩
    exact ⟨steps, bytes, rfl⟩
  · rintro ⟨steps, bytes, rfl⟩
    exact ⟨_, ⟨steps, rfl⟩, _, ⟨bytes, rfl⟩, rfl⟩

/-- The statistics of all chunks that are left can be added. -/
structure StatsFit (worldSize : UInt32) (elementSize : Nat)
    (plan : ChunkedBroadcastPlan) (completed : Nat)
    (stats : CollectiveStats) : Prop where
  steps : stats.steps.toNat + (rangeStats worldSize 0).steps.toNat *
    chunksLeft plan completed < 2 ^ 32
  bytes : stats.transferredBytes + (plan.elements - completed) * elementSize < wordSize

/-- One chunk uses up its part of the statistics. -/
theorem statsFit_next {stats total : CollectiveStats} (chunk : 0 < plan.chunkElements)
    (unfinished : completed < plan.elements)
    (added : addStats stats (rangeStats worldSize
      (chunkLength plan completed * elementSize)) = .ok total) :
    StatsFit worldSize elementSize plan (completed + chunkLength plan completed) total ↔
      StatsFit worldSize elementSize plan completed stats := by
  obtain ⟨steps, bytes, rfl⟩ := addStats_eq_ok_iff.mp added
  have rest := chunkLength_le_rest plan completed
  have part : (plan.elements - completed) * elementSize =
      chunkLength plan completed * elementSize +
        (plan.elements - (completed + chunkLength plan completed)) *
          elementSize := by
    rw [← Nat.add_mul]
    congr 1
    omega
  have sum := (UInt32.toNat_add _ _).trans (Nat.mod_eq_of_lt steps)
  constructor
  · rintro ⟨fewSteps, fewBytes⟩
    rw [sum] at fewSteps
    refine ⟨?_, ?_⟩
    · rw [chunksLeft_eq_succ chunk unfinished, Nat.mul_succ]
      change _ + (rangeStats worldSize 0).steps.toNat + _ < _ at fewSteps
      omega
    · rw [part, ← Nat.add_assoc]
      exact fewBytes
  · rintro ⟨fewSteps, fewBytes⟩
    rw [chunksLeft_eq_succ chunk unfinished, Nat.mul_succ] at fewSteps
    rw [part, ← Nat.add_assoc] at fewBytes
    refine ⟨?_, fewBytes⟩
    rw [sum]
    change _ + (rangeStats worldSize 0).steps.toNat + _ < _
    omega

/-- Statistics that fit can be added chunk by chunk. -/
theorem StatsFit.adds {stats : CollectiveStats}
    (fits : StatsFit worldSize elementSize plan completed stats)
    (chunk : 0 < plan.chunkElements)
    (unfinished : completed < plan.elements) :
    ∃ total, addStats stats (rangeStats worldSize
      (chunkLength plan completed * elementSize)) = .ok total := by
  obtain ⟨steps, bytes⟩ := fits
  rw [chunksLeft_eq_succ chunk unfinished, Nat.mul_succ] at steps
  have part := Nat.mul_le_mul_right elementSize (chunkLength_le_rest plan completed)
  refine ⟨_, addStats_eq_ok_iff.mpr ⟨?_, ?_, rfl⟩⟩
  · change _ + (rangeStats worldSize 0).steps.toNat < _
    omega
  · change _ + chunkLength plan completed * elementSize < _
    omega

/-- All ranks stop with the same error, or all of them finish where `fits` holds. -/
def Alike (fits : Prop) (plan : ChunkedBroadcastPlan) (total completed : Nat)
    (buffers : Fin worldSize.toNat → DeviceBuffer elementSize)
    (source : Fin worldSize.toNat) (performed : List (Nat × Nat))
    (outcomes : Fin worldSize.toNat → Broadcasted elementSize) : Prop :=
  (¬fits ∧ ∃ failure, ∀ rank, (outcomes rank).result = .error (.failed failure)) ∨
    (fits ∧ Finished plan total completed buffers source performed outcomes)

/-- The chunks performed are the first ones of a cover. -/
def BeginsCover (plan : ChunkedBroadcastPlan) (completed : Nat)
    (performed : List (Nat × Nat)) : Prop :=
  ∃ later, Covers plan.chunkElements completed plan.elements (performed ++ later)

theorem broadcastChunks_finished
    (fit : ChunksFit worldSize elementSize elementType root plan buffers)
    {state : BroadcastProgress} {reports : List BroadcastProgress}
    {stats : CollectiveStats}
    (boundary : OnBoundary plan state)
    (finished : state.completedElements = plan.elements)
    (reported : reports.getLast? = some state) :
    Finished plan state.totalChunks state.completedElements buffers
      (rootRank fit.rooted) [] fun rank =>
        ⟨buffers rank, reports, .ok stats⟩ := by
  refine ⟨⟨stats, fun _ => rfl⟩, finished, fun rank => ?_,
    fun rank => ⟨state, reported, finished, ?_, rfl⟩⟩
  · have sized (member : Fin worldSize.toNat) :
        (buffers member).bytes.length = plan.elements * elementSize := by
      rw [(buffers member).sized, fit.lengths member]
    unfold suffixFrom
    rw [finished, List.take_of_length_le (sized rank).le,
      List.drop_of_length_le (sized (rootRank fit.rooted)).le,
      List.append_nil]
  · rcases boundary with ⟨_, chunks⟩ | ⟨unfinished, _⟩
    · exact chunks
    · omega

theorem statsFit_finished {stats : CollectiveStats} (finished : completed = plan.elements)
    (bounded : stats.transferredBytes < wordSize) :
    StatsFit worldSize elementSize plan completed stats := by
  have none : chunksLeft plan completed = 0 := by
    rw [chunksLeft, finished, Nat.sub_self, ChunkedBroadcastPlan.divCeil,
      Nat.zero_mod, if_pos rfl, Nat.zero_div]
  refine ⟨?_, ?_⟩
  · rw [none]
    exact stats.steps.toNat_lt
  · rw [finished, Nat.sub_self, Nat.zero_mul]
    exact bounded

/-- All ranks go through the loop together. -/
theorem broadcastChunks_lockstep {fuel : Nat}
    (fit : ChunksFit worldSize elementSize elementType root plan buffers)
    {state : BroadcastProgress} {reports : List BroadcastProgress}
    {stats : CollectiveStats} (boundary : OnBoundary plan state)
    (enough : plan.elements ≤ state.completedElements + fuel)
    (reported : reports.getLast? = some state)
    (bounded : stats.transferredBytes < wordSize)
    (small : chunkLength plan state.completedElements * elementSize ≤ maxFramePayloadBytes) :
    ∃ log performed outcomes, Lockstep (coordinate checksum uniqueId lost)
        (fun rank => broadcastChunks checksum (sessionOf uniqueId rank)
          elementType root plan fuel (buffers rank) state reports stats)
        log outcomes ∧
      List.Forall₂ (ChunkRequests checksum uniqueId elementType root) log performed ∧
      BeginsCover plan state.completedElements performed ∧
      Alike (StatsFit worldSize elementSize plan state.completedElements
          stats) plan state.totalChunks state.completedElements buffers
        (rootRank fit.rooted) performed outcomes := by
  have inside : state.completedElements ≤ plan.elements := by
    rcases boundary with ⟨finished, _⟩ | ⟨unfinished, _⟩ <;> omega
  induction fuel generalizing buffers state reports stats with
  | zero =>
      have finished : ¬state.completedElements < plan.elements := by omega
      simp only [broadcastChunks, if_neg finished]
      have done := @broadcastChunks_finished _ _ _ _ _ _ fit _ _ stats
        boundary (by omega) reported
      exact ⟨[], [], _, .done _, .nil, ⟨[], done.covers⟩,
        Or.inr ⟨statsFit_finished (by omega) bounded, done⟩⟩
  | succ fuel ih =>
      by_cases unfinished : state.completedElements < plan.elements
      case neg =>
        simp only [broadcastChunks, if_neg unfinished]
        have done := @broadcastChunks_finished _ _ _ _ _ _ fit _ _ stats
          boundary (by omega) reported
        exact ⟨[], [], _, .done _, .nil, ⟨[], done.covers⟩,
          Or.inr ⟨statsFit_finished (by omega) bounded, done⟩⟩
      have range := fit.range unfinished
      have positive := fit.chunkLength_pos unfinished
      have rest := chunkLength_le_rest plan state.completedElements
      have counted : chunkLength plan state.completedElements < wordSize :=
        by
          have fits := plan.fits.1
          omega
      have chunk := @RangeFits.broadcastAt_lockstep checksum uniqueId _ lost
        _ _ _ _ _ _ range counted small
      have descriptor := @chunkRequests_range checksum uniqueId worldSize elementType root
        (state.completedElements, chunkLength plan state.completedElements)
        (rootRange buffers root range.rooted state.completedElements
          (chunkLength plan state.completedElements))
      have limited : chunkLength plan state.completedElements ≤
          plan.chunkElements := Nat.min_le_left _ _
      simp only [broadcastChunks, if_pos unfinished]
      cases added : addStats stats (rangeStats worldSize
          (chunkLength plan state.completedElements * elementSize)) with
      | error failure =>
          -- the sums of all ranks overflow in the same round
          obtain ⟨later, covers⟩ := exists_covers fit.chunk
            (state.completedElements + chunkLength plan state.completedElements)
            (plan.elements - (state.completedElements + chunkLength plan state.completedElements))
          rw [Nat.add_sub_cancel' (by omega)] at covers
          refine ⟨_, [_], fun rank => ⟨chunkWritten plan buffers range rank,
            reports ++ [nextProgress plan state],
            .error (.failed failure)⟩, chunk.bind ?_,
            .cons descriptor .nil,
            ⟨later, rfl, positive, limited, covers⟩,
            Or.inl ⟨fun fits => ?_, failure, fun _ => rfl⟩⟩
          · simp only [added]
            exact .done _
          · obtain ⟨total, sum⟩ := fits.adds fit.chunk unfinished
            rw [added] at sum
            cases sum
      | ok total =>
          have next := boundary.next fit.chunk unfinished
          have continues := statsFit_next fit.chunk unfinished added
          obtain ⟨_, fewer, sum⟩ := addStats_eq_ok_iff.mp added
          have smaller := chunkLength_antitone plan
            (Nat.le_add_right state.completedElements (chunkLength plan state.completedElements))
          obtain ⟨log, performed, outcomes, lockstep, descriptors, ⟨later, covers⟩, alike⟩ := @ih
            (chunkWritten plan buffers range) (fit.written range)
            (nextProgress plan state) (reports ++ [nextProgress plan state])
            total next (by simp only [nextProgress]; omega)
            (by simp) (by rw [sum]; exact fewer)
            (le_trans (Nat.mul_le_mul_right elementSize smaller) small)
            (by simp only [nextProgress]; omega)
          refine ⟨_, _ :: performed, outcomes, chunk.bind ?_, .cons descriptor descriptors,
            ⟨later, rfl, positive, limited, covers⟩, ?_⟩
          · simp only [added]
            exact lockstep
          rcases alike with ⟨unfit, failed⟩ | ⟨fits, finished⟩
          · exact Or.inl ⟨fun fits => unfit (continues.mpr fits), failed⟩
          · refine Or.inr ⟨continues.mp fits, finished.result,
              ⟨rfl, positive, limited, finished.covers⟩, fun rank => ?_,
              finished.reported⟩
            rw [finished.bytes rank]
            exact suffixFrom_chunkWritten range rank

end Loop

/-! ## A chunk that is too large -/

section Oversize

variable {checksum : List UInt8 → UInt32} {uniqueId : UniqueId}
  {worldSize : UInt32} {lost : NetworkError} {elementSize : Nat}
  {elementType : ElementType} {root : UInt32} {plan : ChunkedBroadcastPlan}
  {buffers : Fin worldSize.toNat → DeviceBuffer elementSize}

/-- The error of each rank when the root cannot send its first chunk. -/
def oversizeError (lost : NetworkError) (root : UInt32) (bytes : Nat)
    (rank : Fin worldSize.toNat) : DeviceError :=
  if rank.val = root.toNat then
    .network (.protocol (.payloadTooLarge bytes))
  else .network lost

/-- The root does not send a chunk that is too large, and the others hear
nothing. -/
theorem broadcastChunks_too_large {fuel : Nat}
    (fit : ChunksFit worldSize elementSize elementType root plan buffers)
    {state : BroadcastProgress} {reports : List BroadcastProgress}
    {stats : CollectiveStats}
    (unfinished : state.completedElements < plan.elements)
    (large : maxFramePayloadBytes < chunkLength plan state.completedElements * elementSize) :
    ∃ log, execute (coordinate checksum uniqueId lost) (.error lost) 2
        (fun rank => broadcastChunks checksum (sessionOf uniqueId rank)
          elementType root plan (fuel + 1) (buffers rank) state reports
          stats) =
        some (log, fun rank => ⟨buffers rank, reports, .error (.failed
          (oversizeError lost root (chunkLength plan state.completedElements * elementSize)
            rank))⟩) ∧
      ∀ requests ∈ log, ∀ rank request, requests rank = some request → request.payload = [] := by
  have range := fit.range unfinished
  have oversize := fun rank => @RangeFits.broadcastAt_too_large checksum
    uniqueId _ _ _ _ _ _ _ range large rank
  have atRoot : (rootRank fit.rooted).val = root.toNat := rfl
  have executed := @execute_deserted (Fin worldSize.toNat) _ _ _ _
    (coordinate checksum uniqueId lost) (.error lost)
    (fun rank => broadcastChunks checksum (sessionOf uniqueId rank)
      elementType root plan (fuel + 1) (buffers rank) state reports stats)
    (rootRank fit.rooted)
    (fun rank => ⟨buffers rank, reports, .error (.failed
      (oversizeError lost root (chunkLength plan state.completedElements * elementSize) rank))⟩)
    (by
      simp only [broadcastChunks, if_pos unfinished]
      rw [(oversize _).1 atRoot]
      simp only [Dialogue.bind, oversizeError, if_pos atRoot])
    (by
      intro rank
      simp only [broadcastChunks, if_pos unfinished, oversizeError]
      by_cases root : rank.val = root.toNat
      · rw [(oversize rank).1 root, if_pos root]
        rfl
      · obtain ⟨request, _, asks⟩ := (oversize rank).2 root
        rw [asks, if_neg root]
        rfl)
  obtain ⟨log, executed, logged⟩ := executed
  refine ⟨log, executed, ?_⟩
  intro requests member rank request asked
  rw [logged requests member] at asked
  simp only [broadcastChunks, if_pos unfinished] at asked
  by_cases root : rank.val = root.toNat
  · rw [(oversize rank).1 root] at asked
    cases asked
  · obtain ⟨sent, empty, asks⟩ := (oversize rank).2 root
    rw [asks] at asked
    simp only [Dialogue.bind, Dialogue.request?, Option.some.injEq] at asked
    rw [← asked]
    exact empty

end Oversize

/-- The chunk that a request is for. -/
def chunkOf (request : Frame) : Option (Nat × Nat) :=
  if request.header.opcode = .broadcast then
    some (request.header.tag.toNat, request.header.elementCount.toNat)
  else none

/-- The chunk broadcasts that a rank performs. -/
def chunksOf {worldSize : UInt32} (log : List (Fin worldSize.toNat → Option Frame))
    (rank : Fin worldSize.toNat) : List (Nat × Nat) :=
  log.filterMap fun requests => (requests rank).bind chunkOf

section Broadcast

variable {checksum : List UInt8 → UInt32} {uniqueId : UniqueId}
  {worldSize : UInt32} {lost : NetworkError} {elementSize : Nat}
  {elementType : ElementType} {root : UInt32} {plan : ChunkedBroadcastPlan}

/-- Every rank ends with an error, and no payload has been broadcast. -/
structure NothingSent (arguments : Fin worldSize.toNat → BroadcastArguments elementSize)
    (log : List (Fin worldSize.toNat → Option Frame))
    (outcomes : Fin worldSize.toNat → Broadcasted elementSize) : Prop where
  refused : ∀ rank, ∃ failure, (outcomes rank).result = .error (.failed failure)
  untouched : ∀ rank, (outcomes rank).buffer = (arguments rank).buffer
  unsent : ∀ requests ∈ log, ∀ rank request, requests rank = some request →
    request.header.opcode = .broadcast → request.payload = []

/-- What a rank has when it succeeds. -/
structure BroadcastExact (arguments : Fin worldSize.toNat → BroadcastArguments elementSize)
    (performed : List (Nat × Nat))
    (outcomes : Fin worldSize.toNat → Broadcasted elementSize)
    (rank : Fin worldSize.toNat) : Prop where
  succeeded : ∃ stats, (outcomes rank).result = .ok stats
  covers : Covers (arguments rank).plan.chunkElements
    (arguments rank).restored (arguments rank).plan.elements performed
  kept : (outcomes rank).buffer.bytes.take ((arguments rank).restored * elementSize) =
    (arguments rank).buffer.bytes.take ((arguments rank).restored * elementSize)
  copied : ∃ source, source.val = (arguments rank).root.toNat ∧ (outcomes rank).buffer.bytes.drop
        ((arguments rank).restored * elementSize) =
      (arguments source).buffer.bytes.drop ((arguments rank).restored * elementSize)
  counted : ∃ last, (outcomes rank).reports.getLast? = some last ∧
    last.completedElements = (arguments rank).plan.elements ∧
    last.completedChunks = last.totalChunks ∧
    (arguments rank).plan.chunkCount = .ok last.totalChunks

/-- All ranks perform the same chunk broadcasts and end alike. -/
structure BroadcastTogether (arguments : Fin worldSize.toNat → BroadcastArguments elementSize)
    (log : List (Fin worldSize.toNat → Option Frame))
    (outcomes : Fin worldSize.toNat → Broadcasted elementSize)
    (performed : List (Nat × Nat)) : Prop where
  performs : ∀ rank, chunksOf log rank = performed
  begins : ∀ rank, ∃ later, Covers (arguments rank).plan.chunkElements
    (arguments rank).restored (arguments rank).plan.elements
    (performed ++ later)
  ends : (∃ failure, ∀ rank, (outcomes rank).result = .error (.failed failure)) ∨
    ∀ rank, BroadcastExact arguments performed outcomes rank

theorem Covers.le {limit start stop : Nat} {chunks : List (Nat × Nat)}
    (covers : Covers limit start stop chunks) : start ≤ stop := by
  induction chunks generalizing start with
  | nil => exact Nat.le_of_eq covers
  | cons chunk later ih =>
      have rest := ih covers.2.2.2
      omega

theorem Covers.inside {limit start stop : Nat} {chunks : List (Nat × Nat)}
    (covers : Covers limit start stop chunks) :
    ∀ chunk ∈ chunks, chunk.1 ≤ stop ∧ chunk.2 ≤ stop := by
  induction chunks generalizing start with
  | nil => exact nofun
  | cons first later ih =>
      obtain ⟨offset, _, _, rest⟩ := covers
      have behind := Covers.le rest
      intro chunk member
      rcases List.mem_cons.mp member with rfl | member
      · omega
      · exact ih rest chunk member

theorem ChunkRequests.chunkOf_eq {requests : Fin worldSize.toNat → Frame} {chunk : Nat × Nat}
    (asked : ChunkRequests checksum uniqueId elementType root requests chunk)
    (offset : chunk.1 < wordSize) (length : chunk.2 < wordSize)
    (rank : Fin worldSize.toNat) :
    chunkOf (requests rank) = some chunk := by
  obtain ⟨payload, rfl⟩ := asked
  have tag : (UInt64.ofNat chunk.1).toNat = chunk.1 := UInt64.toNat_ofNat_of_lt' offset
  have count : (UInt64.ofNat chunk.2).toNat = chunk.2 := UInt64.toNat_ofNat_of_lt' length
  unfold chunkOf rangeRequests
  rw [requestFrames_opcode, if_pos rfl, requestFrames_tag, requestFrames_count, tag, count]

/-- The requests of a rank tell its chunks. -/
theorem chunksOf_chunkRequests {log : List (Fin worldSize.toNat → Frame)}
    {performed : List (Nat × Nat)}
    (asked : List.Forall₂ (ChunkRequests checksum uniqueId elementType root) log performed)
    (inside : ∀ chunk ∈ performed, chunk.1 < wordSize ∧ chunk.2 < wordSize)
    (rank : Fin worldSize.toNat) :
    chunksOf (log.map fun requests rank => some (requests rank)) rank =
      performed := by
  induction asked with
  | nil => rfl
  | cons first _ ih =>
      have fits := inside _ List.mem_cons_self
      have later := ih fun chunk member =>
        inside chunk (List.mem_cons_of_mem _ member)
      unfold chunksOf at later ⊢
      rw [List.map_cons, List.filterMap_cons, Option.bind_some,
        first.chunkOf_eq fits.1 fits.2 rank, later]

/-- What a rank does behind the agreement. -/
def BroadcastArguments.proceed (arguments : BroadcastArguments elementSize)
    (checksum : List UInt8 → UInt32) (session : Session) :
    Except DeviceError CollectiveStats → Exchanging (Broadcasted elementSize)
  | .error failure => .done ⟨arguments.buffer, [], .error (.failed failure)⟩
  | .ok stats =>
      match checkArguments session arguments.elementType arguments.root
        arguments.plan arguments.buffer arguments.restored with
      | .error failure => .done ⟨arguments.buffer, [], .error (.failed failure)⟩
      | .ok totalChunks =>
          broadcastChunks checksum session arguments.elementType arguments.root arguments.plan
            (arguments.plan.elements - arguments.restored) arguments.buffer
            (restoredProgress arguments.plan arguments.restored totalChunks)
            [restoredProgress arguments.plan arguments.restored totalChunks]
            stats

theorem BroadcastArguments.broadcast_eq
    (arguments : BroadcastArguments elementSize) (session : Session) :
    arguments.broadcast checksum session = (agreeOnPlan checksum session arguments.payload 7).bind
        (arguments.proceed checksum session) :=
  rfl

/-- The agreement broadcasts nothing. -/
theorem agreementRequests_opcode
    (arguments : Fin worldSize.toNat → BroadcastArguments elementSize)
    (rank : Fin worldSize.toNat) :
    (agreementRequests checksum uniqueId arguments rank).header.opcode =
      .allGather :=
  requestFrames_opcode rank

theorem chunkOf_agreement (arguments : Fin worldSize.toNat → BroadcastArguments elementSize)
    (rank : Fin worldSize.toNat) :
    chunkOf (agreementRequests checksum uniqueId arguments rank) = none := by
  rw [chunkOf, if_neg]
  rw [agreementRequests_opcode]
  exact nofun

/-- Ranks that refuse behind the agreement have sent nothing. -/
theorem nothingSent_of_refused {arguments : Fin worldSize.toNat → BroadcastArguments elementSize}
    {failures : Fin worldSize.toNat → DeviceError}
    {later : List (Fin worldSize.toNat → Option Frame)}
    {reports : Fin worldSize.toNat → List BroadcastProgress}
    (unsent : ∀ requests ∈ later, ∀ rank request,
      requests rank = some request → request.payload = []) :
    NothingSent arguments
      ((fun rank => some (agreementRequests checksum uniqueId arguments rank)) :: later)
      (fun rank => ⟨(arguments rank).buffer, reports rank,
        .error (.failed (failures rank))⟩) := by
  refine ⟨fun rank => ⟨_, rfl⟩, fun rank => rfl, ?_⟩
  intro requests member rank request asked broadcast
  rcases List.mem_cons.mp member with rfl | member
  · cases asked
    rw [agreementRequests_opcode] at broadcast
    cases broadcast
  · exact unsent requests member rank request asked

/-- The restored prefix ends at a boundary. -/
theorem CheckedArguments.onBoundary {total : Nat} {arguments : BroadcastArguments elementSize}
    (checked : CheckedArguments worldSize arguments total) :
    OnBoundary arguments.plan (restoredProgress arguments.plan arguments.restored total) := by
  unfold OnBoundary restoredProgress
  by_cases whole : arguments.restored = arguments.plan.elements
  · left
    simp only [if_pos whole]
    exact ⟨whole, checked.total⟩
  · right
    simp only [if_neg whole]
    have multiple := checked.boundary.resolve_left whole
    have inside := checked.restored
    exact ⟨by omega,
      (Nat.div_mul_cancel (Nat.dvd_of_mod_eq_zero multiple)).symm⟩

theorem CheckedArguments.fit {total : Nat}
    {arguments : Fin worldSize.toNat → BroadcastArguments elementSize}
    {first : Fin worldSize.toNat}
    (checked : CheckedArguments worldSize (arguments first) total)
    (alike : ∀ rank, SameArguments (arguments rank) (arguments first)) :
    ChunksFit worldSize elementSize (arguments first).elementType
      (arguments first).root (arguments first).plan
      fun rank => (arguments rank).buffer := by
  refine ⟨checked.rooted, ?_, checked.width, checked.chunk,
    fun rank => (alike rank).length.trans checked.length,
    lt_of_le_of_lt checked.bytes (by decide)⟩
  intro untyped
  have width := checked.width
  rw [untyped] at width
  exact checked.nonempty width.symm

/-- Behind the checks all ranks are in the loop of the first one. -/
theorem proceed_agreed {total : Nat} {stats : CollectiveStats}
    {arguments : Fin worldSize.toNat → BroadcastArguments elementSize}
    {results : Fin worldSize.toNat → Except DeviceError CollectiveStats}
    {first : Fin worldSize.toNat}
    (alike : ∀ rank, SameArguments (arguments rank) (arguments first))
    (agreed : ∀ rank, results rank = .ok stats)
    (checked : checkArguments (sessionOf uniqueId first)
      (arguments first).elementType (arguments first).root
      (arguments first).plan (arguments first).buffer
      (arguments first).restored = .ok total)
    (rank : Fin worldSize.toNat) :
    (arguments rank).proceed checksum (sessionOf uniqueId rank) (results rank) =
      broadcastChunks checksum (sessionOf uniqueId rank)
        (arguments first).elementType (arguments first).root
        (arguments first).plan
        ((arguments first).plan.elements - (arguments first).restored)
        (arguments rank).buffer
        (restoredProgress (arguments first).plan (arguments first).restored total)
        [restoredProgress (arguments first).plan (arguments first).restored total] stats := by
  have same := alike rank
  have passed := (checkArguments_same same rank first).trans checked
  simp only [agreed rank, BroadcastArguments.proceed, passed]
  rw [same.elementType, same.root, same.plan, same.restored]

/-- Ranks that go through the loop together broadcast together. -/
theorem broadcastTogether_of_alike {total : Nat}
    {arguments : Fin worldSize.toNat → BroadcastArguments elementSize}
    {first : Fin worldSize.toNat}
    (alike : ∀ rank, SameArguments (arguments rank) (arguments first))
    (checked : CheckedArguments worldSize (arguments first) total)
    {log : List (Fin worldSize.toNat → Frame)}
    {performed : List (Nat × Nat)}
    {outcomes : Fin worldSize.toNat → Broadcasted elementSize}
    (asked : List.Forall₂ (ChunkRequests checksum uniqueId
      (arguments first).elementType (arguments first).root) log performed)
    (begins : BeginsCover (arguments first).plan (arguments first).restored performed)
    {fits : Prop} (ended : Alike fits (arguments first).plan total
      (arguments first).restored (fun rank => (arguments rank).buffer)
      (rootRank checked.rooted) performed outcomes) :
    BroadcastTogether arguments
      (((agreementRequests checksum uniqueId arguments) :: log).map
        fun requests rank => some (requests rank)) outcomes performed := by
  obtain ⟨later, covers⟩ := begins
  have word := (arguments first).plan.fits.1
  refine ⟨fun rank => ?_, fun rank => ⟨later, ?_⟩, ?_⟩
  · have performs := chunksOf_chunkRequests asked (fun chunk member => by
      have inside := covers.inside chunk (List.mem_append_left later member)
      omega) rank
    unfold chunksOf at performs ⊢
    rw [List.map_cons, List.filterMap_cons, Option.bind_some, chunkOf_agreement, performs]
  · rw [(alike rank).plan, (alike rank).restored]
    exact covers
  rcases ended with ⟨_, failed⟩ | ⟨_, finished⟩
  · exact Or.inl failed
  refine Or.inr fun rank => ?_
  have same := alike rank
  have restored : (arguments rank).restored * elementSize ≤
      (arguments rank).buffer.bytes.length := by
    rw [(arguments rank).buffer.sized, same.length, checked.length, same.restored]
    exact Nat.mul_le_mul_right elementSize checked.restored
  have front : ((arguments rank).buffer.bytes.take
      ((arguments rank).restored * elementSize)).length =
        (arguments rank).restored * elementSize := by
    rw [List.length_take, Nat.min_eq_left restored]
  have bytes := finished.bytes rank
  unfold suffixFrom at bytes
  rw [← same.restored] at bytes
  obtain ⟨stats, succeeded⟩ := finished.result
  refine ⟨⟨stats, succeeded rank⟩, ?_, ?_, ⟨rootRank checked.rooted, ?_, ?_⟩, ?_⟩
  · rw [same.plan, same.restored]
    exact finished.covers
  · rw [bytes, List.take_append_of_le_length (by rw [front]),
      List.take_take, Nat.min_self]
  · rw [same.root]
    rfl
  · rw [bytes]
    nth_rewrite 1 [← front]
    exact List.drop_left
  · obtain ⟨last, reported, elements, chunks, totals⟩ := finished.reported rank
    refine ⟨last, reported, ?_, ?_, ?_⟩
    · rw [elements, same.plan]
    · rw [chunks, totals, checked.total]
    · rw [same.plan, checked.counted, totals]

/-- The agreement, and what follows it. -/
theorem execute_broadcast [Nonempty (Fin worldSize.toNat)]
    {arguments : Fin worldSize.toNat → BroadcastArguments elementSize}
    {results : Fin worldSize.toNat → Except DeviceError CollectiveStats}
    {fuel : Nat} {later : List (Fin worldSize.toNat → Option Frame)}
    {outcomes : Fin worldSize.toNat → Broadcasted elementSize}
    (agreement : Lockstep (coordinate checksum uniqueId lost)
      (fun rank => agreeOnPlan checksum (sessionOf uniqueId rank) (arguments rank).payload 7)
      [agreementRequests checksum uniqueId arguments] results)
    (executed : execute (coordinate checksum uniqueId lost) (.error lost)
      fuel (fun rank => (arguments rank).proceed checksum
        (sessionOf uniqueId rank) (results rank)) =
      some (later, outcomes)) :
    ∃ fuel, execute (coordinate checksum uniqueId lost) (.error lost) fuel
      (fun rank => (arguments rank).broadcast checksum (sessionOf uniqueId rank)) =
      some ((fun rank => some (agreementRequests checksum uniqueId arguments
        rank)) :: later, outcomes) := by
  rw [funext fun rank => BroadcastArguments.broadcast_eq (arguments rank)
    (sessionOf uniqueId rank)]
  exact agreement.execute_bind executed

/-- What lets all ranks succeed: they agree, the checks pass, the first chunk fits a
frame, and the steps can be counted. -/
structure Broadcastable (uniqueId : UniqueId)
    (arguments : Fin worldSize.toNat → BroadcastArguments elementSize) :
    Prop where
  agreeing : Agreeing arguments
  checked : ∀ rank, ∃ total, checkArguments (sessionOf uniqueId rank)
    (arguments rank).elementType (arguments rank).root (arguments rank).plan
    (arguments rank).buffer (arguments rank).restored = .ok total
  small : ∀ rank, chunkLength (arguments rank).plan
    (arguments rank).restored * elementSize ≤ maxFramePayloadBytes
  steps : ∀ rank, worldSize.toNat = 1 ∨ worldSize.toNat - 1 +
    chunksLeft (arguments rank).plan (arguments rank).restored < 2 ^ 32

/-- Behind the agreement only the steps can be too many. -/
theorem statsFit_gathered {completed : Nat} (positive : 0 < worldSize.toNat)
    (small : worldSize.toNat * 56 ≤ maxFramePayloadBytes)
    (bytes : plan.elements * elementSize ≤ isizeLimit) :
    StatsFit worldSize elementSize plan completed (gatherStats worldSize 56) ↔
      worldSize.toNat = 1 ∨ worldSize.toNat - 1 + chunksLeft plan completed < 2 ^ 32 := by
  have others : (worldSize - 1).toNat = worldSize.toNat - 1 :=
    UInt32.toNat_sub_of_le _ _ (UInt32.le_iff_toNat_le.mpr positive)
  have rest := Nat.mul_le_mul_right elementSize (Nat.sub_le plan.elements completed)
  have fitting : 56 + 56 * worldSize.toNat +
      (plan.elements - completed) * elementSize < wordSize := by
    unfold maxFramePayloadBytes at small
    unfold isizeLimit at bytes
    unfold wordSize
    omega
  have each : (rangeStats worldSize 0).steps.toNat =
      if 1 < worldSize.toNat then 1 else 0 := by
    change (if worldSize > 1 then (1 : UInt32) else 0).toNat = _
    have many : worldSize > 1 ↔ 1 < worldSize.toNat := UInt32.lt_iff_toNat_lt
    by_cases several : 1 < worldSize.toNat
    · rw [if_pos several, if_pos (many.mpr several)]
      rfl
    · rw [if_neg several, if_neg (mt many.mp several)]
      rfl
  have world := worldSize.toNat_lt
  constructor
  · rintro ⟨steps, _⟩
    change (worldSize - 1).toNat + _ < _ at steps
    rw [others, each] at steps
    by_cases several : 1 < worldSize.toNat
    · rw [if_pos several, Nat.one_mul] at steps
      exact Or.inr steps
    · exact Or.inl (by omega)
  · intro few
    refine ⟨?_, fitting⟩
    change (worldSize - 1).toNat + _ < _
    rw [others, each]
    by_cases several : 1 < worldSize.toNat
    · rw [if_pos several, Nat.one_mul]
      exact few.resolve_left (by omega)
    · rw [if_neg several, Nat.zero_mul]
      omega

/-- With these outcomes all ranks broadcast, or none does. -/
def AllOrNothing (checksum : List UInt8 → UInt32) (uniqueId : UniqueId) (lost : NetworkError)
    (arguments : Fin worldSize.toNat → BroadcastArguments elementSize) :
    Prop :=
  ∃ log outcomes,
    (∃ fuel, execute (coordinate checksum uniqueId lost) (.error lost) fuel
      (fun rank => (arguments rank).broadcast checksum
        (sessionOf uniqueId rank)) = some (log, outcomes)) ∧
    (NothingSent arguments log outcomes ∨
      ∃ performed, BroadcastTogether arguments log outcomes performed) ∧
    ((∀ rank, ∃ stats, (outcomes rank).result = .ok stats) ↔ Broadcastable uniqueId arguments)

/-- Ranks that fail do not succeed. -/
theorem all_failed [nonempty : Nonempty (Fin worldSize.toNat)]
    {outcomes : Fin worldSize.toNat → Broadcasted elementSize}
    (failed : ∀ rank, ∃ failure, (outcomes rank).result = .error (.failed failure)) :
    ¬∀ rank, ∃ stats, (outcomes rank).result = .ok stats := by
  intro all
  obtain ⟨rank⟩ := nonempty
  obtain ⟨_, failure⟩ := failed rank
  obtain ⟨_, success⟩ := all rank
  rw [failure] at success
  cases success

/-- Every rank refuses right behind the agreement. -/
theorem allOrNothing_of_refused [Nonempty (Fin worldSize.toNat)]
    {arguments : Fin worldSize.toNat → BroadcastArguments elementSize}
    {results : Fin worldSize.toNat → Except DeviceError CollectiveStats}
    {failures : Fin worldSize.toNat → DeviceError}
    (agreement : Lockstep (coordinate checksum uniqueId lost)
      (fun rank => agreeOnPlan checksum (sessionOf uniqueId rank) (arguments rank).payload 7)
      [agreementRequests checksum uniqueId arguments] results)
    (unfit : ¬Broadcastable uniqueId arguments)
    (refused : ∀ rank, (arguments rank).proceed checksum
        (sessionOf uniqueId rank) (results rank) =
      .done ⟨(arguments rank).buffer, [], .error (.failed (failures rank))⟩) :
    AllOrNothing checksum uniqueId lost arguments := by
  have executed : execute (coordinate checksum uniqueId lost) (.error lost)
      1 (fun rank => (arguments rank).proceed checksum (sessionOf uniqueId rank) (results rank)) =
      some ([], fun rank => ⟨(arguments rank).buffer, [], .error (.failed (failures rank))⟩) := by
    rw [funext refused]
    exact execute_done _ 0
  refine ⟨_, _, execute_broadcast agreement executed,
    Or.inl (nothingSent_of_refused nofun), iff_of_false ?_ unfit⟩
  exact fun all => all_failed (fun rank => ⟨_, rfl⟩) all

section Checked

variable [Nonempty (Fin worldSize.toNat)]
  {arguments : Fin worldSize.toNat → BroadcastArguments elementSize}
  {results : Fin worldSize.toNat → Except DeviceError CollectiveStats}
  {first : Fin worldSize.toNat} {total : Nat}
  (agreement : Lockstep (coordinate checksum uniqueId lost)
    (fun rank => agreeOnPlan checksum (sessionOf uniqueId rank) (arguments rank).payload 7)
    [agreementRequests checksum uniqueId arguments] results)
  (agreed : ∀ rank, results rank = .ok (gatherStats worldSize 56))
  (agreeing : Agreeing arguments)
  (passed : checkArguments (sessionOf uniqueId first)
    (arguments first).elementType (arguments first).root
    (arguments first).plan (arguments first).buffer
    (arguments first).restored = .ok total)

include agreement agreed agreeing passed

/-- The loop runs when its first chunk fits a frame. -/
theorem allOrNothing_of_small (small : chunkLength (arguments first).plan
      (arguments first).restored * elementSize ≤ maxFramePayloadBytes) :
    AllOrNothing checksum uniqueId lost arguments := by
  have alike (rank : Fin worldSize.toNat) := agreeing.same rank first
  have checked := checkArguments_ok passed
  have steps := @statsFit_gathered worldSize elementSize
    (arguments first).plan (arguments first).restored
    (Nat.zero_lt_of_lt first.isLt) agreeing.small checked.bytes
  have bounded : (gatherStats worldSize 56).transferredBytes < wordSize := by
    have small := agreeing.small
    change 56 + 56 * worldSize.toNat < wordSize
    unfold maxFramePayloadBytes at small
    unfold wordSize
    omega
  have inside := checked.restored
  obtain ⟨log, performed, outcomes, lockstep, asked, begins, ended⟩ :=
    @broadcastChunks_lockstep checksum uniqueId worldSize lost elementSize
      (arguments first).elementType (arguments first).root
      (arguments first).plan (fun rank => (arguments rank).buffer)
      ((arguments first).plan.elements - (arguments first).restored)
      (checked.fit alike)
      (restoredProgress (arguments first).plan (arguments first).restored
        total) _ (gatherStats worldSize 56) checked.onBoundary
      (by simp only [restoredProgress]; omega) List.getLast?_singleton
      bounded small
  obtain ⟨fuel, executed⟩ := @Lockstep.executes _ _ _ _ _ _ (.error lost) _ _ _ _ lockstep
  rw [← funext (proceed_agreed alike agreed passed)] at executed
  refine ⟨_, _, execute_broadcast agreement executed, Or.inr ⟨performed,
    broadcastTogether_of_alike alike checked asked begins ended⟩, ?_⟩
  rcases ended with ⟨unfit, failure, failed⟩ | ⟨fits, finished⟩
  · refine iff_of_false (all_failed fun rank => ⟨failure, failed rank⟩) ?_
    exact fun broadcastable =>
      unfit (steps.mpr (broadcastable.steps first))
  · obtain ⟨stats, succeeded⟩ := finished.result
    refine iff_of_true (fun rank => ⟨stats, succeeded rank⟩)
      ⟨agreeing, fun rank => ⟨total, ?_⟩, fun rank => ?_, fun rank => ?_⟩
    · exact (checkArguments_same (alike rank) rank first).trans passed
    · rw [(alike rank).plan, (alike rank).restored]
      exact small
    · rw [(alike rank).plan, (alike rank).restored]
      exact steps.mp fits

/-- No frame carries a larger first chunk. -/
theorem allOrNothing_of_large (large : maxFramePayloadBytes <
      chunkLength (arguments first).plan (arguments first).restored * elementSize) :
    AllOrNothing checksum uniqueId lost arguments := by
  have alike (rank : Fin worldSize.toNat) := agreeing.same rank first
  have fit := (checkArguments_ok passed).fit alike
  have unfinished : (arguments first).restored < (arguments first).plan.elements := by
    by_contra finished
    have rest := chunkLength_le_rest (arguments first).plan (arguments first).restored
    have none : chunkLength (arguments first).plan (arguments first).restored = 0 := by omega
    rw [none, Nat.zero_mul] at large
    exact Nat.not_lt_zero _ large
  obtain ⟨fuel, remaining⟩ := Nat.exists_eq_add_of_lt unfinished
  have loopFuel : (arguments first).plan.elements -
      (arguments first).restored = fuel + 1 := by omega
  obtain ⟨log, executed, unsent⟩ := @broadcastChunks_too_large checksum
    uniqueId worldSize lost elementSize (arguments first).elementType
    (arguments first).root (arguments first).plan
    (fun rank => (arguments rank).buffer) fuel fit
    (restoredProgress (arguments first).plan (arguments first).restored total)
    [restoredProgress (arguments first).plan (arguments first).restored
      total] (gatherStats worldSize 56) unfinished large
  rw [← loopFuel, ← funext (proceed_agreed alike agreed passed)] at executed
  refine ⟨_, _, execute_broadcast agreement executed, Or.inl (nothingSent_of_refused unsent),
    iff_of_false (all_failed fun rank => ⟨_, rfl⟩) ?_⟩
  exact fun broadcastable => not_le.mpr large (broadcastable.small first)

/-- Every rank passes the checks. -/
theorem allOrNothing_of_checked : AllOrNothing checksum uniqueId lost arguments :=
  (le_or_gt _ _).elim (allOrNothing_of_small agreement agreed agreeing passed)
    (allOrNothing_of_large agreement agreed agreeing passed)

end Checked

/-- A group of ranks broadcasts, or does not. -/
theorem allOrNothing [nonempty : Nonempty (Fin worldSize.toNat)]
    (arguments : Fin worldSize.toNat → BroadcastArguments elementSize) :
    AllOrNothing checksum uniqueId lost arguments := by
  have first := Classical.choice nonempty
  obtain ⟨results, agreement, agreed⟩ := @agreeOnPlan_lockstep checksum
    uniqueId worldSize lost elementSize arguments
    (Nat.zero_lt_of_lt first.isLt)
  rcases agreed with ⟨apart, refused⟩ | ⟨agreeing, agreed⟩
  · choose failures refused using refused
    refine @allOrNothing_of_refused _ _ _ _ _ _ _ _ failures agreement
      (fun broadcastable => apart broadcastable.agreeing) fun rank => ?_
    rw [refused rank]
    rfl
  · cases passed : checkArguments (sessionOf uniqueId first)
      (arguments first).elementType (arguments first).root
      (arguments first).plan (arguments first).buffer
      (arguments first).restored with
    | error failure =>
        refine @allOrNothing_of_refused _ _ _ _ _ _ _ _ (fun _ => failure)
          agreement (fun broadcastable => ?_) fun rank => ?_
        · obtain ⟨total, checked⟩ := broadcastable.checked first
          rw [passed] at checked
          cases checked
        · have fails := (checkArguments_same (agreeing.same rank first) rank
            first).trans passed
          rw [agreed rank]
          simp only [BroadcastArguments.proceed, fails]
    | ok total => exact allOrNothing_of_checked agreement agreed agreeing passed

/-- All ranks succeed exactly where their arguments allow it. -/
theorem broadcastChunked_succeeds_iff (positive : 0 < worldSize.toNat)
    {arguments : Fin worldSize.toNat → BroadcastArguments elementSize}
    {fuel : Nat} {log : List (Fin worldSize.toNat → Option Frame)}
    {outcomes : Fin worldSize.toNat → Broadcasted elementSize}
    (executed : execute (coordinate checksum uniqueId lost) (.error lost) fuel
      (fun rank => (arguments rank).broadcast checksum
        (sessionOf uniqueId rank)) = some (log, outcomes)) :
    (∀ rank, ∃ stats, (outcomes rank).result = .ok stats) ↔
      Broadcastable uniqueId arguments := by
  have nonempty : Nonempty (Fin worldSize.toNat) := ⟨⟨0, positive⟩⟩
  obtain ⟨_, _, ⟨enough, ran⟩, _, succeeds⟩ := @allOrNothing checksum uniqueId
    worldSize lost elementSize nonempty arguments
  have first := execute_mono executed (Nat.le_max_left fuel enough)
  have second := execute_mono ran (Nat.le_max_right fuel enough)
  rw [first] at second
  cases second
  exact succeeds

/-- Every run ends, and either all ranks end with an error before anything has
been broadcast, or they perform the same chunk broadcasts and end alike. -/
theorem broadcastChunked_all_or_nothing (checksum : List UInt8 → UInt32) (uniqueId : UniqueId)
    (lost : NetworkError)
    (arguments : Fin worldSize.toNat → BroadcastArguments elementSize) :
    ∃ log outcomes,
      (∃ fuel, ∀ more, fuel ≤ more →
        execute (coordinate checksum uniqueId lost) (.error lost) more
          (fun rank => (arguments rank).broadcast checksum
            (sessionOf uniqueId rank)) = some (log, outcomes)) ∧
      (NothingSent arguments log outcomes ∨
        ∃ performed, BroadcastTogether arguments log outcomes performed) := by
  by_cases positive : 0 < worldSize.toNat
  case neg =>
    have nobody : IsEmpty (Fin worldSize.toNat) :=
      ⟨fun rank => positive (Nat.zero_lt_of_lt rank.isLt)⟩
    refine ⟨[], fun rank => nobody.elim rank, ⟨1, fun more enough => ?_⟩,
      Or.inl ⟨fun rank => nobody.elim rank, fun rank => nobody.elim rank, nofun⟩⟩
    have silent : (fun rank => (arguments rank).broadcast checksum (sessionOf uniqueId rank)) =
        fun rank => .done (nobody.elim rank) :=
      funext fun rank => nobody.elim rank
    rw [silent]
    exact execute_mono (execute_done _ 0) enough
  have nonempty : Nonempty (Fin worldSize.toNat) := ⟨⟨0, positive⟩⟩
  obtain ⟨log, outcomes, ⟨fuel, executed⟩, ended, _⟩ :=
    @allOrNothing checksum uniqueId worldSize lost elementSize nonempty arguments
  exact ⟨log, outcomes, ⟨fuel, fun more enough => execute_mono executed enough⟩, ended⟩

end Broadcast

end RuCCL.Rank
