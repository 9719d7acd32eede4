import RuCCL.Library.Rendezvous
import RuCCL.Rank.CollectiveLoop
import RuCCL.Rank.CollectiveLoopCorrect
import RuCCL.Rank.PlanAgreement

/-!
# Exchanges of a group of ranks

The ranks of a group meet at the coordinator: it waits for one request of each
rank and answers all of them, or none.  A rank that gets no answer, because the
coordinator aborts or because another rank never asks, ends its exchange with an
error of its own, an abort or a timeout.  Sequence numbers only say which
requests belong together and stay at zero here.
-/

namespace RuCCL.Rank

open RuCCL.Library

/-- One rank's handle on its group. -/
structure Session where
  uniqueId : UniqueId
  rank : UInt32
  worldSize : UInt32

/-- What a rank does with its group. -/
abbrev Exchanging := Dialogue Frame (Except NetworkError Frame)

section Session

variable (checksum : List UInt8 → UInt32)

/-- A request that cannot be built is not sent. -/
def Session.exchangeWithOptions (session : Session) (opcode : Opcode)
    (elementType : ElementType) (options : ExchangeOptions)
    (payload : List UInt8) : Exchanging (Except NetworkError Frame) :=
  let call := Call.exchange opcode elementType options payload
  match call.request checksum session.uniqueId session.rank session.worldSize 0 with
  | .error failure => .done (.error (.protocol failure))
  | .ok request =>
      .ask request fun
        | .error failure => .done (.error failure)
        | .ok response =>
            .done ((call.finish session.uniqueId session.rank
              session.worldSize 0 response).map Prod.snd)

def Session.exchange (session : Session) (opcode : Opcode)
    (elementType : ElementType) (rootRank : UInt32) (elementCount : UInt64)
    (payload : List UInt8) : Exchanging (Except NetworkError Frame) :=
  session.exchangeWithOptions checksum opcode elementType ⟨rootRank, elementCount, 0, 0⟩ payload

variable (uniqueId : UniqueId) {worldSize : UInt32} (lost : NetworkError)

/-- The sessions of a group. -/
def sessionOf (rank : Fin worldSize.toNat) : Session := ⟨uniqueId, UInt32.ofNat rank, worldSize⟩

/-- The answers of the coordinator to one request of each rank; `lost` is what a
rank reports when there is none. -/
def coordinate (requests : Fin worldSize.toNat → Frame)
    (rank : Fin worldSize.toNat) : Except NetworkError Frame :=
  match (validateAndRoute checksum ⟨worldSize.toNat, 0, fun _ => none⟩
    uniqueId 0 (List.ofFn requests)).2 with
  | .error _ => .error lost
  | .ok responses => okOr responses[rank.val]? lost

end Session

section Frames

variable {checksum : List UInt8 → UInt32}

/-- A header without flags and payload whose ranks are in the world; without an
element type it counts no elements. -/
structure PlainHeader (checksum : List UInt8 → UInt32) (header : FrameHeader) : Prop where
  flags : header.flags = 0
  payloadBytes : header.payloadBytes = 0
  payloadChecksum : header.payloadChecksum = checksum []
  typed : header.elementType = .none → header.elementCount = 0
  source : header.sourceRank < header.worldSize
  destination : header.destinationRank = anyRank ∨ header.destinationRank < header.worldSize
  root : header.rootRank = anyRank ∨ header.rootRank < header.worldSize

theorem PlainHeader.world_ne_zero {header : FrameHeader}
    (plain : PlainHeader checksum header) : header.worldSize ≠ 0 := by
  intro zero
  have source := plain.source
  rw [zero] at source
  exact UInt32.not_lt_zero source

/-- A frame of such a header without a payload. -/
theorem PlainHeader.new_nil {header : FrameHeader} (plain : PlainHeader checksum header) :
    Frame.new checksum header [] = .ok ⟨header, []⟩ := by
  have world := plain.world_ne_zero
  have explained : header.validateElementLength = .ok () := by
    unfold FrameHeader.validateElementLength
    split
    case isTrue none => simp [rejectIf, plain.typed none, plain.payloadBytes]
    case isFalse => simp [plain.flags]
  have valid : header.validate checksum (some []) = .ok () := by
    simp [FrameHeader.validate, FrameHeader.validateHeader, rejectIf,
      plain.flags, plain.payloadBytes, plain.payloadChecksum, world,
      validateRank, plain.source, plain.destination, plain.root, explained,
      FrameHeader.validatePayload]
  simp [Frame.new, valid]

/-- The header with its payload attached. -/
def declaredHeader (checksum : List UInt8 → UInt32) (header : FrameHeader)
    (payload : List UInt8) : FrameHeader :=
  { header with
    flags := header.flags ||| flagPayload
    payloadBytes := UInt64.ofNat payload.length
    payloadChecksum := checksum payload }

theorem PlainHeader.new_payload {header : FrameHeader}
    (plain : PlainHeader checksum header) {payload : List UInt8}
    (present : payload ≠ [])
    (small : payload.length ≤ maxFramePayloadBytes)
    (sized : header.elementCount.toNat * header.elementType.byteWidth = payload.length) :
    Frame.new checksum header payload =
      .ok ⟨declaredHeader checksum header payload, payload⟩ := by
  have world := plain.world_ne_zero
  have typed : header.elementType ≠ .none := by
    intro none
    rw [none] at sized
    exact present (List.length_eq_zero_iff.mp sized.symm)
  have bound : payload.length < 18446744073709551616 := by
    unfold maxFramePayloadBytes at small
    omega
  have limit : ¬maxFramePayloadBytes < payload.length := not_lt.mpr small
  have bytes : (UInt64.ofNat payload.length).toNat = payload.length :=
    UInt64.toNat_ofNat_of_lt' bound
  have some : UInt64.ofNat payload.length ≠ 0 := by
    intro zero
    rw [zero] at bytes
    exact present (List.length_eq_zero_iff.mp bytes.symm)
  have flag : (0 : UInt16) ||| flagPayload = flagPayload := by decide
  have known : flagPayload &&& ~~~(flagPayload ||| flagCountsPrefix |||
      flagP2pChannel) = 0 := by decide
  have noCounts : flagPayload &&& flagCountsPrefix = 0 := by decide
  have noChannel : flagPayload &&& flagP2pChannel = 0 := by decide
  have own : flagPayload ≠ 0 := by decide
  have valid : (declaredHeader checksum header payload).validate checksum none = .ok () := by
    simp [FrameHeader.validate, FrameHeader.validateHeader, rejectIf,
      declaredHeader, plain.flags, flag, known, noCounts, noChannel, own,
      world, validateRank, plain.source, plain.destination, plain.root,
      FrameHeader.validateElementLength, typed,
      FrameHeader.expectedPayload, checkedMul, checkedAdd, okOr, sized,
      wordSize, bound, bytes, some, limit]
  have nonempty : payload.isEmpty = false := by
    simpa using present
  have attached : header.withPayload checksum payload =
      .ok (declaredHeader checksum header payload) := by
    have rest : (do
        (declaredHeader checksum header payload).validate checksum none
        .ok (declaredHeader checksum header payload) :
          Except ProtocolError FrameHeader) =
        .ok (declaredHeader checksum header payload) := by
      rw [valid]
      rfl
    unfold FrameHeader.withPayload
    simp only [rejectIf, gt_iff_lt, limit, if_false, ok_bind]
    exact rest
  rw [Frame.new, nonempty]
  simp only [Bool.false_eq_true, if_false, attached, ok_bind]

/-- A payload above the limit is refused before anything is sent. -/
theorem new_too_large (header : FrameHeader) {payload : List UInt8}
    (large : maxFramePayloadBytes < payload.length) :
    Frame.new checksum header payload = .error (.payloadTooLarge payload.length) := by
  have nonempty : payload.isEmpty = false := by
    cases payload with
    | nil => exact absurd large (Nat.not_lt_zero _)
    | cons byte rest => rfl
  rw [Frame.new, nonempty]
  simp only [Bool.false_eq_true, if_false, FrameHeader.withPayload,
    rejectIf, gt_iff_lt, large, if_true, error_bind]

end Frames

/-- What the coordinator checks of the request of one rank. -/
structure Submits (uniqueId : UniqueId) (worldSize : Nat)
    (descriptor : OperationDescriptor) (rank : Nat) (request : Frame) :
    Prop where
  session : request.header.uniqueId = uniqueId
  source : request.header.sourceRank.toNat = rank
  world : request.header.worldSize.toNat = worldSize
  described : requestDescriptor request.header = descriptor

/-- Requests of all ranks that agree are accepted. -/
theorem submitRequests_accepts {uniqueId : UniqueId} {sequence : UInt64}
    {worldSize : Nat} {descriptor : OperationDescriptor}
    (requests : List Frame) :
    ∀ {agreement : CollectiveAgreement} {rank : Nat}, agreement.Consistent →
      rank + requests.length = agreement.worldSize →
      sequence = agreement.nextSequence →
      agreement.nextSequence.toNat + 1 < wordSize →
      (∀ later ≥ rank, agreement.recorded later = none) →
      (∀ earlier stored, agreement.recorded earlier = some stored → stored = descriptor) →
      (∀ index request, requests[index]? = some request →
        Submits uniqueId worldSize descriptor (rank + index) request) →
      (submitRequests uniqueId sequence worldSize agreement rank requests).2 = .ok () := by
  induction requests with
  | nil =>
      intro _ _ _ _ _ _ _ _ _
      rfl
  | cons request rest ih =>
      intro agreement rank consistent covers current room fresh same each
      rw [List.length_cons] at covers
      have own := each 0 request rfl
      have connection : ¬(request.header.sourceRank.toNat ≠ rank ∨
          request.header.worldSize.toNat ≠ worldSize) := by
        rintro (other | other)
        · exact other own.source
        · exact other own.world
      simp only [submitRequests, ne_eq, own.session, not_true_eq_false, if_false]
      rw [if_neg connection, own.described]
      let call : Submission := ⟨rank, sequence, descriptor⟩
      have acceptable : agreement.Acceptable call :=
        ⟨by change rank < agreement.worldSize; omega, current,
          fresh rank (le_refl rank), same⟩
      rcases CollectiveAgreement.submitCall_cases consistent call with
        ⟨_, _, _, refused⟩ | ⟨_, outcome⟩
      · exact absurd acceptable refused
      change agreement.AcceptedOutcome call (agreement.submit rank sequence descriptor) at outcome
      have kept := CollectiveAgreement.consistent_submitCall consistent call
      change (agreement.submit rank sequence descriptor).1.Consistent at kept
      rcases outcome with
        ⟨others, _, moved⟩ | ⟨_, full, _⟩ | ⟨_, stored⟩
      · -- every other rank is recorded, so this request is the last one
        have last : rest = [] := by
          by_contra more
          have inside : rank + 1 < agreement.worldSize := by
            have := List.length_pos_iff.mpr more
            omega
          exact others (rank + 1) inside (Nat.succ_ne_self rank)
            (fresh (rank + 1) (Nat.le_succ rank))
        rw [moved, last]
        rfl
      · exact absurd room full
      · rw [stored] at kept ⊢
        have found := CollectiveAgreement.recorded_stored consistent acceptable.1
        apply ih kept
        · change rank + 1 + rest.length = agreement.worldSize
          omega
        · exact current
        · exact room
        · intro later bound
          rw [found, if_neg (by
            change later ≠ rank
            omega)]
          exact fresh later (by omega)
        · intro earlier recorded
          rw [found]
          intro present
          split at present
          · exact (Option.some.inj present).symm
          · exact same earlier recorded present
        · intro index later located
          have next := each (index + 1) later located
          rwa [Nat.add_comm index 1, ← Nat.add_assoc] at next

section Broadcast

variable {checksum : List UInt8 → UInt32} {uniqueId : UniqueId}
  {worldSize : UInt32} {requests : List Frame} {elementType : ElementType}
  {root : UInt32} {count tag : UInt64} {payload : List UInt8}

/-- What the first of some requests says. -/
theorem exists_first {descriptor : OperationDescriptor} {world : Nat}
    (nonempty : 0 < requests.length)
    (submits : ∀ index request, requests[index]? = some request →
      Submits uniqueId world descriptor index request)
    (plain : descriptor.opcode ≠ .allToAllV) :
    ∃ first, requests[0]? = some first ∧ first.header.opcode = descriptor.opcode ∧
      first.header.elementType = descriptor.elementType ∧
      first.header.rootRank = descriptor.rootRank ∧
      first.header.elementCount = descriptor.elementCount := by
  refine ⟨requests[0], List.getElem?_eq_getElem nonempty, ?_⟩
  have described := (submits 0 _ (List.getElem?_eq_getElem nonempty)).described
  rw [← described] at plain ⊢
  exact ⟨rfl, rfl, rfl, (if_neg plain).symm⟩

/-- No failure is possible. -/
abbrev Succeeds {ε α : Type} (computation : Except ε α) : Prop :=
  Ends (fun _ => False) (fun _ => True) computation

theorem Succeeds.exists_ok {ε α : Type} {computation : Except ε α}
    (succeeds : Succeeds computation) :
    ∃ value, computation = .ok value := by
  cases computation with
  | error failure => exact succeeds.elim
  | ok value => exact ⟨value, rfl⟩

theorem responseHeader_plain {opcode : Opcode} {sequence : UInt64} {destination amount : Nat}
    (typed : elementType = .none → UInt64.ofNat amount = 0)
    (inside : destination < worldSize.toNat) :
    PlainHeader checksum (responseHeader checksum uniqueId opcode elementType
      sequence destination worldSize.toNat amount) := by
  have world : UInt32.ofNat worldSize.toNat = worldSize := UInt32.ofNat_toNat
  have small : destination < 2 ^ 32 := lt_trans inside worldSize.toNat_lt
  refine ⟨rfl, rfl, rfl, typed, ?_, Or.inr ?_, Or.inl rfl⟩
  · change (0 : UInt32) < UInt32.ofNat worldSize.toNat
    rw [world, UInt32.lt_iff_toNat_lt]
    exact Nat.lt_of_le_of_lt (Nat.zero_le _) inside
  · change UInt32.ofNat destination < UInt32.ofNat worldSize.toNat
    rw [world, UInt32.lt_iff_toNat_lt, UInt32.toNat_ofNat_of_lt' small]
    exact inside

/-- A response with a payload that its count explains can be built. -/
theorem dataResponse_succeeds {opcode : Opcode} {sequence : UInt64}
    {destination : Nat} (typed : elementType ≠ .none)
    (world : requests.length = worldSize.toNat)
    (inside : destination < worldSize.toNat)
    (small : payload.length ≤ maxFramePayloadBytes)
    (sized : count.toNat * elementType.byteWidth = payload.length) :
    Succeeds (dataResponse checksum requests uniqueId sequence opcode
      elementType destination count.toNat payload) := by
  have plain := @responseHeader_plain checksum uniqueId worldSize elementType
    opcode sequence destination count.toNat (fun none => absurd none typed)
    inside
  rw [dataResponse, world]
  by_cases empty : payload = []
  · rw [empty, plain.new_nil]
    trivial
  · rw [plain.new_payload empty small ?_]
    · trivial
    · change (UInt64.ofNat count.toNat).toNat * _ = _
      rw [UInt64.ofNat_toNat]
      exact sized

/-- The root sends the payload and the others nothing. -/
theorem requireOnlyRootPayload_succeeds {chosen bytes : Nat}
    (each : ∀ index request, requests[index]? = some request →
      request.payload.length = if index = chosen then bytes else 0) :
    Succeeds (requireOnlyRootPayload requests chosen bytes) := by
  refine (@Ends.forM _ _ _ (fun _ => True) _ _ fun entry member => ?_).mono fun _ _ => trivial
  obtain ⟨request, index⟩ := entry
  have located := List.mem_zipIdx_iff_getElem?.mp member
  have length := each index request located
  simp only [invalidIf, rejectIf, length, ne_eq, not_true_eq_false, if_false]
  trivial

/-- The requests of a broadcast: all ranks name the same root and count, and the
root alone brings the payload. -/
structure BroadcastRequests (uniqueId : UniqueId) (worldSize : UInt32)
    (elementType : ElementType) (root : UInt32) (count tag : UInt64)
    (payload : List UInt8) (requests : List Frame) : Prop where
  world : requests.length = worldSize.toNat
  submits : ∀ index request, requests[index]? = some request → Submits uniqueId worldSize.toNat
      ⟨.broadcast, elementType, root, count, tag⟩ index request
  payloads : ∀ index request, requests[index]? = some request →
    request.payload = if index = root.toNat then payload else []
  rooted : root < worldSize
  typed : elementType ≠ .none
  small : payload.length ≤ maxFramePayloadBytes
  sized : count.toNat * elementType.byteWidth = payload.length

theorem ne_anyRank_of_lt {rank worldSize : UInt32}
    (inside : rank < worldSize) : rank ≠ anyRank := by
  intro same
  rw [same, UInt32.lt_iff_toNat_lt] at inside
  have bound := worldSize.toNat_lt
  have value : anyRank.toNat = 2 ^ 32 - 1 := rfl
  omega

theorem BroadcastRequests.routes
    (broadcast : BroadcastRequests uniqueId worldSize elementType root count
      tag payload requests) :
    Succeeds (routeRequests checksum requests uniqueId 0) := by
  have inside : root.toNat < requests.length := by
    rw [broadcast.world]
    exact UInt32.lt_iff_toNat_lt.mp broadcast.rooted
  obtain ⟨first, firstAt, opcode, typed, rooted, counted⟩ :=
    exists_first (Nat.zero_lt_of_lt inside) broadcast.submits nofun
  obtain ⟨rootRequest, rootAt⟩ : ∃ request, requests[root.toNat]? = some request :=
    ⟨_, List.getElem?_eq_getElem inside⟩
  have rootPayload := broadcast.payloads root.toNat rootRequest rootAt
  rw [if_pos rfl] at rootPayload
  have fits : count.toNat * elementType.byteWidth < wordSize := by
    rw [broadcast.sized]
    have small := broadcast.small
    unfold maxFramePayloadBytes at small
    unfold wordSize
    omega
  have chosen : requiredRoot (some root.toNat) requests.length =
      .ok root.toNat := by
    rw [requiredRoot, if_pos inside]
  unfold routeRequests
  simp only [indexAt, firstAt, okOr_some, ok_bind, typed, counted, orInvalid,
    checkedMul, if_pos fits, rooted, ne_anyRank_of_lt broadcast.rooted,
    if_false, opcode, chosen, rootAt, rootPayload]
  refine Ends.bind (requireOnlyRootPayload_succeeds ?_) fun _ _ => ?_
  · intro index request located
    rw [broadcast.payloads index request located]
    split
    · exact broadcast.sized.symm
    · rfl
  · refine (@Ends.mapM _ _ _ _ (fun _ _ => True) _ _
      fun rank member => ?_).mono fun _ _ => trivial
    rw [List.mem_range, broadcast.world] at member
    exact dataResponse_succeeds broadcast.typed broadcast.world member
      broadcast.small broadcast.sized

/-- Requests that agree are routed. -/
theorem validateAndRoute_routes {descriptor : OperationDescriptor}
    (world : requests.length = worldSize.toNat)
    (submits : ∀ index request, requests[index]? = some request →
      Submits uniqueId worldSize.toNat descriptor index request) :
    (validateAndRoute checksum ⟨worldSize.toNat, 0, fun _ => none⟩ uniqueId
      0 requests).2 = routeRequests checksum requests uniqueId 0 := by
  have submitted : (submitRequests uniqueId 0 requests.length
      ⟨worldSize.toNat, 0, fun _ => none⟩ 0 requests).2 = .ok () := by
    apply submitRequests_accepts requests
    · exact CollectiveAgreement.consistent_of_pending_none fun _ => rfl
    · rw [Nat.zero_add]
      exact world
    · rfl
    · change 0 + 1 < wordSize
      decide
    · intro later _
      exact CollectiveAgreement.recorded_of_pending_none rfl later
    · intro earlier stored recorded
      rw [CollectiveAgreement.recorded_of_pending_none rfl earlier] at recorded
      cases recorded
    · intro index request located
      rw [Nat.zero_add, world]
      exact submits index request located
  rw [validateAndRoute]
  simp only [submitted]

/-- Requests that agree and can be routed are answered. -/
theorem validateAndRoute_accepts {descriptor : OperationDescriptor}
    (world : requests.length = worldSize.toNat)
    (submits : ∀ index request, requests[index]? = some request →
      Submits uniqueId worldSize.toNat descriptor index request)
    (routes : Succeeds (routeRequests checksum requests uniqueId 0)) :
    ∃ responses, (validateAndRoute checksum
      ⟨worldSize.toNat, 0, fun _ => none⟩ uniqueId 0 requests).2 =
        .ok responses := by
  rw [validateAndRoute_routes world submits]
  exact routes.exists_ok

/-- The requests of an all-gather or an all-reduce: all ranks bring as much as they
count. -/
structure GatherRequests (uniqueId : UniqueId) (worldSize : UInt32)
    (opcode : Opcode) (elementType : ElementType) (count tag : UInt64)
    (requests : List Frame) : Prop where
  gathers : opcode = .allGather ∨ opcode = .allReduce
  world : requests.length = worldSize.toNat
  positive : 0 < worldSize.toNat
  submits : ∀ index request, requests[index]? = some request → Submits uniqueId worldSize.toNat
      ⟨opcode, elementType, anyRank, count, tag⟩ index request
  sized : ∀ request ∈ requests, request.payload.length = count.toNat * elementType.byteWidth
  typed : elementType ≠ .none
  small : requests.length * (count.toNat * elementType.byteWidth) ≤ maxFramePayloadBytes

theorem sum_lengths {bytes : Nat} (each : ∀ request ∈ requests, request.payload.length = bytes) :
    (requests.map fun request => request.payload.length).sum = requests.length * bytes := by
  rw [List.map_congr_left each, List.map_const', List.sum_replicate]
  rfl

theorem GatherRequests.routes {opcode : Opcode}
    (gather : GatherRequests uniqueId worldSize opcode elementType count tag requests) :
    Succeeds (routeRequests checksum requests uniqueId 0) := by
  have nonempty : 0 < requests.length := by
    rw [gather.world]
    exact gather.positive
  have plain : opcode ≠ .allToAllV := by
    rcases gather.gathers with rfl | rfl <;> exact nofun
  obtain ⟨first, firstAt, coded, typed, _, counted⟩ := exists_first nonempty gather.submits plain
  have small := gather.small
  have width : 0 < elementType.byteWidth := by
    cases elementType <;> first | decide | exact absurd rfl gather.typed
  have rankBytes : count.toNat * elementType.byteWidth ≤
      maxFramePayloadBytes :=
    le_trans (Nat.le_mul_of_pos_left _ nonempty) small
  have limit : maxFramePayloadBytes < wordSize := by decide
  have total : count.toNat * requests.length < wordSize := by
    have fewer : count.toNat * requests.length ≤
        requests.length * (count.toNat * elementType.byteWidth) := by
      rw [Nat.mul_comm count.toNat requests.length]
      exact Nat.mul_le_mul_left _ (Nat.le_mul_of_pos_right _ width)
    omega
  have sum := sum_lengths gather.sized
  have summed := @checkedSum_of_lt (requests.map fun request =>
    request.payload.length) (by
      rw [sum]
      exact lt_of_le_of_lt small limit)
  have payload : (requests.flatMap Frame.payload).length =
      requests.length * (count.toNat * elementType.byteWidth) := by
    rw [List.length_flatMap]
    exact sum
  have counts : (UInt64.ofNat (count.toNat * requests.length)).toNat =
      count.toNat * requests.length :=
    UInt64.toNat_ofNat_of_lt' total
  have answered : Succeeds (routeSamePayload checksum requests uniqueId 0
      opcode elementType (count.toNat * requests.length)
      (requests.flatMap Frame.payload)) := by
    refine (@Ends.mapM _ _ _ _ (fun _ _ => True) _ _
      fun rank member => ?_).mono fun _ _ => trivial
    rw [List.mem_range, gather.world] at member
    rw [← counts]
    refine dataResponse_succeeds gather.typed gather.world member ?_ ?_
    · rw [payload]
      exact small
    · rw [payload, counts]
      ring
  unfold routeRequests
  rcases gather.gathers with rfl | rfl <;>
    simpa only [indexAt, firstAt, okOr_some, ok_bind, typed, counted,
      orInvalid, checkedMul, if_pos (lt_of_le_of_lt rankBytes limit), coded,
      routeGathered, gatherPayloads,
      requireAllPayloads_succeeds gather.sized, concatenatePayloads, summed,
      if_pos total] using answered

theorem GatherRequests.accepted {opcode : Opcode}
    (gather : GatherRequests uniqueId worldSize opcode elementType count tag requests) :
    ∃ responses, (validateAndRoute checksum
      ⟨worldSize.toNat, 0, fun _ => none⟩ uniqueId 0 requests).2 =
        .ok responses :=
  validateAndRoute_accepts gather.world gather.submits gather.routes

end Broadcast

section Exchange

variable {checksum : List UInt8 → UInt32} {uniqueId : UniqueId}
  {worldSize : UInt32} {lost : NetworkError} {opcode : Opcode}
  {elementType : ElementType} {options : ExchangeOptions}

/-- What an exchange makes of the answer it gets. -/
def concluded (uniqueId : UniqueId) (call : Call)
    (rank : Fin worldSize.toNat) (answer : Except NetworkError Frame) :
    Except NetworkError Frame := do
  let response ← answer
  (call.finish uniqueId (UInt32.ofNat rank) worldSize 0 response).map Prod.snd

/-- A request that can be built is sent. -/
theorem exchangeWithOptions_asks {rank : Fin worldSize.toNat}
    {payload : List UInt8} {request : Frame}
    (built : (Call.exchange opcode elementType options payload).request
      checksum uniqueId (UInt32.ofNat rank) worldSize 0 = .ok request) :
    (sessionOf uniqueId rank).exchangeWithOptions checksum opcode elementType options payload =
      .ask request fun answer => .done (concluded uniqueId
        (.exchange opcode elementType options payload) rank answer) := by
  unfold Session.exchangeWithOptions
  simp only [sessionOf, built]
  congr 1
  funext answer
  cases answer with
  | error failure => rfl
  | ok response => rfl

/-- A payload above the limit ends an exchange before anything is sent. -/
theorem exchangeWithOptions_too_large {session : Session}
    {payload : List UInt8} (large : maxFramePayloadBytes < payload.length) :
    session.exchangeWithOptions checksum opcode elementType options payload =
      .done (.error (.protocol (.payloadTooLarge payload.length))) := by
  unfold Session.exchangeWithOptions Call.request
  simp only [Call.payload, new_too_large _ large]

/-- All ranks can build their requests, and get their answers together. -/
theorem exchange_lockstep {payload : Fin worldSize.toNat → List UInt8}
    {requests : Fin worldSize.toNat → Frame}
    (built : ∀ rank, (Call.exchange opcode elementType options
      (payload rank)).request checksum uniqueId (UInt32.ofNat rank)
        worldSize 0 = .ok (requests rank)) :
    Lockstep (coordinate checksum uniqueId lost)
      (fun rank => (sessionOf uniqueId rank).exchangeWithOptions checksum
        opcode elementType options (payload rank))
      [requests]
      (fun rank => concluded uniqueId (.exchange opcode elementType options (payload rank)) rank
        (coordinate checksum uniqueId lost requests rank)) := by
  rw [funext fun rank => exchangeWithOptions_asks (built rank)]
  exact .ask (.done _)

/-- The frame of a request that is small enough. -/
def requestFrame (checksum : List UInt8 → UInt32) (header : FrameHeader)
    (payload : List UInt8) : Frame :=
  if payload = [] then ⟨header, []⟩
  else ⟨declaredHeader checksum header payload, payload⟩

theorem requestFrame_payload (header : FrameHeader) (payload : List UInt8) :
    (requestFrame checksum header payload).payload = payload := by
  unfold requestFrame
  split
  case isTrue empty => exact empty.symm
  case isFalse => rfl

theorem PlainHeader.new {header : FrameHeader}
    (plain : PlainHeader checksum header) {payload : List UInt8}
    (small : payload.length ≤ maxFramePayloadBytes)
    (sized : payload ≠ [] → header.elementCount.toNat * header.elementType.byteWidth =
        payload.length) :
    Frame.new checksum header payload = .ok (requestFrame checksum header payload) := by
  unfold requestFrame
  by_cases empty : payload = []
  · rw [if_pos empty, empty]
    exact plain.new_nil
  · rw [if_neg empty]
    exact plain.new_payload empty small (sized empty)

/-- The header of an exchange without flags. -/
theorem exchangeHeader_plain {rootRank : UInt32} {count tag : UInt64}
    {payload : List UInt8} (typed : elementType = .none → count = 0)
    (rooted : rootRank = anyRank ∨ rootRank < worldSize)
    (rank : Fin worldSize.toNat) :
    PlainHeader checksum ((Call.exchange opcode elementType
      ⟨rootRank, count, 0, tag⟩ payload).header checksum uniqueId
        (UInt32.ofNat rank) worldSize 0) := by
  have small : rank.val < 2 ^ 32 := lt_trans rank.isLt worldSize.toNat_lt
  have flags : (0 : UInt16) ||| 0 = 0 := by decide
  refine ⟨flags, rfl, rfl, typed, ?_, Or.inl rfl, rooted⟩
  change UInt32.ofNat rank.val < worldSize
  rw [UInt32.lt_iff_toNat_lt, UInt32.toNat_ofNat_of_lt' small]
  exact rank.isLt

/-- A frame of an exchange is what the coordinator expects of its rank. -/
theorem requestFrame_submits {rootRank : UInt32} {count tag : UInt64}
    {payload : List UInt8} (rank : Fin worldSize.toNat)
    (counted : opcode ≠ .allToAllV) :
    Submits uniqueId worldSize.toNat ⟨opcode, elementType, rootRank, count, tag⟩ rank
      (requestFrame checksum ((Call.exchange opcode elementType
        ⟨rootRank, count, 0, tag⟩ payload).header checksum uniqueId
          (UInt32.ofNat rank) worldSize 0) payload) := by
  have small : rank.val < 2 ^ 32 := lt_trans rank.isLt worldSize.toNat_lt
  have source : (UInt32.ofNat rank.val).toNat = rank.val := UInt32.toNat_ofNat_of_lt' small
  unfold requestFrame
  split
  case isTrue =>
    refine ⟨rfl, source, rfl, ?_⟩
    simp [requestDescriptor, Call.header, FrameHeader.collective, counted]
  case isFalse =>
    refine ⟨rfl, source, rfl, ?_⟩
    simp [requestDescriptor, declaredHeader, Call.header, FrameHeader.collective, counted]

/-- An answer that the coordinator promises passes the checks of its rank. -/
theorem concluded_ok {requests : List Frame} {request : FrameHeader}
    {payload : List UInt8} {response : Frame} {rank : Fin worldSize.toNat}
    (world : requests.length = worldSize.toNat)
    (responds : Responds checksum uniqueId requests 0 request rank response)
    (serves : request.opcode ≠ .abort) :
    concluded uniqueId (.exchange opcode elementType options payload) rank
      (.ok response) = .ok response := by
  have small : rank.val < 2 ^ 32 := lt_trans rank.isLt worldSize.toNat_lt
  have destination : response.header.destinationRank =
      UInt32.ofNat rank.val := by
    apply UInt32.toNat_inj.mp
    rw [responds.destination, UInt32.toNat_ofNat_of_lt' small]
  have worldSame : response.header.worldSize = worldSize := by
    apply UInt32.toNat_inj.mp
    rw [responds.world, world]
  have opcodeSame : response.header.opcode ≠ .abort := by
    rw [responds.opcode]
    exact serves
  simp [concluded, Call.finish, validateResponse, rejectIf,
    responds.session, worldSame, destination, responds.sequence, opcodeSame,
    Call.checkResponse, checkedAdd, wordSize, okOr, Except.map]

theorem getElem?_ofFn_eq {size : Nat} {α : Type} {values : Fin size → α} {index : Nat} {value : α}
    (located : (List.ofFn values)[index]? = some value) :
    ∃ inside : index < size, value = values ⟨index, inside⟩ := by
  rw [List.getElem?_ofFn] at located
  split at located
  case isTrue inside => exact ⟨inside, (Option.some.inj located).symm⟩
  case isFalse => cases located

section Answered

variable {payload : Fin worldSize.toNat → List UInt8} {requests : Fin worldSize.toNat → Frame}
  (built : ∀ rank, (Call.exchange opcode elementType options
    (payload rank)).request checksum uniqueId (UInt32.ofNat rank)
      worldSize 0 = .ok (requests rank))

include built

/-- Requests that are routed are answered on every rank. -/
theorem exchange_answered {answers : List Frame} (positive : 0 < worldSize.toNat)
    (serves : ∀ rank, (requests rank).header.opcode ≠ .abort)
    (routed : (validateAndRoute checksum ⟨worldSize.toNat, 0, fun _ => none⟩ uniqueId 0
      (List.ofFn requests)).2 = .ok answers) :
    ∃ responses : Fin worldSize.toNat → Frame, Lockstep (coordinate checksum uniqueId lost)
        (fun rank => (sessionOf uniqueId rank).exchangeWithOptions checksum
          opcode elementType options (payload rank))
        [requests] (fun rank => .ok (responses rank)) ∧
      ∀ rank : Fin worldSize.toNat, Responds checksum uniqueId
        (List.ofFn requests) 0 (requests rank).header rank
        (responses rank) := by
  have nonempty : List.ofFn requests ≠ [] := by
    apply List.ne_nil_of_length_pos
    rw [List.length_ofFn]
    exact positive
  obtain ⟨lengths, responds⟩ := responds_of_validateAndRoute nonempty (fun _ => rfl) routed
  rw [List.length_ofFn] at lengths
  let responses : Fin worldSize.toNat → Frame := fun rank => answers.get (rank.cast lengths.symm)
  have located : ∀ rank : Fin worldSize.toNat, answers[rank.val]? = some (responses rank) :=
    fun rank => List.getElem?_eq_getElem (lengths.symm ▸ rank.isLt)
  have promised : ∀ rank : Fin worldSize.toNat, Responds checksum uniqueId
      (List.ofFn requests) 0 (requests rank).header rank
      (responses rank) := by
    intro rank
    refine responds rank.val (requests rank) (responses rank) ?_ (located rank)
    rw [List.getElem?_ofFn, dif_pos rank.isLt]
  have values : (fun rank => concluded uniqueId
      (.exchange opcode elementType options (payload rank)) rank
      (coordinate checksum uniqueId lost requests rank)) =
      fun rank => .ok (responses rank) := by
    funext rank
    have answer : coordinate checksum uniqueId lost requests rank = .ok (responses rank) := by
      simp only [coordinate, routed, located, okOr_some]
    rw [answer]
    exact concluded_ok List.length_ofFn (promised rank) (serves rank)
  refine ⟨responses, ?_, promised⟩
  rw [← values]
  exact exchange_lockstep built

/-- Requests that are refused leave every rank without an answer. -/
theorem exchange_refused {fault : Fault}
    (routed : (validateAndRoute checksum ⟨worldSize.toNat, 0, fun _ => none⟩ uniqueId 0
      (List.ofFn requests)).2 = .error fault) :
    Lockstep (coordinate checksum uniqueId lost)
      (fun rank => (sessionOf uniqueId rank).exchangeWithOptions checksum
        opcode elementType options (payload rank))
      [requests] (fun _ => .error lost) := by
  have values : (fun rank => concluded uniqueId
      (.exchange opcode elementType options (payload rank)) rank
      (coordinate checksum uniqueId lost requests rank)) =
      fun _ => .error lost := by
    funext rank
    have answer : coordinate checksum uniqueId lost requests rank =
        .error lost := by
      simp only [coordinate, routed]
    rw [answer]
    rfl
  rw [← values]
  exact exchange_lockstep built

end Answered

/-- The frames of an exchange with the same options on all ranks. -/
def requestFrames (checksum : List UInt8 → UInt32) (uniqueId : UniqueId)
    (opcode : Opcode) (elementType : ElementType) (options : ExchangeOptions)
    (payload : Fin worldSize.toNat → List UInt8)
    (rank : Fin worldSize.toNat) : Frame :=
  requestFrame checksum ((Call.exchange opcode elementType options
    (payload rank)).header checksum uniqueId (UInt32.ofNat rank) worldSize 0) (payload rank)

theorem requestFrames_built {rootRank : UInt32} {count tag : UInt64}
    {payload : Fin worldSize.toNat → List UInt8}
    (typed : elementType = .none → count = 0)
    (rooted : rootRank = anyRank ∨ rootRank < worldSize)
    (small : ∀ rank, (payload rank).length ≤ maxFramePayloadBytes)
    (sized : ∀ rank, payload rank ≠ [] →
      count.toNat * elementType.byteWidth = (payload rank).length)
    (rank : Fin worldSize.toNat) :
    (Call.exchange opcode elementType ⟨rootRank, count, 0, tag⟩
      (payload rank)).request checksum uniqueId (UInt32.ofNat rank) worldSize 0 =
      .ok (requestFrames checksum uniqueId opcode elementType
        ⟨rootRank, count, 0, tag⟩ payload rank) :=
  (exchangeHeader_plain typed rooted rank).new (small rank) (sized rank)

theorem requestFrames_opcode {payload : Fin worldSize.toNat → List UInt8}
    (rank : Fin worldSize.toNat) :
    (requestFrames checksum uniqueId opcode elementType options payload
      rank).header.opcode = opcode := by
  unfold requestFrames requestFrame
  split <;> rfl

theorem requestFrames_root {payload : Fin worldSize.toNat → List UInt8}
    (rank : Fin worldSize.toNat) :
    (requestFrames checksum uniqueId opcode elementType options payload
      rank).header.rootRank = options.rootRank := by
  unfold requestFrames requestFrame
  split <;> rfl

theorem requestFrames_tag {payload : Fin worldSize.toNat → List UInt8}
    (rank : Fin worldSize.toNat) :
    (requestFrames checksum uniqueId opcode elementType options payload
      rank).header.tag = options.tag := by
  unfold requestFrames requestFrame
  split <;> rfl

theorem requestFrames_count {payload : Fin worldSize.toNat → List UInt8}
    (rank : Fin worldSize.toNat) :
    (requestFrames checksum uniqueId opcode elementType options payload
      rank).header.elementCount = options.elementCount := by
  unfold requestFrames requestFrame
  split <;> rfl

/-- Every rank of a broadcast gets the payload of the root. -/
theorem broadcast_lockstep {root : UInt32} {count tag : UInt64}
    {payload : List UInt8} (rooted : root < worldSize)
    (typed : elementType ≠ .none)
    (small : payload.length ≤ maxFramePayloadBytes)
    (sized : count.toNat * elementType.byteWidth = payload.length) :
    let carried := fun rank : Fin worldSize.toNat =>
      if rank.val = root.toNat then payload else []
    ∃ responses : Fin worldSize.toNat → Frame, Lockstep (coordinate checksum uniqueId lost)
        (fun rank => (sessionOf uniqueId rank).exchangeWithOptions checksum
          .broadcast elementType ⟨root, count, 0, tag⟩ (carried rank))
        [requestFrames checksum uniqueId .broadcast elementType ⟨root, count, 0, tag⟩ carried]
        (fun rank => .ok (responses rank)) ∧
      ∀ rank, (responses rank).payload = payload := by
  intro carried
  have inside := UInt32.lt_iff_toNat_lt.mp rooted
  have carriedSmall : ∀ rank, (carried rank).length ≤ maxFramePayloadBytes := by
    intro rank
    simp only [carried]
    split
    case isTrue => exact small
    case isFalse => exact Nat.zero_le _
  have carriedSized : ∀ rank, carried rank ≠ [] →
      count.toNat * elementType.byteWidth = (carried rank).length := by
    intro rank
    simp only [carried]
    split
    case isTrue => exact fun _ => sized
    case isFalse => exact fun present => absurd rfl present
  have built := @requestFrames_built checksum uniqueId worldSize .broadcast
    elementType root count tag carried (fun none => absurd none typed)
    (Or.inr rooted) carriedSmall carriedSized
  have broadcast : BroadcastRequests uniqueId worldSize elementType root
      count tag payload (List.ofFn (requestFrames checksum uniqueId
        .broadcast elementType ⟨root, count, 0, tag⟩ carried)) := by
    refine ⟨List.length_ofFn, ?_, ?_, rooted, typed, small, sized⟩
    · intro index request located
      obtain ⟨inside, rfl⟩ := getElem?_ofFn_eq located
      exact requestFrame_submits ⟨index, inside⟩ nofun
    · intro index request located
      obtain ⟨inside, rfl⟩ := getElem?_ofFn_eq located
      exact requestFrame_payload _ _
  obtain ⟨answers, routed⟩ := @validateAndRoute_accepts checksum _ _ _ _
    broadcast.world broadcast.submits broadcast.routes
  have opcodes : ∀ rank : Fin worldSize.toNat,
      (requestFrames checksum uniqueId .broadcast elementType
        ⟨root, count, 0, tag⟩ carried rank).header.opcode = .broadcast :=
    fun rank => requestFrames_opcode rank
  obtain ⟨responses, lockstep, responds⟩ := exchange_answered built
    (Nat.zero_lt_of_lt inside) (fun rank => by rw [opcodes]; exact nofun)
    routed
  refine ⟨responses, lockstep, fun rank => ?_⟩
  have promised := (responds rank).promised
  simp only [Promised, opcodes] at promised
  obtain ⟨source, located, same⟩ := promised
  rw [requestFrames_root] at located
  obtain ⟨_, rfl⟩ := getElem?_ofFn_eq located
  rw [same, requestFrames, requestFrame_payload]
  exact if_pos rfl

theorem flatten_payloads_length {bytes : Nat} {payload : Fin worldSize.toNat → List UInt8}
    (sized : ∀ rank, bytes = (payload rank).length) :
    (List.ofFn payload).flatten.length = worldSize.toNat * bytes := by
  have each : (List.ofFn payload).map List.length =
      List.replicate worldSize.toNat bytes := by
    rw [List.map_ofFn, ← List.ofFn_const]
    congr 1
    funext rank
    exact (sized rank).symm
  rw [List.length_flatten, each, List.sum_replicate]
  rfl

/-- Every rank of an all-gather gets all payloads when they fit a frame, and
otherwise none does. -/
theorem allGather_lockstep {count : UInt64} {payload : Fin worldSize.toNat → List UInt8}
    (positive : 0 < worldSize.toNat) (typed : elementType ≠ .none)
    (small : ∀ rank, (payload rank).length ≤ maxFramePayloadBytes)
    (sized : ∀ rank, count.toNat * elementType.byteWidth = (payload rank).length) :
    ∃ results : Fin worldSize.toNat → Except NetworkError Frame,
      Lockstep (coordinate checksum uniqueId lost)
        (fun rank => (sessionOf uniqueId rank).exchange checksum .allGather
          elementType anyRank count (payload rank))
        [requestFrames checksum uniqueId .allGather elementType
          ⟨anyRank, count, 0, 0⟩ payload] results ∧
      ((maxFramePayloadBytes < worldSize.toNat * (count.toNat * elementType.byteWidth) ∧
        ∀ rank, results rank = .error lost) ∨
        (worldSize.toNat * (count.toNat * elementType.byteWidth) ≤ maxFramePayloadBytes ∧
        ∀ rank, ∃ response, results rank = .ok response ∧
          response.payload = (List.ofFn payload).flatten)) := by
  have built := @requestFrames_built checksum uniqueId worldSize .allGather
    elementType anyRank count 0 payload (fun none => absurd none typed)
    (Or.inl rfl) small (fun rank _ => sized rank)
  have opcodes : ∀ rank : Fin worldSize.toNat,
      (requestFrames checksum uniqueId .allGather elementType
        ⟨anyRank, count, 0, 0⟩ payload rank).header.opcode =
          .allGather :=
    fun rank => requestFrames_opcode rank
  cases routed : (validateAndRoute checksum ⟨worldSize.toNat, 0, fun _ => none⟩ uniqueId 0
      (List.ofFn (requestFrames checksum uniqueId .allGather elementType
        ⟨anyRank, count, 0, 0⟩ payload))).2 with
  | error fault =>
      refine ⟨_, exchange_refused built routed, Or.inl ⟨?_, fun _ => rfl⟩⟩
      by_contra fits
      have gather : GatherRequests uniqueId worldSize .allGather elementType
          count 0 (List.ofFn (requestFrames checksum uniqueId .allGather elementType
            ⟨anyRank, count, 0, 0⟩ payload)) := by
        refine ⟨Or.inl rfl, List.length_ofFn, positive, ?_, ?_, typed, ?_⟩
        · intro index request located
          obtain ⟨inside, rfl⟩ := getElem?_ofFn_eq located
          exact requestFrame_submits ⟨index, inside⟩ nofun
        · intro request member
          obtain ⟨rank, rfl⟩ := (List.mem_ofFn ..).mp member
          rw [requestFrames, requestFrame_payload, sized rank]
        · rw [List.length_ofFn]
          exact not_lt.mp fits
      obtain ⟨responses, accepted⟩ := @GatherRequests.accepted checksum _ _
        _ _ _ _ _ gather
      rw [routed] at accepted
      cases accepted
  | ok answers =>
      obtain ⟨responses, lockstep, responds⟩ := exchange_answered built
        positive (fun rank => by rw [opcodes]; exact nofun) routed
      have payloads (rank : Fin worldSize.toNat) :
          (responses rank).payload = (List.ofFn payload).flatten := by
        have promised := (responds rank).promised
        simp only [Promised, opcodes] at promised
        rw [promised, List.flatMap_def, List.map_ofFn]
        congr 2
        funext other
        exact requestFrame_payload _ _
      refine ⟨_, lockstep, Or.inr ⟨?_, fun rank =>
        ⟨responses rank, rfl, payloads rank⟩⟩⟩
      let first : Fin worldSize.toNat := ⟨0, positive⟩
      obtain ⟨bare, length, _⟩ := ((responses first).header
        |>.validate_some_eq_ok_iff checksum _).mp (responds first).valid
      have limit := FrameHeader.payloadBytes_le_of_validate checksum bare
      rw [← length, payloads first, flatten_payloads_length sized] at limit
      exact limit

end Exchange

end RuCCL.Rank
