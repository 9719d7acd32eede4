import RuCCL.Rank.Codec
import RuCCL.Rank.Routing
import Mathlib.Algebra.BigOperators.Group.List.Basic

/-!
# Routing computes the collectives

Every routed response is a valid frame addressed to its rank, its payload is the
one that the opcode promises, and no request list makes the coordinator leave a
buffer or overflow a product.
-/

namespace RuCCL.Rank

open RuCCL.Library

/-- The failures a caller may see. -/
def NoPanic (failure : Fault) : Prop := failure ≠ .panic

section Steps

theorem ends_invalid {α : Type} {post : α → Prop} (message : String) :
    Ends NoPanic post (invalid message) := by
  simp [Ends, invalid, NoPanic]

theorem ends_invalidIf (condition : Prop) [Decidable condition] (message : String) :
    Ends NoPanic (fun _ => ¬condition) (invalidIf condition message) := by
  unfold invalidIf rejectIf
  by_cases holds : condition <;> simp [Ends, NoPanic, holds]

theorem ends_orInvalid {α : Type} (value : Option α) (message : String) :
    Ends NoPanic (fun result => value = some result) (orInvalid value message) :=
  Ends.okOr fun _ => by simp [NoPanic]

theorem ends_uncheckedMul {allowed : Fault → Prop}
    {left right : Nat} (fits : left * right < wordSize) :
    Ends allowed (fun result => result = left * right) (uncheckedMul left right) := by
  simp [uncheckedMul, checkedMul, fits, okOr, Ends]

theorem ends_uncheckedAdd {allowed : Fault → Prop}
    {left right : Nat} (fits : left + right < wordSize) :
    Ends allowed (fun result => result = left + right) (uncheckedAdd left right) := by
  simp [uncheckedAdd, checkedAdd, fits, okOr, Ends]

theorem ends_sliceRange {allowed : Fault → Prop} {α : Type} {values : List α} {start stop : Nat}
    (ordered : start ≤ stop) (inside : stop ≤ values.length) :
    Ends allowed (fun result => result = (values.drop start).take (stop - start))
      (sliceRange values start stop) := by
  simp [sliceRange, ordered, inside, Ends]

theorem ends_indexAt {α : Type} {values : List α} {index : Nat} (inside : index < values.length) :
    Ends NoPanic (fun result => values[index]? = some result) (indexAt values index) := by
  refine Ends.okOr fun missing => ?_
  rw [List.getElem?_eq_none_iff] at missing
  omega

theorem checkedSum_eq_some {values : List Nat} {total : Nat}
    (summed : checkedSum values = some total) : total = values.sum := by
  have general : ∀ (rest : List Nat) (start result : Nat),
      rest.foldlM checkedAdd start = some result → result = start + rest.sum := by
    intro rest
    induction rest with
    | nil =>
        intro start result folded
        simpa [eq_comm] using folded
    | cons head tail ih =>
        intro start result folded
        rw [List.foldlM_cons] at folded
        obtain ⟨next, added, folded⟩ := Option.bind_eq_some_iff.mp folded
        rw [checkedAdd_eq_some_iff] at added
        rw [ih next result folded, added.2, List.sum_cons, Nat.add_assoc]
  simpa using general values 0 total summed

theorem fromProtocol_eq_ok_iff {α : Type} {result : Except ProtocolError α}
    {value : α} : fromProtocol result = .ok value ↔ result = .ok value := by
  cases result with
  | ok actual =>
      exact ⟨fun same => congrArg Except.ok (Except.ok.inj same),
        fun same => congrArg Except.ok (Except.ok.inj same)⟩
  | error failure =>
      exact iff_of_false (fun made => by cases made)
        (fun made => by cases made)

end Steps

section Frames

variable (checksum : List UInt8 → UInt32)

/-- The frame `Frame.new` builds for a header and a payload. -/
structure Frame.BuiltFrom (frame : Frame) (header : FrameHeader) (payload : List UInt8) :
    Prop where
  valid : frame.header.validate checksum (some frame.payload) = .ok ()
  payload : frame.payload = payload
  opcode : frame.header.opcode = header.opcode
  elementType : frame.header.elementType = header.elementType
  source : frame.header.sourceRank = header.sourceRank
  destination : frame.header.destinationRank = header.destinationRank
  root : frame.header.rootRank = header.rootRank
  sequence : frame.header.sequence = header.sequence
  tag : frame.header.tag = header.tag
  count : frame.header.elementCount = header.elementCount
  session : frame.header.uniqueId = header.uniqueId
  world : frame.header.worldSize = header.worldSize

theorem Frame.builtFrom_of_new {header : FrameHeader} {payload : List UInt8} {frame : Frame}
    (built : Frame.new checksum header payload = .ok frame) :
    frame.BuiltFrom checksum header payload := by
  unfold Frame.new at built
  split at built
  · simp only [bind_eq_ok_iff, Except.ok.injEq] at built
    obtain ⟨_, valid, rfl⟩ := built
    exact ⟨valid, rfl, rfl, rfl, rfl, rfl, rfl, rfl, rfl, rfl, rfl, rfl⟩
  · simp only [bind_eq_ok_iff, Except.ok.injEq] at built
    obtain ⟨declared, withPayload, rfl⟩ := built
    simp only [FrameHeader.withPayload, bind_eq_ok_iff,
      rejectIf_eq_ok_iff, exists_const, Except.ok.injEq] at withPayload
    obtain ⟨small, _, bare, rfl⟩ := withPayload
    refine ⟨?_, rfl, rfl, rfl, rfl, rfl, rfl, rfl, rfl, rfl, rfl, rfl⟩
    rw [FrameHeader.validate_some_eq_ok_iff]
    refine ⟨bare, ?_, rfl⟩
    have bound : payload.length < 2 ^ 64 := by
      unfold maxFramePayloadBytes at small
      omega
    exact (UInt64.toNat_ofNat_of_lt' bound).symm

/-- A valid answer of a session to one rank of a collective. -/
structure Answers
    (uniqueId : UniqueId) (worldSize : Nat) (opcode : Opcode) (sequence : UInt64) (elementType : ElementType)
    (payload : List UInt8) (destination : Nat) (frame : Frame) :
    Prop where
  valid : frame.header.validate checksum (some frame.payload) = .ok ()
  payload : frame.payload = payload
  opcode : frame.header.opcode = opcode
  elementType : frame.header.elementType = elementType
  destination : frame.header.destinationRank.toNat = destination
  sequence : frame.header.sequence = sequence
  session : frame.header.uniqueId = uniqueId
  world : frame.header.worldSize.toNat = worldSize

theorem ends_response {uniqueId : UniqueId} {opcode : Opcode} {elementType : ElementType}
    {sequence : UInt64} {destination worldSize count : Nat}
    {flags : UInt16} {payload : List UInt8}
    (small : worldSize < 2 ^ 32) (inside : destination < worldSize) :
    Ends NoPanic
      (Answers checksum uniqueId worldSize opcode sequence elementType payload destination)
      (fromProtocol (Frame.new checksum
        { responseHeader checksum uniqueId opcode elementType sequence
            destination worldSize count with flags := flags }
        payload)) := by
  cases built : Frame.new checksum
      { responseHeader checksum uniqueId opcode elementType sequence
          destination worldSize count with flags := flags } payload with
  | error failure => simp [fromProtocol, Ends, NoPanic]
  | ok frame =>
      have meets := Frame.builtFrom_of_new checksum built
      refine ⟨meets.valid, meets.payload, meets.opcode,
        meets.elementType, ?_, meets.sequence, meets.session, ?_⟩
      · rw [meets.destination]
        exact UInt32.toNat_ofNat_of_lt' (show destination < 2 ^ 32 by omega)
      · rw [meets.world]
        exact UInt32.toNat_ofNat_of_lt' small

end Frames

/-- The `index`-th of `parts` equal parts of a payload. -/
def equalPart (parts index : Nat) (payload : List UInt8) : List UInt8 :=
  (payload.drop (index * (payload.length / parts))).take (payload.length / parts)

/-- The response that rank `index` is promised for its request.  The counted
variant has a contract of its own. -/
def Promised (requests : List Frame) (request : FrameHeader) (index : Nat)
    (response : Frame) : Prop :=
  match request.opcode with
  | .barrier | .setTimeout => response.payload = []
  | .broadcast =>
      ∃ root, requests[request.rootRank.toNat]? = some root ∧ response.payload = root.payload
  | .allGather | .allReduce => response.payload = requests.flatMap Frame.payload
  | .gather | .reduce =>
      if index = request.rootRank.toNat then
        response.payload = requests.flatMap Frame.payload
      else
        response.payload = [] ∧ response.header.elementType = .none
  | .scatter =>
      ∃ root, requests[request.rootRank.toNat]? = some root ∧
        requests.length ∣ root.payload.length ∧
        response.payload = equalPart requests.length index root.payload
  | .reduceScatter | .allToAll =>
      (∀ other ∈ requests, requests.length ∣ other.payload.length) ∧
        response.payload = requests.flatMap fun other =>
          equalPart requests.length index other.payload
  | .allToAllV => True
  | .join | .ready | .peerEndpoint | .send | .receive | .abort
  | .heartbeat | .leave => False

/-- A valid, correctly addressed response with the promised payload. -/
structure Responds (checksum : List UInt8 → UInt32) (uniqueId : UniqueId) (requests : List Frame)
    (sequence : UInt64) (request : FrameHeader) (index : Nat)
    (response : Frame) : Prop where
  valid : response.header.validate checksum (some response.payload) = .ok ()
  destination : response.header.destinationRank.toNat = index
  opcode : response.header.opcode = request.opcode
  sequence : response.header.sequence = sequence
  session : response.header.uniqueId = uniqueId
  world : response.header.worldSize.toNat = requests.length
  promised : Promised requests request index response

section Collectives

variable (checksum : List UInt8 → UInt32)
variable {requests : List Frame} {uniqueId : UniqueId}
variable {sequence : UInt64}

theorem Answers.responds {opcode : Opcode} {elementType : ElementType}
    {payload : List UInt8} {request : FrameHeader} {index : Nat}
    {frame : Frame}
    (answers : Answers checksum uniqueId requests.length opcode sequence
      elementType payload index frame)
    (sameOpcode : request.opcode = opcode)
    (promised : Promised requests request index frame) :
    Responds checksum uniqueId requests sequence request index frame :=
  ⟨answers.valid, answers.destination, answers.opcode.trans sameOpcode.symm, answers.sequence,
    answers.session, answers.world, promised⟩

/-- Collect one response per rank. -/
theorem ends_ranks {post : Nat → Frame → Prop} {action : Nat → Except Fault Frame}
    (each : ∀ rank < requests.length, Ends NoPanic (post rank) (action rank)) :
    Ends NoPanic (List.Forall₂ post (List.range requests.length))
      ((List.range requests.length).mapM action) :=
  Ends.mapM fun rank member => each rank (List.mem_range.mp member)

theorem ends_routeEmpty {opcode : Opcode} (small : requests.length < 2 ^ 32) :
    Ends NoPanic
      (List.Forall₂ (Answers checksum uniqueId requests.length opcode sequence .none [])
        (List.range requests.length))
      (routeEmpty checksum requests uniqueId sequence opcode) := by
  unfold routeEmpty
  split
  · exact ends_invalid _
  · apply ends_ranks
    intro rank inside
    exact ends_response checksum small inside

theorem ends_routeSamePayload {opcode : Opcode} {elementType : ElementType} {count : Nat}
    {payload : List UInt8} (small : requests.length < 2 ^ 32) :
    Ends NoPanic
      (List.Forall₂ (Answers checksum uniqueId requests.length opcode
          sequence elementType payload)
        (List.range requests.length))
      (routeSamePayload checksum requests uniqueId sequence opcode
        elementType count payload) := by
  apply ends_ranks
  intro rank inside
  exact ends_response checksum small inside

theorem ends_routeRootPayload {opcode : Opcode} {elementType : ElementType} {root count : Nat}
    {payload : List UInt8} (small : requests.length < 2 ^ 32) :
    Ends NoPanic
      (List.Forall₂
        (fun rank => Answers checksum uniqueId requests.length opcode sequence
          (if rank = root then elementType else .none)
          (if rank = root then payload else []) rank)
        (List.range requests.length))
      (routeRootPayload checksum requests uniqueId sequence opcode
        elementType root count payload) := by
  apply ends_ranks
  intro rank inside
  by_cases atRoot : rank = root
  · simp only [if_pos atRoot]
    exact ends_response checksum small inside
  · simp only [if_neg atRoot]
    exact ends_response checksum small inside

theorem ends_requiredRoot (root : Option Nat) (worldSize : Nat) :
    Ends NoPanic (fun chosen => root = some chosen ∧ chosen < worldSize)
      (requiredRoot root worldSize) := by
  cases root with
  | none => exact ends_invalid _
  | some root =>
      unfold requiredRoot
      by_cases inside : root < worldSize
      · simp [inside, Ends]
      · simpa [inside] using ends_invalid _

theorem ends_requireAllPayloads (bytes : Nat) :
    Ends NoPanic (fun _ => ∀ request ∈ requests, request.payload.length = bytes)
      (requireAllPayloads requests bytes) := by
  unfold requireAllPayloads
  split
  case h_1 => exact ends_invalid _
  case h_2 found =>
      rw [List.find?_eq_none] at found
      intro request member
      obtain ⟨index, inside, rfl⟩ := List.mem_iff_getElem.mp member
      have located : (requests[index], index) ∈ requests.zipIdx :=
        List.mem_zipIdx_iff_getElem?.mpr (by simp [inside])
      simpa using found _ located

theorem requireAllPayloads_succeeds {bytes : Nat}
    (each : ∀ request ∈ requests, request.payload.length = bytes) :
    requireAllPayloads requests bytes = .ok () := by
  unfold requireAllPayloads
  split
  case h_1 request index found =>
    have located := List.mem_zipIdx_iff_getElem?.mp (List.mem_of_find?_eq_some found)
    have short := List.find?_some found
    simp [each request (List.mem_of_getElem? located)] at short
  case h_2 => rfl

theorem ends_requireOnlyRootPayload (root bytes : Nat) :
    Ends NoPanic
      (fun _ => ∀ request, requests[root]? = some request → request.payload.length = bytes)
      (requireOnlyRootPayload requests root bytes) := by
  have each : Ends NoPanic
      (fun _ => ∀ entry ∈ requests.zipIdx,
        entry.1.payload.length = if entry.2 = root then bytes else 0)
      (requireOnlyRootPayload requests root bytes) := by
    apply Ends.forM
    intro entry _
    apply Ends.mono (ends_invalidIf _ _)
    intro _ same
    exact not_not.mp same
  apply Ends.mono each
  intro _ lengths request located
  have entry := lengths (request, root) (List.mem_zipIdx_iff_getElem?.mpr located)
  simpa using entry

theorem ends_gatherPayloads (count bytes : Nat) (message : String) :
    Ends NoPanic (fun gathered => gathered.1 = requests.flatMap Frame.payload)
      (gatherPayloads requests count bytes message) := by
  unfold gatherPayloads concatenatePayloads
  apply Ends.bind (ends_requireAllPayloads bytes)
  intro _ _
  apply Ends.bind
  · apply Ends.bind (ends_orInvalid _ _)
    intro _ _
    exact Ends.ok (show _ = requests.flatMap Frame.payload from rfl)
  · intro payload payloadEq
    apply Ends.bind (ends_orInvalid _ _)
    intro _ _
    exact payloadEq.symm

/-- Lengths of a payload that splits into equal shards. -/
structure Splits (parts count elementBytes : Nat) : Prop where
  positive : 0 < parts
  divides : count % parts = 0
  bounded : count * elementBytes < wordSize

theorem Splits.shard_eq {parts count elementBytes : Nat}
    (splits : Splits parts count elementBytes) :
    parts * (count / parts * elementBytes) = count * elementBytes := by
  rw [← Nat.mul_assoc, Nat.mul_div_cancel' (Nat.dvd_of_mod_eq_zero splits.divides)]

theorem Splits.shard_bounded {parts count elementBytes : Nat}
    (splits : Splits parts count elementBytes) :
    count / parts * elementBytes < wordSize := by
  have whole := splits.shard_eq
  have bound := splits.bounded
  have smaller := Nat.le_mul_of_pos_left (count / parts * elementBytes) splits.positive
  omega

theorem ends_equalShard {allowed : Fault → Prop}
    {parts count elementBytes index : Nat} {request : Frame}
    (splits : Splits parts count elementBytes) (inside : index < parts)
    (length : request.payload.length = count * elementBytes) :
    Ends allowed (fun shard => shard = equalPart parts index request.payload)
      (equalShard (count / parts * elementBytes) index request) := by
  have whole := splits.shard_eq
  generalize shardEq : count / parts * elementBytes = shard at whole
  have bound := splits.bounded
  have start : (index + 1) * shard ≤ parts * shard := Nat.mul_le_mul_right shard inside
  rw [Nat.add_mul, Nat.one_mul] at start
  have part : request.payload.length / parts = shard := by
    rw [length, ← whole]
    exact Nat.mul_div_cancel_left shard splits.positive
  unfold equalShard
  apply Ends.bind (ends_uncheckedMul (by omega))
  rintro _ rfl
  apply Ends.bind (ends_uncheckedAdd (by omega))
  rintro _ rfl
  apply Ends.mono (ends_sliceRange (by omega) (by omega))
  rintro _ rfl
  rw [equalPart, part, Nat.add_sub_cancel_left]

theorem ends_routeScatter {first : FrameHeader} {root count elementBytes : Nat}
    {request : Frame} (small : requests.length < 2 ^ 32)
    (located : requests[root]? = some request)
    (bounded : count * elementBytes < wordSize)
    (length : request.payload.length = count * elementBytes) :
    Ends NoPanic
      (fun responses => requests.length ∣ request.payload.length ∧ List.Forall₂
          (fun rank => Answers checksum uniqueId requests.length
            first.opcode sequence first.elementType
            (equalPart requests.length rank request.payload) rank)
          (List.range requests.length) responses)
      (routeScatter checksum requests uniqueId sequence first root count elementBytes) := by
  have rootInside : root < requests.length := (List.getElem?_eq_some_iff.mp located).1
  unfold routeScatter
  apply Ends.bind (ends_invalidIf _ _)
  intro _ divides
  have splits : Splits requests.length count elementBytes :=
    ⟨by omega, not_not.mp divides, bounded⟩
  apply Ends.bind (ends_uncheckedMul splits.shard_bounded)
  rintro _ rfl
  apply Ends.mono (ends_ranks fun rank inside => ?_)
  · intro responses all
    refine ⟨?_, all⟩
    rw [length, ← splits.shard_eq]
    exact Nat.dvd_mul_right _ _
  · apply Ends.bind (ends_indexAt rootInside)
    intro found foundEq
    have same : found = request := by
      rw [located] at foundEq
      exact (Option.some.inj foundEq).symm
    subst same
    apply Ends.bind (ends_equalShard splits inside length)
    rintro _ rfl
    exact ends_response checksum small inside

theorem forall₂_eq_map {α β : Type} {f : α → β} {items : List α} {values : List β}
    (related : List.Forall₂ (fun item value => value = f item) items values) :
    values = items.map f := by
  induction related with
  | nil => rfl
  | cons head _ ih => rw [head, ih, List.map_cons]

theorem ends_routeTransposed {first : FrameHeader} {count elementBytes : Nat} {message : String}
    {responseCount : Nat → Nat → Except Fault Nat}
    (small : requests.length < 2 ^ 32) (nonempty : 0 < requests.length)
    (bounded : count * elementBytes < wordSize)
    (lengths : ∀ request ∈ requests, request.payload.length = count * elementBytes)
    (counts : Splits requests.length count elementBytes → Ends NoPanic (fun _ => True)
        (responseCount (count / requests.length) (count / requests.length * elementBytes))) :
    Ends NoPanic
      (fun responses =>
        (∀ other ∈ requests, requests.length ∣ other.payload.length) ∧
        List.Forall₂
          (fun rank => Answers checksum uniqueId requests.length
            first.opcode sequence first.elementType
            (requests.flatMap fun other =>
              equalPart requests.length rank other.payload) rank)
          (List.range requests.length) responses)
      (routeTransposed checksum requests uniqueId sequence first count
        elementBytes message responseCount) := by
  unfold routeTransposed
  apply Ends.bind (ends_invalidIf _ _)
  intro _ divides
  have splits : Splits requests.length count elementBytes :=
    ⟨nonempty, not_not.mp divides, bounded⟩
  apply Ends.bind (ends_uncheckedMul splits.shard_bounded)
  rintro _ rfl
  apply Ends.mono (ends_ranks fun destination inside => ?_)
  · intro responses all
    refine ⟨?_, all⟩
    intro other member
    rw [lengths other member, ← splits.shard_eq]
    exact Nat.dvd_mul_right _ _
  · apply Ends.bind (Ends.mapM fun request member =>
      ends_equalShard splits inside (lengths request member))
    intro shards shardsEq
    have flat : shards.flatten = requests.flatMap fun other =>
        equalPart requests.length destination other.payload := by
      rw [forall₂_eq_map shardsEq, List.flatMap_def]
    apply Ends.bind (counts splits)
    intro _ _
    rw [flat]
    exact ends_response checksum small inside

theorem chunksOfEight_length (bytes : List UInt8) :
    (chunksOfEight bytes).length = bytes.length / 8 := by
  induction bytes using chunksOfEight.induct with
  | case1 b0 b1 b2 b3 b4 b5 b6 b7 rest ih =>
      simp only [chunksOfEight, List.length_cons, ih]
      omega
  | case2 bytes short =>
      have fewer : bytes.length < 8 := by
        by_contra enough
        match bytes with
        | b0 :: b1 :: b2 :: b3 :: b4 :: b5 :: b6 :: b7 :: rest =>
            exact short b0 b1 b2 b3 b4 b5 b6 b7 rest rfl
        | [] | [_] | [_, _] | [_, _, _] | [_, _, _, _]
        | [_, _, _, _, _] | [_, _, _, _, _, _]
        | [_, _, _, _, _, _, _] => simp at enough
      rw [Nat.div_eq_of_lt fewer]
      unfold chunksOfEight
      split
      · simp only [List.length_cons] at fewer
        omega
      · rfl

/-- A decoded row has one count per rank and exactly the data they announce. -/
structure RowFits (worldSize elementBytes : Nat) (row : List Nat × List UInt8) :
    Prop where
  width : row.1.length = worldSize
  data : row.2.length = row.1.sum * elementBytes
  bounded : row.1.sum * elementBytes < wordSize

theorem ends_decodeCountsPayload (frame : Frame) (worldSize elementBytes : Nat) :
    Ends NoPanic (RowFits worldSize elementBytes)
      (decodeCountsPayload frame worldSize elementBytes) := by
  unfold decodeCountsPayload
  apply Ends.bind (ends_invalidIf _ _)
  intro _ _
  apply Ends.bind (ends_orInvalid _ _)
  intro prefixBytes product
  obtain ⟨_, rfl⟩ := (checkedMul_eq_some_iff _ _ _).mp product
  apply Ends.bind (ends_invalidIf _ _)
  intro _ long
  apply Ends.bind (ends_sliceRange (Nat.zero_le _) (not_lt.mp long))
  rintro _ rfl
  apply Ends.bind (ends_orInvalid _ _)
  intro total summed
  have totalEq := checkedSum_eq_some summed
  apply Ends.bind (ends_invalidIf _ _)
  intro _ _
  apply Ends.bind (ends_orInvalid _ _)
  intro expectedData product
  obtain ⟨bounded, rfl⟩ := (checkedMul_eq_some_iff _ _ _).mp product
  apply Ends.bind (ends_sliceRange (not_lt.mp long) (le_refl _))
  rintro _ rfl
  apply Ends.bind (ends_invalidIf _ _)
  intro _ sameLength
  refine Ends.ok ⟨?_, ?_, ?_⟩
  · simp only [List.length_map, chunksOfEight_length, List.drop_zero,
      Nat.sub_zero, List.length_take]
    omega
  · rw [← totalEq]
    exact not_not.mp sameLength
  · rw [← totalEq]
    exact bounded

theorem sum_take_add_le {counts : List Nat} {index count : Nat}
    (located : counts[index]? = some count) :
    (counts.take index).sum + count ≤ counts.sum := by
  obtain ⟨inside, rfl⟩ := List.getElem?_eq_some_iff.mp located
  have split := List.sum_take_add_sum_drop counts index
  rw [List.drop_eq_getElem_cons inside, List.sum_cons] at split
  omega

theorem ends_rowShard {worldSize elementBytes destination : Nat} {row : List Nat × List UInt8}
    (fits : RowFits worldSize elementBytes row)
    (inside : destination < worldSize) :
    Ends NoPanic (fun _ => True) (rowShard elementBytes destination row) := by
  have width := fits.width
  unfold rowShard
  apply Ends.bind (ends_sliceRange (Nat.zero_le _) (by omega))
  rintro _ rfl
  apply Ends.bind (ends_orInvalid _ _)
  intro startElements summed
  have startEq := checkedSum_eq_some summed
  simp only [List.drop_zero, Nat.sub_zero] at startEq
  apply Ends.bind (ends_orInvalid _ _)
  intro start product
  obtain ⟨_, rfl⟩ := (checkedMul_eq_some_iff _ _ _).mp product
  apply Ends.bind (ends_indexAt (by omega))
  intro count located
  apply Ends.bind (ends_orInvalid _ _)
  intro bytes product
  obtain ⟨_, rfl⟩ := (checkedMul_eq_some_iff _ _ _).mp product
  have elements : startElements + count ≤ row.1.sum := by
    rw [startEq]
    exact sum_take_add_le located
  have stop : startElements * elementBytes + count * elementBytes ≤
      row.2.length := by
    rw [fits.data, ← Nat.add_mul]
    exact Nat.mul_le_mul_right elementBytes elements
  have bounded := fits.bounded
  rw [← fits.data] at bounded
  apply Ends.bind (ends_uncheckedAdd (by omega))
  rintro _ rfl
  apply Ends.mono (ends_sliceRange (by omega) stop)
  intro _ _
  trivial

theorem ends_routeAllToAllV {elementType : ElementType} {elementBytes : Nat}
    (small : requests.length < 2 ^ 32) :
    Ends NoPanic
      (List.Forall₂
        (fun rank frame => ∃ payload,
          Answers checksum uniqueId requests.length .allToAllV sequence
            elementType payload rank frame)
        (List.range requests.length))
      (routeAllToAllV checksum requests uniqueId sequence elementType elementBytes) := by
  unfold routeAllToAllV
  apply Ends.bind (ends_invalidIf _ _)
  intro _ _
  apply Ends.bind (Ends.mapM fun request _ =>
    ends_decodeCountsPayload request requests.length elementBytes)
  intro rows rowsFit
  have fits : ∀ row ∈ rows, RowFits requests.length elementBytes row := by
    intro row member
    obtain ⟨index, inside, rfl⟩ := List.mem_iff_getElem.mp member
    exact rowsFit.get (by rw [rowsFit.length_eq]; exact inside) inside
  apply ends_ranks
  intro destination inside
  apply Ends.bind (Ends.mapM fun row member =>
    ends_indexAt (by rw [(fits row member).width]; exact inside))
  intro receiveCounts _
  apply Ends.bind (ends_orInvalid _ _)
  intro receiveTotal _
  apply Ends.bind (ends_orInvalid _ _)
  intro _ _
  apply Ends.bind (Ends.mapM fun row member =>
    ends_rowShard (fits row member) inside)
  intro shards _
  exact Ends.mono (ends_response checksum small inside) fun frame answers => ⟨_, answers⟩

theorem ends_routeGathered {first : FrameHeader} {count bytes : Nat} {message : String}
    (small : requests.length < 2 ^ 32)
    (opcode : first.opcode = .allGather ∨ first.opcode = .allReduce) :
    Ends NoPanic
      (List.Forall₂ (Responds checksum uniqueId requests sequence first)
        (List.range requests.length))
      (routeGathered checksum requests uniqueId sequence first count bytes message) := by
  unfold routeGathered
  apply Ends.bind (ends_gatherPayloads _ _ _)
  rintro ⟨payload, total⟩ rfl
  apply Ends.mono (ends_routeSamePayload checksum small)
  intro responses all
  refine all.imp fun _ _ answers => answers.responds checksum rfl ?_
  rcases opcode with opcode | opcode <;>
    simpa [Promised, opcode] using answers.payload

theorem ends_routeRooted {first : FrameHeader} {root : Option Nat} {count bytes : Nat}
    (small : requests.length < 2 ^ 32)
    (opcode : first.opcode = .gather ∨ first.opcode = .reduce)
    (rootOf : ∀ chosen, root = some chosen → first.rootRank.toNat = chosen) :
    Ends NoPanic
      (List.Forall₂ (Responds checksum uniqueId requests sequence first)
        (List.range requests.length))
      (routeRooted checksum requests uniqueId sequence first root count bytes) := by
  unfold routeRooted
  apply Ends.bind (ends_requiredRoot _ _)
  rintro chosen ⟨chosenEq, inside⟩
  apply Ends.bind (ends_gatherPayloads _ _ _)
  rintro ⟨payload, total⟩ rfl
  apply Ends.mono (ends_routeRootPayload checksum small)
  intro responses all
  refine all.imp fun rank frame answers =>
    answers.responds checksum rfl ?_
  have promised :
      if rank = first.rootRank.toNat then
        frame.payload = requests.flatMap Frame.payload
      else frame.payload = [] ∧ frame.header.elementType = .none := by
    have payload := answers.payload
    have elementType := answers.elementType
    rw [rootOf chosen chosenEq]
    by_cases atRoot : rank = chosen
    · simpa [atRoot] using payload
    · simp only [if_neg atRoot] at payload elementType ⊢
      exact ⟨payload, elementType⟩
  rcases opcode with opcode | opcode <;>
    simpa [Promised, opcode] using promised

theorem ends_routeReduceScatter {first : FrameHeader} (small : requests.length < 2 ^ 32)
    (nonempty : 0 < requests.length)
    (opcode : first.opcode = .reduceScatter)
    (bounded : first.elementCount.toNat * first.elementType.byteWidth < wordSize)
    (lengths : ∀ request ∈ requests, request.payload.length =
      first.elementCount.toNat * first.elementType.byteWidth) :
    Ends NoPanic
      (List.Forall₂ (Responds checksum uniqueId requests sequence first)
        (List.range requests.length))
      (routeReduceScatter checksum requests uniqueId sequence first
        first.elementCount.toNat first.elementType.byteWidth) := by
  apply Ends.mono (ends_routeTransposed checksum small nonempty bounded lengths ?_)
  · rintro responses ⟨divides, all⟩
    refine all.imp fun _ _ answers => answers.responds checksum rfl ?_
    simp only [Promised, opcode]
    exact ⟨divides, answers.payload⟩
  · intro splits
    have whole := splits.shard_eq
    have bound := splits.bounded
    have elements := Nat.div_mul_le_self first.elementCount.toNat requests.length
    have word : first.elementCount.toNat < wordSize := first.elementCount.toNat_lt
    apply Ends.bind (ends_uncheckedMul (by rw [Nat.mul_comm]; omega))
    intro _ _
    apply Ends.mono (ends_uncheckedMul (by omega))
    intro _ _
    trivial

theorem ends_routeAllToAll {first : FrameHeader} (small : requests.length < 2 ^ 32)
    (nonempty : 0 < requests.length)
    (opcode : first.opcode = .allToAll)
    (bounded : first.elementCount.toNat * first.elementType.byteWidth < wordSize)
    (lengths : ∀ request ∈ requests, request.payload.length =
      first.elementCount.toNat * first.elementType.byteWidth) :
    Ends NoPanic
      (List.Forall₂ (Responds checksum uniqueId requests sequence first)
        (List.range requests.length))
      (routeAllToAll checksum requests uniqueId sequence first
        first.elementCount.toNat first.elementType.byteWidth) := by
  apply Ends.mono (ends_routeTransposed checksum small nonempty bounded lengths ?_)
  · rintro responses ⟨divides, all⟩
    refine all.imp fun _ _ answers => answers.responds checksum rfl ?_
    simp only [Promised, opcode]
    exact ⟨divides, answers.payload⟩
  · intro _
    exact Ends.ok trivial

theorem ends_routeRequests {first : Frame} (small : requests.length < 2 ^ 32)
    (located : requests[0]? = some first) :
    Ends NoPanic
      (List.Forall₂ (Responds checksum uniqueId requests sequence first.header)
        (List.range requests.length))
      (routeRequests checksum requests uniqueId sequence) := by
  have nonempty : 0 < requests.length := (List.getElem?_eq_some_iff.mp located).1
  unfold routeRequests
  apply Ends.bind (ends_indexAt nonempty)
  intro found foundEq
  have same : found = first := by
    rw [located] at foundEq
    exact (Option.some.inj foundEq).symm
  subst same
  apply Ends.bind (ends_orInvalid _ _)
  intro rankPayloadBytes product
  obtain ⟨bounded, rfl⟩ := (checkedMul_eq_some_iff _ _ _).mp product
  have rootOf : ∀ chosen,
      (if found.header.rootRank = anyRank then none
        else some found.header.rootRank.toNat) = some chosen →
      found.header.rootRank.toNat = chosen := by
    intro chosen chosenEq
    split at chosenEq
    · cases chosenEq
    · exact Option.some.inj chosenEq
  dsimp only
  -- one goal per arm of the source's match, in its order
  split
  case h_1 opcode =>
    apply Ends.mono (ends_routeEmpty checksum small)
    intro responses all
    exact all.imp fun _ _ answers => answers.responds checksum opcode
      (by simpa [Promised, opcode] using answers.payload)
  case h_2 opcode =>
    split
    · exact ends_invalid _
    apply Ends.mono (ends_routeEmpty checksum small)
    intro responses all
    exact all.imp fun _ _ answers => answers.responds checksum opcode
      (by simpa [Promised, opcode] using answers.payload)
  case h_3 opcode =>
    apply Ends.bind (ends_requiredRoot _ _)
    rintro root ⟨chosen, inside⟩
    apply Ends.bind (ends_requireOnlyRootPayload _ _)
    intro _ _
    apply Ends.bind (ends_indexAt inside)
    intro request requestAt
    apply Ends.mono (ends_routeSamePayload checksum small)
    intro responses all
    refine all.imp fun _ _ answers => answers.responds checksum rfl ?_
    simp only [Promised, opcode, rootOf root chosen]
    exact ⟨request, requestAt, answers.payload⟩
  case h_4 opcode => exact ends_routeGathered checksum small (Or.inl opcode)
  case h_5 opcode => exact ends_routeRooted checksum small (Or.inl opcode) rootOf
  case h_6 opcode => exact ends_routeRooted checksum small (Or.inr opcode) rootOf
  case h_7 opcode =>
    apply Ends.bind (ends_requiredRoot _ _)
    rintro root ⟨chosen, inside⟩
    apply Ends.bind (ends_requireOnlyRootPayload _ _)
    intro _ rootLength
    have rootAt := List.getElem?_eq_getElem inside
    apply Ends.mono (ends_routeScatter checksum small rootAt bounded (rootLength _ rootAt))
    rintro responses ⟨divides, all⟩
    refine all.imp fun _ _ answers => answers.responds checksum rfl ?_
    simp only [Promised, opcode, rootOf root chosen]
    exact ⟨_, rootAt, divides, answers.payload⟩
  case h_8 opcode => exact ends_routeGathered checksum small (Or.inr opcode)
  case h_9 opcode =>
    apply Ends.bind (ends_requireAllPayloads _)
    intro _ lengths
    exact ends_routeReduceScatter checksum small nonempty opcode bounded lengths
  case h_10 opcode =>
    apply Ends.bind (ends_requireAllPayloads _)
    intro _ lengths
    exact ends_routeAllToAll checksum small nonempty opcode bounded lengths
  case h_11 opcode =>
    apply Ends.mono (ends_routeAllToAllV checksum small)
    intro responses all
    refine all.imp fun _ _ answered => ?_
    obtain ⟨_, answers⟩ := answered
    exact answers.responds checksum opcode (by simp [Promised, opcode])
  all_goals exact ends_invalid _

end Collectives

/-! ## Agreement of the requests -/

/-- An accepted submission agrees with everything recorded before it, and later
ranks still find it recorded. -/
theorem submit_eq_ok {agreement next : CollectiveAgreement} {rank : Nat}
    {sequence : UInt64} {descriptor : OperationDescriptor} {ready : Bool}
    (consistent : agreement.Consistent)
    (fresh : ∀ later ≥ rank, agreement.recorded later = none)
    (submitted :
      agreement.submit rank sequence descriptor = (next, .ok ready)) :
    (∀ earlier stored, agreement.recorded earlier = some stored → stored = descriptor) ∧
    next.Consistent ∧ next.worldSize = agreement.worldSize ∧
    (rank + 1 < next.worldSize → (∀ later ≥ rank + 1, next.recorded later = none) ∧
      next.recorded rank = some descriptor) := by
  let call : Submission := ⟨rank, sequence, descriptor⟩
  have kept := CollectiveAgreement.consistent_submitCall consistent call
  rcases CollectiveAgreement.submitCall_cases consistent call with
    ⟨failure, _, rejected, _⟩ | ⟨acceptable, outcome⟩
  · change agreement.submit rank sequence descriptor = _ at rejected
    rw [rejected] at submitted
    cases submitted
  change agreement.AcceptedOutcome call (agreement.submit rank sequence descriptor) at outcome
  change (agreement.submit rank sequence descriptor).1.Consistent at kept
  rw [submitted] at outcome kept
  refine ⟨acceptable.2.2.2, kept, ?_⟩
  rcases outcome with
    ⟨others, _, moved⟩ | ⟨_, _, overflow⟩ | ⟨_, stored⟩
  · cases moved
    refine ⟨rfl, fun more => ?_⟩
    exact absurd (fresh (rank + 1) (Nat.le_succ rank))
      (others (rank + 1) more (Nat.succ_ne_self rank))
  · cases overflow
  · cases stored
    refine ⟨rfl, fun _ => ⟨?_, ?_⟩⟩
    · intro later bound
      rw [CollectiveAgreement.recorded_stored consistent acceptable.1,
        if_neg (show later ≠ call.rank from by
          change later ≠ rank
          omega)]
      exact fresh later (by omega)
    · rw [CollectiveAgreement.recorded_stored consistent acceptable.1]
      exact if_pos rfl

theorem submitRequests_ne_panic (uniqueId : UniqueId) (sequence : UInt64) (worldSize : Nat)
    (agreement : CollectiveAgreement) (rank : Nat)
    (requests : List Frame) :
    (submitRequests uniqueId sequence worldSize agreement rank requests).2 ≠ .error .panic := by
  induction requests generalizing agreement rank with
  | nil => simp [submitRequests]
  | cons request rest ih =>
      simp only [submitRequests]
      split
      · simp
      split
      · simp [invalid]
      split
      · simp
      · exact ih _ _

/-- Requests that were all accepted behind a recorded descriptor repeat it. -/
theorem requestDescriptor_of_submitRequests
    {uniqueId : UniqueId} {sequence : UInt64} {worldSize : Nat}
    {descriptor : OperationDescriptor} (requests : List Frame) :
    ∀ {agreement : CollectiveAgreement} {rank : Nat}, agreement.Consistent →
      (rank < agreement.worldSize → (∀ later ≥ rank, agreement.recorded later = none) ∧
        ∃ earlier, agreement.recorded earlier = some descriptor) →
      (submitRequests uniqueId sequence worldSize agreement rank requests).2 = .ok () →
      ∀ request ∈ requests, requestDescriptor request.header = descriptor := by
  induction requests with
  | nil =>
      intro _ _ _ _ _ request member
      cases member
  | cons request rest ih =>
      intro agreement rank consistent behind submitted
      simp only [submitRequests] at submitted
      split at submitted
      · cases submitted
      split at submitted
      · cases submitted
      cases result : agreement.submit rank sequence (requestDescriptor request.header) with
      | mk next outcome =>
          rw [result] at submitted
          cases outcome with
          | error failure => cases submitted
          | ok ready =>
              have inside : rank < agreement.worldSize := by
                by_contra outside
                unfold CollectiveAgreement.submit at result
                rw [if_pos (not_lt.mp outside)] at result
                cases result
              obtain ⟨fresh, earlier, found⟩ := behind inside
              obtain ⟨agrees, kept, _, after⟩ := submit_eq_ok consistent fresh result
              have same := agrees earlier descriptor found
              have tail := ih kept
                (fun more => by
                  obtain ⟨nextFresh, nextFound⟩ := after more
                  exact ⟨nextFresh, rank, by rw [nextFound, same]⟩)
                submitted
              intro other member
              rcases List.mem_cons.mp member with equal | later
              · rw [equal, same]
              · exact tail other later

/-- A round of accepted requests: the world size is theirs and all descriptors
are the first one's. -/
theorem submitRequests_eq_ok {uniqueId : UniqueId} {sequence : UInt64}
    {agreement : CollectiveAgreement} {first : Frame} {rest : List Frame}
    {worldSize : Nat}
    (idle : ∀ pending, agreement.pending pending = none)
    (submitted :
      (submitRequests uniqueId sequence worldSize agreement 0 (first :: rest)).2 = .ok ()) :
    first.header.worldSize.toNat = worldSize ∧ ∀ request ∈ first :: rest,
        requestDescriptor request.header =
          requestDescriptor first.header := by
  have consistent := CollectiveAgreement.consistent_of_pending_none idle
  have fresh : ∀ later ≥ 0, agreement.recorded later = none := fun later _ =>
      CollectiveAgreement.recorded_of_pending_none (idle _) later
  simp only [submitRequests] at submitted
  split at submitted
  · cases submitted
  split at submitted
  · cases submitted
  rename_i _ connection
  have world : first.header.worldSize.toNat = worldSize := by
    by_contra different
    exact connection (Or.inr different)
  refine ⟨world, ?_⟩
  cases result : agreement.submit 0 sequence (requestDescriptor first.header) with
  | mk next outcome =>
      rw [result] at submitted
      cases outcome with
      | error failure => cases submitted
      | ok ready =>
          obtain ⟨_, kept, _, after⟩ := submit_eq_ok consistent fresh result
          have tail := requestDescriptor_of_submitRequests rest kept
            (fun more => by
              obtain ⟨nextFresh, nextFound⟩ := after more
              exact ⟨nextFresh, 0, nextFound⟩)
            submitted
          intro request member
          rcases List.mem_cons.mp member with equal | later
          · rw [equal]
          · exact tail request later

/-- Equal descriptors promise the same responses. -/
theorem Responds.of_descriptor {checksum : List UInt8 → UInt32} {uniqueId : UniqueId}
    {requests : List Frame} {sequence : UInt64} {first request : FrameHeader} {index : Nat}
    {response : Frame}
    (responds : Responds checksum uniqueId requests sequence first index response)
    (same : requestDescriptor request = requestDescriptor first) :
    Responds checksum uniqueId requests sequence request index response := by
  have opcode : request.opcode = first.opcode := congrArg OperationDescriptor.opcode same
  have root : request.rootRank = first.rootRank := congrArg OperationDescriptor.rootRank same
  refine ⟨responds.valid, responds.destination,
    responds.opcode.trans opcode.symm, responds.sequence,
    responds.session, responds.world, ?_⟩
  simpa only [Promised, opcode, root] using responds.promised

/-- Routing on an idle agreement ends in an error or in one response per rank
that keeps the promise made to the first request. -/
theorem ends_validateAndRoute {agreement : CollectiveAgreement} (checksum : List UInt8 → UInt32)
    (uniqueId : UniqueId) (sequence : UInt64) (first : Frame)
    (rest : List Frame)
    (idle : ∀ pending, agreement.pending pending = none) :
    Ends NoPanic
      (fun responses =>
        (∀ request ∈ first :: rest, requestDescriptor request.header =
            requestDescriptor first.header) ∧
        List.Forall₂
          (Responds checksum uniqueId (first :: rest) sequence first.header)
          (List.range (first :: rest).length) responses)
      (validateAndRoute checksum agreement uniqueId sequence (first :: rest)).2 := by
  unfold validateAndRoute
  cases submitted : submitRequests uniqueId sequence
      (first :: rest).length agreement 0 (first :: rest) with
  | mk after outcome =>
      cases outcome with
      | error failure =>
          have safe := submitRequests_ne_panic uniqueId sequence
            (first :: rest).length agreement 0 (first :: rest)
          rw [submitted] at safe
          simpa [Ends, NoPanic] using safe
      | ok _ =>
          have accepted := submitRequests_eq_ok idle (congrArg Prod.snd submitted)
          have small : (first :: rest).length < 2 ^ 32 := by
            rw [← accepted.1]
            exact first.header.worldSize.toNat_lt
          exact (ends_routeRequests checksum small rfl).mono
            fun responses kept => ⟨accepted.2, kept⟩

/-- A routed round answers every request as promised. -/
theorem responds_of_validateAndRoute
    {checksum : List UInt8 → UInt32} {agreement : CollectiveAgreement}
    {uniqueId : UniqueId} {sequence : UInt64}
    {requests responses : List Frame} (nonempty : requests ≠ [])
    (idle : ∀ pending, agreement.pending pending = none)
    (routed : (validateAndRoute checksum agreement uniqueId sequence
      requests).2 = .ok responses) :
    responses.length = requests.length ∧
    ∀ (index : Nat) (request response : Frame), requests[index]? = some request →
      responses[index]? = some response →
      Responds checksum uniqueId requests sequence request.header index
        response := by
  obtain ⟨first, rest, rfl⟩ := List.exists_cons_of_ne_nil nonempty
  have ends := ends_validateAndRoute checksum uniqueId sequence first rest idle
  rw [routed] at ends
  obtain ⟨same, kept⟩ := ends
  have lengths := kept.length_eq
  rw [List.length_range] at lengths
  refine ⟨lengths.symm, ?_⟩
  intro index request response requestAt responseAt
  obtain ⟨inside, responseEq⟩ := List.getElem?_eq_some_iff.mp responseAt
  have responds := kept.get (by rw [List.length_range, lengths]; exact inside) inside
  have member : request ∈ first :: rest := List.mem_of_getElem? requestAt
  simp only [List.get_eq_getElem, List.getElem_range, responseEq] at responds
  exact responds.of_descriptor (same request member)

/-- Coordinator routing computes the collective: for any requests on an idle
agreement it either reports an error or answers every rank with a valid
frame of the same opcode and sequence whose payload is the promised one; it never
leaves a buffer and never overflows a product. -/
theorem validateAndRoute_responds
    (checksum : List UInt8 → UInt32) (agreement : CollectiveAgreement)
    (uniqueId : UniqueId) (sequence : UInt64) (requests : List Frame)
    (nonempty : requests ≠ [])
    (idle : ∀ pending, agreement.pending pending = none) :
    (validateAndRoute checksum agreement uniqueId sequence requests).2 ≠ .error .panic ∧
    ∀ responses,
      (validateAndRoute checksum agreement uniqueId sequence requests).2 = .ok responses →
      responses.length = requests.length ∧
      ∀ index request response, requests[index]? = some request →
        responses[index]? = some response →
        Responds checksum uniqueId requests sequence request.header index
          response := by
  constructor
  · intro panics
    obtain ⟨first, rest, rfl⟩ := List.exists_cons_of_ne_nil nonempty
    have ends := ends_validateAndRoute checksum uniqueId sequence first rest idle
    rw [panics] at ends
    exact ends rfl
  · intro responses routed
    exact responds_of_validateAndRoute nonempty idle routed

/-- A session name for small worlds. -/
def zeroId : UniqueId := ⟨List.replicate 16 0, rfl⟩

/-- The byte sum in place of the payload checksum. -/
def byteSum (bytes : List UInt8) : UInt32 := UInt32.ofNat (bytes.map UInt8.toNat).sum

/-- An all-gather request of a rank of two with one byte of data. -/
def byteRequest (rank : UInt32) (byte : UInt8) : Frame where
  header :=
    { FrameHeader.collective byteSum zeroId .allGather .u8 rank anyRank 2 0 1 with
      flags := flagPayload
      payloadBytes := 1
      payloadChecksum := byteSum [byte] }
  payload := [byte]

theorem validateAndRoute_responds_pair :
    (∀ request ∈ [byteRequest 0 7, byteRequest 1 9],
      request.header.validate byteSum (some request.payload) = .ok ()) ∧
    ∃ left right,
      (validateAndRoute byteSum pairAgreement zeroId 0
        [byteRequest 0 7, byteRequest 1 9]).2 = .ok [left, right] ∧
      left.payload = [7, 9] ∧
      Responds byteSum zeroId [byteRequest 0 7, byteRequest 1 9] 0
        (byteRequest 1 9).header 1 right := by
  have routed := validateAndRoute_responds byteSum pairAgreement zeroId 0
    [byteRequest 0 7, byteRequest 1 9] (by simp) (fun _ => rfl)
  refine ⟨by decide, _, _, rfl, rfl, ?_⟩
  exact (routed.2 _ rfl).2 1 _ _ rfl rfl

end RuCCL.Rank
