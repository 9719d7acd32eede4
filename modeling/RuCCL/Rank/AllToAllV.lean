import RuCCL.Rank.CountedPayload

/-!
# The variable all-to-all is a transposition

Each request carries one shard for every rank.  The coordinator answers each rank
with the shards that were addressed to it, in the order of their senders, so routing
the answers once more gives the requests back.
-/

namespace RuCCL.Rank

open RuCCL.Library

variable {size elementBytes : Nat}

/-- Data of the announced length falls into blocks of given lengths. -/
theorem exists_blocks {α : Type} (sizes : List Nat) (data : List α)
    (whole : data.length = sizes.sum) :
    ∃ blocks : List (List α), blocks.map List.length = sizes ∧ blocks.flatten = data := by
  induction sizes generalizing data with
  | nil => exact ⟨[], rfl, (List.length_eq_zero_iff.mp whole).symm⟩
  | cons size rest ih =>
      rw [List.sum_cons] at whole
      obtain ⟨blocks, sized, joined⟩ := ih (data.drop size) (by rw [List.length_drop]; omega)
      refine ⟨data.take size :: blocks, ?_, ?_⟩
      · rw [List.map_cons, sized, List.length_take, Nat.min_eq_left (by omega)]
      · rw [List.flatten_cons, joined, List.take_append_drop]

/-- A frame with one count and one shard of as many elements for each slot. -/
structure Carries (elementBytes : Nat) (frame : Frame)
    (counts : Fin size → Nat) (shards : Fin size → List UInt8) : Prop where
  counted : Counted size elementBytes frame (List.ofFn counts) (List.ofFn shards).flatten
  sized : ∀ slot, (shards slot).length = counts slot * elementBytes

theorem Counted.exists_carries {frame : Frame} {counts : List Nat} {data : List UInt8}
    (counted : Counted size elementBytes frame counts data) :
    ∃ (slotCounts : Fin size → Nat) (shards : Fin size → List UInt8),
      Carries elementBytes frame slotCounts shards := by
  have scaled : (counts.map (· * elementBytes)).sum = counts.sum * elementBytes := by
    have product := List.sum_map_mul_right counts (fun count => count) elementBytes
    rwa [List.map_id'] at product
  obtain ⟨blocks, sized, joined⟩ := exists_blocks
    (counts.map (· * elementBytes)) data (counted.filled.trans scaled.symm)
  have blockCount : blocks.length = counts.length := by
    have lengths := congrArg List.length sized
    rwa [List.length_map, List.length_map] at lengths
  have width := counted.width
  subst width
  refine ⟨counts.get, fun slot => blocks.get (slot.cast blockCount.symm), ?_, fun slot => ?_⟩
  · have listed : List.ofFn (fun slot : Fin counts.length =>
        blocks.get (slot.cast blockCount.symm)) = blocks := by
      refine List.ext_getElem? fun index => ?_
      rw [List.getElem?_ofFn]
      split
      case isTrue inside =>
        have within : index < blocks.length := by
          rw [blockCount]
          exact inside
        exact (List.getElem?_eq_getElem within).symm
      case isFalse outside =>
        rw [eq_comm, List.getElem?_eq_none_iff, blockCount]
        exact Nat.le_of_not_lt outside
    rw [listed, joined, List.ofFn_get]
    exact counted
  · have within : slot.val < blocks.length := by
      rw [blockCount]
      exact slot.isLt
    have here := congrArg (·[slot.val]?) sized
    rw [List.getElem?_map, List.getElem?_map, List.getElem?_eq_getElem within,
      List.getElem?_eq_getElem slot.isLt] at here
    exact Option.some.inj here

namespace Carries

variable {frame : Frame} {counts : Fin size → Nat} {shards : Fin size → List UInt8}

theorem getElem?_counts (counts : Fin size → Nat) (slot : Fin size) :
    (List.ofFn counts)[slot.val]? = some (counts slot) := by
  rw [List.getElem?_ofFn, dif_pos slot.isLt]

theorem map_length_shards (carries : Carries elementBytes frame counts shards) :
    (List.ofFn shards).map List.length = (List.ofFn counts).map (· * elementBytes) := by
  rw [List.map_ofFn, List.map_ofFn]
  exact congrArg List.ofFn (funext carries.sized)

/-- The shard of a slot is what lies behind the shards before it. -/
theorem slot (carries : Carries elementBytes frame counts shards) (slot : Fin size) :
    segment (List.ofFn shards).flatten (before (List.ofFn counts) slot * elementBytes)
        (counts slot * elementBytes) = shards slot := by
  have located : (List.ofFn shards)[slot.val]? = some (shards slot) := by
    rw [List.getElem?_ofFn, dif_pos slot.isLt]
  have block := segment_flatten located
  rw [carries.map_length_shards, before_map_mul, carries.sized] at block
  exact block

/-- The coordinator cuts the shard of a slot out of the row. -/
theorem rowShard_eq (carries : Carries elementBytes frame counts shards) (slot : Fin size) :
    rowShard elementBytes slot (List.ofFn counts, (List.ofFn shards).flatten) =
      .ok (shards slot) := by
  have located := getElem?_counts counts slot
  have elements := before_add_le_sum located
  have bytes : before (List.ofFn counts) slot * elementBytes + counts slot * elementBytes ≤
        (List.ofFn shards).flatten.length := by
    rw [carries.counted.filled, ← Nat.add_mul]
    exact Nat.mul_le_mul_right elementBytes elements
  have small := carries.counted.dataFits
  rw [← carries.counted.filled] at small
  have total := carries.counted.sum_lt
  have inside : slot.val ≤ (List.ofFn counts).length := by
    rw [List.length_ofFn]
    exact slot.isLt.le
  rw [rowShard]
  refine (bind_eq_ok_iff ..).mpr ⟨(List.ofFn counts).take slot,
    if_pos ⟨Nat.zero_le _, inside⟩, ?_⟩
  refine (bind_eq_ok_iff ..).mpr ⟨before (List.ofFn counts) slot,
    (okOr_eq_ok_iff ..).mpr (checkedSum_eq_some_iff.mpr
      ⟨show before _ _ < wordSize by omega, rfl⟩), ?_⟩
  refine (bind_eq_ok_iff ..).mpr ⟨_, (okOr_eq_ok_iff ..).mpr
    ((checkedMul_eq_some_iff ..).mpr ⟨by omega, rfl⟩), ?_⟩
  refine (bind_eq_ok_iff ..).mpr ⟨counts slot, (okOr_eq_ok_iff ..).mpr located, ?_⟩
  refine (bind_eq_ok_iff ..).mpr ⟨_, (okOr_eq_ok_iff ..).mpr
    ((checkedMul_eq_some_iff ..).mpr ⟨by omega, rfl⟩), ?_⟩
  refine (bind_eq_ok_iff ..).mpr ⟨_, (okOr_eq_ok_iff ..).mpr
    ((checkedAdd_eq_some_iff ..).mpr ⟨by omega, rfl⟩), ?_⟩
  refine sliceRange_eq_ok_iff.mpr ⟨⟨Nat.le_add_right _ _, bytes⟩, ?_⟩
  rw [Nat.add_sub_cancel_left]
  exact carries.slot slot

end Carries

section Routing

variable (checksum : List UInt8 → UInt32) (uniqueId : UniqueId)
  (sequence : UInt64) (elementType : ElementType)

/-- The header of the answer to one rank. -/
def columnHeader (size destination total : Nat) : FrameHeader :=
  { responseHeader checksum uniqueId .allToAllV elementType sequence destination size total with
    flags := (0 : UInt16) ||| flagCountsPrefix }

/-- The frame that answers one rank. -/
def columnFrame (destination : Nat) (counts : Fin size → Nat)
    (shards : Fin size → List UInt8) : Except ProtocolError Frame :=
  Frame.new checksum
    (columnHeader checksum uniqueId sequence elementType size destination (List.ofFn counts).sum)
    (encodeCounts (List.ofFn counts) ++ (List.ofFn shards).flatten)

variable {checksum uniqueId sequence elementType}
  {requests : Fin size → Frame} {counts : Fin size → Fin size → Nat}
  {shards : Fin size → Fin size → List UInt8}

/-- Rows that are decoded from the requests. -/
theorem mapM_decodeCountsPayload
    (carries : ∀ source, Carries elementBytes (requests source) (counts source) (shards source)) :
    (List.ofFn requests).mapM (fun request =>
        decodeCountsPayload request size elementBytes) =
      .ok (List.ofFn fun source =>
        (List.ofFn (counts source), (List.ofFn (shards source)).flatten)) := by
  refine mapM_ofFn_ok fun source => ?_
  exact (decodeCountsPayload_eq_ok_iff ..).mpr (carries source).counted

/-- What one destination is answered, once the rows are decoded. -/
theorem routed_column_iff
    (carries : ∀ source, Carries elementBytes (requests source)
      (counts source) (shards source)) (destination : Fin size)
    (response : Frame) :
    (do
      let receiveCounts ← (List.ofFn fun source : Fin size =>
        (List.ofFn (counts source), (List.ofFn (shards source)).flatten)).mapM
            fun row => indexAt row.1 destination.val
      let receiveTotal ← orInvalid (checkedSum receiveCounts)
        "all-to-all-v receive count overflow"
      let _ ← orInvalid (checkedMul receiveTotal elementBytes)
        "all-to-all-v response size overflow"
      let pieces ← (List.ofFn fun source : Fin size =>
        (List.ofFn (counts source), (List.ofFn (shards source)).flatten)).mapM
            (rowShard elementBytes destination.val)
      let header := responseHeader checksum uniqueId .allToAllV elementType
        sequence destination.val size receiveTotal
      fromProtocol (Frame.new checksum { header with flags := header.flags ||| flagCountsPrefix }
        (encodeCounts receiveCounts ++ pieces.flatten)) :
      Except Fault Frame) = .ok response ↔
      (List.ofFn fun source => counts source destination).sum < wordSize ∧
      (List.ofFn fun source => counts source destination).sum * elementBytes < wordSize ∧
      columnFrame checksum uniqueId sequence elementType destination.val
        (fun source => counts source destination)
        (fun source => shards source destination) = .ok response := by
  have column : (List.ofFn fun source : Fin size =>
      (List.ofFn (counts source), (List.ofFn (shards source)).flatten)).mapM
          (fun row => indexAt row.1 destination.val) =
      .ok (List.ofFn fun source => counts source destination) := by
    refine mapM_ofFn_ok fun source => ?_
    exact (okOr_eq_ok_iff ..).mpr (Carries.getElem?_counts _ destination)
  have pieces : (List.ofFn fun source : Fin size =>
      (List.ofFn (counts source), (List.ofFn (shards source)).flatten)).mapM
          (rowShard elementBytes destination.val) =
      .ok (List.ofFn fun source => shards source destination) :=
    mapM_ofFn_ok fun source => (carries source).rowShard_eq destination
  rw [column, ok_bind]
  simp only [orInvalid, bind_eq_ok_iff, okOr_eq_ok_iff,
    checkedSum_eq_some_iff, checkedMul_eq_some_iff]
  constructor
  · rintro ⟨_, ⟨small, rfl⟩, _, ⟨bounded, rfl⟩, made, same, built⟩
    rw [pieces] at same
    cases same
    exact ⟨small, bounded, fromProtocol_eq_ok_iff.mp built⟩
  · rintro ⟨small, bounded, built⟩
    exact ⟨_, ⟨small, rfl⟩, _, ⟨bounded, rfl⟩, _, pieces, fromProtocol_eq_ok_iff.mpr built⟩

/-- The requests are routed exactly when every column can be answered. -/
theorem routeAllToAllV_eq_ok_iff (concrete : elementType ≠ .none) (positive : elementBytes ≠ 0)
    (carries : ∀ source, Carries elementBytes (requests source)
      (counts source) (shards source)) (responses : List Frame) :
    routeAllToAllV checksum (List.ofFn requests) uniqueId sequence
        elementType elementBytes = .ok responses ↔
      ∃ response : Fin size → Frame, responses = List.ofFn response ∧ ∀ destination,
          (List.ofFn fun source => counts source destination).sum < wordSize ∧
          (List.ofFn fun source => counts source destination).sum * elementBytes < wordSize ∧
          columnFrame checksum uniqueId sequence elementType destination.val
            (fun source => counts source destination)
            (fun source => shards source destination) = .ok (response destination) := by
  have accepted : invalidIf (elementType = .none ∨ elementBytes = 0)
      "all-to-all-v requires a concrete element type" = .ok () :=
    if_neg (by rintro (none | zero); exacts [concrete none, positive zero])
  rw [routeAllToAllV, accepted, ok_bind, List.length_ofFn]
  dsimp only
  rw [mapM_decodeCountsPayload carries, ok_bind, mapM_eq_ok_iff, range_eq_ofFn, List.map_ofFn]
  constructor
  · intro all
    have length : responses.length = size := by
      have lengths := congrArg List.length all
      rw [List.length_ofFn, List.length_map] at lengths
      exact lengths.symm
    subst length
    refine ⟨responses.get, (List.ofFn_get responses).symm, fun destination => ?_⟩
    have here := congrArg (·[destination.val]?) all
    rw [List.getElem?_ofFn, dif_pos destination.isLt, List.getElem?_map,
      List.getElem?_eq_getElem destination.isLt] at here
    exact (routed_column_iff carries destination _).mp (Option.some.inj here)
  · rintro ⟨response, rfl, each⟩
    rw [List.map_ofFn]
    refine congrArg List.ofFn (funext fun destination => ?_)
    exact (routed_column_iff carries destination _).mpr (each destination)

theorem flags_of_new {header : FrameHeader} {payload : List UInt8}
    {frame : Frame} (built : Frame.new checksum header payload = .ok frame) :
    frame.header.flags = header.flags ∨ frame.header.flags = header.flags ||| flagPayload := by
  rw [Frame.new] at built
  split at built
  case isTrue =>
    obtain ⟨_, _, made⟩ := of_bind built
    cases made
    exact Or.inl rfl
  case isFalse =>
    obtain ⟨declared, withPayload, made⟩ := of_bind built
    cases made
    rw [FrameHeader.withPayload] at withPayload
    obtain ⟨_, _, withPayload⟩ := of_bind withPayload
    obtain ⟨_, _, made⟩ := of_bind withPayload
    cases made
    exact Or.inr rfl

theorem length_flatten_shards {counts : Fin size → Nat} {shards : Fin size → List UInt8}
    (sized : ∀ slot, (shards slot).length = counts slot * elementBytes) :
    (List.ofFn shards).flatten.length = (List.ofFn counts).sum * elementBytes := by
  have lengths : List.length ∘ shards = fun slot => counts slot * elementBytes := funext sized
  have scaled := List.sum_map_mul_right (List.ofFn counts) (fun count => count) elementBytes
  rw [List.map_id', List.map_ofFn] at scaled
  rw [List.length_flatten, List.map_ofFn, lengths]
  exact scaled

/-- The answer to a rank carries what was addressed to it. -/
theorem carries_of_columnFrame {destination : Nat}
    {counts : Fin size → Nat} {shards : Fin size → List UInt8}
    {response : Frame} (prefixFits : size * 8 < wordSize)
    (sized : ∀ slot, (shards slot).length = counts slot * elementBytes)
    (small : (List.ofFn counts).sum < wordSize)
    (bounded : (List.ofFn counts).sum * elementBytes < wordSize)
    (built : columnFrame checksum uniqueId sequence elementType destination
      counts shards = .ok response) :
    Carries elementBytes response counts shards := by
  have meets := Frame.builtFrom_of_new checksum built
  have flagged : response.header.flags &&& flagCountsPrefix ≠ 0 := by
    rcases flags_of_new built with same | more
    · rw [same]
      exact (by decide :
        ((0 : UInt16) ||| flagCountsPrefix) &&& flagCountsPrefix ≠ 0)
    · rw [more]
      exact (by decide : ((0 : UInt16) ||| flagCountsPrefix |||
        flagPayload) &&& flagCountsPrefix ≠ 0)
  refine ⟨⟨flagged, List.length_ofFn, prefixFits, meets.payload, ?_, bounded, ?_⟩, sized⟩
  · rw [meets.count]
    exact UInt64.toNat_ofNat_of_lt' small
  · exact length_flatten_shards sized

/-- A valid request of a rank in a world of this size. -/
structure CountedRequest (checksum : List UInt8 → UInt32) (size : Nat)
    (elementType : ElementType) (request : Frame) : Prop where
  valid : request.header.validate checksum (some request.payload) = .ok ()
  opcode : request.header.opcode = .allToAllV
  elementType : request.header.elementType = elementType
  world : request.header.worldSize.toNat = size

/-- The length that a header promises depends on few of its fields. -/
theorem expectedPayload_congr {left right : FrameHeader}
    (count : left.elementCount = right.elementCount)
    (element : left.elementType = right.elementType)
    (world : left.worldSize = right.worldSize)
    (leftFlagged : left.flags &&& flagCountsPrefix ≠ 0)
    (rightFlagged : right.flags &&& flagCountsPrefix ≠ 0) :
    left.expectedPayload = right.expectedPayload := by
  simp only [FrameHeader.expectedPayload, count, element, world,
    leftFlagged, rightFlagged, ne_eq, not_false_eq_true, if_true]

/-- A valid request promises the length of its payload. -/
theorem CountedRequest.expectedPayload {request : Frame}
    (routable : CountedRequest checksum size elementType request)
    (concrete : elementType ≠ .none) (present : request.payload ≠ []) :
    request.header.expectedPayload = .ok request.payload.length := by
  obtain ⟨bare, length, _⟩ := (FrameHeader.validate_some_eq_ok_iff ..).mp routable.valid
  simp only [FrameHeader.validate, FrameHeader.validateHeader,
    bind_eq_ok_iff, rejectIf_eq_ok_iff, exists_const] at bare
  obtain ⟨_, ⟨_, _, _, _, _, _, _, _, _, _, _, flag, lengths⟩, _⟩ := bare
  have filled : request.header.payloadBytes ≠ 0 := by
    intro zero
    rw [zero] at length
    exact present (List.length_eq_zero_iff.mp length)
  rw [ne_eq, not_not, decide_eq_decide] at flag
  rw [FrameHeader.validateElementLength, routable.elementType,
    if_neg concrete, if_pos (flag.mpr filled)] at lengths
  obtain ⟨expected, computed, same⟩ := of_bind lengths
  rw [computed, length]
  exact congrArg Except.ok (not_not.mp ((rejectIf_eq_ok_iff ..).mp same))

/-- A header without a payload that announces counts before its elements. -/
structure CountedHeader (header : FrameHeader) : Prop where
  flags : header.flags = flagCountsPrefix
  opcode : header.opcode = .allToAllV
  concrete : header.elementType ≠ .none
  source : header.sourceRank < header.worldSize
  destination : header.destinationRank = anyRank ∨ header.destinationRank < header.worldSize
  root : header.rootRank = anyRank

theorem CountedHeader.flagged {header : FrameHeader} (counted : CountedHeader header) :
    header.flags &&& flagCountsPrefix ≠ 0 := by
  rw [counted.flags]
  decide

/-- A payload of the promised length is framed. -/
theorem CountedHeader.new {header : FrameHeader}
    (counted : CountedHeader header) {payload : List UInt8}
    (present : payload ≠ [])
    (small : payload.length ≤ maxFramePayloadBytes)
    (promises : header.expectedPayload = .ok payload.length) :
    ∃ frame, Frame.new checksum header payload = .ok frame := by
  have fits : payload.length < 2 ^ 64 := lt_of_le_of_lt small (by decide)
  have bytes : (UInt64.ofNat payload.length).toNat = payload.length :=
    UInt64.toNat_ofNat_of_lt' fits
  have filled : UInt64.ofNat payload.length ≠ 0 := by
    intro zero
    rw [zero] at bytes
    exact present (List.length_eq_zero_iff.mp bytes.symm)
  let full : FrameHeader :=
    { header with
      flags := header.flags ||| flagPayload
      payloadBytes := UInt64.ofNat payload.length
      payloadChecksum := checksum payload }
  have flags : full.flags = 3 := by
    dsimp only [full]
    rw [counted.flags]
    decide
  have promised : full.expectedPayload = .ok payload.length := by
    rw [← promises]
    refine expectedPayload_congr rfl rfl rfl ?_ counted.flagged
    rw [flags]
    decide
  have lengths : full.validateElementLength = .ok () := by
    have element : ¬full.elementType = .none := counted.concrete
    have carried : full.flags &&& flagPayload ≠ 0 := by
      rw [flags]
      decide
    rw [FrameHeader.validateElementLength, if_neg element, if_pos carried]
    refine (bind_eq_ok_iff ..).mpr ⟨_, promised, if_neg (not_not.mpr ?_)⟩
    exact bytes.symm
  have valid : full.validate checksum none = .ok () := by
    refine (bind_eq_ok_iff ..).mpr ⟨(), ?_, rfl⟩
    rw [FrameHeader.validateHeader]
    have known : ¬full.flags &&&
        ~~~(flagPayload ||| flagCountsPrefix ||| flagP2pChannel) ≠ 0 := by
      rw [flags]
      decide
    have plain : ¬full.flags &&& flagP2pChannel ≠ 0 := by
      rw [flags]
      decide
    have populated : ¬full.worldSize = 0 := by
      intro zero
      have source := counted.source
      rw [show header.worldSize = 0 from zero] at source
      exact UInt32.not_lt_zero source
    refine (bind_eq_ok_iff ..).mpr ⟨(), if_neg known, ?_⟩
    refine (bind_eq_ok_iff ..).mpr ⟨(), if_neg fun wrong => wrong.2 counted.opcode, ?_⟩
    refine (bind_eq_ok_iff ..).mpr ⟨(), if_neg fun wrong => plain wrong.1, ?_⟩
    refine (bind_eq_ok_iff ..).mpr ⟨(), if_neg populated, ?_⟩
    refine (bind_eq_ok_iff ..).mpr ⟨(), if_pos (Or.inr counted.source), ?_⟩
    refine (bind_eq_ok_iff ..).mpr ⟨(), if_pos (counted.destination.imp (⟨rfl, ·⟩) id), ?_⟩
    refine (bind_eq_ok_iff ..).mpr ⟨(), if_pos (Or.inl ⟨rfl, counted.root⟩), ?_⟩
    refine (bind_eq_ok_iff ..).mpr ⟨(), if_neg (Nat.not_lt.mpr ?_), ?_⟩
    · exact bytes.trans_le small
    refine (bind_eq_ok_iff ..).mpr ⟨(), if_neg (not_not.mpr ?_), lengths⟩
    rw [flags, decide_eq_decide]
    exact iff_of_true (by decide) filled
  refine ⟨⟨full, payload⟩, ?_⟩
  rw [Frame.new, if_neg]
  · refine (bind_eq_ok_iff ..).mpr ⟨full, ?_, rfl⟩
    refine (bind_eq_ok_iff ..).mpr ⟨(), if_neg (Nat.not_lt.mpr small), ?_⟩
    exact (bind_eq_ok_iff ..).mpr ⟨(), valid, rfl⟩
  · rw [List.isEmpty_iff]
    exact present

/-- Counts and the elements behind them are framed. -/
theorem CountedHeader.exists_frame {header : FrameHeader}
    (counted : CountedHeader header) {counts : List Nat} {data : List UInt8}
    (width : counts.length = header.worldSize.toNat)
    (declared : header.elementCount.toNat = counts.sum)
    (filled : data.length = counts.sum * header.elementType.byteWidth)
    (small : counts.length * 8 + data.length ≤ maxFramePayloadBytes) :
    ∃ frame, Frame.new checksum header (encodeCounts counts ++ data) = .ok frame ∧
      Counted header.worldSize.toNat header.elementType.byteWidth frame
        counts data := by
  have limit : maxFramePayloadBytes < wordSize := by decide
  have long : (encodeCounts counts ++ data).length = counts.length * 8 + data.length := by
    rw [List.length_append, length_encodeCounts]
  have present : encodeCounts counts ++ data ≠ [] := by
    intro none
    have source := UInt32.lt_iff_toNat_lt.mp counted.source
    rw [none, List.length_nil] at long
    omega
  have promises : header.expectedPayload = .ok (encodeCounts counts ++ data).length := by
    have elements := (checkedMul_eq_some_iff header.elementCount.toNat
      header.elementType.byteWidth _).mpr ⟨by rw [declared]; omega, rfl⟩
    have prefixes := (checkedMul_eq_some_iff header.worldSize.toNat 8 _).mpr ⟨by omega, rfl⟩
    rw [FrameHeader.expectedPayload, elements, okOr_some, ok_bind]
    dsimp only
    rw [if_pos counted.flagged, prefixes]
    refine (okOr_eq_ok_iff ..).mpr ((checkedAdd_eq_some_iff ..).mpr ?_)
    rw [declared, ← filled, ← width, long]
    exact ⟨by omega, Nat.add_comm _ _⟩
  obtain ⟨frame, built⟩ := counted.new present (long.trans_le small) promises
  have meets := Frame.builtFrom_of_new checksum built
  refine ⟨frame, built, ?_, width, by omega, meets.payload, ?_, by omega,
    filled⟩
  · rcases flags_of_new built with same | more
    · rw [same]
      exact counted.flagged
    · rw [more, counted.flags]
      decide
  · rw [meets.count]
    exact declared

/-- The header of an answer announces counts. -/
theorem counted_columnHeader (concrete : elementType ≠ .none)
    {destination total : Nat} (inside : destination < size)
    (world : size < 2 ^ 32) :
    CountedHeader (columnHeader checksum uniqueId sequence elementType size
      destination total) where
  flags := (by decide : (0 : UInt16) ||| flagCountsPrefix = flagCountsPrefix)
  opcode := rfl
  concrete := concrete
  source := by
    change (0 : UInt32) < UInt32.ofNat size
    rw [UInt32.lt_iff_toNat_lt, UInt32.toNat_ofNat_of_lt' world]
    exact Nat.zero_lt_of_lt inside
  destination := by
    refine Or.inr (UInt32.lt_iff_toNat_lt.mpr ?_)
    change (UInt32.ofNat destination).toNat < (UInt32.ofNat size).toNat
    rw [UInt32.toNat_ofNat_of_lt' world, UInt32.toNat_ofNat_of_lt' (inside.trans world)]
    exact inside
  root := rfl

/-- A payload that a request could carry can be answered to any rank. -/
theorem exists_columnFrame {request : Frame} {counts : Fin size → Nat}
    {shards : Fin size → List UInt8}
    (routable : CountedRequest checksum size elementType request)
    (concrete : elementType ≠ .none)
    (carries : Carries elementBytes request counts shards)
    (destination : Fin size) :
    ∃ response, columnFrame checksum uniqueId sequence elementType
        destination.val counts shards = .ok response ∧
      response.payload = request.payload := by
  have long := carries.counted.long
  have present : request.payload ≠ [] := by
    intro none
    have nonempty := Nat.zero_lt_of_lt destination.isLt
    rw [none, List.length_nil] at long
    omega
  have world : request.header.worldSize = UInt32.ofNat size := by
    rw [← routable.world, UInt32.ofNat_toNat]
  obtain ⟨bare, length, _⟩ := (FrameHeader.validate_some_eq_ok_iff ..).mp routable.valid
  have small : request.payload.length ≤ maxFramePayloadBytes := by
    rw [length]
    exact FrameHeader.payloadBytes_le_of_validate _ bare
  have declared : UInt64.ofNat (List.ofFn counts).sum =
      request.header.elementCount := by
    rw [← carries.counted.declared, UInt64.ofNat_toNat]
  have counted : CountedHeader (columnHeader checksum uniqueId sequence
      elementType size destination.val (List.ofFn counts).sum) :=
    counted_columnHeader concrete destination.isLt
      (routable.world ▸ request.header.worldSize.toNat_lt)
  have promises : (columnHeader checksum uniqueId sequence elementType size
      destination.val (List.ofFn counts).sum).expectedPayload =
        .ok request.payload.length := by
    rw [← routable.expectedPayload concrete present]
    exact expectedPayload_congr declared routable.elementType.symm
      world.symm counted.flagged carries.counted.flagged
  obtain ⟨response, built⟩ := counted.new present small promises
  refine ⟨response, ?_, (Frame.builtFrom_of_new checksum built).payload⟩
  rw [columnFrame, ← carries.counted.payload]
  exact built

/-- Whatever is routed has been decoded. -/
theorem exists_carries_of_routed {responses : List Frame}
    (routed : routeAllToAllV checksum (List.ofFn requests) uniqueId sequence
      elementType elementBytes = .ok responses) :
    elementType ≠ .none ∧ elementBytes ≠ 0 ∧ ∃ (counts : Fin size → Fin size → Nat)
        (shards : Fin size → Fin size → List UInt8),
        ∀ source, Carries elementBytes (requests source) (counts source) (shards source) := by
  rw [routeAllToAllV] at routed
  obtain ⟨_, accepted, routed⟩ := of_bind routed
  have concrete := (rejectIf_eq_ok_iff ..).mp accepted
  rw [not_or] at concrete
  obtain ⟨rows, decoded, _⟩ := of_bind routed
  have each : ∀ source, ∃ (counts : Fin size → Nat) (shards : Fin size → List UInt8),
      Carries elementBytes (requests source) counts shards := by
    intro source
    obtain ⟨row, made⟩ := exists_ok_of_mapM_ok decoded (List.mem_ofFn.mpr ⟨source, rfl⟩)
    rw [List.length_ofFn] at made
    exact ((decodeCountsPayload_eq_ok_iff ..).mp made).exists_carries
  choose counts shards carries using each
  exact ⟨concrete.1, concrete.2, counts, shards, carries⟩

theorem size_lt_of_requests
    (routable : ∀ source, CountedRequest checksum size elementType
      (requests source)) : size < 2 ^ 32 := by
  cases size with
  | zero => decide
  | succ others =>
      rw [← (routable 0).world]
      exact UInt32.toNat_lt _

/-- The same payload, count and flag make the same counted frame. -/
theorem Carries.congr {frame other : Frame} {counts : Fin size → Nat}
    {shards : Fin size → List UInt8}
    (carries : Carries elementBytes frame counts shards)
    (payload : other.payload = frame.payload)
    (declared : other.header.elementCount = frame.header.elementCount)
    (flagged : other.header.flags &&& flagCountsPrefix ≠ 0) :
    Carries elementBytes other counts shards := by
  have counted := carries.counted
  exact ⟨⟨flagged, counted.width, counted.prefixFits, payload.trans counted.payload,
    (congrArg UInt64.toNat declared).trans counted.declared,
    counted.dataFits, counted.filled⟩, carries.sized⟩

end Routing

/-- Both sides write counts alike; both decoders accept exactly the counted frames
and never leave a payload.  A routed all-to-all-v answers every rank with the shards
that were addressed to it, each in the slot of its sender, and the answers routed
again are the requests. -/
theorem all_to_all_v_transposes (checksum : List UInt8 → UInt32)
    (uniqueId : UniqueId) (sequence : UInt64) (elementType : ElementType)
    (size elementBytes : Nat) (requests : Fin size → Frame)
    (routable : ∀ source, CountedRequest checksum size elementType (requests source)) :
    (∀ counts, Payload.encodeCounts counts = encodeCounts counts) ∧
    (∀ frame counts data,
      (decodeCountsPayload frame size elementBytes = .ok (counts, data) ↔
        Counted size elementBytes frame counts data) ∧
      (decodeCountsResponse frame size elementBytes = .ok (counts, data) ↔
        Counted size elementBytes frame counts data)) ∧
    (∀ frame, decodeCountsPayload frame size elementBytes ≠ .error .panic ∧
      decodeCountsResponse frame size elementBytes ≠ .error .panic) ∧
    routeAllToAllV checksum (List.ofFn requests) uniqueId sequence
      elementType elementBytes ≠ .error .panic ∧
    ∀ responses, routeAllToAllV checksum (List.ofFn requests) uniqueId
        sequence elementType elementBytes = .ok responses →
      ∃ (response : Fin size → Frame) (counts : Fin size → Fin size → Nat)
        (shards : Fin size → Fin size → List UInt8),
        responses = List.ofFn response ∧
        (∀ source, Carries elementBytes (requests source) (counts source) (shards source)) ∧
        (∀ destination, Carries elementBytes (response destination)
            (fun source => counts source destination)
            (fun source => shards source destination) ∧
          decodeCountsResponse (response destination) size elementBytes =
            .ok (List.ofFn fun source => counts source destination,
              (List.ofFn fun source =>
                shards source destination).flatten) ∧
          ∀ source : Fin size, segment (List.ofFn fun other => shards other destination).flatten
            (before (List.ofFn fun other => counts other destination) source * elementBytes)
            (counts source destination * elementBytes) = shards source destination) ∧
        ∀ (again : Fin size → Frame) (laterId : UniqueId) (laterSequence : UInt64),
          (∀ rank, (again rank).payload = (response rank).payload ∧
            (again rank).header.elementCount = (response rank).header.elementCount ∧
            (again rank).header.flags &&& flagCountsPrefix ≠ 0) →
          ∃ back : Fin size → Frame,
            routeAllToAllV checksum (List.ofFn again) laterId laterSequence
              elementType elementBytes = .ok (List.ofFn back) ∧
            ∀ source, (back source).payload = (requests source).payload := by
  refine ⟨fun _ => rfl,
    fun frame counts data => ⟨decodeCountsPayload_eq_ok_iff ..,
    decodeCountsResponse_eq_ok_iff ..⟩, fun frame => ⟨?_,
    decodeCountsResponse_ne_panic frame size elementBytes⟩, ?_, fun responses routed => ?_⟩
  · intro failed
    have ended := ends_decodeCountsPayload frame size elementBytes
    rw [failed] at ended
    exact ended rfl
  · intro failed
    have small : (List.ofFn requests).length < 2 ^ 32 := by
      rw [List.length_ofFn]
      exact size_lt_of_requests routable
    have ended := @ends_routeAllToAllV checksum _ uniqueId sequence elementType elementBytes small
    rw [failed] at ended
    exact ended rfl
  · obtain ⟨concrete, positive, counts, shards, carries⟩ := exists_carries_of_routed routed
    obtain ⟨response, rfl, columns⟩ :=
      (routeAllToAllV_eq_ok_iff concrete positive carries responses).mp routed
    have answers : ∀ destination, Carries elementBytes
        (response destination) (fun source => counts source destination)
        (fun source => shards source destination) := by
      intro destination
      obtain ⟨small, bounded, built⟩ := columns destination
      exact carries_of_columnFrame (carries destination).counted.prefixFits
        (fun source => (carries source).sized destination) small bounded
        built
    refine ⟨response, counts, shards, rfl, carries, fun destination =>
      ⟨answers destination, ?_, fun source =>
        (answers destination).slot source⟩, ?_⟩
    · exact (decodeCountsResponse_eq_ok_iff ..).mpr (answers destination).counted
    · intro again laterId laterSequence same
      have rerouted : ∀ rank, Carries elementBytes (again rank) (fun source => counts source rank)
          (fun source => shards source rank) := fun rank =>
        (answers rank).congr (same rank).1 (same rank).2.1 (same rank).2.2
      have built : ∀ source, ∃ frame, columnFrame checksum laterId
          laterSequence elementType source.val (counts source)
          (shards source) = .ok frame ∧
          frame.payload = (requests source).payload := fun source =>
        exists_columnFrame (routable source) concrete (carries source) source
      choose back answered payload using built
      refine ⟨back, ?_, payload⟩
      refine (routeAllToAllV_eq_ok_iff concrete positive rerouted _).mpr
        ⟨back, rfl, fun source => ⟨?_, ?_, answered source⟩⟩
      · exact (carries source).counted.sum_lt
      · exact (carries source).counted.dataFits

/-- A request of one of two ranks, with elements of two bytes. -/
def countedRequest (rank : UInt32) (counts : List Nat) (data : List UInt8) : Frame where
  header :=
    { FrameHeader.collective byteSum zeroId .allToAllV .f16 rank anyRank 2 0
        (UInt64.ofNat counts.sum) with
      flags := flagPayload ||| flagCountsPrefix
      payloadBytes := UInt64.ofNat (16 + data.length)
      payloadChecksum := byteSum (encodeCounts counts ++ data) }
  payload := encodeCounts counts ++ data

/-- Neither rank has anything for itself. -/
def unevenRequests : Fin 2 → Frame
  | 0 => countedRequest 0 [0, 2] [1, 2, 3, 4]
  | 1 => countedRequest 1 [1, 0] [5, 6]

theorem all_to_all_v_transposes_pair :
    ∃ left right : Frame, routeAllToAllV byteSum (List.ofFn unevenRequests) zeroId 0 .f16 2 =
        .ok [left, right] ∧
      decodeCountsResponse left 2 2 = .ok ([0, 1], [5, 6]) ∧
      decodeCountsResponse right 2 2 = .ok ([2, 0], [1, 2, 3, 4]) ∧
      ∃ back : Fin 2 → Frame, routeAllToAllV byteSum [left, right] zeroId 1 .f16 2 =
          .ok (List.ofFn back) ∧
        ∀ source, (back source).payload = (unevenRequests source).payload := by
  have routable : ∀ source, CountedRequest byteSum 2 .f16 (unevenRequests source) := by
    intro source
    match source with
    | 0 => exact ⟨by decide, rfl, rfl, rfl⟩
    | 1 => exact ⟨by decide, rfl, rfl, rfl⟩
  obtain ⟨_, _, _, _, transposed⟩ := all_to_all_v_transposes byteSum zeroId 0
    .f16 2 2 unevenRequests routable
  refine ⟨_, _, rfl, by decide, by decide, ?_⟩
  obtain ⟨response, counts, shards, listed, _, answers, rerouted⟩ := transposed _ rfl
  obtain ⟨back, routed, same⟩ := rerouted response zeroId 1 fun rank =>
    ⟨rfl, rfl, (answers rank).1.counted.flagged⟩
  rw [← listed] at routed
  exact ⟨back, routed, same⟩

end RuCCL.Rank
