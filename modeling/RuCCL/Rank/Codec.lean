import RuCCL.Rank.Protocol

/-!
# The frame codec

`headerBytes` is the concatenation of the header's fields in the order of their
offsets, and `decode` reads each field from the same place.  Nothing in the
eighty bytes is ignored: the constant fields are compared and every other byte
belongs to exactly one field.
-/

namespace RuCCL.Rank

open RuCCL.Library

variable (checksum : List UInt8 → UInt32)

@[simp]
theorem Opcode.tryFrom_toByte (opcode : Opcode) : Opcode.tryFrom opcode.toByte = .ok opcode := by
  cases opcode <;> rfl

theorem Opcode.toByte_of_tryFrom {value : UInt8} {opcode : Opcode}
    (accepted : Opcode.tryFrom value = .ok opcode) :
    opcode.toByte = value := by
  unfold Opcode.tryFrom at accepted
  apply UInt8.toNat_inj.mp
  split at accepted <;> cases accepted
  all_goals
    rename_i valueEq
    rw [valueEq]
    rfl

@[simp]
theorem ElementType.tryFrom_toByte (elementType : ElementType) :
    ElementType.tryFrom elementType.toByte = .ok elementType := by
  cases elementType <;> rfl

theorem ElementType.toByte_of_tryFrom {value : UInt8} {elementType : ElementType}
    (accepted : ElementType.tryFrom value = .ok elementType) :
    elementType.toByte = value := by
  unfold ElementType.tryFrom at accepted
  apply UInt8.toNat_inj.mp
  split at accepted <;> cases accepted
  all_goals
    rename_i valueEq
    rw [valueEq]
    rfl

theorem leBytes_getU16 {bytes : List UInt8} {offset : Nat} (inside : offset + 2 ≤ bytes.length) :
    leBytes 2 (getU16 bytes offset).toNat = getBytes bytes offset 2 := by
  have width := getBytes_length inside
  have bound := leValue_lt (getBytes bytes offset 2)
  rw [width] at bound
  have value : (getU16 bytes offset).toNat = leValue (getBytes bytes offset 2) := by
    simp only [getU16, UInt16.toNat_ofNat']
    exact Nat.mod_eq_of_lt (by omega)
  have whole := leBytes_leValue (getBytes bytes offset 2)
  rwa [width, ← value] at whole

theorem leBytes_getU32 {bytes : List UInt8} {offset : Nat} (inside : offset + 4 ≤ bytes.length) :
    leBytes 4 (getU32 bytes offset).toNat = getBytes bytes offset 4 := by
  have width := getBytes_length inside
  have bound := leValue_lt (getBytes bytes offset 4)
  rw [width] at bound
  have value : (getU32 bytes offset).toNat = leValue (getBytes bytes offset 4) := by
    simp only [getU32, UInt32.toNat_ofNat']
    exact Nat.mod_eq_of_lt (by omega)
  have whole := leBytes_leValue (getBytes bytes offset 4)
  rwa [width, ← value] at whole

theorem leBytes_getU64 {bytes : List UInt8} {offset : Nat} (inside : offset + 8 ≤ bytes.length) :
    leBytes 8 (getU64 bytes offset).toNat = getBytes bytes offset 8 := by
  have width := getBytes_length inside
  have bound := leValue_lt (getBytes bytes offset 8)
  rw [width] at bound
  have value : (getU64 bytes offset).toNat = leValue (getBytes bytes offset 8) := by
    simp only [getU64, UInt64.toNat_ofNat']
    exact Nat.mod_eq_of_lt (by omega)
  have whole := leBytes_leValue (getBytes bytes offset 8)
  rwa [width, ← value] at whole

theorem getU16_of_getBytes {bytes : List UInt8} {offset : Nat} {value : UInt16}
    (field : getBytes bytes offset 2 = leBytes 2 value.toNat) :
    getU16 bytes offset = value := by
  have bound : value.toNat < 256 ^ 2 := value.toNat_lt
  rw [getU16, field, leValue_leBytes bound]
  exact UInt16.ofNat_toNat

theorem getU32_of_getBytes {bytes : List UInt8} {offset : Nat} {value : UInt32}
    (field : getBytes bytes offset 4 = leBytes 4 value.toNat) :
    getU32 bytes offset = value := by
  have bound : value.toNat < 256 ^ 4 := value.toNat_lt
  rw [getU32, field, leValue_leBytes bound]
  exact UInt32.ofNat_toNat

theorem getU64_of_getBytes {bytes : List UInt8} {offset : Nat} {value : UInt64}
    (field : getBytes bytes offset 8 = leBytes 8 value.toNat) :
    getU64 bytes offset = value := by
  have bound : value.toNat < 256 ^ 8 := value.toNat_lt
  rw [getU64, field, leValue_leBytes bound]
  exact UInt64.ofNat_toNat

/-- The fields of a header with their bytes, in the order of their offsets. -/
def FrameHeader.fields (header : FrameHeader) : List (List UInt8) :=
  [ protocolMagic
  , leBytes 2 protocolVersion.toNat
  , leBytes 2 frameHeaderBytes
  , [header.opcode.toByte]
  , [header.elementType.toByte]
  , leBytes 2 header.flags.toNat
  , leBytes 4 header.sourceRank.toNat
  , leBytes 4 header.destinationRank.toNat
  , leBytes 4 header.rootRank.toNat
  , leBytes 4 header.worldSize.toNat
  , leBytes 8 header.sequence.toNat
  , leBytes 8 header.tag.toNat
  , leBytes 8 header.elementCount.toNat
  , leBytes 8 header.payloadBytes.toNat
  , header.uniqueId.bytes
  , leBytes 4 header.payloadChecksum.toNat ]

/-- The widths of the fields. -/
def fieldWidths : List Nat := [4, 2, 2, 1, 1, 2, 4, 4, 4, 4, 8, 8, 8, 8, 16, 4]

theorem FrameHeader.fields_widths (header : FrameHeader) :
    header.fields.map List.length = fieldWidths := by
  simp [FrameHeader.fields, fieldWidths, protocolMagic, header.uniqueId.size]

theorem FrameHeader.headerBytes_eq (header : FrameHeader) :
    header.headerBytes = header.fields.flatten := by
  have written :
      header.headerBytes = putFields 0 fieldWidths header.fields
          (List.replicate (fieldWidths.sum + 0) 0) :=
    rfl
  have filled := putFields_zeros [] header.fields 0
  rw [header.fields_widths] at filled
  rw [written]
  simpa using filled

@[simp]
theorem FrameHeader.headerBytes_length (header : FrameHeader) :
    header.headerBytes.length = 80 := by
  rw [header.headerBytes_eq, List.length_flatten, header.fields_widths]
  rfl

/-- Reading the fields of an encoded header, whatever payload follows. -/
theorem sliceFields_headerBytes (header : FrameHeader) (payload : List UInt8) :
    sliceFields 0 fieldWidths (header.headerBytes ++ payload) =
      header.fields := by
  have sliced := sliceFields_flatten [] header.fields payload
  rw [header.fields_widths] at sliced
  rw [header.headerBytes_eq]
  simpa using sliced

theorem FrameHeader.decode_headerBytes {header : FrameHeader} (payload : List UInt8)
    (valid : header.validate checksum none = .ok ()) :
    FrameHeader.decode checksum (header.headerBytes ++ payload) =
      .ok header := by
  have long : 80 ≤ (header.headerBytes ++ payload).length := by
    simp
  have sliced := sliceFields_headerBytes header payload
  generalize header.headerBytes ++ payload = bytes at long sliced
  simp only [sliceFields, fieldWidths, FrameHeader.fields,
    List.cons.injEq, and_true, Nat.zero_add, Nat.reduceAdd] at sliced
  obtain ⟨magic, version, width, opcode, elementType, flags, source,
    destination, root, world, sequence, tag, count, size, uniqueId,
    sum⟩ := sliced
  have opcodeByte : bytes.get ⟨8, by omega⟩ = header.opcode.toByte := by
    have single : bytes[8]? = some header.opcode.toByte := by
      have head := congrArg List.head? opcode
      simpa [getBytes, List.head?_take] using head
    simpa [List.getElem?_eq_getElem (show 8 < bytes.length by omega)]
      using single
  have elementByte : bytes.get ⟨9, by omega⟩ = header.elementType.toByte := by
    have single : bytes[9]? = some header.elementType.toByte := by
      have head := congrArg List.head? elementType
      simpa [getBytes, List.head?_take] using head
    simpa [List.getElem?_eq_getElem (show 9 < bytes.length by omega)]
      using single
  have identity : FrameHeader.readUniqueId bytes long = header.uniqueId := by
    cases named : header.uniqueId with
    | mk name size =>
        rw [named] at uniqueId
        simpa [FrameHeader.readUniqueId] using uniqueId
  have versionEq : getU16 bytes 4 = protocolVersion := getU16_of_getBytes version
  have widthEq : getU16 bytes 6 = UInt16.ofNat frameHeaderBytes := getU16_of_getBytes width
  unfold FrameHeader.decode
  rw [dif_pos long]
  simp only [magic, versionEq, widthEq, opcodeByte, elementByte,
    identity, getU16_of_getBytes flags, getU32_of_getBytes source,
    getU32_of_getBytes destination, getU32_of_getBytes root,
    getU32_of_getBytes world, getU64_of_getBytes sequence,
    getU64_of_getBytes tag, getU64_of_getBytes count,
    getU64_of_getBytes size, getU32_of_getBytes sum,
    Opcode.tryFrom_toByte, ElementType.tryFrom_toByte, ok_bind, valid]
  rfl

/-- What a successful header decoder has checked and read. -/
theorem FrameHeader.decode_eq_ok {bytes : List UInt8} {header : FrameHeader}
    (decoded : FrameHeader.decode checksum bytes = .ok header) :
    header.validate checksum none = .ok () ∧ 80 ≤ bytes.length ∧
      header.fields = sliceFields 0 fieldWidths bytes := by
  unfold FrameHeader.decode at decoded
  split at decoded
  case isFalse short => cases decoded
  case isTrue long =>
    simp only [bind_eq_ok_iff, rejectIf_eq_ok_iff, exists_const,
      ne_eq, not_not, Except.ok.injEq] at decoded
    obtain ⟨magic, version, width, opcode, opcodeRead, elementType,
      elementRead, _, valid, rfl⟩ := decoded
    refine ⟨valid, long, ?_⟩
    have opcodeSlice : [opcode.toByte] = getBytes bytes 8 1 := by
      rw [Opcode.toByte_of_tryFrom opcodeRead]
      rw [getBytes, List.drop_eq_getElem_cons (show 8 < bytes.length by omega)]
      rfl
    have elementSlice : [elementType.toByte] = getBytes bytes 9 1 := by
      rw [ElementType.toByte_of_tryFrom elementRead]
      rw [getBytes, List.drop_eq_getElem_cons (show 9 < bytes.length by omega)]
      rfl
    have versionSlice := leBytes_getU16 (show 4 + 2 ≤ bytes.length by omega)
    have widthSlice := leBytes_getU16 (show 6 + 2 ≤ bytes.length by omega)
    rw [version] at versionSlice
    rw [width] at widthSlice
    simp only [FrameHeader.fields, sliceFields, fieldWidths,
      FrameHeader.readUniqueId, Nat.zero_add, Nat.reduceAdd,
      opcodeSlice, elementSlice, versionSlice, widthSlice, ← magic,
      leBytes_getU16 (show 10 + 2 ≤ bytes.length by omega),
      leBytes_getU32 (show 12 + 4 ≤ bytes.length by omega),
      leBytes_getU32 (show 16 + 4 ≤ bytes.length by omega),
      leBytes_getU32 (show 20 + 4 ≤ bytes.length by omega),
      leBytes_getU32 (show 24 + 4 ≤ bytes.length by omega),
      leBytes_getU64 (show 28 + 8 ≤ bytes.length by omega),
      leBytes_getU64 (show 36 + 8 ≤ bytes.length by omega),
      leBytes_getU64 (show 44 + 8 ≤ bytes.length by omega),
      leBytes_getU64 (show 52 + 8 ≤ bytes.length by omega),
      leBytes_getU32 (show 76 + 4 ≤ bytes.length by omega)]

theorem FrameHeader.headerBytes_of_decode {bytes : List UInt8} {header : FrameHeader}
    (decoded : FrameHeader.decode checksum bytes = .ok header) :
    header.headerBytes = bytes.take 80 := by
  obtain ⟨_, _, fields⟩ := FrameHeader.decode_eq_ok checksum decoded
  rw [header.headerBytes_eq, fields, flatten_sliceFields]
  simp [getBytes, fieldWidths]

/-- A header with a payload is valid when the bare header is and the payload
has the declared length and checksum. -/
theorem FrameHeader.validate_some_eq_ok_iff (header : FrameHeader) (payload : List UInt8) :
    header.validate checksum (some payload) = .ok () ↔ header.validate checksum none = .ok () ∧
        payload.length = header.payloadBytes.toNat ∧
        checksum payload = header.payloadChecksum := by
  simp only [FrameHeader.validate, FrameHeader.validatePayload,
    bind_eq_ok_iff, rejectIf_eq_ok_iff, exists_const, ne_eq, not_not,
    and_true]
  constructor
  · rintro ⟨_, valid, matching⟩
    exact ⟨⟨(), valid⟩, matching⟩
  · rintro ⟨⟨_, valid⟩, matching⟩
    exact ⟨(), valid, matching⟩

theorem FrameHeader.payloadBytes_le_of_validate {header : FrameHeader}
    (valid : header.validate checksum none = .ok ()) :
    header.payloadBytes.toNat ≤ maxFramePayloadBytes := by
  simp only [FrameHeader.validate, FrameHeader.validateHeader,
    bind_eq_ok_iff, rejectIf_eq_ok_iff, exists_const] at valid
  obtain ⟨_, ⟨_, _, _, _, _, _, _, _, _, _, small, _⟩, _⟩ := valid
  exact not_lt.mp small

theorem Frame.encode_eq_ok_iff (frame : Frame) (bytes : List UInt8) :
    frame.encode checksum = .ok bytes ↔
      frame.header.validate checksum (some frame.payload) = .ok () ∧
        bytes = frame.header.headerBytes ++ frame.payload := by
  simp only [Frame.encode, FrameHeader.encode, bind_eq_ok_iff, Except.ok.injEq]
  constructor
  · rintro ⟨_, valid, header, ⟨_, _, headerEq⟩, bytesEq⟩
    rw [← headerEq] at bytesEq
    exact ⟨valid, bytesEq.symm⟩
  · rintro ⟨valid, bytesEq⟩
    have bare := ((frame.header.validate_some_eq_ok_iff checksum _).mp valid).1
    exact ⟨(), valid, frame.header.headerBytes, ⟨(), bare, rfl⟩, bytesEq.symm⟩

theorem Frame.decode_headerBytes_append {frame : Frame}
    (valid :
      frame.header.validate checksum (some frame.payload) = .ok ()) :
    Frame.decode checksum (frame.header.headerBytes ++ frame.payload) =
      .ok frame := by
  obtain ⟨bare, sameLength, _⟩ := (frame.header.validate_some_eq_ok_iff checksum _).mp valid
  have small := FrameHeader.payloadBytes_le_of_validate checksum bare
  have fits :
      checkedAdd frameHeaderBytes frame.header.payloadBytes.toNat =
        some (80 + frame.payload.length) := by
    rw [checkedAdd_eq_some_iff, sameLength]
    unfold frameHeaderBytes maxFramePayloadBytes wordSize at *
    omega
  have dropped :
      (frame.header.headerBytes ++ frame.payload).drop frameHeaderBytes = frame.payload := by
    apply List.drop_left'
    rw [frame.header.headerBytes_length]
    rfl
  simp only [Frame.decode, FrameHeader.decode_headerBytes checksum frame.payload bare, ok_bind,
    fits, okOr, dropped, List.length_append,
    FrameHeader.headerBytes_length, ne_eq, not_true_eq_false, rejectIf,
    if_false, valid]

theorem Frame.headerBytes_append_of_decode {bytes : List UInt8} {frame : Frame}
    (decoded : Frame.decode checksum bytes = .ok frame) :
    frame.header.validate checksum (some frame.payload) = .ok () ∧
      bytes = frame.header.headerBytes ++ frame.payload := by
  simp only [Frame.decode, bind_eq_ok_iff, okOr_eq_ok_iff,
    rejectIf_eq_ok_iff, exists_const, Except.ok.injEq] at decoded
  obtain ⟨header, headerRead, _, _, _, _, valid, rfl⟩ := decoded
  refine ⟨valid, ?_⟩
  rw [FrameHeader.headerBytes_of_decode checksum headerRead]
  exact (List.take_append_drop 80 bytes).symm

/-- Encoding and decoding are inverse partial functions between frames and byte
strings, and no two byte strings decode to one frame. -/
theorem frame_encode_eq_ok_iff_decode :
    (∀ (frame : Frame) (bytes : List UInt8), frame.encode checksum = .ok bytes ↔
        Frame.decode checksum bytes = .ok frame) ∧
    (∀ (left right : List UInt8) (frame : Frame), Frame.decode checksum left = .ok frame →
      Frame.decode checksum right = .ok frame → left = right) := by
  constructor
  · intro frame bytes
    rw [Frame.encode_eq_ok_iff]
    constructor
    · rintro ⟨valid, bytesEq⟩
      rw [bytesEq]
      exact Frame.decode_headerBytes_append checksum valid
    · intro decoded
      exact Frame.headerBytes_append_of_decode checksum decoded
  · intro left right frame leftRead rightRead
    obtain ⟨_, leftBytes⟩ := Frame.headerBytes_append_of_decode checksum leftRead
    obtain ⟨_, rightBytes⟩ := Frame.headerBytes_append_of_decode checksum rightRead
    rw [leftBytes, rightBytes]

end RuCCL.Rank
