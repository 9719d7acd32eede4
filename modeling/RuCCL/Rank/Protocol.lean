import RuCCL.Library.Bytes
import RuCCL.Library.Result

/-!
# The wire contract

Frames of the rank transports: an eighty byte header with fixed offsets followed
by the payload it declares.  `usize` has sixty-four bits, so every conversion
from `u64` to `usize` succeeds.  The CRC-32 function of the payload stays a
parameter `checksum`.
-/

namespace RuCCL.Rank

open RuCCL.Library

def protocolMagic : List UInt8 := [0x47, 0x58, 0x43, 0x4c]
def protocolVersion : UInt16 := 3
def frameHeaderBytes : Nat := 80
def maxFramePayloadBytes : Nat := 2 ^ 30
def anyRank : UInt32 := 0xffffffff
def flagPayload : UInt16 := 1
def flagCountsPrefix : UInt16 := 2
def flagP2pChannel : UInt16 := 4

/-- Sixteen opaque bytes that name one session. -/
structure UniqueId where
  bytes : List UInt8
  size : bytes.length = 16
  deriving DecidableEq

inductive Opcode where
  | join | ready | broadcast | allGather | gather | scatter | reduce
  | allReduce | reduceScatter | allToAll | allToAllV | barrier | send
  | receive | abort | heartbeat | leave | setTimeout | peerEndpoint
  deriving DecidableEq, Repr

inductive ElementType where
  | none | u8 | u32 | i32 | f32 | f16 | bf16 | bool | i8 | i16 | i64 | f64
  | u16 | u64 | complex64 | complex128 | f8e4m3Fn | f8e5m2 | f8e4m3Fnuz
  | f8e5m2Fnuz | f8e8m0Fnu | f4e2m1FnX2
  deriving DecidableEq, Repr

/-- The agreed part of a collective request. -/
structure OperationDescriptor where
  opcode : Opcode
  elementType : ElementType
  rootRank : UInt32
  elementCount : UInt64
  layoutHash : UInt64
  deriving DecidableEq

inductive ProtocolError where
  | truncatedHeader (actual : Nat)
  | badMagic (actual : List UInt8)
  | unsupportedVersion (version : UInt16)
  | unsupportedHeaderLength (length : Nat)
  | unknownOpcode (value : UInt8)
  | unknownElementType (value : UInt8)
  | unknownFlags (flags : UInt16)
  | unexpectedCountsPrefix (opcode : Opcode)
  | unexpectedP2pChannelFlag (opcode : Opcode)
  | emptyWorld
  | rankOutOfRange (name : String) (rank worldSize : UInt32)
  | payloadTooLarge (bytes : Nat)
  | payloadFlagMismatch
  | elementLengthMismatch
  | payloadLengthMismatch (declared actual : Nat)
  | frameLengthMismatch (declared actual : Nat)
  | checksumMismatch (declared actual : UInt32)
  | sequenceMismatch (expected actual : UInt64)
  | duplicateSubmission (rank : Nat) (sequence : UInt64)
  | collectiveMismatch (sequence : UInt64) (expected actual : OperationDescriptor)
  | sequenceOverflow
  deriving DecidableEq

namespace Opcode

/-- The discriminant of the opcode. -/
def toByte : Opcode → UInt8
  | join => 1
  | ready => 2
  | broadcast => 3
  | allGather => 4
  | gather => 5
  | scatter => 6
  | reduce => 7
  | allReduce => 8
  | reduceScatter => 9
  | allToAll => 10
  | allToAllV => 11
  | barrier => 12
  | send => 13
  | receive => 14
  | abort => 15
  | heartbeat => 16
  | leave => 17
  | setTimeout => 18
  | peerEndpoint => 19

def tryFrom (value : UInt8) : Except ProtocolError Opcode :=
  match value.toNat with
  | 1 => .ok join
  | 2 => .ok ready
  | 3 => .ok broadcast
  | 4 => .ok allGather
  | 5 => .ok gather
  | 6 => .ok scatter
  | 7 => .ok reduce
  | 8 => .ok allReduce
  | 9 => .ok reduceScatter
  | 10 => .ok allToAll
  | 11 => .ok allToAllV
  | 12 => .ok barrier
  | 13 => .ok send
  | 14 => .ok receive
  | 15 => .ok abort
  | 16 => .ok heartbeat
  | 17 => .ok leave
  | 18 => .ok setTimeout
  | 19 => .ok peerEndpoint
  | _ => .error (.unknownOpcode value)

/-- The name that `Debug` prints. -/
def debugName : Opcode → String
  | join => "Join"
  | ready => "Ready"
  | broadcast => "Broadcast"
  | allGather => "AllGather"
  | gather => "Gather"
  | scatter => "Scatter"
  | reduce => "Reduce"
  | allReduce => "AllReduce"
  | reduceScatter => "ReduceScatter"
  | allToAll => "AllToAll"
  | allToAllV => "AllToAllV"
  | barrier => "Barrier"
  | send => "Send"
  | receive => "Receive"
  | abort => "Abort"
  | heartbeat => "Heartbeat"
  | leave => "Leave"
  | setTimeout => "SetTimeout"
  | peerEndpoint => "PeerEndpoint"

end Opcode

namespace ElementType

/-- The discriminant of the element type. -/
def toByte : ElementType → UInt8
  | none => 0
  | u8 => 1
  | u32 => 2
  | i32 => 3
  | f32 => 4
  | f16 => 5
  | bf16 => 6
  | bool => 7
  | i8 => 8
  | i16 => 9
  | i64 => 10
  | f64 => 11
  | u16 => 12
  | u64 => 13
  | complex64 => 14
  | complex128 => 15
  | f8e4m3Fn => 16
  | f8e5m2 => 17
  | f8e4m3Fnuz => 18
  | f8e5m2Fnuz => 19
  | f8e8m0Fnu => 20
  | f4e2m1FnX2 => 21

def tryFrom (value : UInt8) : Except ProtocolError ElementType :=
  match value.toNat with
  | 0 => .ok none
  | 1 => .ok u8
  | 2 => .ok u32
  | 3 => .ok i32
  | 4 => .ok f32
  | 5 => .ok f16
  | 6 => .ok bf16
  | 7 => .ok bool
  | 8 => .ok i8
  | 9 => .ok i16
  | 10 => .ok i64
  | 11 => .ok f64
  | 12 => .ok u16
  | 13 => .ok u64
  | 14 => .ok complex64
  | 15 => .ok complex128
  | 16 => .ok f8e4m3Fn
  | 17 => .ok f8e5m2
  | 18 => .ok f8e4m3Fnuz
  | 19 => .ok f8e5m2Fnuz
  | 20 => .ok f8e8m0Fnu
  | 21 => .ok f4e2m1FnX2
  | _ => .error (.unknownElementType value)

/-- The name that `Debug` prints. -/
def debugName : ElementType → String
  | none => "None"
  | u8 => "U8"
  | u32 => "U32"
  | i32 => "I32"
  | f32 => "F32"
  | f16 => "F16"
  | bf16 => "BF16"
  | bool => "Bool"
  | i8 => "I8"
  | i16 => "I16"
  | i64 => "I64"
  | f64 => "F64"
  | u16 => "U16"
  | u64 => "U64"
  | complex64 => "Complex64"
  | complex128 => "Complex128"
  | f8e4m3Fn => "F8E4M3Fn"
  | f8e5m2 => "F8E5M2"
  | f8e4m3Fnuz => "F8E4M3Fnuz"
  | f8e5m2Fnuz => "F8E5M2Fnuz"
  | f8e8m0Fnu => "F8E8M0Fnu"
  | f4e2m1FnX2 => "F4E2M1FnX2"

def byteWidth : ElementType → Nat
  | none => 0
  | u8 | bool | i8 | f8e4m3Fn | f8e5m2 | f8e4m3Fnuz | f8e5m2Fnuz
  | f8e8m0Fnu | f4e2m1FnX2 => 1
  | f16 | bf16 | i16 | u16 => 2
  | u32 | i32 | f32 => 4
  | i64 | f64 | u64 | complex64 => 8
  | complex128 => 16

end ElementType

structure FrameHeader where
  opcode : Opcode
  elementType : ElementType
  flags : UInt16
  sourceRank : UInt32
  destinationRank : UInt32
  rootRank : UInt32
  worldSize : UInt32
  sequence : UInt64
  tag : UInt64
  elementCount : UInt64
  payloadBytes : UInt64
  uniqueId : UniqueId
  payloadChecksum : UInt32
  deriving DecidableEq

def putU16 (bytes : List UInt8) (offset : Nat) (value : UInt16) :
    List UInt8 :=
  putBytes bytes offset (leBytes 2 value.toNat)

def putU32 (bytes : List UInt8) (offset : Nat) (value : UInt32) :
    List UInt8 :=
  putBytes bytes offset (leBytes 4 value.toNat)

def putU64 (bytes : List UInt8) (offset : Nat) (value : UInt64) :
    List UInt8 :=
  putBytes bytes offset (leBytes 8 value.toNat)

def getU16 (bytes : List UInt8) (offset : Nat) : UInt16 :=
  UInt16.ofNat (leValue (getBytes bytes offset 2))

def getU32 (bytes : List UInt8) (offset : Nat) : UInt32 :=
  UInt32.ofNat (leValue (getBytes bytes offset 4))

def getU64 (bytes : List UInt8) (offset : Nat) : UInt64 :=
  UInt64.ofNat (leValue (getBytes bytes offset 8))

def validateRank (name : String) (rank worldSize : UInt32) (allowAny : Bool) :
    Except ProtocolError Unit :=
  if (allowAny ∧ rank = anyRank) ∨ rank < worldSize then .ok ()
  else .error (.rankOutOfRange name rank worldSize)

namespace FrameHeader

/-- The bytes that a header with a payload promises to carry. -/
def expectedPayload (header : FrameHeader) : Except ProtocolError Nat := do
  let elementBytes ← okOr (checkedMul header.elementCount.toNat header.elementType.byteWidth)
    .elementLengthMismatch
  let prefixBytes ←
    if header.flags &&& flagCountsPrefix ≠ 0 then
      okOr (checkedMul header.worldSize.toNat 8) .elementLengthMismatch
    else .ok 0
  okOr (checkedAdd elementBytes prefixBytes) .elementLengthMismatch

/-- The element count must explain the payload length. -/
def validateElementLength (header : FrameHeader) :
    Except ProtocolError Unit :=
  if header.elementType = .none then
    rejectIf (header.elementCount ≠ 0 ∨ header.payloadBytes ≠ 0) .elementLengthMismatch
  else if header.flags &&& flagPayload ≠ 0 then do
    let expected ← header.expectedPayload
    rejectIf (expected ≠ header.payloadBytes.toNat) .elementLengthMismatch
  else .ok ()

/-- The length and the checksum of an actual payload. -/
def validatePayload (checksum : List UInt8 → UInt32) (header : FrameHeader)
    (payload : List UInt8) : Except ProtocolError Unit := do
  rejectIf (payload.length ≠ header.payloadBytes.toNat)
    (.payloadLengthMismatch header.payloadBytes.toNat payload.length)
  rejectIf (checksum payload ≠ header.payloadChecksum)
    (.checksumMismatch header.payloadChecksum (checksum payload))

/-- The checks that need no payload. -/
def validateHeader (header : FrameHeader) : Except ProtocolError Unit := do
  let unknownFlags := header.flags &&& ~~~(flagPayload ||| flagCountsPrefix ||| flagP2pChannel)
  rejectIf (unknownFlags ≠ 0) (.unknownFlags unknownFlags)
  rejectIf (header.flags &&& flagCountsPrefix ≠ 0 ∧ header.opcode ≠ .allToAllV)
    (.unexpectedCountsPrefix header.opcode)
  rejectIf
    (header.flags &&& flagP2pChannel ≠ 0 ∧ ¬(header.opcode = .join ∨ header.opcode = .ready))
    (.unexpectedP2pChannelFlag header.opcode)
  rejectIf (header.worldSize = 0) .emptyWorld
  validateRank "source" header.sourceRank header.worldSize false
  validateRank "destination" header.destinationRank header.worldSize true
  validateRank "root" header.rootRank header.worldSize true
  rejectIf (header.payloadBytes.toNat > maxFramePayloadBytes)
    (.payloadTooLarge header.payloadBytes.toNat)
  rejectIf
    (decide (header.flags &&& flagPayload ≠ 0) ≠
      decide (header.payloadBytes ≠ 0))
    .payloadFlagMismatch
  header.validateElementLength

def validate (checksum : List UInt8 → UInt32) (header : FrameHeader)
    (payload : Option (List UInt8)) : Except ProtocolError Unit := do
  header.validateHeader
  match payload with
  | some actual => header.validatePayload checksum actual
  | none => .ok ()

/-- The header of an empty collective frame. -/
def collective (checksum : List UInt8 → UInt32) (uniqueId : UniqueId)
    (opcode : Opcode) (elementType : ElementType)
    (sourceRank rootRank worldSize : UInt32)
    (sequence elementCount : UInt64) : FrameHeader where
  opcode := opcode
  elementType := elementType
  flags := 0
  sourceRank := sourceRank
  destinationRank := anyRank
  rootRank := rootRank
  worldSize := worldSize
  sequence := sequence
  tag := 0
  elementCount := elementCount
  payloadBytes := 0
  uniqueId := uniqueId
  payloadChecksum := checksum []

def withPayload (checksum : List UInt8 → UInt32) (header : FrameHeader)
    (payload : List UInt8) : Except ProtocolError FrameHeader := do
  rejectIf (payload.length > maxFramePayloadBytes) (.payloadTooLarge payload.length)
  let declared : FrameHeader :=
    { header with
      flags := header.flags ||| flagPayload
      payloadBytes := UInt64.ofNat payload.length
      payloadChecksum := checksum payload }
  declared.validate checksum none
  .ok declared

/-- The eighty bytes of a header, each field at its fixed offset. -/
def headerBytes (header : FrameHeader) : List UInt8 :=
  let bytes := List.replicate frameHeaderBytes 0
  let bytes := putBytes bytes 0 protocolMagic
  let bytes := putU16 bytes 4 protocolVersion
  let bytes := putU16 bytes 6 (UInt16.ofNat frameHeaderBytes)
  let bytes := putBytes bytes 8 [header.opcode.toByte]
  let bytes := putBytes bytes 9 [header.elementType.toByte]
  let bytes := putU16 bytes 10 header.flags
  let bytes := putU32 bytes 12 header.sourceRank
  let bytes := putU32 bytes 16 header.destinationRank
  let bytes := putU32 bytes 20 header.rootRank
  let bytes := putU32 bytes 24 header.worldSize
  let bytes := putU64 bytes 28 header.sequence
  let bytes := putU64 bytes 36 header.tag
  let bytes := putU64 bytes 44 header.elementCount
  let bytes := putU64 bytes 52 header.payloadBytes
  let bytes := putBytes bytes 60 header.uniqueId.bytes
  putU32 bytes 76 header.payloadChecksum

def encode (checksum : List UInt8 → UInt32) (header : FrameHeader) :
    Except ProtocolError (List UInt8) := do
  header.validate checksum none
  .ok header.headerBytes

/-- Read the sixteen bytes of the session name. -/
def readUniqueId (bytes : List UInt8) (long : 80 ≤ bytes.length) :
    UniqueId where
  bytes := getBytes bytes 60 16
  size := getBytes_length (by omega)

def decode (checksum : List UInt8 → UInt32) (bytes : List UInt8) :
    Except ProtocolError FrameHeader :=
  if long : 80 ≤ bytes.length then do
    rejectIf (getBytes bytes 0 4 ≠ protocolMagic) (.badMagic (getBytes bytes 0 4))
    rejectIf (getU16 bytes 4 ≠ protocolVersion) (.unsupportedVersion (getU16 bytes 4))
    rejectIf ((getU16 bytes 6).toNat ≠ frameHeaderBytes)
      (.unsupportedHeaderLength (getU16 bytes 6).toNat)
    let opcode ← Opcode.tryFrom (bytes.get ⟨8, by omega⟩)
    let elementType ← ElementType.tryFrom (bytes.get ⟨9, by omega⟩)
    let header : FrameHeader :=
      { opcode := opcode
        elementType := elementType
        flags := getU16 bytes 10
        sourceRank := getU32 bytes 12
        destinationRank := getU32 bytes 16
        rootRank := getU32 bytes 20
        worldSize := getU32 bytes 24
        sequence := getU64 bytes 28
        tag := getU64 bytes 36
        elementCount := getU64 bytes 44
        payloadBytes := getU64 bytes 52
        uniqueId := readUniqueId bytes long
        payloadChecksum := getU32 bytes 76 }
    header.validate checksum none
    .ok header
  else .error (.truncatedHeader bytes.length)

end FrameHeader

structure Frame where
  header : FrameHeader
  payload : List UInt8
  deriving DecidableEq

namespace Frame

def new (checksum : List UInt8 → UInt32) (header : FrameHeader)
    (payload : List UInt8) : Except ProtocolError Frame :=
  if payload.isEmpty then do
    header.validate checksum (some payload)
    .ok { header := header, payload := payload }
  else do
    let declared ← header.withPayload checksum payload
    .ok { header := declared, payload := payload }

def encode (checksum : List UInt8 → UInt32) (frame : Frame) :
    Except ProtocolError (List UInt8) := do
  frame.header.validate checksum (some frame.payload)
  let header ← frame.header.encode checksum
  .ok (header ++ frame.payload)

/-- The header bytes that go on the wire with an already checked payload. -/
def encodeTransportHeader (checksum : List UInt8 → UInt32) (frame : Frame) :
    Except ProtocolError (List UInt8) := do
  rejectIf (frame.payload.length ≠ frame.header.payloadBytes.toNat)
    (.payloadLengthMismatch frame.header.payloadBytes.toNat frame.payload.length)
  frame.header.encode checksum

def decode (checksum : List UInt8 → UInt32) (bytes : List UInt8) :
    Except ProtocolError Frame := do
  let header ← FrameHeader.decode checksum bytes
  let payloadBytes := header.payloadBytes.toNat
  let expected ← okOr (checkedAdd frameHeaderBytes payloadBytes) (.payloadTooLarge payloadBytes)
  rejectIf (bytes.length ≠ expected) (.frameLengthMismatch expected bytes.length)
  let payload := bytes.drop frameHeaderBytes
  header.validate checksum (some payload)
  .ok { header := header, payload := payload }

end Frame

end RuCCL.Rank
