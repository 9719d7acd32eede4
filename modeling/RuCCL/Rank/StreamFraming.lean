import RuCCL.Rank.Codec

/-!
# Frames on a byte stream

A frame goes on a stream as its header and its payload, the first part of both by
one vectored write that may stop anywhere.  What arrives comes in pieces; each read
takes at most what is left of the next one.
-/

namespace RuCCL.Rank

open RuCCL.Library

variable (checksum : List UInt8 → UInt32)

/-- What `writeFrame` puts on the stream when the vectored write has taken
`written` bytes. -/
def writeFrame (frame : Frame) (written : Nat) :
    Except ProtocolError (List UInt8) := do
  let header ← frame.encodeTransportHeader checksum
  let total := header.length + frame.payload.length
  let vectored := (header ++ frame.payload).take written
  if written < header.length then
    .ok (vectored ++ header.drop written ++ frame.payload)
  else if written < total then
    .ok (vectored ++ frame.payload.drop (written - header.length))
  else .ok vectored

/-- Frames written one after the other, each with what its vectored write has
taken. -/
def writeFrames : List (Frame × Nat) → Except ProtocolError (List UInt8)
  | [] => .ok []
  | (frame, written) :: rest => do
      let now ← writeFrame checksum frame written
      let later ← writeFrames rest
      .ok (now ++ later)

inductive StreamError where
  | unexpectedEof
  | protocol (error : ProtocolError)
  deriving DecidableEq

/-- The pieces in which a stream arrives.  A read that returns nothing is the end
of the stream, so that no piece is empty. -/
abbrev Delivery := List { piece : List UInt8 // piece ≠ [] }

/-- All bytes that arrive. -/
def delivered (delivery : Delivery) : List UInt8 := delivery.flatMap Subtype.val

/-- At most `limit` bytes of the next piece. -/
def read (limit : Nat) : Delivery → List UInt8 × Delivery
  | [] => ([], [])
  | piece :: rest =>
      if short : piece.val.length ≤ limit then (piece.val, rest)
      else
        (piece.val.take limit, ⟨piece.val.drop limit, by
          rw [Ne, List.drop_eq_nil_iff]
          exact short⟩ :: rest)

/-- Read until the buffer is full; every read brings at least one byte. -/
def readLoop : Nat → Nat → Delivery → Except StreamError (List UInt8 × Delivery)
  | _, 0, delivery => .ok ([], delivery)
  | 0, _ + 1, _ => .error .unexpectedEof
  | fuel + 1, count + 1, delivery =>
      let (now, rest) := read (count + 1) delivery
      if now = [] then .error .unexpectedEof
      else do
        let (later, final) ← readLoop fuel (count + 1 - now.length) rest
        .ok (now ++ later, final)

def readExact (count : Nat) (delivery : Delivery) : Except StreamError (List UInt8 × Delivery) :=
  readLoop count count delivery

/-- An error of the protocol. -/
def mapProtocol {α : Type} : Except ProtocolError α → Except StreamError α
  | .ok value => .ok value
  | .error error => .error (.protocol error)

def readFrame (delivery : Delivery) : Except StreamError (Option Frame × Delivery) :=
  match read 1 delivery with
  | ([], rest) => .ok (none, rest)
  | (first, rest) => do
      let (others, rest) ← readExact (frameHeaderBytes - 1) rest
      let header ← mapProtocol (FrameHeader.decode checksum (first ++ others))
      let (payload, rest) ← readExact header.payloadBytes.toNat rest
      mapProtocol (header.validate checksum (some payload))
      .ok (some ⟨header, payload⟩, rest)

/-- What the calls of `readFrame` return, up to the end of the stream or an
error. -/
inductive Reads : Delivery → List Frame → Except StreamError Unit → Prop
  | ended {delivery rest : Delivery} (nothing : readFrame checksum delivery = .ok (none, rest)) :
      Reads delivery [] (.ok ())
  | failed {delivery : Delivery} {error : StreamError}
      (stopped : readFrame checksum delivery = .error error) :
      Reads delivery [] (.error error)
  | next {delivery rest : Delivery} {frame : Frame} {frames : List Frame}
      {outcome : Except StreamError Unit}
      (got : readFrame checksum delivery = .ok (some frame, rest))
      (later : Reads rest frames outcome) :
      Reads delivery (frame :: frames) outcome

/-- The bytes of a frame. -/
def Frame.wireBytes (frame : Frame) : List UInt8 := frame.header.headerBytes ++ frame.payload

@[simp]
theorem Frame.length_wireBytes (frame : Frame) :
    frame.wireBytes.length = 80 + frame.payload.length := by
  rw [wireBytes, List.length_append, FrameHeader.headerBytes_length]

/-- A frame that may be sent: its header fits its payload. -/
def Frame.Valid (frame : Frame) : Prop :=
  frame.header.validate checksum (some frame.payload) = .ok ()

variable {checksum}

theorem Frame.Valid.encodeTransportHeader {frame : Frame} (valid : frame.Valid checksum) :
    frame.encodeTransportHeader checksum = .ok frame.header.headerBytes := by
  obtain ⟨bare, sameLength, _⟩ := (frame.header.validate_some_eq_ok_iff checksum _).mp valid
  rw [Frame.encodeTransportHeader, rejectIf, if_neg (not_not.mpr sameLength),
    ok_bind, FrameHeader.encode, bare]
  rfl

/-- Wherever the vectored write stops, the frame is written whole. -/
theorem Frame.Valid.writeFrame {frame : Frame} (valid : frame.Valid checksum) (written : Nat) :
    writeFrame checksum frame written = .ok frame.wireBytes := by
  have width := frame.header.headerBytes_length
  rw [Rank.writeFrame, valid.encodeTransportHeader, ok_bind, wireBytes]
  generalize frame.header.headerBytes = header at *
  dsimp only
  split
  case isTrue inHeader =>
    rw [List.take_append_of_le_length (Nat.le_of_lt inHeader), List.take_append_drop]
  case isFalse behind =>
    have past : header.length ≤ written := Nat.le_of_not_lt behind
    split
    case isTrue =>
      rw [List.take_append, List.take_of_length_le past, List.append_assoc, List.take_append_drop]
    case isFalse all =>
      rw [List.take_of_length_le]
      rw [List.length_append]
      omega

theorem writeFrames_valid {writes : List (Frame × Nat)}
    (valid : ∀ write ∈ writes, write.1.Valid checksum) :
    writeFrames checksum writes = .ok (writes.flatMap fun write => write.1.wireBytes) := by
  induction writes with
  | nil => rfl
  | cons write rest ih =>
      obtain ⟨frame, written⟩ := write
      have first := valid _ List.mem_cons_self
      have others := ih fun other among =>
        valid other (List.mem_cons_of_mem _ among)
      rw [writeFrames, first.writeFrame, ok_bind, others, ok_bind, List.flatMap_cons]

theorem delivered_cons (piece : { piece : List UInt8 // piece ≠ [] }) (rest : Delivery) :
    delivered (piece :: rest) = piece.val ++ delivered rest :=
  List.flatMap_cons

/-- A read takes bytes from the front, and at least one if there are any. -/
theorem read_spec {limit : Nat} (positive : 0 < limit) (delivery : Delivery) :
    delivered delivery = (read limit delivery).1 ++ delivered (read limit delivery).2 ∧
      (read limit delivery).1.length ≤ limit ∧
      ((read limit delivery).1 = [] ↔ delivered delivery = []) := by
  cases delivery with
  | nil => exact ⟨rfl, Nat.zero_le _, iff_of_true rfl rfl⟩
  | cons piece rest =>
      have present := piece.property
      rw [read, delivered_cons]
      split
      case isTrue short =>
        refine ⟨rfl, short, ?_⟩
        rw [List.append_eq_nil_iff]
        exact iff_of_false present fun none => present none.1
      case isFalse long =>
        refine ⟨?_, List.length_take_le _ _, ?_⟩
        · rw [delivered_cons, ← List.append_assoc, List.take_append_drop]
        · rw [List.append_eq_nil_iff, List.take_eq_nil_iff]
          exact iff_of_false (fun none => none.elim (Nat.ne_of_gt positive) present)
            fun none => present none.1

theorem readLoop_spec {fuel count : Nat} (enough : count ≤ fuel) (delivery : Delivery) :
    (∀ front back, delivered delivery = front ++ back →
      front.length = count → ∃ rest, delivered rest = back ∧
        readLoop fuel count delivery = .ok (front, rest)) ∧
      ((delivered delivery).length < count →
        readLoop fuel count delivery = .error .unexpectedEof) := by
  induction fuel generalizing count delivery with
  | zero =>
      obtain rfl := Nat.le_zero.mp enough
      refine ⟨fun front back split none => ?_, nofun⟩
      rw [List.length_eq_zero_iff.mp none] at split ⊢
      exact ⟨delivery, split, rfl⟩
  | succ fuel ih =>
      cases count with
      | zero =>
          refine ⟨fun front back split none => ?_, nofun⟩
          rw [List.length_eq_zero_iff.mp none] at split ⊢
          exact ⟨delivery, split, rfl⟩
      | succ count =>
          obtain ⟨whole, most, empty⟩ := read_spec (Nat.succ_pos count) delivery
          have looped : readLoop (fuel + 1) (count + 1) delivery =
              if (read (count + 1) delivery).1 = [] then
                .error .unexpectedEof
              else
                (readLoop fuel (count + 1 - (read (count + 1) delivery).1.length)
                  (read (count + 1) delivery).2 >>= fun pair =>
                    .ok ((read (count + 1) delivery).1 ++ pair.1, pair.2)) :=
            rfl
          have positive := Nat.succ_pos count
          generalize read (count + 1) delivery = taken at *
          obtain ⟨now, rest⟩ := taken
          dsimp only at whole most empty looped
          by_cases none : now = []
          · rw [if_pos none] at looped
            have all := empty.mp none
            refine ⟨fun front back split length => ?_, fun _ => looped⟩
            rw [all] at split
            rw [(List.append_eq_nil_iff.mp split.symm).1] at length
            cases length
          · rw [if_neg none] at looped
            have some := List.length_pos_iff.mpr none
            obtain ⟨complete, cut⟩ := @ih (count + 1 - now.length) (by omega) rest
            constructor
            · intro front back split length
              -- what has been read is the front part of what is wanted
              have agrees : now = front.take now.length := by
                have firsts := congrArg (List.take now.length) (whole.symm.trans split)
                rw [List.take_left, List.take_append_of_le_length (by omega)] at firsts
                exact firsts
              have left : delivered rest = front.drop now.length ++ back := by
                have lasts := congrArg (List.drop now.length) (whole.symm.trans split)
                rw [List.drop_left, List.drop_append_of_le_length (by omega)] at lasts
                exact lasts
              obtain ⟨final, behind, ran⟩ := complete _ back left (by
                rw [List.length_drop]
                omega)
              refine ⟨final, behind, ?_⟩
              rw [looped, ran, ok_bind]
              nth_rewrite 1 [agrees]
              rw [List.take_append_drop]
            · intro short
              rw [whole, List.length_append] at short
              rw [looped, cut (by omega), error_bind]

/-- Reading some bytes that are all there. -/
theorem readExact_of_eq {delivery : Delivery} {front back : List UInt8}
    (split : delivered delivery = front ++ back) {count : Nat}
    (length : front.length = count) :
    ∃ rest, delivered rest = back ∧ readExact count delivery = .ok (front, rest) :=
  (readLoop_spec (le_refl count) delivery).1 front back split length

/-- Reading more bytes than are left. -/
theorem readExact_of_lt {delivery : Delivery} {count : Nat}
    (short : (delivered delivery).length < count) :
    readExact count delivery = .error .unexpectedEof :=
  (readLoop_spec (le_refl count) delivery).2 short

/-- The first byte of a stream that has one. -/
theorem read_one {delivery : Delivery} {first : UInt8} {back : List UInt8}
    (split : delivered delivery = first :: back) :
    ∃ rest, delivered rest = back ∧ read 1 delivery = ([first], rest) := by
  obtain ⟨whole, most, empty⟩ := read_spec Nat.one_pos delivery
  generalize read 1 delivery = taken at *
  obtain ⟨now, rest⟩ := taken
  dsimp only at whole most empty
  rw [split] at whole empty
  cases now with
  | nil => exact absurd (empty.mp rfl) (List.cons_ne_nil _ _)
  | cons byte more =>
      cases more with
      | nil =>
          injection whole with sameByte sameRest
          exact ⟨rest, sameRest.symm, by rw [sameByte]⟩
      | cons next others =>
          rw [List.length_cons, List.length_cons] at most
          omega

theorem readFrame_of_empty {delivery : Delivery} (nothing : delivered delivery = []) :
    ∃ rest, readFrame checksum delivery = .ok (none, rest) := by
  have none := (read_spec Nat.one_pos delivery).2.2.mpr nothing
  rw [readFrame]
  generalize read 1 delivery = taken at *
  obtain ⟨now, rest⟩ := taken
  dsimp only at none
  rw [none]
  exact ⟨rest, rfl⟩

/-- The header of a frame has a first byte. -/
theorem FrameHeader.exists_headerBytes (header : FrameHeader) :
    ∃ first others, header.headerBytes = first :: others ∧
      others.length = frameHeaderBytes - 1 := by
  have width := header.headerBytes_length
  cases bytes : header.headerBytes with
  | nil =>
      rw [bytes] at width
      cases width
  | cons first others =>
      rw [bytes, List.length_cons] at width
      exact ⟨first, others, rfl, Nat.succ.inj width⟩

/-- Reading the header of a frame, however it arrives. -/
theorem readFrame_of_header {delivery : Delivery} {header : FrameHeader}
    (valid : header.validate checksum none = .ok ()) {back : List UInt8}
    (split : delivered delivery = header.headerBytes ++ back) :
    ∃ rest, delivered rest = back ∧ readFrame checksum delivery =
        (readExact header.payloadBytes.toNat rest >>= fun taken =>
          mapProtocol (header.validate checksum (some taken.1)) >>= fun _ =>
            .ok (some ⟨header, taken.1⟩, taken.2)) := by
  obtain ⟨first, others, bytes, width⟩ := header.exists_headerBytes
  have decoded := FrameHeader.decode_headerBytes checksum [] valid
  rw [List.append_nil, bytes] at decoded
  rw [bytes, List.cons_append] at split
  obtain ⟨behind, behindSplit, byte⟩ := read_one split
  obtain ⟨rest, restSplit, tail⟩ := readExact_of_eq behindSplit width
  refine ⟨rest, restSplit, ?_⟩
  simp only [readFrame, byte, tail, ok_bind, List.singleton_append, decoded, mapProtocol]

/-- A frame that has arrived is read. -/
theorem Frame.Valid.readFrame {frame : Frame} (valid : frame.Valid checksum)
    {delivery : Delivery} {back : List UInt8}
    (split : delivered delivery = frame.wireBytes ++ back) :
    ∃ rest, delivered rest = back ∧ readFrame checksum delivery = .ok (some frame, rest) := by
  obtain ⟨bare, sameLength, _⟩ := (frame.header.validate_some_eq_ok_iff checksum _).mp valid
  rw [wireBytes, List.append_assoc] at split
  obtain ⟨behind, behindSplit, ran⟩ := readFrame_of_header bare split
  obtain ⟨rest, restSplit, payload⟩ := readExact_of_eq behindSplit sameLength
  refine ⟨rest, restSplit, ?_⟩
  have checked : frame.header.validate checksum (some frame.payload) = .ok () := valid
  rw [ran, payload, ok_bind, checked]
  rfl

/-- A frame of which only a part has arrived is not read. -/
theorem Frame.Valid.readFrame_cut {frame : Frame}
    (valid : frame.Valid checksum) {delivery : Delivery} {cut : Nat}
    (inside : 0 < cut ∧ cut < frame.wireBytes.length)
    (split : delivered delivery = frame.wireBytes.take cut) :
    Rank.readFrame checksum delivery = .error .unexpectedEof := by
  obtain ⟨bare, sameLength, _⟩ := (frame.header.validate_some_eq_ok_iff checksum _).mp valid
  have width := frame.header.headerBytes_length
  rw [Frame.length_wireBytes] at inside
  rcases Nat.lt_or_ge cut 80 with inHeader | inPayload
  · -- the header itself is incomplete
    obtain ⟨first, others, bytes, tail⟩ := frame.header.exists_headerBytes
    obtain ⟨before, rfl⟩ := Nat.exists_eq_succ_of_ne_zero (Nat.ne_of_gt inside.1)
    rw [wireBytes, List.take_append_of_le_length (by omega), bytes,
      Nat.succ_eq_add_one, List.take_succ_cons] at split
    obtain ⟨rest, restSplit, byte⟩ := read_one split
    have short : (delivered rest).length < frameHeaderBytes - 1 := by
      rw [restSplit, List.length_take, frameHeaderBytes]
      omega
    simp only [Rank.readFrame, byte, readExact_of_lt short, error_bind]
  · rw [wireBytes, List.take_append, List.take_of_length_le (by omega)]
      at split
    obtain ⟨rest, restSplit, ran⟩ := readFrame_of_header bare split
    have short : (delivered rest).length <
        frame.header.payloadBytes.toNat := by
      rw [restSplit, List.length_take, ← sameLength]
      omega
    rw [ran, readExact_of_lt short, error_bind]

/-- The frames at the front of a stream are read in order, and then what is behind
them. -/
theorem reads_append {frames later : List Frame}
    {outcome : Except StreamError Unit} {back : List UInt8}
    (valid : ∀ frame ∈ frames, frame.Valid checksum)
    (behind : ∀ rest, delivered rest = back →
      Reads checksum rest later outcome) {delivery : Delivery}
    (split : delivered delivery = frames.flatMap Frame.wireBytes ++ back) :
    Reads checksum delivery (frames ++ later) outcome := by
  induction frames generalizing delivery with
  | nil => exact behind delivery split
  | cons frame frames ih =>
      rw [List.flatMap_cons, List.append_assoc] at split
      obtain ⟨rest, restSplit, got⟩ := (valid frame List.mem_cons_self).readFrame split
      exact .next got (ih (fun other among => valid other (List.mem_cons_of_mem _ among))
        restSplit)

/-- The calls of `readFrame` have one result each. -/
theorem Reads.unique {delivery : Delivery} {frames others : List Frame}
    {outcome other : Except StreamError Unit}
    (reads : Reads checksum delivery frames outcome)
    (again : Reads checksum delivery others other) :
    others = frames ∧ other = outcome := by
  induction reads generalizing others other with
  | ended nothing =>
      cases again with
      | ended _ => exact ⟨rfl, rfl⟩
      | failed stopped =>
          rw [nothing] at stopped
          cases stopped
      | next got _ =>
          rw [nothing] at got
          cases got
  | failed stopped =>
      cases again with
      | ended nothing =>
          rw [nothing] at stopped
          cases stopped
      | failed sameStop =>
          rw [stopped] at sameStop
          cases sameStop
          exact ⟨rfl, rfl⟩
      | next got _ =>
          rw [stopped] at got
          cases got
  | next got _ ih =>
      cases again with
      | ended nothing =>
          rw [got] at nothing
          cases nothing
      | failed stopped =>
          rw [got] at stopped
          cases stopped
      | next sameGot later =>
          rw [got] at sameGot
          cases sameGot
          obtain ⟨sameFrames, sameOutcome⟩ := ih later
          exact ⟨by rw [sameFrames], sameOutcome⟩

theorem Reads.iff {delivery : Delivery} {frames : List Frame} {outcome : Except StreamError Unit}
    (reads : Reads checksum delivery frames outcome) (others : List Frame)
    (other : Except StreamError Unit) :
    Reads checksum delivery others other ↔ others = frames ∧ other = outcome := by
  constructor
  · exact reads.unique
  · rintro ⟨rfl, rfl⟩
    exact reads

/-- Frames that are written are read, however far each vectored write gets and
however the stream arrives; a stream that ends inside a frame gives the frames
before it and then an error. -/
theorem stream_framing_transparent {writes : List (Frame × Nat)}
    (valid : ∀ write ∈ writes, write.1.Valid checksum ∧ write.2 ≤ write.1.wireBytes.length) :
    ∃ bytes, writeFrames checksum writes = .ok bytes ∧
      (∀ delivery, delivered delivery = bytes → ∀ frames outcome,
        Reads checksum delivery frames outcome ↔
          frames = writes.map Prod.fst ∧ outcome = .ok ()) ∧
      ∀ before write after, writes = before ++ write :: after →
        ∀ sent, writeFrames checksum before = .ok sent →
        ∀ cut, 0 < cut → cut < write.1.wireBytes.length →
        ∀ delivery, delivered delivery = bytes.take (sent.length + cut) →
          ∀ frames outcome, Reads checksum delivery frames outcome ↔
            frames = before.map Prod.fst ∧ outcome = .error .unexpectedEof := by
  have allValid : ∀ write ∈ writes, write.1.Valid checksum :=
    fun write among => (valid write among).1
  have flat : ∀ some : List (Frame × Nat), (some.flatMap fun write => write.1.wireBytes) =
        (some.map Prod.fst).flatMap Frame.wireBytes := by
    intro some
    rw [List.flatMap_map]
  have validFrames : ∀ some : List (Frame × Nat), (∀ write ∈ some, write.1.Valid checksum) →
      ∀ frame ∈ some.map Prod.fst, frame.Valid checksum := by
    intro some someValid frame among
    obtain ⟨write, member, rfl⟩ := List.mem_map.mp among
    exact someValid write member
  refine ⟨_, writeFrames_valid allValid, ?_, ?_⟩
  · intro delivery split
    have whole := @reads_append checksum (writes.map Prod.fst) [] (.ok ()) []
      (validFrames writes allValid)
      (by
        intro rest nothing
        obtain ⟨left, ended⟩ := readFrame_of_empty nothing
        exact .ended ended) delivery (by
        rw [split, flat, List.append_nil])
    rw [List.append_nil] at whole
    exact whole.iff
  · intro before write after parts sent written cut positive inside delivery
      split
    have beforeValid : ∀ other ∈ before, other.1.Valid checksum := by
      intro other among
      refine allValid other ?_
      rw [parts]
      exact List.mem_append_left _ among
    have here : write.1.Valid checksum := by
      refine allValid write ?_
      rw [parts]
      exact List.mem_append_right _ List.mem_cons_self
    rw [writeFrames_valid beforeValid] at written
    cases written
    rw [parts, List.flatMap_append, List.flatMap_cons, List.take_length_add_append,
      List.take_append_of_le_length (Nat.le_of_lt inside), flat] at split
    have whole := @reads_append checksum (before.map Prod.fst) []
      (.error .unexpectedEof) (write.1.wireBytes.take cut)
      (validFrames before beforeValid)
      (by
        intro rest restSplit
        exact .failed (here.readFrame_cut ⟨positive, inside⟩ restSplit))
      delivery split
    rw [List.append_nil] at whole
    exact whole.iff

theorem length_sixteenZeros : (List.replicate 16 (0 : UInt8)).length = 16 :=
  rfl

/-- A frame of a world of two ranks that carries some bytes. -/
def byteFrame (payload : List UInt8) : Frame where
  header := {
    opcode := .broadcast
    elementType := .u8
    flags := if payload = [] then 0 else flagPayload
    sourceRank := 1
    destinationRank := anyRank
    rootRank := 1
    worldSize := 2
    sequence := 7
    tag := 0
    elementCount := UInt64.ofNat payload.length
    payloadBytes := UInt64.ofNat payload.length
    uniqueId := ⟨List.replicate 16 0, length_sixteenZeros⟩
    payloadChecksum := UInt32.ofNat payload.length }
  payload := payload

/-- Two frames, one with and one without a payload; the first write stops at the
end of the header, the second one inside it. -/
theorem stream_framing_transparent_two :
    ∃ bytes, writeFrames (fun payload => UInt32.ofNat payload.length)
        [(byteFrame [1, 2, 3], 80), (byteFrame [], 5)] = .ok bytes ∧
      ∀ delivery, delivered delivery = bytes → ∀ frames outcome,
        Reads (fun payload => UInt32.ofNat payload.length) delivery frames outcome ↔
          frames = [byteFrame [1, 2, 3], byteFrame []] ∧ outcome = .ok () := by
  obtain ⟨bytes, written, read, _⟩ := @stream_framing_transparent
    (fun payload => UInt32.ofNat payload.length)
    [(byteFrame [1, 2, 3], 80), (byteFrame [], 5)] (by
      intro write among
      rcases List.mem_cons.mp among with rfl | second
      · exact ⟨rfl, by decide +kernel⟩
      · rw [List.mem_singleton.mp second]
        exact ⟨rfl, by decide +kernel⟩)
  exact ⟨bytes, written, read⟩

end RuCCL.Rank
