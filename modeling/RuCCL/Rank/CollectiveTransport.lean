import RuCCL.Rank.Hierarchy
import RuCCL.Rank.PeerMesh
import RuCCL.Rank.RankDevice
import RuCCL.Rank.Session
import RuCCL.Rank.Tags
import RuCCL.Rank.TopologyBuild

/-!
# The transport below device collectives

Ranks reach each other over rails, on which messages with one tag keep their order,
and all together over the control path, where the coordinator routes one request of
each rank at once.  Frames are built as on any other path, so none carries more than
`maxFramePayloadBytes`.  Sequence numbers only say which frames of a connection belong
together and stay at zero here.
-/

namespace RuCCL.Rank

open RuCCL.Library

/-- Where frames wait for the rank they are addressed to. -/
inductive Box (size : Nat) where
  | request (rank : Fin size)
  | response (rank : Fin size)
  | rail (source destination : Fin size) (rail : Nat) (tag : UInt64)
  deriving DecidableEq

namespace Box

variable {size : Nat}

/-- The rank that puts frames into a box; answers are put by the control path. -/
def sender : Box size → Fin size
  | request rank => rank
  | response rank => rank
  | rail source _ _ _ => source

/-- The rank that takes frames out of a box. -/
def receiver : Box size → Fin size
  | request rank => rank
  | response rank => rank
  | rail _ destination _ _ => destination

end Box

/-- A fault of the coordinator reaches the ranks as a failed exchange. -/
def fromRouting {α : Type} (result : Except Fault α) :
    Except CollectiveFault α :=
  match result with
  | .ok value => .ok value
  | .error (.error failure) => .error (.network failure)
  | .error .panic => .error .panic

theorem fromRouting_eq_ok_iff {α : Type} {result : Except Fault α}
    {value : α} : fromRouting result = .ok value ↔ result = .ok value := by
  cases result with
  | ok => simp [fromRouting]
  | error fault => cases fault <;> simp [fromRouting]

/-- A failed call of the network fails the collective. -/
def fromExchange {α : Type} (result : Except NetworkError α) :
    Except CollectiveFault α :=
  result.mapError .network

/-- Every rank finds its answer. -/
def answerBoxes {size : Nat} (responses : List Frame) :
    Box size → List Frame
  | .response rank => responses[rank.val]?.toList
  | _ => []

/-- The control path as a hub between the ranks. -/
def controlPath (checksum : List UInt8 → UInt32) (uniqueId : UniqueId)
    (size : Nat) : Hub (Box size) Frame CollectiveFault where
  inputs := (List.finRange size).map .request
  outputs := (List.finRange size).map .response
  answer := fun requests => do
    let responses ← fromRouting (validateAndRoute checksum
      ⟨size, 0, fun _ => none⟩ uniqueId 0 requests).2
    .ok (answerBoxes responses)

section Steps

variable {size : Nat} {σ : Type}

abbrev RankInstruction (size : Nat) (σ : Type) := Instruction (Box size) Frame σ CollectiveFault

abbrev RankThread (size : Nat) (σ : Type) := Thread (Box size) Frame σ CollectiveFault

abbrev RankProgram (size : Nat) (σ : Type) := Program (Box size) Frame σ CollectiveFault

namespace RankTransport

/-- A receive takes only what agrees with its element contract. -/
def checkContract (tag : UInt64) (elementType : ElementType) (count : Nat)
    (frame : Frame) : Except CollectiveFault (List UInt8) := do
  let header := frame.header
  rejectIf (header.elementType ≠ elementType ∨ header.elementCount ≠ UInt64.ofNat count)
    (.network (.invalidConfiguration
      s!"tag {tag} contract mismatch: send {header.elementType.debugName}/{header.elementCount} receive {elementType.debugName}/{count}"))
  .ok frame.payload

def receiveOnRail (rail : Nat) (source destination : Fin size)
    (tag : UInt64) (elementType : ElementType) (count : σ → Nat)
    (use : List UInt8 → σ → Except CollectiveFault σ) :
    RankInstruction size σ :=
  .receive (.rail source destination rail tag) fun frame memory => do
    let payload ← checkContract tag elementType (count memory) frame
    use payload memory

end RankTransport

end Steps

/-- What the ranks of a communicator share.  Plans come from one tuning: they have
rings and channels, and groups where they need them. -/
structure DeviceCollective (T : Type) (size : Nat) where
  checksum : List UInt8 → UInt32
  uniqueId : UniqueId
  world : size < 2 ^ 32
  execution : RankDevice T
  elementType : ElementType
  typed : elementType.byteWidth = execution.elementSize
  ringOrderForChannel : Nat → RingOrder (Fin size) size
  hierarchyGroups : Option (Hierarchy size)
  plan : CollectiveKind → Nat → CollectivePlan
  channeled : ∀ kind bytes, 1 ≤ (plan kind bytes).ringChannels ∧
    (plan kind bytes).ringChannels ≤ maxRingChannels
  grouped : ∀ kind bytes, (plan kind bytes).algorithm = .hierarchical → hierarchyGroups ≠ none
  collectiveRailOrder : List Nat
  railed : collectiveRailOrder ≠ []
  p2pRails : Nat
  /-- The value drawn from the internal sequence for this call. -/
  operation : UInt64

namespace DeviceCollective

open RankTransport

variable {T : Type} {size : Nat} (collective : DeviceCollective T size)

def effectiveRingChannels (requestedChannels elementsPerRank : Nat) : Nat :=
  min requestedChannels (max elementsPerRank 1)

def collectiveRailForChannel (channel : Nat) : Nat := collective.collectiveRailOrder.get
    ⟨channel % collective.collectiveRailOrder.length,
      Nat.mod_lt _ (List.length_pos_iff.mpr collective.railed)⟩

/-- What a rank puts on the control path. -/
def request (rank : Fin size) (call : Call) :
    Except CollectiveFault Frame :=
  fromRouting (fromProtocol (call.request collective.checksum
    collective.uniqueId (UInt32.ofNat rank) (UInt32.ofNat size) 0))

/-- The checks that a rank makes of the answer; what it has sent is no part of
them. -/
def checked (rank : Fin size) (opcode : Opcode) (elementType : ElementType)
    (options : ExchangeOptions) (response : Frame) :
    Except CollectiveFault Frame := do
  let finished ← fromExchange ((Call.exchange opcode elementType options
    []).finish collective.uniqueId (UInt32.ofNat rank) (UInt32.ofNat size) 0 response)
  .ok finished.2

variable {σ : Type}

/-- `exchange_with_options`, and what the rank does with the answer. -/
def exchangeWithOptions (rank : Fin size) (opcode : Opcode)
    (elementType : ElementType) (options : ExchangeOptions)
    (payload : σ → Except CollectiveFault (List UInt8))
    (use : Frame → σ → Except CollectiveFault σ) : RankThread size σ :=
  [.send (.request rank) fun memory => do
      let payload ← payload memory
      collective.request rank (.exchange opcode elementType options payload),
    .receive (.response rank) fun response memory => do
      let response ← collective.checked rank opcode elementType options response
      use response memory]

/-- `exchange` -/
def exchange (rank : Fin size) (opcode : Opcode)
    (elementType : ElementType) (rootRank : UInt32) (elementCount : Nat)
    (payload : σ → Except CollectiveFault (List UInt8))
    (use : Frame → σ → Except CollectiveFault σ) : RankThread size σ :=
  collective.exchangeWithOptions rank opcode elementType
    ⟨rootRank, UInt64.ofNat elementCount, 0, 0⟩ payload use

/-- What `send_on_rail` writes: some elements and their bytes. -/
def dataMessage (rail : Nat) (source destination : Fin size)
    (tag : UInt64) (elementType : ElementType)
    (content : σ → Except CollectiveFault (Nat × List UInt8))
    (memory : σ) : Except CollectiveFault Frame := do
  let (count, payload) ← content memory
  let call : SendCall :=
    { rank := UInt32.ofNat source
      rail := rail
      destination := UInt32.ofNat destination
      tag := tag
      elementType := elementType
      elementCount := UInt64.ofNat count
      payload := payload }
  fromRouting (fromProtocol (call.frame collective.checksum
    collective.uniqueId (UInt32.ofNat size) 0))

def sendOnRail (rail : Nat) (source destination : Fin size)
    (tag : UInt64) (elementType : ElementType)
    (content : σ → Except CollectiveFault (Nat × List UInt8)) :
    RankInstruction size σ :=
  .send (.rail source destination rail tag)
    (collective.dataMessage rail source destination tag elementType content)

/-- The default `send`: the tag chooses the rail. -/
def send (source destination : Fin size) (tag : UInt64)
    (content : σ → Except CollectiveFault (Nat × List UInt8)) :
    RankInstruction size σ :=
  collective.sendOnRail (tag.toNat % collective.p2pRails) source
    destination tag collective.elementType content

/-- The default `receive`: the tag chooses the rail. -/
def receive (source destination : Fin size) (tag : UInt64)
    (count : σ → Nat) (use : List UInt8 → σ → Except CollectiveFault σ) :
    RankInstruction size σ :=
  RankTransport.receiveOnRail (tag.toNat % collective.p2pRails) source
    destination tag collective.elementType count use

/-- All ranks meet under one tag. -/
def agreement (rank : Fin size) (tag : UInt64) (message : String) :
    RankThread size σ :=
  collective.exchangeWithOptions rank .barrier .none ⟨anyRank, 0, 0, tag⟩
    (fun _ => .ok []) fun response memory => do
      rejectIf (response.header.opcode ≠ .barrier ∨ response.payload ≠ [])
        (.network (.invalidConfiguration message))
      .ok memory

/-- The ranks as they are written into tags. -/
def rankNumbers (ranks : List (Fin size)) : List UInt32 := ranks.map fun rank => UInt32.ofNat rank

def ringAgreement (rank : Fin size) (length : Nat)
    (discriminator : UInt32) (channels : Nat) : RankThread size σ :=
  let rings := (List.range channels).map fun channel =>
    rankNumbers (collective.ringOrderForChannel channel).members
  let channelRails := (List.range channels).map collective.collectiveRailForChannel
  collective.agreement rank
    (ringAgreementTag collective.operation length rings discriminator channels channelRails)
    "invalid ring collective agreement response"

def hierarchyAgreement (rank : Fin size) (hierarchy : Hierarchy size)
    (length : Nat) (discriminator : UInt32) (ringChannels : Nat) :
    RankThread size σ :=
  let channelRails := (List.range ringChannels).map collective.collectiveRailForChannel
  collective.agreement rank
    (hierarchyAgreementTag collective.operation length
      (hierarchy.groups.map fun group => rankNumbers group.members)
      discriminator ringChannels channelRails)
    "invalid hierarchical collective agreement response"

/-- So many elements fit into one frame. -/
def FitsFrame (elements : Nat) : Prop :=
  elements * collective.execution.elementSize ≤ maxFramePayloadBytes

/-- The header of what a rank sends on a rail. -/
def dataHeader (source destination : Fin size) (tag : UInt64)
    (elementType : ElementType) (count : Nat) : FrameHeader :=
  { FrameHeader.collective collective.checksum collective.uniqueId .send
      elementType (UInt32.ofNat source) anyRank (UInt32.ofNat size) 0
      (UInt64.ofNat count) with
    destinationRank := UInt32.ofNat destination
    tag := tag }

/-- The frame that carries so many elements on a rail. -/
def dataFrame (source destination : Fin size) (tag : UInt64)
    (elementType : ElementType) (count : Nat) (payload : List UInt8) :
    Frame :=
  requestFrame collective.checksum
    (collective.dataHeader source destination tag elementType count) payload

variable {collective}

theorem FitsFrame.addressable {elements : Nat} (fits : collective.FitsFrame elements) :
    elements * collective.execution.elementSize < wordSize :=
  lt_of_le_of_lt fits (by decide)

theorem FitsFrame.mono {elements fewer : Nat}
    (fits : collective.FitsFrame elements) (less : fewer ≤ elements) :
    collective.FitsFrame fewer :=
  (Nat.mul_le_mul_right _ less).trans fits

theorem toNat_rank (world : size < 2 ^ 32) (rank : Fin size) :
    (UInt32.ofNat rank).toNat = rank.val :=
  UInt32.toNat_ofNat_of_lt' (rank.isLt.trans world)

theorem rank_lt_world (world : size < 2 ^ 32) (rank : Fin size) :
    UInt32.ofNat rank < UInt32.ofNat size := by
  rw [UInt32.lt_iff_toNat_lt, toNat_rank world, UInt32.toNat_ofNat_of_lt' world]
  exact rank.isLt

theorem elementType_ne_none (lawful : collective.execution.Lawful) :
    collective.elementType ≠ .none := by
  intro none
  have width := collective.typed
  rw [none] at width
  exact absurd width (Nat.ne_of_lt lawful.positive)

theorem dataHeader_plain {source destination : Fin size} {tag : UInt64}
    {elementType : ElementType} {count : Nat} (typed : elementType ≠ .none) :
    PlainHeader collective.checksum (collective.dataHeader source destination
      tag elementType count) where
  flags := rfl
  payloadBytes := rfl
  payloadChecksum := rfl
  typed := fun none => absurd none typed
  source := rank_lt_world collective.world source
  destination := Or.inr (rank_lt_world collective.world destination)
  root := Or.inl rfl

/-- What explains its bytes and fits into a frame is sent. -/
theorem dataMessage_eq_ok {rail : Nat} {source destination : Fin size}
    {tag : UInt64} {elementType : ElementType}
    {content : σ → Except CollectiveFault (Nat × List UInt8)} {memory : σ}
    {count : Nat} {payload : List UInt8} (typed : elementType ≠ .none)
    (given : content memory = .ok (count, payload))
    (sized : payload.length = count * elementType.byteWidth)
    (small : payload.length ≤ maxFramePayloadBytes) :
    collective.dataMessage rail source destination tag elementType content memory =
      .ok (collective.dataFrame source destination tag elementType count payload) := by
  have width : 0 < elementType.byteWidth := by
    cases elementType <;> first | decide | exact absurd rfl typed
  have counted : (UInt64.ofNat count).toNat = count := by
    apply UInt64.toNat_ofNat_of_lt'
    have fewer := Nat.le_mul_of_pos_right count width
    rw [← sized] at fewer
    exact lt_of_le_of_lt (fewer.trans small) (by decide)
  have built := (@dataHeader_plain T size collective source destination tag
    elementType count typed).new small fun _ => by
      change (UInt64.ofNat count).toNat * elementType.byteWidth = _
      rw [counted, sized]
  rw [dataMessage, given]
  exact congrArg (fun result => fromRouting (fromProtocol result)) built

/-- Encoded elements that fit into a frame are sent. -/
theorem dataMessage_encode (lawful : collective.execution.Lawful)
    {rail : Nat} {source destination : Fin size} {tag : UInt64}
    {content : σ → Except CollectiveFault (Nat × List UInt8)} {memory : σ}
    {count : Nat} {values : List T}
    (given : content memory = .ok (count, collective.execution.encode values))
    (sized : values.length = count) (fits : collective.FitsFrame count) :
    collective.dataMessage rail source destination tag collective.elementType content memory =
      .ok (collective.dataFrame source destination tag collective.elementType
        count (collective.execution.encode values)) := by
  have bytes := lawful.length_encode values
  rw [sized] at bytes
  exact dataMessage_eq_ok (elementType_ne_none lawful) given
    (bytes.trans (congrArg _ collective.typed.symm))
    (bytes.trans_le fits)

theorem checkContract_dataFrame (source destination : Fin size)
    (tag : UInt64) (elementType : ElementType) (count : Nat)
    (payload : List UInt8) :
    checkContract tag elementType count (collective.dataFrame source
      destination tag elementType count payload) = .ok payload := by
  have header : (collective.dataFrame source destination tag elementType
        count payload).header.elementType = elementType ∧
      (collective.dataFrame source destination tag elementType count
        payload).header.elementCount = UInt64.ofNat count := by
    unfold dataFrame requestFrame
    split <;> exact ⟨rfl, rfl⟩
  rw [checkContract, rejectIf, if_neg]
  · exact congrArg Except.ok (requestFrame_payload _ _)
  · exact fun different => different.elim (fun wrong => wrong header.1)
      fun wrong => wrong header.2

/-- Three ranks with bytes on two rails: two channels with different rings, and two
groups of different sizes. -/
def ofBytes (algorithm : CollectiveAlgorithm) : DeviceCollective UInt8 3 where
  checksum := byteSum
  uniqueId := zeroId
  world := by decide
  execution := RankDevice.bytes
  elementType := .u8
  typed := rfl
  ringOrderForChannel := fun channel =>
    if channel % 2 = 0 then ⟨[0, 2, 1], rfl, by decide⟩
    else ⟨[1, 0, 2], rfl, by decide⟩
  hierarchyGroups := some ⟨[⟨2, [0]⟩, ⟨1, []⟩], by decide, by decide⟩
  plan := fun _ _ => ⟨algorithm, .policy, 0, 0, none, none, 2⟩
  channeled := fun _ _ =>
    show 1 ≤ 2 ∧ 2 ≤ maxRingChannels from by decide
  grouped := fun _ _ _ => Option.some_ne_none _
  collectiveRailOrder := [0, 1]
  railed := List.cons_ne_nil _ _
  p2pRails := 2
  operation := 7

end DeviceCollective

end RuCCL.Rank
