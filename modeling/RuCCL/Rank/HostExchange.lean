import RuCCL.Library.ThreadCells
import RuCCL.Rank.CollectiveRuns

/-!
# Exchanges of host payloads

A rank sends bytes to one rank and takes bytes from another one.  What arrives is kept in
a cell of the memory, and exchanges that keep it in different cells do not get into each
other's way.
-/

namespace RuCCL.Rank

open RuCCL.Library
open RankTransport

namespace DeviceCollective

variable {T : Type} {size : Nat} {σ α η : Type}

section Definitions

variable (collective : DeviceCollective T size)

/-- Payloads are whole elements. -/
def hostContent (elementType : ElementType) (receiveBytes : Nat)
    (payload : σ → Except CollectiveFault (List UInt8)) (memory : σ) :
    Except CollectiveFault (Nat × List UInt8) := do
  let payload ← payload memory
  let elementBytes := elementType.byteWidth
  rejectIf (elementBytes = 0 ∨ payload.length % elementBytes ≠ 0 ∨
      receiveBytes % elementBytes ≠ 0)
    (.rank (.invalidLength "pairwise host payload does not align to its element type"))
  .ok (payload.length / elementBytes, payload)

/-- The bytes that are taken. -/
def hostPayload (elementType : ElementType) (receiveBytes : Nat) (tag : UInt64) (frame : Frame) :
    Except CollectiveFault (List UInt8) := do
  let payload ← checkContract tag elementType (receiveBytes / elementType.byteWidth) frame
  let actual := payload.length
  rejectIf (actual ≠ receiveBytes) (.network (.invalidConfiguration
    s!"pairwise host response has {actual} bytes, expected {receiveBytes}"))
  .ok payload

/-- `exchange_host_payload`, and what the rank does with the bytes it gets. -/
def exchangeHostPayload (rank : Fin size) (elementType : ElementType)
    (payload : σ → Except CollectiveFault (List UInt8)) (receiveBytes : Nat)
    (destination source : Fin size) (railHint : Nat) (tag : UInt64)
    (use : List UInt8 → σ → Except CollectiveFault σ) :
    RankThread size σ :=
  let rail := collective.collectiveRailForChannel railHint
  [collective.sendOnRail rail rank destination tag elementType
      (hostContent elementType receiveBytes payload),
    .receive (.rail source rank rail tag) fun frame memory => do
      let received ← hostPayload elementType receiveBytes tag frame
      use received memory]

end Definitions

/-- Whole elements of the announced number of bytes are taken. -/
theorem hostPayload_dataFrame {collective : DeviceCollective T size}
    {elementType : ElementType} (source destination : Fin size)
    (tag : UInt64) {payload : List UInt8} {receiveBytes : Nat}
    (sized : payload.length = receiveBytes) :
    hostPayload elementType receiveBytes tag
      (collective.dataFrame source destination tag elementType
        (payload.length / elementType.byteWidth) payload) = .ok payload := by
  unfold hostPayload
  dsimp only
  rw [sized, checkContract_dataFrame, ok_bind, sized, rejectIf, if_neg (not_not.mpr rfl), ok_bind]

/-- Whole elements are sent. -/
theorem hostContent_eq_ok {elementType : ElementType}
    (wide : 0 < elementType.byteWidth) {receiveBytes : Nat}
    {payload : σ → Except CollectiveFault (List UInt8)} {memory : σ}
    {bytes : List UInt8} (ready : payload memory = .ok bytes)
    (sent : elementType.byteWidth ∣ bytes.length)
    (received : elementType.byteWidth ∣ receiveBytes) :
    hostContent elementType receiveBytes payload memory =
      .ok (bytes.length / elementType.byteWidth, bytes) := by
  unfold hostContent
  rw [ready, ok_bind]
  dsimp only
  rw [rejectIf, if_neg, ok_bind]
  simp only [Nat.mod_eq_zero_of_dvd sent, Nat.mod_eq_zero_of_dvd received]
  omega

section Rounds

variable {count : Nat} [NeZero count] (collective : DeviceCollective T size)
  (ring : RingOrder (Fin size) count) (shift : ZMod count) (railHint : Nat)
  (tag : UInt64) (elementType : ElementType)
  (content : Fin size → σ → Except CollectiveFault (Nat × List UInt8))
  (accept : Fin size → Frame → σ → Except CollectiveFault σ)

/-- Every member sends so many places ahead and takes what comes from behind. -/
def shiftRound : Round (Fin size) (Box size) Frame σ CollectiveFault where
  outbox rank := .rail rank (ring.ahead shift rank)
    (collective.collectiveRailForChannel railHint) tag
  source := ring.behind shift
  message rank := collective.dataMessage (collective.collectiveRailForChannel railHint) rank
    (ring.ahead shift rank) tag elementType (content rank)
  accept := accept

variable {collective ring shift railHint tag elementType content accept}

theorem shiftRound_proper :
    (collective.shiftRound ring shift railHint tag elementType content
      accept).Proper ring.members Box.sender Box.receiver where
  sender := fun _ _ => rfl
  receiver := fun _ among => ring.ahead_behind shift among
  source := fun rank _ => ring.behind_mem shift rank
  target := fun rank among =>
    ⟨ring.ahead shift rank, ring.ahead_mem shift rank, ring.behind_ahead shift among⟩

theorem instructions_shiftRound {rank : Fin size} (among : rank ∈ ring.members) :
    (collective.shiftRound ring shift railHint tag elementType content accept).instructions rank =
      [collective.sendOnRail (collective.collectiveRailForChannel railHint)
          rank (ring.ahead shift rank) tag elementType (content rank),
        .receive (.rail (ring.behind shift rank) rank
          (collective.collectiveRailForChannel railHint) tag)
          (accept rank)] := by
  simp only [Round.instructions, shiftRound, sendOnRail, ring.ahead_behind shift among]

/-- All members send first. -/
theorem shiftRound_does {before after : Fin size → σ} {sent : Fin size → Nat × List UInt8}
    (typed : elementType ≠ .none)
    (ready : ∀ rank ∈ ring.members, content rank (before rank) = .ok (sent rank))
    (sized : ∀ rank ∈ ring.members, (sent rank).2.length = (sent rank).1 * elementType.byteWidth)
    (small : ∀ rank ∈ ring.members, (sent rank).2.length ≤ maxFramePayloadBytes)
    (taken : ∀ rank ∈ ring.members, accept rank
        (collective.dataFrame (ring.behind shift rank) rank tag elementType
          (sent (ring.behind shift rank)).1
          (sent (ring.behind shift rank)).2) (before rank) =
        .ok (after rank))
    (outside : ∀ rank ∉ ring.members, after rank = before rank) :
    (collective.shiftRound ring shift railHint tag elementType content
      accept).Does ring.members before after := by
  refine ⟨fun rank => collective.dataFrame rank (ring.ahead shift rank) tag
    elementType (sent rank).1 (sent rank).2, ?_, ?_, outside⟩
  · intro rank among
    exact dataMessage_eq_ok typed (ready rank among) (sized rank among) (small rank among)
  · intro rank among
    dsimp only [shiftRound]
    rw [ring.ahead_behind shift among]
    exact taken rank among

end Rounds

end DeviceCollective

end RuCCL.Rank
