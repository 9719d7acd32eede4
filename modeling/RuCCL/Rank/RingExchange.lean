import RuCCL.Rank.CollectiveTransport

/-!
# Exchanges around a ring

In an exchange every member of a ring sends a chunk of its buffer to the next member and
takes one from the member before it.  Exchanges of separate chunks under different tags
do not get into each other's way.
-/

namespace RuCCL.Rank

open RuCCL.Library
open RankTransport

namespace DeviceCollective

variable {T : Type} {size length : Nat} {σ : Type}

section Definitions

variable (collective : DeviceCollective T size)

/-- The chunk that is sent. -/
def chunkContent (buffer : Cell σ (Buffer T length)) (sendRange : Span)
    (memory : σ) : Except CollectiveFault (Nat × List UInt8) := do
  let payload ← collective.execution.copyBytesFromDeviceAt
    (buffer.read memory) sendRange.start sendRange.length
  .ok (sendRange.length, payload)

/-- The bytes that are taken: as many as were asked for. -/
def chunkPayload (receiveLength : Nat) (tag : UInt64) (frame : Frame) :
    Except CollectiveFault (List UInt8) := do
  let payload ← checkContract tag collective.elementType receiveLength frame
  let receiveBytes ← okOr (checkedMul receiveLength collective.execution.elementSize)
    (.rank (.overflow "ring receive byte length"))
  let actual := payload.length
  rejectIf (actual ≠ receiveBytes) (.network (.invalidConfiguration
    s!"ring response has {actual} bytes, expected {receiveBytes}"))
  .ok payload

def chunkAccept (receiveLength : Nat) (tag : UInt64)
    (use : List UInt8 → σ → Except CollectiveFault σ)
    (frame : Frame) (memory : σ) : Except CollectiveFault σ := do
  let received ← collective.chunkPayload receiveLength tag frame
  use received memory

/-- `exchange_ring_chunk_bytes`, and what the rank does with the bytes it gets. -/
def exchangeRingChunkBytes (rank : Fin size)
    (buffer : Cell σ (Buffer T length)) (sendRange : Span)
    (receiveLength : Nat) (destination source : Fin size) (railHint : Nat)
    (tag : UInt64) (use : List UInt8 → σ → Except CollectiveFault σ) :
    RankThread size σ :=
  let rail := collective.collectiveRailForChannel railHint
  [collective.sendOnRail rail rank destination tag collective.elementType
      (collective.chunkContent buffer sendRange),
    .receive (.rail source rank rail tag) (collective.chunkAccept receiveLength tag use)]

/-- The received bytes are reduced into the range. -/
def reduceChunk (buffer : Cell σ (Buffer T length))
    (function : T → T → T) (range : Span) (received : List UInt8)
    (memory : σ) : Except CollectiveFault σ := do
  let reduced ← collective.execution.reduceBytesInto (buffer.read memory)
    range.start range.length received function
  .ok (buffer.write reduced memory)

/-- The received bytes are copied into the range. -/
def copyChunk (buffer : Cell σ (Buffer T length)) (range : Span)
    (received : List UInt8) (memory : σ) : Except CollectiveFault σ := do
  let copied ← collective.execution.copyBytesToDeviceAt (buffer.read memory) range.start received
  .ok (buffer.write copied memory)

/-- Nothing is copied where nothing was received. -/
def copyReceivedChunk (buffer : Cell σ (Buffer T length)) (range : Span)
    (received : List UInt8) (memory : σ) : Except CollectiveFault σ :=
  if received.isEmpty then .ok memory
  else collective.copyChunk buffer range received memory

end Definitions

section Arrivals

variable (collective : DeviceCollective T size)

/-- The received elements are merged into the range, whatever the memory holds. -/
structure Arrives (buffer : Cell σ (Buffer T length)) (combine : T → T → T) (range : Span)
    (use : List UInt8 → σ → Except CollectiveFault σ) : Prop where
  merges : ∀ values memory, values.length = range.length →
    use (collective.execution.encode values) memory =
      .ok (buffer.merge combine range.start values memory)
  checked : ∃ check : List UInt8 → Except CollectiveFault (List T),
    (∀ received memory, use received memory = (check received).map
      fun values => buffer.merge combine range.start values memory) ∧
    ∀ received values, received.length = range.length * collective.execution.elementSize →
      check received = .ok values → values.length = range.length

/-- A range of a buffer of which every part has an address. -/
structure Within (length : Nat) (range : Span) : Prop where
  ordered : range.start ≤ range.stop
  inside : range.stop ≤ length

theorem Within.fits {range : Span} (within : Within length range) :
    range.start + range.length ≤ length := by
  have ordered := within.ordered
  have inside := within.inside
  unfold Span.length
  omega

theorem Within.whole {range : Span} (within : Within length range) :
    (⟨range.start, range.start + range.length⟩ : Span) = range := by
  have ordered := within.ordered
  cases range
  simp only [Span.length, Span.mk.injEq, true_and] at ordered ⊢
  omega

/-- What lies in a part of the buffer lies in the buffer. -/
theorem Within.shift {range : Span} {width start : Nat}
    (within : Within width range) (fits : start + width ≤ length) :
    Within length (range.shift start) where
  ordered := Nat.add_le_add_left within.ordered start
  inside := (Nat.add_le_add_left within.inside start).trans fits

theorem Within.length_readAt {range : Span} (within : Within length range)
    (buffer : Buffer T length) :
    (readAt range buffer).length = range.length :=
  Library.length_readAt within.inside

variable {collective} (lawful : collective.execution.Lawful)
  (buffer : Cell σ (Buffer T length)) {range : Span}

include lawful

theorem arrives_reduceChunk (function : T → T → T) (within : Within length range)
    (addressable : length * collective.execution.elementSize < wordSize) :
    collective.Arrives buffer function range (collective.reduceChunk buffer function range) where
  merges := by
    intro values memory sized
    have fits := within.fits
    rw [← sized] at fits
    rw [reduceChunk, ← sized, RankDevice.reduceBytesInto_encode lawful fits addressable]
    rfl
  checked := by
    refine ⟨collective.execution.reductionInput length range.start range.length, ?_, ?_⟩
    · intro received memory
      rw [reduceChunk, RankDevice.reduceBytesInto_eq]
      cases collective.execution.reductionInput length range.start range.length received with
      | error failure => rfl
      | ok values => rfl
    · intro received values _ input
      exact RankDevice.length_of_reductionInput input

theorem arrives_copyChunk (within : Within length range) :
    collective.Arrives buffer overwrite range (collective.copyChunk buffer range) where
  merges := by
    intro values memory sized
    have fits := within.fits
    rw [← sized] at fits
    rw [copyChunk, RankDevice.copyBytesToDeviceAt, RankDevice.fitting_encode lawful fits]
    rfl
  checked := by
    refine ⟨collective.execution.fitting length range.start, ?_, ?_⟩
    · intro received memory
      rw [copyChunk, RankDevice.copyBytesToDeviceAt]
      cases collective.execution.fitting length range.start received with
      | error failure => rfl
      | ok values => rfl
    · intro received values sized fits
      exact RankDevice.length_of_fitting lawful fits sized

theorem arrives_copyReceivedChunk (within : Within length range) :
    collective.Arrives buffer overwrite range (collective.copyReceivedChunk buffer range) where
  merges := by
    intro values memory sized
    have copied := (arrives_copyChunk lawful buffer within).merges values memory sized
    rw [copyReceivedChunk]
    split
    case isTrue empty =>
      have none : values = [] := by
        have bytes := lawful.length_encode values
        rw [List.isEmpty_iff.mp empty] at bytes
        rcases Nat.mul_eq_zero.mp bytes.symm with absent | flat
        · exact List.length_eq_zero_iff.mp absent
        · exact absurd flat (Nat.ne_of_gt lawful.positive)
      rw [none, Cell.merge, mergeAt_nil, buffer.write_read]
    case isFalse => exact copied
  checked := by
    obtain ⟨check, copies, sized⟩ := (arrives_copyChunk lawful buffer within).checked
    refine ⟨fun received => if received.isEmpty then .ok []
      else check received, ?_, ?_⟩
    · intro received memory
      rw [copyReceivedChunk]
      by_cases empty : received.isEmpty = true
      · simp only [if_pos empty, Except.map, Cell.merge, mergeAt_nil, buffer.write_read]
      · simp only [if_neg empty]
        exact copies received memory
    · intro received values whole arrived
      dsimp only at arrived
      split at arrived
      case isTrue empty =>
        cases arrived
        rw [List.isEmpty_iff.mp empty] at whole
        rcases Nat.mul_eq_zero.mp whole.symm with absent | flat
        · exact absent.symm
        · exact absurd flat (Nat.ne_of_gt lawful.positive)
      case isFalse => exact sized received values whole arrived

omit lawful in
/-- An accepted chunk is merged once it has been checked. -/
theorem Arrives.updates {combine : T → T → T} {buffer : Cell σ (Buffer T length)}
    {use : List UInt8 → σ → Except CollectiveFault σ} (tag : UInt64)
    (arrives : collective.Arrives buffer combine range use) :
    ∃ check : Frame → Except CollectiveFault (List T),
      Updates (collective.chunkAccept range.length tag use) (fun frame _ => check frame)
        (fun values => buffer.merge combine range.start values) ∧
      ∀ frame values, check frame = .ok values → values.length = range.length := by
  obtain ⟨check, merges, sized⟩ := arrives.checked
  refine ⟨fun frame => do
    let received ← collective.chunkPayload range.length tag frame
    check received, ?_, ?_⟩
  · intro frame memory
    dsimp only [chunkAccept]
    cases collective.chunkPayload range.length tag frame with
    | error failure => rfl
    | ok received => exact merges received memory
  · intro frame values accepted
    obtain ⟨received, taken, rest⟩ := of_bind accepted
    refine sized received values ?_ rest
    obtain ⟨payload, _, afterContract⟩ := of_bind taken
    obtain ⟨bytes, multiplied, afterBytes⟩ := of_bind afterContract
    obtain ⟨_, agreed, same⟩ := of_bind afterBytes
    cases same
    have product := (checkedMul_eq_some_iff ..).mp ((okOr_eq_ok_iff ..).mp multiplied)
    exact (not_not.mp ((rejectIf_eq_ok_iff ..).mp agreed)).trans product.2

/-- An encoded chunk of the right length is taken. -/
theorem chunkAccept_sent {combine : T → T → T} {buffer : Cell σ (Buffer T length)}
    {use : List UInt8 → σ → Except CollectiveFault σ} (tag : UInt64)
    (arrives : collective.Arrives buffer combine range use)
    (fits : collective.FitsFrame range.length) (source destination : Fin size)
    {values : List T} (sized : values.length = range.length) (memory : σ) :
    collective.chunkAccept range.length tag use
      (collective.dataFrame source destination tag collective.elementType
        range.length (collective.execution.encode values)) memory =
      .ok (buffer.merge combine range.start values memory) := by
  have multiplied := (checkedMul_eq_some_iff range.length
    collective.execution.elementSize _).mpr ⟨fits.addressable, rfl⟩
  have bytes := lawful.length_encode values
  rw [sized] at bytes
  have payload : collective.chunkPayload range.length tag
      (collective.dataFrame source destination tag collective.elementType
        range.length (collective.execution.encode values)) =
      .ok (collective.execution.encode values) := by
    simp only [chunkPayload, checkContract_dataFrame, ok_bind, multiplied,
      okOr_some, rejectIf, if_neg (not_not.mpr bytes)]
  rw [chunkAccept, payload, ok_bind]
  exact arrives.merges values memory sized

end Arrivals

section Separation

variable {collective : DeviceCollective T size}
  {buffer : Cell σ (Buffer T length)} {range other : Span}

/-- A chunk is read unchanged while another one arrives. -/
theorem chunkMessage_unseen {combine : T → T → T}
    {use : List UInt8 → σ → Except CollectiveFault σ}
    {rail : Nat} {source destination : Fin size}
    (tag otherTag : UInt64) (within : Within length range)
    (arrives : collective.Arrives buffer combine other use)
    (apart : range.Apart ⟨other.start, other.start + other.length⟩) :
    Unseen
      (collective.dataMessage rail source destination tag
        collective.elementType (collective.chunkContent buffer range))
      (collective.chunkAccept other.length otherTag use) := by
  obtain ⟨check, updates, sized⟩ := arrives.updates otherTag
  refine updates.unseen ?_
  intro frame values memory accepted
  have same := sized frame values accepted
  rw [← same] at apart
  have read := buffer.readAt_merge_of_apart combine apart memory
  rw [dataMessage, dataMessage, chunkContent, chunkContent,
    RankDevice.copyBytesFromDeviceAt_eq_ok _ within.fits,
    RankDevice.copyBytesFromDeviceAt_eq_ok _ within.fits, within.whole,
    read]

/-- Chunks for separate ranges may arrive in any order. -/
theorem chunkAccept_commute {combine another : T → T → T}
    {use otherUse : List UInt8 → σ → Except CollectiveFault σ}
    (tag otherTag : UInt64)
    (arrives : collective.Arrives buffer combine range use)
    (arriving : collective.Arrives buffer another other otherUse)
    (apart : (⟨range.start, range.start + range.length⟩ : Span).Apart
      ⟨other.start, other.start + other.length⟩) :
    Commute (collective.chunkAccept range.length tag use)
      (collective.chunkAccept other.length otherTag otherUse) := by
  obtain ⟨check, updates, sized⟩ := arrives.updates tag
  obtain ⟨otherCheck, otherUpdates, otherSized⟩ := arriving.updates otherTag
  refine updates.commute otherUpdates (fun _ _ _ _ _ => rfl) (fun _ _ _ _ _ => rfl) ?_
  intro frame otherFrame values otherValues memory accepted otherAccepted
  have here := sized frame values accepted
  have there := otherSized otherFrame otherValues otherAccepted
  rw [← here, ← there] at apart
  exact buffer.merge_comm_of_apart combine another apart memory

/-- One exchange of a rank: what it sends and what arrives. -/
structure ChunkExchange (collective : DeviceCollective T size)
    (buffer : Cell σ (Buffer T length)) where
  sendRange : Span
  receiveRange : Span
  destination : Fin size
  source : Fin size
  railHint : Nat
  tag : UInt64
  combine : T → T → T
  use : List UInt8 → σ → Except CollectiveFault σ
  sends : Within length sendRange
  receives : Within length receiveRange
  arrives : collective.Arrives buffer combine receiveRange use

namespace ChunkExchange

def thread (exchange : ChunkExchange collective buffer) (rank : Fin size) :
    RankThread size σ :=
  collective.exchangeRingChunkBytes rank buffer exchange.sendRange
    exchange.receiveRange.length exchange.destination exchange.source
    exchange.railHint exchange.tag exchange.use

/-- Two exchanges under different tags that do not touch the same elements. -/
structure Distinct (exchange concurrent : ChunkExchange collective buffer) :
    Prop where
  tags : exchange.tag ≠ concurrent.tag
  sent : exchange.sendRange.Apart concurrent.receiveRange
  received : exchange.receiveRange.Apart concurrent.sendRange
  arrived : exchange.receiveRange.Apart concurrent.receiveRange

theorem Distinct.apart {exchange concurrent : ChunkExchange collective buffer}
    (distinct : Distinct exchange concurrent) (rank : Fin size) :
    ∀ instruction ∈ exchange.thread rank,
      ∀ other ∈ concurrent.thread rank, Apart instruction other := by
  have tags := distinct.tags
  intro instruction member other otherMember
  rcases List.mem_cons.mp member with rfl | member
  · rcases List.mem_cons.mp otherMember with rfl | otherMember
    · intro same
      injection same with _ _ _ equal
      exact tags equal
    · rw [List.mem_singleton.mp otherMember]
      have apart := distinct.sent
      rw [← concurrent.receives.whole] at apart
      exact chunkMessage_unseen _ _ exchange.sends concurrent.arrives apart
  · rw [List.mem_singleton.mp member]
    rcases List.mem_cons.mp otherMember with rfl | otherMember
    · have apart := distinct.received.symm
      rw [← exchange.receives.whole] at apart
      exact chunkMessage_unseen _ _ concurrent.sends exchange.arrives apart
    · rw [List.mem_singleton.mp otherMember]
      refine ⟨?_, ?_⟩
      · intro same
        injection same with _ _ _ equal
        exact tags equal
      · have apart := distinct.arrived
        rw [← exchange.receives.whole, ← concurrent.receives.whole] at apart
        exact chunkAccept_commute _ _ exchange.arrives concurrent.arrives apart

end ChunkExchange

end Separation

end DeviceCollective

end RuCCL.Rank
