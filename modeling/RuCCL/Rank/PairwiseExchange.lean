import RuCCL.Library.Placement
import RuCCL.Rank.HostExchange
import RuCCL.Rank.Shards

/-!
# Pairwise exchanges

All ranks send to the rank so many places behind them in the ring and take from the rank
as many places before them.  The channels of a rank run at once; each of them carries its
piece of the values, and the bytes that have arrived are kept until all channels are
joined.
-/

namespace RuCCL.Rank

open RuCCL.Library
open RankTransport

namespace DeviceCollective

variable {T : Type} {size : Nat} {σ : Type}

section Definitions

variable (collective : DeviceCollective T size)

/-- `exchange_ring_chunk_bytes` when what is sent and how much is awaited depend on the
memory. -/
def exchangeChunk (rank : Fin size) (content : σ → Except CollectiveFault (Nat × List UInt8))
    (receiveLength : σ → Nat) (destination source : Fin size)
    (railHint : Nat) (tag : UInt64)
    (use : List UInt8 → σ → Except CollectiveFault σ) :
    RankThread size σ :=
  let rail := collective.collectiveRailForChannel railHint
  [collective.sendOnRail rail rank destination tag collective.elementType content,
    .receive (.rail source rank rail tag) fun frame memory =>
      collective.chunkAccept (receiveLength memory) tag use frame memory]

/-- The received bytes are kept for the channel. -/
def keepReceived (received : Cell σ (Nat → List UInt8)) (channel : Nat)
    (bytes : List UInt8) (memory : σ) : Except CollectiveFault σ :=
  .ok ((received.component channel).write bytes memory)

end Definitions

/-- What the channels of all ranks exchange over one distance.  Neither what they send
nor how much they await depends on what they have kept. -/
structure PairwiseRound (collective : DeviceCollective T size)
    (received : Cell σ (Nat → List UInt8)) where
  ring : RingOrder (Fin size) size
  distance : ZMod size
  channels : Nat
  tag : Nat → UInt64
  content : Nat → Fin size → σ → Except CollectiveFault (Nat × List UInt8)
  receiveLength : Nat → Fin size → σ → Nat
  unsent : ∀ channel rank, received.Hidden (content channel rank)
  unawaited : ∀ channel rank kept memory,
    receiveLength channel rank (received.write kept memory) = receiveLength channel rank memory
  distinct : ∀ channel < channels, ∀ other < channels, channel ≠ other → tag channel ≠ tag other

/-- The channels of a distance have tags of their own. -/
theorem ringDataTags_distinct {operation phase : UInt64} {step channels : Nat}
    (few : channels ≤ 64) :
    ∀ channel < channels, ∀ other < channels, channel ≠ other →
      ringDataTag operation phase channel step ≠
        ringDataTag operation phase other step := by
  intro channel inside other otherInside different
  apply ringDataTag_ne step step _ _ different
  · omega
  · omega

namespace PairwiseRound

variable [NeZero size] {collective : DeviceCollective T size}
  {received : Cell σ (Nat → List UInt8)}
  (round : PairwiseRound collective received)

/-- The thread of a channel. -/
def thread (rank : Fin size) (channel : Nat) : RankThread size σ :=
  collective.exchangeChunk rank (round.content channel rank) (round.receiveLength channel rank)
    (round.ring.ahead round.distance rank)
    (round.ring.behind round.distance rank) channel (round.tag channel)
    (keepReceived received channel)

/-- What all ranks do in a channel. -/
def stages (channel : Nat) : List (Stage (Fin size) (Box size) Frame σ CollectiveFault) :=
  [.exchange (collective.shiftRound round.ring round.distance channel
    (round.tag channel) collective.elementType (round.content channel)
    fun rank frame memory =>
      collective.chunkAccept (round.receiveLength channel rank memory)
        (round.tag channel) (keepReceived received channel) frame memory)]

theorem instructions_stages (rank : Fin size) (channel : Nat) :
    (round.stages channel).flatMap (Stage.instructions rank) =
      round.thread rank channel := by
  rw [stages, List.flatMap_singleton, Stage.instructions,
    instructions_shiftRound (round.ring.mem_members rank)]
  rfl

theorem forkedPhase_stages (rank : Fin size) :
    forkedPhase round.stages round.channels rank =
      (List.range round.channels).map (round.thread rank) :=
  List.map_congr_left fun channel _ => round.instructions_stages rank channel

/-- The first channels have kept the bytes of their pieces. -/
def kept (received : Cell σ (Nat → List UInt8))
    (bytes : Nat → List UInt8) (channels : Nat) (memory : σ) : σ :=
  received.write
    (fun channel =>
      if channel < channels then bytes channel
      else received.read memory channel)
    memory

theorem kept_zero (bytes : Nat → List UInt8) (memory : σ) :
    kept received bytes 0 memory = memory :=
  received.write_read memory

theorem kept_succ (bytes : Nat → List UInt8) (channel : Nat) (memory : σ) :
    (received.component channel).write (bytes channel) (kept received bytes channel memory) =
      kept received bytes (channel + 1) memory := by
  unfold kept Cell.component
  dsimp only
  rw [received.write_write, received.read_write]
  refine congrArg (fun values => received.write values memory) (funext fun other => ?_)
  rw [Function.update_apply]
  by_cases same : other = channel
  · simp [same]
  · have order : other < channel + 1 ↔ other < channel := by omega
    simp only [if_neg same, order]

/-- Every rank sends the pieces of the values it has for its destination, and awaits as
much as it is sent. -/
structure Carries (before : Fin size → σ) (values : Fin size → Fin size → List T) : Prop where
  content : ∀ rank, ∀ channel < round.channels,
    let piece := pieceOf round.channels channel
      (values rank (round.ring.ahead round.distance rank))
    round.content channel rank (before rank) =
      .ok (piece.length, collective.execution.encode piece)
  awaited : ∀ rank, ∀ channel < round.channels, round.receiveLength channel rank (before rank) =
      (pieceOf round.channels channel
        (values (round.ring.behind round.distance rank) rank)).length
  fits : ∀ rank, ∀ channel < round.channels, collective.FitsFrame
    (pieceOf round.channels channel (values rank (round.ring.ahead round.distance rank))).length

/-- The bytes that a rank is sent in a channel. -/
def bytesFor (collective : DeviceCollective T size) (channels : Nat)
    (values : List T) (channel : Nat) : List UInt8 :=
  collective.execution.encode (pieceOf channels channel values)

/-- What all ranks have once their first channels are through. -/
def after (before : Fin size → σ) (values : Fin size → Fin size → List T)
    (channels : Nat) (rank : Fin size) : σ :=
  kept received
    (bytesFor collective round.channels
      (values (round.ring.behind round.distance rank) rank)) channels
    (before rank)

variable {round} {before : Fin size → σ} {values : Fin size → Fin size → List T}

omit [NeZero size] in
/-- As many bytes as were awaited are taken. -/
theorem chunkPayload_sent (lawful : collective.execution.Lawful)
    (source destination : Fin size) (tag : UInt64) {piece : List T}
    (fits : collective.FitsFrame piece.length) :
    collective.chunkPayload piece.length tag
        (collective.dataFrame source destination tag collective.elementType
          piece.length (collective.execution.encode piece)) =
      .ok (collective.execution.encode piece) := by
  have multiplied := (checkedMul_eq_some_iff piece.length
    collective.execution.elementSize _).mpr ⟨fits.addressable, rfl⟩
  simp only [chunkPayload, checkContract_dataFrame, ok_bind, multiplied,
    okOr_some, rejectIf, lawful.length_encode, not_true_eq_false, if_false,
    ne_eq]

/-- One channel hands its pieces over. -/
theorem stages_does (lawful : collective.execution.Lawful)
    (carries : round.Carries before values) {channel : Nat}
    (inside : channel < round.channels) :
    DoesAll (List.finRange size) ((round.stages channel).map (Prod.mk channel))
      (round.after before values channel)
      (round.after before values (channel + 1)) := by
  let piece (rank : Fin size) : List T := pieceOf round.channels channel
      (values rank (round.ring.ahead round.distance rank))
  have members : ∀ rank, rank ∈ round.ring.members := round.ring.mem_members
  have does := @shiftRound_does T size σ size _ collective round.ring
    round.distance channel (round.tag channel) collective.elementType
    (round.content channel)
    (fun rank frame memory =>
      collective.chunkAccept (round.receiveLength channel rank memory)
        (round.tag channel) (keepReceived received channel) frame memory)
    (round.after before values channel)
    (round.after before values (channel + 1))
    (fun rank => ((piece rank).length, collective.execution.encode (piece rank)))
    (elementType_ne_none lawful)
    (fun rank _ => by
      rw [after, kept, round.unsent]
      exact carries.content rank channel inside)
    (fun rank _ => by rw [lawful.length_encode, collective.typed])
    (fun rank _ => by
      rw [lawful.length_encode]
      exact carries.fits rank channel inside)
    (fun rank _ => by
      have back := round.ring.ahead_behind round.distance (members rank)
      have sent : piece (round.ring.behind round.distance rank) = pieceOf round.channels channel
            (values (round.ring.behind round.distance rank) rank) := by
        dsimp only [piece]
        rw [back]
      have awaited : round.receiveLength channel rank (round.after before values channel rank) =
          (pieceOf round.channels channel
            (values (round.ring.behind round.distance rank) rank)).length := by
        rw [after, kept, round.unawaited]
        exact carries.awaited rank channel inside
      have fits := carries.fits (round.ring.behind round.distance rank) channel inside
      rw [back] at fits
      dsimp only
      rw [awaited, sent, chunkAccept, chunkPayload_sent lawful _ _ _ fits, ok_bind, keepReceived]
      exact congrArg Except.ok (kept_succ _ channel (before rank)))
    (fun rank outside => absurd (members rank) outside)
  refine ⟨_, ?_, rfl⟩
  obtain ⟨sent, ready, taken, _⟩ := does
  exact ⟨sent, fun rank _ => ready rank (members rank), fun rank _ => taken rank (members rank),
    fun rank outside => absurd (List.mem_finRange rank) outside⟩

/-- All channels hand their pieces over and are joined. -/
theorem reaches_round (lawful : collective.execution.Lawful)
    (carries : round.Carries before values)
    (later : Fin size → RankProgram size σ) :
    Reaches collective.deviceStep
      (quiet (fun rank =>
        (List.range round.channels).map (round.thread rank) :: later rank)
        before)
      (quiet later (round.after before values round.channels)) := by
  have proper : ∀ channel < round.channels, ∀ stage ∈ round.stages channel,
      stage.Proper (List.finRange size) Box.sender Box.receiver := by
    intro channel inside stage listed
    rw [List.mem_singleton.mp listed]
    have placed := @shiftRound_proper T size σ size _ collective round.ring
      round.distance channel (round.tag channel) collective.elementType
      (round.content channel)
      (fun rank frame memory =>
        collective.chunkAccept (round.receiveLength channel rank memory)
          (round.tag channel) (keepReceived received channel) frame memory)
    have all : ∀ rank, rank ∈ round.ring.members := round.ring.mem_members
    refine ⟨fun rank _ => placed.sender rank (all rank),
      fun rank _ => placed.receiver rank (all rank),
      fun rank _ => List.mem_finRange _, fun rank _ => ?_⟩
    obtain ⟨other, _, same⟩ := placed.target rank (all rank)
    exact ⟨other, List.mem_finRange other, same⟩
  have does := @DoesAll.channels (Fin size) (Box size) Frame σ
    CollectiveFault (List.finRange size) round.stages
    (fun done => round.after before values done) round.channels
    (fun channel inside => stages_does lawful carries inside)
  have untouched : round.after before values 0 = before :=
    funext fun rank => kept_zero _ (before rank)
  rw [untouched] at does
  have runs := @reaches_channels T size σ collective round.stages round.channels later _ _
    proper does
  simp only [forkedPhase_stages] at runs
  exact runs

omit [NeZero size] in
/-- What a channel takes is checked without its own or another cell. -/
theorem keepReceived_changes {receiveLength : σ → Nat} (tag : UInt64) (channel : Nat) :
    (received.component channel).Changes
      (fun frame memory => collective.chunkAccept (receiveLength memory) tag
        (keepReceived received channel) frame memory)
      (fun frame memory =>
        collective.chunkPayload (receiveLength memory) tag frame)
      fun bytes _ => bytes := by
  intro frame memory
  dsimp only [chunkAccept, keepReceived]
  cases collective.chunkPayload (receiveLength memory) tag frame with
  | error failure => rfl
  | ok bytes => rfl

/-- A channel keeps its bytes to itself. -/
theorem thread_keeps {rank : Fin size} {channel : Nat} {instruction : RankInstruction size σ}
    (member : instruction ∈ round.thread rank channel) :
    Keeps received.component channel
      (fun box => ∃ source target rail, box = .rail source target rail (round.tag channel))
      (fun box => ∃ source target rail, box = .rail source target rail (round.tag channel))
      instruction := by
  simp only [thread, exchangeChunk, List.mem_cons, List.not_mem_nil, or_false] at member
  rcases member with rfl | rfl
  · refine ⟨⟨_, _, _, rfl⟩, fun other _ value memory => ?_⟩
    have same := round.unsent channel rank
      (Function.update (received.read memory) other value) memory
    simp only [dataMessage, Cell.component, same]
  · refine ⟨⟨_, _, _, rfl⟩, _, _, _, keepReceived_changes _ channel, ?_⟩
    intro other _ frame value memory
    have same := round.unawaited channel rank
      (Function.update (received.read memory) other value) memory
    simp only [Cell.component, same]

variable (round) in
/-- The channels of a rank have tags of their own. -/
theorem separate (rank : Fin size) :
    SeparatePhase collective.controlPath Box.sender Box.receiver rank
      ((List.range round.channels).map (round.thread rank)) := by
  rw [← round.forkedPhase_stages]
  apply SeparatePhase.forked
  · intro channel inside other otherInside different instruction listed concurrent otherListed
    rw [instructions_stages] at listed otherListed
    have boxes (box : Box size)
        (own : ∃ source target rail, box = .rail source target rail (round.tag channel)) :
        ¬∃ source target rail, box = .rail source target rail (round.tag other) := by
      obtain ⟨_, _, _, rfl⟩ := own
      rintro ⟨_, _, _, same⟩
      rw [Box.rail.injEq] at same
      exact round.distinct channel inside other otherInside different same.2.2.2
    exact Keeps.apart received.component
      (received.independent_components different) different boxes boxes
      (thread_keeps listed) (thread_keeps otherListed)
  · intro channel _ instruction listed
    rw [instructions_stages] at listed
    simp only [thread, exchangeChunk, List.mem_cons, List.not_mem_nil, or_false] at listed
    rcases listed with rfl | rfl
    · exact owned_send
    · exact owned_receive

end PairwiseRound

/-- A loop whose phases lead from each memory to the next one. -/
theorem reaches_loop {collective : DeviceCollective T size}
    {phases : Nat → Fin size → RankProgram size σ}
    {memory : Nat → Fin size → σ} {count : Nat}
    (each : ∀ step < count, ∀ later : Fin size → RankProgram size σ, Reaches collective.deviceStep
        (quiet (fun rank => phases step rank ++ later rank) (memory step))
        (quiet later (memory (step + 1))))
    (later : Fin size → RankProgram size σ) :
    Reaches collective.deviceStep
      (quiet (fun rank =>
        (List.range count).flatMap (fun step => phases step rank) ++ later rank) (memory 0))
      (quiet later (memory count)) := by
  induction count generalizing later with
  | zero => exact Reaches.refl _
  | succ before ih =>
      have early := ih (fun step inside => each step (Nat.lt_succ_of_lt inside))
        (fun rank => phases before rank ++ later rank)
      have last := each before (Nat.lt_succ_self before) later
      simp only [List.range_succ, List.flatMap_append, List.flatMap_singleton, List.append_assoc]
      exact early.trans last

section Copies

variable {length : Nat} (collective : DeviceCollective T size)

/-- The bytes of all channels are copied to their ranges behind `start`. -/
def copyRanges (start : Nat) (ranges : List Span)
    (received : Nat → List UInt8) (output : Buffer T length) :
    Except CollectiveFault (Buffer T length) :=
  ranges.zipIdx.foldlM (fun output entry =>
    collective.execution.copyBytesToDeviceAt output (start + entry.1.start)
      (received entry.2)) output

/-- What puts the piece of every channel to its place puts all values there. -/
theorem foldlM_pieces {σ : Type} {view : Buffer T length → σ}
    {copy : σ → Span × Nat → Except CollectiveFault σ} {values : List T}
    {channels start : Nat} (positive : 0 < channels)
    (fits : start + values.length ≤ length)
    (copies : ∀ channel < channels, ∀ buffer,
      start + balancedOffset values.length channels channel +
          (pieceOf channels channel values).length ≤ length →
      copy (view buffer) (channelSpan values.length channels channel, channel) =
        .ok (view (mergeAt overwrite (start + balancedOffset values.length channels channel)
          (pieceOf channels channel values) buffer)))
    (output : Buffer T length) :
    (balancedRanges values.length channels).zipIdx.foldlM copy (view output) =
      .ok (view (mergeAt overwrite start values output)) := by
  have cut := Cut.balanced values.length positive
  obtain ⟨final, ran, whole⟩ := @foldlM_zipIdx_invariant _ _ _ copy
    (balancedRanges values.length channels)
    (fun done buffer => buffer = view (placeAll
      (fun channel => start + balancedOffset values.length channels channel)
      (fun channel => pieceOf channels channel values) (List.range done)
      output))
    (view output) rfl
    (by
      intro channel range buffer located placed
      have inside : channel < channels := by
        have bounded := (List.getElem?_eq_some_iff.mp located).1
        rwa [length_balancedRanges] at bounded
      rw [getElem?_balancedRanges _ _ _ inside, Option.some.injEq] at located
      have within := (@channelSpan_within values.length channels channel inside).fits
      refine ⟨_, ?_, rfl⟩
      rw [← located, placed, List.range_succ, placeAll_append]
      apply copies channel inside
      rw [length_pieceOf inside values]
      unfold channelSpan at within ⊢
      dsimp only at within ⊢
      omega)
  rw [ran, whole, length_balancedRanges]
  exact congrArg (fun buffer => Except.ok (view buffer)) (placeAll_parts cut start output)

variable {collective} in
theorem copyRanges_eq_ok (lawful : collective.execution.Lawful)
    {channels start : Nat} (positive : 0 < channels) {values : List T}
    (fits : start + values.length ≤ length) {received : Nat → List UInt8}
    (arrived : ∀ channel < channels, received channel =
      collective.execution.encode (pieceOf channels channel values))
    (output : Buffer T length) :
    collective.copyRanges start (balancedRanges values.length channels) received output =
      .ok (mergeAt overwrite start values output) := by
  refine @foldlM_pieces _ _ _ id _ _ _ _ positive fits ?_ output
  intro channel inside buffer room
  have loaded := RankDevice.fitting_encode lawful room
  dsimp only
  rw [arrived channel inside, RankDevice.copyBytesToDeviceAt, channelSpan, id, loaded]
  rfl

end Copies

end DeviceCollective

end RuCCL.Rank
