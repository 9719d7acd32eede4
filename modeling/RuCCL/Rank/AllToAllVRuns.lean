import RuCCL.Rank.AllToAllVDirect

/-!
# An all-to-all with counts in pairwise rounds

Round by round every rank learns the count of one rank more; then, round by round, it gets
the elements of one rank more.
-/

namespace RuCCL.Rank

open RuCCL.Library
open RankTransport

namespace DeviceCollective

variable {T : Type} {size : Nat} [NeZero size]
  (collective : DeviceCollective T size) (ring : RingOrder (Fin size) size)
  (counts : Fin size → Fin size → Nat)

omit [NeZero size] in
theorem entryOf_ofFn {α : Type} (values : Fin size → α) (rank : Fin size) :
    entryOf (List.ofFn values) rank = .ok (values rank) := by
  rw [entryOf, List.getElem?_ofFn, dif_pos rank.isLt]
  rfl

/-- The ranks at the first distances before a rank. -/
def sourcesOf (rank : Fin size) (count : Nat) : List (Fin size) :=
  (List.range count).map fun distance : Nat =>
    ring.behind (distance : ZMod size) rank

theorem sourcesOf_one (rank : Fin size) : sourcesOf ring rank 1 = [rank] := by
  rw [sourcesOf, List.range_one, List.map_singleton, Nat.cast_zero,
    RingOrder.behind, sub_zero, ring.member_place (ring.mem_members rank)]

theorem sourcesOf_succ (rank : Fin size) (count : Nat) :
    sourcesOf ring rank (count + 1) = sourcesOf ring rank count ++
        [ring.behind (count : ZMod size) rank] := by
  rw [sourcesOf, List.range_succ, List.map_append]
  rfl

theorem mem_sourcesOf (rank source : Fin size) : source ∈ sourcesOf ring rank (size - 1 + 1) := by
  obtain ⟨distance, near, same⟩ := ring.exists_behind rank (ring.mem_members source)
  exact List.mem_map.mpr ⟨distance, List.mem_range.mpr (by omega), same⟩

/-- What all ranks do to learn one count more. -/
def countRound (step : Nat) :
    Round (Fin size) (Box size) Frame (AllToAllVMemory T) CollectiveFault :=
  let tag := ringDataTag collective.operation 0 0 step
  collective.shiftRound ring (step : ZMod size) 0 tag .u8
    (fun rank => hostContent .u8 8 fun _ => do
      let count ← entryOf (List.ofFn (counts rank)) (ring.ahead (step : ZMod size) rank)
      .ok (leBytes 8 count))
    fun rank frame memory => do
      let received ← hostPayload .u8 8 tag frame
      keepCount (ring.behind (step : ZMod size) rank) received memory

def countStages (_channel : Nat) :
    List (Stage (Fin size) (Box size) Frame (AllToAllVMemory T) CollectiveFault) :=
  (List.range (size - 1)).map fun earlier =>
    .exchange (collective.countRound ring counts (earlier + 1))

theorem flatMap_exchangeCount (rank : Fin size) :
    [(List.range (size - 1)).flatMap fun earlier =>
      (collective.exchangeCount ring rank (List.ofFn (counts rank))
        (earlier + 1) : RankThread size (AllToAllVMemory T))] =
      forkedPhase (collective.countStages ring counts) 1 rank := by
  rw [forkedPhase, List.range_one, List.map_singleton, countStages, List.flatMap_map]
  refine congrArg (fun thread => [thread]) (List.flatMap_congr fun earlier early => ?_)
  have near := List.mem_range.mp early
  rw [Stage.instructions, countRound, instructions_shiftRound
    (ring.mem_members rank), exchangeCount, RingOrder.memberAt_forward,
    RingOrder.memberAt_backward _ _ (by omega)]
  rfl

/-- The memories when the first counts are known. -/
def countsKnown (before : Fin size → AllToAllVMemory T) (step : Nat)
    (rank : Fin size) : AllToAllVMemory T :=
  { before rank with
    counts := setAll (fun source => counts source rank)
      (sourcesOf ring rank (step + 1)) (List.replicate size 0) }

variable {collective ring counts}

theorem countRound_does (small : ∀ rank other, counts rank other < wordSize)
    (before : Fin size → AllToAllVMemory T) (step : Nat) :
    (collective.countRound ring counts (step + 1)).Does (List.finRange size)
      (countsKnown ring counts before step)
      (countsKnown ring counts before (step + 1)) := by
  let distance : ZMod size := ((step + 1 : Nat) : ZMod size)
  let tag := ringDataTag collective.operation 0 0 (step + 1)
  have members : ∀ rank, rank ∈ ring.members := ring.mem_members
  have bytes (count : Nat) : (leBytes 8 count).length = 8 := leBytes_length 8 count
  have whole (count : Nat) : ElementType.u8.byteWidth ∣ count := one_dvd count
  have does := @shiftRound_does T size (AllToAllVMemory T) size _ collective
    ring distance 0 tag .u8
    (fun rank => hostContent .u8 8 fun _ => do
      let count ← entryOf (List.ofFn (counts rank)) (ring.ahead distance rank)
      .ok (leBytes 8 count))
    (fun rank frame memory => do
      let received ← hostPayload .u8 8 tag frame
      keepCount (ring.behind distance rank) received memory)
    (countsKnown ring counts before step)
    (countsKnown ring counts before (step + 1))
    (fun rank => (8, leBytes 8 (counts rank (ring.ahead distance rank))))
    nofun
    (fun rank _ => by
      have content := @hostContent_eq_ok (AllToAllVMemory T) .u8
        (by decide) 8
        (fun _ => do
          let count ← entryOf (List.ofFn (counts rank)) (ring.ahead distance rank)
          .ok (leBytes 8 count))
        (countsKnown ring counts before step rank)
        (leBytes 8 (counts rank (ring.ahead distance rank)))
        (by rw [entryOf_ofFn, ok_bind]) (whole _) (whole _)
      rw [bytes] at content
      exact content)
    (fun _ _ => bytes _) (fun _ _ => (bytes _).trans_le (by decide))
    (fun rank _ => by
      have back := ring.ahead_behind distance (members rank)
      have taken := @hostPayload_dataFrame T size collective .u8
        (ring.behind distance rank) rank tag
        (leBytes 8 (counts (ring.behind distance rank) rank)) 8 (bytes _)
      rw [bytes] at taken
      have value : leValue (leBytes 8 (counts (ring.behind distance rank) rank)) =
          counts (ring.behind distance rank) rank :=
        leValue_leBytes (small (ring.behind distance rank) rank)
      dsimp only
      rw [back]
      refine (congrArg (· >>= _) taken).trans ?_
      rw [ok_bind, keepCount, bytes, rejectIf, if_neg (not_not.mpr rfl),
        ok_bind, value, countsKnown, countsKnown,
        sourcesOf_succ ring rank (step + 1), setAll_append]
      rfl)
    (fun rank outside => absurd (members rank) outside)
  obtain ⟨sent, ready, taken, _⟩ := does
  exact ⟨sent, fun rank _ => ready rank (members rank), fun rank _ => taken rank (members rank),
    fun rank outside => absurd (List.mem_finRange rank) outside⟩

theorem countsKnown_all (before : Fin size → AllToAllVMemory T) (rank : Fin size) :
    countsKnown ring counts before (size - 1) rank =
      { before rank with counts := columnOf counts rank } := by
  rw [countsKnown, setAll_eq_ofFn List.length_replicate (mem_sourcesOf ring rank)]
  rfl

/-- All ranks learn the counts of all ranks for them. -/
theorem reaches_counts (small : ∀ rank other, counts rank other < wordSize)
    (later : Fin size → RankProgram size (AllToAllVMemory T))
    (before : Fin size → AllToAllVMemory T) :
    Reaches collective.deviceStep
      (quiet (fun rank =>
        [(List.range (size - 1)).flatMap fun earlier =>
          collective.exchangeCount ring rank (List.ofFn (counts rank))
            (earlier + 1)] :: later rank)
        (countsKnown ring counts before 0))
      (quiet later fun rank =>
        { before rank with counts := columnOf counts rank }) := by
  have all : ∀ rank, rank ∈ ring.members := ring.mem_members
  have proper : ∀ channel < 1, ∀ stage ∈ collective.countStages ring counts channel,
      stage.Proper (List.finRange size) Box.sender Box.receiver := by
    intro channel _ stage listed
    obtain ⟨earlier, _, rfl⟩ := List.mem_map.mp listed
    refine ⟨fun _ _ => rfl, fun rank _ => ring.ahead_behind _ (all rank),
      fun rank _ => List.mem_finRange _, fun rank _ => ?_⟩
    exact ⟨ring.ahead ((earlier + 1 : Nat) : ZMod size) rank,
      List.mem_finRange _, ring.behind_ahead _ (all rank)⟩
  have steps := @DoesAll.steps (Fin size) (Box size) Frame
    (AllToAllVMemory T) CollectiveFault (List.finRange size)
    (fun earlier =>
      .exchange (collective.countRound ring counts (earlier + 1)))
    (countsKnown ring counts before) 0 (size - 1)
    (fun earlier _ => countRound_does small before earlier)
  have does : DoesAll (List.finRange size) (byChannel (collective.countStages ring counts) 1)
      (countsKnown ring counts before 0)
      (countsKnown ring counts before (size - 1)) := by
    rw [byChannel, List.range_one, List.flatMap_singleton]
    exact steps
  have runs := @reaches_channels T size (AllToAllVMemory T) collective _ 1 later _ _ proper does
  rw [funext (@countsKnown_all T size _ ring counts before)] at runs
  simp only [flatMap_exchangeCount]
  exact runs

/-- Where the elements of each count start. -/
def offsetsOf (counts : List Nat) : List Nat :=
  (List.range counts.length).map (Library.before counts)

omit [NeZero size] in
theorem entryOf_offsetsOf {counts : List Nat} (width : counts.length = size) (rank : Fin size) :
    entryOf (offsetsOf counts) rank = .ok (Library.before counts rank) := by
  have inside : rank.val < counts.length := by
    rw [width]
    exact rank.isLt
  rw [entryOf, offsetsOf, List.getElem?_map, List.getElem?_range inside]
  rfl

/-- What a rank has of its output when the elements of some ranks are there. -/
def placedOutput (collective : DeviceCollective T size)
    (counts : Fin size → Fin size → Nat) (inputs : Fin size → SizedBuffer T)
    (rank : Fin size) (sources : List (Fin size)) :
    Option (SizedBuffer T) :=
  sized (placeAll
    (fun source : Fin size =>
      Library.before (columnOf counts rank) source)
    (fun source => countedValues counts inputs source rank) sources
    (collective.execution.fresh (columnOf counts rank).sum))

/-- The memories when the elements of some ranks are there. -/
def outputStarted (collective : DeviceCollective T size)
    (counts : Fin size → Fin size → Nat) (inputs : Fin size → SizedBuffer T)
    (before : Fin size → AllToAllVMemory T) (rank : Fin size) :
    AllToAllVMemory T :=
  { before rank with
    buffer := collective.placedOutput counts inputs rank [rank]
    counts := columnOf counts rank
    sendOffsets := offsetsOf (List.ofFn (counts rank))
    receiveOffsets := offsetsOf (columnOf counts rank) }

variable {inputs : Fin size → SizedBuffer T}

omit [NeZero size] in
/-- The elements of a source have a place among those of all sources. -/
theorem placed_fits (counts : Fin size → Fin size → Nat) (rank source : Fin size) :
    Library.before (columnOf counts rank) source +
        counts source rank ≤ (columnOf counts rank).sum :=
  before_add_le_sum (Carries.getElem?_counts _ source)

omit [NeZero size] in
theorem startOutput_eq_ok (lawful : collective.execution.Lawful) (whole : Whole counts inputs)
    (sent : ∀ rank, (inputs rank).length < wordSize)
    (awaited : ∀ rank, (columnOf counts rank).sum < wordSize)
    (before : Fin size → AllToAllVMemory T) (rank : Fin size) :
    collective.startOutput rank (inputs rank) (List.ofFn (counts rank))
        { before rank with counts := columnOf counts rank } =
      .ok (collective.outputStarted counts inputs before rank) := by
  have sendOffsets := @prefixOffsets_eq_ok (List.ofFn (counts rank))
    (by rw [whole rank]; exact sent rank)
  have receiveOffsets := prefixOffsets_eq_ok (awaited rank)
  have summed := checkedSum_eq_some_iff.mpr ⟨awaited rank, rfl⟩
  have column : (columnOf counts rank).length = size := List.length_ofFn
  have width : (List.ofFn (counts rank)).length = size := List.length_ofFn
  have own := length_countedValues whole rank rank
  rw [startOutput, sendOffsets]
  dsimp only [Except.mapError]
  rw [ok_bind, receiveOffsets]
  dsimp only
  rw [ok_bind, summed, okOr_some, ok_bind, entryOf_ofFn, ok_bind]
  unfold outputStarted placedOutput
  by_cases empty : counts rank rank = 0
  · have nothing : countedValues counts inputs rank rank = [] :=
      List.eq_nil_of_length_eq_zero (own.trans empty)
    rw [if_pos empty, placeAll, List.foldl_cons, List.foldl_nil, nothing, mergeAt_nil]
    rfl
  · have fits := placed_fits counts rank rank
    have some : (columnOf counts rank).sum ≠ 0 := by omega
    have inside : Library.before (List.ofFn (counts rank)) rank +
        counts rank rank ≤ (inputs rank).length := by
      rw [← whole rank]
      exact before_add_le_sum (Carries.getElem?_counts _ rank)
    have read := @RankDevice.copyBytesFromDeviceAt_eq_ok _
      collective.execution _ (inputs rank).elements _ _ inside
    have values : readAt ⟨Library.before (List.ofFn (counts rank)) rank,
        Library.before (List.ofFn (counts rank)) rank + counts rank rank⟩ (inputs rank).elements =
        countedValues counts inputs rank rank := by
      rw [readAt, Span.length, Nat.add_sub_cancel_left]
      rfl
    rw [← own] at fits
    have loaded := RankDevice.fitting_encode lawful fits
    have startAt := entryOf_offsetsOf width rank
    have placeAt := entryOf_offsetsOf column rank
    rw [offsetsOf] at startAt placeAt
    rw [if_neg empty, startAt, ok_bind, read, values, ok_bind, if_neg some,
      okOr_some, ok_bind, placeAt, ok_bind]
    dsimp only
    rw [RankDevice.copyBytesToDeviceAt, loaded, sized, if_neg some]
    rfl

section Rounds

variable (collective ring counts inputs) {channels : Nat}

/-- The round of one distance. -/
def countedRound (few : channels ≤ 64) (step : Nat) :
    PairwiseRound collective
      (AllToAllVMemory.receivedCell :
        Cell (AllToAllVMemory T) (Nat → List UInt8)) where
  ring := ring
  distance := step
  channels := channels
  tag := fun channel => ringDataTag collective.operation 1 channel step
  content := fun channel rank =>
    collective.countedContent (inputs rank) (List.ofFn (counts rank))
      (ring.ahead (step : ZMod size) rank) channels channel
  receiveLength := fun channel rank =>
    awaitedLength (ring.behind (step : ZMod size) rank) channels channel
  unsent := fun _ _ _ _ => rfl
  unawaited := fun _ _ _ _ => rfl
  distinct := ringDataTags_distinct few

theorem threads_allToAllV (few : channels ≤ 64) (rank : Fin size)
    {step : Nat} (near : step ≤ size) :
    ((List.range channels).map fun channel =>
      collective.allToAllVChannel ring rank (inputs rank)
        (List.ofFn (counts rank)) channels step channel) =
      (List.range channels).map
        ((collective.countedRound ring counts inputs few step).thread rank) := by
  refine List.map_congr_left fun channel _ => ?_
  unfold allToAllVChannel
  dsimp only
  rw [RingOrder.memberAt_forward, RingOrder.memberAt_backward _ _ near]
  rfl

variable (before : Fin size → AllToAllVMemory T)

/-- The memories after some rounds. -/
def elementsDone (few : channels ≤ 64) :
    Nat → Fin size → AllToAllVMemory T
  | 0, rank => collective.outputStarted counts inputs before rank
  | step + 1, rank =>
      { (collective.countedRound ring counts inputs few (step + 1)).after
          (elementsDone few step) (countedValues counts inputs) channels
          rank with
        buffer := collective.placedOutput counts inputs rank (sourcesOf ring rank (step + 2)) }

/-- The rounds change the output only. -/
theorem elementsDone_keeps (few : channels ≤ 64) (step : Nat) (rank : Fin size) :
    (collective.elementsDone ring counts inputs before few step rank).counts =
        columnOf counts rank ∧
      (collective.elementsDone ring counts inputs before few step
        rank).sendOffsets = offsetsOf (List.ofFn (counts rank)) ∧
      (collective.elementsDone ring counts inputs before few step
        rank).receiveOffsets = offsetsOf (columnOf counts rank) := by
  induction step with
  | zero => exact ⟨rfl, rfl, rfl⟩
  | succ step ih => exact ih

theorem buffer_elementsDone (few : channels ≤ 64) (step : Nat) (rank : Fin size) :
    (collective.elementsDone ring counts inputs before few step rank).buffer =
      collective.placedOutput counts inputs rank (sourcesOf ring rank (step + 1)) := by
  cases step with
  | zero =>
      rw [sourcesOf_one]
      rfl
  | succ step => rfl

variable {collective ring counts inputs before}

theorem countedRound_carries {few : channels ≤ 64} (whole : Whole counts inputs) {step : Nat}
    (partsFit : ∀ rank, collective.ChannelsFit
      (counts rank (ring.ahead (step : ZMod size) rank)) channels)
    (done : Nat) :
    (collective.countedRound ring counts inputs few step).Carries
      (collective.elementsDone ring counts inputs before few done)
      (countedValues counts inputs) := by
  have long (rank destination : Fin size) {channel : Nat} (inside : channel < channels) :
      (pieceOf channels channel (countedValues counts inputs rank destination)).length =
        (channelSpan (counts rank destination) channels channel).length := by
    rw [length_pieceOf inside, length_countedValues whole]
  constructor
  · intro rank channel (inside : channel < channels)
    let destination := ring.ahead (step : ZMod size) rank
    let span := channelSpan (counts rank destination) channels channel
    let start := Library.before (List.ofFn (counts rank)) destination
    obtain ⟨_, offsets, _⟩ :=
      elementsDone_keeps collective ring counts inputs before few done rank
    have within : Within (counts rank destination) span := channelSpan_within inside
    have room : start + counts rank destination ≤ (inputs rank).length := by
      rw [← whole rank]
      exact before_add_le_sum (Carries.getElem?_counts _ destination)
    have shifted : Within (inputs rank).length (span.shift start) := within.shift room
    have lengths := long rank destination inside
    have piece : readAt (span.shift start) (inputs rank).elements = pieceOf channels channel
          (countedValues counts inputs rank destination) := by
      rw [pieceOf, length_countedValues whole, countedValues, segment_segment within.fits]
      rw [readAt, span.length_shift]
      rfl
    have startAt := @entryOf_offsetsOf size (List.ofFn (counts rank)) List.length_ofFn destination
    dsimp only [countedRound]
    rw [countedContent, offsets, startAt, ok_bind, entryOf_ofFn, ok_bind,
      rangeAt_balancedRanges inside]
    dsimp only
    rw [RankDevice.copyBytesFromDeviceAt_eq_ok _ shifted.fits, ok_bind,
      shifted.whole, piece, span.length_shift, lengths]
  · intro rank channel (inside : channel < channels)
    let source := ring.behind (step : ZMod size) rank
    obtain ⟨column, _, _⟩ := elementsDone_keeps collective ring counts inputs before few done rank
    have located : (columnOf counts rank).getD source 0 =
        counts source rank := by
      rw [List.getD_eq_getElem?_getD, columnOf, Carries.getElem?_counts]
      rfl
    dsimp only [countedRound]
    rw [awaitedLength, column, located, rangeAt_balancedRanges inside]
    exact (long source rank inside).symm
  · intro rank channel (inside : channel < channels)
    have part := partsFit rank channel inside
    rwa [← long rank (ring.ahead (step : ZMod size) rank) inside] at part

omit [NeZero size] in
/-- The pieces of all channels are put where the elements of their source go. -/
theorem copyCountedRanges_eq_ok (lawful : collective.execution.Lawful)
    {place total : Nat} (positive : 0 < channels) {values : List T}
    (fits : place + values.length ≤ total) {received : Nat → List UInt8}
    (arrived : ∀ channel < channels, received channel =
      collective.execution.encode (pieceOf channels channel values))
    (output : Buffer T total) :
    (balancedRanges values.length channels).zipIdx.foldlM
        (collective.copyCountedRange place received) (sized output) =
      .ok (sized (mergeAt overwrite place values output)) := by
  apply foldlM_pieces positive fits
  intro channel inside buffer room
  have bytes := lawful.length_encode (pieceOf channels channel values)
  rw [copyCountedRange]
  dsimp only
  rw [arrived channel inside]
  by_cases empty : pieceOf channels channel values = []
  · have none : collective.execution.encode (pieceOf channels channel values) = [] := by
      apply List.eq_nil_of_length_eq_zero
      rw [bytes, empty, List.length_nil, Nat.zero_mul]
    rw [none, List.isEmpty_nil, if_pos rfl, empty, mergeAt_nil]
  · have long := List.length_pos_iff.mpr empty
    have some : total ≠ 0 := by omega
    have present : ¬(collective.execution.encode
        (pieceOf channels channel values)).isEmpty = true := by
      rw [List.isEmpty_iff, ← List.length_eq_zero_iff, bytes]
      exact Nat.mul_ne_zero (Nat.ne_of_gt long) (Nat.ne_of_gt lawful.positive)
    have loaded := RankDevice.fitting_encode lawful room
    rw [if_neg present, sized, if_neg some, okOr_some, ok_bind]
    dsimp only
    rw [RankDevice.copyBytesToDeviceAt, channelSpan, loaded, sized, if_neg some]
    rfl

/-- One round hands over the elements of one distance. -/
theorem reaches_countedRound (lawful : collective.execution.Lawful) (whole : Whole counts inputs)
    (partsFit : ∀ rank other, rank ≠ other → collective.ChannelsFit (counts rank other) channels)
    {few : channels ≤ 64} (positive : 0 < channels) {step : Nat}
    (near : step + 1 < size)
    (later : Fin size → RankProgram size (AllToAllVMemory T)) :
    Reaches collective.deviceStep
      (quiet (fun rank =>
        [(List.range channels).map fun channel =>
            collective.allToAllVChannel ring rank (inputs rank)
              (List.ofFn (counts rank)) channels (step + 1) channel,
          [[.compute (collective.copyCountedRound ring rank (step + 1) channels)]]] ++
          later rank)
        (collective.elementsDone ring counts inputs before few step))
      (quiet later
        (collective.elementsDone ring counts inputs before few (step + 1))) := by
  have moves : ((step + 1 : Nat) : ZMod size) ≠ 0 := by
    rw [Ne, ZMod.natCast_eq_zero_iff]
    exact fun divides => Nat.not_le.mpr near (Nat.le_of_dvd (Nat.succ_pos step) divides)
  let round := collective.countedRound ring counts inputs few (step + 1)
  let copy (rank : Fin size) : RankProgram size (AllToAllVMemory T) :=
    [[.compute (collective.copyCountedRound ring rank (step + 1) channels)]] :: later rank
  have exchanges := @PairwiseRound.reaches_round T size _ _ collective _ round _ _ lawful
    (@countedRound_carries T size _ collective ring counts inputs channels
      before few whole (step + 1)
      (fun rank => partsFit rank _ (ring.ahead_ne moves rank).symm) step)
    copy
  have copies := @reaches_computes T size _ collective (fun _ => True) _
    (fun rank => collective.copyCountedRound ring rank (step + 1) channels)
    (fun _ => []) later
    (round.after (collective.elementsDone ring counts inputs before few step)
      (countedValues counts inputs) channels)
    (collective.elementsDone ring counts inputs before few (step + 1))
    (by
      intro rank _
      let source := ring.behind ((step + 1 : Nat) : ZMod size) rank
      obtain ⟨column, _, offsets⟩ := elementsDone_keeps collective ring
        counts inputs before few step rank
      have buffer := buffer_elementsDone collective ring counts inputs before few step rank
      have long := length_countedValues whole source rank
      have fits := placed_fits counts rank source
      rw [← long] at fits
      have copied := @copyCountedRanges_eq_ok T size collective channels
        lawful _ _ positive _ fits
        (round.after (collective.elementsDone ring counts inputs before few step)
          (countedValues counts inputs) channels rank).received
        (fun channel inside => if_pos inside)
        (placeAll
          (fun source : Fin size =>
            Library.before (columnOf counts rank) source)
          (fun source => countedValues counts inputs source rank)
          (sourcesOf ring rank (step + 1))
          (collective.execution.fresh (columnOf counts rank).sum))
      have back := RingOrder.memberAt_backward ring rank (Nat.le_of_lt near)
      have count : entryOf (round.after
          (collective.elementsDone ring counts inputs before few step)
          (countedValues counts inputs) channels rank).counts source = .ok (counts source rank) :=
        (congrArg (entryOf · source) column).trans
          (entryOf_ofFn (fun other => counts other rank) source)
      have place : entryOf (round.after
          (collective.elementsDone ring counts inputs before few step)
          (countedValues counts inputs) channels rank).receiveOffsets source =
            .ok (Library.before (columnOf counts rank) source) :=
        (congrArg (entryOf · source) offsets).trans (entryOf_offsetsOf List.length_ofFn source)
      have output : (round.after (collective.elementsDone ring counts inputs before few step)
          (countedValues counts inputs) channels rank).buffer =
            collective.placedOutput counts inputs rank (sourcesOf ring rank (step + 1)) := buffer
      rw [long] at copied
      rw [copyCountedRound, back, count, ok_bind, place, ok_bind, output,
        placedOutput, copied, ok_bind, elementsDone, placedOutput,
        sourcesOf_succ ring rank (step + 1), placeAll_append]
      rfl)
  simp only [if_true] at copies
  have forked : ∀ rank, ((List.range channels).map fun channel =>
      collective.allToAllVChannel ring rank (inputs rank)
        (List.ofFn (counts rank)) channels (step + 1) channel) =
      (List.range channels).map (round.thread rank) :=
    fun rank =>
      threads_allToAllV collective ring counts inputs few rank (Nat.le_of_lt near)
  simp only [forked]
  exact Reaches.trans exchanges (copies.trans reaches_join)

end Rounds

/-- Every rank gets what all ranks have for it. -/
theorem reaches_allToAllVPairwise (lawful : collective.execution.Lawful)
    (whole : Whole counts inputs)
    (sent : ∀ rank, (inputs rank).length * collective.execution.elementSize < wordSize)
    (awaited : ∀ rank, (columnOf counts rank).sum * collective.execution.elementSize < wordSize)
    {ringChannels : Nat} (bounded : ringChannels ≤ maxRingChannels)
    (partsFit : ∀ rank other, rank ≠ other →
      collective.ChannelsFit (counts rank other) (max ringChannels 1))
    (before : Fin size → AllToAllVMemory T) :
    ∃ after : Fin size → AllToAllVMemory T, Reaches collective.deviceStep
        (quiet (fun rank => collective.allToAllVPairwise ring rank
          (inputs rank) (List.ofFn (counts rank)) ringChannels) before)
        (quiet (fun _ => []) after) ∧
      Exchanged counts inputs after := by
  let channels := max ringChannels 1
  have positive : 0 < channels := by omega
  have few : channels ≤ 64 := by
    unfold maxRingChannels at bounded
    omega
  have sentWords (rank : Fin size) : (inputs rank).length < wordSize :=
    lt_of_le_of_lt (Nat.le_mul_of_pos_right _ lawful.positive) (sent rank)
  have awaitedWords (rank : Fin size) : (columnOf counts rank).sum < wordSize :=
    lt_of_le_of_lt (Nat.le_mul_of_pos_right _ lawful.positive) (awaited rank)
  have small (rank other : Fin size) : counts rank other < wordSize := by
    have fits := placed_fits counts other rank
    have words := awaitedWords other
    omega
  let rounds (step : Nat) (rank : Fin size) : RankProgram size (AllToAllVMemory T) :=
    [(List.range channels).map fun channel =>
        collective.allToAllVChannel ring rank (inputs rank)
          (List.ofFn (counts rank)) channels (step + 1) channel,
      [[.compute (collective.copyCountedRound ring rank (step + 1) channels)]]]
  let elements (rank : Fin size) : RankProgram size (AllToAllVMemory T) :=
    (List.range (size - 1)).flatMap fun step => rounds step rank
  let allocates (rank : Fin size) : RankProgram size (AllToAllVMemory T) :=
    [[.compute (collective.startOutput rank (inputs rank)
      (List.ofFn (counts rank)))]] :: elements rank
  let learns (rank : Fin size) : RankProgram size (AllToAllVMemory T) :=
    [(List.range (size - 1)).flatMap fun earlier =>
      collective.exchangeCount ring rank (List.ofFn (counts rank))
        (earlier + 1)] :: allocates rank
  have agrees : Reaches collective.deviceStep
      (quiet (fun rank => collective.allToAllVPairwise ring rank
        (inputs rank) (List.ofFn (counts rank)) ringChannels) before)
      (quiet (fun rank =>
        [[.compute (startCounts rank (List.ofFn (counts rank)))]] :: learns rank) before) :=
    reaches_agreement _ _ (fun rank => [.compute (startCounts rank (List.ofFn (counts rank)))])
      learns before
  have starts := @reaches_computes T size _ collective (fun _ => True) _
    (fun rank => startCounts rank (List.ofFn (counts rank)))
    (fun _ => []) learns before (countsKnown ring counts before 0)
    (by
      intro rank _
      rw [startCounts, entryOf_ofFn, ok_bind, countsKnown, sourcesOf_one ring rank]
      rfl)
  have known := @reaches_counts T size _ collective ring counts small allocates before
  have outputs := @reaches_computes T size _ collective (fun _ => True) _
    (fun rank => collective.startOutput rank (inputs rank) (List.ofFn (counts rank)))
    (fun _ => []) elements
    (fun rank => { before rank with counts := columnOf counts rank })
    (collective.elementsDone ring counts inputs before few 0)
    (fun rank _ => startOutput_eq_ok lawful whole sentWords awaitedWords before rank)
  have loops := @reaches_loop T size (AllToAllVMemory T) collective rounds
    (collective.elementsDone ring counts inputs before few) (size - 1)
    (fun step early later => reaches_countedRound lawful whole partsFit
      positive (by omega) later) (fun _ => [])
  simp only [if_true] at starts outputs
  simp only [List.append_nil] at loops
  refine ⟨_, Reaches.trans agrees (starts.trans (reaches_join.trans
    (known.trans (outputs.trans (reaches_join.trans loops))))),
    exchanged_of_sized whole
      (fun rank => (elementsDone_keeps collective ring counts inputs before
        few _ rank).1) fun rank => ⟨_, buffer_elementsDone collective ring
          counts inputs before few _ rank, ?_⟩⟩
  have cut := cut_before (columnOf counts rank)
  have column : (columnOf counts rank).length = size := List.length_ofFn
  rw [column] at cut
  apply ofFn_placeAll cut
  · intro source
    rw [length_countedValues whole]
    exact (before_succ (Carries.getElem?_counts _ source)).symm
  · exact mem_sourcesOf ring rank

/-- The channels of a round have tags of their own. -/
theorem separate_allToAllVPairwise {ringChannels : Nat}
    (bounded : ringChannels ≤ maxRingChannels) (rank : Fin size) :
    ∀ phase ∈ collective.allToAllVPairwise ring rank (inputs rank)
        (List.ofFn (counts rank)) ringChannels,
      SeparatePhase collective.controlPath Box.sender Box.receiver rank
        phase := by
  have few : max ringChannels 1 ≤ 64 := by
    unfold maxRingChannels at bounded
    omega
  intro phase member
  rcases List.mem_cons.mp member with rfl | member
  · apply SeparatePhase.single
    intro instruction listed
    rcases List.mem_append.mp listed with agrees | starts
    · exact owned_exchange rank instruction agrees
    · rw [List.mem_singleton.mp starts]
      trivial
  · rcases List.mem_cons.mp member with rfl | member
    · apply SeparatePhase.single
      intro instruction listed
      obtain ⟨earlier, _, inside⟩ := List.mem_flatMap.mp listed
      simp only [exchangeCount, exchangeHostPayload, List.mem_cons,
        List.not_mem_nil, or_false] at inside
      rcases inside with rfl | rfl
      · exact owned_send
      · exact owned_receive
    · rcases List.mem_cons.mp member with rfl | member
      · exact separate_compute (by simp)
      · obtain ⟨step, early, inside⟩ := List.mem_flatMap.mp member
        have near := List.mem_range.mp early
        rcases List.mem_cons.mp inside with rfl | inside
        · rw [threads_allToAllV collective ring counts inputs few rank (by omega)]
          exact (collective.countedRound ring counts inputs few (step + 1)).separate rank
        · rw [List.mem_singleton.mp inside]
          exact separate_compute (by simp)

end DeviceCollective

end RuCCL.Rank
