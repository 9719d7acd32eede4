import RuCCL.Rank.AllGatherRuns
import RuCCL.Rank.DeviceAllToAll

/-!
# Runs of an all-to-all

Through the control path and in pairwise rounds every rank ends with the shards that all
ranks had for it, in rank order.
-/

namespace RuCCL.Rank

open RuCCL.Library
open RankTransport

namespace DeviceCollective

variable {T : Type} {size length shardLength : Nat} [NeZero size]
  {collective : DeviceCollective T size}

/-- The output of a rank is made up of the shards that all ranks have for it. -/
def Transposes (whole : length = size * shardLength)
    (inputs outputs : Fin size → Buffer T length) : Prop :=
  ∀ rank source, shardOf whole source (outputs rank) = shardOf whole rank (inputs source)

/-- Every rank gets its shards from the control path. -/
theorem reaches_allToAllDirect (lawful : collective.execution.Lawful)
    (concatenates : collective.execution.Concatenates)
    (fits : collective.FitsFrame length)
    (whole : length = size * shardLength)
    (before : Fin size → AllToAllMemory T length) :
    ∃ after : Fin size → AllToAllMemory T length, Reaches collective.deviceStep
        (quiet (fun rank => [[collective.allToAllDirect rank]]) before)
        (quiet (fun _ => []) after) ∧
      Transposes whole (fun rank => (before rank).input) fun rank => (after rank).output := by
  let values (rank : Fin size) : List T := (List.finRange size).flatMap fun source =>
      List.ofFn (shardOf whole rank (before source).input)
  have sized (rank : Fin size) : (values rank).length = length := by
    simp [values, List.length_flatMap, whole]
  have payload (rank : Fin size) :
      ((List.finRange size).flatMap fun source =>
        equalPart size rank (collective.execution.encode
          (RankDevice.copyFromDevice (before source).input))) =
        collective.execution.encode (values rank) := by
    rw [← encode_flatMap lawful concatenates]
    refine List.flatMap_congr fun source _ => ?_
    rw [RankDevice.copyFromDevice, equalPart_encode lawful concatenates
      (by rw [List.length_ofFn, whole]) rank.isLt, segment_ofFn whole]
  have exchanged := @reaches_transposed T size _ collective _ lawful .allToAll 0
    (fun _ memory => .ok (collective.execution.encode (RankDevice.copyFromDevice memory.input)))
    (fun _ response memory => do
      let values ← collective.execution.decodeExact response.payload length
      let output ← RankDevice.copyToDevice (collective.execution.fresh length) values
      .ok { memory with output := output })
    (fun _ => []) (fun _ => []) before
    (fun rank => { before rank with
      output := mergeAt overwrite 0 (values rank)
        (collective.execution.fresh length) }) _ length (fun _ => rfl)
    (fun rank => by
      rw [lawful.length_encode, RankDevice.copyFromDevice, List.length_ofFn]) (Or.inr rfl)
    (by rw [whole, Nat.mul_mod_right]) fits
    (fun rank response transposed => by
      have decoded := RankDevice.decodeExact_encode lawful (sized rank) fits.addressable
      rw [transposed, payload rank, decoded, ok_bind,
        RankDevice.copyToDevice_eq_ok _ (sized rank), ok_bind])
  simp only [List.append_nil] at exchanged
  refine ⟨_, exchanged.trans reaches_join, fun rank source => ?_⟩
  exact shardOf_flatMap whole (fun source => shardOf whole rank (before source).input) _ source

section Pairwise

variable (collective) (ring : RingOrder (Fin size) size) {channels : Nat}

/-- The round of one distance. -/
def allToAllRound (length : Nat) (few : channels ≤ 64) (step : Nat) :
    PairwiseRound collective
      (AllToAllMemory.receivedCell :
        Cell (AllToAllMemory T length) (Nat → List UInt8)) where
  ring := ring
  distance := step
  channels := channels
  tag := fun channel => ringDataTag collective.operation 0 channel step
  content := fun channel rank =>
    collective.chunkContent AllToAllMemory.inputCell
      ((channelSpan (length / size) channels channel).shift
        (ring.ahead (step : ZMod size) rank * (length / size)))
  receiveLength := fun channel _ _ =>
    (channelSpan (length / size) channels channel).length
  unsent := fun _ _ _ _ => rfl
  unawaited := fun _ _ _ _ => rfl
  distinct := ringDataTags_distinct few

theorem forkChannels_allToAll (few : channels ≤ 64) (rank : Fin size)
    {step : Nat} (near : step ≤ size) :
    (forkChannels (balancedRanges (length / size) channels) fun range channel =>
        (collective.allToAllChannel ring rank step range channel :
          RankThread size (AllToAllMemory T length))) =
      (List.range channels).map
        ((collective.allToAllRound ring length few step).thread rank) := by
  rw [forkChannels_balancedRanges]
  refine List.map_congr_left fun channel _ => ?_
  unfold allToAllChannel
  dsimp only
  rw [RingOrder.memberAt_forward, RingOrder.memberAt_backward _ _ near]
  rfl

section Rounds

variable (whole : length = size * shardLength) (before : Fin size → AllToAllMemory T length)

/-- What a rank has for another one. -/
def shardValues (rank destination : Fin size) : List T :=
  List.ofFn (shardOf whole destination (before rank).input)

/-- The memories after some rounds. -/
def roundsDone (few : channels ≤ 64) :
    Nat → Fin size → AllToAllMemory T length
  | 0, rank => { before rank with
      output := mergeAt overwrite (rank * shardLength) (shardValues whole before rank rank)
        (collective.execution.fresh length) }
  | step + 1, rank =>
      let memory := (collective.allToAllRound ring length few
        (step + 1)).after (roundsDone few step) (shardValues whole before) channels rank
      let source := ring.behind ((step + 1 : Nat) : ZMod size) rank
      { memory with
        output := mergeAt overwrite (source * shardLength)
          (shardValues whole before source rank) memory.output }

theorem input_roundsDone (few : channels ≤ 64) (step : Nat) (rank : Fin size) :
    (collective.roundsDone ring whole before few step rank).input = (before rank).input := by
  induction step with
  | zero => rfl
  | succ step ih => exact ih

/-- After some rounds a rank has the shards of as many ranks before it. -/
theorem output_roundsDone (few : channels ≤ 64) (step : Nat) (rank : Fin size) :
    (collective.roundsDone ring whole before few step rank).output =
      placeAll (fun source : Fin size => source * shardLength)
        (fun source => shardValues whole before source rank)
        ((List.range (step + 1)).map fun distance : Nat =>
          ring.behind (distance : ZMod size) rank)
        (collective.execution.fresh length) := by
  induction step with
  | zero =>
      have here : ring.behind ((0 : Nat) : ZMod size) rank = rank := by
        rw [Nat.cast_zero, RingOrder.behind, sub_zero, ring.member_place (ring.mem_members rank)]
      rw [List.range_one, List.map_singleton, here]
      rfl
  | succ step ih =>
      rw [List.range_succ, List.map_append, placeAll_append, ← ih]
      rfl

theorem readAt_shard (channels channel : Nat) (destination : Fin size)
    (buffer : Buffer T length) (inside : channel < channels) :
    readAt ((channelSpan (length / size) channels channel).shift
        (destination * (length / size))) buffer =
      pieceOf channels channel (List.ofFn (shardOf whole destination buffer)) := by
  have width : length / size = shardLength := by
    rw [whole, Nat.mul_div_cancel_left _ (NeZero.pos size)]
  have part := @readAt_partAt T length _ _ (shard_fits whole destination)
    buffer (channelSpan shardLength channels channel)
    (channelSpan_within inside).inside
  rw [width, ← part, pieceOf, List.length_ofFn]
  rfl

variable {whole before}

theorem allToAllRound_carries {few : channels ≤ 64}
    (partsFit : collective.ChannelsFit (length / size) channels)
    (step done : Nat) :
    (collective.allToAllRound ring length few step).Carries
      (collective.roundsDone ring whole before few done)
      (shardValues whole before) := by
  have width : length / size = shardLength := by
    rw [whole, Nat.mul_div_cancel_left _ (NeZero.pos size)]
  have short (rank destination : Fin size) :
      (shardValues whole before rank destination).length = shardLength :=
    List.length_ofFn
  have sized (rank destination : Fin size) {channel : Nat} (inside : channel < channels) :
      (pieceOf channels channel (shardValues whole before rank destination)).length =
        (channelSpan (length / size) channels channel).length := by
    rw [length_pieceOf inside, short, width]
  constructor
  · intro rank channel inside
    have input := input_roundsDone collective ring whole before few done rank
    have fits := (@channelSpan_within (length / size) channels channel inside).fits
    have shard := shard_fits whole (ring.ahead (step : ZMod size) rank)
    have piece := readAt_shard whole channels channel
      (ring.ahead (step : ZMod size) rank) (before rank).input inside
    have spanned := (channelSpan (length / size) channels channel).length_shift
      (ring.ahead (step : ZMod size) rank * (length / size))
    have room : ((channelSpan (length / size) channels channel).shift
        (ring.ahead (step : ZMod size) rank * (length / size))).start +
        ((channelSpan (length / size) channels channel).shift
          (ring.ahead (step : ZMod size) rank * (length / size))).length ≤
        length := by
      rw [spanned]
      unfold Span.shift
      dsimp only
      rw [width] at fits ⊢
      omega
    have within : Within length
        ((channelSpan (length / size) channels channel).shift
          (ring.ahead (step : ZMod size) rank * (length / size))) :=
      (channelSpan_within inside).shift (by rw [width]; exact shard)
    have lengths := sized rank (ring.ahead (step : ZMod size) rank) inside
    dsimp only [allToAllRound]
    rw [chunkContent]
    change (do
      let payload ← collective.execution.copyBytesFromDeviceAt
        (collective.roundsDone ring whole before few done rank).input _ _
      Except.ok _) = _
    rw [RankDevice.copyBytesFromDeviceAt_eq_ok _ within.fits, ok_bind,
      within.whole, input, piece, spanned, lengths]
    rfl
  · intro rank channel inside
    exact (sized _ rank inside).symm
  · intro rank channel inside
    have part := partsFit channel inside
    rwa [← sized rank (ring.ahead (step : ZMod size) rank) inside] at part

/-- One round hands over the shards of one distance. -/
theorem reaches_allToAllRound (lawful : collective.execution.Lawful)
    {few : channels ≤ 64} (positive : 0 < channels)
    (fits : collective.ChannelsFit (length / size) channels)
    {step : Nat} (near : step + 1 ≤ size)
    (later : Fin size → RankProgram size (AllToAllMemory T length)) :
    Reaches collective.deviceStep
      (quiet (fun rank =>
        [forkChannels (balancedRanges (length / size) channels) fun range channel =>
              collective.allToAllChannel ring rank (step + 1) range channel,
          [[.compute (collective.copyRound ring rank (step + 1) channels)]]] ++
          later rank)
        (collective.roundsDone ring whole before few step))
      (quiet later (collective.roundsDone ring whole before few (step + 1))) := by
  have width : length / size = shardLength := by
    rw [whole, Nat.mul_div_cancel_left _ (NeZero.pos size)]
  let round := collective.allToAllRound ring length few (step + 1)
  let copy (rank : Fin size) : RankProgram size (AllToAllMemory T length) :=
    [[.compute (collective.copyRound ring rank (step + 1) channels)]] :: later rank
  have exchanges := @PairwiseRound.reaches_round T size _ _ collective _ round _ _ lawful
    (@allToAllRound_carries T size length shardLength _ collective ring
      channels whole before few fits (step + 1) step) copy
  have copies := @reaches_computes T size _ collective (fun _ => True) _
    (fun rank => collective.copyRound ring rank (step + 1) channels)
    (fun _ => []) later
    (round.after (collective.roundsDone ring whole before few step)
      (shardValues whole before) channels)
    (collective.roundsDone ring whole before few (step + 1))
    (by
      intro rank _
      let source := ring.behind ((step + 1 : Nat) : ZMod size) rank
      have short : (shardValues whole before source rank).length =
          shardLength := List.length_ofFn
      have room : source * shardLength +
          (shardValues whole before source rank).length ≤ length := by
        rw [short]
        exact shard_fits whole source
      have copied := @copyRanges_eq_ok T size length collective lawful channels _ positive _ room
        (round.after (collective.roundsDone ring whole before few step)
          (shardValues whole before) channels rank).received
        (fun channel inside => if_pos inside)
        (collective.roundsDone ring whole before few step rank).output
      rw [short] at copied
      have back := RingOrder.memberAt_backward ring rank near
      rw [copyRound, back, width]
      exact congrArg (· >>= _) copied)
  simp only [if_true] at copies
  have forked : ∀ rank, (forkChannels (balancedRanges (length / size)
      channels) fun range channel =>
        (collective.allToAllChannel ring rank (step + 1) range channel :
          RankThread size (AllToAllMemory T length))) =
      (List.range channels).map (round.thread rank) :=
    fun rank => forkChannels_allToAll collective ring few rank near
  simp only [forked]
  exact Reaches.trans exchanges (copies.trans reaches_join)

/-- Every rank gets its shards from all ranks. -/
theorem reaches_allToAllPairwise (lawful : collective.execution.Lawful)
    (whole : length = size * shardLength)
    {ringChannels : Nat} (requested : 1 ≤ ringChannels)
    (bounded : ringChannels ≤ maxRingChannels)
    (fits : collective.ChannelsFit (length / size)
      (effectiveRingChannels ringChannels (length / size)))
    (before : Fin size → AllToAllMemory T length) :
    ∃ after : Fin size → AllToAllMemory T length, Reaches collective.deviceStep
        (quiet (fun rank =>
          collective.allToAllPairwise ring rank ringChannels) before)
        (quiet (fun _ => []) after) ∧
      Transposes whole (fun rank => (before rank).input) fun rank => (after rank).output := by
  have width : length / size = shardLength := by
    rw [whole, Nat.mul_div_cancel_left _ (NeZero.pos size)]
  let channels := effectiveRingChannels ringChannels (length / size)
  have positive : 0 < channels := effectiveRingChannels_pos requested _
  have few : channels ≤ 64 := (effectiveRingChannels_le ringChannels _).trans bounded
  let rounds (step : Nat) (rank : Fin size) : RankProgram size (AllToAllMemory T length) :=
    [forkChannels (balancedRanges (length / size) channels) fun range channel =>
          collective.allToAllChannel ring rank (step + 1) range channel,
      [[.compute (collective.copyRound ring rank (step + 1) channels)]]]
  let later (rank : Fin size) : RankProgram size (AllToAllMemory T length) :=
    (List.range (size - 1)).flatMap fun step => rounds step rank
  have places := @reaches_computes T size _ collective (fun _ => True) _
    (fun rank => collective.placeOwnShard rank)
    (fun rank => collective.ringAgreement rank length 0x400 channels) later
    before (collective.roundsDone ring whole before few 0)
    (by
      intro rank _
      have room := shard_fits whole rank
      have read := @RankDevice.copyBytesFromDeviceAt_eq_ok _
        collective.execution _ (before rank).input _ _ room
      have loaded := @RankDevice.fitting_encode _ _ length lawful
        (rank * shardLength) (shardValues whole before rank rank) (by
          rw [shardValues, List.length_ofFn]
          exact room)
      rw [placeOwnShard, width, read, ok_bind, RankDevice.copyBytesToDeviceAt, ← ofFn_partAt room]
      exact congrArg (· >>= _) (congrArg (· >>= _) loaded))
  simp only [if_true] at places
  have loops := @reaches_loop T size (AllToAllMemory T length) collective rounds
    (collective.roundsDone ring whole before few) (size - 1)
    (fun step early later => reaches_allToAllRound collective ring lawful
      positive fits (by omega) later) (fun _ => [])
  simp only [List.append_nil] at loops
  refine ⟨_, places.trans (Reaches.trans (reaches_agreement _ _ (fun _ => []) later _)
      (reaches_join.trans loops)), fun rank source => ?_⟩
  have complete : ∀ source, source ∈ (List.range (size - 1 + 1)).map
      fun distance : Nat => ring.behind (distance : ZMod size) rank := by
    intro source
    obtain ⟨distance, near, same⟩ := ring.exists_behind rank (ring.mem_members source)
    exact List.mem_map.mpr ⟨distance, List.mem_range.mpr (by omega), same⟩
  have placed := @ofFn_placeAll T length _ size
    (fun source => shardValues whole before source rank) (cut_shards whole)
    (fun slot => by
      rw [shardValues, List.length_ofFn, Nat.succ_mul]) _ complete
    (collective.execution.fresh length)
  rw [← output_roundsDone collective ring whole before few] at placed
  apply List.ofFn_injective
  have block := @segment_flatten_of_length T _ shardLength
    (by
      intro part listed
      obtain ⟨other, _, rfl⟩ := List.mem_map.mp listed
      exact List.length_ofFn) source _
    (show ((List.finRange size).map fun other =>
        shardValues whole before other rank)[source.val]? =
          some (shardValues whole before source rank) by simp)
  rw [← segment_ofFn whole, placed, List.flatMap_def, block]
  rfl

end Rounds

/-- The channels of a round have tags of their own. -/
theorem separate_allToAllPairwise {ringChannels : Nat}
    (bounded : ringChannels ≤ maxRingChannels) (rank : Fin size) :
    ∀ phase ∈ (collective.allToAllPairwise ring rank ringChannels :
        RankProgram size (AllToAllMemory T length)),
      SeparatePhase collective.controlPath Box.sender Box.receiver rank
        phase := by
  have few : effectiveRingChannels ringChannels (length / size) ≤ 64 :=
    (effectiveRingChannels_le ringChannels _).trans bounded
  intro phase member
  rcases List.mem_cons.mp member with rfl | member
  · exact separate_compute (owned_exchange rank)
  · obtain ⟨step, early, inside⟩ := List.mem_flatMap.mp member
    have near := List.mem_range.mp early
    rcases List.mem_cons.mp inside with rfl | inside
    · rw [forkChannels_allToAll collective ring few rank (by omega)]
      exact (collective.allToAllRound ring length few (step + 1)).separate rank
    · rw [List.mem_singleton.mp inside]
      exact separate_compute (by simp)

end Pairwise

end DeviceCollective

end RuCCL.Rank
