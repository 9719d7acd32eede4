import RuCCL.Tensor.RowBatch

/-!
# Rounds of a row exchange

The rounds exchange windows of the rows.  The pieces that a rank receives are
segments of the output of the exchange in one go, so that the output agrees with
it wherever something has been written, and behind the last round that is
everywhere.
-/

namespace RuCCL.Tensor

open RuCCL.Library RuCCL.Rank

variable {α : Type}

namespace RowBatch

variable {worldSize : UInt32} (batch : RowBatch α worldSize)
variable {checksum : List UInt8 → UInt32} {uniqueId : UniqueId} {lost : NetworkError}

theorem sum_roundCounts_le (peerRows offset : Nat) (counts : List Nat) :
    (roundCounts peerRows offset counts).sum ≤ counts.sum := by
  induction counts with
  | nil => exact le_refl 0
  | cons count rest ih =>
      unfold roundCounts at ih ⊢
      rw [List.map_cons, List.sum_cons, List.sum_cons]
      omega

theorem sum_roundCounts_le_length (peerRows offset : Nat) (counts : List Nat) :
    (roundCounts peerRows offset counts).sum ≤ counts.length * peerRows := by
  induction counts with
  | nil => exact Nat.zero_le _
  | cons count rest ih =>
      unfold roundCounts at ih ⊢
      rw [List.map_cons, List.sum_cons, List.length_cons, Nat.add_mul]
      omega

/-- The rows of a pair of ranks in one round. -/
def windowCounts (peerRows offset : Nat) (source destination : Fin worldSize.toNat) : Nat :=
  min (batch.counts source destination - offset) peerRows

variable (peerRows offset : Nat)

theorem ofFn_windowCounts (rank : Fin worldSize.toNat) :
    List.ofFn (batch.windowCounts peerRows offset rank) =
      roundCounts peerRows offset (batch.sendCounts rank) := by
  rw [roundCounts, sendCounts, List.map_ofFn]
  rfl

theorem ofFn_windowCounts_receive (rank : Fin worldSize.toNat) :
    (List.ofFn fun source =>
        batch.windowCounts peerRows offset source rank) =
      roundCounts peerRows offset (batch.receiveCounts rank) := by
  rw [roundCounts, receiveCounts, List.map_ofFn]
  rfl

/-- The elements of these rows. -/
def piece (source destination : Fin worldSize.toNat) : List α :=
  segment (batch.block source destination) (offset * batch.tail.prod)
    (batch.windowCounts peerRows offset source destination * batch.tail.prod)

/-- A round with something in it stays within the rows. -/
theorem window_inside {source destination : Fin worldSize.toNat}
    (some : 0 < batch.windowCounts peerRows offset source destination) :
    offset * batch.tail.prod + batch.windowCounts peerRows offset source destination *
          batch.tail.prod ≤
      batch.counts source destination * batch.tail.prod := by
  rw [← Nat.add_mul]
  apply Nat.mul_le_mul_right
  unfold windowCounts at some ⊢
  omega

theorem length_piece (source destination : Fin worldSize.toNat) :
    (batch.piece peerRows offset source destination).length =
      batch.windowCounts peerRows offset source destination *
        batch.tail.prod := by
  by_cases none : batch.windowCounts peerRows offset source destination = 0
  · rw [piece, none, Nat.zero_mul, segment_length_zero, List.length_nil]
  · apply length_segment
    rw [batch.length_block]
    exact batch.window_inside _ _ (Nat.pos_of_ne_zero none)

/-- The pieces as segments of the input. -/
theorem piece_eq_segment {source destination : Fin worldSize.toNat}
    (some : 0 < batch.windowCounts peerRows offset source destination) :
    batch.piece peerRows offset source destination = segment (batch.data source)
        ((before (batch.sendCounts source) destination + offset) * batch.tail.prod)
        (batch.windowCounts peerRows offset source destination * batch.tail.prod) := by
  rw [piece, block, segment_segment (batch.window_inside _ _ some), ← Nat.add_mul]

/-- The pieces as segments of what a rank receives in the end. -/
theorem piece_eq_segment_received {source rank : Fin worldSize.toNat}
    (some : 0 < batch.windowCounts peerRows offset source rank) :
    batch.piece peerRows offset source rank = segment (batch.received rank)
        ((before (batch.receiveCounts rank) source + offset) * batch.tail.prod)
        (batch.windowCounts peerRows offset source rank * batch.tail.prod) := by
  rw [piece, ← batch.segment_received,
    segment_segment (batch.window_inside _ _ some), ← Nat.add_mul]

theorem pieces_lengths (rank : Fin worldSize.toNat) :
    (List.ofFn (batch.piece peerRows offset rank)).map List.length =
      (roundCounts peerRows offset (batch.sendCounts rank)).map (· * batch.tail.prod) := by
  rw [← batch.ofFn_windowCounts, List.map_ofFn, List.map_ofFn]
  congr 1
  funext destination
  exact batch.length_piece _ _ rank destination

theorem fewer_fit {total fewer : Nat} (less : fewer ≤ total)
    (fits : total * batch.tail.prod * batch.elementType.byteWidth ≤ isizeLimit) :
    fewer * batch.tail.prod * batch.elementType.byteWidth ≤ isizeLimit :=
  le_trans (Nat.mul_le_mul_right _ (Nat.mul_le_mul_right _ less)) fits

/-- The rows that all ranks exchange in one round. -/
def window : RowBatch α worldSize where
  counts := batch.windowCounts peerRows offset
  tail := batch.tail
  data rank := (List.ofFn (batch.piece peerRows offset rank)).flatten
  dtype := batch.dtype
  elementType := batch.elementType
  device := batch.device
  native := batch.native
  rowNonempty := batch.rowNonempty
  rowFits := batch.rowFits
  sized rank := by
    rw [List.length_flatten, batch.pieces_lengths, sum_map_mul, batch.ofFn_windowCounts]
  sendFits rank := by
    rw [batch.ofFn_windowCounts]
    exact batch.fewer_fit (sum_roundCounts_le _ _ _) (batch.sendTotal_fits rank)
  receiveFits rank := by
    rw [batch.ofFn_windowCounts_receive]
    exact batch.fewer_fit (sum_roundCounts_le _ _ _) (batch.receiveTotal_fits rank)

theorem window_sendCounts (rank : Fin worldSize.toNat) :
    (batch.window peerRows offset).sendCounts rank =
      roundCounts peerRows offset (batch.sendCounts rank) :=
  batch.ofFn_windowCounts peerRows offset rank

theorem window_receiveCounts (rank : Fin worldSize.toNat) :
    (batch.window peerRows offset).receiveCounts rank =
      roundCounts peerRows offset (batch.receiveCounts rank) :=
  batch.ofFn_windowCounts_receive peerRows offset rank

/-- The blocks of a round are its pieces. -/
theorem window_block (source destination : Fin worldSize.toNat) :
    (batch.window peerRows offset).block source destination =
      batch.piece peerRows offset source destination := by
  have located : (List.ofFn (batch.piece peerRows offset source))[ destination.val]? =
        some (batch.piece peerRows offset source destination) := by
    rw [List.getElem?_ofFn, dif_pos destination.isLt]
  have found := segment_flatten located
  rw [batch.pieces_lengths, before_map_mul, batch.length_piece] at found
  rw [block, batch.window_sendCounts]
  exact found

/-- What the rounds use of a schedule. -/
structure Scheduled (rank : Fin worldSize.toNat) (schedule : RowSchedule) :
    Prop where
  rowElements : schedule.rowElements = batch.tail.prod
  receiveCounts : schedule.receiveCounts = batch.receiveCounts rank
  sendPrefix : schedule.sendPrefix = prefixSums (batch.sendCounts rank)
  receivePrefix :
    schedule.receivePrefix = prefixSums (batch.receiveCounts rank)
  receivedRows : schedule.receivedRows = (batch.receiveCounts rank).sum
  peerRows : schedule.peerRows = peerRows

variable {batch} {peerRows}
variable {rank : Fin worldSize.toNat} {schedule : RowSchedule}

/-- The pieces of a rank are cut out of its input. -/
theorem Scheduled.packRound_eq (scheduled : batch.Scheduled peerRows rank schedule) :
    packRound schedule (batch.data rank) offset
        (roundCounts peerRows offset (batch.sendCounts rank)) =
      .ok ((batch.window peerRows offset).data rank) := by
  have entries (count destination : Nat)
      (member : (count, destination) ∈
        (roundCounts peerRows offset (batch.sendCounts rank)).zipIdx) :
      ∃ inside : destination < worldSize.toNat, count = batch.windowCounts peerRows offset rank
          ⟨destination, inside⟩ := by
    have located := List.mem_zipIdx_iff_getElem?.mp member
    rw [← batch.ofFn_windowCounts] at located
    obtain ⟨inside, same⟩ := getElem?_ofFn_eq located
    exact ⟨inside, same⟩
  obtain ⟨pieces, mapped, flattened⟩ := @mapM_filter_flatten α TensorDeviceError _
    (roundCounts peerRows offset (batch.sendCounts rank)).zipIdx
    (fun entry => 0 < entry.1)
    (fun entry => do
      let front ← okOr schedule.sendPrefix[entry.2]? .outOfRange
      let start := (front + offset) * schedule.rowElements
      sliceAt (batch.data rank) start (start + entry.1 * schedule.rowElements))
    (fun entry => segment (batch.data rank)
      ((before (batch.sendCounts rank) entry.2 + offset) * batch.tail.prod)
      (entry.1 * batch.tail.prod))
    (by
      intro entry member positive
      obtain ⟨inside, same⟩ := entries entry.1 entry.2 member
      have some : 0 < batch.windowCounts peerRows offset rank ⟨entry.2, inside⟩ := by
        rw [← same]
        exact of_decide_eq_true positive
      have bound : entry.2 ≤ (batch.sendCounts rank).length := by
        rw [batch.length_sendCounts]
        exact inside.le
      rw [scheduled.sendPrefix, getElem?_prefixSums bound, okOr_some,
        ok_bind, scheduled.rowElements]
      refine sliceAt_eq ?_
      have window := batch.window_inside _ _ some
      have block : before (batch.sendCounts rank) entry.2 * batch.tail.prod + _ ≤ _ :=
        batch.block_inside rank ⟨entry.2, inside⟩
      rw [← same] at window
      rw [Nat.add_mul]
      omega)
    (by
      intro entry _ zero
      have none : entry.1 = 0 := by
        have small := of_decide_eq_false zero
        omega
      rw [none, Nat.zero_mul, segment_length_zero])
  have same : ((roundCounts peerRows offset (batch.sendCounts rank)).zipIdx.map fun entry =>
        segment (batch.data rank)
          ((before (batch.sendCounts rank) entry.2 + offset) *
            batch.tail.prod) (entry.1 * batch.tail.prod)) =
      List.ofFn (batch.piece peerRows offset rank) := by
    apply List.ext_getElem?
    intro index
    rw [List.getElem?_map, List.getElem?_zipIdx,
      ← batch.ofFn_windowCounts, List.getElem?_ofFn, List.getElem?_ofFn]
    by_cases inside : index < worldSize.toNat
    · rw [dif_pos inside, dif_pos inside]
      simp only [Option.map_some, Nat.zero_add, Option.some.injEq]
      by_cases none : batch.windowCounts peerRows offset rank ⟨index, inside⟩ = 0
      · rw [piece, none, Nat.zero_mul, segment_length_zero, segment_length_zero]
      · exact (batch.piece_eq_segment _ _ (Nat.pos_of_ne_zero none)).symm
    · rw [dif_neg inside, dif_neg inside]
      rfl
  rw [same] at flattened
  unfold packRound
  rw [mapped, ok_bind, flattened]
  rfl

theorem Scheduled.packetTensor_eq (scheduled : batch.Scheduled peerRows rank schedule) :
    packetTensor (batch.device rank) schedule (batch.tensor rank) (batch.data rank) offset
        (roundCounts peerRows offset (batch.sendCounts rank)) =
      .ok ((batch.window peerRows offset).tensor rank) := by
  have sized := ((batch.window peerRows offset).tensor rank).sized
  have shape : ((batch.tensor rank).shape.set 0
      (roundCounts peerRows offset (batch.sendCounts rank)).sum) =
      ((batch.window peerRows offset).tensor rank).shape := by
    rw [← batch.window_sendCounts]
    rfl
  rw [packetTensor, scheduled.packRound_eq, ok_bind]
  have fits : ((batch.window peerRows offset).data rank).length =
      ((batch.tensor rank).shape.set 0
        (roundCounts peerRows offset (batch.sendCounts rank)).sum).prod := by
    rw [shape]
    exact sized
  rw [dif_pos fits]
  simp only [tensor] at shape ⊢
  congr 2

variable (batch) in
/-- The positions of the first `limit` rows of every source. -/
def Written (rank : Fin worldSize.toNat) (limit position : Nat) : Prop :=
  ∃ source : Fin worldSize.toNat,
    before (batch.receiveCounts rank) source * batch.tail.prod ≤ position ∧
    position < (before (batch.receiveCounts rank) source +
      min (batch.counts source rank) limit) * batch.tail.prod

variable (batch) in
/-- The positions of the rows that a round brings from one source. -/
def InWindow (peerRows offset : Nat) (rank source : Fin worldSize.toNat)
    (position : Nat) : Prop :=
  (before (batch.receiveCounts rank) source + offset) * batch.tail.prod ≤ position ∧
    position < (before (batch.receiveCounts rank) source + offset) *
      batch.tail.prod + batch.windowCounts peerRows offset source rank * batch.tail.prod

/-- A round extends the rows of every source. -/
theorem Written.of_window {position : Nat}
    (covered : batch.Written rank (offset + peerRows) position) :
    batch.Written rank offset position ∨
      ∃ source, batch.InWindow peerRows offset rank source position := by
  obtain ⟨source, first, last⟩ := covered
  by_cases earlier : position < (before (batch.receiveCounts rank) source +
      min (batch.counts source rank) offset) * batch.tail.prod
  · exact Or.inl ⟨source, first, earlier⟩
  right
  have more : offset < batch.counts source rank := by
    by_contra none
    have all : min (batch.counts source rank) (offset + peerRows) =
        min (batch.counts source rank) offset := by omega
    rw [all] at last
    exact earlier last
  rw [Nat.min_eq_right more.le] at earlier
  refine ⟨source, not_lt.mp earlier, ?_⟩
  rw [← Nat.add_mul]
  have window : min (batch.counts source rank) (offset + peerRows) =
      offset + batch.windowCounts peerRows offset source rank := by
    unfold windowCounts
    omega
  rw [window, ← Nat.add_assoc] at last
  exact last

/-- The piece of one source is put where it belongs. -/
theorem Scheduled.unpackSource_eq (scheduled : batch.Scheduled peerRows rank schedule)
    {written : Nat → Prop} {output : List α}
    (lengths : output.length = (batch.received rank).length)
    (agrees : AgreesOn written output (batch.received rank))
    (source : Fin worldSize.toNat) :
    ∃ next, unpackSource schedule offset ((batch.window peerRows offset).receiveCounts rank)
        (prefixSums ((batch.window peerRows offset).receiveCounts rank))
        ((batch.window peerRows offset).received rank) output source = .ok next ∧
      next.length = (batch.received rank).length ∧
      AgreesOn (fun position => written position ∨
        batch.InWindow peerRows offset rank source position) next
        (batch.received rank) := by
  have count := (batch.window peerRows offset).receiveCounts_at source rank
  have bound : source.val + 1 ≤ ((batch.window peerRows offset).receiveCounts rank).length := by
    rw [length_receiveCounts]
    exact source.isLt
  unfold unpackSource
  rw [count, okOr_some, ok_bind]
  by_cases none : (batch.window peerRows offset).counts source rank = 0
  · rw [if_pos none]
    refine ⟨output, rfl, lengths, agrees.mono fun position covered => ?_⟩
    rcases covered with covered | ⟨first, last⟩
    · exact covered
    · change batch.windowCounts peerRows offset source rank = 0 at none
      rw [none, Nat.zero_mul] at last
      omega
  rw [if_neg none]
  have some : 0 < batch.windowCounts peerRows offset source rank := Nat.pos_of_ne_zero none
  have recvBound : source.val ≤ (batch.receiveCounts rank).length := by
    rw [length_receiveCounts]
    exact source.isLt.le
  have inner := before_add_le_sum count
  have piece : sliceAt ((batch.window peerRows offset).received rank)
      (before ((batch.window peerRows offset).receiveCounts rank) source * batch.tail.prod)
      (before ((batch.window peerRows offset).receiveCounts rank)
        (source + 1) * batch.tail.prod) =
      .ok (batch.piece peerRows offset source rank) := by
    rw [before_succ count, Nat.add_mul, sliceAt_eq]
    · have found := (batch.window peerRows offset).segment_received source rank
      rw [batch.window_block] at found
      exact congrArg Except.ok found
    · rw [length_received, ← Nat.add_mul]
      exact Nat.mul_le_mul_right _ inner
  have inside : (before (batch.receiveCounts rank) source + offset) *
      batch.tail.prod + batch.windowCounts peerRows offset source rank *
        batch.tail.prod ≤ (batch.received rank).length := by
    have window := batch.window_inside peerRows offset some
    have block := before_add_le_sum (batch.receiveCounts_at source rank)
    have scaled := Nat.mul_le_mul_right batch.tail.prod block
    rw [Nat.add_mul] at scaled
    rw [batch.length_received, Nat.add_mul]
    omega
  rw [scheduled.receivePrefix, getElem?_prefixSums recvBound, okOr_some,
    ok_bind, getElem?_prefixSums (by omega), okOr_some, ok_bind,
    getElem?_prefixSums bound, okOr_some, ok_bind, scheduled.rowElements,
    piece, ok_bind]
  change ∃ next, assignAt output _ (_ +
    batch.windowCounts peerRows offset source rank * batch.tail.prod) _ = .ok next ∧ _
  rw [assignAt_eq (by rw [lengths]; exact inside)
    (batch.length_piece _ _ source rank)]
  refine ⟨_, rfl, ?_, ?_⟩
  · rw [length_splice, lengths]
    rw [batch.length_piece, lengths]
    exact inside
  · rw [batch.piece_eq_segment_received _ _ some]
    exact agrees.splice lengths inside

/-- All pieces of a round are put where they belong. -/
theorem Scheduled.unpackRound_eq
    (scheduled : batch.Scheduled peerRows rank schedule) {output : List α}
    (lengths : output.length = (batch.received rank).length)
    (agrees : AgreesOn (batch.Written rank offset) output (batch.received rank)) :
    ∃ next, unpackRound (sessionOf uniqueId rank) schedule offset
        ((batch.window peerRows offset).receiveCounts rank)
        (prefixSums ((batch.window peerRows offset).receiveCounts rank))
        ((batch.window peerRows offset).received rank) output = .ok next ∧
      next.length = (batch.received rank).length ∧
      AgreesOn (batch.Written rank (offset + peerRows)) next (batch.received rank) := by
  obtain ⟨next, folded, length, agreed⟩ := @foldlM_range_invariant _ _
    (unpackSource schedule offset ((batch.window peerRows offset).receiveCounts rank)
      (prefixSums ((batch.window peerRows offset).receiveCounts rank))
      ((batch.window peerRows offset).received rank)) worldSize.toNat
    (fun time state => state.length = (batch.received rank).length ∧
      AgreesOn (fun position => batch.Written rank offset position ∨
        ∃ source : Fin worldSize.toNat, source.val < time ∧
          batch.InWindow peerRows offset rank source position) state
        (batch.received rank))
    output
    ⟨lengths, agrees.mono fun position covered =>
      covered.resolve_right fun ⟨_, early, _⟩ => Nat.not_lt_zero _ early⟩
    (by
      intro time state early holds
      obtain ⟨next, unpacked, length, agreed⟩ := scheduled.unpackSource_eq
        offset holds.1 holds.2 ⟨time, early⟩
      refine ⟨next, unpacked, length, agreed.mono ?_⟩
      intro position covered
      rcases covered with covered | ⟨source, earlier, covered⟩
      · exact Or.inl (Or.inl covered)
      · rcases Nat.lt_succ_iff_lt_or_eq.mp earlier with earlier | same
        · exact Or.inl (Or.inr ⟨source, earlier, covered⟩)
        · right
          have this : source = ⟨time, early⟩ := Fin.ext same
          rw [← this]
          exact covered)
  refine ⟨next, folded, length, agreed.mono fun position covered => ?_⟩
  rcases Written.of_window offset covered with covered | ⟨source, covered⟩
  · exact Or.inl covered
  · exact Or.inr ⟨source, source.isLt, covered⟩

theorem Scheduled.finishRound_eq
    (scheduled : batch.Scheduled peerRows rank schedule) {output : List α}
    (lengths : output.length = (batch.received rank).length)
    (agrees : AgreesOn (batch.Written rank offset) output (batch.received rank)) :
    ∃ next, finishRound (sessionOf uniqueId rank) schedule offset output
        (.ok ((batch.window peerRows offset).output rank,
          (batch.window peerRows offset).receiveCounts rank)) =
        .ok (next, (roundCounts peerRows offset (batch.receiveCounts rank)).sum) ∧
      next.length = (batch.received rank).length ∧
      AgreesOn (batch.Written rank (offset + peerRows)) next (batch.received rank) := by
  obtain ⟨next, unpacked, length, agreed⟩ := @Scheduled.unpackRound_eq _ _
    _ uniqueId _ offset _ _ scheduled output lengths agrees
  refine ⟨next, ?_, length, agreed⟩
  have counts := batch.window_receiveCounts peerRows offset rank
  have expected : ¬(batch.window peerRows offset).receiveCounts rank ≠
      roundCounts schedule.peerRows offset schedule.receiveCounts := by
    rw [scheduled.peerRows, scheduled.receiveCounts, counts]
    exact not_not.mpr rfl
  have fits := ((batch.window peerRows offset).words_fit
    ((batch.window peerRows offset).receiveTotal_fits rank)).2
  have world : (sessionOf uniqueId rank).worldSize.toNat =
      ((batch.window peerRows offset).receiveCounts rank).length :=
    ((batch.window peerRows offset).length_receiveCounts rank).symm
  have flat : ((batch.window peerRows offset).output rank).data.length =
      [((batch.window peerRows offset).receiveCounts rank).sum * schedule.rowElements].prod := by
    rw [List.prod_singleton, scheduled.rowElements]
    exact (batch.window peerRows offset).length_received rank
  have total : (prefixSums ((batch.window peerRows offset).receiveCounts
      rank))[(sessionOf uniqueId rank).worldSize.toNat]? =
      some ((batch.window peerRows offset).receiveCounts rank).sum := by
    rw [world, getElem?_prefixSums (le_refl _), before_length]
  rw [← counts]
  simp only [finishRound, ok_bind, rejectIf, if_neg expected,
    rowPrefix_eq fits, total, okOr_some, NativeTensor.reshape, dif_pos flat]
  rw [show ((batch.window peerRows offset).output rank).data =
    (batch.window peerRows offset).received rank from rfl, unpacked]
  rfl

/-- The rows of the first rounds. -/
def rowsUpTo (limit : Nat) (counts : List Nat) : Nat := (counts.map (min · limit)).sum

theorem rowsUpTo_zero (counts : List Nat) : rowsUpTo 0 counts = 0 := by
  simp [rowsUpTo]

theorem rowsUpTo_add (peerRows limit : Nat) (counts : List Nat) :
    rowsUpTo limit counts + (roundCounts peerRows limit counts).sum =
      rowsUpTo (limit + peerRows) counts := by
  induction counts with
  | nil => rfl
  | cons count rest ih =>
      unfold rowsUpTo roundCounts at ih ⊢
      simp only [List.map_cons, List.sum_cons]
      omega

theorem rowsUpTo_all {limit : Nat} {counts : List Nat} (all : ∀ count ∈ counts, count ≤ limit) :
    rowsUpTo limit counts = counts.sum := by
  have same : counts.map (min · limit) = counts.map id :=
    List.map_congr_left fun count member => Nat.min_eq_left (all count member)
  rw [rowsUpTo, same, List.map_id]

variable (batch) in
/-- The counters behind some rounds. -/
structure Progressed (peerRows total : Nat) (rank : Fin worldSize.toNat)
    (round : Nat) (state : RowExchangeProgress) : Prop where
  completedRounds : state.completedRounds = round
  totalRounds : state.totalRounds = total
  sentRows : state.sentRows = rowsUpTo (round * peerRows) (batch.sendCounts rank)
  totalSendRows : state.totalSendRows = (batch.sendCounts rank).sum
  receivedRows : state.receivedRows = rowsUpTo (round * peerRows) (batch.receiveCounts rank)
  totalReceiveRows :
    state.totalReceiveRows = (batch.receiveCounts rank).sum

theorem Progressed.next {total round : Nat} {state : RowExchangeProgress}
    (progressed : batch.Progressed peerRows total rank round state) :
    batch.Progressed peerRows total rank (round + 1) (nextRound state
      (roundCounts peerRows (round * peerRows) (batch.sendCounts rank)).sum
      (roundCounts peerRows (round * peerRows) (batch.receiveCounts rank)).sum) := by
  have behind : (round + 1) * peerRows = round * peerRows + peerRows := by
    rw [Nat.add_mul, Nat.one_mul]
  refine ⟨?_, progressed.totalRounds, ?_, progressed.totalSendRows, ?_,
    progressed.totalReceiveRows⟩
  · simp only [nextRound, progressed.completedRounds]
  · simp only [nextRound, progressed.sentRows]
    rw [rowsUpTo_add, behind]
  · simp only [nextRound, progressed.receivedRows]
    rw [rowsUpTo_add, behind]

/-- When every row has been sent, every position has been written. -/
theorem written_everywhere {limit : Nat}
    (all : ∀ source, batch.counts source rank ≤ limit) {position : Nat}
    (inside : position < (batch.received rank).length) :
    batch.Written rank limit position := by
  rw [batch.length_received, ← sum_map_mul] at inside
  obtain ⟨index, elements, rest, located, small, same⟩ := exists_block inside
  rw [List.getElem?_map, receiveCounts, List.getElem?_ofFn] at located
  split at located
  case isFalse => cases located
  case isTrue bound =>
    rw [Option.map_some, Option.some.injEq] at located
    rw [before_map_mul] at same
    refine ⟨⟨index, bound⟩, ?_, ?_⟩
    · rw [same]
      exact Nat.le_add_right _ _
    · rw [Nat.min_eq_left (all ⟨index, bound⟩), same, Nat.add_mul, located]
      exact Nat.add_lt_add_left small _

theorem Scheduled.finishOutput_eq (scheduled : batch.Scheduled peerRows rank schedule) :
    finishOutput (batch.device rank) schedule (batch.tensor rank) (batch.received rank) =
      .ok (batch.output rank, batch.receiveCounts rank) := by
  have sized : (batch.received rank).length =
      ((batch.tensor rank).shape.set 0 schedule.receivedRows).prod := by
    rw [scheduled.receivedRows]
    exact (batch.output rank).sized
  rw [finishOutput, dif_pos sized, scheduled.receiveCounts]
  congr 2
  simp only [output, tensor, scheduled.receivedRows, List.set_cons_zero]

variable (batch) in
/-- What the ranks send in one round. -/
def roundMessages (peerRows round : Nat) : Fin worldSize.toNat → RowMessage α :=
  fun rank => .packet ((batch.window peerRows (round * peerRows)).packet rank).1
    ((batch.window peerRows (round * peerRows)).packet rank).2

/-- All ranks go through the rounds together and end with the rows of an exchange
in one go. -/
theorem rowRounds_lockstep {schedules : Fin worldSize.toNat → RowSchedule} {total : Nat}
    (scheduled : ∀ rank, batch.Scheduled peerRows rank (schedules rank))
    {remaining round : Nat} {outputs : Fin worldSize.toNat → List α}
    {states : Fin worldSize.toNat → RowExchangeProgress}
    {reports : Fin worldSize.toNat → List RowExchangeProgress}
    (lengths : ∀ rank, (outputs rank).length = (batch.received rank).length)
    (agrees : ∀ rank, AgreesOn (batch.Written rank (round * peerRows))
      (outputs rank) (batch.received rank))
    (enough : ∀ source destination,
      batch.counts source destination ≤ (round + remaining) * peerRows)
    (progressed : ∀ rank, batch.Progressed peerRows total rank round (states rank))
    (reported : ∀ rank, (reports rank).getLast? = some (states rank)) :
    ∃ outcomes, Lockstep (meet checksum uniqueId lost)
        (fun rank => rowRounds (sessionOf uniqueId rank)
          (batch.device rank) (schedules rank) (batch.tensor rank)
          (batch.data rank) (batch.sendCounts rank) remaining round
          (outputs rank) (states rank) (reports rank))
        ((List.range' round remaining).map (batch.roundMessages peerRows))
        outcomes ∧
      ∀ rank, (outcomes rank).result = .ok (batch.output rank, batch.receiveCounts rank) ∧
        ∃ last, (outcomes rank).reports.getLast? = some last ∧
          batch.Progressed peerRows total rank (round + remaining) last := by
  induction remaining generalizing round outputs states reports with
  | zero =>
      refine ⟨_, .done _, fun rank => ⟨?_, states rank, reported rank, progressed rank⟩⟩
      have all := (agrees rank).eq (lengths rank) fun position inside =>
        written_everywhere (fun source => enough source rank) inside
      rw [all]
      exact (scheduled rank).finishOutput_eq
  | succ remaining ih =>
      have finished (rank : Fin worldSize.toNat) :=
        @Scheduled.finishRound_eq _ _ _ uniqueId _ (round * peerRows) _ _
          (scheduled rank) (outputs rank) (lengths rank) (agrees rank)
      choose next finish nextLengths nextAgrees using finished
      have behind : (round + 1) * peerRows = round * peerRows + peerRows := by
        rw [Nat.add_mul, Nat.one_mul]
      rw [← behind] at nextAgrees
      obtain ⟨outcomes, lockstep, ends⟩ := @ih (round + 1)
        next _ (fun rank => reports rank ++ [nextRound (states rank)
          (roundCounts peerRows (round * peerRows) (batch.sendCounts rank)).sum
          (roundCounts peerRows (round * peerRows)
            (batch.receiveCounts rank)).sum]) nextLengths nextAgrees
        (by
          intro source destination
          rw [Nat.add_assoc, Nat.add_comm 1 remaining]
          exact enough source destination)
        (fun rank => (progressed rank).next)
        (fun rank => List.getLast?_concat)
      have exchange := @exchangeRows_lockstep _ _
        (batch.window peerRows (round * peerRows)) checksum uniqueId lost
      have finishing : Lockstep (meet checksum uniqueId lost)
          (fun rank => Dialogue.attempt (packetTensor (batch.device rank)
            (schedules rank) (batch.tensor rank) (batch.data rank)
            (round * (schedules rank).peerRows)
            (roundCounts (schedules rank).peerRows
              (round * (schedules rank).peerRows) (batch.sendCounts rank)))
            fun packet => (exchangeRows (sessionOf uniqueId rank)
              (batch.device rank) packet (roundCounts (schedules rank).peerRows
                (round * (schedules rank).peerRows)
                (batch.sendCounts rank))).bind fun answer =>
              .done (finishRound (sessionOf uniqueId rank) (schedules rank)
                (round * (schedules rank).peerRows) (outputs rank) answer))
          [batch.roundMessages peerRows round]
          (fun rank => .ok (next rank, (roundCounts peerRows
            (round * peerRows) (batch.receiveCounts rank)).sum)) := by
        rw [← funext finish]
        simp only [fun rank => (scheduled rank).peerRows,
          fun rank => (scheduled rank).packetTensor_eq (round * peerRows),
          Dialogue.attempt]
        simp only [← batch.window_sendCounts]
        exact exchange.bind (.done _)
      refine ⟨outcomes, ?_, fun rank => ?_⟩
      · rw [List.range'_succ, List.map_cons]
        refine finishing.bind ?_
        simp only [fun rank => (scheduled rank).peerRows]
        exact lockstep
      · obtain ⟨result, last, located, holds⟩ := ends rank
        refine ⟨result, last, located, ?_⟩
        rw [Nat.add_assoc, Nat.add_comm 1 remaining] at holds
        exact holds

end RowBatch

end RuCCL.Tensor
