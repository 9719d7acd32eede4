import RuCCL.Tensor.RowRounds

/-!
# Bounded row exchanges deliver every row

The ranks gather what they need to know of each other and go through the same
rounds.  The gathered words must fit a frame; when they do not, every rank ends
with an error before it has sent a row.
-/

namespace RuCCL.Tensor

open RuCCL.Library RuCCL.Rank

variable {α : Type}

section Gathered

variable {checksum : List UInt8 → UInt32} {uniqueId : UniqueId}
  {worldSize : UInt32} {lost : NetworkError}

theorem meet_frames (frames : Fin worldSize.toNat → Frame) (rank : Fin worldSize.toNat) :
    (meet checksum uniqueId lost
      (fun member => (.frame (frames member) : RowMessage α)) rank).frame =
      coordinate checksum uniqueId lost frames rank := by
  simp only [meet, RowMessage.frame?, everywhere_some]

theorem length_flatMap_leBytes (words : List Nat) :
    (words.flatMap (leBytes 8)).length = words.length * 8 := by
  induction words with
  | nil => rfl
  | cons word rest ih =>
      rw [List.flatMap_cons, List.length_append, leBytes_length, ih, List.length_cons]
      omega

/-- The bytes of all ranks' words. -/
def gatheredBytes (words : Fin worldSize.toNat → List Nat) : List UInt8 :=
  (List.ofFn fun rank => (words rank).flatMap (leBytes 8)).flatten

/-- The requests of a gathering. -/
def gatherMessages (checksum : List UInt8 → UInt32) (uniqueId : UniqueId)
    (words : Fin worldSize.toNat → List Nat) (count : Nat) :
    Fin worldSize.toNat → RowMessage α :=
  fun rank => .frame (requestFrames checksum uniqueId .allGather .u64
    ⟨anyRank, UInt64.ofNat count, 0, 0⟩
    (fun member => (words member).flatMap (leBytes 8)) rank)

/-- All ranks get all words when these fit a frame, and otherwise none does. -/
theorem gatherWords_lockstep {count : Nat} {words : Fin worldSize.toNat → List Nat}
    (positive : 0 < worldSize.toNat)
    (lengths : ∀ rank, (words rank).length = count)
    (small : count * 8 ≤ maxFramePayloadBytes) :
    ∃ results, Lockstep (meet checksum uniqueId lost)
        (fun rank => (gatherWords (sessionOf uniqueId rank) checksum
          (words rank) : RowExchanging α _))
        [gatherMessages checksum uniqueId words count] results ∧
      ((maxFramePayloadBytes < worldSize.toNat * (count * 8) ∧
        ∀ rank, results rank = .error (.collective (.network lost))) ∨
      (worldSize.toNat * (count * 8) ≤ maxFramePayloadBytes ∧
        ∀ rank, results rank = .ok (gatheredBytes words))) := by
  obtain ⟨results, lockstep, gathered⟩ := @allGatherHostStaged_lockstep
    checksum uniqueId worldSize lost count
    (fun rank => (words rank).flatMap (leBytes 8)) positive
    (fun rank => by rw [length_flatMap_leBytes, lengths rank]) small
  have translated : Lockstep (meet checksum uniqueId lost)
      (fun rank => (allGatherHostStaged checksum (sessionOf uniqueId rank)
        .u64 count ((words rank).flatMap (leBytes 8))).translate
          (.frame : Frame → RowMessage α) RowAnswer.frame) _ results :=
    lockstep.translate fun frames rank => meet_frames frames rank
  refine ⟨fun rank => (fromCollective (results rank)).map Prod.fst, ?_, ?_⟩
  · unfold gatherWords
    simp only [lengths]
    exact translated.bind (.done _)
  · rcases gathered with ⟨large, refused⟩ | ⟨fits, gathered⟩
    · refine Or.inl ⟨large, fun rank => ?_⟩
      simp only [refused rank]
      rfl
    · refine Or.inr ⟨fits, fun rank => ?_⟩
      simp only [gathered rank]
      rfl

/-- Words that fit a frame are gathered. -/
theorem gatherWords_ok {count : Nat} {words : Fin worldSize.toNat → List Nat}
    (positive : 0 < worldSize.toNat)
    (lengths : ∀ rank, (words rank).length = count)
    (fits : worldSize.toNat * (count * 8) ≤ maxFramePayloadBytes) :
    Lockstep (meet checksum uniqueId lost)
      (fun rank => (gatherWords (sessionOf uniqueId rank) checksum
        (words rank) : RowExchanging α _))
      [gatherMessages checksum uniqueId words count]
      (fun _ => .ok (gatheredBytes words)) := by
  have small : count * 8 ≤ maxFramePayloadBytes :=
    le_trans (Nat.le_mul_of_pos_left _ positive) fits
  obtain ⟨results, lockstep, gathered⟩ := @gatherWords_lockstep α checksum
    uniqueId worldSize lost _ words positive lengths small
  rcases gathered with ⟨large, _⟩ | ⟨_, gathered⟩
  · exact absurd fits (not_le.mpr large)
  · obtain rfl := funext gathered
    exact lockstep

theorem flatten_map_flatMap {β γ : Type} (rows : List (List β)) (encode : β → List γ) :
    (rows.map fun row => row.flatMap encode).flatten =
      rows.flatten.flatMap encode := by
  induction rows with
  | nil => rfl
  | cons row rest ih =>
      rw [List.map_cons, List.flatten_cons, ih, List.flatten_cons, List.flatMap_append]

/-- Words of all ranks are read back from their bytes. -/
theorem map_leValue_gathered {words : Fin worldSize.toNat → List Nat}
    (fit : ∀ rank, ∀ word ∈ words rank, word < wordSize) :
    (chunksExact 8 (gatheredBytes words)).map leValue = (List.ofFn words).flatten := by
  have bytes : gatheredBytes words = ((List.ofFn words).flatten.map (leBytes 8)).flatten := by
    rw [← List.flatMap_def, ← flatten_map_flatMap, gatheredBytes, List.map_ofFn]
    rfl
  have eight : ∀ part ∈ (List.ofFn words).flatten.map (leBytes 8), part.length = 8 := by
    intro part member
    obtain ⟨word, _, rfl⟩ := List.mem_map.mp member
    exact leBytes_length 8 word
  rw [bytes, chunksExact_flatten (by decide) eight, List.map_map]
  have back : (List.ofFn words).flatten.map (leValue ∘ leBytes 8) =
      (List.ofFn words).flatten.map id := by
    apply List.map_congr_left
    intro word member
    obtain ⟨row, listed, inRow⟩ := List.mem_flatten.mp member
    obtain ⟨rank, rfl⟩ := (List.mem_ofFn ..).mp listed
    exact leValue_leBytes (fit rank word inRow)
  rw [back, List.map_id]

/-- Rows of one length in one list. -/
theorem getElem?_flatten_ofFn {β : Type} {rows : Fin worldSize.toNat → List β} {width : Nat}
    (lengths : ∀ rank, (rows rank).length = width)
    (source : Fin worldSize.toNat) {index : Nat} (inside : index < width) :
    (List.ofFn rows).flatten[source.val * width + index]? = (rows source)[index]? := by
  have located : (List.ofFn rows)[source.val]? = some (rows source) := by
    rw [List.getElem?_ofFn, dif_pos source.isLt]
  have found := segment_flatten located
  have front : before ((List.ofFn rows).map List.length) source.val = source.val * width := by
    have same : (List.ofFn rows).map List.length =
        List.replicate worldSize.toNat width := by
      rw [List.map_ofFn, ← List.ofFn_const]
      congr 1
      funext rank
      exact lengths rank
    rw [same, before, List.take_replicate, List.sum_replicate, Nat.min_eq_left source.isLt.le]
    rfl
  rw [front, lengths source] at found
  rw [← found, getElem?_segment, if_pos inside]

end Gathered

/-- Arguments of all ranks with a budget that fits one row for each of them. -/
structure RowInputs (α : Type) (worldSize : UInt32) extends RowBatch α worldSize where
  maxChunkBytes : Nat
  fresh : Fin worldSize.toNat → (length : Nat) → {values : List α // values.length = length}
  positive : 0 < worldSize.toNat
  budgetWord : maxChunkBytes < wordSize
  budget : worldSize.toNat * (tail.prod * elementType.byteWidth) ≤ maxChunkBytes

namespace RowInputs

variable {worldSize : UInt32} (inputs : RowInputs α worldSize)

/-- All counts, as the ranks gather them. -/
def matrix : List Nat := (List.ofFn inputs.sendCounts).flatten

def maximumPeerRows : Nat := inputs.matrix.max?.getD 0

def peerRows : Nat :=
  if inputs.maximumPeerRows = 0 then 1
  else inputs.maxChunkBytes / worldSize.toNat / (inputs.tail.prod * inputs.elementType.byteWidth)

def totalRounds : Nat := ChunkedBroadcastPlan.divCeil inputs.maximumPeerRows inputs.peerRows

def schedule (rank : Fin worldSize.toNat) : RowSchedule where
  rowElements := inputs.tail.prod
  receiveCounts := inputs.receiveCounts rank
  sendPrefix := prefixSums (inputs.sendCounts rank)
  receivePrefix := prefixSums (inputs.receiveCounts rank)
  receivedRows := (inputs.receiveCounts rank).sum
  inputElements := (inputs.sendCounts rank).sum * inputs.tail.prod
  outputElements := (inputs.receiveCounts rank).sum * inputs.tail.prod
  peerRows := inputs.peerRows
  totalRounds := inputs.totalRounds

theorem scheduled (rank : Fin worldSize.toNat) :
    inputs.Scheduled inputs.peerRows rank (inputs.schedule rank) :=
  ⟨rfl, rfl, rfl, rfl, rfl, rfl⟩

theorem rowBytes_pos : 0 < inputs.tail.prod * inputs.elementType.byteWidth :=
  Nat.mul_pos (Nat.pos_of_ne_zero inputs.rowNonempty) inputs.width_pos

theorem rowBytes_fit : inputs.tail.prod * inputs.elementType.byteWidth < wordSize := by
  have budget := inputs.budget
  have word := inputs.budgetWord
  have one := Nat.le_mul_of_pos_left
    (inputs.tail.prod * inputs.elementType.byteWidth) inputs.positive
  omega

theorem peerRows_pos : 0 < inputs.peerRows := by
  unfold peerRows
  split
  case isTrue => exact Nat.one_pos
  case isFalse =>
    apply Nat.div_pos
    · rw [Nat.le_div_iff_mul_le inputs.positive, Nat.mul_comm]
      exact inputs.budget
    · exact inputs.rowBytes_pos

theorem matrix_at (source rank : Fin worldSize.toNat) :
    inputs.matrix[source.val * worldSize.toNat + rank.val]? =
      some (inputs.counts source rank) := by
  rw [matrix, getElem?_flatten_ofFn inputs.length_sendCounts source rank.isLt]
  exact inputs.sendCounts_at source rank

theorem counts_le_maximum (source rank : Fin worldSize.toNat) :
    inputs.counts source rank ≤ inputs.maximumPeerRows :=
  List.le_max?_getD_of_mem (List.mem_of_getElem? (inputs.matrix_at source rank))

theorem le_divCeil_mul {left right : Nat} (positive : 0 < right) :
    left ≤ ChunkedBroadcastPlan.divCeil left right * right := by
  have division := Nat.div_add_mod left right
  have remainder := Nat.mod_lt left positive
  unfold ChunkedBroadcastPlan.divCeil
  split
  case isTrue whole =>
    rw [Nat.mul_comm]
    omega
  case isFalse =>
    rw [Nat.add_mul, Nat.one_mul, Nat.mul_comm]
    omega

theorem counts_le_rounds (source rank : Fin worldSize.toNat) :
    inputs.counts source rank ≤ inputs.totalRounds * inputs.peerRows :=
  le_trans (inputs.counts_le_maximum source rank) (le_divCeil_mul inputs.peerRows_pos)

theorem receiveCountsOf_eq (rank : Fin worldSize.toNat) :
    receiveCountsOf worldSize.toNat rank.val inputs.matrix = .ok (inputs.receiveCounts rank) := by
  rw [receiveCountsOf, mapM_eq_ok_iff]
  apply List.ext_getElem?
  intro index
  rw [List.getElem?_map, List.getElem?_map]
  by_cases inside : index < worldSize.toNat
  · rw [List.getElem?_range inside, inputs.receiveCounts_at ⟨index, inside⟩ rank]
    have located := inputs.matrix_at ⟨index, inside⟩ rank
    simp only [Option.map_some, located, okOr_some]
  · rw [List.getElem?_eq_none (by rw [List.length_range]; omega),
      List.getElem?_eq_none (by rw [inputs.length_receiveCounts]; omega)]
    rfl

theorem checkNativeChunkPlan_eq {elements elementBytes : Nat} (positive : 0 < elementBytes)
    (fits : elements * elementBytes ≤ isizeLimit) :
    checkNativeChunkPlan elements elementBytes elementBytes = .ok () := by
  have limit : isizeLimit < wordSize := by decide
  have product : checkedMul elements elementBytes = some (elements * elementBytes) :=
    (checkedMul_eq_some_iff ..).mpr ⟨lt_of_le_of_lt fits limit, rfl⟩
  simp only [checkNativeChunkPlan, rejectIf, Nat.pos_iff_ne_zero.mp positive,
    lt_irrefl, or_self, if_false, ok_bind, Nat.div_self positive,
    one_ne_zero, product, okOr_some, gt_iff_lt, not_lt.mpr fits]

theorem rowSchedule_eq {uniqueId : UniqueId} (rank : Fin worldSize.toNat) :
    rowSchedule (sessionOf uniqueId rank) (inputs.sendCounts rank).sum
        inputs.tail.prod inputs.elementType.byteWidth inputs.maxChunkBytes
        (inputs.sendCounts rank) inputs.matrix =
      .ok (inputs.schedule rank) := by
  obtain ⟨sendElements, sendRows⟩ := inputs.words_fit (inputs.sendTotal_fits rank)
  obtain ⟨receiveElements, receiveRows⟩ := inputs.words_fit (inputs.receiveTotal_fits rank)
  have own : (sessionOf uniqueId rank).rank.toNat = rank.val :=
    UInt32.toNat_ofNat_of_lt' (lt_trans rank.isLt worldSize.toNat_lt)
  have world : (sessionOf uniqueId rank).worldSize = worldSize := rfl
  have rows : ¬inputs.peerRows = 0 := Nat.pos_iff_ne_zero.mp inputs.peerRows_pos
  simp only [rowSchedule, world, own, inputs.receiveCountsOf_eq, ok_bind,
    rowPrefix_eq sendRows, rowPrefix_eq receiveRows, getLast?_prefixSums,
    okOr_some, checkedMul, if_pos sendElements, if_pos receiveElements,
    if_pos inputs.rowBytes_fit]
  rw [← maximumPeerRows, ← peerRows]
  simp only [rejectIf, if_neg rows, ok_bind,
    checkNativeChunkPlan_eq inputs.width_pos (inputs.sendTotal_fits rank),
    checkNativeChunkPlan_eq inputs.width_pos (inputs.receiveTotal_fits rank), fromCollective]
  rfl

variable {checksum : List UInt8 → UInt32} {uniqueId : UniqueId} {lost : NetworkError}

/-- What a rank calls. -/
def chunked (checksum : List UInt8 → UInt32) (uniqueId : UniqueId)
    (rank : Fin worldSize.toNat) : RowExchanging α (RowsExchanged α) :=
  nativeRowsChunked (sessionOf uniqueId rank) (inputs.device rank) checksum
    (inputs.tensor rank) (inputs.sendCounts rank) inputs.maxChunkBytes
    (inputs.fresh rank)

/-- The reports and the results of the bounded exchange. -/
def Exchanged (outcomes : Fin worldSize.toNat → RowsExchanged α) : Prop :=
  ∀ rank, (outcomes rank).result = .ok (inputs.output rank, inputs.receiveCounts rank) ∧
    ∃ last, (outcomes rank).reports.getLast? = some last ∧
      inputs.Progressed inputs.peerRows inputs.totalRounds rank inputs.totalRounds last

theorem exchangeScheduled_lockstep :
    ∃ outcomes, Lockstep (meet checksum uniqueId lost)
        (fun rank => exchangeScheduled (sessionOf uniqueId rank)
          (inputs.device rank) (inputs.schedule rank) (inputs.tensor rank)
          (inputs.sendCounts rank) (inputs.sendCounts rank).sum
          (inputs.fresh rank))
        ((List.range' 0 inputs.totalRounds).map (inputs.roundMessages inputs.peerRows)) outcomes ∧
      inputs.Exchanged outcomes := by
  have flat (rank : Fin worldSize.toNat) :
      (inputs.tensor rank).data.length = [(inputs.schedule rank).inputElements].prod := by
    rw [List.prod_singleton]
    exact inputs.sized rank
  have started (rank : Fin worldSize.toNat) :
      inputs.Progressed inputs.peerRows inputs.totalRounds rank 0
        (firstProgress (inputs.schedule rank) (inputs.sendCounts rank).sum) := by
    refine ⟨rfl, rfl, ?_, rfl, ?_, rfl⟩ <;>
      rw [Nat.zero_mul, RowBatch.rowsUpTo_zero] <;> rfl
  obtain ⟨outcomes, lockstep, ends⟩ := @RowBatch.rowRounds_lockstep α
    worldSize inputs.toRowBatch checksum uniqueId lost inputs.peerRows
    inputs.schedule inputs.totalRounds inputs.scheduled inputs.totalRounds 0
    (fun rank => (inputs.fresh rank (inputs.schedule rank).outputElements).val) _
    (fun rank => [firstProgress (inputs.schedule rank) (inputs.sendCounts rank).sum])
    (fun rank => (inputs.fresh rank _).property.trans (inputs.length_received rank).symm)
    (by
      intro rank position covered
      obtain ⟨source, first, last⟩ := covered
      rw [Nat.zero_mul, Nat.min_zero, Nat.add_zero] at last
      omega)
    (by
      intro source destination
      rw [Nat.zero_add]
      exact inputs.counts_le_rounds source destination)
    started (fun rank => rfl)
  refine ⟨outcomes, ?_, fun rank => ?_⟩
  · simp only [exchangeScheduled, NativeTensor.reshape, dif_pos (flat _)]
    exact lockstep
  · obtain ⟨result, last, located, holds⟩ := ends rank
    rw [Nat.zero_add] at holds
    exact ⟨result, last, located, holds⟩

/-- The words that the ranks compare. -/
def agreementFields : List Nat :=
  [inputs.elementType.toByte.toNat, 0x300, inputs.maxChunkBytes,
    worldSize.toNat, inputs.tail.length] ++ inputs.tail

theorem nativeChunkAgreement_lockstep
    (fits : worldSize.toNat * ((5 + inputs.tail.length) * 8) ≤ maxFramePayloadBytes) :
    Lockstep (meet checksum uniqueId lost)
      (fun rank : Fin worldSize.toNat => (nativeChunkAgreement
        (sessionOf uniqueId rank) checksum inputs.tail inputs.elementType
        0x300 inputs.maxChunkBytes : RowExchanging α _))
      [gatherMessages checksum uniqueId (fun _ => inputs.agreementFields)
        (5 + inputs.tail.length)] (fun _ => .ok ()) := by
  have length : inputs.agreementFields.length = 5 + inputs.tail.length := by
    rw [agreementFields, List.length_append]
    rfl
  have lockstep : Lockstep (meet checksum uniqueId lost)
      (fun rank => (gatherWords (sessionOf uniqueId rank) checksum
        inputs.agreementFields : RowExchanging α _)) _ _ :=
    gatherWords_ok inputs.positive (fun _ => length) fits
  have same : ∀ part ∈ List.ofFn (fun _ : Fin worldSize.toNat =>
      inputs.agreementFields.flatMap (leBytes 8)),
      part = inputs.agreementFields.flatMap (leBytes 8) := by
    intro part member
    obtain ⟨_, rfl⟩ := (List.mem_ofFn ..).mp member
    rfl
  have nonempty : 0 < (inputs.agreementFields.flatMap (leBytes 8)).length := by
    rw [length_flatMap_leBytes, length]
    omega
  have chunks := chunksExact_flatten nonempty
    fun part member => congrArg List.length (same part member)
  have agreed : ¬∃ other ∈ chunksExact (inputs.agreementFields.flatMap (leBytes 8)).length
      (gatheredBytes fun _ : Fin worldSize.toNat => inputs.agreementFields),
      other ≠ inputs.agreementFields.flatMap (leBytes 8) := by
    intro differs
    obtain ⟨other, member, different⟩ := differs
    rw [gatheredBytes, chunks] at member
    exact different (same other member)
  have judged : (fun _ : Fin worldSize.toNat => (do
      let requests ← (.ok (gatheredBytes fun _ : Fin worldSize.toNat =>
        inputs.agreementFields) : Except TensorDeviceError (List UInt8))
      rejectIf (∃ other ∈ chunksExact
          (inputs.agreementFields.flatMap (leBytes 8)).length requests,
          other ≠ inputs.agreementFields.flatMap (leBytes 8))
        (.invalidOperation
          "chunked reduction geometry/type/operation/budget differs across ranks") :
        Except TensorDeviceError Unit)) = fun _ => .ok () := by
    funext _
    rw [ok_bind, rejectIf, if_neg agreed]
  rw [← judged]
  exact lockstep.bind (.done _)

/-- What the ranks gather first. -/
def statusWords (worldSize : UInt32) : List Nat := [1, worldSize.toNat]

theorem validRows_eq (rank : Fin worldSize.toNat) :
    validRows (sessionOf uniqueId rank) (inputs.tensor rank) (inputs.sendCounts rank) = true := by
  have rows := (inputs.words_fit (inputs.sendTotal_fits rank)).2
  have world : (sessionOf uniqueId rank).worldSize = worldSize := rfl
  have summed : checkedSum (inputs.sendCounts rank) =
      some (inputs.sendCounts rank).sum := checkedSum_of_lt rows
  simp [validRows, RowBatch.tensor, world, inputs.length_sendCounts, summed]

/-- No rank has reported invalid arguments. -/
theorem statuses_valid :
    ¬∃ state ∈ chunksExact 16 (gatheredBytes fun _ : Fin worldSize.toNat =>
      statusWords worldSize), leValue (state.take 8) = 0 := by
  intro invalid
  obtain ⟨state, member, zero⟩ := invalid
  have same : ∀ part ∈ List.ofFn (fun _ : Fin worldSize.toNat =>
      (statusWords worldSize).flatMap (leBytes 8)),
      part = (statusWords worldSize).flatMap (leBytes 8) := by
    intro part member
    obtain ⟨_, rfl⟩ := (List.mem_ofFn ..).mp member
    rfl
  have sixteen : ∀ part ∈ List.ofFn (fun _ : Fin worldSize.toNat =>
      (statusWords worldSize).flatMap (leBytes 8)), part.length = 16 := by
    intro part member
    rw [same part member, length_flatMap_leBytes]
    rfl
  rw [gatheredBytes, chunksExact_flatten (by decide) sixteen] at member
  rw [same state member] at zero
  have first : ((statusWords worldSize).flatMap (leBytes 8)).take 8 =
      leBytes 8 1 := by
    rw [statusWords, List.flatMap_cons, List.take_left' (by simp)]
  rw [first, leValue_leBytes (by decide)] at zero
  cases zero

/-- The gathered words of all ranks fit a frame. -/
structure MetadataFits : Prop where
  counts : worldSize.toNat * (worldSize.toNat * 8) ≤ maxFramePayloadBytes
  agreement : worldSize.toNat * ((5 + inputs.tail.length) * 8) ≤ maxFramePayloadBytes

variable (checksum uniqueId) in
/-- What the ranks send before their rounds. -/
def metadataMessages : List (Fin worldSize.toNat → RowMessage α) :=
  [gatherMessages checksum uniqueId (fun _ => statusWords worldSize) 2,
    gatherMessages checksum uniqueId (fun _ => inputs.agreementFields) (5 + inputs.tail.length),
    gatherMessages checksum uniqueId inputs.sendCounts worldSize.toNat]

variable (checksum uniqueId) in
/-- All that the ranks send. -/
def messages : List (Fin worldSize.toNat → RowMessage α) :=
  inputs.metadataMessages checksum uniqueId ++ (List.range' 0 inputs.totalRounds).map
      (inputs.roundMessages inputs.peerRows)

/-- The agreement of the ranks, and what follows the counts they gather. -/
theorem chunked_of_counts
    (agreement : worldSize.toNat * ((5 + inputs.tail.length) * 8) ≤ maxFramePayloadBytes)
    {results : Fin worldSize.toNat → Except TensorDeviceError (List UInt8)}
    {later : List (Fin worldSize.toNat → RowMessage α)}
    {outcomes : Fin worldSize.toNat → RowsExchanged α}
    (counting : Lockstep (meet checksum uniqueId lost)
      (fun rank => (gatherWords (sessionOf uniqueId rank) checksum
        (inputs.sendCounts rank) : RowExchanging α _))
      [gatherMessages checksum uniqueId inputs.sendCounts worldSize.toNat]
      results)
    (rest : Lockstep (meet checksum uniqueId lost)
      (fun rank => orStop (do
          let bytes ← results rank
          rowSchedule (sessionOf uniqueId rank) (inputs.sendCounts rank).sum
            inputs.tail.prod inputs.elementType.byteWidth
            inputs.maxChunkBytes (inputs.sendCounts rank)
            ((chunksExact 8 bytes).map leValue))
        fun schedule => exchangeScheduled (sessionOf uniqueId rank)
          (inputs.device rank) schedule (inputs.tensor rank)
          (inputs.sendCounts rank) (inputs.sendCounts rank).sum
          (inputs.fresh rank)) later outcomes) :
    Lockstep (meet checksum uniqueId lost) (inputs.chunked checksum uniqueId)
      (inputs.metadataMessages checksum uniqueId ++ later) outcomes := by
  have two : worldSize.toNat * (2 * 8) ≤ maxFramePayloadBytes :=
    le_trans (Nat.mul_le_mul_left _ (by omega)) agreement
  have status : Lockstep (meet checksum uniqueId lost)
      (fun rank => (gatherWords (sessionOf uniqueId rank) checksum
        (statusWords worldSize) : RowExchanging α _)) _ _ :=
    gatherWords_ok inputs.positive (fun _ => rfl) two
  have agreeing := @nativeChunkAgreement_lockstep α worldSize inputs
    checksum uniqueId lost agreement
  have ready (rank : Fin worldSize.toNat) : (do
      rejectIf ((inputs.tensor rank).device ≠ inputs.device rank) .deviceMismatch
      rejectIf ((sessionOf uniqueId rank).worldSize.toNat = 0)
        (.invalidOperation "variable-row world must be positive") :
        Except TensorDeviceError Unit) = .ok () := by
    have own : (inputs.tensor rank).device = inputs.device rank := rfl
    have world : (sessionOf uniqueId rank).worldSize = worldSize := rfl
    simp only [own, rejectIf, ne_eq, not_true_eq_false, if_false, ok_bind,
      world, Nat.pos_iff_ne_zero.mp inputs.positive]
  have head (rank : Fin worldSize.toNat) :
      (inputs.tensor rank).shape.head? = some (inputs.sendCounts rank).sum := rfl
  have tail (rank : Fin worldSize.toNat) :
      (inputs.tensor rank).shape.tail = inputs.tail := rfl
  have dtype (rank : Fin worldSize.toNat) :
      (inputs.tensor rank).dtype = inputs.dtype := rfl
  unfold chunked nativeRowsChunked
  rw [funext fun rank => congrArg (orStop · _) (ready rank)]
  simp only [orStop, inputs.validRows_eq, if_true, inputs.length_sendCounts]
  refine status.bind ?_
  simp only [ok_bind, rejectIf, if_neg statuses_valid, head, okOr_some,
    dtype, inputs.native, tail]
  refine agreeing.bind ?_
  simp only [ok_bind, rowElementsOf_eq inputs.rowNonempty inputs.rowFits, okOr_some]
  exact counting.bind rest

/-- All ranks exchange their rows in the same rounds. -/
theorem chunked_lockstep (framed : inputs.MetadataFits) :
    ∃ outcomes, Lockstep (meet checksum uniqueId lost) (inputs.chunked checksum uniqueId)
        (inputs.messages checksum uniqueId) outcomes ∧
      inputs.Exchanged outcomes := by
  obtain ⟨outcomes, rounds, exchanged⟩ :=
    @exchangeScheduled_lockstep α worldSize inputs checksum uniqueId lost
  have words : ∀ rank, ∀ word ∈ inputs.sendCounts rank, word < wordSize := by
    intro rank word member
    have total := (inputs.words_fit (inputs.sendTotal_fits rank)).2
    exact lt_of_le_of_lt (List.le_sum_of_mem member) total
  have matrix := map_leValue_gathered words
  refine ⟨outcomes, inputs.chunked_of_counts framed.agreement
    (gatherWords_ok inputs.positive inputs.length_sendCounts framed.counts)
    ?_, exchanged⟩
  simp only [ok_bind, matrix]
  rw [← RowInputs.matrix]
  simp only [inputs.rowSchedule_eq, orStop]
  exact rounds

/-- Counts that do not fit a frame end every rank before it has sent a row. -/
theorem chunked_refused (large : maxFramePayloadBytes < worldSize.toNat * (worldSize.toNat * 8))
    (small : worldSize.toNat * 8 ≤ maxFramePayloadBytes)
    (agreement : worldSize.toNat * ((5 + inputs.tail.length) * 8) ≤ maxFramePayloadBytes) :
    Lockstep (meet checksum uniqueId lost) (inputs.chunked checksum uniqueId)
      (inputs.metadataMessages checksum uniqueId)
      (fun _ => ⟨[], .error (.collective (.network lost))⟩) := by
  obtain ⟨results, counting, gathered⟩ := @gatherWords_lockstep α checksum
    uniqueId worldSize lost _ inputs.sendCounts inputs.positive
    inputs.length_sendCounts small
  rcases gathered with ⟨_, refused⟩ | ⟨fits, _⟩
  case inr => exact absurd fits (not_le.mpr large)
  rw [← List.append_nil (inputs.metadataMessages checksum uniqueId)]
  refine inputs.chunked_of_counts agreement counting ?_
  simp only [refused, error_bind, orStop]
  exact .done _

/-- The rows of a round from or to one rank stay within the budget. -/
theorem roundCounts_within {counts : List Nat} (length : counts.length = worldSize.toNat)
    (some : inputs.maximumPeerRows ≠ 0) (offset : Nat) :
    (roundCounts inputs.peerRows offset counts).sum * inputs.tail.prod *
      inputs.elementType.byteWidth ≤ inputs.maxChunkBytes := by
  have rows := RowBatch.sum_roundCounts_le_length inputs.peerRows offset counts
  have peer : inputs.peerRows = inputs.maxChunkBytes / worldSize.toNat /
      (inputs.tail.prod * inputs.elementType.byteWidth) := if_neg some
  rw [length] at rows
  calc (roundCounts inputs.peerRows offset counts).sum * inputs.tail.prod *
        inputs.elementType.byteWidth
      = (roundCounts inputs.peerRows offset counts).sum *
          (inputs.tail.prod * inputs.elementType.byteWidth) :=
        Nat.mul_assoc _ _ _
    _ ≤ worldSize.toNat * inputs.peerRows * (inputs.tail.prod * inputs.elementType.byteWidth) :=
        Nat.mul_le_mul_right _ rows
    _ = worldSize.toNat * (inputs.peerRows * (inputs.tail.prod * inputs.elementType.byteWidth)) :=
        Nat.mul_assoc _ _ _
    _ ≤ worldSize.toNat * (inputs.maxChunkBytes / worldSize.toNat) := by
        rw [peer]
        exact Nat.mul_le_mul_left _ (Nat.div_mul_le_self _ _)
    _ ≤ inputs.maxChunkBytes := Nat.mul_div_le _ _

/-- What every rank sends and receives in one meeting. -/
def WithinBudget (checksum : List UInt8 → UInt32) (uniqueId : UniqueId) (lost : NetworkError)
    (messages : Fin worldSize.toNat → RowMessage α) : Prop :=
  ∀ rank,
    (∀ counts data, messages rank = .packet counts data →
      data.length * inputs.elementType.byteWidth ≤ inputs.maxChunkBytes) ∧
    ∀ counts data, (meet checksum uniqueId lost messages rank).rows = .ok (counts, data) →
        data.length * inputs.elementType.byteWidth ≤ inputs.maxChunkBytes

theorem rounds_of_positive {round : Nat} (member : round ∈ List.range' 0 inputs.totalRounds) :
    inputs.maximumPeerRows ≠ 0 := by
  intro zero
  have none : inputs.totalRounds = 0 := by
    simp [totalRounds, zero, ChunkedBroadcastPlan.divCeil]
  rw [none] at member
  cases member

theorem round_withinBudget {round : Nat} (member : round ∈ List.range' 0 inputs.totalRounds) :
    inputs.WithinBudget checksum uniqueId lost (inputs.roundMessages inputs.peerRows round) := by
  have some := inputs.rounds_of_positive member
  intro rank
  constructor
  · intro counts data sent
    cases sent
    have length := (inputs.window inputs.peerRows (round * inputs.peerRows)).sized rank
    have budget := inputs.roundCounts_within (inputs.length_sendCounts rank)
      some (round * inputs.peerRows)
    rw [← inputs.window_sendCounts] at budget
    rw [RowBatch.packet, length]
    exact budget
  · intro counts data delivered
    have packets : inputs.roundMessages inputs.peerRows round = fun member => .packet
          ((inputs.window inputs.peerRows (round * inputs.peerRows)).packet member).1
          ((inputs.window inputs.peerRows (round * inputs.peerRows)).packet member).2 := rfl
    rw [packets, RowBatch.meet_packets, RowBatch.deliver_packets] at delivered
    cases delivered
    have budget := inputs.roundCounts_within
      (inputs.length_receiveCounts rank) some (round * inputs.peerRows)
    rw [← inputs.window_receiveCounts] at budget
    rw [RowBatch.length_received]
    exact budget

theorem gather_withinBudget {words : Fin worldSize.toNat → List Nat} {count : Nat} :
    inputs.WithinBudget checksum uniqueId lost
      (gatherMessages checksum uniqueId words count) := by
  intro rank
  constructor
  · intro counts data sent
    cases sent
  · intro counts data delivered
    have none : everywhere (fun member : Fin worldSize.toNat =>
        (gatherMessages checksum uniqueId words count member : RowMessage α).packet?) = none :=
      everywhere_eq_none rank rfl
    simp only [meet, none] at delivered
    cases delivered

theorem messages_withinBudget :
    ∀ messages ∈ inputs.messages checksum uniqueId,
      inputs.WithinBudget checksum uniqueId lost messages := by
  intro messages member
  rcases List.mem_append.mp member with gathering | exchanging
  · simp only [metadataMessages, List.mem_cons, List.not_mem_nil, or_false] at gathering
    rcases gathering with rfl | rfl | rfl <;>
      exact inputs.gather_withinBudget
  · obtain ⟨round, listed, rfl⟩ := List.mem_map.mp exchanging
    exact inputs.round_withinBudget listed

/-- The rounds that a rank takes part in. -/
def roundsOf (log : List (Fin worldSize.toNat → RowMessage α))
    (rank : Fin worldSize.toNat) : Nat :=
  (log.filter fun messages => (messages rank).packet?.isSome).length

theorem roundsOf_messages (rank : Fin worldSize.toNat) :
    roundsOf (inputs.messages checksum uniqueId) rank =
      inputs.totalRounds := by
  have rounds : ((List.range' 0 inputs.totalRounds).map
      (inputs.roundMessages inputs.peerRows)).filter
        (fun messages => (messages rank).packet?.isSome) =
      (List.range' 0 inputs.totalRounds).map (inputs.roundMessages inputs.peerRows) := by
    rw [List.filter_eq_self]
    intro messages member
    obtain ⟨round, _, rfl⟩ := List.mem_map.mp member
    rfl
  rw [roundsOf, messages, List.filter_append, rounds, List.length_append,
    List.length_map, List.length_range']
  exact Nat.zero_add _

/-- The answers to a rank that waits in vain. -/
def unanswered (lost : NetworkError) : RowAnswer α := ⟨.error lost, .error lost⟩

/-- The run of all ranks ends with these messages and outcomes. -/
def Runs {β : Type} (checksum : List UInt8 → UInt32) (uniqueId : UniqueId) (lost : NetworkError)
    (dialogues : Fin worldSize.toNat → RowExchanging α β)
    (log : List (Fin worldSize.toNat → RowMessage α))
    (outcomes : Fin worldSize.toNat → β) : Prop :=
  ∃ fuel, ∀ more, fuel ≤ more →
    execute (meet checksum uniqueId lost) (unanswered lost) more dialogues =
      some (log.map fun messages rank => some (messages rank), outcomes)

theorem runs_of_lockstep {β : Type} (positive : 0 < worldSize.toNat)
    {dialogues : Fin worldSize.toNat → RowExchanging α β}
    {log : List (Fin worldSize.toNat → RowMessage α)}
    {outcomes : Fin worldSize.toNat → β}
    (lockstep : Lockstep (meet checksum uniqueId lost) dialogues log outcomes) :
    Runs checksum uniqueId lost dialogues log outcomes := by
  have nonempty : Nonempty (Fin worldSize.toNat) := ⟨⟨0, positive⟩⟩
  obtain ⟨fuel, executed⟩ := @Lockstep.executes _ _ _ _ _ _ (unanswered lost) _ _ _ _ lockstep
  exact ⟨fuel, fun more enough => execute_mono executed enough⟩

/-- The counters of a rank at the end. -/
structure Counted (rank : Fin worldSize.toNat) (last : RowExchangeProgress) :
    Prop where
  rounds : last.completedRounds = last.totalRounds
  sent : last.sentRows = last.totalSendRows
  sentAll : last.totalSendRows = (inputs.sendCounts rank).sum
  received : last.receivedRows = last.totalReceiveRows
  receivedAll : last.totalReceiveRows = (inputs.receiveCounts rank).sum

theorem counted_of_progressed {rank : Fin worldSize.toNat} {last : RowExchangeProgress}
    (progressed : inputs.Progressed inputs.peerRows inputs.totalRounds rank
      inputs.totalRounds last) : inputs.Counted rank last := by
  have sends : ∀ count ∈ inputs.sendCounts rank,
      count ≤ inputs.totalRounds * inputs.peerRows := by
    intro count member
    obtain ⟨destination, rfl⟩ := (List.mem_ofFn ..).mp member
    exact inputs.counts_le_rounds rank destination
  have receives : ∀ count ∈ inputs.receiveCounts rank,
      count ≤ inputs.totalRounds * inputs.peerRows := by
    intro count member
    obtain ⟨source, rfl⟩ := (List.mem_ofFn ..).mp member
    exact inputs.counts_le_rounds source rank
  refine ⟨?_, ?_, progressed.totalSendRows, ?_, progressed.totalReceiveRows⟩
  · rw [progressed.completedRounds, progressed.totalRounds]
  · rw [progressed.sentRows, progressed.totalSendRows, RowBatch.rowsUpTo_all sends]
  · rw [progressed.receivedRows, progressed.totalReceiveRows, RowBatch.rowsUpTo_all receives]

/-- The bounded exchange brings every rank what the exchange in one go brings, in
the same rounds on all ranks and within the budget. -/
theorem chunked_eq_exchangeRows (checksum : List UInt8 → UInt32)
    (uniqueId : UniqueId) (lost : NetworkError)
    (framed : inputs.MetadataFits) :
    ∃ log outcomes single, Runs checksum uniqueId lost (inputs.chunked checksum uniqueId) log
        outcomes ∧
      Runs checksum uniqueId lost
        (fun rank => exchangeRows (sessionOf uniqueId rank)
          (inputs.device rank) (inputs.tensor rank)
          (inputs.sendCounts rank)) single
        (fun rank => (outcomes rank).result) ∧
      (∀ rank, (outcomes rank).result = .ok (inputs.output rank, inputs.receiveCounts rank)) ∧
      (∀ rank, roundsOf log rank = inputs.totalRounds) ∧
      (∀ messages ∈ log, inputs.WithinBudget checksum uniqueId lost messages) ∧
      ∀ rank, ∃ last, (outcomes rank).reports.getLast? = some last ∧
        inputs.Counted rank last := by
  obtain ⟨outcomes, lockstep, exchanged⟩ := @chunked_lockstep α worldSize
    inputs checksum uniqueId lost framed
  have results : (fun rank => (outcomes rank).result) =
      fun rank => .ok (inputs.output rank, inputs.receiveCounts rank) :=
    funext fun rank => (exchanged rank).1
  have single := runs_of_lockstep inputs.positive
    (@RowBatch.exchangeRows_lockstep α worldSize inputs.toRowBatch checksum uniqueId lost)
  rw [← results] at single
  refine ⟨inputs.messages checksum uniqueId, outcomes, _,
    runs_of_lockstep inputs.positive lockstep, single,
    fun rank => (exchanged rank).1, inputs.roundsOf_messages,
    inputs.messages_withinBudget, fun rank => ?_⟩
  obtain ⟨_, last, located, progressed⟩ := exchanged rank
  exact ⟨last, located, inputs.counted_of_progressed progressed⟩

end RowInputs

theorem twoRanks_positive : 0 < (2 : UInt32).toNat := by
  decide

/-- Two ranks with rows of two bytes; the second one keeps its only row. -/
def twoRankRows : RowInputs UInt8 2 where
  counts source destination := ([[1, 2], [0, 1]][source.val]!)[destination.val]!
  tail := [2]
  data source := [[1, 2, 3, 4, 5, 6], [7, 8]][source.val]!
  dtype := .u8
  elementType := .u8
  device _ := 0
  native := rfl
  rowNonempty := by decide
  rowFits := by decide
  sized := by decide
  sendFits := by decide
  receiveFits := by decide
  maxChunkBytes := 4
  fresh _ length := ⟨List.replicate length 0, List.length_replicate⟩
  positive := twoRanks_positive
  budgetWord := by decide
  budget := by decide

theorem chunked_eq_exchangeRows_two :
    twoRankRows.MetadataFits ∧ twoRankRows.totalRounds = 2 ∧ ∃ log outcomes single,
        RowInputs.Runs (fun _ => 0) ⟨List.replicate 16 0, rfl⟩ .channelClosed
          (twoRankRows.chunked (fun _ => 0) ⟨List.replicate 16 0, rfl⟩) log
          outcomes ∧
        RowInputs.Runs (fun _ => 0) ⟨List.replicate 16 0, rfl⟩ .channelClosed
          (fun rank => exchangeRows (sessionOf ⟨List.replicate 16 0, rfl⟩ rank)
            (twoRankRows.device rank) (twoRankRows.tensor rank)
            (twoRankRows.sendCounts rank)) single
          (fun rank => (outcomes rank).result) ∧
        ∀ rank, (outcomes rank).result = .ok (twoRankRows.output rank,
          twoRankRows.receiveCounts rank) := by
  have framed : twoRankRows.MetadataFits := ⟨by decide, by decide⟩
  obtain ⟨log, outcomes, single, chunked, once, results, _⟩ :=
    twoRankRows.chunked_eq_exchangeRows (fun _ => 0)
      ⟨List.replicate 16 0, rfl⟩ .channelClosed framed
  exact ⟨framed, by decide, log, outcomes, single, chunked, once, results⟩

theorem sum_ofFn_zero (size : Nat) : (List.ofFn fun _ : Fin size => 0).sum = 0 := by
  rw [List.ofFn_const, List.sum_replicate]
  exact Nat.mul_zero size

/-- So many ranks that their counts do not fit a frame, without any rows. -/
def crowdedRows : RowInputs UInt8 11586 where
  counts _ _ := 0
  tail := [1]
  data _ := []
  dtype := .u8
  elementType := .u8
  device _ := 0
  native := rfl
  rowNonempty := by decide
  rowFits := by decide
  sized _ := by
    rw [sum_ofFn_zero]
    rfl
  sendFits _ := by
    rw [sum_ofFn_zero]
    exact Nat.zero_le _
  receiveFits _ := by
    rw [sum_ofFn_zero]
    exact Nat.zero_le _
  maxChunkBytes := 11586
  fresh _ length := ⟨List.replicate length 0, List.length_replicate⟩
  positive := by decide
  budgetWord := by decide
  budget := by decide

/-- None of these ranks gets a result. -/
theorem crowded_rows_refused :
    ∃ log outcomes, RowInputs.Runs (fun _ => 0) ⟨List.replicate 16 0, rfl⟩ .channelClosed
        (crowdedRows.chunked (fun _ => 0) ⟨List.replicate 16 0, rfl⟩) log
        outcomes ∧
      ∀ rank, (outcomes rank).result = .error (.collective (.network .channelClosed)) :=
  ⟨_, _, RowInputs.runs_of_lockstep crowdedRows.positive
    (crowdedRows.chunked_refused (by decide) (by decide) (by decide)),
    fun _ => rfl⟩

end RuCCL.Tensor
