import RuCCL.Rank.BoundedBroadcastCorrect
import RuCCL.Tensor.RowExchange

/-!
# Row exchanges in one go

One exchange brings each rank the rows for it, in the order of their sources and
each exactly once.
-/

namespace RuCCL.Tensor

open RuCCL.Library RuCCL.Rank

variable {α : Type}

theorem rowPrefixFrom_eq {counts : List Nat} (last : Nat) (fits : last + counts.sum < wordSize) :
    rowPrefixFrom last counts = .ok ((List.range counts.length).map
      fun index => last + before counts (index + 1)) := by
  induction counts generalizing last with
  | nil => rfl
  | cons count rest ih =>
      rw [List.sum_cons, ← Nat.add_assoc] at fits
      have next : checkedAdd last count = some (last + count) := (checkedAdd_eq_some_iff ..).mpr
          ⟨lt_of_le_of_lt (Nat.le_add_right _ _) fits, rfl⟩
      rw [rowPrefixFrom, next, okOr_some, ok_bind, ih _ fits, ok_bind, List.length_cons,
        List.range_succ_eq_map, List.map_cons, List.map_map]
      congr 2
      apply List.map_congr_left
      intro index _
      simp only [Function.comp, Nat.succ_eq_add_one, before_cons_succ, Nat.add_assoc]

/-- The sums before each position. -/
def prefixSums (counts : List Nat) : List Nat :=
  (List.range (counts.length + 1)).map (before counts)

theorem rowPrefix_eq {counts : List Nat} (fits : counts.sum < wordSize) :
    rowPrefix counts = .ok (prefixSums counts) := by
  have later := @rowPrefixFrom_eq counts 0 (by rwa [Nat.zero_add])
  rw [rowPrefix, later, ok_bind, prefixSums, List.range_succ_eq_map,
    List.map_cons, List.map_map, before_zero]
  congr 2
  apply List.map_congr_left
  intro index _
  exact Nat.zero_add _

theorem getElem?_prefixSums {counts : List Nat} {index : Nat} (inside : index ≤ counts.length) :
    (prefixSums counts)[index]? = some (before counts index) := by
  rw [prefixSums, List.getElem?_map, List.getElem?_range (by omega)]
  rfl

theorem getLast?_prefixSums (counts : List Nat) :
    (prefixSums counts).getLast? = some counts.sum := by
  rw [prefixSums, List.range_succ, List.map_append, List.map_singleton,
    List.getLast?_concat, before_length]

theorem foldlM_checkedMul {dimensions : List Nat} (start : Nat) (positive : dimensions.prod ≠ 0)
    (fits : start * dimensions.prod < wordSize) :
    dimensions.foldlM checkedMul start = some (start * dimensions.prod) := by
  induction dimensions generalizing start with
  | nil =>
      rw [List.prod_nil, Nat.mul_one]
      rfl
  | cons first rest ih =>
      rw [List.prod_cons] at positive
      rw [List.prod_cons, ← Nat.mul_assoc] at fits ⊢
      have later : rest.prod ≠ 0 := right_ne_zero_of_mul positive
      have product : checkedMul start first = some (start * first) :=
        (checkedMul_eq_some_iff ..).mpr ⟨lt_of_le_of_lt
          (Nat.le_mul_of_pos_right _ (Nat.pos_of_ne_zero later)) fits, rfl⟩
      rw [List.foldlM_cons, product]
      exact ih (start * first) later fits

theorem rowElementsOf_eq {dimensions : List Nat}
    (positive : dimensions.prod ≠ 0) (fits : dimensions.prod < wordSize) :
    rowElementsOf dimensions = some dimensions.prod := by
  have product := @foldlM_checkedMul dimensions 1 positive (by rwa [Nat.one_mul])
  rw [Nat.one_mul] at product
  simp [rowElementsOf, checkedProduct, product, Option.filter, positive]

theorem mapM_checkedMul {counts : List Nat} {factor : Nat}
    (fits : counts.sum * factor < wordSize) :
    (counts.mapM fun count => checkedMul count factor) = some (counts.map (· * factor)) := by
  induction counts with
  | nil => rfl
  | cons count rest ih =>
      rw [List.sum_cons, Nat.add_mul] at fits
      have first : checkedMul count factor = some (count * factor) :=
        (checkedMul_eq_some_iff ..).mpr ⟨lt_of_le_of_lt (Nat.le_add_right _ _) fits, rfl⟩
      rw [List.mapM_cons, first, ih (lt_of_le_of_lt (Nat.le_add_left _ _) fits)]
      rfl

theorem checkedLength_eq {elementBytes length : Nat} (fits : length * elementBytes ≤ isizeLimit) :
    checkedLength elementBytes length = .ok () := by
  have limit : isizeLimit < wordSize := by decide
  have product : checkedMul length elementBytes = some (length * elementBytes) :=
    (checkedMul_eq_some_iff ..).mpr ⟨lt_of_le_of_lt fits limit, rfl⟩
  rw [checkedLength, product, okOr_some, ok_bind, rejectIf_eq_ok_iff]
  exact not_lt.mpr fits

theorem sum_map_mul (counts : List Nat) (factor : Nat) :
    (counts.map (· * factor)).sum = counts.sum * factor := by
  have scaled := List.sum_map_mul_right counts (fun count => count) factor
  rw [List.map_id'] at scaled
  exact scaled

theorem byteWidth_pos {dtype : DType} {elementType : ElementType}
    (native : nativeElementType dtype = .ok elementType) :
    0 < elementType.byteWidth := by
  cases dtype <;> cases native <;> decide

/-- Pieces that are left out are empty. -/
theorem mapM_filter_flatten {ε β : Type} {items : List β} {keep : β → Bool}
    {action : β → Except ε (List α)} {piece : β → List α}
    (kept : ∀ item ∈ items, keep item = true → action item = .ok (piece item))
    (dropped : ∀ item ∈ items, keep item = false → piece item = []) :
    ∃ pieces, (items.filter keep).mapM action = .ok pieces ∧
      pieces.flatten = (items.map piece).flatten := by
  induction items with
  | nil => exact ⟨[], rfl, rfl⟩
  | cons first rest ih =>
      obtain ⟨pieces, mapped, flattened⟩ := ih
        (fun item member => kept item (List.mem_cons_of_mem _ member))
        (fun item member => dropped item (List.mem_cons_of_mem _ member))
      rw [List.map_cons, List.flatten_cons, ← flattened]
      cases kind : keep first with
      | true =>
          refine ⟨piece first :: pieces, ?_, rfl⟩
          rw [List.filter_cons_of_pos kind, List.mapM_cons,
            kept first List.mem_cons_self kind, ok_bind, mapped]
          rfl
      | false =>
          refine ⟨pieces, ?_, ?_⟩
          · rw [List.filter_cons_of_neg (by rw [kind]; exact nofun)]
            exact mapped
          · rw [dropped first List.mem_cons_self kind]
            rfl

theorem sliceAt_eq {values : List α} {start length : Nat}
    (inside : start + length ≤ values.length) :
    sliceAt values start (start + length) = .ok (segment values start length) := by
  rw [sliceAt, if_pos ⟨Nat.le_add_right _ _, inside⟩, Nat.add_sub_cancel_left]

theorem assignAt_eq {values piece : List α} {start length : Nat}
    (inside : start + length ≤ values.length)
    (sized : piece.length = length) :
    assignAt values start (start + length) piece = .ok (splice values start piece) := by
  rw [assignAt, if_pos ⟨Nat.le_add_right _ _, inside, by omega⟩]

/-- Rows for all ranks on every rank, as many as can be addressed. -/
structure RowBatch (α : Type) (worldSize : UInt32) where
  counts : Fin worldSize.toNat → Fin worldSize.toNat → Nat
  tail : List Nat
  data : Fin worldSize.toNat → List α
  dtype : DType
  elementType : ElementType
  device : Fin worldSize.toNat → Nat
  native : nativeElementType dtype = .ok elementType
  rowNonempty : tail.prod ≠ 0
  rowFits : tail.prod < wordSize
  sized : ∀ rank, (data rank).length = (List.ofFn (counts rank)).sum * tail.prod
  sendFits : ∀ rank, (List.ofFn (counts rank)).sum * tail.prod *
    elementType.byteWidth ≤ isizeLimit
  receiveFits : ∀ rank, (List.ofFn fun source => counts source rank).sum *
    tail.prod * elementType.byteWidth ≤ isizeLimit

namespace RowBatch

variable {worldSize : UInt32} (batch : RowBatch α worldSize)

def sendCounts (rank : Fin worldSize.toNat) : List Nat := List.ofFn (batch.counts rank)

def receiveCounts (rank : Fin worldSize.toNat) : List Nat :=
  List.ofFn fun source => batch.counts source rank

def tensor (rank : Fin worldSize.toNat) : NativeTensor α where
  shape := (batch.sendCounts rank).sum :: batch.tail
  data := batch.data rank
  dtype := batch.dtype
  device := batch.device rank
  sized := by rw [List.prod_cons]; exact batch.sized rank

/-- The rows of one rank for another, in their order. -/
def block (source destination : Fin worldSize.toNat) : List α := segment (batch.data source)
    (before (batch.sendCounts source) destination * batch.tail.prod)
    (batch.counts source destination * batch.tail.prod)

/-- The rows for a rank, by source. -/
def received (rank : Fin worldSize.toNat) : List α :=
  (List.ofFn fun source => batch.block source rank).flatten

theorem sendCounts_at (source destination : Fin worldSize.toNat) :
    (batch.sendCounts source)[destination.val]? = some (batch.counts source destination) := by
  rw [sendCounts, List.getElem?_ofFn, dif_pos destination.isLt]

theorem receiveCounts_at (source destination : Fin worldSize.toNat) :
    (batch.receiveCounts destination)[source.val]? = some (batch.counts source destination) := by
  rw [receiveCounts, List.getElem?_ofFn, dif_pos source.isLt]

theorem block_inside (source destination : Fin worldSize.toNat) :
    before (batch.sendCounts source) destination * batch.tail.prod +
        batch.counts source destination * batch.tail.prod ≤
      (batch.data source).length := by
  rw [batch.sized source, ← Nat.add_mul]
  exact Nat.mul_le_mul_right _ (before_add_le_sum (batch.sendCounts_at source destination))

theorem length_block (source destination : Fin worldSize.toNat) :
    (batch.block source destination).length = batch.counts source destination * batch.tail.prod :=
  length_segment (batch.block_inside source destination)

theorem block_lengths (rank : Fin worldSize.toNat) :
    (List.ofFn fun source => batch.block source rank).map List.length =
      (batch.receiveCounts rank).map (· * batch.tail.prod) := by
  rw [receiveCounts, List.map_ofFn, List.map_ofFn]
  congr 1
  funext source
  exact batch.length_block source rank

theorem length_received (rank : Fin worldSize.toNat) :
    (batch.received rank).length = (batch.receiveCounts rank).sum * batch.tail.prod := by
  rw [received, List.length_flatten, batch.block_lengths, sum_map_mul]

/-- Each block stands behind those of the sources before it. -/
theorem segment_received (source rank : Fin worldSize.toNat) :
    segment (batch.received rank) (before (batch.receiveCounts rank) source * batch.tail.prod)
        (batch.counts source rank * batch.tail.prod) =
      batch.block source rank := by
  have located : (List.ofFn fun source => batch.block source rank)[
      source.val]? = some (batch.block source rank) := by
    rw [List.getElem?_ofFn, dif_pos source.isLt]
  have found := segment_flatten located
  rw [batch.block_lengths, before_map_mul, batch.length_block] at found
  exact found

/-- What a rank gets. -/
def output (rank : Fin worldSize.toNat) : NativeTensor α where
  shape := (batch.receiveCounts rank).sum :: batch.tail
  data := batch.received rank
  dtype := batch.dtype
  device := batch.device rank
  sized := by rw [List.prod_cons]; exact batch.length_received rank

theorem width_pos : 0 < batch.elementType.byteWidth := byteWidth_pos batch.native

theorem words_fit {total : Nat}
    (fits : total * batch.tail.prod * batch.elementType.byteWidth ≤ isizeLimit) :
    total * batch.tail.prod < wordSize ∧ total < wordSize := by
  have limit : isizeLimit < wordSize := by decide
  have row := Nat.le_mul_of_pos_right total (Nat.pos_of_ne_zero batch.rowNonempty)
  have bytes := Nat.le_mul_of_pos_right (total * batch.tail.prod) batch.width_pos
  omega

theorem sendTotal_fits (rank : Fin worldSize.toNat) :
    (batch.sendCounts rank).sum * batch.tail.prod * batch.elementType.byteWidth ≤ isizeLimit :=
  batch.sendFits rank

theorem receiveTotal_fits (rank : Fin worldSize.toNat) :
    (batch.receiveCounts rank).sum * batch.tail.prod * batch.elementType.byteWidth ≤ isizeLimit :=
  batch.receiveFits rank

/-- The packet of a rank. -/
def packet (rank : Fin worldSize.toNat) : List Nat × List α :=
  ((batch.sendCounts rank).map (· * batch.tail.prod), batch.data rank)

theorem packet_count (source rank : Fin worldSize.toNat) :
    (batch.packet source).1.getD rank 0 = batch.counts source rank * batch.tail.prod := by
  rw [packet, List.getD_eq_getElem?_getD, List.getElem?_map, batch.sendCounts_at]
  rfl

/-- The exchange delivers the rows for each rank. -/
theorem deliver_packets (rank : Fin worldSize.toNat) :
    deliver batch.packet rank =
      ((batch.receiveCounts rank).map (· * batch.tail.prod), batch.received rank) := by
  unfold deliver
  congr 1
  · rw [receiveCounts, List.map_ofFn]
    congr 1
    funext source
    exact batch.packet_count source rank
  · unfold received
    congr 2
    funext source
    rw [batch.packet_count, packet, before_map_mul]
    rfl

variable {checksum : List UInt8 → UInt32} {uniqueId : UniqueId} {lost : NetworkError}

theorem meet_packets (packets : Fin worldSize.toNat → List Nat × List α)
    (rank : Fin worldSize.toNat) :
    (meet checksum uniqueId lost (fun member => .packet (packets member).1 (packets member).2)
      rank).rows = .ok (deliver packets rank) := by
  simp only [meet, RowMessage.packet?, everywhere_some]

theorem length_sendCounts (rank : Fin worldSize.toNat) :
    (batch.sendCounts rank).length = worldSize.toNat :=
  List.length_ofFn

theorem length_receiveCounts (rank : Fin worldSize.toNat) :
    (batch.receiveCounts rank).length = worldSize.toNat :=
  List.length_ofFn

theorem plan_eq (rank : Fin worldSize.toNat) :
    RowExchangePlan.new (batch.tensor rank).shape (batch.sendCounts rank) worldSize.toNat =
      .ok ⟨(batch.tensor rank).shape, batch.tail.prod,
        (batch.sendCounts rank).sum * batch.tail.prod,
        (batch.packet rank).1⟩ := by
  obtain ⟨elements, rows⟩ := batch.words_fit (batch.sendTotal_fits rank)
  have positive : worldSize.toNat ≠ 0 := by
    have inside := rank.isLt
    omega
  have product : checkedMul (batch.sendCounts rank).sum batch.tail.prod =
      some ((batch.sendCounts rank).sum * batch.tail.prod) :=
    (checkedMul_eq_some_iff ..).mpr ⟨elements, rfl⟩
  have counts : checkedSum (batch.sendCounts rank) =
      some (batch.sendCounts rank).sum := checkedSum_of_lt rows
  simp only [RowExchangePlan.new, tensor, rejectIf, reduceCtorEq,
    false_or, positive, batch.length_sendCounts, ne_eq, not_true_eq_false,
    if_false, ok_bind, counts, okOr_some, List.head?_cons, List.tail_cons,
    rowElementsOf_eq batch.rowNonempty batch.rowFits, product,
    mapM_checkedMul elements, packet]

theorem planRows_eq (rank : Fin worldSize.toNat) :
    planRows (sessionOf uniqueId rank) (batch.device rank)
        (batch.tensor rank) (batch.sendCounts rank) =
      .ok (⟨(batch.tensor rank).shape, batch.tail.prod,
          (batch.sendCounts rank).sum * batch.tail.prod,
          (batch.packet rank).1⟩, batch.data rank,
        batch.elementType.byteWidth) := by
  have flat : (batch.tensor rank).data.length =
      [(batch.sendCounts rank).sum * batch.tail.prod].prod := by
    rw [List.prod_singleton]
    exact batch.sized rank
  have dtype : (batch.tensor rank).dtype = batch.dtype := rfl
  have device : (batch.tensor rank).device = batch.device rank := rfl
  have world : (sessionOf uniqueId rank).worldSize = worldSize := rfl
  simp only [planRows, dtype, batch.native, ok_bind, device, rejectIf, ne_eq,
    not_true_eq_false, if_false, world, batch.plan_eq rank,
    checkedLength_eq (batch.sendTotal_fits rank), NativeTensor.reshape,
    dif_pos flat]
  rfl

theorem allToAllV_lockstep :
    Lockstep (meet checksum uniqueId lost)
      (fun rank => allToAllV (sessionOf uniqueId rank) (batch.data rank) (batch.packet rank).1)
      [fun rank => .packet (batch.packet rank).1 (batch.packet rank).2]
      (fun rank => .ok (if (batch.receiveCounts rank).sum *
          batch.tail.prod = 0 then none else some (batch.received rank),
        (batch.receiveCounts rank).map (· * batch.tail.prod))) := by
  have checks (rank : Fin worldSize.toNat) :
      allToAllV (sessionOf uniqueId rank) (batch.data rank) (batch.packet rank).1 =
      .ask (.packet (batch.packet rank).1 (batch.packet rank).2)
        fun answer => .done (do
          let received ← fromNetwork answer.rows
          let outputLength ← okOr (checkedSum received.1)
            (.rank (.overflow "TCP all-to-all-v receive count"))
          .ok (if outputLength = 0 then none else some received.2, received.1)) := by
    have length : (batch.packet rank).1.length = worldSize.toNat := by
      rw [packet, List.length_map, batch.length_sendCounts]
    have total : (batch.packet rank).1.sum = (batch.data rank).length := by
      rw [packet, sum_map_mul]
      exact (batch.sized rank).symm
    have summed : checkedSum (batch.packet rank).1 = some (batch.data rank).length := by
      rw [← total]
      apply checkedSum_of_lt
      rw [packet, sum_map_mul]
      exact (batch.words_fit (batch.sendTotal_fits rank)).1
    have world : (sessionOf uniqueId rank).worldSize = worldSize := rfl
    unfold allToAllV
    simp only [world, length, rejectIf, ne_eq, not_true_eq_false, if_false,
      ok_bind, summed, okOr_some, Dialogue.attempt]
    rfl
  rw [funext checks]
  refine .ask ?_
  have answers (rank : Fin worldSize.toNat) :
      (do
        let received ← fromNetwork (meet checksum uniqueId lost
          (fun member => .packet (batch.packet member).1 (batch.packet member).2) rank).rows
        let outputLength ← okOr (checkedSum received.1)
          (.rank (.overflow "TCP all-to-all-v receive count"))
        .ok (if outputLength = 0 then none else some received.2,
          received.1) : Except DeviceError (Option (List α) × List Nat)) =
      .ok (if (batch.receiveCounts rank).sum * batch.tail.prod = 0 then none
          else some (batch.received rank),
        (batch.receiveCounts rank).map (· * batch.tail.prod)) := by
    have summed : checkedSum ((batch.receiveCounts rank).map (· * batch.tail.prod)) =
        some ((batch.receiveCounts rank).sum * batch.tail.prod) := by
      rw [← sum_map_mul]
      apply checkedSum_of_lt
      rw [sum_map_mul]
      exact (batch.words_fit (batch.receiveTotal_fits rank)).1
    rw [meet_packets, batch.deliver_packets]
    simp only [fromNetwork, ok_bind, summed, okOr_some]
  rw [← funext answers]
  exact .done _

theorem receive_eq (rank : Fin worldSize.toNat) {plan : RowExchangePlan}
    (shape : plan.shape = (batch.tensor rank).shape)
    (rowElements : plan.rowElements = batch.tail.prod) :
    plan.receive ((batch.receiveCounts rank).map (· * batch.tail.prod)) worldSize.toNat =
      .ok ((batch.output rank).shape, batch.receiveCounts rank,
        (batch.receiveCounts rank).sum * batch.tail.prod) := by
  have positive := Nat.pos_of_ne_zero batch.rowNonempty
  have whole : ¬((batch.receiveCounts rank).map
      (· * batch.tail.prod)).length ≠ worldSize.toNat := by
    rw [List.length_map, batch.length_receiveCounts]
    exact not_not.mpr rfl
  have multiples : ¬∃ count ∈ (batch.receiveCounts rank).map
      (· * batch.tail.prod), count % batch.tail.prod ≠ 0 := by
    intro odd
    obtain ⟨count, member, remainder⟩ := odd
    obtain ⟨rows, _, rfl⟩ := List.mem_map.mp member
    exact remainder (Nat.mul_mod_left rows _)
  have summed : checkedSum ((batch.receiveCounts rank).map (· * batch.tail.prod)) =
      some ((batch.receiveCounts rank).sum * batch.tail.prod) := by
    rw [← sum_map_mul]
    apply checkedSum_of_lt
    rw [sum_map_mul]
    exact (batch.words_fit (batch.receiveTotal_fits rank)).1
  simp only [RowExchangePlan.receive, rejectIf, rowElements,
    if_neg (not_or.mpr ⟨whole, multiples⟩), ok_bind, summed, okOr_some,
    shape, List.map_map, Function.comp_def, List.map_id',
    Nat.mul_div_cancel _ positive]
  rfl

theorem finishRows_eq (rank : Fin worldSize.toNat) {plan : RowExchangePlan}
    (shape : plan.shape = (batch.tensor rank).shape)
    (rowElements : plan.rowElements = batch.tail.prod) :
    finishRows (sessionOf uniqueId rank) (batch.device rank)
        (batch.tensor rank) plan batch.elementType.byteWidth
        (.ok (if (batch.receiveCounts rank).sum * batch.tail.prod = 0
            then none else some (batch.received rank),
          (batch.receiveCounts rank).map (· * batch.tail.prod))) =
      .ok (batch.output rank, batch.receiveCounts rank) := by
  have length := batch.length_received rank
  have values : receivedValues (batch.tensor rank).dtype.kind
      (if (batch.receiveCounts rank).sum * batch.tail.prod = 0 then none
        else some (batch.received rank))
      ((batch.receiveCounts rank).sum * batch.tail.prod) =
      .ok (batch.received rank) := by
    by_cases empty : (batch.receiveCounts rank).sum * batch.tail.prod = 0
    · rw [if_pos empty, receivedValues, if_pos empty]
      rw [empty] at length
      rw [List.length_eq_zero_iff.mp length]
    · rw [if_neg empty, receivedValues]
  have flat : (batch.received rank).length =
      [(batch.receiveCounts rank).sum * batch.tail.prod].prod := by
    rw [List.prod_singleton]
    exact length
  have shaped : (batch.received rank).length =
      (batch.output rank).shape.prod := (batch.output rank).sized
  have world : (sessionOf uniqueId rank).worldSize = worldSize := rfl
  simp only [finishRows, fromCollective, ok_bind, world, batch.receive_eq rank shape rowElements,
    checkedLength_eq (batch.receiveTotal_fits rank), values, dif_pos flat,
    NativeTensor.reshape, dif_pos shaped]
  rfl

/-- Every rank gets the rows for it. -/
theorem exchangeRows_lockstep :
    Lockstep (meet checksum uniqueId lost)
      (fun rank => exchangeRows (sessionOf uniqueId rank)
        (batch.device rank) (batch.tensor rank) (batch.sendCounts rank))
      [fun rank => .packet (batch.packet rank).1 (batch.packet rank).2]
      (fun rank => .ok (batch.output rank, batch.receiveCounts rank)) := by
  have plans (rank : Fin worldSize.toNat) :
      exchangeRows (sessionOf uniqueId rank) (batch.device rank)
        (batch.tensor rank) (batch.sendCounts rank) =
      (allToAllV (sessionOf uniqueId rank) (batch.data rank)
        (batch.packet rank).1).bind fun answer => .done (finishRows
          (sessionOf uniqueId rank) (batch.device rank) (batch.tensor rank)
          ⟨(batch.tensor rank).shape, batch.tail.prod,
            (batch.sendCounts rank).sum * batch.tail.prod,
            (batch.packet rank).1⟩ batch.elementType.byteWidth answer) := by
    rw [exchangeRows, batch.planRows_eq rank]
    rfl
  rw [funext plans, ← funext fun rank =>
    @finishRows_eq α worldSize batch uniqueId rank
      ⟨(batch.tensor rank).shape, batch.tail.prod, (batch.sendCounts rank).sum * batch.tail.prod,
        (batch.packet rank).1⟩ rfl rfl]
  exact batch.allToAllV_lockstep.bind (.done _)

end RowBatch

end RuCCL.Tensor
