import RuCCL.InProcess.RingSteps

/-!
# In-process collectives give the reference results
-/

namespace RuCCL.InProcess

open RuCCL.Library
open RuCCL.Rank (CollectiveStats)
open RuCCL.Tensor (TensorElement)

variable {T : Type} [TensorElement T]

omit [TensorElement T] in
theorem validateBuffer_eq_ok {collective : InProcessCollective T} {buffer : DistributedBuffer T}
    (belongs : buffer.communicatorId = collective.id)
    (ranks : buffer.buffers.length = collective.worldSize) :
    collective.validateBuffer buffer = .ok () := by
  rw [InProcessCollective.validateBuffer, rejectIf, if_neg]
  rintro (foreign | missing)
  · exact foreign belongs
  · exact missing ranks

theorem ringChunks_eq_ok (length : Nat) {size : Nat} (positive : 0 < size) :
    ringChunks length size =
      .ok (ranked fun slot : ZMod size =>
        slotSpan (balancedOffset length size) slot) := by
  rw [← Rank.balancedRanges_eq_ranked, ringChunks, rejectIf, if_neg (by omega)]
  rfl

theorem lengthU32_eq_ok {length : Nat} (bounded : length < 2 ^ 32) :
    lengthU32 length = .ok length := by
  rw [lengthU32, rejectIf, if_neg (by omega)]
  rfl

theorem transferredBytes_eq_ok {transfers elements elementBytes : Nat}
    (positive : 0 < elementBytes)
    (fits : transfers * elements * elementBytes < wordSize) :
    transferredBytes transfers elements elementBytes =
      .ok (transfers * elements * elementBytes) := by
  have partly : transfers * elements ≤
      transfers * elements * elementBytes := Nat.le_mul_of_pos_right _ positive
  have first : checkedMul transfers elements = some (transfers * elements) :=
    (checkedMul_eq_some_iff ..).mpr ⟨by omega, rfl⟩
  have second : checkedMul (transfers * elements) elementBytes =
      some (transfers * elements * elementBytes) :=
    (checkedMul_eq_some_iff ..).mpr ⟨fits, rfl⟩
  rw [transferredBytes, first, Option.bind_some, second]
  rfl

theorem saturated_eq_ok {transfers elements elementBytes : Nat} (positive : 0 < elementBytes)
    (fits : transfers * elements * elementBytes < wordSize) :
    transferredBytes (min transfers (wordSize - 1)) elements
      elementBytes = .ok (transfers * elements * elementBytes) := by
  by_cases empty : elements = 0
  · rw [empty, transferredBytes_eq_ok positive (by simp [wordSize])]
    simp
  · have most : transfers * 1 ≤ transfers * (elements * elementBytes) :=
      Nat.mul_le_mul_left transfers (Nat.mul_pos (Nat.pos_of_ne_zero empty) positive)
    rw [← Nat.mul_assoc] at most
    rw [Nat.min_eq_left (by omega), transferredBytes_eq_ok positive fits]

theorem transferredBytes_eq {transfers elements elementBytes bytes : Nat}
    (counted : transferredBytes transfers elements elementBytes = .ok bytes) :
    bytes = transfers * elements * elementBytes := by
  rw [transferredBytes, okOr_eq_ok_iff, Option.bind_eq_some_iff] at counted
  obtain ⟨partly, first, second⟩ := counted
  rw [checkedMul_eq_some_iff] at first second
  rw [second.2, first.2]

theorem le_foldl_max {values : List Nat} {value start : Nat} (member : value ∈ values) :
    value ≤ values.foldl max start := by
  induction values generalizing start with
  | nil => cases member
  | cons head tail ih =>
      have grows (start : Nat) (rest : List Nat) : start ≤ rest.foldl max start := by
        induction rest generalizing start with
        | nil => exact le_rfl
        | cons next later hypothesis => exact (le_max_left start next).trans (hypothesis _)
      rcases List.mem_cons.mp member with same | later
      · rw [same, List.foldl_cons]
        exact (le_max_right start head).trans (grows _ _)
      · exact ih later

theorem foldl_max_le {values : List Nat} {start bound : Nat} (starts : start ≤ bound)
    (bounded : ∀ value ∈ values, value ≤ bound) :
    values.foldl max start ≤ bound := by
  induction values generalizing start with
  | nil => exact starts
  | cons head tail ih =>
      refine ih (max_le starts (bounded head List.mem_cons_self)) ?_
      intro value member
      exact bounded value (List.mem_cons_of_mem head member)

omit [TensorElement T] in
theorem elementwise_single (op : T → T → T) {buffer : DistributedBuffer T}
    (single : buffer.buffers.length = 1) :
    ∀ values ∈ buffer.values, values.map some =
      elementwise op buffer.values buffer.lengthPerRank := by
  obtain ⟨only, alone⟩ := List.length_eq_one_iff.mp single
  intro values member
  rw [DistributedBuffer.values, alone, List.map_singleton, List.mem_singleton] at member
  rw [member, DistributedBuffer.values]
  refine map_some_eq_elementwise op buffer.buffers only ?_
  intro element
  rw [alone]
  rfl

theorem chunk_le_maxChunk {size : Nat} [NeZero size] (offset : Nat → Nat) (slot : ZMod size) :
    (slotSpan offset slot).length ≤
      maxChunk (ranked fun slot : ZMod size => slotSpan offset slot) := by
  refine le_foldl_max ?_
  rw [map_ranked]
  exact List.mem_map.mpr ⟨slot.val, List.mem_range.mpr (ZMod.val_lt slot),
    by rw [ZMod.natCast_zmod_val]⟩

theorem maxChunk_le {size length : Nat} [NeZero size] {offset : Nat → Nat}
    (cut : Cut offset size length) :
    maxChunk (ranked fun slot : ZMod size => slotSpan offset slot) ≤
      length := by
  refine foldl_max_le (Nat.zero_le _) ?_
  intro value member
  rw [map_ranked] at member
  obtain ⟨rank, _, same⟩ := List.mem_map.mp member
  have inside := slotSpan_stop_le cut (rank : ZMod size)
  rw [← same]
  simp only [Span.length]
  omega

theorem allReduceSum_spec {collective : InProcessCollective T} {buffer : DistributedBuffer T}
    (kernel : T → T → T) [Std.Associative kernel] [Std.Commutative kernel]
    (positive : 0 < collective.worldSize)
    (belongs : buffer.communicatorId = collective.id)
    (ranks : buffer.buffers.length = collective.worldSize)
    (bounded : buffer.lengthPerRank < 2 ^ 32)
    (fits : 2 * (collective.worldSize - 1) * buffer.lengthPerRank *
      TensorElement.elementSize T < wordSize) :
    ∃ outcome, collective.allReduceSum buffer kernel = .ok outcome ∧
      outcome.result.values.length = collective.worldSize ∧
      (∀ values ∈ outcome.result.values, values.map some =
        elementwise kernel buffer.values buffer.lengthPerRank) ∧
      outcome.stats.transferredBytes =
        stagedBytes (TensorElement.elementSize T) outcome.transfers := by
  have validated := validateBuffer_eq_ok belongs ranks
  by_cases single : collective.worldSize = 1
  · refine ⟨⟨buffer, .new .ring, []⟩, ?_, ?_, ?_, rfl⟩
    · simp [InProcessCollective.allReduceSum, validated, single]
    · simp [DistributedBuffer.values, ranks]
    · exact elementwise_single kernel (ranks.trans single)
  have present : NeZero collective.worldSize := ⟨by omega⟩
  obtain ⟨values, held⟩ := exists_ranked ranks
  have cut := Cut.balanced buffer.lengthPerRank positive
  have small := maxChunk_le cut
  have capacity : max (maxChunk
      (ranked fun slot : ZMod collective.worldSize =>
        slotSpan (balancedOffset buffer.lengthPerRank
          collective.worldSize) slot)) 1 < 2 ^ 32 := by
    omega
  obtain ⟨scratch, allocated, scratched⟩ := mapM_alloc collective.contexts (small_fits capacity)
  have initial : (⟨buffer.buffers, scratch, 0, 0, []⟩ :
      RingState T _ _).buffers = ranked values := held
  obtain ⟨reduced, reducePhase, reducedBuffers, -, reducedBytes⟩ :=
    reducePhase_spec cut (by unfold wordSize; omega)
      (fun slot => (chunk_le_maxChunk _ slot).trans (le_max_left _ 1)) (by unfold wordSize; omega)
      (fun before slot source _ => copyToDeviceAt_eq_ok before (by
        rw [Nat.zero_add, length_readAt (slotSpan_stop_le cut slot)]
        exact (chunk_le_maxChunk _ slot).trans (le_max_left _ 1)) (by unfold wordSize; omega))
      kernel (TensorElement.elementSize T) initial scratched
  obtain ⟨gathered, gatherPhase, gatheredBuffers, gatheredBytes⟩ :=
    gatherPhase_spec cut (by unfold wordSize; omega)
      (TensorElement.elementSize T) reducedBuffers
  have counted := transferredBytes_eq_ok (TensorElement.positive (T := T)) fits
  have ran : collective.allReduceSum buffer kernel = .ok
      ⟨{ buffer with buffers := gathered.buffers },
        { CollectiveStats.new .ring with
          steps := gathered.steps
          reductionKernelLaunches := gathered.launches
          transferredBytes := 2 * (collective.worldSize - 1) *
            buffer.lengthPerRank * TensorElement.elementSize T },
        gathered.transfers⟩ := by
    rw [InProcessCollective.allReduceSum, validated, ok_bind, if_neg single,
      lengthU32_eq_ok bounded, ok_bind, ringChunks_eq_ok _ positive, ok_bind,
      allocated, ok_bind]
    simp only [reducePhase, ok_bind, gatherPhase, counted]
    rfl
  refine ⟨_, ran, ?_, ?_, ?_⟩
  · simp [DistributedBuffer.values, gatheredBuffers]
  · intro result member
    simp only [DistributedBuffer.values, gatheredBuffers, map_ranked] at member
    obtain ⟨rank, -, same⟩ := List.mem_map.mp member
    rw [← same]
    refine map_some_eq_elementwise kernel buffer.buffers _ ?_
    intro element
    rw [held, map_ranked, gatheredTo]
    have total := spreading_reducing kernel (values · element)
      (slotAt (balancedOffset buffer.lengthPerRank collective.worldSize)
        element) (-1) (rank : ZMod collective.worldSize)
    rw [neg_add_cancel] at total
    exact (reduceAll_ranked kernel (values · element) _).trans (congrArg some total.symm)
  · simp only [gatheredBytes, reducedBytes]
    simp only [stagedBytes, List.filter_nil, List.map_nil, List.sum_nil]
    ring

omit [TensorElement T] in
theorem downloadRank_eq_ok {collective : InProcessCollective T} {buffer : DistributedBuffer T}
    (belongs : buffer.communicatorId = collective.id)
    (ranks : buffer.buffers.length = collective.worldSize)
    (addressable : buffer.lengthPerRank < wordSize)
    {rank : Nat} {found : Buffer T buffer.lengthPerRank}
    (present : buffer.buffers[rank]? = some found) :
    collective.downloadRank buffer rank = .ok (List.ofFn found) := by
  have within : rank < collective.contexts.length := by
    have inside := (List.getElem?_eq_some_iff.mp present).1
    rw [ranks] at inside
    exact inside
  have context : collective.context rank = .ok (collective.contexts.get ⟨rank, within⟩) := by
    rw [InProcessCollective.context, List.getElem?_eq_getElem within]
    rfl
  rw [InProcessCollective.downloadRank,
    validateBuffer_eq_ok belongs ranks, ok_bind, context, ok_bind, present]
  exact copyFromDevice_eq_ok found addressable

theorem allocate_spec (collective : InProcessCollective T) {length : Nat}
    (fits : length * TensorElement.elementSize T ≤ isizeMax) :
    ∃ buffers : List (Buffer T length),
      collective.allocate length = .ok ⟨collective.id, length, buffers⟩ ∧
      buffers.length = collective.worldSize := by
  obtain ⟨buffers, allocated, counted⟩ := mapM_alloc collective.contexts fits
  refine ⟨buffers, ?_, counted⟩
  rw [InProcessCollective.allocate, allocated]
  rfl

omit [TensorElement T] in
theorem workingCopies_eq_ok {collective : InProcessCollective T} {input : DistributedBuffer T}
    (belongs : input.communicatorId = collective.id)
    {values fresh : ZMod collective.worldSize → Buffer T input.lengthPerRank}
    (held : input.buffers = ranked values)
    (addressable : input.lengthPerRank < wordSize)
    {working : List (Buffer T input.lengthPerRank)}
    (empty : working = ranked fresh) :
    collective.workingCopies input working = .ok (ranked values) := by
  have ranks : input.buffers.length = collective.worldSize := by
    rw [held, length_ranked]
  refine mapM_range_eq_ranked values ?_
  intro rank within
  have download := downloadRank_eq_ok belongs ranks addressable
    (held ▸ getElem?_ranked values within)
  rw [download, ok_bind, empty, indexAt_ranked fresh within, ok_bind,
    copyToDevice_eq_ok _ List.length_ofFn addressable,
    mergeAt_overwrite_ofFn]

omit [TensorElement T] in
theorem ownChunks_eq_ok {size length shard : Nat} [NeZero size] {offset : Nat → Nat}
    (cut : Cut offset size length) (addressable : length < wordSize)
    (equal : ∀ slot : ZMod size, (slotSpan offset slot).length = shard)
    (values : ZMod size → Buffer T length)
    (outputs : ZMod size → Buffer T shard) :
    InProcessCollective.ownChunks (ranked fun slot : ZMod size => slotSpan offset slot)
      (ranked values) (ranked outputs) =
      .ok (ranked fun position : ZMod size =>
        mergeAt overwrite 0 (readAt (slotSpan offset position) (values position))
          (outputs position)) := by
  rw [InProcessCollective.ownChunks, mapM_eq_ok_iff, zipIdx_ranked, List.map_map, map_ranked]
  refine List.map_congr_left ?_
  intro rank member
  have within := List.mem_range.mp member
  have sent := @length_readAt _ _ _ (values (rank : ZMod size))
    (slotSpan_stop_le cut (rank : ZMod size))
  have short : shard ≤ length := by
    have inside := slotSpan_stop_le cut (rank : ZMod size)
    rw [← equal (rank : ZMod size)]
    unfold Span.length
    omega
  simp only [Function.comp_apply]
  rw [indexAt_ranked values within, ok_bind, copyFromDeviceAt_slot cut addressable, ok_bind,
    indexAt_ranked outputs within, ok_bind,
    copyToDevice_eq_ok _ (sent.trans (equal _)) (lt_of_le_of_lt short addressable)]

theorem reduceScatterSum_spec {collective : InProcessCollective T} {input : DistributedBuffer T}
    (kernel : T → T → T) [Std.Associative kernel] [Std.Commutative kernel]
    (positive : 0 < collective.worldSize)
    (belongs : input.communicatorId = collective.id)
    (ranks : input.buffers.length = collective.worldSize)
    (bounded : input.lengthPerRank < 2 ^ 32)
    (divisible : collective.worldSize ∣ input.lengthPerRank)
    (fits : (collective.worldSize - 1) * input.lengthPerRank *
      TensorElement.elementSize T < wordSize) :
    ∃ outcome, collective.reduceScatterSum input kernel = .ok outcome ∧
      outcome.result.values.length = collective.worldSize ∧
      (∀ rank values, outcome.result.values[rank]? = some values → values.map some =
          ((elementwise kernel input.values input.lengthPerRank).drop
            (rank * (input.lengthPerRank / collective.worldSize))).take
            (input.lengthPerRank / collective.worldSize)) ∧
      outcome.stats.transferredBytes =
        stagedBytes (TensorElement.elementSize T) outcome.transfers := by
  have validated := validateBuffer_eq_ok belongs ranks
  have present : NeZero collective.worldSize := ⟨by omega⟩
  obtain ⟨values, held⟩ := exists_ranked ranks
  have cut := Cut.balanced input.lengthPerRank positive
  have wide : input.lengthPerRank < wordSize := by
    unfold wordSize
    omega
  have shorter : input.lengthPerRank / collective.worldSize ≤
      input.lengthPerRank := Nat.div_le_self _ _
  have shard (slot : ZMod collective.worldSize) :
      (slotSpan (balancedOffset input.lengthPerRank collective.worldSize)
        slot).length = input.lengthPerRank / collective.worldSize := by
    rw [balancedOffset_of_dvd divisible]
    simp only [slotSpan, Span.length, Nat.succ_mul, Nat.add_sub_cancel_left]
  obtain ⟨empty, allocated, emptied⟩ := allocate_spec collective (small_fits bounded)
  obtain ⟨fresh, freshly⟩ := exists_ranked emptied
  have copied := workingCopies_eq_ok belongs held wide freshly
  obtain ⟨scratch, scratchAllocated, scratched⟩ :=
    mapM_alloc collective.contexts (small_fits (lt_of_le_of_lt shorter bounded))
  have initial : (⟨ranked values, scratch, 0, 0, []⟩ :
      RingState T _ _).buffers = ranked values := rfl
  obtain ⟨reduced, reducePhase, reducedBuffers, -, reducedBytes⟩ :=
    reducePhase_spec cut wide (fun slot => (shard slot).le) (lt_of_le_of_lt shorter wide)
      (fun before slot source _ => copyToDevice_eq_ok before
        ((length_readAt (slotSpan_stop_le cut slot)).trans (shard slot))
        (lt_of_le_of_lt shorter wide))
      kernel (TensorElement.elementSize T) initial scratched
  obtain ⟨blank, outputAllocated, blanks⟩ :=
    allocate_spec collective (small_fits (lt_of_le_of_lt shorter bounded))
  obtain ⟨outputs, outputsRanked⟩ := exists_ranked blanks
  have owned := ownChunks_eq_ok cut wide shard
    (reducedTo (balancedOffset input.lengthPerRank collective.worldSize)
      kernel values (collective.worldSize - 1)) outputs
  rw [← reducedBuffers, ← outputsRanked] at owned
  have counted := transferredBytes_eq_ok (TensorElement.positive (T := T)) fits
  have ran : collective.reduceScatterSum input kernel = .ok
      ⟨⟨collective.id, input.lengthPerRank / collective.worldSize,
          ranked fun position => mergeAt overwrite 0
            (readAt (slotSpan (balancedOffset input.lengthPerRank collective.worldSize) position)
              (reducedTo (balancedOffset input.lengthPerRank collective.worldSize) kernel values
                (collective.worldSize - 1) position))
            (outputs position)⟩,
        { CollectiveStats.new .ring with
          steps := reduced.steps
          reductionKernelLaunches := reduced.launches
          transferredBytes := (collective.worldSize - 1) *
            input.lengthPerRank * TensorElement.elementSize T },
        reduced.transfers⟩ := by
    have accepted (error : CollectiveError) :
        rejectIf (¬collective.worldSize ∣ input.lengthPerRank) error = .ok () :=
      (rejectIf_eq_ok_iff ..).mpr (not_not.mpr divisible)
    simp only [InProcessCollective.reduceScatterSum, validated, ok_bind,
      accepted, lengthU32_eq_ok bounded, ringChunks_eq_ok _ positive,
      allocated, copied, scratchAllocated, reducePhase, outputAllocated,
      owned, counted]
    rfl
  refine ⟨_, ran, ?_, ?_, ?_⟩
  · simp [DistributedBuffer.values]
  · intro rank result present
    simp only [DistributedBuffer.values, map_ranked] at present
    have within : rank < collective.worldSize := by
      have inside := (List.getElem?_eq_some_iff.mp present).1
      rwa [length_ranked] at inside
    rw [getElem?_ranked _ within, Option.some.injEq] at present
    rw [← present, ofFn_mergeAt_overwrite _
      ((length_readAt (slotSpan_stop_le cut _)).trans (shard _)),
      readAt_reducedTo cut kernel values, ← held, shard, slotSpan,
      balancedOffset_of_dvd divisible, ZMod.val_cast_of_lt within,
      DistributedBuffer.values]
  · simp only [reducedBytes]
    simp only [stagedBytes, List.filter_nil, List.map_nil, List.sum_nil]
    ring

/-- The output of a rank that has its own input in place. -/
def placedRank {size shard length : Nat} (values : ZMod size → Buffer T shard)
    (fresh : ZMod size → Buffer T length) (position : ZMod size) :
    Buffer T length × Transfer :=
  (mergeAt overwrite (position.val * shard) (List.ofFn (values position))
    (fresh position), ⟨position.val, position.val, shard⟩)

omit [TensorElement T] in
theorem ownShards_eq_ok {collective : InProcessCollective T} {input : DistributedBuffer T}
    {length : Nat} (belongs : input.communicatorId = collective.id)
    {values : ZMod collective.worldSize → Buffer T input.lengthPerRank}
    {fresh : ZMod collective.worldSize → Buffer T length}
    (held : input.buffers = ranked values)
    (whole : length = input.lengthPerRank * collective.worldSize)
    (positive : 0 < collective.worldSize)
    (addressable : length < wordSize) :
    collective.ownShards input (ranked fresh) = .ok (ranked (placedRank values fresh)) := by
  have ranks : input.buffers.length = collective.worldSize := by
    rw [held, length_ranked]
  have short : input.lengthPerRank ≤ length := by
    rw [whole]
    exact Nat.le_mul_of_pos_right _ positive
  refine mapM_range_eq_ranked _ ?_
  intro rank within
  have download := downloadRank_eq_ok belongs ranks (lt_of_le_of_lt short addressable)
    (held ▸ getElem?_ranked values within)
  have inside : rank * input.lengthPerRank + input.lengthPerRank ≤
      length := by
    rw [whole, Nat.mul_comm input.lengthPerRank, ← Nat.succ_mul]
    exact Nat.mul_le_mul_right _ within
  rw [download, ok_bind, indexAt_ranked fresh within, ok_bind,
    copyToDeviceAt_eq_ok _ (by rwa [List.length_ofFn]) addressable,
    ok_bind, List.length_ofFn, placedRank, ZMod.val_cast_of_lt within]
  rfl

theorem stagedBytes_local {size : Nat} (elementSize : Nat) (transfer : ZMod size → Transfer)
    (remains : ∀ position, (transfer position).source = (transfer position).destination) :
    stagedBytes elementSize (ranked transfer) = 0 := by
  have none : (ranked transfer).filter (fun entry =>
      entry.source ≠ entry.destination) = [] := by
    rw [List.filter_eq_nil_iff]
    intro entry member
    obtain ⟨rank, -, same⟩ := List.mem_map.mp member
    simp [← same, remains]
  rw [stagedBytes, none]
  rfl

omit [TensorElement T] in
/-- After all steps every rank has the inputs in rank order. -/
theorem ofFn_gatheredTo {size shard length : Nat} [NeZero size]
    (cut : Cut (fun slot => slot * shard) size length)
    (values : ZMod size → Buffer T shard)
    (fresh : ZMod size → Buffer T length) (position : ZMod size) :
    List.ofFn (gatheredTo (fun slot => slot * shard) (fun owner =>
      (placedRank values fresh owner).1) (size - 1) position) =
      ((ranked values).map List.ofFn).flatten := by
  rw [ofFn_eq_flatten cut, map_ranked]
  refine congrArg List.flatten (List.map_congr_left ?_)
  intro rank member
  have within := List.mem_range.mp member
  have owner : ((rank : Nat) : ZMod size).val = rank := ZMod.val_cast_of_lt within
  have agree : readAt ⟨rank * shard, (rank + 1) * shard⟩
      (gatheredTo (fun slot => slot * shard) (fun owner =>
        (placedRank values fresh owner).1) (size - 1) position) =
      readAt ⟨rank * shard, (rank + 1) * shard⟩
        (mergeAt overwrite (rank * shard) (List.ofFn (values (rank : ZMod size)))
          (fresh (rank : ZMod size))) := by
    refine readAt_congr fun element covered => ?_
    have slot : (slotAt (fun slot => slot * shard) element : ZMod size) = (rank : ZMod size) := by
      rw [← slotSpan_covers_iff cut, slotSpan, owner]
      exact covered
    rw [gatheredTo, spreading_last, slot, sub_zero, placedRank, owner]
  have fits : rank * shard + (List.ofFn (values (rank : ZMod size))).length ≤ length := by
    rw [List.length_ofFn, ← Nat.succ_mul, ← cut.whole]
    exact Nat.mul_le_mul_right shard within
  have back := readAt_mergeAt_overwrite (fresh (rank : ZMod size)) fits
  rw [List.length_ofFn, ← Nat.succ_mul] at back
  exact agree.trans back

theorem allGather_spec {collective : InProcessCollective T} {input : DistributedBuffer T}
    (positive : 0 < collective.worldSize)
    (belongs : input.communicatorId = collective.id)
    (ranks : input.buffers.length = collective.worldSize)
    (allocatable : input.lengthPerRank * collective.worldSize *
      TensorElement.elementSize T ≤ isizeMax)
    {bytes : Nat}
    (counted : transferredBytes (min (collective.worldSize *
      (collective.worldSize - 1)) (wordSize - 1)) input.lengthPerRank
      (TensorElement.elementSize T) = .ok bytes) :
    ∃ outcome, collective.allGather input = .ok outcome ∧
      outcome.result.values.length = collective.worldSize ∧
      (∀ values ∈ outcome.result.values, values = input.values.flatten) ∧
      outcome.stats.transferredBytes = bytes ∧
      stagedBytes (TensorElement.elementSize T) outcome.transfers =
        collective.worldSize * (collective.worldSize - 1) *
          input.lengthPerRank * TensorElement.elementSize T := by
  have validated := validateBuffer_eq_ok belongs ranks
  have present : NeZero collective.worldSize := ⟨by omega⟩
  obtain ⟨values, held⟩ := exists_ranked ranks
  have elements := TensorElement.positive (T := T)
  have wide : input.lengthPerRank * collective.worldSize < wordSize := by
    have partly := Nat.le_mul_of_pos_right (input.lengthPerRank * collective.worldSize) elements
    unfold isizeMax at allocatable
    unfold wordSize
    omega
  have cut : Cut (fun slot => slot * input.lengthPerRank)
      collective.worldSize (input.lengthPerRank * collective.worldSize) :=
    Nat.mul_comm input.lengthPerRank collective.worldSize ▸
      Cut.equal input.lengthPerRank collective.worldSize
  have multiplied : checkedMul input.lengthPerRank collective.worldSize =
      some (input.lengthPerRank * collective.worldSize) :=
    (checkedMul_eq_some_iff ..).mpr ⟨wide, rfl⟩
  obtain ⟨empty, allocated, emptied⟩ := allocate_spec collective allocatable
  obtain ⟨fresh, freshly⟩ := exists_ranked emptied
  have placed := @ownShards_eq_ok _ _ _ _ belongs values fresh held rfl positive wide
  rw [← freshly] at placed
  have initial := map_ranked (placedRank values fresh) Prod.fst
  obtain ⟨gathered, gatherPhase, gatheredBuffers, gatheredBytes⟩ :=
    @allGatherPhase_spec _ _ _ _ _ cut wide (TensorElement.elementSize T)
      ((ranked (placedRank values fresh)).map Prod.fst,
        (ranked (placedRank values fresh)).map Prod.snd) _ initial
  have ran : collective.allGather input = .ok
      ⟨⟨collective.id, input.lengthPerRank * collective.worldSize, gathered.1⟩,
        { CollectiveStats.new .ring with
          steps := UInt32.ofNat (collective.worldSize - 1)
          transferredBytes := bytes }, gathered.2⟩ := by
    simp only [InProcessCollective.allGather, validated, ok_bind,
      multiplied, okOr_some, allocated, placed, gatherPhase, counted]
    rfl
  refine ⟨_, ran, ?_, ?_, rfl, ?_⟩
  · simp [DistributedBuffer.values, gatheredBuffers]
  · intro result member
    simp only [DistributedBuffer.values, gatheredBuffers, map_ranked] at member
    obtain ⟨rank, -, same⟩ := List.mem_map.mp member
    rw [← same, DistributedBuffer.values, held]
    exact ofFn_gatheredTo cut values fresh _
  · simp only [gatheredBytes, map_ranked]
    rw [stagedBytes_local _ _ fun _ => rfl]
    ring

/-- The destination has `arrived` in front, in a buffer for `total` elements. -/
def Filled (target : Destination T) (arrived : List T) (total : Nat) :
    Prop :=
  target.offset = arrived.length ∧
    match target.buffer with
    | none => total = 0
    | some buffer => buffer.length = total ∧
        (List.ofFn buffer.contents).take arrived.length = arrived

/-- What one source sends to one destination, from `offset` in its values on. -/
def shardFrom (values : List T) (offset : Nat) (counts : List Nat) (destination : Nat) : List T :=
  (values.drop (offset + (counts.take destination).sum)).take ((counts[destination]?).getD 0)

/-- The elements of a row that go to other ranks. -/
def remoteFrom (source : Nat) : Nat → List Nat → Nat
  | _, [] => 0
  | destination, count :: counts =>
      (if source = destination then 0 else count) + remoteFrom source (destination + 1) counts

/-- What a destination has received. -/
def Destination.values (target : Destination T) : List T :=
  match target.buffer with
  | none => []
  | some found => List.ofFn found.contents

omit [TensorElement T] in
/-- A destination that has received everything. -/
theorem Filled.values {target : Destination T} {arrived : List T} {total : Nat}
    (filled : Filled target arrived total)
    (all : arrived.length = total) : target.values = arrived := by
  obtain ⟨-, holds⟩ := filled
  unfold Destination.values
  cases found : target.buffer with
  | none =>
      rw [found] at holds
      simp only at holds
      exact (List.length_eq_zero_iff.mp (all.trans holds)).symm
  | some buffer =>
      rw [found] at holds
      simp only at holds
      obtain ⟨length, front⟩ := holds
      rwa [List.take_of_length_le (by simp [length, all])] at front

omit [TensorElement T] in
theorem Filled.write {target : Destination T} {arrived : List T} {total count : Nat}
    (filled : Filled target arrived total) {shard : List T}
    (sized : shard.length = count) (nonempty : count ≠ 0)
    (room : arrived.length + count ≤ total)
    (addressable : total < wordSize) :
    ∃ buffer contents, target.buffer = some buffer ∧
      copyToDeviceAt buffer.contents target.offset shard = .ok contents ∧
      Filled ⟨some ⟨buffer.length, contents⟩, arrived.length + count⟩
        (arrived ++ shard) total := by
  obtain ⟨placed, holds⟩ := filled
  cases found : target.buffer with
  | none =>
      rw [found] at holds
      simp only at holds
      omega
  | some buffer =>
      rw [found] at holds
      simp only at holds
      obtain ⟨length, front⟩ := holds
      have fits : arrived.length + shard.length ≤ buffer.length := by
        omega
      refine ⟨buffer, mergeAt overwrite arrived.length shard
        buffer.contents, rfl, ?_, ?_, length, ?_⟩
      · rw [placed]
        exact copyToDeviceAt_eq_ok _ fits (by omega)
      · rw [List.length_append, sized]
      · rw [List.length_append, take_mergeAt_overwrite _ fits, front]

omit [TensorElement T] in
theorem sendShard_spec (source destination elementSize : Nat) {values : List T}
    {offset count total : Nat} (inside : offset + count ≤ values.length)
    (addressable : values.length < wordSize)
    {target : Destination T} {arrived : List T}
    (filled : Filled target arrived total)
    (room : arrived.length + count ≤ total) (bounded : total < wordSize) :
    ∃ written transfers, sendShard source destination values offset count target =
        .ok (offset + count, written, transfers) ∧
      Filled written (arrived ++ (values.drop offset).take count) total ∧
      stagedBytes elementSize transfers =
        (if source = destination then 0 else count) * elementSize := by
  have shardLength : ((values.drop offset).take count).length = count := by
    rw [List.length_take, List.length_drop]
    omega
  have sendEnd : checkedAdd offset count = some (offset + count) :=
    (checkedAdd_eq_some_iff ..).mpr ⟨by omega, rfl⟩
  have receiveEnd : checkedAdd target.offset count = some (arrived.length + count) := by
    rw [filled.1]
    exact (checkedAdd_eq_some_iff ..).mpr ⟨by omega, rfl⟩
  by_cases empty : count = 0
  · refine ⟨⟨target.buffer, arrived.length + count⟩, [], ?_, ?_, ?_⟩
    · simp only [sendShard, sendEnd, receiveEnd, okOr_some, ok_bind,
        if_neg (not_not.mpr empty), pure_eq_ok]
    · rw [empty, List.take_zero, List.append_nil]
      exact ⟨rfl, filled.2⟩
    · simp [stagedBytes, empty]
  · obtain ⟨buffer, contents, found, copied, full⟩ := filled.write shardLength empty room bounded
    refine ⟨⟨some ⟨buffer.length, contents⟩, arrived.length + count⟩,
      [⟨source, destination, count⟩], ?_, full, ?_⟩
    · have accepted : rejectIf (values.length < offset + count) CollectiveError.panic = .ok () :=
        (rejectIf_eq_ok_iff ..).mpr (by omega)
      simp only [sendShard, sendEnd, receiveEnd, okOr_some, ok_bind, ne_eq,
        empty, not_false_eq_true, if_true, found, accepted,
        Nat.add_sub_cancel_left, copied, shardLength, pure_eq_ok]
    · by_cases own : source = destination
      · simp [stagedBytes, own]
      · simp [stagedBytes, own]

omit [TensorElement T] in
theorem sendRow_spec (source elementSize : Nat) {values : List T}
    (addressable : values.length < wordSize)
    (counts : List Nat) :
    ∀ (targets : List (Destination T)) (destination offset : Nat)
      (arrived : Nat → List T) (total : Nat → Nat),
      targets.length = counts.length →
      offset + counts.sum ≤ values.length →
      (∀ index count, counts[index]? = some count → (arrived index).length + count ≤ total index ∧
          total index < wordSize) →
      (∀ index target, targets[index]? = some target →
        Filled target (arrived index) (total index)) →
      ∃ after transfers, sendRow source values destination offset counts targets =
          .ok (after, transfers) ∧
        after.length = targets.length ∧
        (∀ index target, after[index]? = some target → Filled target
            (arrived index ++ shardFrom values offset counts index)
            (total index)) ∧
        stagedBytes elementSize transfers =
          remoteFrom source destination counts * elementSize := by
  induction counts with
  | nil =>
      intro targets destination offset arrived total same _ _ filled
      have none : targets = [] := List.length_eq_zero_iff.mp same
      subst none
      exact ⟨[], [], rfl, rfl, by simp, by simp [stagedBytes, remoteFrom]⟩
  | cons count counts ih =>
      intro targets destination offset arrived total same inside room filled
      cases targets with
      | nil => cases same
      | cons target targets =>
          rw [List.sum_cons] at inside
          have here := room 0 count rfl
          have now := filled 0 target rfl
          have first : shardFrom values offset (count :: counts) 0 =
              (values.drop offset).take count := by
            simp [shardFrom]
          have rest (index : Nat) :
              shardFrom values offset (count :: counts) (index + 1) =
                shardFrom values (offset + count) counts index := by
            simp [shardFrom, Nat.add_assoc]
          have shardLength : ((values.drop offset).take count).length = count := by
            rw [List.length_take, List.length_drop]
            omega
          obtain ⟨after, transfers, ran, lengths, later, bytes⟩ := ih targets (destination + 1)
              (offset + count) (fun index => arrived (index + 1))
              (fun index => total (index + 1)) (by simpa using same)
              (by omega) (fun index => room (index + 1))
              (fun index => filled (index + 1))
          obtain ⟨written, made, sent, full, counted⟩ :=
            sendShard_spec source destination elementSize
              (by omega : offset + count ≤ values.length) addressable now
              here.1 here.2
          refine ⟨written :: after, made ++ transfers, ?_, ?_, ?_, ?_⟩
          · rw [sendRow, sent]
            simp only [ok_bind, ran]
            rfl
          · simp [lengths]
          · intro index found located
            cases index with
            | zero =>
                rw [List.getElem?_cons_zero, Option.some.injEq] at located
                rw [← located, first]
                exact full
            | succ index =>
                rw [rest]
                exact later index found located
          · rw [stagedBytes_append, counted, bytes, remoteFrom]
            ring

/-- The entry of a row, nothing outside. -/
def countAt (counts : List Nat) (destination : Nat) : Nat := (counts[destination]?).getD 0

/-- What destination `destination` is sent, in the order of the sources. -/
def exchanged (inputs : List (List T)) (sendCounts : List (List Nat))
    (destination : Nat) : List T :=
  ((inputs.zip sendCounts).map fun entry =>
    shardFrom entry.1 0 entry.2 destination).flatten

/-- The elements that leave their rank, from source `source` on. -/
def remoteTotal : Nat → List (List Nat) → Nat
  | _, [] => 0
  | source, counts :: rest => remoteFrom source 0 counts + remoteTotal (source + 1) rest

omit [TensorElement T] in
theorem length_shardFrom {values : List T} {counts : List Nat}
    (inside : counts.sum ≤ values.length) (destination : Nat) :
    (shardFrom values 0 counts destination).length =
      countAt counts destination := by
  have whole := List.take_append_drop destination counts
  have total : (counts.take destination).sum + (counts.drop destination).sum = counts.sum := by
    rw [← List.sum_append, whole]
  have first : countAt counts destination ≤ (counts.drop destination).sum := by
    unfold countAt
    cases found : counts[destination]? with
    | none => exact Nat.zero_le _
    | some count =>
        obtain ⟨bound, same⟩ := List.getElem?_eq_some_iff.mp found
        rw [List.drop_eq_getElem_cons bound, List.sum_cons, same]
        exact Nat.le_add_right _ _
  rw [shardFrom, List.length_take, List.length_drop]
  unfold countAt at first ⊢
  omega

theorem checkedAdd_of_lt {left right : Nat} (fits : left + right < wordSize) :
    checkedAdd left right = some (left + right) :=
  (checkedAdd_eq_some_iff ..).mpr ⟨fits, rfl⟩

theorem foldlM_remoteFrom (source : Nat) (counts : List Nat) :
    ∀ destination total, total + remoteFrom source destination counts < wordSize →
      (counts.zipIdx destination).foldlM (fun total entry =>
        if source = entry.2 then some total
        else checkedAdd total entry.1) total =
        some (total + remoteFrom source destination counts) := by
  induction counts with
  | nil =>
      intro destination total _
      rfl
  | cons count counts ih =>
      intro destination total fits
      rw [remoteFrom] at fits ⊢
      rw [List.zipIdx_cons, List.foldlM_cons]
      by_cases own : source = destination
      · simp only [if_pos own, Nat.zero_add] at fits ⊢
        exact ih _ _ fits
      · simp only [if_neg own, ← Nat.add_assoc] at fits ⊢
        rw [checkedAdd_of_lt (lt_of_le_of_lt (Nat.le_add_right _ _) fits)]
        exact ih _ _ fits

theorem remoteElements_eq_some {sendCounts : List (List Nat)}
    (fits : remoteTotal 0 sendCounts < wordSize) :
    remoteElements sendCounts = some (remoteTotal 0 sendCounts) := by
  suffices general : ∀ (rows : List (List Nat)) source total,
      total + remoteTotal source rows < wordSize →
      (rows.zipIdx source).foldlM (fun total (entry : List Nat × Nat) =>
        (entry.1.zipIdx).foldlM (fun total (count : Nat × Nat) =>
          if entry.2 = count.2 then some total
          else checkedAdd total count.1) total) total =
        some (total + remoteTotal source rows) by
    have all := general sendCounts 0 0 (by omega)
    rwa [Nat.zero_add] at all
  intro rows
  induction rows with
  | nil =>
      intro source total _
      rfl
  | cons counts rows ih =>
      intro source total bound
      rw [remoteTotal, ← Nat.add_assoc] at bound ⊢
      rw [List.zipIdx_cons, List.foldlM_cons, foldlM_remoteFrom source counts 0 total
          (lt_of_le_of_lt (Nat.le_add_right _ _) bound)]
      exact ih _ _ bound

theorem foldlM_column (destination : Nat) (rows : List (List Nat))
    (wide : ∀ row ∈ rows, destination < row.length) :
    ∀ total, total + (rows.map (countAt · destination)).sum < wordSize →
      (rows.foldlM (fun total (counts : List Nat) => do
        let count ← counts[destination]?
        checkedAdd total count) total : Option Nat) =
        some (total + (rows.map (countAt · destination)).sum) := by
  induction rows with
  | nil =>
      intro total _
      rfl
  | cons row rows ih =>
      intro total fits
      have bound := wide row List.mem_cons_self
      have entry : row[destination]? = some (countAt row destination) := by
        rw [countAt, List.getElem?_eq_getElem bound]
        rfl
      rw [List.map_cons, List.sum_cons, ← Nat.add_assoc] at fits ⊢
      rw [List.foldlM_cons, entry]
      simp only [Option.bind_eq_bind, Option.bind_some, checkedAdd_of_lt
        (lt_of_le_of_lt (Nat.le_add_right _ _) fits)]
      exact ih (fun other member =>
        wide other (List.mem_cons_of_mem row member)) _ fits

/-- The values of all ranks. -/
def VariableDistributedBuffer.values (buffer : VariableDistributedBuffer T) : List (List T) :=
  buffer.buffers.map fun entry =>
    match entry with
    | none => []
    | some found => List.ofFn found.contents

theorem remoteTotal_append (rows : List (List Nat)) (row : List Nat) :
    ∀ source, remoteTotal source (rows ++ [row]) =
      remoteTotal source rows + remoteFrom (source + rows.length) 0 row := by
  induction rows with
  | nil =>
      intro source
      simp [remoteTotal]
  | cons first rows ih =>
      intro source
      rw [List.cons_append, remoteTotal, remoteTotal, ih,
        List.length_cons, Nat.add_assoc source, Nat.add_comm 1,
        Nat.add_assoc]

theorem allocateVariable_spec (collective : InProcessCollective T) {lengths : List Nat}
    (ranks : lengths.length = collective.worldSize)
    (fits : ∀ length ∈ lengths, length * TensorElement.elementSize T ≤ isizeMax) :
    ∃ buffers, collective.allocateVariable lengths = .ok ⟨collective.id, buffers, lengths⟩ ∧
      buffers.length = collective.worldSize ∧
      ∀ (index length : Nat) entry, lengths[index]? = some length →
        buffers[index]? = some entry → Filled ⟨entry, 0⟩ [] length := by
  let entry (pair : TensorDevice T × Nat) : Option (SizedBuffer T) :=
    if pair.2 = 0 then none
    else some ⟨pair.2, fun index => pair.1.empty index⟩
  refine ⟨(collective.contexts.zip lengths).map entry, ?_, ?_, ?_⟩
  · have accepted (error : CollectiveError) :
        rejectIf (lengths.length ≠ collective.worldSize) error = .ok () :=
      (rejectIf_eq_ok_iff ..).mpr (not_not.mpr ranks)
    have allocated : ((collective.contexts.zip lengths).mapM fun pair =>
        allocNonempty pair.1 pair.2) =
        .ok ((collective.contexts.zip lengths).map entry) := by
      rw [mapM_eq_ok_iff, List.map_map]
      refine List.map_congr_left ?_
      intro pair member
      simp only [Function.comp_apply, entry, allocNonempty]
      split
      · rfl
      · rw [alloc_eq_ok pair.1 (fits pair.2 (List.of_mem_zip member).2)]
        rfl
    simp only [InProcessCollective.allocateVariable, accepted, ok_bind, allocated]
    rfl
  · unfold InProcessCollective.worldSize at ranks ⊢
    simp [ranks]
  · intro index length found located placed
    rw [List.getElem?_map, Option.map_eq_some_iff] at placed
    obtain ⟨pair, paired, same⟩ := placed
    have second := (List.getElem?_zip_eq_some.mp paired).2
    rw [located, Option.some.injEq] at second
    subst same
    simp only [entry]
    split
    · rename_i zero
      exact ⟨rfl, second.trans zero⟩
    · exact ⟨rfl, second.symm, by simp⟩

/-- The elements that all sources send to a destination. -/
def column (sendCounts : List (List Nat)) (destination : Nat) : Nat :=
  (sendCounts.map (countAt · destination)).sum

omit [TensorElement T] in
theorem length_exchanged {inputs : List (List T)} {sendCounts : List (List Nat)}
    (same : inputs.length = sendCounts.length)
    (sums : ∀ entry ∈ inputs.zip sendCounts, entry.2.sum ≤ entry.1.length) (destination : Nat) :
    (exchanged inputs sendCounts destination).length =
      column sendCounts destination := by
  have lengths : (inputs.zip sendCounts).map (fun entry =>
      (shardFrom entry.1 0 entry.2 destination).length) =
      sendCounts.map (countAt · destination) := by
    have second : sendCounts = (inputs.zip sendCounts).map Prod.snd :=
      (List.map_snd_zip same.ge).symm
    conv_rhs => rw [second, List.map_map]
    refine List.map_congr_left ?_
    intro entry member
    exact length_shardFrom (sums entry member) destination
  rw [exchanged, List.length_flatten, List.map_map, column, ← lengths]
  rfl

omit [TensorElement T] in
theorem exchanged_take_succ {inputs : List (List T)} {sendCounts : List (List Nat)}
    {index : Nat} {values : List T} {counts : List Nat}
    (input : inputs[index]? = some values)
    (row : sendCounts[index]? = some counts) (destination : Nat) :
    exchanged (inputs.take (index + 1)) (sendCounts.take (index + 1)) destination =
      exchanged (inputs.take index) (sendCounts.take index) destination ++
        shardFrom values 0 counts destination := by
  have same : (inputs.take index).length = (sendCounts.take index).length := by
    have first := (List.getElem?_eq_some_iff.mp input).1
    have second := (List.getElem?_eq_some_iff.mp row).1
    rw [List.length_take, List.length_take]
    omega
  simp only [exchanged, List.take_add_one, input, row, Option.toList_some,
    List.zip_append same, List.map_append, List.flatten_append]
  simp

/-- The columns so far leave room for the next row. -/
theorem column_take_le {sendCounts : List (List Nat)} {index : Nat} {counts : List Nat}
    (row : sendCounts[index]? = some counts) (destination : Nat) :
    column (sendCounts.take index) destination +
      countAt counts destination ≤ column sendCounts destination := by
  obtain ⟨bound, same⟩ := List.getElem?_eq_some_iff.mp row
  have split := List.take_append_drop index sendCounts
  rw [List.drop_eq_getElem_cons bound, same] at split
  conv_rhs => rw [← split]
  simp only [column, List.map_append, List.map_cons, List.sum_append, List.sum_cons]
  omega

/-- The rows before `index` have been sent. -/
structure SentRows (worldSize : Nat) (input : DistributedBuffer T)
    (sendCounts : List (List Nat)) (index : Nat)
    (state : List (Destination T) × List Transfer) : Prop where
  targets : state.1.length = worldSize
  filled : ∀ destination target, state.1[destination]? = some target →
    Filled target (exchanged (input.values.take index)
      (sendCounts.take index) destination) (column sendCounts destination)
  staged : stagedBytes (TensorElement.elementSize T) state.2 =
    remoteTotal 0 (sendCounts.take index) * TensorElement.elementSize T

theorem sendSource_spec {collective : InProcessCollective T} {input : DistributedBuffer T}
    (belongs : input.communicatorId = collective.id)
    (ranks : input.buffers.length = collective.worldSize)
    (addressable : input.lengthPerRank < wordSize)
    {sendCounts : List (List Nat)}
    (square : sendCounts.length = collective.worldSize)
    (rows : ∀ row ∈ sendCounts, row.length = collective.worldSize ∧ row.sum = input.lengthPerRank)
    (columns : ∀ destination, column sendCounts destination < wordSize)
    (index : Nat) (counts : List Nat)
    (state : List (Destination T) × List Transfer)
    (row : sendCounts[index]? = some counts)
    (sent : SentRows collective.worldSize input sendCounts index state) :
    ∃ next, collective.sendSource input state (counts, index) = .ok next ∧
      SentRows collective.worldSize input sendCounts (index + 1) next := by
  have within : index < collective.worldSize := by
    rw [← square]
    exact (List.getElem?_eq_some_iff.mp row).1
  obtain ⟨found, present⟩ : ∃ found, input.buffers[index]? = some found :=
    ⟨_, List.getElem?_eq_getElem (ranks ▸ within)⟩
  have listed : input.values[index]? = some (List.ofFn found) := by
    rw [DistributedBuffer.values, List.getElem?_map, present]
    rfl
  have download := downloadRank_eq_ok belongs ranks addressable present
  obtain ⟨width, sum⟩ := rows counts (List.mem_of_getElem? row)
  have sized : (List.ofFn found).length = input.lengthPerRank := List.length_ofFn
  have grown (destination : Nat) :
      exchanged (input.values.take (index + 1)) (sendCounts.take (index + 1)) destination =
        exchanged (input.values.take index) (sendCounts.take index) destination ++
          shardFrom (List.ofFn found) 0 counts destination :=
    exchanged_take_succ listed row destination
  have arrived (destination : Nat) :
      (exchanged (input.values.take index) (sendCounts.take index) destination).length =
        column (sendCounts.take index) destination := by
    refine length_exchanged ?_ ?_ destination
    · simp [DistributedBuffer.values, ranks, square]
    · intro entry member
      obtain ⟨first, second⟩ := List.of_mem_zip member
      obtain ⟨buffer, -, same⟩ := List.mem_map.mp (List.mem_of_mem_take first)
      have rowSum := (rows entry.2 (List.mem_of_mem_take second)).2
      rw [← same, List.length_ofFn, rowSum]
  obtain ⟨after, transfers, ran, kept, later, bytes⟩ :=
    sendRow_spec index (TensorElement.elementSize T) (sized ▸ addressable) counts state.1 0 0
      (fun destination => exchanged (input.values.take index) (sendCounts.take index) destination)
      (column sendCounts) (sent.targets.trans width.symm) (by omega)
      (fun destination count located => by
        have room := column_take_le row destination
        have entry : countAt counts destination = count := by
          rw [countAt, located]
          rfl
        rw [arrived, ← entry]
        exact ⟨room, columns destination⟩) sent.filled
  refine ⟨(after, state.2 ++ transfers), ?_, kept.trans sent.targets, ?_, ?_⟩
  · simp only [InProcessCollective.sendSource, download, ok_bind, ran]
    rfl
  · intro destination target located
    rw [grown]
    exact later destination target located
  · have before : (sendCounts.take index).length = index := by
      rw [List.length_take, Nat.min_eq_left (by omega)]
    rw [stagedBytes_append, bytes, sent.staged, List.take_add_one, row,
      Option.toList_some, remoteTotal_append, before, Nat.zero_add,
      Nat.add_mul]

theorem allToAllV_spec {collective : InProcessCollective T} {input : DistributedBuffer T}
    (belongs : input.communicatorId = collective.id)
    (ranks : input.buffers.length = collective.worldSize)
    (addressable : input.lengthPerRank < wordSize)
    {sendCounts : List (List Nat)}
    (square : sendCounts.length = collective.worldSize)
    (rows : ∀ row ∈ sendCounts, row.length = collective.worldSize ∧ row.sum = input.lengthPerRank)
    (columns : ∀ destination, column sendCounts destination *
      TensorElement.elementSize T ≤ isizeMax)
    (fits : remoteTotal 0 sendCounts * TensorElement.elementSize T < wordSize) :
    ∃ outcome, collective.allToAllV input sendCounts = .ok outcome ∧
      outcome.result.values = (List.range collective.worldSize).map
        (exchanged input.values sendCounts) ∧
      outcome.stats.transferredBytes =
        stagedBytes (TensorElement.elementSize T) outcome.transfers := by
  have validated := validateBuffer_eq_ok belongs ranks
  have elements := TensorElement.positive (T := T)
  have narrow (destination : Nat) : column sendCounts destination < wordSize := by
    have partly := Nat.le_mul_of_pos_right (column sendCounts destination) elements
    have most := columns destination
    unfold isizeMax at most
    unfold wordSize
    omega
  have accepted (error : CollectiveError) :
      rejectIf (sendCounts.length ≠ collective.worldSize ∨ sendCounts.any fun counts =>
          counts.length ≠ collective.worldSize) error = .ok () := by
    refine (rejectIf_eq_ok_iff ..).mpr ?_
    rintro (wrong | ragged)
    · exact wrong square
    · obtain ⟨row, member, wrong⟩ := List.any_eq_true.mp ragged
      exact of_decide_eq_true wrong (rows row member).1
  have summed (sums counts : CollectiveError) : (sendCounts.forM fun row => do
      let total ← okOr (row.foldlM checkedAdd 0) sums
      rejectIf (total ≠ input.lengthPerRank) counts) = .ok () := by
    refine forM_eq_ok_iff.mpr fun row member => ?_
    have sum := (rows row member).2
    rw [foldlM_checkedAdd 0 (by omega), Nat.zero_add, sum]
    exact (rejectIf_eq_ok_iff ..).mpr (not_not.mpr rfl)
  have received : ((List.range collective.worldSize).mapM
      fun destination => sendCounts.foldlM (fun total counts => do
        let count ← counts[destination]?
        checkedAdd total count) 0) =
      some ((List.range collective.worldSize).map (column sendCounts)) := by
    refine mapM_eq_map fun destination member => ?_
    have within := List.mem_range.mp member
    have total := foldlM_column destination sendCounts
      (fun row other => (rows row other).1.symm ▸ within) 0
      (by rw [Nat.zero_add]; exact narrow destination)
    rwa [Nat.zero_add] at total
  obtain ⟨empty, allocated, emptied, initially⟩ := allocateVariable_spec collective
      (by simp : ((List.range collective.worldSize).map
        (column sendCounts)).length = collective.worldSize)
      (fun length member => by
        obtain ⟨destination, -, same⟩ := List.mem_map.mp member
        rw [← same]
        exact columns destination)
  have initial : SentRows collective.worldSize input sendCounts 0
      (empty.map fun buffer => ⟨buffer, 0⟩, []) := by
    refine ⟨by simp [emptied], ?_, by simp [stagedBytes, remoteTotal]⟩
    intro destination target located
    simp only [List.getElem?_map, Option.map_eq_some_iff] at located
    obtain ⟨entry, present, same⟩ := located
    have within : destination < collective.worldSize := by
      rw [← emptied]
      exact (List.getElem?_eq_some_iff.mp present).1
    rw [← same]
    exact initially destination (column sendCounts destination) entry
      (by simp [List.getElem?_range within]) present
  obtain ⟨final, sent, complete⟩ := foldlM_zipIdx_invariant
    (SentRows collective.worldSize input sendCounts) initial
    (sendSource_spec belongs ranks addressable square rows narrow)
  have remote : remoteElements sendCounts = some (remoteTotal 0 sendCounts) :=
    remoteElements_eq_some (lt_of_le_of_lt (Nat.le_mul_of_pos_right _ elements) fits)
  have counted := transferredBytes_eq_ok elements
    (by rwa [Nat.one_mul] : 1 * remoteTotal 0 sendCounts *
      TensorElement.elementSize T < wordSize)
  have ran : collective.allToAllV input sendCounts = .ok
      ⟨⟨collective.id, final.1.map Destination.buffer,
          (List.range collective.worldSize).map (column sendCounts)⟩,
        { CollectiveStats.new .direct with
          steps := UInt32.ofNat (collective.worldSize - 1)
          transferredBytes := 1 * remoteTotal 0 sendCounts *
            TensorElement.elementSize T }, final.2⟩ := by
    simp only [InProcessCollective.allToAllV, validated, ok_bind, accepted,
      summed, received, okOr_some, allocated, sent, remote, counted]
    rfl
  refine ⟨_, ran, ?_, ?_⟩
  · have everything (destination : Nat) (target : Destination T)
        (located : final.1[destination]? = some target) :
        target.values = exchanged input.values sendCounts destination := by
      have filled := complete.filled destination target located
      have inputs : input.values.length = sendCounts.length := by
        simp [DistributedBuffer.values, ranks, square]
      rw [List.take_length, ← inputs, List.take_length] at filled
      refine filled.values (length_exchanged inputs ?_ destination)
      intro entry member
      obtain ⟨first, second⟩ := List.of_mem_zip member
      obtain ⟨buffer, -, same⟩ := List.mem_map.mp first
      rw [← same, List.length_ofFn, (rows entry.2 second).2]
    apply List.ext_getElem?
    intro destination
    simp only [VariableDistributedBuffer.values, List.getElem?_map]
    by_cases within : destination < collective.worldSize
    · have inside : destination < final.1.length := complete.targets.symm ▸ within
      rw [List.getElem?_range within, List.getElem?_eq_getElem inside]
      exact congrArg some (everything destination _ (List.getElem?_eq_getElem inside))
    · rw [List.getElem?_eq_none (by rw [complete.targets]; omega),
        List.getElem?_eq_none (by simpa using within)]
      rfl
  · have staged := complete.staged
    rw [List.take_length] at staged
    rw [staged, Nat.one_mul]

end RuCCL.InProcess
