import RuCCL.InProcess.CollectiveCorrect
import RuCCL.InProcess.NativeRing

/-!
# The transferred bytes that the in-process collectives report
-/

namespace RuCCL.InProcess

open RuCCL.Library
open RuCCL.Rank (CollectiveStats)
open RuCCL.Tensor (TensorElement)

variable {T : Type} [TensorElement T]

omit [TensorElement T] in
theorem validateBuffer_ok {collective : InProcessCollective T} {buffer : DistributedBuffer T}
    {passed : Unit}
    (validated : collective.validateBuffer buffer = .ok passed) :
    buffer.communicatorId = collective.id ∧ buffer.buffers.length = collective.worldSize := by
  rw [InProcessCollective.validateBuffer, rejectIf_eq_ok_iff] at validated
  push Not at validated
  exact validated

theorem transferredBytes_fits {transfers elements elementBytes bytes : Nat}
    (counted : transferredBytes transfers elements elementBytes = .ok bytes) :
    transfers * elements * elementBytes < wordSize := by
  rw [transferredBytes, okOr_eq_ok_iff, Option.bind_eq_some_iff] at counted
  obtain ⟨partly, first, second⟩ := counted
  rw [checkedMul_eq_some_iff] at first second
  rw [← first.2]
  exact second.1

theorem lengthU32_ok {length converted : Nat} (passed : lengthU32 length = .ok converted) :
    length < 2 ^ 32 := by
  obtain ⟨_, small, _⟩ := of_bind passed
  rw [rejectIf_eq_ok_iff] at small
  omega

theorem allReduceSum_ok {collective : InProcessCollective T} {buffer : DistributedBuffer T}
    {kernel : T → T → T} {outcome : Outcome (DistributedBuffer T)}
    (ran : collective.allReduceSum buffer kernel = .ok outcome) :
    buffer.communicatorId = collective.id ∧
    buffer.buffers.length = collective.worldSize ∧
    (collective.worldSize ≠ 1 → buffer.lengthPerRank < 2 ^ 32 ∧
      2 * (collective.worldSize - 1) * buffer.lengthPerRank *
        TensorElement.elementSize T < wordSize) := by
  unfold InProcessCollective.allReduceSum at ran
  obtain ⟨_, validated, rest⟩ := of_bind ran
  obtain ⟨belongs, ranks⟩ := validateBuffer_ok validated
  refine ⟨belongs, ranks, ?_⟩
  intro several
  simp only [if_neg several] at rest
  obtain ⟨_, converted, rest⟩ := of_bind rest
  obtain ⟨_, _, rest⟩ := of_bind rest
  obtain ⟨_, _, rest⟩ := of_bind rest
  obtain ⟨_, _, rest⟩ := of_bind rest
  obtain ⟨_, _, rest⟩ := of_bind rest
  obtain ⟨_, counted, _⟩ := of_bind rest
  exact ⟨lengthU32_ok converted, transferredBytes_fits counted⟩

theorem reduceScatterSum_ok {collective : InProcessCollective T} {input : DistributedBuffer T}
    {kernel : T → T → T} {outcome : Outcome (DistributedBuffer T)}
    (ran : collective.reduceScatterSum input kernel = .ok outcome) :
    input.communicatorId = collective.id ∧
    input.buffers.length = collective.worldSize ∧
    input.lengthPerRank < 2 ^ 32 ∧
    collective.worldSize ∣ input.lengthPerRank ∧
    (collective.worldSize - 1) * input.lengthPerRank *
      TensorElement.elementSize T < wordSize := by
  unfold InProcessCollective.reduceScatterSum at ran
  obtain ⟨_, validated, rest⟩ := of_bind ran
  obtain ⟨belongs, ranks⟩ := validateBuffer_ok validated
  obtain ⟨_, divided, rest⟩ := of_bind rest
  have divisible := not_not.mp ((rejectIf_eq_ok_iff ..).mp divided)
  obtain ⟨_, converted, rest⟩ := of_bind rest
  obtain ⟨_, _, rest⟩ := of_bind rest
  obtain ⟨_, _, rest⟩ := of_bind rest
  obtain ⟨_, _, rest⟩ := of_bind rest
  obtain ⟨_, _, rest⟩ := of_bind rest
  obtain ⟨_, _, rest⟩ := of_bind rest
  obtain ⟨_, _, rest⟩ := of_bind rest
  obtain ⟨_, _, rest⟩ := of_bind rest
  obtain ⟨_, counted, _⟩ := of_bind rest
  exact ⟨belongs, ranks, lengthU32_ok converted, divisible, transferredBytes_fits counted⟩

theorem alloc_ok {device : TensorDevice T} {length : Nat} {buffer : Buffer T length}
    (allocated : alloc device length = .ok buffer) :
    length * TensorElement.elementSize T ≤ isizeMax := by
  obtain ⟨_, checked, _⟩ := of_bind allocated
  obtain ⟨bytes, multiplied, small⟩ := of_bind checked
  rw [okOr_eq_ok_iff, checkedMul_eq_some_iff] at multiplied
  rw [rejectIf_eq_ok_iff, multiplied.2] at small
  omega

theorem allocate_ok {collective : InProcessCollective T} {length : Nat}
    {output : DistributedBuffer T} (positive : 0 < collective.worldSize)
    (allocated : collective.allocate length = .ok output) :
    length * TensorElement.elementSize T ≤ isizeMax := by
  obtain ⟨buffers, all, _⟩ := of_bind allocated
  rw [mapM_eq_ok_iff] at all
  obtain ⟨context, present⟩ : ∃ context, collective.contexts[0]? = some context :=
    ⟨_, List.getElem?_eq_getElem positive⟩
  have first := congrArg (·[0]?) all
  simp only [List.getElem?_map, present, Option.map_some] at first
  cases found : buffers[0]? with
  | none =>
      rw [found] at first
      cases first
  | some buffer =>
      rw [found] at first
      simp only [Option.map_some, Option.some.injEq] at first
      exact alloc_ok first

theorem allGather_ok {collective : InProcessCollective T} {input : DistributedBuffer T}
    {outcome : Outcome (DistributedBuffer T)}
    (positive : 0 < collective.worldSize)
    (ran : collective.allGather input = .ok outcome) :
    input.communicatorId = collective.id ∧
    input.buffers.length = collective.worldSize ∧
    input.lengthPerRank * collective.worldSize * TensorElement.elementSize T ≤ isizeMax ∧
    ∃ bytes, transferredBytes (min (collective.worldSize *
      (collective.worldSize - 1)) (wordSize - 1)) input.lengthPerRank
      (TensorElement.elementSize T) = .ok bytes := by
  unfold InProcessCollective.allGather at ran
  obtain ⟨_, validated, rest⟩ := of_bind ran
  obtain ⟨belongs, ranks⟩ := validateBuffer_ok validated
  obtain ⟨length, multiplied, rest⟩ := of_bind rest
  rw [okOr_eq_ok_iff, checkedMul_eq_some_iff] at multiplied
  obtain ⟨_, allocated, rest⟩ := of_bind rest
  rw [multiplied.2] at allocated
  have allocatable := allocate_ok positive allocated
  obtain ⟨_, _, rest⟩ := of_bind rest
  obtain ⟨_, _, rest⟩ := of_bind rest
  obtain ⟨bytes, counted, _⟩ := of_bind rest
  exact ⟨belongs, ranks, allocatable, bytes, counted⟩

theorem eq_remoteFrom (source : Nat) (counts : List Nat) :
    ∀ {destination total result},
      (counts.zipIdx destination).foldlM (fun total entry =>
        if source = entry.2 then some total
        else checkedAdd total entry.1) total = some result →
      result = total + remoteFrom source destination counts := by
  induction counts with
  | nil =>
      intro destination total result summed
      cases summed
      rfl
  | cons count counts ih =>
      intro destination total result summed
      rw [List.zipIdx_cons, List.foldlM_cons, Option.bind_eq_bind,
        Option.bind_eq_some_iff] at summed
      obtain ⟨next, first, later⟩ := summed
      rw [ih later, remoteFrom]
      by_cases own : source = destination
      · simp only [if_pos own, Option.some.injEq] at first
        rw [if_pos own, first, Nat.zero_add]
      · simp only [if_neg own, checkedAdd_eq_some_iff] at first
        rw [if_neg own, first.2, Nat.add_assoc]

theorem eq_remoteTotal {sendCounts : List (List Nat)} {result : Nat}
    (counted : remoteElements sendCounts = some result) :
    result = remoteTotal 0 sendCounts := by
  suffices general : ∀ (rows : List (List Nat)) source total,
      (rows.zipIdx source).foldlM (fun total (entry : List Nat × Nat) =>
        (entry.1.zipIdx).foldlM (fun total (count : Nat × Nat) =>
          if entry.2 = count.2 then some total
          else checkedAdd total count.1) total) total = some result →
      result = total + remoteTotal source rows by
    have all := general sendCounts 0 0 counted
    rwa [Nat.zero_add] at all
  intro rows
  induction rows with
  | nil =>
      intro source total summed
      cases summed
      rfl
  | cons counts rows ih =>
      intro source total summed
      rw [List.zipIdx_cons, List.foldlM_cons, Option.bind_eq_bind,
        Option.bind_eq_some_iff] at summed
      obtain ⟨next, first, later⟩ := summed
      rw [ih _ _ later, remoteTotal, eq_remoteFrom source counts first, Nat.add_assoc]

theorem eq_column (destination : Nat) (rows : List (List Nat)) :
    ∀ {total result : Nat},
      (rows.foldlM (fun total (counts : List Nat) => do
        let count ← counts[destination]?
        checkedAdd total count) total : Option Nat) = some result →
      result = total + column rows destination := by
  induction rows with
  | nil =>
      intro total result summed
      cases summed
      rfl
  | cons row rows ih =>
      intro total result summed
      rw [List.foldlM_cons, Option.bind_eq_bind, Option.bind_eq_some_iff] at summed
      obtain ⟨next, first, later⟩ := summed
      simp only [Option.bind_eq_some_iff] at first
      obtain ⟨count, found, added⟩ := first
      rw [checkedAdd_eq_some_iff] at added
      rw [ih later, added.2, column, column,
        List.map_cons, List.sum_cons, countAt, found, Nat.add_assoc]
      rfl

/-- A destination outside the world receives nothing. -/
theorem column_of_le {sendCounts : List (List Nat)} {worldSize destination : Nat}
    (rows : ∀ row ∈ sendCounts, row.length = worldSize)
    (outside : worldSize ≤ destination) :
    column sendCounts destination = 0 := by
  rw [column, List.sum_eq_zero_iff]
  intro count member
  obtain ⟨row, present, same⟩ := List.mem_map.mp member
  rw [← same, countAt, List.getElem?_eq_none (rows row present ▸ outside)]
  rfl

theorem allocateVariable_ok {collective : InProcessCollective T} {lengths : List Nat}
    {output : VariableDistributedBuffer T}
    (allocated : collective.allocateVariable lengths = .ok output)
    {index length : Nat} (found : lengths[index]? = some length)
    (inside : index < collective.worldSize) :
    length * TensorElement.elementSize T ≤ isizeMax := by
  obtain ⟨_, _, rest⟩ := of_bind allocated
  obtain ⟨buffers, all, _⟩ := of_bind rest
  rw [mapM_eq_ok_iff] at all
  obtain ⟨context, present⟩ : ∃ context, collective.contexts[index]? = some context :=
    ⟨_, List.getElem?_eq_getElem inside⟩
  have pair : (collective.contexts.zip lengths)[index]? = some (context, length) :=
    List.getElem?_zip_eq_some.mpr ⟨present, found⟩
  have entry := congrArg (·[index]?) all
  simp only [List.getElem?_map, pair, Option.map_some] at entry
  cases stored : buffers[index]? with
  | none =>
      rw [stored] at entry
      cases entry
  | some buffer =>
      rw [stored] at entry
      simp only [Option.map_some, Option.some.injEq, allocNonempty] at entry
      by_cases empty : length = 0
      · rw [empty, Nat.zero_mul]
        exact Nat.zero_le _
      · rw [if_neg empty] at entry
        obtain ⟨_, allocatedEntry, _⟩ := of_bind entry
        exact alloc_ok allocatedEntry

theorem allToAllV_ok {collective : InProcessCollective T} {input : DistributedBuffer T}
    {sendCounts : List (List Nat)}
    {outcome : Outcome (VariableDistributedBuffer T)}
    (ran : collective.allToAllV input sendCounts = .ok outcome) :
    input.communicatorId = collective.id ∧
    input.buffers.length = collective.worldSize ∧
    sendCounts.length = collective.worldSize ∧
    (∀ row ∈ sendCounts, row.length = collective.worldSize ∧
      row.sum = input.lengthPerRank ∧ input.lengthPerRank < wordSize) ∧
    (∀ destination, column sendCounts destination * TensorElement.elementSize T ≤ isizeMax) ∧
    remoteTotal 0 sendCounts * TensorElement.elementSize T < wordSize := by
  unfold InProcessCollective.allToAllV at ran
  obtain ⟨_, validated, rest⟩ := of_bind ran
  obtain ⟨belongs, ranks⟩ := validateBuffer_ok validated
  obtain ⟨_, accepted, rest⟩ := of_bind rest
  rw [rejectIf_eq_ok_iff] at accepted
  obtain ⟨wellCounted, widths⟩ := not_or.mp accepted
  have square := not_not.mp wellCounted
  obtain ⟨_, summed, rest⟩ := of_bind rest
  obtain ⟨lengths, received, rest⟩ := of_bind rest
  obtain ⟨_, allocated, rest⟩ := of_bind rest
  obtain ⟨_, _, rest⟩ := of_bind rest
  obtain ⟨remote, elements, rest⟩ := of_bind rest
  obtain ⟨_, counted, _⟩ := of_bind rest
  have rows : ∀ row ∈ sendCounts, row.length = collective.worldSize ∧
      row.sum = input.lengthPerRank ∧ input.lengthPerRank < wordSize := by
    intro row member
    have width : row.length = collective.worldSize := by
      by_contra wrong
      exact widths (List.any_eq_true.mpr ⟨row, member, decide_eq_true wrong⟩)
    refine ⟨width, ?_⟩
    have total := (forM_eq_ok_iff.mp summed) row member
    obtain ⟨sum, added, same⟩ := of_bind total
    rw [okOr_eq_ok_iff] at added
    rw [rejectIf_eq_ok_iff, not_not] at same
    have total := eq_add_sum_of_checkedAdd (by decide) added
    rw [← same]
    exact ⟨by omega, total.2⟩
  refine ⟨belongs, ranks, square, rows, ?_, ?_⟩
  · intro destination
    by_cases inside : destination < collective.worldSize
    · rw [okOr_eq_ok_iff] at received
      have located := (getElem?_of_mapM _ received).2 destination
        destination (List.getElem?_range inside)
      obtain ⟨length, found⟩ : ∃ length, lengths[destination]? = some length :=
        ⟨_, List.getElem?_eq_getElem (by
          rw [(getElem?_of_mapM _ received).1, List.length_range]
          exact inside)⟩
      rw [found] at located
      have total := eq_column destination sendCounts located.symm
      rw [Nat.zero_add] at total
      rw [← total]
      exact allocateVariable_ok allocated found inside
    · rw [column_of_le (fun row member => (rows row member).1)
        (Nat.le_of_not_lt inside), Nat.zero_mul]
      exact Nat.zero_le _
  · rw [okOr_eq_ok_iff] at elements
    have bounded := transferredBytes_fits counted
    rwa [Nat.one_mul, eq_remoteTotal elements] at bounded

omit [TensorElement T] in
theorem copyFromDeviceAt_length {length offset count : Nat} {buffer : Buffer T length}
    {values : List T}
    (copied : copyFromDeviceAt buffer offset count = .ok values) :
    values.length = count := by
  obtain ⟨range, checked, same⟩ := of_bind copied
  obtain ⟨stop, added, passed⟩ := of_bind checked
  rw [okOr_eq_ok_iff, checkedAdd_eq_some_iff] at added
  obtain ⟨_, inside, built⟩ := of_bind passed
  rw [rejectIf_eq_ok_iff, added.2] at inside
  cases built
  cases same
  rw [length_readAt (by simp only [added.2]; omega)]
  simp [Span.length, added.2]

omit [TensorElement T] in
theorem context_ok {collective : InProcessCollective T} {rank : Nat} {device : TensorDevice T}
    (found : collective.context rank = .ok device) :
    rank < collective.worldSize := by
  rw [InProcessCollective.context, okOr_eq_ok_iff] at found
  exact (List.getElem?_eq_some_iff.mp found).1

omit [TensorElement T] in
theorem downloadRank_ok {collective : InProcessCollective T} {buffer : DistributedBuffer T}
    {rank : Nat} {values : List T}
    (downloaded : collective.downloadRank buffer rank = .ok values) :
    values.length = buffer.lengthPerRank ∧ rank < collective.worldSize := by
  obtain ⟨_, _, rest⟩ := of_bind downloaded
  obtain ⟨_, context, rest⟩ := of_bind rest
  obtain ⟨_, _, copied⟩ := of_bind rest
  exact ⟨copyFromDeviceAt_length copied, context_ok context⟩

/-- Position `index` of the ranks is rank `index`. -/
theorem eq_of_getElem?_range {count index rank : Nat}
    (found : (List.range count)[index]? = some rank) : rank = index := by
  have within := (List.getElem?_eq_some_iff.mp found).1
  rw [List.length_range] at within
  rw [List.getElem?_range within, Option.some.injEq] at found
  exact found.symm

/-- The ranks below `count` other than `root`. -/
def others (root count : Nat) : Nat := count - if root < count then 1 else 0

theorem others_succ (root count : Nat) :
    others root (count + 1) = others root count + if count = root then 0 else 1 := by
  unfold others
  split <;> split <;> split <;> omega

theorem stagedBytes_singleton (elementSize source destination elements : Nat) :
    stagedBytes elementSize [⟨source, destination, elements⟩] =
      if source = destination then 0 else elements * elementSize := by
  by_cases same : source = destination
  · simp [stagedBytes, same]
  · simp [stagedBytes, same]

/-- Every rank but the root causes the same bytes. -/
theorem stagedBytes_star (elementSize bytes root : Nat) (transfers : Nat → List Transfer)
    (each : ∀ rank, stagedBytes elementSize (transfers rank) =
      if rank = root then 0 else bytes) (count : Nat) :
    stagedBytes elementSize ((List.range count).flatMap transfers) =
      others root count * bytes := by
  induction count with
  | zero => simp [stagedBytes, others]
  | succ before ih =>
      rw [List.range_succ, List.flatMap_append, stagedBytes_append,
        ih, List.flatMap_singleton, others_succ, each,
        Nat.add_mul]
      split <;> simp

theorem others_world {root worldSize : Nat} (inside : root < worldSize) :
    others root worldSize = worldSize - 1 := by
  rw [others, if_pos inside]

theorem broadcast_counts {collective : InProcessCollective T} {buffer : DistributedBuffer T}
    {root : Nat} {outcome : Outcome (DistributedBuffer T)}
    (ran : collective.broadcast buffer root = .ok outcome) :
    outcome.stats.transferredBytes =
      stagedBytes (TensorElement.elementSize T) outcome.transfers := by
  obtain ⟨_, _, rest⟩ := of_bind ran
  obtain ⟨rootValues, downloaded, rest⟩ := of_bind rest
  obtain ⟨length, inside⟩ := downloadRank_ok downloaded
  obtain ⟨ranks, written, rest⟩ := of_bind rest
  obtain ⟨bytes, counted, built⟩ := of_bind rest
  cases built
  have transfers : ranks.map Prod.snd = (List.range collective.worldSize).map fun rank =>
        if rank = root then []
        else [(⟨root, rank, buffer.lengthPerRank⟩ : Transfer)] := by
    refine map_of_mapM_ok written ?_
    intro rank _ entry made
    obtain ⟨current, _, made⟩ := of_bind made
    by_cases own : rank = root
    · rw [if_neg (not_not.mpr own)] at made
      cases made
      rw [if_pos own]
    · rw [if_pos own] at made
      obtain ⟨_, _, made⟩ := of_bind made
      cases made
      rw [if_neg own, length]
  have staged := stagedBytes_star (TensorElement.elementSize T)
    (buffer.lengthPerRank * TensorElement.elementSize T) root
    (fun rank => if rank = root then []
      else [(⟨root, rank, buffer.lengthPerRank⟩ : Transfer)])
    (by
      intro rank
      by_cases own : rank = root
      · rw [if_pos own, if_pos own]
        rfl
      · rw [if_neg own, if_neg own, stagedBytes_singleton,
          if_neg (Ne.symm own)]) collective.worldSize
  rw [others_world inside] at staged
  simp only [List.flatMap_def, transfers] at staged ⊢
  rw [staged, transferredBytes_eq counted, Nat.mul_assoc]

theorem scatter_counts {collective : InProcessCollective T} {input : RootedBuffer T}
    {outcome : Outcome (DistributedBuffer T)}
    (ran : collective.scatter input = .ok outcome) :
    outcome.stats.transferredBytes =
      stagedBytes (TensorElement.elementSize T) outcome.transfers := by
  obtain ⟨_, validated, rest⟩ := of_bind ran
  obtain ⟨_, _, rooted⟩ := of_bind validated
  obtain ⟨_, context, _⟩ := of_bind rooted
  have inside := context_ok context
  obtain ⟨_, _, rest⟩ := of_bind rest
  obtain ⟨output, _, rest⟩ := of_bind rest
  obtain ⟨ranks, written, rest⟩ := of_bind rest
  obtain ⟨bytes, counted, built⟩ := of_bind rest
  cases built
  have transfers : ranks.map Prod.snd = (List.range collective.worldSize).map fun rank =>
        (⟨input.root, rank, input.length / collective.worldSize⟩ : Transfer) := by
    refine map_of_mapM_ok written ?_
    intro rank _ entry made
    obtain ⟨values, copied, made⟩ := of_bind made
    obtain ⟨_, _, made⟩ := of_bind made
    obtain ⟨_, _, made⟩ := of_bind made
    cases made
    rw [copyFromDeviceAt_length copied]
  have staged := stagedBytes_star (TensorElement.elementSize T)
    (input.length / collective.worldSize * TensorElement.elementSize T)
    input.root (fun rank =>
      [⟨input.root, rank, input.length / collective.worldSize⟩])
    (by
      intro rank
      rw [stagedBytes_singleton]
      simp only [eq_comm]) collective.worldSize
  rw [others_world inside, ← List.map_eq_flatMap] at staged
  simp only [transfers]
  rw [staged, transferredBytes_eq counted, Nat.mul_assoc]

theorem gather_counts {collective : InProcessCollective T} {input : DistributedBuffer T}
    {root : Nat} {outcome : Outcome (RootedBuffer T)}
    (ran : collective.gather input root = .ok outcome) :
    outcome.stats.transferredBytes =
      stagedBytes (TensorElement.elementSize T) outcome.transfers := by
  obtain ⟨_, _, rest⟩ := of_bind ran
  obtain ⟨_, _, rest⟩ := of_bind rest
  obtain ⟨output, allocated, rest⟩ := of_bind rest
  obtain ⟨_, context, _⟩ := of_bind allocated
  have inside := context_ok context
  obtain ⟨final, gathered, rest⟩ := of_bind rest
  obtain ⟨bytes, counted, built⟩ := of_bind rest
  cases built
  have staged := foldlM_ok_invariant
    (fun index (state : Buffer T output.length × List Transfer) =>
      stagedBytes (TensorElement.elementSize T) state.2 = others root index *
          (input.lengthPerRank * TensorElement.elementSize T)) gathered
    (by simp [stagedBytes, others])
    (by
      intro index rank state next found held stepped
      have same := eq_of_getElem?_range found
      obtain ⟨values, downloaded, stepped⟩ := of_bind stepped
      obtain ⟨_, _, stepped⟩ := of_bind stepped
      cases stepped
      rw [stagedBytes_append, held, stagedBytes_singleton,
        (downloadRank_ok downloaded).1, others_succ, Nat.add_mul, same]
      split <;> simp)
  rw [List.length_range, others_world inside] at staged
  rw [staged, transferredBytes_eq counted, Nat.mul_assoc]

theorem reduceSum_counts {collective : InProcessCollective T} {input : DistributedBuffer T}
    {root : Nat} {kernel : T → T → T} {outcome : Outcome (RootedBuffer T)}
    (ran : collective.reduceSum input root kernel = .ok outcome) :
    outcome.stats.transferredBytes =
      stagedBytes (TensorElement.elementSize T) outcome.transfers := by
  obtain ⟨_, _, rest⟩ := of_bind ran
  obtain ⟨_, context, rest⟩ := of_bind rest
  have inside := context_ok context
  obtain ⟨output, _, rest⟩ := of_bind rest
  obtain ⟨rootValues, _, rest⟩ := of_bind rest
  obtain ⟨buffer, _, rest⟩ := of_bind rest
  by_cases empty : input.lengthPerRank = 0
  · simp only [if_pos empty] at rest
    cases rest
    rw [stagedBytes_singleton, if_pos rfl]
    rfl
  simp only [if_neg empty] at rest
  obtain ⟨scratch, _, rest⟩ := of_bind rest
  obtain ⟨_, _, rest⟩ := of_bind rest
  obtain ⟨final, reduced, rest⟩ := of_bind rest
  obtain ⟨bytes, counted, built⟩ := of_bind rest
  cases built
  have staged := foldlM_ok_invariant
    (fun index (state : Buffer T output.length ×
        Buffer T input.lengthPerRank × CollectiveStats × List Transfer) =>
      stagedBytes (TensorElement.elementSize T) state.2.2.2 = others root index *
          (input.lengthPerRank * TensorElement.elementSize T)) reduced
    (by simp [stagedBytes_singleton, others])
    (by
      intro index rank state next found held stepped
      have same := eq_of_getElem?_range found
      by_cases own : rank = root
      · simp only [if_pos own] at stepped
        cases stepped
        rw [held, others_succ, ← same, if_pos own]
        rfl
      · simp only [if_neg own] at stepped
        obtain ⟨values, downloaded, stepped⟩ := of_bind stepped
        obtain ⟨_, _, stepped⟩ := of_bind stepped
        obtain ⟨_, _, stepped⟩ := of_bind stepped
        cases stepped
        rw [stagedBytes_append, held, stagedBytes_singleton,
          (downloadRank_ok downloaded).1, others_succ, Nat.add_mul,
          if_neg own, ← same, if_neg own, Nat.one_mul])
  rw [List.length_range, others_world inside] at staged
  rw [staged, transferredBytes_eq counted, Nat.mul_assoc]

theorem allToAll_counts {collective : InProcessCollective T} {input : DistributedBuffer T}
    {outcome : Outcome (DistributedBuffer T)}
    (ran : collective.allToAll input = .ok outcome) :
    outcome.stats.transferredBytes = min (collective.worldSize * (collective.worldSize - 1))
        (wordSize - 1) *
        (input.lengthPerRank / collective.worldSize) *
        TensorElement.elementSize T ∧
    stagedBytes (TensorElement.elementSize T) outcome.transfers =
      collective.worldSize * (collective.worldSize - 1) *
        (input.lengthPerRank / collective.worldSize) *
        TensorElement.elementSize T := by
  obtain ⟨_, _, rest⟩ := of_bind ran
  obtain ⟨_, _, rest⟩ := of_bind rest
  obtain ⟨output, _, rest⟩ := of_bind rest
  obtain ⟨final, exchanged, rest⟩ := of_bind rest
  obtain ⟨bytes, counted, built⟩ := of_bind rest
  cases built
  refine ⟨transferredBytes_eq counted, ?_⟩
  have staged := foldlM_ok_invariant
    (fun index (state : List (Buffer T output.lengthPerRank) ×
        List Transfer) => index ≤ collective.worldSize →
      stagedBytes (TensorElement.elementSize T) state.2 =
        index * ((collective.worldSize - 1) *
          (input.lengthPerRank / collective.worldSize * TensorElement.elementSize T))) exchanged
    (by simp [stagedBytes])
    (by
      intro index source state next found held stepped early
      have same := eq_of_getElem?_range found
      obtain ⟨ranks, written, stepped⟩ := of_bind stepped
      cases stepped
      have transfers : ranks.map Prod.snd =
          (List.range collective.worldSize).map fun destination =>
            (⟨source, destination, input.lengthPerRank / collective.worldSize⟩ : Transfer) := by
        refine map_of_mapM_ok written ?_
        intro destination _ entry made
        obtain ⟨_, _, made⟩ := of_bind made
        obtain ⟨values, copied, made⟩ := of_bind made
        obtain ⟨_, _, made⟩ := of_bind made
        obtain ⟨_, _, made⟩ := of_bind made
        cases made
        rw [copyFromDeviceAt_length copied]
      have row := stagedBytes_star (TensorElement.elementSize T)
        (input.lengthPerRank / collective.worldSize *
          TensorElement.elementSize T) source (fun destination =>
          [⟨source, destination, input.lengthPerRank / collective.worldSize⟩])
        (by
          intro destination
          rw [stagedBytes_singleton]
          simp only [eq_comm]) collective.worldSize
      rw [others_world (by omega), ← List.map_eq_flatMap] at row
      rw [stagedBytes_append, held (by omega), transfers, row,
        Nat.succ_mul])
  rw [List.length_range] at staged
  rw [staged le_rfl]
  ring

theorem sendRecv_counts {collective : InProcessCollective T}
    {source destination : DistributedBuffer T}
    {transfer : PointToPointTransfer}
    {outcome : Outcome (DistributedBuffer T)}
    (ran : collective.sendRecv source destination transfer = .ok outcome) :
    outcome.stats.transferredBytes = transfer.sourceRange.length * TensorElement.elementSize T ∧
    stagedBytes (TensorElement.elementSize T) outcome.transfers =
      if transfer.sourceRank = transfer.destinationRank then 0
      else transfer.sourceRange.length * TensorElement.elementSize T := by
  obtain ⟨_, _, rest⟩ := of_bind ran
  obtain ⟨_, _, rest⟩ := of_bind rest
  obtain ⟨_, _, rest⟩ := of_bind rest
  obtain ⟨_, _, rest⟩ := of_bind rest
  obtain ⟨_, _, rest⟩ := of_bind rest
  obtain ⟨_, _, rest⟩ := of_bind rest
  obtain ⟨_, _, rest⟩ := of_bind rest
  obtain ⟨_, _, rest⟩ := of_bind rest
  obtain ⟨values, copied, rest⟩ := of_bind rest
  obtain ⟨_, _, rest⟩ := of_bind rest
  obtain ⟨_, _, rest⟩ := of_bind rest
  obtain ⟨bytes, counted, built⟩ := of_bind rest
  cases built
  refine ⟨?_, ?_⟩
  · rw [transferredBytes_eq counted, Nat.one_mul]
  · rw [stagedBytes_singleton, copyFromDeviceAt_length copied]

/-- A call of an in-process collective. -/
inductive CollectiveCall (T : Type) where
  | reduceSum (input : DistributedBuffer T) (root : Nat)
  | allReduceSum (buffer : DistributedBuffer T)
  | reduceScatterSum (input : DistributedBuffer T)
  | broadcast (buffer : DistributedBuffer T) (root : Nat)
  | allGather (input : DistributedBuffer T)
  | gather (input : DistributedBuffer T) (root : Nat)
  | scatter (input : RootedBuffer T)
  | sendRecv (source destination : DistributedBuffer T) (transfer : PointToPointTransfer)
  | allToAll (input : DistributedBuffer T)
  | allToAllV (input : DistributedBuffer T) (sendCounts : List (List Nat))

/-- The statistics of a finished call, and the copies it made. -/
def Outcome.report {Result : Type} (outcome : Outcome Result) : CollectiveStats × List Transfer :=
  (outcome.stats, outcome.transfers)

namespace CollectiveCall

def report (collective : InProcessCollective T) (kernel : T → T → T) :
    CollectiveCall T → Except CollectiveError (CollectiveStats × List Transfer)
  | .reduceSum input root => Outcome.report <$> collective.reduceSum input root kernel
  | .allReduceSum buffer => Outcome.report <$> collective.allReduceSum buffer kernel
  | .reduceScatterSum input => Outcome.report <$> collective.reduceScatterSum input kernel
  | .broadcast buffer root => Outcome.report <$> collective.broadcast buffer root
  | .allGather input => Outcome.report <$> collective.allGather input
  | .gather input root => Outcome.report <$> collective.gather input root
  | .scatter input => Outcome.report <$> collective.scatter input
  | .sendRecv source destination transfer =>
      Outcome.report <$> collective.sendRecv source destination transfer
  | .allToAll input => Outcome.report <$> collective.allToAll input
  | .allToAllV input sendCounts => Outcome.report <$> collective.allToAllV input sendCounts

/-- No elements are sent from a rank to itself, and no number of transfers is
cut off at the greatest word. -/
def Counted (worldSize : Nat) : CollectiveCall T → Prop
  | .sendRecv _ _ transfer =>
      transfer.sourceRank ≠ transfer.destinationRank ∨ transfer.sourceRange.length = 0
  | .allGather input => worldSize * (worldSize - 1) < wordSize ∨ input.lengthPerRank = 0
  | .allToAll input =>
      worldSize * (worldSize - 1) < wordSize ∨ input.lengthPerRank / worldSize = 0
  | _ => True

end CollectiveCall

omit [TensorElement T] in
theorem report_ok {Result : Type} {run : Except CollectiveError (Outcome Result)}
    {stats : CollectiveStats} {transfers : List Transfer}
    (ran : Outcome.report <$> run = .ok (stats, transfers)) :
    ∃ outcome, run = .ok outcome ∧ outcome.stats = stats ∧ outcome.transfers = transfers := by
  cases run with
  | error failure => cases ran
  | ok outcome =>
      cases ran
      exact ⟨outcome, rfl, rfl, rfl⟩

/-- A product that is cut off at the greatest word. -/
theorem saturated_eq_iff {transfers elements elementBytes : Nat} (positive : 0 < elementBytes) :
    min transfers (wordSize - 1) * elements * elementBytes = transfers * elements * elementBytes ↔
      transfers < wordSize ∨ elements = 0 := by
  rw [Nat.mul_assoc, Nat.mul_assoc]
  constructor
  · intro same
    by_cases empty : elements = 0
    · exact Or.inr empty
    · have nonzero : 0 < elements * elementBytes :=
        Nat.mul_pos (Nat.pos_of_ne_zero empty) positive
      have equal := Nat.eq_of_mul_eq_mul_right nonzero same
      unfold wordSize at equal ⊢
      omega
  · rintro (small | empty)
    · rw [Nat.min_eq_left (by omega)]
    · simp [empty]

theorem allReduceSum_counts {collective : InProcessCollective T} {buffer : DistributedBuffer T}
    (kernel : T → T → T) [Std.Associative kernel] [Std.Commutative kernel]
    (positive : 0 < collective.worldSize)
    {outcome : Outcome (DistributedBuffer T)}
    (ran : collective.allReduceSum buffer kernel = .ok outcome) :
    outcome.result.values.length = collective.worldSize ∧
    (∀ values ∈ outcome.result.values, values.map some =
      elementwise kernel buffer.values buffer.lengthPerRank) ∧
    outcome.stats.transferredBytes =
      stagedBytes (TensorElement.elementSize T) outcome.transfers := by
  obtain ⟨belongs, ranks, large⟩ := allReduceSum_ok ran
  by_cases single : collective.worldSize = 1
  · have validated := validateBuffer_eq_ok belongs ranks
    simp only [InProcessCollective.allReduceSum, validated, ok_bind, if_pos single] at ran
    cases ran
    exact ⟨by simp [DistributedBuffer.values, ranks],
      elementwise_single kernel (ranks.trans single), rfl⟩
  · obtain ⟨bounded, fits⟩ := large single
    obtain ⟨other, same, lengths, values, bytes⟩ :=
      allReduceSum_spec kernel positive belongs ranks bounded fits
    rw [ran] at same
    cases same
    exact ⟨lengths, values, bytes⟩

theorem reduceScatterSum_counts {collective : InProcessCollective T} {input : DistributedBuffer T}
    (kernel : T → T → T) [Std.Associative kernel] [Std.Commutative kernel]
    (positive : 0 < collective.worldSize)
    {outcome : Outcome (DistributedBuffer T)}
    (ran : collective.reduceScatterSum input kernel = .ok outcome) :
    outcome.result.values.length = collective.worldSize ∧
    (∀ rank values, outcome.result.values[rank]? = some values → values.map some =
        ((elementwise kernel input.values input.lengthPerRank).drop
          (rank * (input.lengthPerRank / collective.worldSize))).take
          (input.lengthPerRank / collective.worldSize)) ∧
    outcome.stats.transferredBytes =
      stagedBytes (TensorElement.elementSize T) outcome.transfers := by
  obtain ⟨belongs, ranks, bounded, divisible, fits⟩ := reduceScatterSum_ok ran
  obtain ⟨other, same, lengths, values, bytes⟩ :=
    reduceScatterSum_spec kernel positive belongs ranks bounded divisible fits
  rw [ran] at same
  cases same
  exact ⟨lengths, values, bytes⟩

theorem allGather_counts {collective : InProcessCollective T} {input : DistributedBuffer T}
    (positive : 0 < collective.worldSize)
    {outcome : Outcome (DistributedBuffer T)}
    (ran : collective.allGather input = .ok outcome) :
    outcome.result.values.length = collective.worldSize ∧
    (∀ values ∈ outcome.result.values, values = input.values.flatten) ∧
    outcome.stats.transferredBytes = min (collective.worldSize * (collective.worldSize - 1))
        (wordSize - 1) * input.lengthPerRank *
        TensorElement.elementSize T ∧
    stagedBytes (TensorElement.elementSize T) outcome.transfers =
      collective.worldSize * (collective.worldSize - 1) *
        input.lengthPerRank * TensorElement.elementSize T := by
  obtain ⟨belongs, ranks, allocatable, bytes, counted⟩ := allGather_ok positive ran
  obtain ⟨other, same, lengths, values, reported, staged⟩ :=
    allGather_spec positive belongs ranks allocatable counted
  rw [ran] at same
  cases same
  exact ⟨lengths, values, reported.trans (transferredBytes_eq counted), staged⟩

theorem allToAllV_counts {collective : InProcessCollective T} {input : DistributedBuffer T}
    {sendCounts : List (List Nat)} (positive : 0 < collective.worldSize)
    {outcome : Outcome (VariableDistributedBuffer T)}
    (ran : collective.allToAllV input sendCounts = .ok outcome) :
    outcome.result.values = (List.range collective.worldSize).map
      (exchanged input.values sendCounts) ∧
    outcome.stats.transferredBytes =
      stagedBytes (TensorElement.elementSize T) outcome.transfers := by
  obtain ⟨belongs, ranks, square, rows, columns, fits⟩ := allToAllV_ok ran
  obtain ⟨row, member⟩ : ∃ row, row ∈ sendCounts :=
    List.exists_mem_of_length_pos (square ▸ positive)
  obtain ⟨other, same, values, bytes⟩ := allToAllV_spec belongs ranks (rows row member).2.2 square
    (fun row member => ⟨(rows row member).1, (rows row member).2.1⟩)
    columns fits
  rw [ran] at same
  cases same
  exact ⟨values, bytes⟩

/-- Exactly when a finished call reports the bytes that went from rank to
rank. -/
theorem report_counted_iff {collective : InProcessCollective T}
    (kernel : T → T → T) [Std.Associative kernel] [Std.Commutative kernel]
    (positive : 0 < collective.worldSize) (call : CollectiveCall T)
    {stats : CollectiveStats} {transfers : List Transfer}
    (ran : call.report collective kernel = .ok (stats, transfers)) :
    stats.transferredBytes = stagedBytes (TensorElement.elementSize T) transfers ↔
      call.Counted collective.worldSize := by
  have elements := TensorElement.positive (T := T)
  cases call with
  | reduceSum input root =>
      obtain ⟨outcome, finished, rfl, rfl⟩ := report_ok ran
      exact iff_of_true (reduceSum_counts finished) trivial
  | allReduceSum buffer =>
      obtain ⟨outcome, finished, rfl, rfl⟩ := report_ok ran
      exact iff_of_true (allReduceSum_counts kernel positive finished).2.2
        trivial
  | reduceScatterSum input =>
      obtain ⟨outcome, finished, rfl, rfl⟩ := report_ok ran
      exact iff_of_true (reduceScatterSum_counts kernel positive finished).2.2 trivial
  | broadcast buffer root =>
      obtain ⟨outcome, finished, rfl, rfl⟩ := report_ok ran
      exact iff_of_true (broadcast_counts finished) trivial
  | allGather input =>
      obtain ⟨outcome, finished, rfl, rfl⟩ := report_ok ran
      obtain ⟨-, -, reported, staged⟩ := allGather_counts positive finished
      rw [reported, staged]
      exact saturated_eq_iff elements
  | gather input root =>
      obtain ⟨outcome, finished, rfl, rfl⟩ := report_ok ran
      exact iff_of_true (gather_counts finished) trivial
  | scatter input =>
      obtain ⟨outcome, finished, rfl, rfl⟩ := report_ok ran
      exact iff_of_true (scatter_counts finished) trivial
  | sendRecv source destination transfer =>
      obtain ⟨outcome, finished, rfl, rfl⟩ := report_ok ran
      obtain ⟨reported, staged⟩ := sendRecv_counts finished
      rw [reported, staged]
      simp only [CollectiveCall.Counted]
      by_cases own : transfer.sourceRank = transfer.destinationRank
      · simp [own, elements.ne']
      · simp [own]
  | allToAll input =>
      obtain ⟨outcome, finished, rfl, rfl⟩ := report_ok ran
      obtain ⟨reported, staged⟩ := allToAll_counts finished
      rw [reported, staged]
      exact saturated_eq_iff elements
  | allToAllV input sendCounts =>
      obtain ⟨outcome, finished, rfl, rfl⟩ := report_ok ran
      exact iff_of_true (allToAllV_counts positive finished).2 trivial

/-- A run that ends when `accepted` holds, and whose results all meet
`reference`. -/
def Gives {Result : Type} (run : Except CollectiveError (Outcome Result))
    (accepted : Prop) (reference : Result → Prop) : Prop :=
  (accepted → ∃ outcome, run = .ok outcome) ∧
    ∀ outcome, run = .ok outcome → reference outcome.result

/-- The buffer was made by this communicator. -/
def InProcessCollective.Owns (collective : InProcessCollective T)
    (buffer : DistributedBuffer T) : Prop :=
  buffer.communicatorId = collective.id ∧ buffer.buffers.length = collective.worldSize

/-- The collectives give the reference results, the ring of the device group
included, and a finished call reports the bytes staged between different ranks
exactly when it is `Counted`. -/
theorem in_process_references (kernel : T → T → T) [Std.Associative kernel]
    [Std.Commutative kernel] :
    (∀ {DeviceId Tensor Prepared Work Operation : Type} {length : Nat}
      {device : NativeCollectiveDevice DeviceId Tensor Prepared Work
        Operation} {devices : List DeviceId} {inputs : List Prepared}
      {held : List (Buffer T length)}
      {contents : Work → List (Buffer T length)},
      NativeContract device kernel devices inputs held contents →
      0 < devices.length → ∀ operation,
      ∃ work, ringAllReduce device devices inputs operation = device.finish work operation ∧
        (contents work).length = devices.length ∧
        ∀ buffer ∈ contents work, (List.ofFn buffer).map some =
          elementwise kernel (held.map List.ofFn) length) ∧
    ∀ collective : InProcessCollective T, 0 < collective.worldSize →
      (∀ buffer, buffer.lengthPerRank < 2 ^ 32 → Gives (collective.allReduceSum buffer kernel)
          (collective.Owns buffer ∧ 2 * (collective.worldSize - 1) * buffer.lengthPerRank *
              TensorElement.elementSize T < wordSize)
          fun result => result.values.length = collective.worldSize ∧
            ∀ values ∈ result.values, values.map some =
              elementwise kernel buffer.values buffer.lengthPerRank) ∧
      (∀ input, input.lengthPerRank < 2 ^ 32 → Gives (collective.reduceScatterSum input kernel)
          (collective.Owns input ∧ collective.worldSize ∣ input.lengthPerRank ∧
            (collective.worldSize - 1) * input.lengthPerRank *
              TensorElement.elementSize T < wordSize)
          fun result => result.values.length = collective.worldSize ∧
            ∀ rank values, result.values[rank]? = some values → values.map some =
                ((elementwise kernel input.values input.lengthPerRank).drop (rank *
                    (input.lengthPerRank / collective.worldSize))).take
                  (input.lengthPerRank / collective.worldSize)) ∧
      (∀ input, input.lengthPerRank < 2 ^ 32 → Gives (collective.allGather input)
          (collective.Owns input ∧ input.lengthPerRank * collective.worldSize *
              TensorElement.elementSize T ≤ isizeMax ∧
            collective.worldSize * (collective.worldSize - 1) *
              input.lengthPerRank * TensorElement.elementSize T < wordSize)
          fun result => result.values.length = collective.worldSize ∧
            ∀ values ∈ result.values, values = input.values.flatten) ∧
      (∀ input sendCounts, input.lengthPerRank < 2 ^ 32 →
        Gives (collective.allToAllV input sendCounts)
          (collective.Owns input ∧ sendCounts.length = collective.worldSize ∧
            (∀ row ∈ sendCounts, row.length = collective.worldSize ∧
              row.sum = input.lengthPerRank) ∧
            (∀ destination, column sendCounts destination *
              TensorElement.elementSize T ≤ isizeMax) ∧
            remoteTotal 0 sendCounts * TensorElement.elementSize T < wordSize)
          fun result => result.values = (List.range collective.worldSize).map
              (exchanged input.values sendCounts)) ∧
      ∀ (call : CollectiveCall T) stats transfers,
        call.report collective kernel = .ok (stats, transfers) →
        (stats.transferredBytes = stagedBytes (TensorElement.elementSize T) transfers ↔
          call.Counted collective.worldSize) := by
  refine ⟨?_, ?_⟩
  · intro DeviceId Tensor Prepared Work Operation length device devices
      inputs held contents contract positive operation
    exact ringAllReduce_spec contract positive operation
  intro collective positive
  refine ⟨?_, ?_, ?_, ?_, ?_⟩
  · intro buffer bounded
    refine ⟨?_, ?_⟩
    · rintro ⟨⟨belongs, ranks⟩, fits⟩
      obtain ⟨outcome, ran, -⟩ := allReduceSum_spec kernel positive belongs ranks bounded fits
      exact ⟨outcome, ran⟩
    · intro outcome ran
      obtain ⟨lengths, values, -⟩ := allReduceSum_counts kernel positive ran
      exact ⟨lengths, values⟩
  · intro input bounded
    refine ⟨?_, ?_⟩
    · rintro ⟨⟨belongs, ranks⟩, divisible, fits⟩
      obtain ⟨outcome, ran, -⟩ := reduceScatterSum_spec kernel positive
        belongs ranks bounded divisible fits
      exact ⟨outcome, ran⟩
    · intro outcome ran
      obtain ⟨lengths, values, -⟩ := reduceScatterSum_counts kernel positive ran
      exact ⟨lengths, values⟩
  · intro input _
    refine ⟨?_, ?_⟩
    · rintro ⟨⟨belongs, ranks⟩, allocatable, fits⟩
      obtain ⟨outcome, ran, -⟩ := allGather_spec positive belongs ranks
        allocatable (saturated_eq_ok (TensorElement.positive (T := T)) fits)
      exact ⟨outcome, ran⟩
    · intro outcome ran
      obtain ⟨lengths, values, -⟩ := allGather_counts positive ran
      exact ⟨lengths, values⟩
  · intro input sendCounts bounded
    refine ⟨?_, ?_⟩
    · rintro ⟨⟨belongs, ranks⟩, square, rows, columns, fits⟩
      obtain ⟨outcome, ran, -⟩ := allToAllV_spec belongs ranks
        (by unfold wordSize; omega) square rows columns fits
      exact ⟨outcome, ran⟩
    · intro outcome ran
      exact (allToAllV_counts positive ran).1
  · intro call stats transfers ran
    exact report_counted_iff kernel positive call ran

instance : TensorElement (BitVec 32) := ⟨.u32⟩

/-- Two ranks; new storage is zero. -/
def twoRanks : InProcessCollective (BitVec 32) := ⟨7, [⟨fun _ => 0⟩, ⟨fun _ => 0⟩]⟩

def onTwoRanks : DistributedBuffer (BitVec 32) :=
  ⟨7, 3, [fun slot => slot.val + 1, fun slot => 10 * slot.val]⟩

/-- A device group that keeps the buffers of its ranks on the host. -/
def hostDevice : NativeCollectiveDevice Unit (Buffer (BitVec 32) 3)
    (Buffer (BitVec 32) 3) (List (Buffer (BitVec 32) 3)) Unit where
  prepare tensor _ := .ok tensor
  begin _ inputs := .ok inputs
  elements _ := .ok 3
  exchange work ranges reduce := .ok (passOn (if reduce then (· + ·) else overwrite) ranges work)
  finish work _ := .ok work

theorem hostDevice_contract :
    NativeContract hostDevice (· + ·) [(), ()] onTwoRanks.buffers onTwoRanks.buffers id where
  one_each := rfl
  begins := ⟨onTwoRanks.buffers, rfl, rfl⟩
  elements _ := rfl
  exchanges _ _ _ _ _ := ⟨_, rfl, rfl⟩

theorem in_process_references_two :
    (∃ work, ringAllReduce hostDevice [(), ()] onTwoRanks.buffers () = .ok work ∧
      ∀ buffer ∈ work, List.ofFn buffer = [1, 12, 23]) ∧
    ∃ outcome, twoRanks.allReduceSum onTwoRanks (· + ·) = .ok outcome ∧
      ∀ values ∈ outcome.result.values, values = [1, 12, 23] := by
  have total : elementwise (· + ·) onTwoRanks.values 3 = [1, 12, 23].map some := by
    decide
  have injective := List.map_injective_iff.mpr (Option.some_injective (BitVec 32))
  have references := in_process_references ((· + ·) : BitVec 32 → BitVec 32 → BitVec 32)
  obtain ⟨work, ran, -, reduced⟩ := references.1 hostDevice_contract (by decide) ()
  have onCollective := (references.2 twoRanks (by decide)).1 onTwoRanks
    (by decide)
  obtain ⟨outcome, finished⟩ := onCollective.1 ⟨⟨rfl, rfl⟩, by decide⟩
  refine ⟨⟨work, ran, ?_⟩, outcome, finished, ?_⟩
  · intro buffer member
    exact injective ((reduced buffer member).trans total)
  · intro values member
    exact injective (((onCollective.2 outcome finished).2 values member).trans total)

/-- A rank that sends two elements to itself reports eight bytes, and nothing
went to a different rank. -/
theorem sendRecv_to_itself_counts :
    ∃ stats transfers,
      (CollectiveCall.sendRecv onTwoRanks onTwoRanks
        ⟨0, ⟨0, 2⟩, 0, 1, 0⟩).report twoRanks (· + ·) = .ok (stats, transfers) ∧
        stats.transferredBytes = 8 ∧
        stagedBytes (TensorElement.elementSize (BitVec 32)) transfers =
          0 := by
  refine ⟨⟨.direct, 1, 8, 0⟩, [⟨0, 0, 2⟩], ?_, rfl, ?_⟩
  · rfl
  · decide

end RuCCL.InProcess
