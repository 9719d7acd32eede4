import RuCCL.InProcess.CollectiveCorrect
import RuCCL.Rank.Topology

/-!
# One partition, computed four times

Rank collectives and in-process rings accumulate where a part starts, the IPC group
has a closed form, and the cost model only lists sizes.  All of them cut a buffer at
the same places.

To see that nothing is computed on the way that exceeds the length, each of them is
written once more with every result checked against a limit.
-/

namespace RuCCL.InProcess

open RuCCL.Library RuCCL.Rank

/-- Where the part of `rank` starts, and its length. -/
def Ipc.partition (count world rank : Nat) : Nat × Nat :=
  (rank * (count / world) + min rank (count % world),
    count / world + if rank < count % world then 1 else 0)

/-- A result that must not exceed `limit`. -/
def upTo (limit value : Nat) : Option Nat :=
  if value ≤ limit then some value else none

theorem upTo_eq_some {limit value : Nat} (within : value ≤ limit) :
    upTo limit value = some value :=
  if_pos within

/-- `start..start + length` for every length, where `start` moves on. -/
def spansUpTo (limit start : Nat) : List Nat → Option (List Span)
  | [] => some []
  | length :: rest => do
      let stop ← upTo limit (start + length)
      let behind ← spansUpTo limit stop rest
      return ⟨start, stop⟩ :: behind

def partLengthUpTo (limit base remainder part : Nat) : Option Nat := do
  let extra ← upTo limit (if part < remainder then 1 else 0)
  upTo limit (base + extra)

def balancedSizesUpTo (limit total parts : Nat) : Option (List Nat) := do
  let base ← upTo limit (total / parts)
  let remainder ← upTo limit (total % parts)
  (List.range parts).mapM (partLengthUpTo limit base remainder)

def balancedRangesUpTo (limit length partitions : Nat) :
    Option (List Span) := do
  let base ← upTo limit (length / partitions)
  let remainder ← upTo limit (length % partitions)
  let lengths ← (List.range partitions).mapM (partLengthUpTo limit base remainder)
  spansUpTo limit 0 lengths

def ringChunksUpTo (limit length worldSize : Nat) :
    Except CollectiveError (Option (List Span)) := do
  rejectIf (worldSize = 0) (.inProcess .emptyWorld)
  return balancedRangesUpTo limit length worldSize

def Ipc.partitionUpTo (limit count world rank : Nat) :
    Option (Nat × Nat) := do
  let base ← upTo limit (count / world)
  let front ← upTo limit (rank * base)
  let remainder ← upTo limit (count % world)
  let before ← upTo limit (min rank remainder)
  let offset ← upTo limit (front + before)
  let extra ← upTo limit (if rank < remainder then 1 else 0)
  let length ← upTo limit (base + extra)
  return (offset, length)

theorem spansUpTo_eq_some {limit start : Nat} {lengths : List Nat}
    (within : start + lengths.sum ≤ limit) :
    spansUpTo limit start lengths = some (spansFrom start lengths) := by
  induction lengths generalizing start with
  | nil => rfl
  | cons length rest ih =>
      rw [List.sum_cons, ← Nat.add_assoc] at within
      have stop := upTo_eq_some ((Nat.le_add_right _ _).trans within)
      rw [spansUpTo, stop, Option.bind_eq_bind, Option.bind_some, ih within]
      rfl

section Parts

variable {length parts : Nat}

theorem sum_balancedSizes (positive : 0 < parts) : (balancedSizes length parts).sum = length := by
  have whole := sum_take_balancedLength length parts parts le_rfl
  rw [balancedOffset_all positive, List.take_of_length_le (by simp)] at whole
  exact whole

/-- The prefix sums of the sizes are the ranges. -/
theorem spansFrom_balancedSizes (length parts : Nat) :
    spansFrom 0 (balancedSizes length parts) = balancedRanges length parts :=
  rfl

theorem map_length_balancedRanges (length parts : Nat) :
    (balancedRanges length parts).map Span.length =
      balancedSizes length parts :=
  map_length_spansFrom 0 _

theorem consecutive_balancedRanges (positive : 0 < parts) :
    Consecutive 0 length (balancedRanges length parts) := by
  have spans := consecutive_spansFrom 0 (balancedSizes length parts)
  rwa [sum_balancedSizes positive, Nat.zero_add] at spans

/-- The larger parts come first, and are larger by one. -/
theorem pairwise_balancedSizes (length parts : Nat) :
    (balancedSizes length parts).Pairwise fun first second =>
      second ≤ first ∧ first ≤ second + 1 := by
  have ranks : (List.range parts).Pairwise (· < ·) := List.pairwise_lt_range
  apply List.Pairwise.map _ _ ranks
  intro first second ordered
  split <;> split <;> omega

theorem partition_eq {rank : Nat} (inside : rank < parts) :
    ∃ span : Span, (balancedRanges length parts)[rank]? = some span ∧
      Ipc.partition length parts rank = (span.start, span.length) := by
  refine ⟨_, getElem?_balancedRanges length parts rank inside, ?_⟩
  rw [Span.length, balancedOffset_succ, Nat.add_sub_cancel_left]
  rfl

/-- A part that gets one more element leaves a remainder. -/
theorem balancedLength_le (length : Nat) {parts : Nat} (positive : 0 < parts) (part : Nat) :
    length / parts + (if part < length % parts then 1 else 0) ≤ length := by
  have whole := Nat.div_add_mod length parts
  have base := Nat.le_mul_of_pos_left (length / parts) positive
  split <;> omega

theorem partLengthUpTo_eq_some (positive : 0 < parts) (part : Nat) :
    partLengthUpTo length (length / parts) (length % parts) part =
      some (balancedLength length parts part) := by
  have whole := balancedLength_le length positive part
  rw [partLengthUpTo, upTo_eq_some ((Nat.le_add_left _ _).trans whole),
    Option.bind_eq_bind, Option.bind_some, upTo_eq_some whole]
  rfl

theorem mapM_partLengthUpTo (positive : 0 < parts) :
    (List.range parts).mapM (partLengthUpTo length (length / parts) (length % parts)) =
      some (balancedSizes length parts) := by
  have each : partLengthUpTo length (length / parts) (length % parts) =
      fun part => pure (balancedLength length parts part) :=
    funext (partLengthUpTo_eq_some positive)
  rw [each, List.mapM_pure]
  rfl

theorem balancedSizesUpTo_eq_some (positive : 0 < parts) :
    balancedSizesUpTo length length parts = some (balancedSizes length parts) := by
  rw [balancedSizesUpTo, upTo_eq_some (Nat.div_le_self _ _), upTo_eq_some (Nat.mod_le _ _)]
  exact mapM_partLengthUpTo positive

theorem balancedRangesUpTo_eq_some (positive : 0 < parts) :
    balancedRangesUpTo length length parts = some (balancedRanges length parts) := by
  have within : 0 + (balancedSizes length parts).sum ≤ length := by
    rw [sum_balancedSizes positive, Nat.zero_add]
  rw [balancedRangesUpTo, upTo_eq_some (Nat.div_le_self _ _), upTo_eq_some (Nat.mod_le _ _)]
  simp only [Option.bind_eq_bind, Option.bind_some, mapM_partLengthUpTo positive]
  exact spansUpTo_eq_some within

theorem partitionUpTo_eq_some (positive : 0 < parts) {rank : Nat} (inside : rank < parts) :
    Ipc.partitionUpTo length length parts rank = some (Ipc.partition length parts rank) := by
  have offset : rank * (length / parts) + min rank (length % parts) ≤
      length := by
    have later := @balancedOffset_mono length parts _ _ inside.le
    rwa [balancedOffset_all positive] at later
  have part := balancedLength_le length positive rank
  rw [Ipc.partitionUpTo, upTo_eq_some (Nat.div_le_self _ _), upTo_eq_some (Nat.mod_le _ _)]
  simp only [Option.bind_eq_bind, Option.bind_some]
  rw [upTo_eq_some ((Nat.le_add_right _ _).trans offset), Option.bind_some,
    upTo_eq_some ((Nat.le_add_left _ _).trans offset), Option.bind_some,
    upTo_eq_some offset, Option.bind_some,
    upTo_eq_some ((Nat.le_add_left _ _).trans part), Option.bind_some,
    upTo_eq_some part]
  rfl

end Parts

/-- Spans that cut `length` elements into balanced parts. -/
structure BalancedParts (length parts : Nat) (spans : List Span) : Prop where
  count : spans.length = parts
  consecutive : Consecutive 0 length spans
  once : ∀ index, spans.countP (fun span => decide (span.Covers index)) =
    if index < length then 1 else 0
  sizes : (spans.map Span.length).Pairwise fun first second =>
    second ≤ first ∧ first ≤ second + 1

/-- The four partitions are one, and none computes a value beyond the length. -/
theorem partitions_agree (length parts : Nat) (positive : 0 < parts) :
    BalancedParts length parts (balancedRanges length parts) ∧
      ringChunks length parts = .ok (balancedRanges length parts) ∧
      (∀ rank < parts, ∃ span : Span, (balancedRanges length parts)[rank]? = some span ∧
          Ipc.partition length parts rank = (span.start, span.length)) ∧
      spansFrom 0 (balancedSizes length parts) = balancedRanges length parts ∧
      balancedRangesUpTo length length parts = some (balancedRanges length parts) ∧
      ringChunksUpTo length length parts = .ok (some (balancedRanges length parts)) ∧
      (∀ rank < parts, Ipc.partitionUpTo length length parts rank =
        some (Ipc.partition length parts rank)) ∧
      (balancedSizesUpTo length length parts).bind (spansUpTo length 0) =
        some (balancedRanges length parts) := by
  have consecutive := @consecutive_balancedRanges length parts positive
  refine ⟨⟨length_balancedRanges .., consecutive, ?once, ?sizes⟩, ?chunks,
    fun rank inside => partition_eq inside,
    spansFrom_balancedSizes .., balancedRangesUpTo_eq_some positive,
    ?chunksUpTo, fun rank inside => partitionUpTo_eq_some positive inside,
    ?sizesUpTo⟩
  case once =>
    intro index
    rw [consecutive.countP_covers]
    simp only [Nat.zero_le, true_and]
  case sizes =>
    rw [map_length_balancedRanges]
    exact pairwise_balancedSizes length parts
  case chunks => rw [ringChunks_eq_ok length positive, balancedRanges_eq_ranked]
  case chunksUpTo =>
    rw [ringChunksUpTo, rejectIf, if_neg positive.ne', balancedRangesUpTo_eq_some positive]
    rfl
  case sizesUpTo =>
    rw [balancedSizesUpTo_eq_some positive, Option.bind_some]
    apply spansUpTo_eq_some
    rw [sum_balancedSizes positive, Nat.zero_add]

/-- Seven elements in three parts. -/
theorem partitions_agree_seven : Ipc.partitionUpTo 7 7 3 1 = some (3, 2) :=
  (partitions_agree 7 3 (by decide)).2.2.2.2.2.2.1 1 (by decide)

end RuCCL.InProcess
