import RuCCL.Library.Segment
import RuCCL.Rank.Layout
import RuCCL.Rank.RoutingCorrect

/-!
# Payloads with counts in front

A counted payload starts with one little-endian count for each rank; the data of all
ranks follows.  The coordinator and the client decode it each on their own.  Both
accept exactly the frames whose flag, prefix, header and length agree, and both cut
such a payload in the same two parts.
-/

namespace RuCCL.Rank

open RuCCL.Library

/-- The counts as the client writes them. -/
def Payload.encodeCounts (counts : List Nat) : List UInt8 := counts.flatMap (leBytes 8)

/-- How the client's decoder ends without a value. -/
inductive CountsFault where
  | rank (error : RankError)
  | network (error : NetworkError)
  | panic
  deriving DecidableEq

/-- Return an invalid configuration when `condition` holds. -/
def refuseIf (condition : Prop) [Decidable condition]
    (message : String) : Except CountsFault Unit :=
  rejectIf condition (.network (.invalidConfiguration message))

def orOverflow {α : Type} (value : Option α) (operation : String) :
    Except CountsFault α :=
  okOr value (.rank (.overflow operation))

/-- `&values[start..stop]` -/
def clientSlice {α : Type} (values : List α) (start stop : Nat) : Except CountsFault (List α) :=
  if start ≤ stop ∧ stop ≤ values.length then
    .ok ((values.drop start).take (stop - start))
  else .error .panic

def decodeCountsResponse (response : Frame) (worldSize elementBytes : Nat) :
    Except CountsFault (List Nat × List UInt8) := do
  refuseIf (response.header.flags &&& flagCountsPrefix = 0)
    "TCP all-to-all-v response is missing counts"
  let prefixBytes ← orOverflow (checkedMul worldSize 8) "TCP all-to-all-v counts prefix"
  refuseIf (response.payload.length < prefixBytes) "TCP all-to-all-v counts prefix is truncated"
  let encoded ← clientSlice response.payload 0 prefixBytes
  let counts := (chunksOfEight encoded).map leValue
  let total ← orOverflow (checkedSum counts) "TCP all-to-all-v receive count"
  let declared := response.header.elementCount
  refuseIf (total ≠ declared.toNat)
    s!"TCP all-to-all-v counts sum to {total}, header declares {declared}"
  let data ← clientSlice response.payload prefixBytes response.payload.length
  let expected ← orOverflow (checkedMul total elementBytes) "TCP all-to-all-v data"
  let actual := data.length
  refuseIf (actual ≠ expected) s!"TCP all-to-all-v data has {actual} bytes, expected {expected}"
  .ok (counts, data)

theorem encodeCounts_cons (count : Nat) (counts : List Nat) :
    encodeCounts (count :: counts) = leBytes 8 count ++ encodeCounts counts :=
  List.flatMap_cons

theorem length_encodeCounts (counts : List Nat) :
    (encodeCounts counts).length = counts.length * 8 := by
  induction counts with
  | nil => rfl
  | cons count rest ih =>
      rw [encodeCounts_cons, List.length_append, leBytes_length, ih, List.length_cons]
      omega

theorem chunksOfEight_encodeCounts (counts : List Nat) :
    chunksOfEight (encodeCounts counts) = counts.map (leBytes 8) := by
  induction counts with
  | nil => rfl
  | cons count rest ih =>
      rw [encodeCounts_cons, List.map_cons, ← ih]
      rfl

/-- Counts of eight bytes come back. -/
theorem decoded_encodeCounts {counts : List Nat} (small : ∀ count ∈ counts, count < wordSize) :
    (chunksOfEight (encodeCounts counts)).map leValue = counts := by
  rw [chunksOfEight_encodeCounts, List.map_map]
  refine (List.map_congr_left fun count among => ?_).trans (List.map_id counts)
  exact leValue_leBytes (small count among)

/-- Bytes in whole groups of eight come back. -/
theorem encodeCounts_decoded {bytes : List UInt8} {groups : Nat}
    (whole : bytes.length = groups * 8) :
    encodeCounts ((chunksOfEight bytes).map leValue) = bytes := by
  induction groups generalizing bytes with
  | zero =>
      rw [Nat.zero_mul] at whole
      rw [List.length_eq_zero_iff.mp whole]
      rfl
  | succ groups ih =>
      match bytes with
      | b0 :: b1 :: b2 :: b3 :: b4 :: b5 :: b6 :: b7 :: rest =>
          have later : rest.length = groups * 8 := by
            simp only [List.length_cons] at whole
            omega
          rw [chunksOfEight, List.map_cons, encodeCounts_cons, ih later]
          have group := leBytes_leValue [b0, b1, b2, b3, b4, b5, b6, b7]
          exact congrArg (· ++ rest) group
      | [] | [_] | [_, _] | [_, _, _] | [_, _, _, _]
      | [_, _, _, _, _] | [_, _, _, _, _, _]
      | [_, _, _, _, _, _, _] =>
          simp only [List.length_cons, List.length_nil] at whole
          omega

theorem checkedSum_eq_some_iff {values : List Nat} {total : Nat} :
    checkedSum values = some total ↔ values.sum < wordSize ∧ total = values.sum := by
  constructor
  · intro summed
    have bounded := eq_add_sum_of_checkedAdd (by decide) summed
    rw [Nat.zero_add] at bounded
    rw [← bounded.1]
    exact ⟨bounded.2, rfl⟩
  · rintro ⟨small, rfl⟩
    have folded := @foldlM_checkedAdd values 0 (by rwa [Nat.zero_add])
    rwa [Nat.zero_add] at folded

/-- A frame whose flag, prefix, header and length agree, with its counts and its
data. -/
structure Counted (worldSize elementBytes : Nat) (frame : Frame)
    (counts : List Nat) (data : List UInt8) : Prop where
  flagged : frame.header.flags &&& flagCountsPrefix ≠ 0
  width : counts.length = worldSize
  prefixFits : worldSize * 8 < wordSize
  payload : frame.payload = encodeCounts counts ++ data
  declared : frame.header.elementCount.toNat = counts.sum
  dataFits : counts.sum * elementBytes < wordSize
  filled : data.length = counts.sum * elementBytes

namespace Counted

variable {worldSize elementBytes : Nat} {frame : Frame} {counts : List Nat} {data : List UInt8}

theorem sum_lt (counted : Counted worldSize elementBytes frame counts data) :
    counts.sum < wordSize := by
  rw [← counted.declared]
  exact frame.header.elementCount.toNat_lt

theorem count_lt (counted : Counted worldSize elementBytes frame counts data)
    {count : Nat} (among : count ∈ counts) : count < wordSize :=
  lt_of_le_of_lt (List.le_sum_of_mem among) counted.sum_lt

theorem long (counted : Counted worldSize elementBytes frame counts data) :
    worldSize * 8 ≤ frame.payload.length := by
  rw [counted.payload, List.length_append, length_encodeCounts, counted.width]
  exact Nat.le_add_right _ _

theorem take_payload (counted : Counted worldSize elementBytes frame counts data) :
    frame.payload.take (worldSize * 8) = encodeCounts counts := by
  rw [counted.payload, ← counted.width, ← length_encodeCounts, List.take_left]

theorem drop_payload (counted : Counted worldSize elementBytes frame counts data) :
    frame.payload.drop (worldSize * 8) = data := by
  rw [counted.payload, ← counted.width, ← length_encodeCounts, List.drop_left]

theorem decoded (counted : Counted worldSize elementBytes frame counts data) :
    (chunksOfEight (frame.payload.take (worldSize * 8))).map leValue =
      counts := by
  rw [counted.take_payload]
  exact decoded_encodeCounts fun count among => counted.count_lt among

end Counted

/-- What a decoder checks, in the order in which it does. -/
theorem counted_iff_checks {worldSize elementBytes : Nat} {frame : Frame}
    {counts : List Nat} {data : List UInt8} :
    Counted worldSize elementBytes frame counts data ↔
      frame.header.flags &&& flagCountsPrefix ≠ 0 ∧
      worldSize * 8 < wordSize ∧
      worldSize * 8 ≤ frame.payload.length ∧
      counts.sum = frame.header.elementCount.toNat ∧
      counts.sum * elementBytes < wordSize ∧
      data.length = counts.sum * elementBytes ∧
      (chunksOfEight (frame.payload.take (worldSize * 8))).map leValue = counts ∧
      frame.payload.drop (worldSize * 8) = data := by
  constructor
  · intro counted
    exact ⟨counted.flagged, counted.prefixFits, counted.long,
      counted.declared.symm, counted.dataFits, counted.filled,
      counted.decoded, counted.drop_payload⟩
  · rintro ⟨flagged, prefixFits, long, declared, dataFits, filled, rfl, rfl⟩
    have size : (frame.payload.take (worldSize * 8)).length = worldSize * 8 := by
      rw [List.length_take, Nat.min_eq_left long]
    refine ⟨flagged, ?_, prefixFits, ?_, declared.symm, dataFits, filled⟩
    · rw [List.length_map, chunksOfEight_length, size, Nat.mul_div_cancel _ (by decide)]
    · rw [encodeCounts_decoded size, List.take_append_drop]

theorem sliceRange_eq_ok_iff {values result : List UInt8} {start stop : Nat} :
    sliceRange values start stop = .ok result ↔ (start ≤ stop ∧ stop ≤ values.length) ∧
        (values.drop start).take (stop - start) = result := by
  unfold sliceRange
  split
  case isTrue inside => rw [Except.ok.injEq, and_iff_right inside]
  case isFalse outside =>
    exact iff_of_false (fun made => by cases made)
      (fun holds => outside holds.1)

theorem clientSlice_eq_ok_iff {values result : List UInt8} {start stop : Nat} :
    clientSlice values start stop = .ok result ↔ (start ≤ stop ∧ stop ≤ values.length) ∧
        (values.drop start).take (stop - start) = result := by
  unfold clientSlice
  split
  case isTrue inside => rw [Except.ok.injEq, and_iff_right inside]
  case isFalse outside =>
    exact iff_of_false (fun made => by cases made)
      (fun holds => outside holds.1)

/-- A slice up to the end. -/
theorem slice_tail (values : List UInt8) (start : Nat) :
    (values.drop start).take (values.length - start) = values.drop start := by
  rw [← List.length_drop, List.take_length]

theorem decodeCountsPayload_eq_ok_iff (frame : Frame)
    (worldSize elementBytes : Nat) (counts : List Nat)
    (data : List UInt8) :
    decodeCountsPayload frame worldSize elementBytes = .ok (counts, data) ↔
      Counted worldSize elementBytes frame counts data := by
  simp only [decodeCountsPayload, invalidIf, orInvalid, bind_eq_ok_iff,
    rejectIf_eq_ok_iff, okOr_eq_ok_iff, checkedMul_eq_some_iff,
    checkedSum_eq_some_iff, sliceRange_eq_ok_iff, exists_const, ne_eq,
    not_not, Except.ok.injEq, Prod.mk.injEq, counted_iff_checks]
  constructor
  · rintro ⟨flagged, _, ⟨prefixFits, rfl⟩, long, _, ⟨_, rfl⟩, _, ⟨_, rfl⟩,
      declared, _, ⟨dataFits, rfl⟩, _, ⟨_, rfl⟩, filled, rfl, rfl⟩
    rw [slice_tail] at filled ⊢
    exact ⟨flagged, prefixFits, Nat.not_lt.mp long, declared, dataFits, filled, rfl, rfl⟩
  · rintro ⟨flagged, prefixFits, long, declared, dataFits, filled, rfl, rfl⟩
    have small : ((chunksOfEight (frame.payload.take
        (worldSize * 8))).map leValue).sum < wordSize := by
      rw [declared]
      exact frame.header.elementCount.toNat_lt
    refine ⟨flagged, _, ⟨prefixFits, rfl⟩, Nat.not_lt.mpr long, _,
      ⟨⟨Nat.zero_le _, long⟩, rfl⟩, _, ⟨small, rfl⟩, declared, _,
      ⟨dataFits, rfl⟩, _, ⟨⟨long, Nat.le_refl _⟩, rfl⟩, ?_, rfl, ?_⟩
    · rw [slice_tail]
      exact filled
    · rw [slice_tail]

theorem decodeCountsResponse_eq_ok_iff (response : Frame)
    (worldSize elementBytes : Nat) (counts : List Nat)
    (data : List UInt8) :
    decodeCountsResponse response worldSize elementBytes = .ok (counts, data) ↔
      Counted worldSize elementBytes response counts data := by
  simp only [decodeCountsResponse, refuseIf, orOverflow, bind_eq_ok_iff,
    rejectIf_eq_ok_iff, okOr_eq_ok_iff, checkedMul_eq_some_iff,
    checkedSum_eq_some_iff, clientSlice_eq_ok_iff, exists_const, ne_eq,
    not_not, Except.ok.injEq, Prod.mk.injEq, counted_iff_checks]
  constructor
  · rintro ⟨flagged, _, ⟨prefixFits, rfl⟩, long, _, ⟨_, rfl⟩, _, ⟨_, rfl⟩,
      declared, _, ⟨_, rfl⟩, _, ⟨dataFits, rfl⟩, filled, rfl, rfl⟩
    rw [slice_tail] at filled ⊢
    exact ⟨flagged, prefixFits, Nat.not_lt.mp long, declared, dataFits, filled, rfl, rfl⟩
  · rintro ⟨flagged, prefixFits, long, declared, dataFits, filled, rfl, rfl⟩
    have small : ((chunksOfEight (response.payload.take
        (worldSize * 8))).map leValue).sum < wordSize := by
      rw [declared]
      exact response.header.elementCount.toNat_lt
    refine ⟨flagged, _, ⟨prefixFits, rfl⟩, Nat.not_lt.mpr long, _,
      ⟨⟨Nat.zero_le _, long⟩, rfl⟩, _, ⟨small, rfl⟩, declared, _,
      ⟨⟨long, Nat.le_refl _⟩, rfl⟩, _, ⟨dataFits, rfl⟩, ?_, rfl, ?_⟩
    · rw [slice_tail]
      exact filled
    · rw [slice_tail]

/-- The client leaves no payload either. -/
theorem decodeCountsResponse_ne_panic (response : Frame) (worldSize elementBytes : Nat) :
    decodeCountsResponse response worldSize elementBytes ≠
      .error .panic := by
  have step {α : Type} {computation : Except CountsFault α}
      {rest : α → Except CountsFault (List Nat × List UInt8)}
      (first : computation ≠ .error .panic)
      (later : ∀ value, computation = .ok value → rest value ≠ .error .panic) :
      (computation >>= rest) ≠ .error .panic := by
    cases computation with
    | error fault =>
        intro failed
        rw [error_bind, Except.error.injEq] at failed
        exact first (congrArg Except.error failed)
    | ok value => exact later value rfl
  have refused (condition : Prop) [Decidable condition]
      (message : String) : refuseIf condition message ≠ .error .panic := by
    unfold refuseIf rejectIf
    split <;> exact fun failed => by cases failed
  have overflowed {α : Type} (value : Option α) (operation : String) :
      orOverflow value operation ≠ .error .panic := by
    cases value <;> exact fun failed => by cases failed
  have inside {values : List UInt8} {start stop : Nat}
      (ordered : start ≤ stop ∧ stop ≤ values.length) :
      clientSlice values start stop ≠ .error .panic := by
    rw [clientSlice, if_pos ordered]
    exact fun failed => by cases failed
  rw [decodeCountsResponse]
  refine step (refused _ _) fun _ _ => step (overflowed _ _)
    fun prefixBytes _ => step (refused _ _) fun _ checked => ?_
  have long := Nat.not_lt.mp ((rejectIf_eq_ok_iff ..).mp checked)
  refine step (inside ⟨Nat.zero_le _, long⟩) fun _ _ =>
    step (overflowed _ _) fun _ _ => step (refused _ _) fun _ _ =>
      step (inside ⟨long, Nat.le_refl _⟩) fun _ _ =>
        step (overflowed _ _) fun _ _ => step (refused _ _) fun _ _ => ?_
  exact fun failed => by cases failed

end RuCCL.Rank
