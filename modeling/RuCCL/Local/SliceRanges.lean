import RuCCL.Local.Strategies
import RuCCL.Library.Partition

/-!
# The slices of a ring

A ring with as many slices as participants rounds the size of a slice up and lets
the last slice end where the axis does.  The slices before it then may use up the
axis, so that the last ones start behind its end.
-/

namespace RuCCL.Local

open RuCCL.Library

/-- The ranges cut an axis into so many consecutive pieces. -/
structure PartitionsAxis (ranges : List (Nat × Nat)) (count size : Nat) :
    Prop where
  counted : ranges.length = count
  nonempty : ∀ range ∈ ranges, range.1 < range.2
  bounded : ∀ range ∈ ranges, range.2 ≤ size
  consecutive : ∀ (index : Nat) (left right : Nat × Nat),
    ranges[index]? = some left → ranges[index + 1]? = some right →
    left.2 = right.1
  covered : ∀ position < size, ∃! index : Nat, ∃ range, ranges[index]? = some range ∧
      range.1 ≤ position ∧ position < range.2

/-- The slices of a ring are such ranges. -/
def SlicesPartition (size count : Nat) : Prop :=
  ∃ ranges, getRingReduceSliceRanges size count = .ok ranges ∧ PartitionsAxis ranges count size

/-- The size of all slices but the last one. -/
def sliceSize (size count : Nat) : Nat := (size + count - 1) / count

/-- Where a slice starts, as long as the axis is not used up. -/
def sliceOffset (size count index : Nat) : Nat := min (index * sliceSize size count) size

section Rounding

variable {size count : Nat}

theorem sliceSize_of_mod_eq_zero (positive : 0 < count) (divides : size % count = 0) :
    sliceSize size count = size / count := by
  obtain ⟨quotient, rfl⟩ := Nat.dvd_of_mod_eq_zero divides
  rw [sliceSize, Nat.mul_div_cancel_left _ positive,
    Nat.add_sub_assoc positive, Nat.mul_add_div positive,
    Nat.div_eq_of_lt (by omega), Nat.add_zero]

theorem sliceSize_of_mod_pos (positive : 0 < count) (uneven : 0 < size % count) :
    sliceSize size count = size / count + 1 := by
  have small := Nat.mod_lt size positive
  have split := Nat.div_add_mod size count
  have further : size + count - 1 = count * (size / count + 1) + (size % count - 1) := by
    rw [Nat.mul_add, Nat.mul_one]
    omega
  have rest : (size % count - 1) / count = 0 := Nat.div_eq_of_lt (by omega)
  rw [sliceSize, further, Nat.mul_add_div positive, rest, Nat.add_zero]

/-- All slices together are long enough. -/
theorem le_mul_sliceSize (positive : 0 < count) : size ≤ count * sliceSize size count := by
  have split := Nat.div_add_mod size count
  have small := Nat.mod_lt size positive
  rcases Nat.eq_zero_or_pos (size % count) with even | uneven
  · rw [sliceSize_of_mod_eq_zero positive even]
    omega
  · rw [sliceSize_of_mod_pos positive uneven, Nat.mul_add, Nat.mul_one]
    omega

/-- The last slice starts inside the axis exactly if the size is a multiple of the
count or the rest makes up for what rounding up has added. -/
theorem lastStart_lt_iff (positive : 0 < count) (fits : count ≤ size) :
    (count - 1) * sliceSize size count < size ↔
      size % count = 0 ∨ count ≤ size / count + size % count := by
  obtain ⟨before, rfl⟩ := Nat.exists_eq_add_of_lt positive
  rw [Nat.zero_add] at *
  have split := Nat.div_add_mod size (before + 1)
  have some : 0 < size / (before + 1) := Nat.div_pos fits positive
  rw [Nat.add_mul, Nat.one_mul] at split
  rw [Nat.add_sub_cancel]
  rcases Nat.eq_zero_or_pos (size % (before + 1)) with even | uneven
  · rw [sliceSize_of_mod_eq_zero positive even]
    omega
  · rw [sliceSize_of_mod_pos positive uneven, Nat.mul_add, Nat.mul_one]
    omega

/-- The ranges as the code computes them, when the count is positive. -/
theorem getRingReduceSliceRanges_eq (positive : 0 < count) :
    getRingReduceSliceRanges size count =
      .ok ((List.range count).map fun index =>
        (index * sliceSize size count,
          if index + 1 = count then size
          else index * sliceSize size count + sliceSize size count)) := by
  rw [getRingReduceSliceRanges, if_neg (by omega)]
  rfl

/-- If the last slice starts inside the axis, the ranges are those of a cut. -/
theorem sliceRange_eq_offsets (positive : 0 < count)
    (inside : (count - 1) * sliceSize size count < size) {index : Nat}
    (within : index < count) :
    (index * sliceSize size count,
        if index + 1 = count then size
        else index * sliceSize size count + sliceSize size count) =
      (sliceOffset size count index, sliceOffset size count (index + 1)) := by
  have upTo : ∀ {other : Nat}, other ≤ count - 1 →
      sliceOffset size count other = other * sliceSize size count := by
    intro other small
    have lower := Nat.mul_le_mul_right (sliceSize size count) small
    exact Nat.min_eq_left (by omega)
  rw [upTo (by omega)]
  split
  case isTrue last =>
    have whole : sliceOffset size count (index + 1) = size := by
      rw [sliceOffset, last]
      exact Nat.min_eq_right (le_mul_sliceSize positive)
    rw [whole]
  case isFalse earlier => rw [upTo (by omega), Nat.add_mul, Nat.one_mul]

theorem Cut.slices (positive : 0 < count) :
    Cut (sliceOffset size count) count size where
  begins := by
    rw [sliceOffset, Nat.zero_mul]
    exact Nat.zero_min size
  growing := by
    intro lower upper ordered
    exact min_le_min_right size (Nat.mul_le_mul_right _ ordered)
  whole := Nat.min_eq_right (le_mul_sliceSize positive)

end Rounding

section Partition

variable {size count : Nat}

/-- The ranges of the cut by `sliceOffset`. -/
def offsetRanges (size count : Nat) : List (Nat × Nat) := (List.range count).map fun index =>
    (sliceOffset size count index, sliceOffset size count (index + 1))

theorem getElem?_offsetRanges {range : Nat × Nat} {index : Nat} :
    (offsetRanges size count)[index]? = some range ↔
      index < count ∧ (sliceOffset size count index,
        sliceOffset size count (index + 1)) = range := by
  rw [offsetRanges, List.getElem?_map, Option.map_eq_some_iff]
  constructor
  · rintro ⟨other, found, same⟩
    obtain ⟨within, value⟩ := List.getElem?_eq_some_iff.mp found
    rw [List.getElem_range] at value
    subst value
    exact ⟨by simpa using within, same⟩
  · rintro ⟨within, same⟩
    exact ⟨index, List.getElem?_range within, same⟩

/-- Slices that start inside the axis are the ranges of the cut. -/
theorem getRingReduceSliceRanges_eq_offsets (positive : 0 < count)
    (inside : (count - 1) * sliceSize size count < size) :
    getRingReduceSliceRanges size count = .ok (offsetRanges size count) := by
  rw [getRingReduceSliceRanges_eq positive]
  refine congrArg Except.ok (List.map_congr_left fun index among => ?_)
  exact sliceRange_eq_offsets positive inside (List.mem_range.mp among)

/-- Each slice of the cut has an element. -/
theorem sliceOffset_lt_succ (positive : 0 < count)
    (inside : (count - 1) * sliceSize size count < size) {index : Nat}
    (within : index < count) :
    sliceOffset size count index < sliceOffset size count (index + 1) := by
  have long : 0 < sliceSize size count := by
    have enough := @le_mul_sliceSize size count positive
    rcases Nat.eq_zero_or_pos (sliceSize size count) with none | some
    · rw [none] at enough inside
      omega
    · exact some
  have before : index * sliceSize size count < size := by
    have lower := Nat.mul_le_mul_right (sliceSize size count) (Nat.le_pred_of_lt within)
    rw [Nat.pred_eq_sub_one] at lower
    omega
  rw [sliceOffset, sliceOffset, Nat.add_mul, Nat.one_mul]
  omega

theorem PartitionsAxis.offsets (positive : 0 < count)
    (inside : (count - 1) * sliceSize size count < size) :
    PartitionsAxis (offsetRanges size count) count size where
  counted := by
    rw [offsetRanges, List.length_map, List.length_range]
  nonempty := by
    intro range among
    obtain ⟨index, found⟩ := List.getElem?_of_mem among
    obtain ⟨within, rfl⟩ := getElem?_offsetRanges.mp found
    exact sliceOffset_lt_succ positive inside within
  bounded := by
    intro range among
    obtain ⟨index, found⟩ := List.getElem?_of_mem among
    obtain ⟨_, rfl⟩ := getElem?_offsetRanges.mp found
    exact Nat.min_le_right _ _
  consecutive := by
    intro index left right atLeft atRight
    obtain ⟨_, rfl⟩ := getElem?_offsetRanges.mp atLeft
    obtain ⟨_, rfl⟩ := getElem?_offsetRanges.mp atRight
    rfl
  covered := by
    intro position within
    have cut := @Cut.slices size count positive
    have inWhole : position < sliceOffset size count count := by
      rw [cut.whole]
      exact within
    refine ⟨slotOf (sliceOffset size count) count position,
      ⟨_, getElem?_offsetRanges.mpr ⟨slotOf_lt _ position positive, rfl⟩,
        slotOf_covers cut.begins inWhole⟩, ?_⟩
    rintro index ⟨range, found, covers⟩
    obtain ⟨_, rfl⟩ := getElem?_offsetRanges.mp found
    exact ((covers_iff_slotOf cut.begins cut.growing inWhole).mp covers).symm

/-- Slices that partition an axis start inside it. -/
theorem SlicesPartition.inside (positive : 1 ≤ count) (partition : SlicesPartition size count) :
    (count - 1) * sliceSize size count < size := by
  obtain ⟨ranges, computed, partitions⟩ := partition
  rw [getRingReduceSliceRanges_eq positive] at computed
  cases computed
  have last := partitions.nonempty _ (List.mem_map.mpr
    ⟨count - 1, List.mem_range.mpr (by omega), rfl⟩)
  rw [if_pos (by omega)] at last
  exact last

/-- The slices of a ring partition the axis exactly when the count divides the
size, or quotient and rest together are not below the count. -/
theorem slicesPartition_iff (positive : 1 ≤ count) (fits : count ≤ size) :
    SlicesPartition size count ↔ size % count = 0 ∨ count ≤ size / count + size % count := by
  rw [← lastStart_lt_iff positive fits]
  constructor
  · exact SlicesPartition.inside positive
  · intro inside
    exact ⟨_, getRingReduceSliceRanges_eq_offsets positive inside,
      PartitionsAxis.offsets positive inside⟩

theorem slicesPartition_iff_seven :
    SlicesPartition 7 3 :=
  (slicesPartition_iff (by decide) (by decide)).mpr (by decide)

/-- Four slices of an axis of size five: the third one ends behind the axis, and
the last one starts there. -/
theorem slices_past_end :
    (1 ≤ 4 ∧ 4 ≤ 5) ∧ getRingReduceSliceRanges 5 4 = .ok [(0, 2), (2, 4), (4, 6), (6, 5)] ∧
      ¬SlicesPartition 5 4 := by
  refine ⟨by decide, rfl, ?_⟩
  rintro ⟨ranges, computed, partitions⟩
  cases computed
  have last : 6 < 5 := partitions.nonempty (6, 5) (by decide)
  exact absurd last (by decide)

end Partition

end RuCCL.Local
