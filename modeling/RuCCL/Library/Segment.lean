import Mathlib.Algebra.BigOperators.Ring.List
import Mathlib.Algebra.Ring.Nat
import Mathlib.Data.List.OfFn

/-!
# Segments of lists

A list is read in segments and overwritten from an offset on.  A list made of
consecutive blocks gives each block back as the segment behind the blocks before
it, and a list that is overwritten with segments of another one agrees with it
wherever something has been written.
-/

namespace RuCCL.Library

variable {α : Type}

/-- The `length` values from `start` on. -/
def segment (values : List α) (start length : Nat) : List α := (values.drop start).take length

/-- The values with those from `start` on overwritten by `piece`. -/
def splice (values : List α) (start : Nat) (piece : List α) : List α :=
  values.take start ++ piece ++ values.drop (start + piece.length)

@[simp]
theorem segment_length_zero (values : List α) (start : Nat) : segment values start 0 = [] := by
  simp [segment]

theorem length_segment {values : List α} {start length : Nat}
    (inside : start + length ≤ values.length) :
    (segment values start length).length = length := by
  simp only [segment, List.length_take, List.length_drop]
  omega

theorem getElem?_segment (values : List α) (start length index : Nat) :
    (segment values start length)[index]? =
      if index < length then values[start + index]? else none := by
  simp [segment, List.getElem?_take]

/-- A segment of a segment. -/
theorem segment_segment {values : List α}
    {start length offset width : Nat} (inside : offset + width ≤ length) :
    segment (segment values start length) offset width =
      segment values (start + offset) width := by
  unfold segment
  rw [List.drop_take, List.take_take, List.drop_drop, Nat.min_eq_left (by omega)]

/-- Consecutive segments of one size; what is left behind them is dropped. -/
def exactSegments (size : Nat) (values : List α) : List (List α) :=
  (List.range (values.length / size)).map fun index =>
    segment values (index * size) size

theorem exactSegments_append {size : Nat} {part rest : List α}
    (positive : 0 < size) (exact : part.length = size) :
    exactSegments size (part ++ rest) = part :: exactSegments size rest := by
  have count : (part ++ rest).length / size = rest.length / size + 1 := by
    rw [List.length_append, exact, Nat.add_div_left _ positive]
  have first : segment (part ++ rest) (0 * size) size = part := by
    simp [segment, ← exact]
  have later (index : Nat) :
      segment (part ++ rest) ((index + 1) * size) size = segment rest (index * size) size := by
    have behind : (index + 1) * size = part.length + index * size := by
      rw [exact, Nat.add_mul, Nat.one_mul, Nat.add_comm]
    rw [segment, behind, List.drop_length_add_append]
    rfl
  unfold exactSegments
  rw [count, List.range_succ_eq_map, List.map_cons, List.map_map, first]
  congr 2
  funext index
  exact later index

/-- Pieces of one size are found again. -/
theorem exactSegments_flatten {size : Nat} (positive : 0 < size) {parts : List (List α)}
    (exact : ∀ part ∈ parts, part.length = size) :
    exactSegments size parts.flatten = parts := by
  induction parts with
  | nil => simp [exactSegments]
  | cons part parts ih =>
      rw [List.flatten_cons, exactSegments_append positive (exact part List.mem_cons_self), ih
        (fun other member => exact other (List.mem_cons_of_mem _ member))]

theorem length_splice {values piece : List α} {start : Nat}
    (inside : start + piece.length ≤ values.length) :
    (splice values start piece).length = values.length := by
  simp only [splice, List.length_append, List.length_take, List.length_drop]
  omega

theorem getElem?_splice {values piece : List α} {start : Nat}
    (inside : start + piece.length ≤ values.length) (index : Nat) :
    (splice values start piece)[index]? =
      if start ≤ index ∧ index < start + piece.length then
        piece[index - start]?
      else values[index]? := by
  have front : (values.take start).length = start := by
    rw [List.length_take]
    omega
  unfold splice
  by_cases before : index < start
  · rw [List.append_assoc, List.getElem?_append_left (by omega),
      List.getElem?_take_of_lt before, if_neg (by omega)]
  by_cases within : index < start + piece.length
  · rw [List.append_assoc, List.getElem?_append_right (by omega), front,
      List.getElem?_append_left (by omega), if_pos (by omega)]
  · have length : (values.take start ++ piece).length = start + piece.length := by
      rw [List.length_append, front]
    rw [List.getElem?_append_right (by omega), length,
      List.getElem?_drop, if_neg (by omega)]
    congr 1
    omega

/-- The sum of the first values. -/
def before (counts : List Nat) (index : Nat) : Nat := (counts.take index).sum

@[simp]
theorem before_zero (counts : List Nat) : before counts 0 = 0 := by
  simp [before]

theorem before_cons_succ (count : Nat) (counts : List Nat) (index : Nat) :
    before (count :: counts) (index + 1) = count + before counts index := by
  simp [before]

theorem before_succ {counts : List Nat} {index count : Nat}
    (located : counts[index]? = some count) :
    before counts (index + 1) = before counts index + count := by
  unfold before
  rw [List.take_add_one, located]
  simp

theorem before_length (counts : List Nat) : before counts counts.length = counts.sum := by
  simp [before]

theorem before_mono (counts : List Nat) : Monotone (before counts) := by
  refine monotone_nat_of_le_succ fun index => ?_
  unfold before
  rw [List.take_add_one, List.sum_append]
  exact Nat.le_add_right _ _

theorem before_le_sum (counts : List Nat) (index : Nat) : before counts index ≤ counts.sum := by
  unfold before
  conv_rhs => rw [← List.take_append_drop index counts]
  rw [List.sum_append]
  exact Nat.le_add_right _ _

theorem before_add_le_sum {counts : List Nat} {index count : Nat}
    (located : counts[index]? = some count) :
    before counts index + count ≤ counts.sum := by
  rw [← before_succ located]
  exact before_le_sum counts (index + 1)

theorem before_map_mul (counts : List Nat) (factor index : Nat) :
    before (counts.map (· * factor)) index = before counts index * factor := by
  have scaled := List.sum_map_mul_right (counts.take index) (fun count => count) factor
  rw [List.map_id'] at scaled
  rw [before, ← List.map_take]
  exact scaled

/-- The block behind the blocks before it. -/
theorem segment_flatten {blocks : List (List α)} {index : Nat}
    {block : List α} (located : blocks[index]? = some block) :
    segment blocks.flatten (before (blocks.map List.length) index) block.length = block := by
  induction blocks generalizing index with
  | nil => cases located
  | cons first rest ih =>
      cases index with
      | zero =>
          cases located
          simp [segment]
      | succ index =>
          rw [List.map_cons, before_cons_succ, List.flatten_cons, segment,
            List.drop_length_add_append]
          exact ih located

/-- A block among blocks of one length. -/
theorem segment_flatten_of_length {blocks : List (List α)} {width : Nat}
    (uniform : ∀ block ∈ blocks, block.length = width) {index : Nat}
    {block : List α} (located : blocks[index]? = some block) :
    segment blocks.flatten (index * width) width = block := by
  induction blocks generalizing index with
  | nil => cases located
  | cons first rest ih =>
      have exact := uniform first List.mem_cons_self
      cases index with
      | zero =>
          cases located
          simp [segment, ← exact]
      | succ index =>
          have behind : (index + 1) * width = first.length + index * width := by
            rw [exact, Nat.succ_mul, Nat.add_comm]
          rw [List.flatten_cons, segment, behind, List.drop_length_add_append]
          exact ih
            (fun other member => uniform other (List.mem_cons_of_mem _ member)) located

/-- Every position lies in one of the blocks. -/
theorem exists_block {counts : List Nat} {position : Nat} (inside : position < counts.sum) :
    ∃ index count rest, counts[index]? = some count ∧ rest < count ∧
      position = before counts index + rest := by
  induction counts generalizing position with
  | nil => cases inside
  | cons first later ih =>
      by_cases here : position < first
      · exact ⟨0, first, position, rfl, here, by simp⟩
      · rw [List.sum_cons] at inside
        obtain ⟨index, count, rest, located, small, same⟩ :=
          @ih (position - first) (by omega)
        refine ⟨index + 1, count, rest, located, small, ?_⟩
        rw [before_cons_succ]
        omega

/-- The values are those of the target at every position that satisfies
`written`. -/
def AgreesOn (written : Nat → Prop) (values target : List α) : Prop :=
  ∀ index, written index → values[index]? = target[index]?

/-- A segment of the target written over the values extends the agreement. -/
theorem AgreesOn.splice {written : Nat → Prop} {values target : List α}
    {start length : Nat} (agrees : AgreesOn written values target)
    (lengths : values.length = target.length)
    (inside : start + length ≤ target.length) :
    AgreesOn (fun index => written index ∨ (start ≤ index ∧ index < start + length))
      (splice values start (segment target start length)) target := by
  intro index covered
  have size := length_segment inside
  rw [getElem?_splice (by omega), size]
  by_cases here : start ≤ index ∧ index < start + length
  · rw [if_pos here, getElem?_segment, if_pos (by omega)]
    congr 1
    omega
  · rw [if_neg here]
    exact agrees index (covered.resolve_right here)

theorem AgreesOn.mono {written other : Nat → Prop}
    {values target : List α} (agrees : AgreesOn written values target)
    (fewer : ∀ index, other index → written index) :
    AgreesOn other values target :=
  fun index covered => agrees index (fewer index covered)

/-- Agreement everywhere is equality. -/
theorem AgreesOn.eq {written : Nat → Prop} {values target : List α}
    (agrees : AgreesOn written values target)
    (lengths : values.length = target.length)
    (everywhere : ∀ index, index < target.length → written index) :
    values = target := by
  apply List.ext_getElem?
  intro index
  by_cases inside : index < target.length
  · exact agrees index (everywhere index inside)
  · rw [List.getElem?_eq_none (by omega), List.getElem?_eq_none (by omega)]

end RuCCL.Library
