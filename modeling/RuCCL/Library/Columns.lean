import RuCCL.Library.Ring
import RuCCL.Library.Segment

/-!
# Rows combined position by position

Rows of one length are folded into the first of them.  At every position the result
is the fold of the column, so an order-free operation makes the whole fold
order-free.
-/

namespace RuCCL.Library

variable {α : Type}

/-- What the rows hold at a position. -/
def column (rows : List (List α)) (position : Nat) : List α := rows.filterMap (·[position]?)

theorem column_cons {row : List α} {rows : List (List α)} {position : Nat}
    {value : α} (located : row[position]? = some value) :
    column (row :: rows) position = value :: column rows position :=
  List.filterMap_cons_some located

theorem column_perm {rows others : List (List α)} (permuted : rows.Perm others)
    (position : Nat) : (column rows position).Perm (column others position) :=
  permuted.filterMap _

theorem length_foldl_zipWith (op : α → α → α) {first : List α}
    {rows : List (List α)} (lengths : ∀ row ∈ rows, row.length = first.length) :
    (rows.foldl (List.zipWith op) first).length = first.length := by
  induction rows generalizing first with
  | nil => rfl
  | cons row rows ih =>
      have head := lengths row List.mem_cons_self
      have combined : (List.zipWith op first row).length = first.length := by
        rw [List.length_zipWith, head, Nat.min_self]
      rw [List.foldl_cons, ih, combined]
      intro other member
      rw [combined]
      exact lengths other (List.mem_cons_of_mem _ member)

/-- At every position the rows are folded by themselves. -/
theorem getElem?_foldl_zipWith (op : α → α → α) {first : List α}
    {rows : List (List α)} (lengths : ∀ row ∈ rows, row.length = first.length)
    {position : Nat} (inside : position < first.length) :
    (rows.foldl (List.zipWith op) first)[position]? =
      reduceAll op (column (first :: rows) position) := by
  induction rows generalizing first with
  | nil =>
      rw [column_cons (List.getElem?_eq_getElem inside)]
      exact List.getElem?_eq_getElem inside
  | cons row rows ih =>
      have head := lengths row List.mem_cons_self
      have combined : (List.zipWith op first row).length = first.length := by
        rw [List.length_zipWith, head, Nat.min_self]
      have within : position < row.length := by
        rw [head]
        exact inside
      have here : (List.zipWith op first row)[position]? =
          some (op first[position] row[position]) := by
        rw [List.getElem?_zipWith, List.getElem?_eq_getElem inside,
          List.getElem?_eq_getElem within]
      rw [List.foldl_cons, ih, column_cons here, column_cons (List.getElem?_eq_getElem inside),
        column_cons (List.getElem?_eq_getElem within)]
      · rfl
      · intro other member
        rw [combined]
        exact lengths other (List.mem_cons_of_mem _ member)
      · rw [combined]
        exact inside

/-- Consecutive segments of one size make up the whole again. -/
theorem flatten_exactSegments {size : Nat} (positive : 0 < size)
    {values : List α} (divisible : values.length % size = 0) :
    (exactSegments size values).flatten = values ∧
      ∀ part ∈ exactSegments size values, part.length = size := by
  obtain ⟨count, total⟩ := Nat.dvd_of_mod_eq_zero divisible
  induction count generalizing values with
  | zero =>
      rw [Nat.mul_zero, List.length_eq_zero_iff] at total
      rw [total]
      simp [exactSegments]
  | succ before ih =>
      have front : (values.take size).length = size := by
        rw [List.length_take, total, Nat.mul_succ]
        omega
      have behind : (values.drop size).length = size * before := by
        rw [List.length_drop, total, Nat.mul_succ]
        omega
      have rest := ih (by rw [behind]; exact Nat.mul_mod_right _ _) behind
      rw [← List.take_append_drop size values, exactSegments_append positive front]
      refine ⟨?_, ?_⟩
      · rw [List.flatten_cons, rest.1]
      · intro part member
        rcases List.mem_cons.mp member with rfl | later
        · exact front
        · exact rest.2 part later

/-- Behind the first row the segments are the other rows. -/
theorem map_segment_rows {first : List α} {rows : List (List α)} {elements : Nat}
    (lengths : ∀ row ∈ first :: rows, row.length = elements) :
    (List.range' 1 rows.length).map (fun source =>
      segment (first :: rows).flatten (source * elements) elements) =
        rows := by
  apply List.ext_getElem?
  intro index
  rw [List.getElem?_map]
  by_cases inside : index < rows.length
  · have located : (first :: rows)[1 + index]? = some rows[index] := by
      rw [Nat.add_comm, List.getElem?_cons_succ, List.getElem?_eq_getElem inside]
    rw [List.getElem?_eq_getElem (by simpa using inside),
      List.getElem_range', Option.map_some, Nat.one_mul,
      segment_flatten_of_length lengths located,
      List.getElem?_eq_getElem inside]
  · rw [List.getElem?_eq_none (by simpa using inside),
      List.getElem?_eq_none (by simpa using inside), Option.map_none]

theorem length_flatten_rows {rows : List (List α)} {elements : Nat}
    (lengths : ∀ row ∈ rows, row.length = elements) :
    rows.flatten.length = elements * rows.length := by
  rw [List.length_flatten, List.map_congr_left lengths, List.map_const',
    List.sum_replicate, smul_eq_mul, Nat.mul_comm]

section Least

variable (key : α → Int)

/-- The value with the smaller key. -/
def leastBy (first second : α) : α :=
  if key second < key first then second else first

theorem leastBy_comm {key : α → Int} (injective : Function.Injective key) (first second : α) :
    leastBy key first second = leastBy key second first := by
  unfold leastBy
  split_ifs with before behind
  · exact absurd behind before.asymm
  · rfl
  · rfl
  · exact injective (by omega)

theorem leastBy_assoc (first second third : α) :
    leastBy key (leastBy key first second) third =
      leastBy key first (leastBy key second third) := by
  unfold leastBy
  split_ifs <;> first | rfl | omega

end Least

end RuCCL.Library
