import RuCCL.Library.Partition
import Mathlib.Data.List.OfFn

/-!
# Buffers

A buffer of fixed length is read in spans and written from an offset on.
-/

namespace RuCCL.Library

/-- The contents of a buffer. -/
abbrev Buffer (α : Type*) (length : Nat) := Fin length → α

variable {α : Type*} {length other : Nat}

def readAt (span : Span) (buffer : Buffer α length) : List α :=
  ((List.ofFn buffer).drop span.start).take span.length

/-- The buffer with `incoming` combined into it from `offset` on. -/
def mergeAt (combine : α → α → α) (offset : Nat) (incoming : List α)
    (buffer : Buffer α length) : Buffer α length :=
  fun index =>
    if offset ≤ index then
      match incoming[index - offset]? with
      | some arrived => combine (buffer index) arrived
      | none => buffer index
    else buffer index

/-- Arrived values replace the old ones. -/
def overwrite (_ arrived : α) : α := arrived

theorem length_readAt {span : Span} {buffer : Buffer α length} (within : span.stop ≤ length) :
    (readAt span buffer).length = span.length := by
  simp only [readAt, List.length_take, List.length_drop, List.length_ofFn, Span.length]
  omega

theorem getElem?_readAt (span : Span) (buffer : Buffer α length) (index : Nat) :
    (readAt span buffer)[index]? =
      if index < span.length then (List.ofFn buffer)[span.start + index]?
      else none := by
  simp [readAt, List.getElem?_take]

theorem readAt_all (buffer : Buffer α length) : readAt ⟨0, length⟩ buffer = List.ofFn buffer := by
  simp only [readAt, Span.length, List.drop_zero, Nat.sub_zero]
  exact List.take_of_length_le (by simp)

theorem readAt_empty {span : Span} (empty : span.length = 0) (buffer : Buffer α length) :
    readAt span buffer = [] := by
  simp [readAt, empty]

@[simp]
theorem mergeAt_nil (combine : α → α → α) (offset : Nat) (buffer : Buffer α length) :
    mergeAt combine offset [] buffer = buffer := by
  funext index
  simp [mergeAt]

/-- What has just been written is read back. -/
theorem readAt_mergeAt_overwrite {offset : Nat} {incoming : List α} (buffer : Buffer α length)
    (fits : offset + incoming.length ≤ length) :
    readAt ⟨offset, offset + incoming.length⟩
      (mergeAt overwrite offset incoming buffer) = incoming := by
  apply List.ext_getElem?
  intro index
  have width : (⟨offset, offset + incoming.length⟩ : Span).length =
      incoming.length := by
    simp [Span.length]
  rw [getElem?_readAt, width]
  by_cases inside : index < incoming.length
  · have bounded : offset + index < length := by omega
    have place : offset + index - offset = index := by omega
    rw [if_pos inside, List.getElem?_ofFn, dif_pos bounded]
    simp [mergeAt, place, List.getElem?_eq_getElem inside, overwrite]
  · rw [if_neg inside, List.getElem?_eq_none (by omega)]

/-- Writing behind a prefix keeps the prefix. -/
theorem take_mergeAt_overwrite {offset : Nat} {incoming : List α} (buffer : Buffer α length)
    (fits : offset + incoming.length ≤ length) :
    (List.ofFn (mergeAt overwrite offset incoming buffer)).take (offset + incoming.length) =
      (List.ofFn buffer).take offset ++ incoming := by
  have written := readAt_mergeAt_overwrite buffer fits
  have width : (⟨offset, offset + incoming.length⟩ : Span).length =
      incoming.length := by
    simp [Span.length]
  rw [readAt, width] at written
  rw [List.take_add, written]
  refine congrArg (· ++ incoming) ?_
  apply List.ext_getElem?
  intro index
  rw [List.getElem?_take, List.getElem?_take, List.getElem?_ofFn, List.getElem?_ofFn]
  split
  · rename_i before
    have early : ¬offset ≤ index := by omega
    simp [mergeAt, early]
  · rfl

/-- A buffer overwritten from its start to its end. -/
theorem ofFn_mergeAt_overwrite {incoming : List α} (buffer : Buffer α length)
    (same : incoming.length = length) :
    List.ofFn (mergeAt overwrite 0 incoming buffer) = incoming := by
  have back := readAt_mergeAt_overwrite buffer (by omega : 0 + incoming.length ≤ length)
  rwa [Nat.zero_add, same, readAt_all] at back

theorem mergeAt_overwrite_ofFn (source target : Buffer α length) :
    mergeAt overwrite 0 (List.ofFn source) target = source :=
  List.ofFn_injective (ofFn_mergeAt_overwrite target List.length_ofFn)

/-- Only the covered elements are read. -/
theorem readAt_congr {span : Span} {first second : Buffer α length}
    (agree : ∀ index : Fin length, span.Covers index →
      first index = second index) :
    readAt span first = readAt span second := by
  apply List.ext_getElem?
  intro index
  rw [getElem?_readAt, getElem?_readAt]
  split
  · rename_i inside
    rw [List.getElem?_ofFn, List.getElem?_ofFn]
    split
    · rename_i bounded
      refine congrArg some (agree ⟨span.start + index, bounded⟩ ?_)
      unfold Span.length at inside
      exact ⟨Nat.le_add_right _ _, by simp only; omega⟩
    · rfl
  · rfl

/-- A buffer is the concatenation of the parts of a cut. -/
theorem ofFn_eq_flatten {offset : Nat → Nat} {parts : Nat} (cut : Cut offset parts length)
    (buffer : Buffer α length) :
    List.ofFn buffer =
      ((List.range parts).map fun slot =>
        readAt ⟨offset slot, offset (slot + 1)⟩ buffer).flatten := by
  have grow (count : Nat) :
      ((List.range count).map fun slot =>
        readAt ⟨offset slot, offset (slot + 1)⟩ buffer).flatten =
        (List.ofFn buffer).take (offset count) := by
    induction count with
    | zero => simp [cut.begins]
    | succ before ih =>
        have ordered := cut.growing (Nat.le_succ before)
        have split : offset (before + 1) = offset before +
            (⟨offset before, offset (before + 1)⟩ : Span).length := by
          simp only [Nat.succ_eq_add_one] at ordered
          simp only [Span.length]
          omega
        rw [List.range_succ, List.map_append, List.flatten_append,
          ih, List.map_singleton, List.flatten_singleton,
          readAt]
        conv_rhs => rw [split, List.take_add]
  rw [grow, cut.whole]
  exact (List.take_of_length_le (by simp)).symm

/-- Merging a span of one buffer into the same span of another. -/
theorem mergeAt_readAt (combine : α → α → α) (span : Span) (source target : Buffer α length) :
    mergeAt combine span.start (readAt span source) target = fun index : Fin length =>
        if span.Covers index then combine (target index) (source index)
        else target index := by
  funext index
  simp only [mergeAt, getElem?_readAt]
  by_cases after : span.start ≤ index
  · have place : span.start + (index.val - span.start) = index := by omega
    rw [if_pos after, place, List.getElem?_ofFn, dif_pos index.isLt]
    by_cases before : index < span.stop
    · have near : index.val - span.start < span.length := by
        unfold Span.length
        omega
      rw [if_pos near, if_pos ⟨after, before⟩]
    · have far : ¬index.val - span.start < span.length := by
        unfold Span.length
        omega
      rw [if_neg far, if_neg (fun covered => before covered.2)]
  · rw [if_neg after, if_neg (fun covered => after covered.1)]

/-- The part of a buffer from `start` on. -/
def partAt (start : Nat) {width : Nat} (fits : start + width ≤ length)
    (buffer : Buffer α length) : Buffer α width :=
  fun index => buffer ⟨start + index, by omega⟩

theorem readAt_partAt {start width : Nat} (fits : start + width ≤ length)
    (buffer : Buffer α length) {span : Span} (within : span.stop ≤ width) :
    readAt span (partAt start fits buffer) = readAt (span.shift start) buffer := by
  apply List.ext_getElem?
  intro index
  rw [getElem?_readAt, getElem?_readAt, span.length_shift]
  split
  case isTrue inside =>
    have near : span.start + index < width := by
      unfold Span.length at inside
      omega
    have far : start + span.start + index < length := by omega
    rw [List.getElem?_ofFn, List.getElem?_ofFn, dif_pos near]
    unfold Span.shift
    dsimp only
    rw [dif_pos far, partAt]
    simp only [Nat.add_assoc]
  case isFalse => rfl

theorem ofFn_partAt {start width : Nat} (fits : start + width ≤ length)
    (buffer : Buffer α length) :
    List.ofFn (partAt start fits buffer) = readAt ⟨start, start + width⟩ buffer := by
  rw [← readAt_all, readAt_partAt fits buffer (Nat.le_refl width)]
  rfl

/-- What has just been written is that part of the buffer. -/
theorem partAt_mergeAt_overwrite {start width : Nat}
    (fits : start + width ≤ length) (source : Buffer α width)
    (target : Buffer α length) :
    partAt start fits (mergeAt overwrite start (List.ofFn source) target) = source := by
  funext index
  simp [partAt, mergeAt, overwrite]

/-- Values arrive only where they are put. -/
theorem mergeAt_of_not_covered (combine : α → α → α) {offset : Nat} {incoming : List α}
    (buffer : Buffer α length) {index : Fin length}
    (outside : ¬(⟨offset, offset + incoming.length⟩ : Span).Covers index) :
    mergeAt combine offset incoming buffer index = buffer index := by
  rw [mergeAt]
  split
  case isTrue after =>
    have late : incoming.length ≤ index.val - offset := by
      by_contra early
      exact outside ⟨after, by dsimp only; omega⟩
    rw [List.getElem?_eq_none late]
  case isFalse => rfl

theorem mergeAt_congr (combine : α → α → α) {offset : Nat} {incoming : List α}
    {buffer changed : Buffer α length} {index : Fin length}
    (same : buffer index = changed index) :
    mergeAt combine offset incoming buffer index =
      mergeAt combine offset incoming changed index := by
  rw [mergeAt, mergeAt, same]

/-- What is read elsewhere is not changed. -/
theorem readAt_mergeAt_of_apart (combine : α → α → α) {span : Span} {offset : Nat}
    {incoming : List α} (buffer : Buffer α length)
    (apart : span.Apart ⟨offset, offset + incoming.length⟩) :
    readAt span (mergeAt combine offset incoming buffer) =
      readAt span buffer := by
  apply readAt_congr
  intro index covered
  apply mergeAt_of_not_covered
  exact apart.not_covers covered

/-- Values that arrive in separate spans may arrive in any order. -/
theorem mergeAt_comm_of_apart (combine other : α → α → α) {offset place : Nat}
    {incoming arriving : List α} (buffer : Buffer α length)
    (apart : (⟨offset, offset + incoming.length⟩ : Span).Apart ⟨place, place + arriving.length⟩) :
    mergeAt combine offset incoming (mergeAt other place arriving buffer) =
      mergeAt other place arriving (mergeAt combine offset incoming buffer) := by
  funext index
  by_cases covered :
      (⟨offset, offset + incoming.length⟩ : Span).Covers index
  · have elsewhere := apart.not_covers covered
    rw [mergeAt_of_not_covered other _ elsewhere]
    apply mergeAt_congr
    exact mergeAt_of_not_covered other _ elsewhere
  · rw [mergeAt_of_not_covered combine _ covered]
    apply mergeAt_congr
    exact (mergeAt_of_not_covered combine _ covered).symm

end RuCCL.Library
