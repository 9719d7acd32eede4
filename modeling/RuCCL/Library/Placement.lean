import RuCCL.Library.Segment
import RuCCL.Library.Slice

/-!
# Values that are put where they belong

Lists of values are written into a buffer, each one from an offset of its own.  When the
offsets cut the buffer, it holds all of the lists one behind the other, in whatever order
they have been written.
-/

namespace RuCCL.Library

section Placement

variable {α : Type} {length : Nat}

/-- Lists of values are put at their offsets, one after the other. -/
def placeAll {ι : Type} (offset : ι → Nat) (values : ι → List α)
    (slots : List ι) (buffer : Buffer α length) : Buffer α length :=
  slots.foldl (fun buffer slot => mergeAt overwrite (offset slot) (values slot) buffer) buffer

theorem placeAll_append {ι : Type} (offset : ι → Nat)
    (values : ι → List α) (first second : List ι)
    (buffer : Buffer α length) :
    placeAll offset values (first ++ second) buffer =
      placeAll offset values second (placeAll offset values first buffer) :=
  List.foldl_append

/-- Values that are written behind others. -/
theorem mergeAt_overwrite_append (start : Nat) (first second : List α)
    (buffer : Buffer α length) :
    mergeAt overwrite (start + first.length) second (mergeAt overwrite start first buffer) =
      mergeAt overwrite start (first ++ second) buffer := by
  funext index
  simp only [mergeAt, overwrite]
  by_cases after : start ≤ index.val
  · by_cases behind : start + first.length ≤ index.val
    · have late : first.length ≤ index.val - start := by omega
      have place : index.val - (start + first.length) =
          index.val - start - first.length := by omega
      rw [if_pos behind, if_pos after, if_pos after,
        List.getElem?_append_right late, List.getElem?_eq_none late, place]
    · have early : index.val - start < first.length := by omega
      rw [if_neg behind, if_pos after, if_pos after, List.getElem?_append_left early]
  · have before : ¬start + first.length ≤ index.val := by omega
    rw [if_neg before, if_neg after, if_neg after]

/-- The parts of a list are written as the list itself. -/
theorem placeAll_parts {offset : Nat → Nat} {parts : Nat}
    {values : List α} (cut : Cut offset parts values.length) (start : Nat)
    (buffer : Buffer α length) :
    placeAll (fun slot => start + offset slot)
        (fun slot =>
          segment values (offset slot) (offset (slot + 1) - offset slot))
        (List.range parts) buffer =
      mergeAt overwrite start values buffer := by
  have grow (count : Nat) (few : count ≤ parts) :
      placeAll (fun slot => start + offset slot)
          (fun slot =>
            segment values (offset slot) (offset (slot + 1) - offset slot))
          (List.range count) buffer =
        mergeAt overwrite start (values.take (offset count)) buffer := by
    induction count with
    | zero =>
        rw [cut.begins, List.take_zero, mergeAt_nil]
        rfl
    | succ before ih =>
        have ordered := cut.growing (Nat.le_succ before)
        have inside := cut.growing few
        rw [cut.whole] at inside
        have early : offset before ≤ values.length := ordered.trans inside
        have joined : values.take (offset before) ++ segment values (offset before)
              (offset (before + 1) - offset before) =
            values.take (offset (before + 1)) := by
          rw [segment, ← List.take_add, Nat.add_sub_cancel' ordered]
        have sized : (values.take (offset before)).length =
            offset before :=
          List.length_take_of_le early
        have behind := mergeAt_overwrite_append start (values.take (offset before))
          (segment values (offset before) (offset (before + 1) - offset before)) buffer
        rw [sized, joined] at behind
        rw [List.range_succ, placeAll_append, ih (Nat.le_of_succ_le few), ← behind]
        rfl
  rw [grow parts (Nat.le_refl parts), cut.whole, List.take_length]

section Slots

variable {offset : Nat → Nat} {parts : Nat} {values : Fin parts → List α}

/-- What has been put into a slot stays there. -/
theorem readAt_placeAll (growing : Monotone offset) (inside : offset parts ≤ length)
    (sized : ∀ slot : Fin parts, offset slot + (values slot).length = offset (slot + 1))
    {slot : Fin parts} {slots : List (Fin parts)}
    {buffer : Buffer α length}
    (put : slot ∈ slots ∨ readAt ⟨offset slot, offset (slot + 1)⟩ buffer = values slot) :
    readAt ⟨offset slot, offset (slot + 1)⟩
        (placeAll (fun slot : Fin parts => offset slot) values slots buffer) =
      values slot := by
  induction slots generalizing buffer with
  | nil =>
      rcases put with absent | held
      · cases absent
      · exact held
  | cons other rest ih =>
      apply ih
      by_cases later : slot ∈ rest
      · exact Or.inl later
      · right
        by_cases same : slot = other
        · have fits : offset slot + (values slot).length ≤ length := by
            rw [sized slot]
            exact (growing slot.isLt).trans inside
          have written := readAt_mergeAt_overwrite buffer fits
          rw [sized slot] at written
          rw [← same]
          exact written
        · have held : readAt ⟨offset slot, offset (slot + 1)⟩ buffer =
              values slot := by
            rcases put with among | held
            · rcases List.mem_cons.mp among with here | among
              · exact absurd here same
              · exact absurd among later
            · exact held
          have apart : (⟨offset slot, offset (slot + 1)⟩ : Span).Apart
              ⟨offset other, offset other + (values other).length⟩ := by
            rw [sized other]
            rcases Nat.lt_or_gt_of_ne fun equal =>
              same (Fin.ext equal) with before | behind
            · exact Or.inl (growing before)
            · exact Or.inr (growing behind)
          exact (readAt_mergeAt_of_apart overwrite buffer apart).trans held

/-- All values are there once each slot has been written. -/
theorem ofFn_placeAll (cut : Cut offset parts length)
    (sized : ∀ slot : Fin parts, offset slot + (values slot).length = offset (slot + 1))
    {slots : List (Fin parts)} (complete : ∀ slot, slot ∈ slots)
    (buffer : Buffer α length) :
    List.ofFn (placeAll (fun slot : Fin parts => offset slot) values slots buffer) =
      (List.finRange parts).flatMap values := by
  rw [ofFn_eq_flatten cut, List.flatMap_def, ← List.map_coe_finRange_eq_range, List.map_map]
  refine congrArg List.flatten (List.map_congr_left fun slot _ => ?_)
  exact readAt_placeAll cut.growing (Nat.le_of_eq cut.whole) sized (Or.inl (complete slot))

end Slots

theorem cut_before (counts : List Nat) :
    Cut (before counts) counts.length counts.sum where
  begins := before_zero counts
  growing := before_mono counts
  whole := before_length counts

/-- A list falls into the segments of given lengths. -/
theorem flatMap_segment {parts : Nat} (counts : Fin parts → Nat)
    {values : List α} (whole : (List.ofFn counts).sum = values.length) :
    ((List.finRange parts).flatMap fun slot : Fin parts =>
      segment values (before (List.ofFn counts) slot) (counts slot)) =
      values := by
  have cut := cut_before (List.ofFn counts)
  rw [whole, List.length_ofFn] at cut
  have parted := ofFn_eq_flatten cut values.get
  rw [List.ofFn_get, ← List.map_coe_finRange_eq_range, List.map_map] at parted
  conv_rhs => rw [parted]
  rw [List.flatMap_def]
  refine congrArg List.flatten (List.map_congr_left fun slot _ => ?_)
  have located : (List.ofFn counts)[slot.val]? = some (counts slot) := by
    rw [List.getElem?_ofFn, dif_pos slot.isLt]
  rw [Function.comp_apply, readAt, List.ofFn_get, Span.length,
    before_succ located, Nat.add_sub_cancel_left]
  rfl

/-- Values are put at their indices, one after the other. -/
def setAll {parts : Nat} (value : Fin parts → α)
    (slots : List (Fin parts)) (list : List α) : List α :=
  slots.foldl (fun list (slot : Fin parts) => list.set slot (value slot)) list

section Indices

variable {parts : Nat} {value : Fin parts → α} {slots : List (Fin parts)} {list : List α}

theorem setAll_append (value : Fin parts → α) (first second : List (Fin parts)) (list : List α) :
    setAll value (first ++ second) list = setAll value second (setAll value first list) :=
  List.foldl_append

@[simp]
theorem length_setAll (value : Fin parts → α) (slots : List (Fin parts))
    (list : List α) : (setAll value slots list).length = list.length := by
  induction slots generalizing list with
  | nil => rfl
  | cons slot rest ih => exact (ih _).trans List.length_set

theorem getElem?_setAll (sized : list.length = parts) {slot : Fin parts}
    (put : slot ∈ slots ∨ list[slot.val]? = some (value slot)) :
    (setAll value slots list)[slot.val]? = some (value slot) := by
  induction slots generalizing list with
  | nil =>
      rcases put with absent | held
      · cases absent
      · exact held
  | cons other rest ih =>
      apply ih (List.length_set.trans sized)
      by_cases later : slot ∈ rest
      · exact Or.inl later
      · right
        by_cases same : slot = other
        · rw [← same, List.getElem?_set_self (by
            rw [sized]
            exact slot.isLt)]
        · have held : list[slot.val]? = some (value slot) := by
            rcases put with among | held
            · rcases List.mem_cons.mp among with here | among
              · exact absurd here same
              · exact absurd among later
            · exact held
          rw [List.getElem?_set_ne fun equal => same (Fin.ext equal.symm)]
          exact held

/-- All values are there once each index has been written. -/
theorem setAll_eq_ofFn (sized : list.length = parts) (complete : ∀ slot, slot ∈ slots) :
    setAll value slots list = List.ofFn value := by
  apply List.ext_getElem?
  intro index
  by_cases inside : index < parts
  · rw [List.getElem?_ofFn, dif_pos inside]
    exact @getElem?_setAll α parts value slots list sized ⟨index, inside⟩ (Or.inl (complete _))
  · rw [List.getElem?_eq_none (by
      rw [length_setAll, sized]
      exact Nat.le_of_not_lt inside), List.getElem?_eq_none (by
      rw [List.length_ofFn]
      exact Nat.le_of_not_lt inside)]

end Indices

end Placement

end RuCCL.Library
