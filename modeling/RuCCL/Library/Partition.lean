import Mathlib.Algebra.BigOperators.Group.List.Basic
import Mathlib.Tactic.Ring
import Mathlib.Tactic.Linarith
import Mathlib.Data.Nat.Find

/-!
# Consecutive spans

A list of lengths cuts an interval into consecutive spans.  A balanced cut makes
the first parts one longer than the others.
-/

namespace RuCCL.Library

/-- The half-open interval from `start` to `stop`. -/
structure Span where
  start : Nat
  stop : Nat
  deriving DecidableEq

namespace Span

def length (span : Span) : Nat := span.stop - span.start

/-- The same span further along. -/
def shift (span : Span) (offset : Nat) : Span := ⟨offset + span.start, offset + span.stop⟩

@[simp]
theorem length_shift (span : Span) (offset : Nat) : (span.shift offset).length = span.length :=
  Nat.add_sub_add_left ..

def Covers (span : Span) (index : Nat) : Prop := span.start ≤ index ∧ index < span.stop

instance (span : Span) (index : Nat) : Decidable (span.Covers index) :=
  inferInstanceAs (Decidable (_ ∧ _))

/-- One span ends before the other one begins. -/
def Apart (span other : Span) : Prop := span.stop ≤ other.start ∨ other.stop ≤ span.start

theorem Apart.symm {span other : Span} (apart : span.Apart other) :
    other.Apart span :=
  Or.symm apart

theorem Apart.not_covers {span other : Span} {index : Nat}
    (apart : span.Apart other) (covered : span.Covers index) :
    ¬other.Covers index := by
  intro also
  rcases apart with before | behind
  · have late := before.trans also.1
    exact absurd covered.2 (Nat.not_lt.mpr late)
  · have late := behind.trans covered.1
    exact absurd also.2 (Nat.not_lt.mpr late)

end Span

/-- The spans of the given lengths, one behind the other. -/
def spansFrom (start : Nat) : List Nat → List Span
  | [] => []
  | length :: rest => ⟨start, start + length⟩ :: spansFrom (start + length) rest

@[simp]
theorem length_spansFrom (start : Nat) (lengths : List Nat) :
    (spansFrom start lengths).length = lengths.length := by
  induction lengths generalizing start with
  | nil => rfl
  | cons length rest ih => simp [spansFrom, ih]

theorem getElem?_spansFrom (start : Nat) (lengths : List Nat) (index : Nat)
    (inside : index < lengths.length) :
    (spansFrom start lengths)[index]? =
      some ⟨start + (lengths.take index).sum, start + (lengths.take (index + 1)).sum⟩ := by
  induction lengths generalizing start index with
  | nil => cases inside
  | cons length rest ih =>
      cases index with
      | zero => simp [spansFrom]
      | succ before =>
          rw [spansFrom, List.getElem?_cons_succ, ih _ _ (by simpa using inside)]
          simp [Nat.add_assoc]

/-- Spans that lead from `start` to `stop` without a gap. -/
def Consecutive (start stop : Nat) : List Span → Prop
  | [] => start = stop
  | span :: rest => span.start = start ∧ start ≤ span.stop ∧ Consecutive span.stop stop rest

theorem Consecutive.le {start stop : Nat} {spans : List Span}
    (consecutive : Consecutive start stop spans) : start ≤ stop := by
  induction spans generalizing start with
  | nil => exact le_of_eq consecutive
  | cons span rest ih => exact consecutive.2.1.trans (ih consecutive.2.2)

/-- Consecutive spans cover what they lead through once, and nothing else. -/
theorem Consecutive.countP_covers {start stop : Nat} {spans : List Span}
    (consecutive : Consecutive start stop spans) (index : Nat) :
    spans.countP (fun span => decide (span.Covers index)) =
      if start ≤ index ∧ index < stop then 1 else 0 := by
  induction spans generalizing start with
  | nil =>
      have same : start = stop := consecutive
      rw [List.countP_nil, if_neg (by omega)]
  | cons span rest ih =>
      obtain ⟨begins, forward, behind⟩ := consecutive
      have last := behind.le
      rw [List.countP_cons, ih behind]
      simp only [Span.Covers, begins, decide_eq_true_eq]
      split_ifs <;> omega

theorem consecutive_spansFrom (start : Nat) (lengths : List Nat) :
    Consecutive start (start + lengths.sum) (spansFrom start lengths) := by
  induction lengths generalizing start with
  | nil => rfl
  | cons length rest ih =>
      refine ⟨rfl, Nat.le_add_right _ _, ?_⟩
      rw [List.sum_cons, ← Nat.add_assoc]
      exact ih (start + length)

theorem map_length_spansFrom (start : Nat) (lengths : List Nat) :
    (spansFrom start lengths).map Span.length = lengths := by
  induction lengths generalizing start with
  | nil => rfl
  | cons length rest ih =>
      rw [spansFrom, List.map_cons, ih, Span.length, Nat.add_sub_cancel_left]

/-- The part that holds `index` when part `slot` starts at `offset slot`. -/
def slotOf (offset : Nat → Nat) (parts index : Nat) : Nat :=
  Nat.findGreatest (fun slot => offset slot ≤ index) (parts - 1)

theorem slotOf_lt (offset : Nat → Nat) {parts : Nat} (index : Nat) (positive : 0 < parts) :
    slotOf offset parts index < parts := by
  have bounded : slotOf offset parts index ≤ parts - 1 := Nat.findGreatest_le _
  omega

theorem slotOf_covers {offset : Nat → Nat} {parts index : Nat}
    (begins : offset 0 = 0) (within : index < offset parts) :
    (⟨offset (slotOf offset parts index),
      offset (slotOf offset parts index + 1)⟩ : Span).Covers index := by
  have starts : offset (slotOf offset parts index) ≤ index :=
    @Nat.findGreatest_spec 0 (fun slot => offset slot ≤ index) _ _ (Nat.zero_le _) (by omega)
  refine ⟨starts, ?_⟩
  by_contra late
  have next : offset (slotOf offset parts index + 1) ≤ index := Nat.le_of_not_lt late
  by_cases last : slotOf offset parts index + 1 ≤ parts - 1
  · have greater : slotOf offset parts index + 1 ≤
        slotOf offset parts index :=
      @Nat.le_findGreatest _ (fun slot => offset slot ≤ index) _ _ last next
    omega
  · have bounded : slotOf offset parts index ≤ parts - 1 := Nat.findGreatest_le _
    have atLast : slotOf offset parts index + 1 = parts ∨ parts = 0 := by
      omega
    rcases atLast with atEnd | empty
    · rw [atEnd] at next
      omega
    · rw [empty] at within
      omega

/-- The parts of a growing cut do not overlap. -/
theorem covers_iff_slotOf {offset : Nat → Nat} {parts index slot : Nat}
    (begins : offset 0 = 0) (growing : Monotone offset)
    (within : index < offset parts) :
    (⟨offset slot, offset (slot + 1)⟩ : Span).Covers index ↔
      slotOf offset parts index = slot := by
  have own := slotOf_covers begins within
  constructor
  · intro covered
    have below : slotOf offset parts index ≤ slot := by
      by_contra later
      have ordered := growing (Nat.lt_of_not_le later)
      have start : offset (slotOf offset parts index) ≤ index := own.1
      have stop : index < offset (slot + 1) := covered.2
      simp only [Nat.succ_eq_add_one] at ordered
      omega
    have above : slot ≤ slotOf offset parts index := by
      by_contra earlier
      have ordered := growing (Nat.lt_of_not_le earlier)
      have start : offset slot ≤ index := covered.1
      have stop : index < offset (slotOf offset parts index + 1) := own.2
      simp only [Nat.succ_eq_add_one] at ordered
      omega
    exact le_antisymm below above
  · intro same
    rw [← same]
    exact own

/-- Offsets that cut `length` elements into `parts` parts. -/
structure Cut (offset : Nat → Nat) (parts length : Nat) : Prop where
  begins : offset 0 = 0
  growing : Monotone offset
  whole : offset parts = length

/-- The parts of a cut together make up the whole. -/
theorem sum_parts {offset : Nat → Nat} (begins : offset 0 = 0)
    (growing : Monotone offset) (parts : Nat) :
    ((List.range parts).map fun index =>
      offset (index + 1) - offset index).sum = offset parts := by
  induction parts with
  | zero => exact begins.symm
  | succ before ih =>
      have ordered := growing (Nat.le_succ before)
      simp only [Nat.succ_eq_add_one] at ordered
      rw [List.range_succ, List.map_append, List.sum_append,
        ih, List.map_singleton, List.sum_singleton]
      omega

/-- Where part `index` of a balanced cut starts. -/
def balancedOffset (length parts index : Nat) : Nat :=
  index * (length / parts) + min index (length % parts)

def balancedLength (length parts index : Nat) : Nat :=
  length / parts + if index < length % parts then 1 else 0

theorem balancedOffset_zero (length parts : Nat) : balancedOffset length parts 0 = 0 := by
  simp [balancedOffset]

theorem balancedOffset_succ (length parts index : Nat) :
    balancedOffset length parts (index + 1) = balancedOffset length parts index +
        balancedLength length parts index := by
  unfold balancedOffset balancedLength
  rw [Nat.succ_mul]
  split <;> omega

theorem balancedOffset_all {length parts : Nat} (positive : 0 < parts) :
    balancedOffset length parts parts = length := by
  have small := Nat.mod_lt length positive
  have whole := Nat.div_add_mod length parts
  unfold balancedOffset
  rw [Nat.min_eq_right small.le]
  exact whole

theorem balancedOffset_mono {length parts first second : Nat} (ordered : first ≤ second) :
    balancedOffset length parts first ≤
      balancedOffset length parts second := by
  induction ordered with
  | refl => exact le_rfl
  | step _ ih =>
      rw [balancedOffset_succ]
      exact ih.trans (Nat.le_add_right _ _)

theorem monotone_balancedOffset (length parts : Nat) : Monotone (balancedOffset length parts) :=
  fun _ _ ordered => balancedOffset_mono ordered

theorem balancedOffset_of_dvd {length parts : Nat} (divisible : parts ∣ length) :
    balancedOffset length parts = fun slot => slot * (length / parts) := by
  funext slot
  rw [balancedOffset, Nat.mod_eq_zero_of_dvd divisible, Nat.min_zero, Nat.add_zero]

theorem Cut.balanced (length : Nat) {parts : Nat} (positive : 0 < parts) :
    Cut (balancedOffset length parts) parts length where
  begins := balancedOffset_zero ..
  growing := monotone_balancedOffset ..
  whole := balancedOffset_all positive

/-- Parts of equal length. -/
theorem Cut.equal (shard parts : Nat) :
    Cut (fun slot => slot * shard) parts (parts * shard) where
  begins := Nat.zero_mul shard
  growing := fun _ _ ordered => Nat.mul_le_mul_right shard ordered
  whole := rfl

theorem sum_take_balancedLength (length parts count : Nat) (within : count ≤ parts) :
    (((List.range parts).map (balancedLength length parts)).take
      count).sum = balancedOffset length parts count := by
  rw [← List.map_take, List.take_range, Nat.min_eq_left within]
  induction count with
  | zero => simp [balancedOffset_zero]
  | succ before ih =>
      rw [List.range_succ, List.map_append, List.sum_append, ih (Nat.le_of_succ_le within),
        balancedOffset_succ]
      simp

/-- Part `inner` of a balanced cut of part `outer`. -/
def nestedSpan (offset : Nat → Nat) (parts outer inner : Nat) : Span :=
  let length := offset (outer + 1) - offset outer
  Span.shift ⟨balancedOffset length parts inner,
    balancedOffset length parts (inner + 1)⟩ (offset outer)

/-- Where an index lies within its part. -/
def innerSlot (offset : Nat → Nat) (count parts index : Nat) : Nat :=
  let outer := slotOf offset count index
  slotOf (balancedOffset (offset (outer + 1) - offset outer) parts) parts (index - offset outer)

section Nested

variable {offset : Nat → Nat} {count length parts : Nat} {outer other inner another index : Nat}

/-- A nested part lies in its outer part. -/
theorem nestedSpan_bounds (growing : Monotone offset) (among : inner < parts) :
    offset outer ≤ (nestedSpan offset parts outer inner).start ∧
      (nestedSpan offset parts outer inner).start ≤ (nestedSpan offset parts outer inner).stop ∧
      (nestedSpan offset parts outer inner).stop ≤ offset (outer + 1) := by
  have ordered : offset outer ≤ offset (outer + 1) := growing (Nat.le_succ outer)
  have step := @balancedOffset_mono (offset (outer + 1) - offset outer) parts
    inner (inner + 1) (Nat.le_succ inner)
  have inside := @balancedOffset_mono (offset (outer + 1) - offset outer)
    parts (inner + 1) parts among
  rw [balancedOffset_all (by omega)] at inside
  unfold nestedSpan Span.shift
  dsimp only
  omega

/-- An index lies in the nested part that it belongs to, and in no other. -/
theorem nestedSpan_covers_iff (cut : Cut offset count length)
    (inside : index < length) (among : inner < parts) :
    (nestedSpan offset parts outer inner).Covers index ↔ slotOf offset count index = outer ∧
        innerSlot offset count parts index = inner := by
  have place := @covers_iff_slotOf _ _ _ outer cut.begins cut.growing (cut.whole.symm ▸ inside)
  have bounds := @nestedSpan_bounds _ _ outer _ cut.growing among
  have within (own : slotOf offset count index = outer) :
      (nestedSpan offset parts outer inner).Covers index ↔
        innerSlot offset count parts index = inner := by
    have covered := place.mpr own
    have start : offset outer ≤ index := covered.1
    have stop : index < offset (outer + 1) := covered.2
    have near : index - offset outer <
        balancedOffset (offset (outer + 1) - offset outer) parts parts := by
      rw [balancedOffset_all (by omega)]
      omega
    have local_iff := @covers_iff_slotOf _ _ _ inner
      (balancedOffset_zero (offset (outer + 1) - offset outer) parts)
      (monotone_balancedOffset _ parts) near
    rw [innerSlot, own]
    refine Iff.trans ?_ local_iff
    unfold nestedSpan Span.shift Span.Covers
    dsimp only
    omega
  constructor
  · intro covered
    have own : slotOf offset count index = outer := by
      apply place.mp
      have start := covered.1
      have stop := covered.2
      constructor
      · exact bounds.1.trans start
      · exact lt_of_lt_of_le stop bounds.2.2
    exact ⟨own, (within own).mp covered⟩
  · intro both
    exact (within both.1).mpr both.2

/-- Different nested parts do not overlap. -/
theorem nestedSpan_apart (growing : Monotone offset) (among : inner < parts)
    (otherAmong : another < parts) (different : outer ≠ other ∨ inner ≠ another) :
    (nestedSpan offset parts outer inner).Apart (nestedSpan offset parts other another) := by
  have bounds := @nestedSpan_bounds _ _ outer _ growing among
  have otherBounds := @nestedSpan_bounds _ _ other _ growing otherAmong
  rcases Nat.lt_trichotomy outer other with before | same | behind
  · have later : offset (outer + 1) ≤ offset other := growing (Nat.succ_le_of_lt before)
    left
    omega
  · subst same
    rcases different with elsewhere | different
    · exact absurd rfl elsewhere
    rcases Nat.lt_or_gt_of_ne different with before | behind
    · have later := @balancedOffset_mono
        (offset (outer + 1) - offset outer) parts (inner + 1) another before
      left
      unfold nestedSpan Span.shift
      dsimp only
      omega
    · have later := @balancedOffset_mono
        (offset (outer + 1) - offset outer) parts (another + 1) inner behind
      right
      unfold nestedSpan Span.shift
      dsimp only
      omega
  · have later : offset (other + 1) ≤ offset outer := growing (Nat.succ_le_of_lt behind)
    right
    omega

end Nested

end RuCCL.Library
