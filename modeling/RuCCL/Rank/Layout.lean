import RuCCL.Library.Result
import RuCCL.Library.Ring
import RuCCL.Library.Segment

/-!
# How a buffer is cut into ranges
-/

namespace RuCCL.Rank

open RuCCL.Library

/-- The errors of layouts and of collective arguments. -/
inductive RankError where
  | invalidLength (message : String)
  | overflow (operation : String)
  deriving DecidableEq

def balancedRanges (length partitions : Nat) : List Span :=
  let base := length / partitions
  let remainder := length % partitions
  spansFrom 0 ((List.range partitions).map fun partition =>
    base + if partition < remainder then 1 else 0)

@[simp]
theorem length_balancedRanges (length partitions : Nat) :
    (balancedRanges length partitions).length = partitions := by
  simp [balancedRanges]

/-- Range `index` reaches from its balanced offset to the next one. -/
theorem getElem?_balancedRanges (length partitions index : Nat) (inside : index < partitions) :
    (balancedRanges length partitions)[index]? =
      some ⟨balancedOffset length partitions index,
        balancedOffset length partitions (index + 1)⟩ := by
  have cut := getElem?_spansFrom 0
    ((List.range partitions).map (balancedLength length partitions)) index
    (by simpa using inside)
  rw [sum_take_balancedLength _ _ _ inside.le, sum_take_balancedLength _ _ _ inside, Nat.zero_add,
    Nat.zero_add] at cut
  exact cut

/-- The ranges are the slots of a balanced cut. -/
theorem balancedRanges_eq_ranked (length size : Nat) :
    balancedRanges length size = ranked fun slot : ZMod size =>
        slotSpan (balancedOffset length size) slot := by
  apply List.ext_getElem?
  intro index
  by_cases inside : index < size
  · rw [getElem?_balancedRanges _ _ _ inside,
      getElem?_ranked _ inside, slotSpan, ZMod.val_cast_of_lt inside]
  · rw [List.getElem?_eq_none (by simpa using inside),
      List.getElem?_eq_none (by simpa using inside)]

/-- Where the counts behind `total` start. -/
def prefixOffsetsFrom (total : Nat) : List Nat → Except RankError (List Nat)
  | [] => .ok []
  | count :: rest => do
      let next ← okOr (checkedAdd total count) (.overflow "pairwise count prefix")
      let offsets ← prefixOffsetsFrom next rest
      .ok (total :: offsets)

def prefixOffsets (counts : List Nat) : Except RankError (List Nat) := prefixOffsetsFrom 0 counts

theorem prefixOffsetsFrom_eq_ok {total : Nat} {counts : List Nat}
    (small : total + counts.sum < wordSize) :
    prefixOffsetsFrom total counts =
      .ok ((List.range counts.length).map fun index =>
        total + before counts index) := by
  induction counts generalizing total with
  | nil => rfl
  | cons count rest ih =>
      rw [List.sum_cons] at small
      have added := (checkedAdd_eq_some_iff total count _).mpr ⟨by omega, rfl⟩
      rw [prefixOffsetsFrom, added, okOr_some, ok_bind,
        ih (by omega), ok_bind, List.length_cons,
        List.range_succ_eq_map, List.map_cons, List.map_map]
      simp [Function.comp_def, before_cons_succ, Nat.add_assoc]

/-- A count starts behind all counts before it. -/
theorem prefixOffsets_eq_ok {counts : List Nat} (small : counts.sum < wordSize) :
    prefixOffsets counts = .ok ((List.range counts.length).map (before counts)) := by
  have offsets := @prefixOffsetsFrom_eq_ok 0 counts (by omega)
  simp only [Nat.zero_add] at offsets
  exact offsets

end RuCCL.Rank
