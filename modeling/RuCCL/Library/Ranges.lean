import Mathlib.Data.List.Pairwise
import Mathlib.Data.List.Sort

/-!
# Ranges that do not overlap

Sorted ranges of which no two neighbours overlap are pairwise apart.  What is found
in a list does not depend on its order when at most one entry fits.
-/

namespace RuCCL.Library

/-- Two inclusive ranges without a common value. -/
def RangesApart (first second : Nat × Nat) : Prop := ∀ value, first.1 ≤ value ∧ value ≤ first.2 →
    ¬(second.1 ≤ value ∧ value ≤ second.2)

theorem RangesApart.symm {first second : Nat × Nat} (apart : RangesApart first second) :
    RangesApart second first := by
  intro value inSecond inFirst
  exact apart value inFirst inSecond

/-- A gap behind every range of a list leads to a gap between any two. -/
theorem pairwise_lt_of_neighbours {ranges : List (Nat × Nat)}
    (forward : ∀ range ∈ ranges, range.1 ≤ range.2)
    (neighbours : ∀ pair ∈ ranges.zip ranges.tail, pair.1.2 < pair.2.1) :
    ranges.Pairwise fun first second => first.2 < second.1 := by
  induction ranges with
  | nil => exact List.Pairwise.nil
  | cons first rest ih =>
      cases rest with
      | nil => exact List.pairwise_singleton _ _
      | cons second further =>
          have later := ih
            (fun range among => forward range (List.mem_cons_of_mem _ among))
            (fun pair among => neighbours pair (List.mem_cons_of_mem _ among))
          have gap := neighbours (first, second) List.mem_cons_self
          have long := forward second (List.mem_cons_of_mem _ List.mem_cons_self)
          refine List.pairwise_cons.mpr ⟨fun range among => ?_, later⟩
          rcases List.mem_cons.mp among with same | behind
          · rw [same]
            exact gap
          · have above := List.rel_of_pairwise_cons later behind
            dsimp only at gap
            omega

theorem apart_of_neighbours {ranges sorted : List (Nat × Nat)} (order : sorted.Perm ranges)
    (forward : ∀ range ∈ ranges, range.1 ≤ range.2)
    (neighbours : ∀ pair ∈ sorted.zip sorted.tail, pair.1.2 < pair.2.1) :
    ranges.Pairwise RangesApart := by
  have gaps := pairwise_lt_of_neighbours
    (fun range among => forward range (order.mem_iff.mp among)) neighbours
  refine (order.pairwise_iff fun {_ _} => RangesApart.symm).mp
    (gaps.imp fun {first second} gap => ?_)
  intro value inFirst inSecond
  omega

/-- What is found is the same in any order when all that fits is equal. -/
theorem find?_eq_of_perm {α : Type} {left right : List α}
    (order : left.Perm right) {fits : α → Bool}
    (unique : ∀ first ∈ left, ∀ second ∈ left, fits first = true →
      fits second = true → first = second) :
    left.find? fits = right.find? fits := by
  cases found : left.find? fits with
  | none =>
      rw [List.find?_eq_none] at found
      symm
      rw [List.find?_eq_none]
      intro item among
      exact found item (order.mem_iff.mpr among)
  | some item =>
      have itemFits := List.find?_some found
      have itemAmong := List.mem_of_find?_eq_some found
      cases other : right.find? fits with
      | none =>
          rw [List.find?_eq_none] at other
          exact absurd itemFits (other item (order.mem_iff.mp itemAmong))
      | some second =>
          have secondAmong := List.mem_of_find?_eq_some other
          exact congrArg some (unique item itemAmong second
            (order.mem_iff.mpr secondAmong) itemFits
            (List.find?_some other))

end RuCCL.Library
