import Mathlib.Data.List.Chain

/-!
# Closed chains

A list is read around when its last item is followed by its first one.  What holds of
neighbours around a list stays when the list is rotated, or when it is read the other
way and the relation is symmetric.
-/

namespace RuCCL.Library

section Around

variable {α : Type} {R : α → α → Prop}

/-- Neighbours around a list are related. -/
def Around (R : α → α → Prop) (items : List α) : Prop := (items ++ items.head?.toList).IsChain R

theorem around_cons_iff {first : α} {rest : List α} :
    Around R (first :: rest) ↔ (first :: (rest ++ [first])).IsChain R :=
  Iff.rfl

/-- A list is a chain whose end is related to its start. -/
theorem around_iff {first : α} {rest : List α} :
    Around R (first :: rest) ↔ (first :: rest).IsChain R ∧
      R ((first :: rest).getLast (List.cons_ne_nil _ _)) first := by
  rw [around_cons_iff, ← List.cons_append, List.isChain_append]
  refine and_congr_right fun _ => ?_
  rw [List.getLast?_eq_getLast_of_ne_nil (List.cons_ne_nil _ _)]
  constructor
  · intro each
    exact each.2 _ rfl _ rfl
  · intro closed
    refine ⟨List.isChain_singleton _, ?_⟩
    rintro _ ⟨⟩ _ ⟨⟩
    exact closed

theorem Around.rotate {front back : List α}
    (around : Around R (front ++ back)) : Around R (back ++ front) := by
  cases front with
  | nil =>
      rw [List.append_nil]
      exact around
  | cons first fronts =>
      cases back with
      | nil =>
          rw [List.append_nil] at around
          exact around
      | cons second backs =>
          have before : ((first :: fronts) ++ (second :: backs ++ [first])).IsChain R := by
            rw [← List.append_assoc]
            exact around
          have behind : ((second :: backs) ++ (first :: fronts ++ [second])).IsChain R :=
            List.isChain_split.mpr (List.isChain_split.mp before).symm
          rw [← List.append_assoc] at behind
          exact behind

/-- The other way around, from the same item on. -/
theorem Around.reverse (symmetric : ∀ left right, R left right → R right left)
    {first : α} {rest : List α} (around : Around R (first :: rest)) :
    Around R (first :: rest.reverse) := by
  have turned : (first :: (rest.reverse ++ [first])) = (first :: (rest ++ [first])).reverse := by
    simp
  rw [around_cons_iff, turned, List.isChain_reverse]
  exact List.IsChain.imp (fun left right => symmetric left right) (around_cons_iff.mp around)

end Around

end RuCCL.Library
