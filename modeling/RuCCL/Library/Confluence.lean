import Mathlib.Logic.Basic

/-!
# Systems whose actions commute

A step of the system may be impossible, succeed or fail.  When two different
actions that are possible in one state never get into each other's way, it does
not matter in which order they are taken: once one run comes to an end, every run
ends after the same number of steps in the same state, and nothing fails.
-/

namespace RuCCL.Library

universe u v w

section Confluence

variable {σ : Type u} {α : Type v} {ε : Type w}

/-- A number of steps that all succeed. -/
inductive Run (step : σ → α → Option (Except ε σ)) : Nat → σ → σ → Prop
  | none {state : σ} : Run step 0 state state
  | next {state successor final : σ} {action : α} {count : Nat} :
      step state action = some (.ok successor) →
      Run step count successor final → Run step (count + 1) state final

/-- No action is possible. -/
def Ended (step : σ → α → Option (Except ε σ)) (state : σ) : Prop :=
  ∀ action, step state action = none

/-- Different actions commute in the states of a preserved property, and an
action that fails is not saved by another one. -/
structure Commuting (step : σ → α → Option (Except ε σ)) (holds : σ → Prop) : Prop where
  kept : ∀ {state successor action}, holds state →
    step state action = some (.ok successor) → holds successor
  diamond : ∀ {state left right first second}, holds state →
    first ≠ second → step state first = some (.ok left) →
    step state second = some (.ok right) →
    ∃ final, step left second = some (.ok final) ∧ step right first = some (.ok final)
  failing : ∀ {state successor first second failure}, holds state →
    first ≠ second → step state first = some (.ok successor) →
    step state second = some (.error failure) →
    ∃ later, step successor second = some (.error later)

variable {step : σ → α → Option (Except ε σ)} {holds : σ → Prop}

theorem Run.single {state successor : σ} {action : α}
    (stepped : step state action = some (.ok successor)) :
    Run step 1 state successor :=
  .next stepped .none

theorem Run.append {state middle final : σ} {first second : Nat}
    (before : Run step first state middle)
    (after : Run step second middle final) :
    Run step (first + second) state final := by
  induction before with
  | none =>
      rw [Nat.zero_add]
      exact after
  | next stepped _ ih =>
      rw [Nat.add_right_comm]
      exact .next stepped (ih after)

theorem Run.preserved {state final : σ} {count : Nat}
    (commuting : Commuting step holds) (run : Run step count state final)
    (initially : holds state) : holds final := by
  induction run with
  | none => exact initially
  | next stepped _ ih => exact ih (commuting.kept initially stepped)

/-- Whatever is done first, the run still ends where it did, one step earlier. -/
theorem Run.after_step {state successor final : σ} {action : α} {count : Nat}
    (commuting : Commuting step holds) (initially : holds state)
    (run : Run step count state final) (ended : Ended step final)
    (stepped : step state action = some (.ok successor)) :
    ∃ rest, count = rest + 1 ∧ Run step rest successor final := by
  induction run generalizing successor with
  | none =>
      rw [ended action] at stepped
      cases stepped
  | @next state middle final other count first rest ih =>
      by_cases same : action = other
      · rw [same, first] at stepped
        cases stepped
        exact ⟨count, rfl, rest⟩
      · obtain ⟨joined, fromMiddle, fromSuccessor⟩ :=
          commuting.diamond initially (Ne.symm same) first stepped
        obtain ⟨left, sameCount, remaining⟩ := ih
          (commuting.kept initially first) ended fromMiddle
        exact ⟨left + 1, by rw [sameCount], .next fromSuccessor remaining⟩

/-- Every run is the beginning of one that ends in the same state after the same
number of steps. -/
theorem Run.completes {state middle final : σ} {count taken : Nat}
    (commuting : Commuting step holds) (initially : holds state)
    (run : Run step count state final) (ended : Ended step final)
    (other : Run step taken state middle) :
    ∃ rest, count = taken + rest ∧ Run step rest middle final := by
  induction other generalizing count with
  | none => exact ⟨count, (Nat.zero_add count).symm, run⟩
  | next stepped _ ih =>
      obtain ⟨left, sameCount, remaining⟩ := run.after_step commuting initially ended stepped
      obtain ⟨rest, sameLeft, last⟩ := ih (commuting.kept initially stepped) remaining
      exact ⟨rest, by omega, last⟩

/-- No action fails on the way to the end of a run. -/
theorem Run.never_fails {state final : σ} {count : Nat}
    (commuting : Commuting step holds) (initially : holds state)
    (run : Run step count state final) (ended : Ended step final)
    (action : α) (failure : ε) :
    step state action ≠ some (.error failure) := by
  induction run generalizing failure with
  | none =>
      rw [ended action]
      intro impossible
      cases impossible
  | @next state middle final other count first rest ih =>
      intro failed
      by_cases same : action = other
      · rw [same, first] at failed
        cases failed
      · obtain ⟨later, still⟩ := commuting.failing initially (Ne.symm same) first failed
        exact ih (commuting.kept initially first) ended later still

/-- What one run to the end says about all runs: they are not longer, nothing
fails, and where nothing more can be done the state is the same. -/
theorem Run.determines {state middle final : σ} {count taken : Nat}
    (commuting : Commuting step holds) (initially : holds state)
    (run : Run step count state final) (ended : Ended step final)
    (other : Run step taken state middle) :
    taken ≤ count ∧
    (∀ action failure, step middle action ≠ some (.error failure)) ∧
    (Ended step middle → middle = final) := by
  obtain ⟨rest, sameCount, remaining⟩ := run.completes commuting initially ended other
  refine ⟨by omega, ?_, ?_⟩
  · exact remaining.never_fails commuting (other.preserved commuting initially) ended
  · intro stuck
    cases remaining with
    | none => rfl
    | next stepped _ =>
        rw [stuck] at stepped
        cases stepped

/-- Some steps lead from one state to another. -/
def Reaches (step : σ → α → Option (Except ε σ)) (state final : σ) : Prop :=
  ∃ count, Run step count state final

theorem Run.reaches {state final : σ} {count : Nat} (run : Run step count state final) :
    Reaches step state final :=
  ⟨count, run⟩

theorem Reaches.refl (state : σ) : Reaches step state state := Run.none.reaches

theorem Reaches.trans {state middle final : σ} (before : Reaches step state middle)
    (after : Reaches step middle final) : Reaches step state final := by
  obtain ⟨first, run⟩ := before
  obtain ⟨second, later⟩ := after
  exact (run.append later).reaches

/-- Every run is bounded and free of failures, and where nothing more can be
done the state is as required. -/
def Settles (step : σ → α → Option (Except ε σ)) (start : σ) (post : σ → Prop) : Prop :=
  ∃ bound, ∀ taken state, Run step taken start state → taken ≤ bound ∧
    (∀ action failure, step state action ≠ some (.error failure)) ∧
    (Ended step state → post state)

/-- One run to the end settles all runs. -/
theorem Reaches.settles {start final : σ} {post : σ → Prop}
    (reaches : Reaches step start final) (commuting : Commuting step holds)
    (initially : holds start) (ended : Ended step final)
    (required : post final) : Settles step start post := by
  obtain ⟨count, run⟩ := reaches
  refine ⟨count, ?_⟩
  intro taken state other
  obtain ⟨bounded, safe, same⟩ := run.determines commuting initially ended other
  refine ⟨bounded, safe, ?_⟩
  intro stuck
  rw [same stuck]
  exact required

end Confluence

end RuCCL.Library
