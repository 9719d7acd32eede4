import Mathlib.Logic.Basic

/-!
# Runs of a transition system

A system is a partial step function on states, driven by actions.  A run may be
restricted by a guard that each of its steps meets in the state it starts from.
-/

namespace RuCCL.Library

universe u v

section Transition

variable {σ : Type u} {α : Type v}

/-- The states reached by runs whose steps all meet `guard`. -/
inductive Reached (step : σ → α → Option σ) (guard : σ → α → Prop) (initial : σ) :
    σ → Prop
  | start : Reached step guard initial initial
  | next {state successor : σ} {action : α} :
      Reached step guard initial state → guard state action →
      step state action = some successor →
      Reached step guard initial successor

/-- Every state some run reaches. -/
abbrev Reachable (step : σ → α → Option σ) (initial : σ) : σ → Prop :=
  Reached step (fun _ _ => True) initial

/-- Follow a list of actions as long as each one meets the guard. -/
def follow (step : σ → α → Option σ) (guard : σ → α → Prop)
    [∀ state action, Decidable (guard state action)] :
    σ → List α → Option σ
  | state, [] => some state
  | state, action :: rest =>
      if guard state action then
        match step state action with
        | some successor => follow step guard successor rest
        | none => none
      else none

variable {step : σ → α → Option σ} {guard : σ → α → Prop} {initial : σ}

/-- What holds initially and survives every guarded step holds in every state
reached. -/
theorem Reached.invariant {holds : σ → Prop} (initially : holds initial)
    (preserved : ∀ state action successor, holds state →
      guard state action → step state action = some successor →
      holds successor)
    {state : σ} (reached : Reached step guard initial state) :
    holds state := by
  induction reached with
  | start => exact initially
  | next _ permitted stepped ih => exact preserved _ _ _ ih permitted stepped

/-- A run can be continued by another one. -/
theorem Reached.trans {state final : σ} (reached : Reached step guard initial state)
    (further : Reached step guard state final) :
    Reached step guard initial final := by
  induction further with
  | start => exact reached
  | next _ permitted stepped ih => exact ih.next permitted stepped

/-- Followed actions lead to states that some run reaches. -/
theorem Reached.of_follow [∀ state action, Decidable (guard state action)]
    {state final : σ} {actions : List α}
    (reached : Reached step guard initial state)
    (followed : follow step guard state actions = some final) :
    Reached step guard initial final := by
  induction actions generalizing state with
  | nil =>
      cases followed
      exact reached
  | cons action rest ih =>
      rw [follow] at followed
      split at followed
      case isFalse => cases followed
      case isTrue permitted =>
        cases stepped : step state action with
        | none =>
            rw [stepped] at followed
            cases followed
        | some successor =>
            rw [stepped] at followed
            exact ih (reached.next permitted stepped) followed

/-- The state a list of actions leads to, when it can be followed at all. -/
theorem Reached.of_follow_isSome [∀ state action, Decidable (guard state action)]
    {actions : List α} (default : σ)
    (possible : (follow step guard initial actions).isSome = true) :
    Reached step guard initial ((follow step guard initial actions).getD default) := by
  obtain ⟨final, followed⟩ := Option.isSome_iff_exists.mp possible
  rw [followed]
  exact Reached.start.of_follow followed

/-- The states reached together with the steps taken so far. -/
inductive Traced (step : σ → α → Option σ) (guard : σ → α → Prop) (initial : σ) :
    List (σ × α) → σ → Prop
  | start : Traced step guard initial [] initial
  | next {steps : List (σ × α)} {state successor : σ} {action : α} :
      Traced step guard initial steps state → guard state action →
      step state action = some successor →
      Traced step guard initial (steps ++ [(state, action)]) successor

theorem Traced.reached {steps : List (σ × α)} {state : σ}
    (traced : Traced step guard initial steps state) :
    Reached step guard initial state := by
  induction traced with
  | start => exact Reached.start
  | next _ permitted stepped ih => exact ih.next permitted stepped

/-- The steps that a list of actions takes as far as it can be followed, and the
state behind them. -/
def trail (step : σ → α → Option σ) : σ → List α → List (σ × α) × σ
  | state, [] => ([], state)
  | state, action :: rest =>
      match step state action with
      | some successor =>
          ((state, action) :: (trail step successor rest).1, (trail step successor rest).2)
      | none => ([], state)

theorem Traced.trail {steps : List (σ × α)} {state : σ}
    (traced : Traced step (fun _ _ => True) initial steps state)
    (actions : List α) :
    Traced step (fun _ _ => True) initial (steps ++ (trail step state actions).1)
      (trail step state actions).2 := by
  induction actions generalizing steps state with
  | nil =>
      rw [Library.trail, List.append_nil]
      exact traced
  | cons action rest ih =>
      rw [Library.trail]
      split
      case h_1 successor stepped =>
        have further := ih (traced.next trivial stepped)
        rwa [List.append_assoc] at further
      case h_2 =>
        rw [List.append_nil]
        exact traced

/-- The trail of some actions is a run. -/
theorem traced_trail (step : σ → α → Option σ) (initial : σ) (actions : List α) :
    Traced step (fun _ _ => True) initial (trail step initial actions).1
      (trail step initial actions).2 :=
  Traced.start.trail actions

/-- Each step of a run leads on. -/
theorem Traced.step_of_mem {steps : List (σ × α)} {state : σ}
    (traced : Traced step guard initial steps state)
    {taken : σ × α} (among : taken ∈ steps) :
    ∃ successor, step taken.1 taken.2 = some successor := by
  induction traced with
  | start => cases among
  | next _ _ stepped ih =>
      rcases List.mem_append.mp among with earlier | last
      · exact ih earlier
      · rw [List.mem_singleton.mp last]
        exact ⟨_, stepped⟩

/-- Every run has its steps. -/
theorem Reached.traced {state : σ} (reached : Reached step guard initial state) :
    ∃ steps, Traced step guard initial steps state := by
  induction reached with
  | start => exact ⟨[], Traced.start⟩
  | next _ permitted stepped ih =>
      obtain ⟨steps, traced⟩ := ih
      exact ⟨_, traced.next permitted stepped⟩

end Transition

end RuCCL.Library
