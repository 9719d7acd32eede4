import Mathlib.Logic.Basic

/-!
# Programs that expose and download values

Each participant runs a program of its own.  It exposes values under ids, for so
many downloads, and downloads what others have exposed.
-/

namespace RuCCL.Library

/-- What a participant has still to do. -/
inductive Routine (Node Id Value Result : Type) where
  | done (result : Result)
  | expose (value : Value) (downloads : Nat) (id : Id) (next : Routine Node Id Value Result)
  -- downloads from several sources, in the order in which they arrive
  | await (sources : List Node) (id : Id) (next : Node → Value → Routine Node Id Value Result)
  -- an exposure and a download at the same time
  | exchange (value : Value) (downloads : Nat) (id : Id) (source : Node)
      (next : Value → Routine Node Id Value Result)

namespace Routine

variable {Node Id Value Result Other : Type}

/-- Go on with the result of a program. -/
def bind (program : Routine Node Id Value Result)
    (further : Result → Routine Node Id Value Other) :
    Routine Node Id Value Other :=
  match program with
  | .done result => further result
  | .expose value downloads id next => .expose value downloads id (next.bind further)
  | .await sources id next =>
      .await sources id fun source value => (next source value).bind further
  | .exchange value downloads id source next =>
      .exchange value downloads id source fun arrived =>
        (next arrived).bind further

/-- The ids under which a program exposes or downloads, whatever arrives. -/
def Uses (used : Id) : Routine Node Id Value Result → Prop
  | .done _ => False
  | .expose _ _ id next => used = id ∨ next.Uses used
  | .await sources id next =>
      ∃ source ∈ sources, used = id ∨ ∃ value, (next source value).Uses used
  | .exchange _ _ id _ next => used = id ∨ ∃ value, (next value).Uses used

/-- The results a program can end with, whatever arrives. -/
def Returns (final : Result) : Routine Node Id Value Result → Prop
  | .done result => final = result
  | .expose _ _ _ next => next.Returns final
  | .await sources _ next => ∃ source ∈ sources, ∃ value, (next source value).Returns final
  | .exchange _ _ _ _ next => ∃ value, (next value).Returns final

theorem uses_bind {program : Routine Node Id Value Result}
    {further : Result → Routine Node Id Value Other} {used : Id}
    (uses : (program.bind further).Uses used) :
    program.Uses used ∨ ∃ result, program.Returns result ∧ (further result).Uses used := by
  induction program with
  | done result => exact Or.inr ⟨result, rfl, uses⟩
  | expose value downloads id next ih =>
      rcases uses with now | later
      · exact Or.inl (Or.inl now)
      · rcases ih later with first | second
        · exact Or.inl (Or.inr first)
        · exact Or.inr second
  | await sources id next ih =>
      obtain ⟨source, among, now | ⟨value, later⟩⟩ := uses
      · exact Or.inl ⟨source, among, Or.inl now⟩
      · rcases ih source value later with
          first | ⟨result, returns, second⟩
        · exact Or.inl ⟨source, among, Or.inr ⟨value, first⟩⟩
        · exact Or.inr ⟨result, ⟨source, among, value, returns⟩, second⟩
  | exchange value downloads id source next ih =>
      rcases uses with now | ⟨arrived, later⟩
      · exact Or.inl (Or.inl now)
      · rcases ih arrived later with
          first | ⟨result, returns, second⟩
        · exact Or.inl (Or.inr ⟨arrived, first⟩)
        · exact Or.inr ⟨result, ⟨arrived, returns⟩, second⟩

/-- What a program uses it uses before whatever comes then. -/
theorem Uses.bind {program : Routine Node Id Value Result} {used : Id} (uses : program.Uses used)
    (further : Result → Routine Node Id Value Other) :
    (program.bind further).Uses used := by
  induction program with
  | done result => cases uses
  | expose value downloads id next ih => exact uses.imp_right ih
  | await sources id next ih =>
      obtain ⟨source, among, now | ⟨value, later⟩⟩ := uses
      · exact ⟨source, among, Or.inl now⟩
      · exact ⟨source, among, Or.inr ⟨value, ih source value later⟩⟩
  | exchange value downloads id source next ih =>
      rcases uses with now | ⟨arrived, later⟩
      · exact Or.inl now
      · exact Or.inr ⟨arrived, ih arrived later⟩

theorem Returns.uses_bind {program : Routine Node Id Value Result}
    {result : Result} (returns : program.Returns result)
    {further : Result → Routine Node Id Value Other} {used : Id}
    (uses : (further result).Uses used) :
    (program.bind further).Uses used := by
  induction program with
  | done final =>
      rw [Returns] at returns
      rw [returns] at uses
      exact uses
  | expose value downloads id next ih => exact Or.inr (ih returns)
  | await sources id next ih =>
      obtain ⟨source, among, value, later⟩ := returns
      exact ⟨source, among, Or.inr ⟨value, ih source value later⟩⟩
  | exchange value downloads id source next ih =>
      obtain ⟨arrived, later⟩ := returns
      exact Or.inr ⟨arrived, ih arrived later⟩

end Routine

end RuCCL.Library
