import RuCCL.Library.Cell
import RuCCL.Library.Schedule

/-!
# Channels with elements of their own

Participants change their buffers element by element, each element from what all of
them hold of it.  Channels that work on different elements together change all of
them.
-/

namespace RuCCL.Library

section Elementwise

variable {ρ β μ σ ε T ι : Type} [DecidableEq ρ]

/-- The buffers of a group after the touched elements have changed. -/
def elementwise (ranks : List ρ) (buffer : Cell σ (ι → T))
    (touched : ι → Prop) [DecidablePred touched]
    (change : ι → (ρ → T) → ρ → T) (before : ρ → σ) : ρ → σ :=
  fun rank =>
    if rank ∈ ranks then
      buffer.write (fun element =>
        if touched element then
          change element (fun other => buffer.read (before other) element) rank
        else buffer.read (before rank) element) (before rank)
    else before rank

variable {ranks : List ρ} {buffer : Cell σ (ι → T)} {change : ι → (ρ → T) → ρ → T}

theorem read_elementwise {touched : ι → Prop} [DecidablePred touched] {before : ρ → σ} {rank : ρ}
    (among : rank ∈ ranks) (element : ι) :
    buffer.read (elementwise ranks buffer touched change before rank) element =
      if touched element then
        change element (fun other => buffer.read (before other) element) rank
      else buffer.read (before rank) element := by
  rw [elementwise, if_pos among, buffer.read_write]

theorem read_elementwise_of_not_touched {touched : ι → Prop}
    [DecidablePred touched] {before : ρ → σ} {element : ι}
    (untouched : ¬touched element) (rank : ρ) :
    buffer.read (elementwise ranks buffer touched change before rank) element =
      buffer.read (before rank) element := by
  by_cases among : rank ∈ ranks
  · rw [read_elementwise among, if_neg untouched]
  · rw [elementwise, if_neg among]

theorem elementwise_none (before : ρ → σ) {touched : ι → Prop}
    [DecidablePred touched] (none : ∀ element, ¬touched element) :
    elementwise ranks buffer touched change before = before := by
  funext rank
  rw [elementwise]
  split
  · simp only [if_neg (none _), buffer.write_read]
  · rfl

/-- More elements change when those that have changed stay as they are. -/
theorem elementwise_elementwise (before : ρ → σ)
    {touched later both : ι → Prop} [DecidablePred touched]
    [DecidablePred later] [DecidablePred both]
    (fresh : ∀ element, later element → ¬touched element)
    (either : ∀ element, both element ↔ touched element ∨ later element) :
    elementwise ranks buffer later change (elementwise ranks buffer touched change before) =
      elementwise ranks buffer both change before := by
  funext rank
  by_cases among : rank ∈ ranks
  · rw [elementwise, if_pos among]
    conv_rhs => rw [elementwise, if_pos among]
    rw [elementwise, if_pos among, buffer.write_write]
    refine congrArg (buffer.write · (before rank)) (funext fun element => ?_)
    by_cases now : later element
    · have untouched := fresh element now
      have same (other : ρ) := @read_elementwise_of_not_touched ρ σ T ι
        _ ranks buffer change touched _ before element untouched other
      have all : both element := (either element).mpr (Or.inr now)
      simp only [if_pos now, if_pos all, same]
    · rw [if_neg now, buffer.read_write]
      have same : both element ↔ touched element := (either element).trans (or_iff_left now)
      simp only [same]
  · simp only [elementwise, if_neg among]

omit [DecidableEq ρ] in
/-- Only membership in the group matters. -/
theorem DoesAll.of_mem_iff {others : List ρ} (same : ∀ rank, rank ∈ ranks ↔ rank ∈ others)
    {schedule : List (Nat × Stage ρ β μ σ ε)} {before after : ρ → σ}
    (does : DoesAll ranks schedule before after) :
    DoesAll others schedule before after := by
  induction schedule generalizing before with
  | nil => exact does
  | cons entry rest ih =>
      obtain ⟨middle, first, remaining⟩ := does
      refine ⟨middle, ?_, ih remaining⟩
      obtain ⟨channel, stage⟩ := entry
      cases stage with
      | exchange round =>
          obtain ⟨sent, ready, accepted, outside⟩ := first
          exact ⟨sent, fun rank among => ready rank ((same rank).mpr among),
            fun rank among => accepted rank ((same rank).mpr among),
            fun rank absent => outside rank fun among => absent ((same rank).mp among)⟩
      | alone change =>
          exact ⟨fun rank among => first.1 rank ((same rank).mpr among),
            fun rank absent => first.2 rank fun among => absent ((same rank).mp among)⟩

omit [DecidableEq ρ] in
theorem Stage.Proper.of_mem_iff {others : List ρ} {sender receiver : β → ρ}
    (same : ∀ rank, rank ∈ ranks ↔ rank ∈ others)
    {stage : Stage ρ β μ σ ε} (proper : stage.Proper ranks sender receiver) :
    stage.Proper others sender receiver := by
  cases stage with
  | exchange round =>
      exact {
        sender := fun rank among => proper.sender rank ((same rank).mpr among)
        receiver := fun rank among =>
          proper.receiver rank ((same rank).mpr among)
        source := fun rank among =>
          (same _).mp (proper.source rank ((same rank).mpr among))
        target := fun rank among => by
          obtain ⟨other, member, source⟩ := proper.target rank ((same rank).mpr among)
          exact ⟨other, (same other).mp member, source⟩ }
  | alone change => trivial

/-- All channels together change the elements that belong to them. -/
theorem DoesAll.channelElements {stages : Nat → List (Stage ρ β μ σ ε)}
    {channelOf : ι → Nat} {channels : Nat}
    (each : ∀ channel < channels, ∀ before,
      DoesAll ranks ((stages channel).map (Prod.mk channel)) before
        (elementwise ranks buffer (channelOf · = channel) change before))
    (before : ρ → σ) :
    DoesAll ranks (byChannel stages channels) before
      (elementwise ranks buffer (channelOf · < channels) change before) := by
  have ran := @DoesAll.channels ρ β μ σ ε ranks stages
    (fun channel => elementwise ranks buffer (channelOf · < channel) change before) channels (by
        intro channel inside
        have does := each channel inside
          (elementwise ranks buffer (channelOf · < channel) change before)
        rwa [elementwise_elementwise before (fun element here there => Nat.ne_of_lt there here)
          (fun element => Nat.lt_succ_iff_lt_or_eq)] at does)
  have start : elementwise ranks buffer (channelOf · < 0) change before =
      before :=
    elementwise_none before fun element => Nat.not_lt_zero _
  rwa [start] at ran

/-- All channels together change every element. -/
theorem DoesAll.elements {stages : Nat → List (Stage ρ β μ σ ε)}
    {channelOf : ι → Nat} {channels : Nat}
    (bounded : ∀ element, channelOf element < channels)
    (each : ∀ channel < channels, ∀ before,
      DoesAll ranks ((stages channel).map (Prod.mk channel)) before
        (elementwise ranks buffer (channelOf · = channel) change before))
    (before : ρ → σ) :
    DoesAll ranks (byChannel stages channels) before
      (elementwise ranks buffer (fun _ => True) change before) := by
  have whole : elementwise ranks buffer (channelOf · < channels) change
      before = elementwise ranks buffer (fun _ => True) change before := by
    unfold elementwise
    simp only [bounded]
  rw [← whole]
  exact DoesAll.channelElements each before

end Elementwise

end RuCCL.Library
