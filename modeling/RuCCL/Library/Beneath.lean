import Mathlib.Data.List.Forall2
import Mathlib.Data.List.Basic

/-!
# Comparing computations that may find nothing

Nothing counts as infinite: a computation stays beneath another one when it finds
something at least whenever the other one does, and something related to it.
-/

namespace RuCCL.Library

section Beneath

variable {α β γ δ ι κ : Type}

/-- Whenever `large` finds a value, `small` finds a related one. -/
def Beneath (related : α → β → Prop) (small : Option α) (large : Option β) :
    Prop :=
  ∀ value, large = some value → ∃ least, small = some least ∧ related least value

variable {related : α → β → Prop} {small : Option α} {large : Option β}

theorem Beneath.found {least : α} {value : β} (holds : related least value) :
    Beneath related (some least) (some value) := by
  rintro _ ⟨⟩
  exact ⟨least, rfl, holds⟩

theorem Beneath.bind {other : γ → δ → Prop} {next : α → Option γ}
    {later : β → Option δ} (first : Beneath related small large)
    (rest : ∀ least value, related least value → Beneath other (next least) (later value)) :
    Beneath other (small >>= next) (large >>= later) := by
  intro result found
  obtain ⟨value, here, there⟩ := Option.bind_eq_some_iff.mp found
  obtain ⟨least, start, holds⟩ := first value here
  obtain ⟨smaller, reached, kept⟩ := rest least value holds result there
  exact ⟨smaller, Option.bind_eq_some_iff.mpr ⟨least, start, reached⟩, kept⟩

theorem Beneath.map {other : γ → δ → Prop} {act : α → γ} {also : β → δ}
    (first : Beneath related small large)
    (kept : ∀ least value, related least value → other (act least) (also value)) :
    Beneath other (small.map act) (large.map also) := by
  intro result found
  obtain ⟨value, here, rfl⟩ := Option.map_eq_some_iff.mp found
  obtain ⟨least, start, holds⟩ := first value here
  exact ⟨act least, Option.map_eq_some_iff.mpr ⟨least, start, rfl⟩, kept least value holds⟩

/-- Two folds over related items. -/
theorem Beneath.foldlM {items : ι → κ → Prop} {act : α → ι → Option α}
    {also : β → κ → Option β} {first : List ι} {second : List κ}
    (paired : List.Forall₂ items first second)
    (each : ∀ item other, items item other → ∀ least value,
      related least value → Beneath related (act least item) (also value other))
    {least : α} {value : β} (start : related least value) :
    Beneath related (first.foldlM act least) (second.foldlM also value) := by
  induction paired generalizing least value with
  | nil => exact Beneath.found start
  | cons head _ ih =>
      rw [List.foldlM_cons, List.foldlM_cons]
      exact (each _ _ head least value start).bind fun _ _ =>
        ih

/-- Two folds over the same items. -/
theorem Beneath.foldlM_same {act : α → ι → Option α} {also : β → ι → Option β} {items : List ι}
    (each : ∀ item ∈ items, ∀ least value, related least value →
      Beneath related (act least item) (also value item))
    {least : α} {value : β} (start : related least value) :
    Beneath related (items.foldlM act least) (items.foldlM also value) := by
  have paired : List.Forall₂ (fun item other => item = other ∧ item ∈ items)
      items items :=
    List.forall₂_same.mpr fun item member => ⟨rfl, member⟩
  apply Beneath.foldlM paired _ start
  rintro item _ ⟨rfl, member⟩
  exact each item member

/-- Items that only move the larger side away. -/
theorem Beneath.foldlM_grow {also : β → ι → Option β} {items : List ι}
    (grows : ∀ item ∈ items, ∀ least value later, related least value →
      also value item = some later → related least later)
    (start : Beneath related small large) :
    Beneath related small (large >>= fun value => items.foldlM also value) := by
  induction items generalizing large with
  | nil =>
      intro result found
      obtain ⟨value, here, there⟩ := Option.bind_eq_some_iff.mp found
      cases there
      exact start result here
  | cons head rest ih =>
      have behind : Beneath related small (large >>= fun value => also value head) := by
        intro later found
        obtain ⟨value, here, there⟩ := Option.bind_eq_some_iff.mp found
        obtain ⟨least, present, holds⟩ := start value here
        exact ⟨least, present, grows head List.mem_cons_self least value later holds there⟩
      have whole := @ih (large >>= fun value =>
        also value head) (fun item member =>
          grows item (List.mem_cons_of_mem _ member)) behind
      simp only [List.foldlM_cons]
      rwa [bind_assoc] at whole

/-- Two traversals of the same items. -/
theorem Beneath.mapM {act : ι → Option α} {also : ι → Option β} {items : List ι}
    (each : ∀ item ∈ items, Beneath related (act item) (also item)) :
    Beneath (List.Forall₂ related) (items.mapM act) (items.mapM also) := by
  induction items with
  | nil => exact Beneath.found .nil
  | cons head rest ih =>
      rw [List.mapM_cons, List.mapM_cons]
      apply (each head List.mem_cons_self).bind
      intro least value holds
      apply (ih fun item member =>
        each item (List.mem_cons_of_mem _ member)).bind
      intro others values kept
      exact Beneath.found (.cons holds kept)

/-- Two total folds over the same items. -/
theorem foldl_related {act : α → ι → α} {also : β → ι → β} {items : List ι}
    (each : ∀ item ∈ items, ∀ least value, related least value →
      related (act least item) (also value item))
    {least : α} {value : β} (start : related least value) :
    related (items.foldl act least) (items.foldl also value) := by
  induction items generalizing least value with
  | nil => exact start
  | cons head rest ih =>
      exact ih (fun item member => each item (List.mem_cons_of_mem _ member))
        (each head List.mem_cons_self least value start)

end Beneath

end RuCCL.Library
