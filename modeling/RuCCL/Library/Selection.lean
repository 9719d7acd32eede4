import Mathlib.Data.List.Perm.Subperm
import Mathlib.Data.List.Range
import Mathlib.Order.Lattice

/-!
# Selections

A search takes indices below a size one after the other, never one twice.  When it
has taken as many as there are, it has a permutation of all of them.
-/

namespace RuCCL.Library

universe u

/-- Different indices below `size`. -/
structure Selection (size : Nat) (order : List Nat) : Prop where
  nodup : order.Nodup
  bounded : ∀ index ∈ order, index < size

namespace Selection

variable {size : Nat} {order : List Nat}

theorem nil : Selection size [] :=
  ⟨List.nodup_nil, fun _ absent => absurd absent List.not_mem_nil⟩

theorem range (size : Nat) : Selection size (List.range size) :=
  ⟨List.nodup_range, fun _ among => List.mem_range.mp among⟩

theorem of_perm {other : List Nat} (selection : Selection size order)
    (same : order.Perm other) : Selection size other :=
  ⟨same.nodup_iff.mp selection.nodup,
    fun index among => selection.bounded index (same.mem_iff.mpr among)⟩

theorem singleton {index : Nat} (inside : index < size) : Selection size [index] := by
  refine ⟨List.nodup_cons.mpr ⟨List.not_mem_nil, List.nodup_nil⟩, fun other among => ?_⟩
  rw [List.mem_singleton.mp among]
  exact inside

theorem append {later : List Nat} (selection : Selection size order)
    (behind : Selection size later)
    (apart : ∀ index ∈ order, index ∉ later) :
    Selection size (order ++ later) := by
  refine ⟨List.nodup_append.mpr ⟨selection.nodup, behind.nodup, ?_⟩, ?_⟩
  · rintro index among other behind rfl
    exact apart index among behind
  · intro index among
    rcases List.mem_append.mp among with before | after
    · exact selection.bounded index before
    · exact behind.bounded index after

theorem concat {index : Nat} (selection : Selection size order)
    (inside : index < size) (fresh : index ∉ order) :
    Selection size (order ++ [index]) := by
  refine selection.append (singleton inside) fun other among same => ?_
  rw [List.mem_singleton.mp same] at among
  exact fresh among

theorem subperm (selection : Selection size order) : order.Subperm (List.range size) :=
  List.subperm_of_subset selection.nodup fun index among =>
    List.mem_range.mpr (selection.bounded index among)

theorem length_le (selection : Selection size order) : order.length ≤ size := by
  have shorter := selection.subperm.length_le
  rwa [List.length_range] at shorter

/-- A selection of all indices is a permutation of them. -/
theorem perm (selection : Selection size order)
    (complete : order.length = size) : order.Perm (List.range size) := by
  refine selection.subperm.perm_of_length_le ?_
  rw [List.length_range, complete]

/-- So is one that holds each of them. -/
theorem perm_of_mem (selection : Selection size order) (each : ∀ index < size, index ∈ order) :
    order.Perm (List.range size) := by
  have all : (List.range size).Subperm order :=
    List.subperm_of_subset List.nodup_range fun index among =>
      each index (List.mem_range.mp among)
  exact selection.subperm.antisymm all

end Selection

section Best

variable {α : Type u}

/-- The value that is left when each one takes the place of a worse one. -/
def bestBy (better : α → α → Bool) (items : List α) : Option α := items.foldl
    (fun best item =>
      match best with
      | none => some item
      | some kept => if better item kept then some item else best)
    none

theorem mem_of_foldl_best {better : α → α → Bool} {items : List α} {start : Option α} {result : α}
    (found : items.foldl
      (fun best item =>
        match best with
        | none => some item
        | some kept => if better item kept then some item else best)
      start = some result) :
    result ∈ items ∨ start = some result := by
  induction items generalizing start with
  | nil => exact Or.inr found
  | cons item rest ih =>
      rw [List.foldl_cons] at found
      rcases ih found with later | now
      · exact Or.inl (List.mem_cons_of_mem _ later)
      · cases start with
        | none =>
            cases now
            exact Or.inl List.mem_cons_self
        | some kept =>
            dsimp only at now
            split at now
            · cases now
              exact Or.inl List.mem_cons_self
            · exact Or.inr now

theorem mem_of_bestBy {better : α → α → Bool} {items : List α}
    {result : α} (found : bestBy better items = some result) :
    result ∈ items := by
  rcases mem_of_foldl_best found with among | absent
  · exact among
  · cases absent

theorem bestBy_isSome {items : List α} (some : items ≠ [])
    (better : α → α → Bool) : (bestBy better items).isSome = true := by
  have kept (rest : List α) (item : α) : (rest.foldl
      (fun best item =>
        match best with
        | none => Option.some item
        | Option.some kept => if better item kept then Option.some item else best)
      (Option.some item)).isSome = true := by
    induction rest generalizing item with
    | nil => rfl
    | cons next rest ih =>
        rw [List.foldl_cons]
        dsimp only
        split
        · exact ih next
        · exact ih item
  cases items with
  | nil => exact absurd rfl some
  | cons item rest => exact kept rest item

theorem bestBy_concat (better : α → α → Bool) (items : List α) (item : α) :
    bestBy better (items ++ [item]) =
      match bestBy better items with
      | none => some item
      | some kept => if better item kept then some item else some kept := by
  rw [bestBy, List.foldl_append, List.foldl_cons, List.foldl_nil, ← bestBy]
  cases bestBy better items with
  | none => rfl
  | some kept => rfl

/-- The best item is the first of those with the least key. -/
theorem bestBy_least {Key : Type} [LinearOrder Key] {key : α → Key} {better : α → α → Bool}
    (means : ∀ item kept, better item kept = true ↔ key item < key kept)
    {items : List α} {best : α} (found : bestBy better items = some best) :
    ∃ before behind, items = before ++ best :: behind ∧ (∀ other ∈ before, key best < key other) ∧
      ∀ other ∈ behind, key best ≤ key other := by
  induction items using List.reverseRecOn generalizing best with
  | nil => cases found
  | append_singleton front last ih =>
      rw [bestBy_concat] at found
      split at found
      case h_1 none =>
        cases found
        have empty : front = [] := by
          by_contra some
          have found := bestBy_isSome some better
          rw [none] at found
          cases found
        rw [empty]
        exact ⟨[], [], rfl, List.forall_mem_nil _, List.forall_mem_nil _⟩
      case h_2 kept before =>
        obtain ⟨older, newer, same, above, least⟩ := ih before
        split at found
        case isTrue improved =>
          cases found
          have less := (means last kept).mp improved
          refine ⟨front, [], rfl, ?_, List.forall_mem_nil _⟩
          rw [same]
          intro other among
          rcases List.mem_append.mp among with old | new
          · exact less.trans (above other old)
          · rcases List.mem_cons.mp new with rfl | new
            · exact less
            · exact less.trans_le (least other new)
        case isFalse worse =>
          cases found
          refine ⟨older, newer ++ [last], ?_, above, ?_⟩
          · rw [same, List.append_assoc, List.cons_append]
          · intro other among
            rcases List.mem_append.mp among with old | new
            · exact least other old
            · rw [List.mem_singleton.mp new]
              exact not_lt.mp fun less => worse ((means last _).mpr less)

/-- No item has a smaller key than the best one. -/
theorem bestBy_le {Key : Type} [LinearOrder Key] {key : α → Key} {better : α → α → Bool}
    (means : ∀ item kept, better item kept = true ↔ key item < key kept)
    {items : List α} {best other : α} (found : bestBy better items = some best)
    (among : other ∈ items) : key best ≤ key other := by
  obtain ⟨before, behind, rfl, above, least⟩ := bestBy_least means found
  rcases List.mem_append.mp among with old | new
  · exact (above other old).le
  · rcases List.mem_cons.mp new with rfl | new
    · exact le_rfl
    · exact least other new

end Best

end RuCCL.Library
