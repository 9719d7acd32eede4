import Mathlib.Logic.Relation
import RuCCL.Rank.HierarchySearch
import RuCCL.Rank.TopologyMatrices

/-!
# Groups are connected components

The groups of a threshold are the connected components of the links that are no
slower: what has been taken from the pending ranks is closed under these links, and
all of it is connected to the first rank.
-/

namespace RuCCL.Rank

open RuCCL.Library

namespace CollectiveTopology

variable {topology : CollectiveTopology} {payloadBytes threshold : Nat}

/-- Two ranks are joined by a link whose time is within a threshold. -/
def Fast (topology : CollectiveTopology) (payloadBytes threshold : Nat)
    (first second : Nat) : Prop :=
  ∃ cost, topology.link first second = some cost ∧
    linkTransferTimeNs cost payloadBytes ≤ threshold

/-- Two ranks are joined by a path of such links. -/
abbrev Connected (topology : CollectiveTopology)
    (payloadBytes threshold : Nat) : Nat → Nat → Prop :=
  Relation.ReflTransGen (topology.Fast payloadBytes threshold)

theorem isFast_iff {first second : Nat} :
    topology.isFast payloadBytes threshold first second = true ↔
      topology.Fast payloadBytes threshold first second := by
  rw [isFast, Option.any_eq_true]
  simp only [decide_eq_true_eq, Fast]

section Represented

variable (represented : topology.Represented)

include represented

theorem Fast.symm {first second : Nat}
    (fast : topology.Fast payloadBytes threshold first second) :
    topology.Fast payloadBytes threshold second first := by
  obtain ⟨cost, present, within⟩ := fast
  refine ⟨cost, ?_, within⟩
  rw [link, represented.links.symmetric]
  exact present

theorem Fast.inside {first second : Nat}
    (fast : topology.Fast payloadBytes threshold first second) :
    second < topology.worldSize := by
  obtain ⟨cost, present, _⟩ := fast
  exact (represented.links.square.entry_inside present).2

theorem Connected.symm {first second : Nat}
    (connected : topology.Connected payloadBytes threshold first second) :
    topology.Connected payloadBytes threshold second first := by
  induction connected with
  | refl => exact .refl
  | tail _ fast ih => exact .head (fast.symm represented) ih

end Represented

/-- What is closed under fast links holds all that is connected to it. -/
theorem Connected.closed {ranks : List Nat}
    (closed : ∀ rank ∈ ranks, ∀ peer,
      topology.Fast payloadBytes threshold rank peer → peer ∈ ranks)
    {first second : Nat} (among : first ∈ ranks)
    (connected : topology.Connected payloadBytes threshold first second) :
    second ∈ ranks := by
  induction connected with
  | refl => exact among
  | tail _ fast ih => exact closed _ ih _ fast

/-- A visit reaches only what is connected to its first rank, and the links of what
it has taken lead to visited ranks. -/
theorem visitGroup_connected (represented : topology.Represented)
    {first rounds : Nat} {visited pending group : List Nat}
    (reached : ∀ rank ∈ group ++ pending, topology.Connected payloadBytes threshold first rank)
    (taken : ∀ rank ∈ group, ∀ peer,
      topology.Fast payloadBytes threshold rank peer → peer ∈ visited) :
    let result := topology.visitGroup payloadBytes threshold rounds visited pending group
    (∀ rank ∈ result.2, topology.Connected payloadBytes threshold first rank) ∧
      ∀ rank ∈ result.2, ∀ peer,
        topology.Fast payloadBytes threshold rank peer → peer ∈ result.1 := by
  induction rounds generalizing visited pending group with
  | zero =>
      exact ⟨fun rank among =>
        reached rank (List.mem_append_left _ among), taken⟩
  | succ rounds ih =>
      rw [visitGroup]
      split
      case h_1 last =>
        exact ⟨fun rank among =>
          reached rank (List.mem_append_left _ among), taken⟩
      case h_2 rank last =>
        obtain ⟨front, rfl⟩ := List.getLast?_eq_some_iff.mp last
        have own := reached rank (List.mem_append_right _
          (List.mem_append_right _ (List.mem_singleton_self _)))
        rw [List.dropLast_concat]
        refine ih ?_ ?_
        · intro other among
          rw [List.mem_append, List.mem_append, List.mem_append, List.mem_singleton] at among
          rcases among with (old | rfl) | waiting | fresh
          · exact reached other (List.mem_append_left _ old)
          · exact own
          · exact reached other (List.mem_append_right _ (List.mem_append_left _ waiting))
          · have found := of_decide_eq_true (List.mem_filter.mp fresh).2
            exact own.tail (isFast_iff.mp found.2)
        · intro other among peer fast
          rw [List.mem_append]
          rcases List.mem_append.mp among with old | new
          · exact Or.inl (taken other old peer fast)
          · rw [List.mem_singleton.mp new] at fast
            by_cases seen : peer ∈ visited
            · exact Or.inl seen
            · refine Or.inr (List.mem_filter.mpr
                ⟨List.mem_range.mpr (fast.inside represented), ?_⟩)
              exact decide_eq_true ⟨seen, isFast_iff.mpr fast⟩

/-- All that is connected to each of its ranks. -/
def IsComponent (topology : CollectiveTopology)
    (payloadBytes threshold : Nat) (group : List Nat) : Prop :=
  ∀ first ∈ group, ∀ second,
    second ∈ group ↔ topology.Connected payloadBytes threshold first second

theorem IsComponent.of_perm {group other : List Nat}
    (component : topology.IsComponent payloadBytes threshold group)
    (same : other.Perm group) :
    topology.IsComponent payloadBytes threshold other := by
  intro first among second
  rw [same.mem_iff]
  exact component first (same.mem_iff.mp among) second

/-- What is connected to one rank is a component. -/
theorem isComponent_of_first (represented : topology.Represented) {group : List Nat} {start : Nat}
    (whole : ∀ second, second ∈ group ↔ topology.Connected payloadBytes threshold start second) :
    topology.IsComponent payloadBytes threshold group := by
  intro first among second
  have reached := (whole first).mp among
  rw [whole]
  exact ⟨fun other => (Connected.symm represented reached).trans other,
    fun other => reached.trans other⟩

/-- The group of a visit behind complete components is a component. -/
theorem visitGroup_component (represented : topology.Represented)
    {before : List Nat} {first : Nat}
    (selection : Selection topology.worldSize (before ++ [first]))
    (closed : ∀ rank ∈ before, ∀ peer,
      topology.Fast payloadBytes threshold rank peer → peer ∈ before) :
    topology.IsComponent payloadBytes threshold
      (topology.visitGroup payloadBytes threshold topology.worldSize
        (before ++ [first]) [first] []).2 := by
  have start : (before ++ [first]).Perm (before ++ [] ++ [first]) := by
    rw [List.append_nil]
  have bound : topology.worldSize ≤ before.length +
      ([] : List Nat).length + topology.worldSize := Nat.le_add_left _ _
  obtain ⟨all, partition, kept⟩ := @visitGroup_perm topology payloadBytes
    threshold _ _ _ _ _ selection start bound
  have reachedFirst : ∀ rank ∈ [] ++ [first],
      topology.Connected payloadBytes threshold first rank := by
    intro rank among
    rw [List.mem_singleton.mp among]
  obtain ⟨reached, taken⟩ := @visitGroup_connected topology payloadBytes
    threshold represented first topology.worldSize (before ++ [first])
    [first] [] reachedFirst (List.forall_mem_nil _)
  generalize topology.visitGroup payloadBytes threshold topology.worldSize
    (before ++ [first]) [first] [] = result at *
  have nodup := partition.nodup_iff.mp all.nodup
  have unseen : first ∉ before := fun among =>
    (List.nodup_append.mp selection.nodup).2.2 first among first (List.mem_singleton_self _) rfl
  have own : first ∈ result.2 := by
    have visited := kept.subset (List.mem_append_right before (List.mem_singleton_self first))
    rcases List.mem_append.mp (partition.mem_iff.mp visited) with old | new
    · exact absurd old unseen
    · exact new
  refine isComponent_of_first represented fun second =>
    ⟨reached second, fun connected => ?_⟩
  refine Connected.closed ?_ own connected
  intro rank among peer fast
  have visited := taken rank among peer fast
  rcases List.mem_append.mp (partition.mem_iff.mp visited) with old | new
  · -- a link back to an earlier component would have made this rank part of it
    have back := closed peer old rank (fast.symm represented)
    exact absurd rfl ((List.nodup_append.mp nodup).2.2 rank back rank among)
  · exact new

/-- The groups so far are components. -/
def AllComponents (topology : CollectiveTopology)
    (payloadBytes threshold : Nat) (groups : List (List Nat)) : Prop :=
  ∀ group ∈ groups, topology.IsComponent payloadBytes threshold group

theorem addGroup_components (represented : topology.Represented)
    {firstRank : Nat} {state : List Nat × List (List Nat)}
    (grouped : Grouped topology state)
    (inside : firstRank < topology.worldSize)
    (components : topology.AllComponents payloadBytes threshold state.2) :
    topology.AllComponents payloadBytes threshold
      (topology.addGroup payloadBytes threshold state firstRank).2 := by
  rw [CollectiveTopology.addGroup]
  split
  case isTrue => exact components
  case isFalse unseen =>
    have closed : ∀ rank ∈ state.1, ∀ peer,
        topology.Fast payloadBytes threshold rank peer → peer ∈ state.1 := by
      intro rank among peer fast
      obtain ⟨group, listed, own⟩ := List.mem_flatten.mp (grouped.partition.mem_iff.mp among)
      refine grouped.partition.mem_iff.mpr (List.mem_flatten.mpr ⟨group, listed, ?_⟩)
      exact (components group listed rank own peer).mpr (.single fast)
    have component := visitGroup_component represented
      (grouped.selection.concat inside unseen) closed
    intro group among
    rcases List.mem_append.mp among with old | new
    · exact components group old
    · rw [List.mem_singleton.mp new]
      exact component.of_perm (List.mergeSort_perm _ _)

theorem foldl_addGroup_components (represented : topology.Represented)
    {ranks : List Nat} {state : List Nat × List (List Nat)}
    (grouped : Grouped topology state)
    (inside : ∀ rank ∈ ranks, rank < topology.worldSize)
    (components : topology.AllComponents payloadBytes threshold state.2) :
    topology.AllComponents payloadBytes threshold
      (ranks.foldl (topology.addGroup payloadBytes threshold) state).2 := by
  induction ranks generalizing state with
  | nil => exact components
  | cons first rest ih =>
      have own := inside first List.mem_cons_self
      exact ih (grouped.addGroup own).1
        (fun rank among => inside rank (List.mem_cons_of_mem _ among))
        (addGroup_components represented grouped own components)

/-- The groups of a threshold are the components of its links. -/
theorem groupsWithin_components (represented : topology.Represented) :
    topology.AllComponents payloadBytes threshold
      (topology.groupsWithin payloadBytes threshold) := by
  have start : Grouped topology ([], []) := ⟨.nil, .nil, List.forall_mem_nil _⟩
  intro group among
  refine foldl_addGroup_components represented start
    (fun rank inside => List.mem_range.mp inside) (List.forall_mem_nil _)
    group ?_
  exact (List.mergeSort_perm _ _).mem_iff.mp among

end CollectiveTopology

end RuCCL.Rank
