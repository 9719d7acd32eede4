import Mathlib.Data.List.Nodup
import Mathlib.Logic.Relation

/-!
# Trees laid out on a list

Everyone knows a parent and some children.  When they agree with each other and
every way up ends at one root, they are one tree that spans its members.  A list
without repetitions is such a tree with its first entry as the root: the children
of a position are the next `arity` entries behind those of the positions before it.
-/

namespace RuCCL.Library

variable {α : Type}

/-- Parents and children that are one tree over some members. -/
structure SpanningTree (members : List α) (root : α) (parent : α → Option α)
    (children : α → List α) : Prop where
  rooted : root ∈ members
  agreed : ∀ above ∈ members, ∀ below ∈ members,
    below ∈ children above ↔ parent below = some above
  childMember : ∀ above ∈ members, ∀ below ∈ children above, below ∈ members
  childOnce : ∀ above ∈ members, (children above).Nodup
  orphan : ∀ member ∈ members, parent member = none ↔ member = root
  parentMember : ∀ below ∈ members, ∀ above, parent below = some above → above ∈ members
  reaches : ∀ member ∈ members,
    Relation.ReflTransGen (fun below above => parent below = some above) member root

/-- Everyone but the root is a child of exactly one member. -/
theorem SpanningTree.existsUnique_parent {members : List α} {root : α}
    {parent : α → Option α} {children : α → List α}
    (tree : SpanningTree members root parent children) {member : α}
    (among : member ∈ members) (below : member ≠ root) :
    ∃! above, above ∈ members ∧ member ∈ children above := by
  have parented : parent member ≠ none := fun none =>
    below ((tree.orphan member among).mp none)
  obtain ⟨above, found⟩ := Option.ne_none_iff_exists'.mp parented
  have present := tree.parentMember member among above found
  refine ⟨above, ⟨present, (tree.agreed above present member among).mpr found⟩, ?_⟩
  rintro other ⟨otherPresent, child⟩
  have same := (tree.agreed other otherPresent member among).mp child
  rw [found] at same
  exact (Option.some.inj same).symm

/-- The order in which the members are listed does not matter. -/
theorem SpanningTree.of_perm {members others : List α} {root : α}
    {parent : α → Option α} {children : α → List α}
    (tree : SpanningTree members root parent children)
    (order : members.Perm others) :
    SpanningTree others root parent children where
  rooted := order.mem_iff.mp tree.rooted
  agreed above aboveAmong below belowAmong :=
    tree.agreed above (order.mem_iff.mpr aboveAmong) below (order.mem_iff.mpr belowAmong)
  childMember above among below child := order.mem_iff.mp
      (tree.childMember above (order.mem_iff.mpr among) below child)
  childOnce above among := tree.childOnce above (order.mem_iff.mpr among)
  orphan member among := tree.orphan member (order.mem_iff.mpr among)
  parentMember below among above parent := order.mem_iff.mp
      (tree.parentMember below (order.mem_iff.mpr among) above parent)
  reaches member among := tree.reaches member (order.mem_iff.mpr among)

section Layout

/-- The parent of a position. -/
def parentAt (items : List α) (arity position : Nat) : Option α :=
  if position ≠ 0 then items[(position - 1) / arity]? else none

/-- The children of a position. -/
def childrenAt (items : List α) (arity position : Nat) : List α :=
  (items.drop (position * arity + 1)).take arity

/-- The positions of the children are those with the right parent. -/
theorem position_window_iff {arity : Nat} (positive : 1 ≤ arity) (above below : Nat) :
    (above * arity + 1 ≤ below ∧ below < above * arity + 1 + arity) ↔
      below ≠ 0 ∧ (below - 1) / arity = above := by
  rw [Nat.div_eq_iff positive]
  have next : (above + 1) * arity = above * arity + arity := Nat.succ_mul above arity
  omega

theorem mem_childrenAt_iff {items : List α} {arity : Nat}
    (positive : 1 ≤ arity) {position : Nat} {item : α} :
    item ∈ childrenAt items arity position ↔ ∃ below, below ≠ 0 ∧ (below - 1) / arity = position ∧
        items[below]? = some item := by
  rw [childrenAt, List.mem_iff_getElem?]
  constructor
  · rintro ⟨offset, found⟩
    rw [List.getElem?_take] at found
    split at found
    case isTrue within =>
      rw [List.getElem?_drop] at found
      have window := (position_window_iff positive position
        (position * arity + 1 + offset)).mp ⟨by omega, by omega⟩
      exact ⟨_, window.1, window.2, found⟩
    case isFalse => cases found
  · rintro ⟨below, later, parent, found⟩
    have window := (position_window_iff positive position below).mpr ⟨later, parent⟩
    refine ⟨below - (position * arity + 1), ?_⟩
    rw [List.getElem?_take, if_pos (by omega), List.getElem?_drop,
      Nat.add_sub_cancel' window.1, found]

theorem parent_position_lt {arity position : Nat} (later : position ≠ 0) :
    (position - 1) / arity < position := by
  have small := Nat.div_le_self (position - 1) arity
  omega

variable [DecidableEq α]

theorem idxOf_of_getElem? {items : List α} (distinct : items.Nodup)
    {position : Nat} {item : α} (found : items[position]? = some item) :
    items.idxOf item = position := by
  obtain ⟨within, same⟩ := List.getElem?_eq_some_iff.mp found
  rw [← same]
  exact distinct.idxOf_getElem position within

theorem getElem?_idxOf {items : List α} {item : α} (among : item ∈ items) :
    items[items.idxOf item]? = some item := by
  rw [List.getElem?_eq_getElem (List.idxOf_lt_length_iff.mpr among), List.getElem_idxOf]

theorem idxOf?_of_mem {items : List α} {item : α} (member : item ∈ items) :
    items.idxOf? item = some (items.idxOf item) := by
  cases found : items.idxOf? item with
  | none => exact absurd member (List.idxOf?_eq_none_iff.mp found)
  | some index =>
      rw [List.idxOf_eq_getD_idxOf?, found]
      rfl

/-- The way up leads to the first entry, by induction on the position. -/
theorem layout_reaches {items : List α} (distinct : items.Nodup)
    {arity : Nat} {root : α} (first : items[0]? = some root)
    (position : Nat) : ∀ {member : α}, items[position]? = some member →
    Relation.ReflTransGen
      (fun below above =>
        parentAt items arity (items.idxOf below) = some above)
      member root := by
  induction position using Nat.strongRecOn with
  | ind position ih =>
      intro member found
      by_cases start : position = 0
      · rw [start, first] at found
        cases found
        exact Relation.ReflTransGen.refl
      · obtain ⟨within, _⟩ := List.getElem?_eq_some_iff.mp found
        have smaller := @parent_position_lt arity position start
        have above := List.getElem?_eq_getElem (Nat.lt_trans smaller within)
        refine Relation.ReflTransGen.head ?_ (ih _ smaller above)
        rw [idxOf_of_getElem? distinct found, parentAt, if_pos start, above]

/-- A list without repetitions is a tree below its first entry. -/
theorem spanningTree_layout {items : List α} (distinct : items.Nodup)
    {arity : Nat} (positive : 1 ≤ arity) {root : α}
    (first : items[0]? = some root) :
    SpanningTree items root (fun member => parentAt items arity (items.idxOf member))
      (fun member => childrenAt items arity (items.idxOf member)) where
  rooted := List.mem_of_getElem? first
  agreed := by
    intro above aboveAmong below belowAmong
    rw [mem_childrenAt_iff positive, parentAt]
    constructor
    · rintro ⟨position, later, parent, found⟩
      rw [idxOf_of_getElem? distinct found, if_pos later, parent]
      exact getElem?_idxOf aboveAmong
    · intro parent
      split at parent
      case isTrue later =>
        refine ⟨items.idxOf below, later, ?_, getElem?_idxOf belowAmong⟩
        exact (idxOf_of_getElem? distinct parent).symm
      case isFalse => cases parent
  childMember := by
    intro above _ below child
    obtain ⟨position, _, _, found⟩ := (mem_childrenAt_iff positive).mp child
    exact List.mem_of_getElem? found
  childOnce := by
    intro above _
    exact (distinct.sublist (List.drop_sublist _ _)).sublist (List.take_sublist _ _)
  orphan := by
    intro member among
    have placed := getElem?_idxOf among
    obtain ⟨within, _⟩ := List.getElem?_eq_some_iff.mp placed
    constructor
    · intro none
      rw [parentAt] at none
      split at none
      case isTrue later =>
        rw [List.getElem?_eq_none_iff] at none
        have smaller := @parent_position_lt arity _ later
        omega
      case isFalse start =>
        rw [not_not.mp start, first] at placed
        exact (Option.some.inj placed).symm
    · rintro rfl
      rw [idxOf_of_getElem? distinct first, parentAt, if_neg (by simp)]
  parentMember := by
    intro below _ above parent
    rw [parentAt] at parent
    split at parent
    case isTrue => exact List.mem_of_getElem? parent
    case isFalse => cases parent
  reaches := by
    intro member among
    exact layout_reaches distinct first _ (getElem?_idxOf among)

end Layout

end RuCCL.Library
