import RuCCL.Global.Node
import RuCCL.Library.SpanningTree

/-!
# The tree below a root

Each node works out its own parent and children from the sorted ids with the root
in front.  All of them together are one tree that spans the nodes; below the
smallest node it is the tree of an all-reduce.
-/

namespace RuCCL.Global

open RuCCL.Library RuCCL.Local

variable {Address : Type}

/-- The nodes with the root in front. -/
def rootedOrder (root : NodeId) (nodes : Table NodeId Address) :
    List NodeId :=
  root :: sortNodes (nodes.keys.filter fun id => id ≠ root)

/-- How many children a node can have; without an arity everyone is a child of the
root. -/
def childLimit (arity : Option UInt32) (count : Nat) : Nat :=
  max ((arity.map UInt32.toNat).getD count) 1

theorem rootedOrder_perm {root : NodeId} {nodes : Table NodeId Address} (present : root ∈ nodes) :
    (rootedOrder root nodes).Perm nodes.keys := by
  have sorted := List.perm_insertionSort (· ≤ ·) (nodes.keys.filter fun id => id ≠ root)
  refine (sorted.cons root).trans ?_
  have others : nodes.keys.filter (fun id => decide (id ≠ root)) =
      nodes.keys.erase root := by
    rw [List.Nodup.erase_eq_filter (AList.keys_nodup nodes)]
    refine List.filter_congr fun id _ => ?_
    rw [Bool.eq_iff_iff, decide_eq_true_iff, bne_iff_ne]
  rw [others]
  exact (List.perm_cons_erase (AList.mem_keys.mp present)).symm

theorem rootedOrder_nodup {root : NodeId} {nodes : Table NodeId Address}
    (present : root ∈ nodes) :
    (rootedOrder root nodes).Nodup :=
  (rootedOrder_perm present).nodup_iff.mpr (AList.keys_nodup nodes)

section Windows

variable {α : Type} (items : List α)

theorem take_drop_min (first arity : Nat) :
    (items.drop (min first items.length)).take
        (min (min first items.length + arity) items.length - min first items.length) =
      (items.drop first).take arity := by
  rcases Nat.lt_or_ge first items.length with inside | outside
  · rw [Nat.min_eq_left (Nat.le_of_lt inside)]
    rcases Nat.le_total (first + arity) items.length with whole | cut
    · rw [Nat.min_eq_left whole, Nat.add_sub_cancel_left]
    · rw [Nat.min_eq_right cut, ← List.length_drop, List.take_length, List.take_of_length_le]
      rw [List.length_drop]
      omega
  · rw [Nat.min_eq_right outside, List.drop_length,
      List.drop_of_length_le outside, List.take_nil, List.take_nil]

end Windows

theorem childWindow_eq (nodes : List NodeId) (arity position : Nat) :
    childWindow nodes arity position = childrenAt nodes arity position := by
  unfold childWindow childrenAt
  dsimp only
  split
  case isTrue inside =>
    have window := take_drop_min nodes (position * arity + 1) arity
    rw [Nat.min_eq_left (Nat.le_of_lt inside)] at window
    exact window
  case isFalse outside => rw [List.drop_of_length_le (Nat.not_lt.mp outside), List.take_nil]

/-- What a member finds out about its neighbours. -/
theorem neighbors_eq {node root : NodeId} {nodes : Table NodeId Address}
    {arity : Option UInt32} (present : root ∈ nodes) (member : node ∈ nodes)
    (children : arity ≠ some 0) :
    neighbors node root nodes arity =
      .ok (parentAt (rootedOrder root nodes) (childLimit arity (rootedOrder root nodes).length)
          ((rootedOrder root nodes).idxOf node),
        childrenAt (rootedOrder root nodes) (childLimit arity (rootedOrder root nodes).length)
          ((rootedOrder root nodes).idxOf node)) := by
  have among : node ∈ rootedOrder root nodes :=
    (rootedOrder_perm present).mem_iff.mpr (AList.mem_keys.mp member)
  have accepted : rejectIf (arity = some 0)
      GlobalCollectiveError.invalidTreeArity = .ok () := if_neg children
  have known : rejectIf (root ∉ nodes) GlobalCollectiveError.collectiveParamsMismatch = .ok () :=
    if_neg (not_not.mpr present)
  have found : okOr ((root :: sortNodes (nodes.keys.filter fun id => id ≠ root)).idxOf? node)
      GlobalCollectiveError.collectiveBeforeRegister =
      .ok ((rootedOrder root nodes).idxOf node) := by
    rw [okOr_eq_ok_iff]
    exact idxOf?_of_mem among
  rw [neighbors, accepted, ok_bind, known, ok_bind]
  refine (bind_eq_ok_iff ..).mpr ⟨_, found, ?_⟩
  refine congrArg Except.ok (Prod.ext rfl ?_)
  exact take_drop_min (rootedOrder root nodes) _ _

section Topology

theorem lookup_foldl_insert_same {Key Value : Type} [DecidableEq Key]
    (keys : List Key) (value : Value) (start : Table Key Value)
    (key : Key) :
    (keys.foldl (fun table key => table.insert key value) start).lookup key =
      if key ∈ keys then some value else start.lookup key := by
  induction keys generalizing start with
  | nil => rfl
  | cons first rest ih =>
      rw [List.foldl_cons, ih]
      by_cases later : key ∈ rest
      · rw [if_pos later, if_pos (List.mem_cons_of_mem _ later)]
      · rw [if_neg later]
        by_cases now : key = first
        · rw [now, AList.lookup_insert, if_pos List.mem_cons_self]
        · rw [AList.lookup_insert_ne now, if_neg]
          intro among
          rcases List.mem_cons.mp among with same | further
          · exact now same
          · exact later further

variable {sorted : List NodeId} {arity : Nat}

/-- The entries of the loop so far decide who has a parent. -/
theorem parents_foldl_addParent (entries : List (NodeId × Nat))
    (topology : TreeTopology) {node parent : NodeId}
    (only : ∀ entry ∈ entries, node ∈ childWindow sorted arity entry.2 → entry.1 = parent) :
    (entries.foldl (addParent sorted arity) topology).parents.lookup node =
      if ∃ entry ∈ entries, node ∈ childWindow sorted arity entry.2 then
        some parent
      else topology.parents.lookup node := by
  induction entries generalizing topology with
  | nil =>
      rw [List.foldl_nil, if_neg]
      rintro ⟨entry, none, _⟩
      cases none
  | cons entry rest ih =>
      rw [List.foldl_cons, ih _ fun other among =>
        only other (List.mem_cons_of_mem _ among)]
      by_cases later : ∃ other ∈ rest, node ∈ childWindow sorted arity other.2
      · obtain ⟨other, among, child⟩ := later
        rw [if_pos ⟨other, among, child⟩, if_pos ⟨other, List.mem_cons_of_mem _ among, child⟩]
      · rw [if_neg later, addParent, lookup_foldl_insert_same]
        by_cases now : node ∈ childWindow sorted arity entry.2
        · rw [if_pos now, if_pos ⟨entry, List.mem_cons_self, now⟩,
            only entry List.mem_cons_self now]
        · rw [if_neg now, if_neg]
          rintro ⟨other, among, child⟩
          rcases List.mem_cons.mp among with same | further
          · rw [same] at child
            exact now child
          · exact later ⟨other, further, child⟩

theorem children_foldl_addParent {entries : List (NodeId × Nat)}
    (distinct : (entries.map Prod.fst).Nodup) (topology : TreeTopology)
    {entry : NodeId × Nat} (among : entry ∈ entries) :
    (entries.foldl (addParent sorted arity) topology).children.lookup
        entry.1 = some (childWindow sorted arity entry.2) := by
  induction entries generalizing topology with
  | nil => cases among
  | cons first rest ih =>
      rw [List.map_cons, List.nodup_cons] at distinct
      rw [List.foldl_cons]
      rcases List.mem_cons.mp among with now | later
      · -- nobody after it is the same node
        have kept : ∀ (others : List (NodeId × Nat))
            (topology : TreeTopology), entry.1 ∉ others.map Prod.fst →
            (others.foldl (addParent sorted arity) topology).children.lookup
                entry.1 = topology.children.lookup entry.1 := by
          intro others
          induction others with
          | nil =>
              intro topology _
              rfl
          | cons other others unchanged =>
              intro topology apart
              rw [List.map_cons, List.mem_cons, not_or] at apart
              rw [List.foldl_cons, unchanged _ apart.2, addParent, AList.lookup_insert_ne apart.1]
        rw [now] at kept ⊢
        rw [kept rest _ distinct.1, addParent, AList.lookup_insert]
      · exact ih distinct.2 _ later

end Topology

theorem map_fst_zipIdx {α : Type} (items : List α) : items.zipIdx.map Prod.fst = items := by
  refine List.ext_getElem? fun position => ?_
  rw [List.getElem?_map, List.getElem?_zipIdx]
  cases items[position]? with
  | none => rfl
  | some item => rfl

/-- What the tree of an all-reduce says about a member. -/
theorem getTreeTopology_lookup {nodes : List NodeId}
    (distinct : nodes.Nodup) {arity : UInt32} (positive : arity ≠ 0) :
    ∃ topology, getTreeTopology nodes arity = some topology ∧ ∀ node ∈ nodes,
        topology.parents.lookup node = parentAt (sortNodes nodes)
          arity.toNat ((sortNodes nodes).idxOf node) ∧
        topology.children.lookup node = some (childrenAt (sortNodes nodes)
          arity.toNat ((sortNodes nodes).idxOf node)) := by
  have permuted : (sortNodes nodes).Perm nodes := List.perm_insertionSort (· ≤ ·) nodes
  have sortedDistinct : (sortNodes nodes).Nodup := permuted.nodup_iff.mpr distinct
  have children : 1 ≤ arity.toNat := by
    rw [Nat.one_le_iff_ne_zero]
    intro zero
    exact positive (UInt32.toNat_inj.mp zero)
  refine ⟨_, if_neg positive, ?_⟩
  intro node member
  have among : node ∈ sortNodes nodes := permuted.mem_iff.mpr member
  generalize sortNodes nodes = sorted at among sortedDistinct ⊢
  have placed := getElem?_idxOf among
  obtain ⟨within, _⟩ := List.getElem?_eq_some_iff.mp placed
  constructor
  · -- the node is a child of the position that its own position gives
    have window : ∀ entry ∈ sorted.zipIdx, node ∈ childWindow sorted arity.toNat entry.2 ↔
          sorted.idxOf node ≠ 0 ∧ (sorted.idxOf node - 1) / arity.toNat = entry.2 := by
      intro entry _
      rw [childWindow_eq, mem_childrenAt_iff children]
      constructor
      · rintro ⟨below, later, parent, found⟩
        rw [idxOf_of_getElem? sortedDistinct found]
        exact ⟨later, parent⟩
      · rintro ⟨later, parent⟩
        exact ⟨_, later, parent, placed⟩
    rw [parentAt]
    by_cases later : sorted.idxOf node ≠ 0
    · have smaller := @parent_position_lt arity.toNat _ later
      have above := List.getElem?_eq_getElem (Nat.lt_trans smaller within)
      rw [if_pos later, above, parents_foldl_addParent sorted.zipIdx _ ?_, if_pos]
      · refine ⟨(_, (sorted.idxOf node - 1) / arity.toNat),
          List.mem_zipIdx_iff_getElem?.mpr above, ?_⟩
        rw [window _ (List.mem_zipIdx_iff_getElem?.mpr above)]
        exact ⟨later, rfl⟩
      · intro entry listed child
        have position := ((window entry listed).mp child).2
        have same := List.mem_zipIdx_iff_getElem?.mp listed
        rw [← position, above] at same
        exact (Option.some.inj same).symm
    · rw [if_neg later, @parents_foldl_addParent sorted arity.toNat
        sorted.zipIdx _ node node, if_neg]
      · rfl
      · rintro ⟨entry, listed, child⟩
        exact later ((window entry listed).mp child).1
      · intro entry listed child
        exact absurd ((window entry listed).mp child).1 later
  · rw [← childWindow_eq]
    have named : (sorted.zipIdx.map Prod.fst).Nodup := by
      rw [map_fst_zipIdx]
      exact sortedDistinct
    exact children_foldl_addParent named _
      (List.mem_zipIdx_iff_getElem?.mpr placed :
        (node, sorted.idxOf node) ∈ sorted.zipIdx)

/-- The smallest node is in front anyway. -/
theorem rootedOrder_smallest {root : NodeId} {nodes : Table NodeId Address}
    (present : root ∈ nodes) (smallest : ∀ node ∈ nodes, root ≤ node) :
    rootedOrder root nodes = sortNodes nodes.keys := by
  have permuted : (rootedOrder root nodes).Perm (sortNodes nodes.keys) :=
    (rootedOrder_perm present).trans (List.perm_insertionSort (· ≤ ·) nodes.keys).symm
  refine List.Perm.eq_of_pairwise' (r := (· ≤ ·)) ?_
    (List.pairwise_insertionSort (· ≤ ·) nodes.keys) permuted
  refine List.pairwise_cons.mpr ⟨?_, List.pairwise_insertionSort _ _⟩
  intro node among
  have kept := (List.mem_insertionSort (· ≤ ·)).mp among
  exact smallest node (AList.mem_keys.mpr (List.mem_filter.mp kept).1)

/-- What the nodes find out on their own is one tree below the root, and the one of
an all-reduce when the root is the smallest node. -/
theorem neighbors_spanning_tree (nodes : Table NodeId Address)
    (root : NodeId) (present : root ∈ nodes) (arity : Option UInt32)
    (children : arity ≠ some 0) :
    ∃ (parent : NodeId → Option NodeId) (below : NodeId → List NodeId),
      (∀ node ∈ nodes, neighbors node root nodes arity = .ok (parent node, below node)) ∧
      SpanningTree nodes.keys root parent below ∧
      (∀ node ∈ nodes, node ≠ root → ∃! above, above ∈ nodes ∧ node ∈ below above) ∧
      ∀ k, arity = some k → (∀ node ∈ nodes, root ≤ node) →
        ∃ topology, getTreeTopology nodes.keys k = some topology ∧
          ∀ node ∈ nodes, topology.parents.lookup node = parent node ∧
            topology.children.lookup node = some (below node) := by
  have layout := spanningTree_layout (rootedOrder_nodup present)
    (Nat.le_max_right _ 1 : 1 ≤ childLimit arity (rootedOrder root nodes).length)
    (rfl : (rootedOrder root nodes)[0]? = some root)
  have tree := layout.of_perm (rootedOrder_perm present)
  refine ⟨_, _, fun node member => neighbors_eq present member children, tree, ?_, ?_⟩
  · intro node member other
    exact tree.existsUnique_parent (AList.mem_keys.mp member) other
  · rintro k rfl smallest
    have positive : k ≠ 0 := fun zero => children (congrArg some zero)
    obtain ⟨topology, computed, known⟩ := getTreeTopology_lookup (AList.keys_nodup nodes) positive
    refine ⟨topology, computed, fun node member => ?_⟩
    have limit : childLimit (some k) (rootedOrder root nodes).length =
        k.toNat := by
      refine Nat.max_eq_left (Nat.one_le_iff_ne_zero.mpr fun zero => ?_)
      exact positive (UInt32.toNat_inj.mp zero)
    rw [limit, rootedOrder_smallest present smallest]
    exact known node (AList.mem_keys.mp member)

/-- Five nodes, in the order of a hash map. -/
def fiveNodes : Table NodeId Unit :=
  (((((∅ : Table NodeId Unit).insert 8 ()).insert 1 ()).insert 5 ()).insert 9 ()).insert 3 ()

/-- In a binary tree below one of five nodes the smallest one has two children, and
the largest one is the child of exactly one node. -/
theorem neighbors_spanning_tree_five :
    neighbors 1 5 fiveNodes (some 2) = .ok (some 5, [8, 9]) ∧
      neighbors 5 5 fiveNodes (some 2) = .ok (none, [1, 3]) ∧
      ∃! above, above ∈ fiveNodes ∧ ∃ parent below,
        neighbors above 5 fiveNodes (some 2) = .ok (parent, below) ∧ (9 : NodeId) ∈ below := by
  refine ⟨by decide, by decide, ?_⟩
  obtain ⟨parent, below, computed, _, unique, _⟩ :=
    neighbors_spanning_tree fiveNodes 5 (by decide) (some 2) (by decide)
  obtain ⟨above, ⟨member, child⟩, only⟩ := unique 9 (by decide) (by decide)
  refine ⟨above, ⟨member, _, _, computed above member, child⟩, ?_⟩
  rintro other ⟨otherMember, otherParent, otherBelow, same, otherChild⟩
  rw [computed other otherMember] at same
  cases same
  exact only other ⟨otherMember, otherChild⟩

end RuCCL.Global
