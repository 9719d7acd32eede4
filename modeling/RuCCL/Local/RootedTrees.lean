import Mathlib.Algebra.Order.Group.Multiset
import RuCCL.Local.StrategiesExact

/-!
# The local rooted trees

Whatever the backend adds, a tree towards a root adds every tensor of its input
once; with exact elements that is their sum on the device of the root.  A tree from
a root leaves one copy for each peer, on its own device.
-/

namespace RuCCL.Local

open RuCCL.Library RuCCL.Global

section Addends

variable {Tensor Device : Type} (B : Backend Tensor Device)

/-- A tensor that was added up, with what it was added up from. -/
inductive SumOf : Tensor → Multiset Tensor → Prop where
  | own (tensor : Tensor) : SumOf tensor {tensor}
  | add {sum part : Tensor} {addends others : Multiset Tensor} (device : Device) :
      SumOf sum addends → SumOf part others →
      SumOf (B.floatAdd sum (B.floatToDevice part device)) (addends + others)

/-- Tensors that were added up from disjoint parts of some others. -/
inductive SumsOf : List Tensor → Multiset Tensor → Prop where
  | nil : SumsOf [] 0
  | cons {sum : Tensor} {sums : List Tensor} {addends others : Multiset Tensor} :
      SumOf B sum addends → SumsOf sums others →
      SumsOf (sum :: sums) (addends + others)

variable {B}

theorem sumsOf_self (tensors : List Tensor) : SumsOf B tensors (tensors : Multiset Tensor) := by
  induction tensors with
  | nil => exact SumsOf.nil
  | cons tensor rest ih =>
      rw [← Multiset.cons_coe, ← Multiset.singleton_add]
      exact SumsOf.cons (SumOf.own tensor) ih

theorem SumsOf.append_inv {sums others : List Tensor}
    {addends : Multiset Tensor} (made : SumsOf B (sums ++ others) addends) :
    ∃ left right, SumsOf B sums left ∧ SumsOf B others right ∧ addends = left + right := by
  induction sums generalizing addends with
  | nil => exact ⟨0, addends, SumsOf.nil, made, (zero_add _).symm⟩
  | cons sum sums ih =>
      rcases made with _ | ⟨first, later⟩
      obtain ⟨left, right, mine, theirs, rfl⟩ := ih later
      exact ⟨_, right, SumsOf.cons first mine, theirs, (add_assoc _ _ _).symm⟩

/-- The loop of a group adds what each of its members was made of. -/
theorem SumsOf.sumOnto {first : Tensor} {others : List Tensor}
    {addends : Multiset Tensor} (made : SumsOf B (first :: others) addends) :
    SumOf B (sumOnto B first others) addends := by
  have loop : ∀ (others : List Tensor) (sum : Tensor)
      (before after : Multiset Tensor), SumOf B sum before →
      SumsOf B others after →
      SumOf B (others.foldl (fun sum tensor => B.floatAdd sum
        (B.floatToDevice tensor (B.floatDevice first))) sum)
        (before + after) := by
    intro others
    induction others with
    | nil =>
        intro sum before after so rest
        cases rest
        rw [add_zero]
        exact so
    | cons other others ih =>
        intro sum before after so rest
        rcases rest with _ | ⟨now, later⟩
        rw [← add_assoc]
        exact ih _ _ _ (SumOf.add _ so now) later
  rcases made with _ | ⟨start, rest⟩
  exact loop others first _ _ start rest

theorem SumsOf.parents {parts : List (Tensor × List Tensor)} {addends : Multiset Tensor}
    (made : SumsOf B (parts.flatMap fun group => group.1 :: group.2) addends) :
    SumsOf B (parts.map fun group => RuCCL.Local.sumOnto B group.1 group.2)
      addends := by
  induction parts generalizing addends with
  | nil => exact made
  | cons group rest ih =>
      rw [List.flatMap_cons] at made
      obtain ⟨left, right, now, later, rfl⟩ := made.append_inv
      exact SumsOf.cons now.sumOnto (ih later)

/-- Each level adds everything of the level below once. -/
theorem reduceSumTreeInner_sumOf {arity fuel : Nat} {tensors : List Tensor}
    {addends : Multiset Tensor} {sum : Tensor}
    (made : SumsOf B tensors addends)
    (computed : reduceSumTreeInner B arity fuel tensors = .ok sum) :
    SumOf B sum addends := by
  induction fuel generalizing tensors with
  | zero => cases computed
  | succ fuel ih =>
      rw [← flatMap_grouped arity tensors] at made
      have above := made.parents
      rw [reduceSumTreeInner] at computed
      split at computed
      case h_1 => cases computed
      case h_2 root single =>
        cases computed
        rw [single] at above
        rcases above with _ | ⟨only, none⟩
        cases none
        rw [add_zero]
        exact only
      case h_3 => exact ih above computed

theorem reduceSumTree_sumOf {tensors : CollectiveTensorMap Tensor}
    {root : PeerId} {arity : UInt32} {sum : Tensor}
    (computed : reduceSumTree B tensors root arity = .ok sum) :
    SumOf B sum (values tensors : Multiset Tensor) := by
  rw [reduceSumTree] at computed
  obtain ⟨own, given, computed⟩ := of_bind computed
  have found := (okOr_eq_ok_iff ..).mp given
  have sorted : (own :: sortByDevice B B.floatDevice
      (values (tensors.erase root))).Perm (values tensors) :=
    ((List.mergeSort_perm _ _).cons own).trans (values_perm_of_lookup found).symm
  rw [← Multiset.coe_eq_coe.mpr sorted]
  exact reduceSumTreeInner_sumOf (sumsOf_self _) computed

end Addends

section Exact

variable {Tensor Device Element : Type} [AddCommMonoid Element]

/-- A reduction gives the root the sum of all tensors, each of them added once, on
its device; a broadcast gives each peer one copy, on its device. -/
theorem local_rooted_trees_exact (B : Backend Tensor Device) (content : Tensor → Index → Element)
    (divide : Element → Nat → Element) (exact : Exact B content divide)
    (root : PeerId) (arity : UInt32) (some : 1 ≤ arity) :
    (∀ (tensors : CollectiveTensorMap Tensor) (own : Tensor)
      (shape : List Nat), tensors.lookup root = .some own →
      (∀ tensor ∈ values tensors, B.shape tensor = shape) →
      ∃ sum, reduceSumTree B tensors root arity = .ok sum ∧
        SumOf B sum (values tensors : Multiset Tensor) ∧
        Holds B content sum (B.floatDevice own) shape (total content (values tensors))) ∧
    ∀ (devices : PeerDeviceMap Device) (tensor : Tensor),
      devices.lookup root = .some (B.floatDevice tensor) →
      ∃ copies, broadcastTree B devices root tensor arity = .ok (collect copies) ∧
        Delivered B content (pairs devices) (B.shape tensor) (content tensor) copies ∧
        Served B content devices (B.shape tensor) (content tensor) (collect copies) := by
  have children : 1 ≤ arity.toNat := UInt32.le_iff_toNat_le.mp some
  constructor
  · intro tensors own shape found same
    obtain ⟨sum, computed, held⟩ := reduceSumTree_holds exact found children same
    exact ⟨sum, computed, reduceSumTree_sumOf computed, held⟩
  · intro devices tensor found
    have held : Holds B content tensor (B.floatDevice tensor)
        (B.shape tensor) (content tensor) := ⟨rfl, rfl, fun _ _ => rfl⟩
    obtain ⟨copies, computed, delivered⟩ :=
      @broadcastTreeInner_delivers _ _ _ B content _ divide _ exact _ tensor
        _ children _ (root, B.floatDevice tensor)
        (sortByDevice B Prod.snd (pairs (devices.erase root)))
        (Nat.le_refl _) held
    have whole : ((root, B.floatDevice tensor) :: sortByDevice B Prod.snd
        (pairs (devices.erase root))).Perm (pairs devices) :=
      ((List.mergeSort_perm _ _).cons _).trans (pairs_perm_of_lookup found).symm
    refine ⟨copies, ?_, ⟨delivered.placed.trans whole, delivered.each⟩, delivered.served whole⟩
    rw [broadcastTree, found, okOr_some, ok_bind]
    exact (bind_eq_ok_iff ..).mpr ⟨copies, computed, rfl⟩

/-- Four peers on three devices, the root neither the first nor the last. -/
def fourPeers : CollectiveTensorMap (DenseTensor Nat) :=
  collect [(4, ⟨[2], 1, fun index => index 0⟩), (7, ⟨[2], 0, fun _ => 10⟩),
    (1, ⟨[2], 2, fun index => 100 * index 0⟩), (9, ⟨[2], 1, fun _ => 1000⟩)]

/-- Adding up four tensors on the device of the second one, and giving it back to
everyone. -/
theorem local_rooted_trees_exact_four :
    (∃ sum, reduceSumTree (denseBackend fun sum count => sum / count) fourPeers 7 2 = .ok sum ∧
      sum.device = 0 ∧ sum.content (fun _ => 1) = 1111) ∧
    ∃ copies, broadcastTree (denseBackend fun sum count => sum / count)
        (getPeerDevices (denseBackend fun (sum : Nat) count => sum / count)
          fourPeers) 7 ⟨[2], 0, fun _ => 10⟩ 2 = .ok (collect copies) ∧
      copies.length = 4 := by
  obtain ⟨reduces, broadcasts⟩ := local_rooted_trees_exact
    (denseBackend fun (sum : Nat) count => sum / count)
    DenseTensor.content _ (exact_denseBackend _) 7 2 (by decide)
  constructor
  · have shapes : ∀ tensor ∈ values fourPeers,
        (denseBackend fun (sum : Nat) count => sum / count).shape tensor = [2] := by
      intro tensor among
      rw [show values fourPeers =
        [⟨[2], 1, fun _ => 1000⟩, ⟨[2], 2, fun index => 100 * index 0⟩,
          ⟨[2], 0, fun _ => 10⟩, ⟨[2], 1, fun index => index 0⟩] from rfl]
        at among
      simp only [List.mem_cons, List.not_mem_nil, or_false] at among
      rcases among with rfl | rfl | rfl | rfl <;> rfl
    obtain ⟨sum, computed, _, located, _, filled⟩ :=
      reduces fourPeers ⟨[2], 0, fun _ => 10⟩ [2] rfl shapes
    refine ⟨sum, computed, located, ?_⟩
    have inside : Inside [2] fun _ => 1 := by
      intro dimension size sized
      match dimension with
      | 0 =>
          cases sized
          decide
      | rest + 1 => cases sized
    rw [filled _ inside]
    rfl
  · obtain ⟨copies, computed, delivered, _⟩ := broadcasts
      (getPeerDevices (denseBackend fun (sum : Nat) count => sum / count)
        fourPeers) ⟨[2], 0, fun _ => 10⟩ rfl
    refine ⟨copies, computed, ?_⟩
    have count := delivered.placed.length_eq
    rw [placements, List.length_map] at count
    exact count

end Exact

end RuCCL.Local
