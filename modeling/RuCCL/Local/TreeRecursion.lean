import Mathlib.Logic.Relation
import RuCCL.Local.Server
import RuCCL.Local.StrategiesExact

/-!
# When the local trees end

The three tree recursions go up one level at a time, from a list to the parents of
its groups.  A group of a parent without children is as long as the list it was
taken from, so the arity decides whether the levels become smaller.  A
configuration is accepted with any arity.
-/

namespace RuCCL.Local

open RuCCL.Library RuCCL.Global

section Levels

variable {α β : Type}

theorem length_grouped_le (arity : Nat) (items : List α) :
    (grouped arity items).length ≤ items.length := by
  have whole := (parents_children_perm (grouped arity items)).length_eq
  rw [flatMap_grouped, List.length_append, List.length_map] at whole
  omega

/-- Without children everyone is a parent. -/
theorem length_grouped_zero (items : List α) : (grouped 0 items).length = items.length := by
  have alone : ∀ (fuel : Nat) (items : List α), items.length ≤ fuel →
      (groups 0 fuel items).length = items.length := by
    intro fuel
    induction fuel with
    | zero =>
        intro items enough
        rw [List.length_eq_zero_iff.mp (Nat.le_zero.mp enough)]
        rfl
    | succ fuel ih =>
        intro items enough
        cases items with
        | nil => rfl
        | cons parent rest =>
            rw [groups, List.length_cons, List.drop_zero, List.length_cons,
              ih rest (Nat.succ_le_succ_iff.mp enough)]
  exact alone items.length items (Nat.le_refl _)

/-- A level of so many entries calls the next one, on the parents. -/
def Calls (arity above below : Nat) : Prop := ∃ items : List PeerId, items.length = above ∧
    (grouped arity items).length = below ∧ 1 < below

/-- Every call that is reached from the first level is on fewer entries. -/
def CallsShrink (arity count : Nat) : Prop :=
  ∀ above below, Relation.ReflTransGen (Calls arity) count above →
    Calls arity above below → below < above

/-- A tree of this arity over so many entries does not go on forever. -/
def ArityFits (arity count : Nat) : Prop := arity ≠ 0 ∨ count ≤ 1

theorem callsShrink_iff {arity count : Nat} :
    CallsShrink arity count ↔ ArityFits arity count := by
  constructor
  · intro shrink
    by_contra unfit
    rw [ArityFits, not_or, not_not, Nat.not_le] at unfit
    obtain ⟨rfl, several⟩ := unfit
    have again : Calls 0 count count := by
      refine ⟨List.replicate count 0, List.length_replicate, ?_, several⟩
      rw [length_grouped_zero, List.length_replicate]
    exact Nat.lt_irrefl _ (shrink count count Relation.ReflTransGen.refl again)
  · rintro (children | few) above below reached ⟨items, rfl, rfl, several⟩
    · exact length_grouped_lt (Nat.one_le_iff_ne_zero.mpr children)
        (several.trans_le (length_grouped_le arity items))
    · -- a level of one entry calls nobody
      have unmoved : items.length = count := by
        rcases reached.cases_head with same | ⟨next, first, _⟩
        · exact same.symm
        · obtain ⟨start, rfl, rfl, more⟩ := first
          have fewer := length_grouped_le arity start
          omega
      have fewer := length_grouped_le arity items
      omega

/-- A recursion that goes up level by level: it does not end exactly when the call
on the parents does not. -/
structure LevelByLevel (arity : Nat) (run : Nat → List α → Except Stop β) : Prop where
  start : ∀ items, run 0 items = .error .endless
  level : ∀ fuel items, ∃ parents : List α, parents.length = (grouped arity items).length ∧
      (run (fuel + 1) items = .error .endless ↔
        1 < parents.length ∧ run fuel parents = .error .endless)

namespace LevelByLevel

variable {arity : Nat} {run : Nat → List α → Except Stop β}

theorem endless (recursion : LevelByLevel 0 run) (fuel : Nat)
    {items : List α} (several : 1 < items.length) :
    run fuel items = .error .endless := by
  induction fuel generalizing items with
  | zero => exact recursion.start items
  | succ fuel ih =>
      obtain ⟨parents, same, goesOn⟩ := recursion.level fuel items
      rw [length_grouped_zero] at same
      rw [goesOn, same]
      refine ⟨several, ih ?_⟩
      rw [same]
      exact several

theorem ends (recursion : LevelByLevel arity run) {fuel : Nat}
    {items : List α} (fits : ArityFits arity items.length)
    (enough : items.length < fuel) :
    run fuel items ≠ .error .endless := by
  induction fuel generalizing items with
  | zero => cases enough
  | succ fuel ih =>
      obtain ⟨parents, same, goesOn⟩ := recursion.level fuel items
      rw [Ne, goesOn]
      rintro ⟨several, above⟩
      have fewer := length_grouped_le arity items
      rcases fits with children | few
      · have shorter := length_grouped_lt (Nat.one_le_iff_ne_zero.mpr children)
          (several.trans_le (same.trans_le fewer))
        exact ih (Or.inl children) (by omega) above
      · omega

end LevelByLevel

/-- A run that has an end, whatever the budget beyond it. -/
def RunEnds (run : Nat → Except Stop β) : Prop :=
  ∃ enough, ∀ fuel, enough ≤ fuel → run fuel ≠ .error .endless

theorem LevelByLevel.runEnds_iff {arity : Nat}
    {run : Nat → List α → Except Stop β} (recursion : LevelByLevel arity run)
    (items : List α) :
    RunEnds (fun fuel => run fuel items) ↔
      ArityFits arity items.length := by
  constructor
  · rintro ⟨enough, ended⟩
    by_contra unfit
    rw [ArityFits, not_or, not_not, Nat.not_le] at unfit
    obtain ⟨rfl, several⟩ := unfit
    exact ended enough (Nat.le_refl _) (recursion.endless enough several)
  · intro fits
    exact ⟨items.length + 1, fun fuel more => recursion.ends fits more⟩

end Levels

section Recursions

variable {Tensor Device : Type} (B : Backend Tensor Device)

theorem pairUp_ne_endless {α β : Type} (lefts : List α) (rights : List β) :
    pairUp lefts rights ≠ .error .endless := by
  induction lefts generalizing rights with
  | nil =>
      intro endless
      cases endless
  | cons left lefts ih =>
      cases rights with
      | nil =>
          intro endless
          cases endless
      | cons right rights =>
          rw [pairUp]
          cases later : pairUp lefts rights with
          | error stop =>
              intro endless
              cases endless
              exact ih rights later
          | ok paired =>
              intro endless
              cases endless

/-- The way down ends whenever the way up has. -/
theorem paired_endless_iff {α β γ : Type} {upper : Except Stop γ}
    {lefts : γ → List α} {rights : γ → List β} {δ : Type}
    {finish : List (α × β) → δ} :
    (upper >>= fun parents =>
      pairUp (lefts parents) (rights parents) >>= fun matched =>
        Except.ok (finish matched)) = .error .endless ↔
      upper = .error .endless := by
  cases upper with
  | error stop => rw [error_bind, Except.error.injEq, Except.error.injEq]
  | ok parents =>
      rw [ok_bind]
      cases paired : pairUp (lefts parents) (rights parents) with
      | error stop =>
          rw [error_bind, Except.error.injEq]
          refine iff_of_false (fun endless => ?_) (fun endless => ?_)
          · rw [endless] at paired
            exact pairUp_ne_endless _ _ paired
          · cases endless
      | ok matched =>
          rw [ok_bind]
          exact iff_of_false (fun endless => by cases endless)
            (fun endless => by cases endless)

theorem levelByLevel_reduceSumTreeInner (arity : Nat) :
    LevelByLevel arity (reduceSumTreeInner B arity) where
  start _ := rfl
  level fuel tensors := by
    refine ⟨(grouped arity tensors).map fun group =>
      sumOnto B group.1 group.2, List.length_map _, ?_⟩
    rw [reduceSumTreeInner]
    generalize (grouped arity tensors).map (fun group =>
      sumOnto B group.1 group.2) = parents
    cases parents with
    | nil =>
        exact iff_of_false (fun endless => by cases endless)
          (fun goesOn => by cases goesOn.1)
    | cons root others =>
        cases others with
        | nil =>
            exact iff_of_false (fun endless => by cases endless)
              (fun goesOn => Nat.lt_irrefl _ goesOn.1)
        | cons second rest => exact (and_iff_right (Nat.succ_lt_succ (Nat.succ_pos _))).symm

theorem levelByLevel_broadcastTreeInner (tensor : Tensor) (arity : Nat) :
    LevelByLevel arity (broadcastTreeInner B tensor arity) where
  start _ := rfl
  level fuel devices := by
    refine ⟨(grouped arity devices).map Prod.fst, List.length_map _, ?_⟩
    rw [broadcastTreeInner]
    refine paired_endless_iff.trans ?_
    generalize grouped arity devices = parts
    cases parts with
    | nil =>
        exact iff_of_false (fun endless => by cases endless)
          (fun goesOn => by cases goesOn.1)
    | cons root others =>
        cases others with
        | nil =>
            exact iff_of_false (fun endless => by cases endless)
              (fun goesOn => Nat.lt_irrefl _ goesOn.1)
        | cons second rest => exact (and_iff_right (Nat.succ_lt_succ (Nat.succ_pos _))).symm

theorem levelByLevel_allReduceSumTreeInner (arity : Nat) :
    LevelByLevel arity (allReduceSumTreeInner B arity) where
  start _ := rfl
  level fuel tensors := by
    refine ⟨(grouped arity tensors).map fun group =>
      (group.1.1, sumOnto B group.1.2 (group.2.map Prod.snd)),
      List.length_map _, ?_⟩
    rw [allReduceSumTreeInner]
    refine paired_endless_iff.trans ?_
    split
    case isTrue several => exact (and_iff_right several).symm
    case isFalse few =>
      exact iff_of_false (fun endless => by cases endless)
        (fun goesOn => few goesOn.1)

end Recursions

section Configurations

variable {Tensor Device Address : Type} (B : Backend Tensor Device)

/-- The recursion of a tree over some entries ends, and every call of it is on a
smaller problem. -/
def TreeEnds {α β : Type} (arity : UInt32)
    (run : Nat → Nat → List α → Except Stop β) (items : List α) : Prop :=
  RunEnds (fun fuel => run arity.toNat fuel items) ∧ CallsShrink arity.toNat items.length

/-- All tree recursions that the local collectives of a configuration start for
some peers end.  With other nodes an all-reduce takes its own arity to reduce to
one peer and to broadcast from it, and a ring that cannot be cut falls back on a
tree. -/
structure LocalTreesEnd (config : CollectiveConfig Address)
    (peers : List (PeerId × Tensor)) (result : Tensor) : Prop where
  allReduce : ∀ arity, config.localAllReduceStrategy = .tree arity →
    TreeEnds arity (allReduceSumTreeInner B) peers ∧
      TreeEnds arity (reduceSumTreeInner B) (peers.map Prod.snd) ∧
      TreeEnds arity (broadcastTreeInner B result) (placements B peers)
  ring : config.localAllReduceStrategy = .ring → TreeEnds 2 (allReduceSumTreeInner B) peers
  reduce : ∀ arity, config.localReduceStrategy = .tree arity →
    TreeEnds arity (reduceSumTreeInner B) (peers.map Prod.snd)
  broadcast : ∀ arity, config.localBroadcastStrategy = .tree arity →
    TreeEnds arity (broadcastTreeInner B result) (placements B peers)

/-- Some local strategy of a configuration is a tree of this arity. -/
def CollectiveConfig.UsesTree (config : CollectiveConfig Address) (arity : UInt32) : Prop :=
  config.localAllReduceStrategy = .tree arity ∨ config.localReduceStrategy = .tree arity ∨
    config.localBroadcastStrategy = .tree arity

theorem treeEnds_iff {α β : Type} {arity : UInt32} {run : Nat → Nat → List α → Except Stop β}
    (recursion : LevelByLevel arity.toNat (run arity.toNat))
    {items : List α} {count : Nat} (counted : items.length = count) :
    TreeEnds arity run items ↔ arity ≠ 0 ∨ count ≤ 1 := by
  rw [TreeEnds, recursion.runEnds_iff, callsShrink_iff, and_self, ArityFits, counted]
  refine or_congr_left (not_congr ?_)
  rw [← UInt32.toNat_inj]
  rfl

/-- What a configuration starts comes to an end, unless a tree has no children and
there are several peers. -/
theorem local_trees_end_iff (config : CollectiveConfig Address)
    (peers : List (PeerId × Tensor)) (result : Tensor) :
    LocalTreesEnd B config peers result ↔ ¬config.UsesTree 0 ∨ peers.length ≤ 1 := by
  have allReduces (arity : UInt32) :=
    treeEnds_iff (levelByLevel_allReduceSumTreeInner B arity.toNat)
      (rfl : peers.length = peers.length)
  have reduces (arity : UInt32) := treeEnds_iff (levelByLevel_reduceSumTreeInner B arity.toNat)
      (List.length_map Prod.snd : (peers.map Prod.snd).length = _)
  have broadcasts (arity : UInt32) :=
    treeEnds_iff (levelByLevel_broadcastTreeInner B result arity.toNat)
      (List.length_map _ : (placements B peers).length = _)
  constructor
  · intro ended
    by_contra unfit
    rw [not_or, not_not] at unfit
    obtain ⟨used, several⟩ := unfit
    have childless : ¬((0 : UInt32) ≠ 0 ∨ peers.length ≤ 1) := by
      rintro (absurdity | few)
      · exact absurdity rfl
      · exact several few
    rcases used with chosen | chosen | chosen
    · exact childless ((allReduces 0).mp (ended.allReduce 0 chosen).1)
    · exact childless ((reduces 0).mp (ended.reduce 0 chosen))
    · exact childless ((broadcasts 0).mp (ended.broadcast 0 chosen))
  · intro fits
    have fitting : ∀ arity, config.UsesTree arity → arity ≠ 0 ∨ peers.length ≤ 1 := by
      intro arity used
      rcases fits with unused | few
      · refine Or.inl fun zero => unused ?_
        rw [← zero]
        exact used
      · exact Or.inr few
    constructor
    · intro arity chosen
      have fit := fitting arity (Or.inl chosen)
      exact ⟨(allReduces arity).mpr fit, (reduces arity).mpr fit, (broadcasts arity).mpr fit⟩
    · intro _
      exact (allReduces 2).mpr (Or.inl (by decide))
    · intro arity chosen
      exact (reduces arity).mpr (fitting arity (Or.inr (Or.inl chosen)))
    · intro arity chosen
      exact (broadcasts arity).mpr (fitting arity (Or.inr (Or.inr chosen)))

/-- A configuration of one node whose all-reduce is a tree. -/
def treeConfig (arity : UInt32) : CollectiveConfig Unit where
  numDevices := 2
  localAllReduceStrategy := .tree arity
  localReduceStrategy := .centralized
  localBroadcastStrategy := .centralized
  numNodes := none
  globalAddress := none
  nodeAddress := none
  dataServicePort := none
  globalAllReduceStrategy := none
  globalReduceStrategy := none
  globalBroadcastStrategy := none

/-- Two peers with a tensor of one element each. -/
def twoPeers : List (PeerId × DenseTensor Nat) :=
  [(0, ⟨[1], 0, fun _ => 3⟩), (1, ⟨[1], 1, fun _ => 4⟩)]

/-- A tree without children is accepted, and goes on forever for two peers. -/
theorem childless_tree_endless :
    (treeConfig 0).isValid = true ∧ ¬LocalTreesEnd (denseBackend fun sum count => sum / count)
        (treeConfig 0) twoPeers ⟨[1], 0, fun _ => 7⟩ := by
  refine ⟨rfl, fun ended => ?_⟩
  obtain ⟨⟨enough, stops⟩, _⟩ := (ended.allReduce 0 rfl).1
  exact stops enough (Nat.le_refl _)
    ((levelByLevel_allReduceSumTreeInner _ 0).endless enough (by decide))

end Configurations

end RuCCL.Local
