import Mathlib.Data.List.GetD
import RuCCL.Library.Around
import RuCCL.Rank.RingSearch
import RuCCL.Rank.TopologyMatrices

/-!
# The rings that a search finds

Every ring of a search is closed and begins with rank 0, and no two of them are the
same up to their direction.  In a small world the search finds all of them and puts
the best one first.
-/

namespace RuCCL.Rank

open RuCCL.Library

namespace CollectiveTopology

/-- Two ranks are joined by a link. -/
def Linked (topology : CollectiveTopology) (first second : Nat) : Prop :=
  topology.link first second ≠ none

/-- All ranks from rank 0 on, neighbours around the ring being linked. -/
structure ClosedRing (topology : CollectiveTopology) (order : List Nat) :
    Prop where
  perm : order.Perm (List.range topology.worldSize)
  zero : order.head? = some 0
  linked : ∀ pair ∈ CollectiveTuning.ringPairs order, topology.link pair.1 pair.2 ≠ none

theorem ringPairs_iff_around {R : Nat → Nat → Prop} (order : List Nat) :
    (∀ pair ∈ CollectiveTuning.ringPairs order, R pair.1 pair.2) ↔
      Around R order := by
  cases order with
  | nil => exact iff_of_true (List.forall_mem_nil _) .nil
  | cons first rest =>
      have last : (first :: rest).getD ((first :: rest).length - 1) 0 =
          (first :: rest).getLast (List.cons_ne_nil _ _) := by
        rw [List.getLast_eq_getElem, List.getD_eq_getElem]
      have positive : 0 < (first :: rest).length := Nat.succ_pos _
      have front : (first :: rest).getD 0 0 = first := rfl
      rw [around_iff, List.isChain_iff_getElem, ← last]
      clear last
      generalize (first :: rest) = order at *
      simp only [CollectiveTuning.ringPairs, List.forall_mem_map, List.mem_range]
      constructor
      · intro each
        constructor
        · intro index inside
          have here := each index (by omega)
          rw [Nat.mod_eq_of_lt inside, List.getD_eq_getElem _ _ inside,
            List.getD_eq_getElem _ _ (Nat.lt_of_succ_lt inside)] at here
          exact here
        · have here := each (order.length - 1) (by omega)
          rw [Nat.sub_add_cancel positive, Nat.mod_self, front] at here
          exact here
      · rintro ⟨chain, closed⟩ index inside
        rcases Nat.lt_or_ge (index + 1) order.length with before | behind
        · rw [Nat.mod_eq_of_lt before, List.getD_eq_getElem _ _ before,
            List.getD_eq_getElem _ _ inside]
          exact chain index before
        · have final : index = order.length - 1 := by omega
          rw [final, Nat.sub_add_cancel positive, Nat.mod_self, front]
          exact closed

variable {topology : CollectiveTopology}

theorem closedRing_iff {order : List Nat} :
    topology.ClosedRing order ↔
      order.Perm (List.range topology.worldSize) ∧ order.head? = some 0 ∧
        Around topology.Linked order := by
  rw [← ringPairs_iff_around]
  exact ⟨fun ring => ⟨ring.perm, ring.zero, ring.linked⟩,
    fun ⟨perm, zero, linked⟩ => ⟨perm, zero, linked⟩⟩

theorem reversedRing_cons (rest : List Nat) (first : Nat) :
    reversedRing (first :: rest) = 0 :: rest.reverse := rfl

theorem reversedRing_reversedRing {order : List Nat} (zero : order.head? = some 0) :
    reversedRing (reversedRing order) = order := by
  cases order with
  | nil => cases zero
  | cons first rest =>
      cases zero
      rw [reversedRing_cons, reversedRing_cons, List.reverse_reverse]

theorem ClosedRing.reversed (represented : topology.Represented)
    {order : List Nat} (ring : topology.ClosedRing order) :
    topology.ClosedRing (reversedRing order) := by
  obtain ⟨perm, zero, around⟩ := closedRing_iff.mp ring
  cases order with
  | nil => cases zero
  | cons first rest =>
      cases zero
      refine closedRing_iff.mpr ⟨reversedRing_perm.trans perm, rfl, ?_⟩
      refine around.reverse fun left right linked => ?_
      unfold Linked link at *
      rw [represented.links.symmetric]
      exact linked

/-- Of two directions, the one that is kept. -/
def Canonical (order : List Nat) : Prop := order ≤ reversedRing order

/-- Kept rings are the same up to direction only when they are equal. -/
theorem Canonical.eq_of_reversed {first second : List Nat}
    (firstKept : Canonical first) (secondKept : Canonical second)
    (zero : second.head? = some 0) (same : first = reversedRing second) :
    first = second := by
  rw [Canonical, same, reversedRing_reversedRing zero] at firstKept
  rw [same]
  exact le_antisymm firstKept secondKept

theorem isChain_concat_iff {R : Nat → Nat → Prop} {order : List Nat}
    (some : order ≠ []) (next : Nat) :
    (order ++ [next]).IsChain R ↔ order.IsChain R ∧ R (order.getLastD 0) next := by
  rw [List.isChain_append]
  refine and_congr_right fun _ => ?_
  rw [List.getLast?_eq_getLast_of_ne_nil some,
    List.getLastD_eq_getLast?, List.getLast?_eq_getLast_of_ne_nil some]
  constructor
  · intro each
    exact each.2 _ rfl _ rfl
  · intro linked
    refine ⟨List.isChain_singleton _, ?_⟩
    rintro _ ⟨⟩ _ ⟨⟩
    exact linked

/-- A path through all ranks is a closed ring when its ends are linked. -/
theorem closedRing_of_complete {order : List Nat}
    (zero : order.head? = some 0) (chain : order.IsChain topology.Linked)
    (perm : order.Perm (List.range topology.worldSize)) :
    topology.ClosedRing order ↔ topology.link (order.getLastD 0) (order.headD 0) ≠ none := by
  cases order with
  | nil => cases zero
  | cons first rest =>
      cases zero
      rw [closedRing_iff, around_iff, List.getLastD_eq_getLast?,
        List.getLast?_eq_getLast_of_ne_nil (List.cons_ne_nil _ _)]
      exact ⟨fun ring => ring.2.2.2, fun closed => ⟨perm, rfl, chain, closed⟩⟩

/-- The search collects the kept closed rings that go on from a path. -/
theorem mem_collectRings_iff {remaining : Nat} {order ring : List Nat}
    (path : Selection topology.worldSize order)
    (zero : order.head? = some 0) (chain : order.IsChain topology.Linked)
    (missing : order.length + remaining = topology.worldSize) :
    ring ∈ topology.collectRings remaining order ↔
      order <+: ring ∧ topology.ClosedRing ring ∧ Canonical ring := by
  have some : order ≠ [] := by
    rintro rfl
    cases zero
  induction remaining generalizing order with
  | zero =>
      have perm := path.perm missing
      have whole : order <+: ring ∧ topology.ClosedRing ring →
          ring = order := by
        rintro ⟨before, closed⟩
        refine (before.eq_of_length ?_).symm
        rw [perm.length_eq, closed.perm.length_eq]
      have ends := closedRing_of_complete zero chain perm
      rw [collectRings]
      split
      case isTrue open_ =>
        refine iff_of_false List.not_mem_nil fun found => ?_
        rw [whole ⟨found.1, found.2.1⟩] at found
        exact ends.mp found.2.1 open_
      case isFalse closed =>
        split
        case isTrue kept =>
          rw [List.mem_singleton]
          constructor
          · rintro rfl
            exact ⟨List.prefix_rfl, ends.mpr closed, kept⟩
          · exact fun found => whole ⟨found.1, found.2.1⟩
        case isFalse other =>
          refine iff_of_false List.not_mem_nil fun found => ?_
          rw [whole ⟨found.1, found.2.1⟩] at found
          exact other found.2.2
  | succ remaining ih =>
      have start : 0 ∈ order := List.mem_of_mem_head? zero
      have further : ∀ candidate, candidate < topology.worldSize → candidate ∉ order →
          topology.link (order.getLastD 0) candidate ≠ none →
          (ring ∈ topology.collectRings remaining (order ++ [candidate]) ↔
            order ++ [candidate] <+: ring ∧ topology.ClosedRing ring ∧ Canonical ring) := by
        intro candidate inside fresh linked
        refine ih (path.concat inside fresh) ?_ ?_ ?_ ?_
        · rw [List.head?_append, zero]
          rfl
        · exact (isChain_concat_iff some candidate).mpr ⟨chain, linked⟩
        · rw [List.length_append, List.length_singleton]
          omega
        · exact List.append_ne_nil_of_left_ne_nil some _
      rw [collectRings, List.mem_flatMap]
      simp only [List.mem_filter, decide_eq_true_eq, List.mem_range'_1]
      constructor
      · rintro ⟨candidate, ⟨inside, fresh, linked⟩, found⟩
        obtain ⟨before, rest⟩ := (further candidate (by omega) fresh linked).mp found
        exact ⟨(List.prefix_append _ _).trans before, rest⟩
      · rintro ⟨⟨behind, rfl⟩, closed, kept⟩
        cases behind with
        | nil =>
            have length := closed.perm.length_eq
            rw [List.append_nil, List.length_range] at length
            omega
        | cons candidate later =>
            have own : candidate ∈ order ++ candidate :: later :=
              List.mem_append_right _ List.mem_cons_self
            have inside := List.mem_range.mp (closed.perm.mem_iff.mp own)
            have nodup := closed.perm.nodup_iff.mpr List.nodup_range
            have fresh : candidate ∉ order := fun among =>
              (List.nodup_append.mp nodup).2.2 candidate among candidate List.mem_cons_self rfl
            have positive : candidate ≠ 0 := by
              rintro rfl
              exact fresh start
            have joined : order ++ [candidate] <+: order ++ candidate :: later := by
              rw [List.prefix_append_right_inj]
              exact ⟨later, rfl⟩
            have linked : topology.link (order.getLastD 0) candidate ≠
                none := by
              obtain ⟨_, _, around⟩ := closedRing_iff.mp closed
              have whole := (List.isChain_append.mp around).1
              exact ((isChain_concat_iff some candidate).mp (List.isChain_split.mp whole).1).2
            exact ⟨candidate, ⟨by omega, fresh, linked⟩,
              (further candidate inside fresh linked).mpr ⟨joined, closed, kept⟩⟩

/-- All kept closed rings are collected, and nothing else. -/
theorem mem_collected_iff {ring : List Nat} (someRank : topology.worldSize ≠ 0) :
    ring ∈ topology.collectRings (topology.worldSize - 1) [0] ↔
      topology.ClosedRing ring ∧ Canonical ring := by
  have positive := Nat.pos_of_ne_zero someRank
  have missing : [0].length + (topology.worldSize - 1) =
      topology.worldSize := Nat.add_sub_cancel' positive
  rw [mem_collectRings_iff (.singleton positive) rfl (List.isChain_singleton _) missing]
  constructor
  · exact fun found => found.2
  · rintro ⟨closed, kept⟩
    refine ⟨?_, closed, kept⟩
    have zero := closed.zero
    cases ring with
    | nil => cases zero
    | cons first rest =>
        cases zero
        exact ⟨rest, rfl⟩

theorem linked_of_mem_successors {order : List Nat} {current next : Nat} {cost : LinkCost}
    (found : (next, cost) ∈ topology.successors order current) :
    topology.Linked current next := by
  obtain ⟨rank, _, linked⟩ := List.mem_filterMap.mp found
  obtain ⟨_, present, same⟩ := Option.map_eq_some_iff.mp linked
  cases same
  rw [Linked, present]
  exact Option.some_ne_none _

theorem isChain_extendRing {remaining : Nat} {order : List Nat}
    (some : order ≠ []) (chain : order.IsChain topology.Linked) :
    (topology.extendRing remaining order).IsChain topology.Linked := by
  induction remaining generalizing order with
  | zero => exact chain
  | succ remaining ih =>
      rw [extendRing]
      split
      case h_1 => exact List.isChain_nil
      case h_2 next cost best =>
        have linked := linked_of_mem_successors (mem_of_bestBy best)
        exact ih (List.append_ne_nil_of_left_ne_nil some _)
          ((isChain_concat_iff some next).mpr ⟨chain, linked⟩)

/-- A closed ring that has been turned to rank 0 in its kept direction. -/
theorem closedRing_rotateRingToZero (represented : topology.Represented) {order : List Nat}
    (perm : order.Perm (List.range topology.worldSize))
    (around : Around topology.Linked order) :
    topology.ClosedRing (rotateRingToZero order) ∧ Canonical (rotateRingToZero order) := by
  have zero : 0 ∈ order := perm.mem_iff.mpr
    (List.mem_range.mpr (Nat.pos_of_ne_zero represented.someRank))
  have inside := List.idxOf_lt_length_iff.mpr zero
  have front : order.drop (order.idxOf 0) = 0 :: order.drop (order.idxOf 0 + 1) := by
    rw [List.drop_eq_getElem_cons inside, List.getElem_idxOf]
  have turned : topology.ClosedRing
      (order.drop (order.idxOf 0) ++ order.take (order.idxOf 0)) := by
    refine closedRing_iff.mpr ⟨?_, ?_, ?_⟩
    · refine List.perm_append_comm.trans ?_
      rw [List.take_append_drop]
      exact perm
    · rw [front]
      rfl
    · refine Around.rotate ?_
      rw [List.take_append_drop]
      exact around
  rw [rotateRingToZero, if_pos zero]
  split
  case isTrue smaller =>
    refine ⟨turned.reversed represented, ?_⟩
    rw [Canonical, reversedRing_reversedRing turned.zero]
    exact le_of_lt smaller
  case isFalse larger => exact ⟨turned, not_lt.mp larger⟩

theorem addGreedyRing_closed (represented : topology.Represented)
    {candidates : List (List Nat)} {start : Nat}
    (inside : start < topology.worldSize)
    (before : ∀ ring ∈ candidates, topology.ClosedRing ring ∧ Canonical ring) :
    ∀ ring ∈ topology.addGreedyRing candidates start,
      topology.ClosedRing ring ∧ Canonical ring := by
  have selection : Selection topology.worldSize
      (topology.extendRing (topology.worldSize - 1) [start]) :=
    selection_extendRing (.singleton inside)
  have chain := @isChain_extendRing topology (topology.worldSize - 1)
    [start] (List.cons_ne_nil _ _) (List.isChain_singleton _)
  rw [addGreedyRing]
  generalize topology.extendRing (topology.worldSize - 1) [start] = order at selection chain
  split
  · exact before
  case isFalse complete =>
    split
    · exact before
    case isFalse closed =>
      split
      · exact before
      · intro ring among
        rcases List.mem_append.mp among with old | new
        · exact before ring old
        · rw [List.mem_singleton.mp new]
          refine closedRing_rotateRingToZero represented (selection.perm (not_not.mp complete)) ?_
          cases order with
          | nil => exact List.isChain_nil
          | cons first rest =>
              rw [List.getLastD_eq_getLast?, List.getLast?_eq_getLast_of_ne_nil
                  (List.cons_ne_nil _ _)] at closed
              exact around_iff.mpr ⟨chain, closed⟩

theorem greedyRings_closed (represented : topology.Represented) :
    ∀ ring ∈ topology.greedyRings, topology.ClosedRing ring ∧ Canonical ring := by
  refine List.foldlRecOn (motive := fun candidates : List (List Nat) =>
    ∀ ring ∈ candidates, topology.ClosedRing ring ∧ Canonical ring) _ _ (List.forall_mem_nil _) ?_
  intro candidates before start among
  exact addGreedyRing_closed represented (List.mem_range.mp among) before

/-- The candidates that a selection starts with. -/
def distinct (candidates : List (List Nat)) : List (List Nat) :=
  (candidates.mergeSort fun first second =>
    decide (first ≤ second)).destutter (· ≠ ·)

theorem distinct_eq_dedup (candidates : List (List Nat)) :
    distinct candidates = (candidates.mergeSort fun first second =>
      decide (first ≤ second)).dedup := by
  have ordered : (candidates.mergeSort fun first second =>
      decide (first ≤ second)).Pairwise fun first second => decide (first ≤ second) = true := by
    refine List.pairwise_mergeSort ?_ ?_ candidates
    · intro first second third firstLe secondLe
      exact decide_eq_true (le_trans (of_decide_eq_true firstLe) (of_decide_eq_true secondLe))
    · intro first second
      rw [Bool.or_eq_true, decide_eq_true_eq, decide_eq_true_eq]
      exact le_total first second
  exact List.Pairwise.destutter_eq_dedup (ordered.imp fun below => of_decide_eq_true below)

theorem nodup_distinct (candidates : List (List Nat)) : (distinct candidates).Nodup := by
  rw [distinct_eq_dedup]
  exact List.nodup_dedup _

theorem mem_distinct_iff {candidates : List (List Nat)} {ring : List Nat} :
    ring ∈ distinct candidates ↔ ring ∈ candidates := by
  rw [distinct_eq_dedup, List.mem_dedup, List.mem_mergeSort]

/-- Selected rings are different candidates, as many as may be selected. -/
theorem selectRings_subperm {maximum : Nat} {usage : EdgeUsage}
    {candidates selected : List (List Nat)}
    (ran : topology.selectRings maximum usage candidates = .ok selected) :
    selected.Subperm candidates ∧ selected.length = min maximum candidates.length := by
  induction maximum generalizing usage candidates selected with
  | zero =>
      cases ran
      exact ⟨List.nil_subperm, (Nat.zero_min _).symm⟩
  | succ maximum ih =>
      have whole := ran
      obtain ⟨keys, _, ran⟩ := of_bind ran
      split at ran
      case h_1 =>
        cases ran
        have none : candidates = [] := by
          by_contra some
          exact selectRings_ne_nil some whole rfl
        rw [none]
        exact ⟨List.Subperm.refl _, (Nat.min_zero _).symm⟩
      case h_2 key order index best =>
        obtain ⟨rest, later, same⟩ := of_bind ran
        cases same
        have indexed := (List.of_mem_zip (mem_of_bestBy best)).2
        have located := List.mk_mem_zipIdx_iff_getElem?.mp indexed
        obtain ⟨inside, own⟩ := List.getElem?_eq_some_iff.mp located
        obtain ⟨subperm, length⟩ := ih later
        constructor
        · have all := List.getElem_cons_eraseIdx_perm inside
          rw [own] at all
          exact (List.subperm_cons order |>.mpr subperm).trans all.subperm
        · rw [List.length_cons, length, List.length_eraseIdx_of_lt inside]
          omega

/-- What a selection from different closed rings returns. -/
theorem selectDiverseRings_closed {candidates selected : List (List Nat)} {maximum : Nat}
    (closed : ∀ ring ∈ candidates, topology.ClosedRing ring ∧ Canonical ring)
    (ran : topology.selectDiverseRings candidates maximum = .ok selected) :
    (∀ ring ∈ selected, topology.ClosedRing ring ∧ Canonical ring) ∧
      selected.Nodup := by
  obtain ⟨_, _, ran⟩ := of_bind ran
  obtain ⟨subperm, _⟩ := selectRings_subperm ran
  constructor
  · intro ring among
    exact closed ring (mem_distinct_iff.mp (subperm.subset among))
  · obtain ⟨part, same, sublist⟩ := subperm
    exact same.nodup_iff.mp ((nodup_distinct candidates).sublist sublist)

/-- The same rings in either direction. -/
def SameRing (first second : List Nat) : Prop :=
  first = second ∨ first = reversedRing second

/-- Every order that is found is a closed ring, and no two are the same ring. -/
theorem bestRingOrders_closed (represented : topology.Represented)
    (several : 2 ≤ topology.worldSize) {maximum : Nat}
    {orders : List (List Nat)}
    (found : topology.bestRingOrders maximum = .ok orders) :
    (∀ order ∈ orders, topology.ClosedRing order ∧ Canonical order) ∧
      orders.Nodup := by
  rw [bestRingOrders] at found
  split at found
  case isTrue =>
    cases found
    exact ⟨List.forall_mem_nil _, List.nodup_nil⟩
  rw [if_neg (by omega)] at found
  split at found
  case isTrue =>
    refine selectDiverseRings_closed (fun ring among => ?_) found
    exact (mem_collected_iff represented.someRank).mp among
  case isFalse => exact selectDiverseRings_closed (greedyRings_closed represented) found

theorem pairwise_apart {orders : List (List Nat)} (nodup : orders.Nodup)
    (closed : ∀ order ∈ orders, topology.ClosedRing order ∧ Canonical order) :
    orders.Pairwise fun first second => ¬SameRing first second := by
  refine nodup.imp_of_mem fun {first second} among otherAmong different => ?_
  rintro (same | same)
  · exact different same
  · exact different ((closed first among).2.eq_of_reversed
      (closed second otherAmong).2 (closed second otherAmong).1.zero same)

/-- Count the cost of one more link. -/
def addCost (total : Nat × Nat × Nat) (cost : LinkCost) : Nat × Nat × Nat :=
  (min total.1 cost.bandwidthMbps, total.2.1 + cost.bandwidthMbps, total.2.2 + cost.latencyNs)

instance : RightCommutative addCost where
  right_comm := by
    intro total first second
    unfold addCost
    dsimp only
    rw [Nat.min_right_comm, Nat.add_right_comm, Nat.add_right_comm total.2.2]

/-- The costs of the links of some pairs. -/
def costsOf (topology : CollectiveTopology) (pairs : List (Nat × Nat)) :
    List LinkCost :=
  pairs.filterMap fun pair => topology.link pair.1 pair.2

theorem foldlM_score {pairs : List (Nat × Nat)}
    (linked : ∀ pair ∈ pairs, topology.link pair.1 pair.2 ≠ none)
    (start : Nat × Nat × Nat) :
    pairs.foldlM
      (fun (bottleneck, bandwidth, latency) (first, second) => do
        let cost ← okOr (topology.link first second)
          (TopologyError.invalidRing (.edgeMissing first second))
        .ok (min bottleneck cost.bandwidthMbps,
          bandwidth + cost.bandwidthMbps, latency + cost.latencyNs))
      start = .ok ((topology.costsOf pairs).foldl addCost start) := by
  induction pairs generalizing start with
  | nil => rfl
  | cons pair rest ih =>
      obtain ⟨cost, present⟩ := Option.ne_none_iff_exists'.mp (linked pair List.mem_cons_self)
      have listed : topology.costsOf (pair :: rest) = cost :: topology.costsOf rest :=
        List.filterMap_cons_some present
      rw [listed, List.foldl_cons, List.foldlM_cons]
      obtain ⟨first, second⟩ := pair
      obtain ⟨bottleneck, bandwidth, latency⟩ := start
      dsimp only at present ⊢
      rw [present, okOr_some, ok_bind, ok_bind]
      exact ih (fun other among => linked other (List.mem_cons_of_mem _ among)) _

/-- The score of a closed ring, from the costs of its links. -/
def scoreOf (costs : List LinkCost) : RingScore :=
  let total := costs.foldl addCost (maxU64, 0, 0)
  ⟨total.1, total.2.1, maxU128 - total.2.2⟩

theorem ClosedRing.ringScore_eq {order : List Nat} (someRank : topology.worldSize ≠ 0)
    (ring : topology.ClosedRing order) :
    topology.ringScore order = .ok
      (scoreOf (topology.costsOf (CollectiveTuning.ringPairs order))) := by
  refine (bind_eq_ok_iff ..).mpr
    ⟨(), (validateRingOrder_eq_ok_iff ..).mpr ⟨someRank, ring.perm⟩, ?_⟩
  exact (bind_eq_ok_iff ..).mpr ⟨_, foldlM_score ring.linked _, rfl⟩

/-- Neighbours of a list. -/
def steps (items : List Nat) : List (Nat × Nat) := items.zip items.tail

theorem steps_concat (items : List Nat) (before last : Nat) :
    steps (items ++ [before] ++ [last]) = steps (items ++ [before]) ++ [(before, last)] := by
  induction items with
  | nil => rfl
  | cons first rest ih =>
      cases rest with
      | nil => rfl
      | cons second later => exact congrArg ((first, second) :: ·) ih

theorem steps_reverse (items : List Nat) :
    steps items.reverse = ((steps items).map Prod.swap).reverse := by
  induction items with
  | nil => rfl
  | cons first rest ih =>
      cases rest with
      | nil => rfl
      | cons second later =>
          have turned := ih
          rw [List.reverse_cons] at turned
          rw [List.reverse_cons, List.reverse_cons, steps_concat, turned]
          exact (List.reverse_cons ..).symm

theorem ringPairs_eq_steps (first : Nat) (rest : List Nat) :
    CollectiveTuning.ringPairs (first :: rest) = steps (first :: (rest ++ [first])) := by
  have length : (steps (first :: (rest ++ [first]))).length = rest.length + 1 := by
    simp [steps]
  refine List.ext_getElem ?_ fun index inside _ => ?_
  · rw [length, CollectiveTuning.ringPairs, List.length_map, List.length_range, List.length_cons]
  · rw [CollectiveTuning.ringPairs, List.length_map, List.length_range,
      List.length_cons] at inside
    simp only [CollectiveTuning.ringPairs, steps, List.getElem_map,
      List.getElem_range, List.getElem_zip, List.tail_cons,
      List.length_cons]
    refine Prod.ext ?_ ?_
    · rw [List.getD_eq_getElem _ _ inside]
      exact (List.getElem_append_left inside).symm
    · dsimp only
      rcases Nat.lt_or_ge index rest.length with before | behind
      · rw [Nat.mod_eq_of_lt (Nat.succ_lt_succ before),
          List.getD_eq_getElem _ _ (Nat.succ_lt_succ before),
          List.getElem_append_left before]
        rfl
      · have last : index = rest.length := by omega
        subst last
        rw [Nat.mod_self, List.getElem_append_right (Nat.le_refl _)]
        simp

/-- The other direction has the same links. -/
theorem costsOf_reversedRing (represented : topology.Represented)
    {order : List Nat} (zero : order.head? = some 0) :
    (topology.costsOf (CollectiveTuning.ringPairs (reversedRing order))).Perm
      (topology.costsOf (CollectiveTuning.ringPairs order)) := by
  cases order with
  | nil => cases zero
  | cons first rest =>
      cases zero
      have turned : (0 :: (rest.reverse ++ [0])) = (0 :: (rest ++ [0])).reverse := by
        simp
      rw [reversedRing_cons, ringPairs_eq_steps, ringPairs_eq_steps, turned,
        steps_reverse, costsOf, List.filterMap_reverse, List.filterMap_map]
      refine (List.reverse_perm _).trans (List.Perm.of_eq ?_)
      refine List.filterMap_congr fun pair _ => ?_
      exact represented.links.symmetric pair.2 pair.1

/-- The key of a score while no link has been used. -/
def unusedKey (score : RingScore) : List Nat :=
  [maxU16, maxU64, score.bottleneck, score.totalBandwidth, score.inverseLatency]

/-- The key of a ring while no link has been used. -/
theorem diverseKey_unused {order : List Nat} {score : RingScore}
    (scored : topology.ringScore order = .ok score) :
    topology.diverseKey (fun _ _ => 0) order = .ok (unusedKey score) := by
  have most : (CollectiveTuning.ringPairs order).foldl
      (fun most (_ : Nat × Nat) => max most 0) 0 = 0 :=
    List.foldl_fixed' (fun _ => rfl) _
  have total : (CollectiveTuning.ringPairs order).foldl
      (fun total (_ : Nat × Nat) => saturate64 (total + 0)) 0 = 0 :=
    List.foldl_fixed' (fun _ => rfl) _
  refine (bind_eq_ok_iff ..).mpr ⟨score, scored, ?_⟩
  dsimp only
  rw [most, total]
  rfl

theorem selectRings_ok {maximum : Nat} {usage : EdgeUsage} {candidates : List (List Nat)}
    (scored : ∀ ring ∈ candidates, ∃ score, topology.ringScore ring = .ok score) :
    ∃ selected, topology.selectRings maximum usage candidates =
      .ok selected := by
  induction maximum generalizing usage candidates with
  | zero => exact ⟨[], rfl⟩
  | succ maximum ih =>
      have keyed : ∀ ring ∈ candidates, ∃ key, topology.diverseKey usage ring = .ok key := by
        intro ring among
        obtain ⟨score, scores⟩ := scored ring among
        exact ⟨_, (bind_eq_ok_iff ..).mpr ⟨score, scores, rfl⟩⟩
      obtain ⟨keys, ran⟩ := exists_mapM_ok keyed
      rw [selectRings, ran, ok_bind]
      split
      case h_1 => exact ⟨[], rfl⟩
      case h_2 key order index best =>
        obtain ⟨rest, later⟩ := @ih (useEdges usage order)
          (candidates.eraseIdx index) fun ring among =>
            scored ring (List.mem_of_mem_eraseIdx among)
        exact ⟨order :: rest, (bind_eq_ok_iff ..).mpr ⟨rest, later, rfl⟩⟩

/-- A key that is no less makes a score at least as good. -/
theorem atLeast_of_key_le {left right : RingScore} (below : unusedKey right ≤ unusedKey left) :
    left.atLeast right = true := by
  rw [← not_lt, unusedKey, unusedKey] at below
  simp only [List.cons_lt_cons_iff, Nat.lt_irrefl, true_and, false_or] at below
  rw [RingScore.atLeast, decide_eq_true_eq]
  omega

/-- Each candidate stands beside its key. -/
theorem mem_keyed_iff {usage : EdgeUsage} {candidates : List (List Nat)} {keys : List (List Nat)}
    (keyed : candidates.mapM (topology.diverseKey usage) = .ok keys)
    {key order : List Nat} :
    (∃ index, (key, order, index) ∈ keys.zip candidates.zipIdx) ↔
      order ∈ candidates ∧ topology.diverseKey usage order = .ok key := by
  have beside : ∀ (index : Nat) (ring : List Nat), candidates[index]? = some ring →
        keys[index]?.map Except.ok = some (topology.diverseKey usage ring) := by
    intro index ring located
    have same := congrArg (·[index]?) (mapM_eq_ok_iff.mp keyed)
    rw [List.getElem?_map, List.getElem?_map, located] at same
    exact same.symm
  constructor
  · rintro ⟨index, among⟩
    obtain ⟨place, found⟩ := List.getElem?_of_mem among
    obtain ⟨keyAt, indexed⟩ := List.getElem?_zip_eq_some.mp found
    rw [List.getElem?_zipIdx] at indexed
    obtain ⟨ring, located, same⟩ := Option.map_eq_some_iff.mp indexed
    cases same
    have own := beside place order located
    rw [keyAt, Option.map_some, Option.some.injEq] at own
    exact ⟨List.mem_of_getElem? located, own.symm⟩
  · rintro ⟨among, own⟩
    obtain ⟨place, located⟩ := List.getElem?_of_mem among
    have keyAt := beside place order located
    rw [own] at keyAt
    obtain ⟨_, present, same⟩ := Option.map_eq_some_iff.mp keyAt
    cases same
    refine ⟨place, List.mem_of_getElem? (List.getElem?_zip_eq_some.mpr ⟨present, ?_⟩)⟩
    rw [List.getElem?_zipIdx, located, Option.map_some, Nat.zero_add]

/-- The first selected ring has the best score of all candidates. -/
theorem selectRings_first {maximum : Nat}
    {candidates selected : List (List Nat)} (some : candidates ≠ [])
    (ran : topology.selectRings (maximum + 1) (fun _ _ => 0) candidates = .ok selected) :
    ∃ first rest score, selected = first :: rest ∧ topology.ringScore first = .ok score ∧
      ∀ ring ∈ candidates, ∀ other, topology.ringScore ring = .ok other →
        score.atLeast other = true := by
  have nonempty := selectRings_ne_nil some ran
  obtain ⟨keys, keyed, ran⟩ := of_bind ran
  split at ran
  case h_1 =>
    cases ran
    exact absurd rfl nonempty
  case h_2 key order index best =>
    obtain ⟨rest, _, same⟩ := of_bind ran
    cases same
    have keyOf : ∀ ring key, topology.diverseKey (fun _ _ => 0) ring = .ok key →
          ∃ score, topology.ringScore ring = .ok score ∧ key = unusedKey score := by
      intro ring key own
      obtain ⟨score, scored, _⟩ := of_bind own
      rw [diverseKey_unused scored] at own
      cases own
      exact ⟨score, scored, rfl⟩
    obtain ⟨_, own⟩ := (mem_keyed_iff keyed).mp ⟨index, mem_of_bestBy best⟩
    obtain ⟨score, scored, rfl⟩ := keyOf order key own
    refine ⟨order, rest, score, rfl, scored, ?_⟩
    intro ring among other otherScored
    obtain ⟨place, beside⟩ := (mem_keyed_iff keyed).mpr ⟨among, diverseKey_unused otherScored⟩
    refine atLeast_of_key_le ?_
    exact @bestBy_le (List Nat × List Nat × Nat) (List Nat)ᵒᵈ _
      (fun item => OrderDual.toDual item.1) _
      (fun item kept => decide_eq_true_iff) _ _ _ best beside

instance (first second : List Nat) : Decidable (SameRing first second) :=
  inferInstanceAs (Decidable (_ ∨ _))

/-- Each closed ring is kept in one direction. -/
theorem ClosedRing.exists_kept (represented : topology.Represented)
    {ring : List Nat} (closed : topology.ClosedRing ring) :
    ∃ kept, topology.ClosedRing kept ∧ Canonical kept ∧
      SameRing kept ring := by
  rcases le_total ring (reversedRing ring) with smaller | larger
  · exact ⟨ring, closed, smaller, Or.inl rfl⟩
  · refine ⟨reversedRing ring, closed.reversed represented, ?_, Or.inr rfl⟩
    rw [Canonical, reversedRing_reversedRing closed.zero]
    exact larger

theorem SameRing.reversed {first second : List Nat}
    (same : SameRing first second) (zero : second.head? = some 0) :
    second = first ∨ second = reversedRing first := by
  rcases same with rfl | rfl
  · exact Or.inl rfl
  · exact Or.inr (reversedRing_reversedRing zero).symm

/-- Kept closed rings that are the same ring are equal. -/
theorem kept_unique {first second ring : List Nat}
    (firstKept : Canonical first) (secondClosed : topology.ClosedRing second)
    (secondKept : Canonical second) (zero : ring.head? = some 0)
    (firstSame : SameRing first ring) (secondSame : SameRing second ring) :
    first = second := by
  have turned : first = second ∨ first = reversedRing second := by
    rcases secondSame.reversed zero with rfl | rfl
    · exact firstSame
    · rcases firstSame with same | same
      · exact Or.inr same
      · rw [reversedRing_reversedRing secondClosed.zero] at same
        exact Or.inl same
  rcases turned with same | same
  · exact same
  · exact firstKept.eq_of_reversed secondKept secondClosed.zero same

section Exact

variable (represented : topology.Represented) (several : 2 ≤ topology.worldSize)
  (small : topology.worldSize ≤ exactRingSearchMaxRanks)

include several small in
theorem bestRingOrders_small {maximum : Nat} (positive : 1 ≤ maximum) :
    topology.bestRingOrders maximum = topology.selectDiverseRings
      (topology.collectRings (topology.worldSize - 1) [0]) maximum := by
  rw [bestRingOrders, if_neg (by omega), if_neg (by omega), if_pos small]

include represented several small in
/-- The search of a small world succeeds exactly when there is a closed ring. -/
theorem bestRingOrders_ok_iff {maximum : Nat} (positive : 1 ≤ maximum) :
    (∃ orders, topology.bestRingOrders maximum = .ok orders) ↔
      ∃ ring, topology.ClosedRing ring := by
  rw [bestRingOrders_small several small positive]
  have someRank := represented.someRank
  constructor
  · rintro ⟨orders, ran⟩
    obtain ⟨_, present, _⟩ := of_bind ran
    obtain ⟨ring, among⟩ := List.exists_mem_of_ne_nil _ ((rejectIf_eq_ok_iff ..).mp present)
    exact ⟨ring, ((mem_collected_iff someRank).mp among).1⟩
  · rintro ⟨ring, closed⟩
    obtain ⟨kept, keptClosed, canonical, _⟩ := closed.exists_kept represented
    have among := (mem_collected_iff someRank).mpr ⟨keptClosed, canonical⟩
    obtain ⟨selected, ran⟩ := @selectRings_ok topology maximum
      (fun _ _ => 0) (distinct (topology.collectRings
        (topology.worldSize - 1) [0])) fun other found =>
      ⟨_, ((mem_collected_iff someRank).mp (mem_distinct_iff.mp found)).1.ringScore_eq someRank⟩
    exact ⟨selected, (bind_eq_ok_iff ..).mpr
      ⟨(), (rejectIf_eq_ok_iff ..).mpr (List.ne_nil_of_mem among), ran⟩⟩

include represented several small in
/-- The first order of a small world has the best score of all closed rings. -/
theorem bestRingOrders_first {maximum : Nat} {orders : List (List Nat)} (positive : 1 ≤ maximum)
    (found : topology.bestRingOrders maximum = .ok orders) :
    ∃ first rest score, orders = first :: rest ∧ topology.ringScore first = .ok score ∧
      ∀ ring, topology.ClosedRing ring → Canonical ring →
        ∀ other, topology.ringScore ring = .ok other → score.atLeast other = true := by
  rw [bestRingOrders_small several small positive] at found
  obtain ⟨_, present, ran⟩ := of_bind found
  obtain ⟨less, rfl⟩ := Nat.exists_eq_add_of_le' positive
  obtain ⟨ring, among⟩ := List.exists_mem_of_ne_nil _ ((rejectIf_eq_ok_iff ..).mp present)
  obtain ⟨first, rest, score, same, scored, best⟩ := selectRings_first
    (List.ne_nil_of_mem (mem_distinct_iff.mpr among)) ran
  refine ⟨first, rest, score, same, scored, fun other closed kept => ?_⟩
  exact best other (mem_distinct_iff.mpr
    ((mem_collected_iff represented.someRank).mpr ⟨closed, kept⟩))

include represented several small in
/-- With room for all of them, each closed ring of a small world is returned once. -/
theorem bestRingOrders_once {maximum : Nat} {orders : List (List Nat)} (positive : 1 ≤ maximum)
    (room : (distinct (topology.collectRings (topology.worldSize - 1) [0])).length ≤ maximum)
    (found : topology.bestRingOrders maximum = .ok orders)
    {ring : List Nat} (closed : topology.ClosedRing ring) :
    orders.countP (fun order => SameRing order ring) = 1 := by
  have someRank := represented.someRank
  rw [bestRingOrders_small several small positive] at found
  obtain ⟨_, _, ran⟩ := of_bind found
  obtain ⟨subperm, length⟩ := selectRings_subperm ran
  have all := subperm.perm_of_length_le (by
    rw [length]
    exact Nat.le_min.mpr ⟨room, Nat.le_refl _⟩)
  have nodup := all.nodup_iff.mpr (nodup_distinct _)
  have member : ∀ order, order ∈ orders ↔
      topology.ClosedRing order ∧ Canonical order := fun order =>
    all.mem_iff.trans (mem_distinct_iff.trans (mem_collected_iff someRank))
  obtain ⟨kept, keptClosed, canonical, same⟩ := closed.exists_kept represented
  have alone : (orders.filter fun order => SameRing order ring).Perm [kept] := by
    refine (List.perm_ext_iff_of_nodup (nodup.filter _)
      (List.nodup_singleton _)).mpr fun order => ?_
    rw [List.mem_filter, List.mem_singleton, decide_eq_true_eq, member]
    constructor
    · rintro ⟨⟨_, orderKept⟩, orderSame⟩
      exact kept_unique orderKept keptClosed canonical closed.zero orderSame same
    · rintro rfl
      exact ⟨⟨keptClosed, canonical⟩, same⟩
  rw [List.countP_eq_length_filter, alone.length_eq]
  rfl

include represented several small in
/-- The first order is as good as every closed ring in either direction. -/
theorem bestRingOrders_best {maximum : Nat} {orders : List (List Nat)} (positive : 1 ≤ maximum)
    (found : topology.bestRingOrders maximum = .ok orders) :
    ∃ first rest score, orders = first :: rest ∧ topology.ringScore first = .ok score ∧
      ∀ ring, topology.ClosedRing ring → ∃ other, topology.ringScore ring = .ok other ∧
          score.atLeast other = true := by
  obtain ⟨first, rest, score, same, scored, best⟩ :=
    bestRingOrders_first represented several small positive found
  refine ⟨first, rest, score, same, scored, fun ring closed => ?_⟩
  have someRank := represented.someRank
  obtain ⟨kept, keptClosed, canonical, sameRing⟩ := closed.exists_kept represented
  refine ⟨_, closed.ringScore_eq someRank, ?_⟩
  refine best kept keptClosed canonical _ ?_
  rw [keptClosed.ringScore_eq someRank]
  rcases sameRing with rfl | rfl
  · rfl
  · rw [scoreOf, scoreOf, (costsOf_reversedRing represented closed.zero).foldl_eq]

end Exact

/-- Every search returns different closed rings; that of a small world succeeds when
there is one, puts the best first and, with enough room, returns each once. -/
theorem ring_search_sound_and_best (topology : CollectiveTopology)
    (represented : topology.Represented)
    (several : 2 ≤ topology.worldSize) :
    (∀ maximum, 1 ≤ maximum → ∀ orders, topology.bestRingOrders maximum = .ok orders →
        (∀ order ∈ orders, topology.ClosedRing order) ∧
          orders.Pairwise fun first second => ¬SameRing first second) ∧
      (topology.worldSize ≤ exactRingSearchMaxRanks →
        (∀ maximum, 1 ≤ maximum →
          ((∃ orders, topology.bestRingOrders maximum = .ok orders) ↔
            ∃ ring, topology.ClosedRing ring)) ∧
        (∀ maximum, 1 ≤ maximum → ∀ orders, topology.bestRingOrders maximum = .ok orders →
            ∃ first rest score, orders = first :: rest ∧ topology.ringScore first = .ok score ∧
              ∀ ring, topology.ClosedRing ring → ∃ other, topology.ringScore ring = .ok other ∧
                  score.atLeast other = true) ∧
        ∃ enough, ∀ maximum, enough ≤ maximum → ∀ orders,
          topology.bestRingOrders maximum = .ok orders → ∀ ring, topology.ClosedRing ring →
              orders.countP (fun order => SameRing order ring) = 1) := by
  constructor
  · intro maximum _ orders found
    obtain ⟨closed, nodup⟩ := bestRingOrders_closed represented several found
    exact ⟨fun order among => (closed order among).1, pairwise_apart nodup closed⟩
  · intro small
    refine ⟨fun maximum positive => ?_, fun maximum positive orders found => ?_,
      (distinct (topology.collectRings (topology.worldSize - 1)
        [0])).length + 1, fun maximum room orders found ring closed => ?_⟩
    · exact bestRingOrders_ok_iff represented several small positive
    · exact bestRingOrders_best represented several small positive found
    · exact bestRingOrders_once represented several small
        (Nat.le_of_add_left_le room) (Nat.le_of_succ_le room) found closed

/-- Three ranks, all joined by the same links. -/
def triangle : CollectiveTopology :=
  { worldSize := 3
    links :=
      [[none, some ⟨32000, 1000⟩, some ⟨32000, 1000⟩],
        [some ⟨32000, 1000⟩, none, some ⟨32000, 1000⟩],
        [some ⟨32000, 1000⟩, some ⟨32000, 1000⟩, none]]
    railLinks := []
    aggregateLinks := emptyMatrix Nat 3 }

theorem ring_search_sound_and_best_three :
    ∃ orders, triangle.bestRingOrders 1 = .ok orders ∧
      ∀ order ∈ orders, triangle.ClosedRing order := by
  have made : uniform 3 = .ok triangle := by
    decide
  have searched := ring_search_sound_and_best triangle (represented_uniform made) (by decide)
  have closed : triangle.ClosedRing [0, 1, 2] := ⟨by decide, rfl, by decide⟩
  obtain ⟨orders, found⟩ := ((searched.2 (by decide)).1 1
    (Nat.le_refl 1)).mpr ⟨_, closed⟩
  exact ⟨orders, found, (searched.1 1 (Nat.le_refl 1) orders found).1⟩

end CollectiveTopology

end RuCCL.Rank
