import RuCCL.Rank.FastComponents
import RuCCL.Rank.FingerprintWords
import RuCCL.Rank.RingSearchExact
import RuCCL.Rank.ShortestTransfer

/-!
# Inferred hierarchies

Every proposed hierarchy consists of connected components, each led by the rank that
is closest to its group.  The one that is inferred has the least estimate.
-/

namespace RuCCL.Rank

open RuCCL.Library

namespace CollectiveTopology

/-- The least time of a walk from a candidate to a rank inside of a group. -/
def InGroupTime (topology : CollectiveTopology) (payloadBytes : Nat)
    (group : List Nat) (candidate rank time : Nat) : Prop :=
  if candidate = rank then time = 0
  else
    LeastTime (WalkTime topology.link payloadBytes (· ∈ group) candidate rank) (some time)

/-- The saturating sum of the least times to all ranks of a group. -/
def GroupTime (topology : CollectiveTopology) (payloadBytes : Nat)
    (group : List Nat) (candidate total : Nat) : Prop :=
  ∃ times, List.Forall₂ (topology.InGroupTime payloadBytes group candidate) group times ∧
    total = saturate64 times.sum

variable {topology : CollectiveTopology} {payloadBytes : Nat}

theorem LeastTime.eq_some_iff {times : Nat → Prop} {found : Option Nat}
    (least : LeastTime times found) (time : Nat) :
    found = some time ↔ LeastTime times (some time) := by
  constructor
  · rintro rfl
    exact least
  · intro other
    exact (least.some_iff time).mpr ((other.some_iff time).mp rfl)

theorem within_eq_some_iff {group : List Nat} (inside : ∀ rank ∈ group, rank < topology.worldSize)
    {candidate rank time : Nat} (inCandidate : candidate ∈ group)
    (inRank : rank ∈ group) :
    topology.shortestTransferTimeNsWithin candidate rank payloadBytes group = some time ↔
      topology.InGroupTime payloadBytes group candidate rank time := by
  by_cases same : candidate = rank
  · rw [shortestTransferTimeNsWithin, InGroupTime, if_pos same, if_pos same,
      Option.some.injEq, eq_comm]
  · rw [InGroupTime, if_neg same]
    exact (topology.shortestTransferTimeNsWithin_least same inside
      inCandidate inRank payloadBytes).eq_some_iff time

/-- A saturating sum over ranks whose times may be missing. -/
theorem foldlM_saturating {timeOf : Nat → Option Nat} {ranks : List Nat}
    {start total : Nat} (bounded : start ≤ maxU64) :
    ranks.foldlM
        (fun total rank => do
          let cost ← timeOf rank
          some (saturate64 (total + cost))) start = some total ↔
      ∃ times, List.Forall₂ (fun rank time => timeOf rank = some time) ranks
        times ∧ total = saturate64 (start + times.sum) := by
  induction ranks generalizing start with
  | nil =>
      rw [List.foldlM_nil]
      constructor
      · rintro ⟨⟩
        exact ⟨[], .nil, (Nat.min_eq_left bounded).symm⟩
      · rintro ⟨_, ⟨⟩, rfl⟩
        exact congrArg some (Nat.min_eq_left bounded).symm
  | cons rank rest ih =>
      have sums : ∀ cost sum : Nat, saturate64 (saturate64 (start + cost) + sum) =
            saturate64 (start + (cost + sum)) := by
        intro cost sum
        unfold saturate64
        omega
      have within : ∀ cost : Nat, saturate64 (start + cost) ≤ maxU64 :=
        fun cost => Nat.min_le_right _ _
      rw [List.foldlM_cons]
      constructor
      · intro found
        obtain ⟨between, first, later⟩ := Option.bind_eq_some_iff.mp found
        obtain ⟨cost, own, same⟩ := Option.bind_eq_some_iff.mp first
        cases same
        obtain ⟨times, all, rfl⟩ := (ih (within cost)).mp later
        refine ⟨cost :: times, .cons own all, ?_⟩
        rw [List.sum_cons, sums]
      · rintro ⟨_, all, rfl⟩
        cases all with
        | cons own others =>
            refine Option.bind_eq_some_iff.mpr ⟨_, Option.bind_eq_some_iff.mpr ⟨_, own, rfl⟩, ?_⟩
            refine (ih (within _)).mpr ⟨_, others, ?_⟩
            rw [List.sum_cons, sums]

theorem leaderTime_eq_some_iff {group : List Nat}
    (inside : ∀ rank ∈ group, rank < topology.worldSize)
    {candidate total : Nat} (among : candidate ∈ group) :
    topology.leaderTime payloadBytes group candidate = some total ↔
      topology.GroupTime payloadBytes group candidate total := by
  rw [leaderTime, foldlM_saturating (Nat.zero_le _), GroupTime]
  simp only [Nat.zero_add]
  have members : ∀ rank ∈ group, ∀ time,
      topology.shortestTransferTimeNsWithin candidate rank payloadBytes group = some time ↔
        topology.InGroupTime payloadBytes group candidate rank time :=
    fun rank inRank time => within_eq_some_iff inside among inRank
  refine exists_congr fun times => and_congr_left fun _ => ?_
  constructor
  · intro all
    refine ((List.forall₂_and_left group times).mpr
      ⟨fun _ own => own, all⟩).imp fun rank time own => ?_
    exact (members rank own.1 time).mp own.2
  · intro all
    refine ((List.forall₂_and_left group times).mpr
      ⟨fun _ own => own, all⟩).imp fun rank time own => ?_
    exact (members rank own.1 time).mpr own.2

/-- The order of a group does not matter. -/
theorem GroupTime.of_perm {group other : List Nat} {candidate total : Nat}
    (time : topology.GroupTime payloadBytes group candidate total)
    (same : other.Perm group) :
    topology.GroupTime payloadBytes other candidate total := by
  obtain ⟨times, all, rfl⟩ := time
  obtain ⟨others, otherAll, reordered⟩ := List.perm_comp_forall₂ same all
  refine ⟨others, otherAll.imp fun rank time own => ?_, ?_⟩
  · have members : (fun rank => rank ∈ other) = fun rank => rank ∈ group :=
      funext fun rank => propext same.mem_iff
    unfold InGroupTime at own ⊢
    rw [members]
    exact own
  · rw [reordered.sum_eq]

/-- The first rank of a group has the least time, and is the least of such ranks. -/
def BestLeader (topology : CollectiveTopology) (payloadBytes : Nat) (group : List Nat) : Prop :=
  ∃ leader total, group.head? = some leader ∧ topology.GroupTime payloadBytes group leader total ∧
    ∀ other ∈ group, ∀ otherTotal, topology.GroupTime payloadBytes group other otherTotal →
        total < otherTotal ∨ (total = otherTotal ∧ leader ≤ other)

theorem head_swapFront {items : List Nat} {position leader : Nat}
    (located : items[position]? = some leader) :
    (swapFront items position).head? = some leader := by
  match items, position with
  | [], _ => cases located
  | first :: rest, 0 => exact located
  | first :: rest, position + 1 =>
      rw [List.getElem?_cons_succ] at located
      rw [swapFront, List.head?_cons, List.getD_eq_getElem?_getD, located]
      rfl

theorem leadGroup_best {group led : List Nat} (inside : ∀ rank ∈ group, rank < topology.worldSize)
    (made : topology.leadGroup payloadBytes group = some led) :
    topology.BestLeader payloadBytes led := by
  have same := leadGroup_perm made
  obtain ⟨⟨total, leader⟩, best, made⟩ := Option.bind_eq_some_iff.mp made
  obtain ⟨position, found, swapped⟩ := Option.bind_eq_some_iff.mp made
  cases swapped
  obtain ⟨within, located, _⟩ := List.idxOf?_eq_some_iff.mp found
  obtain ⟨candidate, among, timed⟩ := List.mem_filterMap.mp (mem_of_bestBy best)
  obtain ⟨_, own, pair⟩ := Option.map_eq_some_iff.mp timed
  cases pair
  refine ⟨leader, total, head_swapFront ?_, ?_, ?_⟩
  · exact List.getElem?_eq_some_iff.mpr ⟨within, located⟩
  · exact ((leaderTime_eq_some_iff inside among).mp own).of_perm same
  · intro other otherAmong otherTotal time
    have inGroup := same.mem_iff.mp otherAmong
    have otherOwn := (leaderTime_eq_some_iff inside inGroup).mpr (time.of_perm same.symm)
    have present : (otherTotal, other) ∈ group.filterMap fun candidate =>
        (topology.leaderTime payloadBytes group candidate).map fun total => (total, candidate) :=
      List.mem_filterMap.mpr ⟨other, inGroup, by rw [otherOwn]; rfl⟩
    have below : [total, leader] ≤ [otherTotal, other] :=
      @bestBy_le _ (List Nat) _ (fun item : Nat × Nat => [item.1, item.2]) _
        (fun item kept => decide_eq_true_iff) _ _ _ best present
    rw [← not_lt] at below
    simp only [List.cons_lt_cons_iff] at below
    omega

/-- The connected components of the links that are no slower than one of them, each
led by its best rank. -/
structure FastHierarchy (topology : CollectiveTopology) (payloadBytes : Nat)
    (groups : List (List Nat)) : Prop where
  valid : ValidGroups topology.worldSize groups
  fewer : groups.length < topology.worldSize
  components : ∃ first second cost, topology.link first second = some cost ∧
      topology.AllComponents payloadBytes (linkTransferTimeNs cost payloadBytes) groups
  leaders : ∀ group ∈ groups, topology.BestLeader payloadBytes group

theorem link_of_mem_thresholds {threshold : Nat}
    (among : threshold ∈ topology.thresholds payloadBytes) :
    ∃ first second cost, topology.link first second = some cost ∧
      linkTransferTimeNs cost payloadBytes = threshold := by
  have listed := List.mem_mergeSort.mp (mem_of_mem_destutter among)
  obtain ⟨first, _, inRow⟩ := List.mem_flatMap.mp listed
  obtain ⟨second, _, timed⟩ := List.mem_filterMap.mp inRow
  obtain ⟨cost, present, same⟩ := Option.map_eq_some_iff.mp timed
  exact ⟨first, second, cost, present, same⟩

/-- Groups that are not empty are no more than their ranks. -/
theorem length_le_flatten {groups : List (List Nat)} (nonempty : ∀ group ∈ groups, group ≠ []) :
    groups.length ≤ groups.flatten.length := by
  induction groups with
  | nil => exact Nat.le_refl _
  | cons group rest ih =>
      obtain ⟨head, tail⟩ := List.forall_mem_cons.mp nonempty
      have some := List.length_pos_iff.mpr head
      have others := ih tail
      rw [List.length_cons, List.flatten_cons, List.length_append]
      omega

/-- The groups of an optimized hierarchy are the led groups in another order. -/
theorem mem_optimizeHierarchy {groups optimized : List (List Nat)}
    (made : topology.optimizeHierarchy payloadBytes groups = some optimized) :
    optimized.length = groups.length ∧ ∀ led ∈ optimized,
      ∃ group ∈ groups, topology.leadGroup payloadBytes group = some led := by
  obtain ⟨led, leads, sorted⟩ := optimizeHierarchy_perm made
  obtain ⟨length, each⟩ := getElem?_of_mapM groups leads
  refine ⟨sorted.length_eq.trans length, fun item among => ?_⟩
  obtain ⟨index, located⟩ := List.getElem?_of_mem (sorted.mem_iff.mp among)
  have inside : index < groups.length := by
    rw [← length]
    exact (List.getElem?_eq_some_iff.mp located).1
  have own := each index _ (List.getElem?_eq_getElem inside)
  rw [located] at own
  exact ⟨_, List.getElem_mem inside, own.symm⟩

theorem addHierarchy_fast (represented : topology.Represented)
    {candidates : List (List (List Nat))} {threshold : Nat}
    (among : threshold ∈ topology.thresholds payloadBytes)
    (before : ∀ groups ∈ candidates, topology.FastHierarchy payloadBytes groups) :
    ∀ groups ∈ topology.addHierarchy payloadBytes candidates threshold,
      topology.FastHierarchy payloadBytes groups := by
  obtain ⟨nonempty, partition⟩ := groupsWithin_partition topology payloadBytes threshold
  have components := @groupsWithin_components topology payloadBytes threshold represented
  rw [addHierarchy]
  generalize topology.groupsWithin payloadBytes threshold = grouped at *
  split
  · exact before
  case isFalse proper =>
    push Not at proper
    split
    · exact before
    case h_2 optimized made =>
      split
      · exact before
      · intro groups listed
        rcases List.mem_append.mp listed with old | new
        · exact before groups old
        rw [List.mem_singleton.mp new]
        obtain ⟨length, led⟩ := mem_optimizeHierarchy made
        have most := length_le_flatten nonempty
        rw [partition.length_eq, List.length_range] at most
        have inside : ∀ group ∈ grouped, ∀ rank ∈ group, rank < topology.worldSize := by
          intro group own rank inGroup
          exact List.mem_range.mp (partition.mem_iff.mp
            (List.mem_flatten.mpr ⟨group, own, inGroup⟩))
        obtain ⟨first, second, cost, present, timed⟩ := link_of_mem_thresholds among
        refine ⟨optimizeHierarchy_valid made ⟨proper.1, nonempty, partition⟩, ?_,
          ⟨first, second, cost, present, fun group own => ?_⟩,
          fun group own => ?_⟩
        · rw [length]
          exact Nat.lt_of_le_of_ne most proper.2.1
        · obtain ⟨source, listed, leads⟩ := led group own
          rw [timed]
          exact (components source listed).of_perm (leadGroup_perm leads)
        · obtain ⟨source, listed, leads⟩ := led group own
          exact leadGroup_best (inside source listed) leads

theorem hierarchyCandidates_fast (represented : topology.Represented) :
    ∀ groups ∈ topology.hierarchyCandidates payloadBytes,
      topology.FastHierarchy payloadBytes groups := by
  refine List.foldlRecOn
    (motive := fun candidates : List (List (List Nat)) =>
      ∀ groups ∈ candidates, topology.FastHierarchy payloadBytes groups) _ _
        (List.forall_mem_nil _) ?_
  intro candidates before threshold among
  exact addHierarchy_fast represented among before

/-- Every link has its time among the thresholds. -/
theorem mem_thresholds (represented : topology.Represented) {first second : Nat} {cost : LinkCost}
    (present : topology.link first second = some cost) :
    linkTransferTimeNs cost payloadBytes ∈
      topology.thresholds payloadBytes := by
  -- the times are listed once for each pair, the smaller rank first
  wlog below : first < second generalizing first second with turned
  · refine turned ((represented.links.symmetric second first).trans present) ?_
    refine lt_of_le_of_ne (not_lt.mp below) fun same => ?_
    rw [same, link, represented.links.loopless] at present
    cases present
  obtain ⟨inFirst, inSecond⟩ := represented.links.square.entry_inside present
  have ordered : (((List.range topology.worldSize).flatMap fun first =>
      (ranksBehind topology.worldSize first).filterMap fun second =>
        (topology.link first second).map fun cost =>
          linkTransferTimeNs cost payloadBytes).mergeSort).Pairwise
        (· ≤ ·) :=
    (List.pairwise_mergeSort' (· ≤ ·) _)
  rw [thresholds, List.Pairwise.destutter_eq_dedup ordered, List.mem_dedup, List.mem_mergeSort]
  refine List.mem_flatMap.mpr ⟨first, List.mem_range.mpr inFirst,
    List.mem_filterMap.mpr ⟨second, ?_, ?_⟩⟩
  · exact List.mem_range'_1.mpr ⟨below, by omega⟩
  · rw [present]
    rfl

/-- The times that a hierarchy of these groups needs exist: those from one rank of
each group to the others in it, and those between any two ranks. -/
structure Timed (topology : CollectiveTopology) (payloadBytes : Nat)
    (groups : List (List Nat)) : Prop where
  within : ∀ group ∈ groups, ∃ candidate ∈ group, ∃ total,
    topology.GroupTime payloadBytes group candidate total
  between : ∀ source < topology.worldSize, ∀ destination < topology.worldSize, ∃ time,
      topology.shortestTransferTimeNs source destination payloadBytes = some time

theorem leadGroup_isSome {group : List Nat} {candidate total : Nat}
    (inside : ∀ rank ∈ group, rank < topology.worldSize)
    (among : candidate ∈ group)
    (time : topology.GroupTime payloadBytes group candidate total) :
    ∃ led, topology.leadGroup payloadBytes group = some led := by
  have timed : (total, candidate) ∈ group.filterMap fun candidate =>
      (topology.leaderTime payloadBytes group candidate).map fun total => (total, candidate) :=
    List.mem_filterMap.mpr ⟨candidate, among, by
      rw [(leaderTime_eq_some_iff inside among).mpr time]
      rfl⟩
  obtain ⟨⟨least, leader⟩, best⟩ := Option.isSome_iff_exists.mp
    (bestBy_isSome (List.ne_nil_of_mem timed)
      fun item kept => decide ([item.1, item.2] < [kept.1, kept.2]))
  obtain ⟨own, listed, priced⟩ := List.mem_filterMap.mp (mem_of_bestBy best)
  obtain ⟨_, _, same⟩ := Option.map_eq_some_iff.mp priced
  cases same
  obtain ⟨position, found⟩ := Option.isSome_iff_exists.mp
    (List.isSome_idxOf?.mpr (List.mem_mergeSort.mpr listed))
  exact ⟨_, Option.bind_eq_some_iff.mpr ⟨_, best,
    Option.bind_eq_some_iff.mpr ⟨position, found, rfl⟩⟩⟩

/-- Some index is free while an order is not complete. -/
theorem exists_fresh {size : Nat} {order : List Nat}
    (short : order.length < size) : ∃ index < size, index ∉ order := by
  by_contra all
  push Not at all
  have covered : (List.range size).Subperm order :=
    (List.subperm_of_subset List.nodup_range fun index listed =>
      all index (List.mem_range.mp listed))
  have bound := covered.length_le
  rw [List.length_range] at bound
  omega

/-- A cycle that has been found may be replaced, but is not lost. -/
theorem collectRankCycles_keeps {ranks order : List Nat} {remaining : Nat}
    {best : Option (List Nat × List Nat)} (found : best.isSome = true) :
    (topology.collectRankCycles payloadBytes ranks remaining order best).isSome = true := by
  induction remaining generalizing order best with
  | zero =>
      unfold collectRankCycles
      split
      · exact found
      · rfl
      · split
        · rfl
        · rfl
  | succ remaining ih =>
      rw [collectRankCycles]
      exact List.foldlRecOn
        (motive := fun best : Option (List Nat × List Nat) =>
          best.isSome = true) _ _ found
        fun best kept candidate _ => ih kept

section Cycles

variable {ranks : List Nat}
  (joined : ∀ source ∈ ranks, ∀ destination ∈ ranks, ∃ time,
    topology.shortestTransferTimeNs source destination payloadBytes = some time)

include joined

theorem shortestTransferTimeNs_getD {source destination : Nat} (inSource : source < ranks.length)
    (inDestination : destination < ranks.length) : ∃ time,
      topology.shortestTransferTimeNs (ranks.getD source 0)
        (ranks.getD destination 0) payloadBytes = some time := by
  rw [List.getD_eq_getElem _ _ inSource, List.getD_eq_getElem _ _ inDestination]
  exact joined _ (List.getElem_mem inSource) _ (List.getElem_mem inDestination)

theorem cycleScore_isSome {order : List Nat} (inside : ∀ index ∈ order, index < ranks.length) :
    ∃ score, topology.cycleScore payloadBytes ranks order = some score := by
  have steps (pairs : List (Nat × Nat))
      (each : ∀ pair ∈ pairs, pair.1 < ranks.length ∧ pair.2 < ranks.length)
      (start : Nat × Nat) : ∃ sums, pairs.foldlM
        (fun sums pair => do
          let cost ← topology.shortestTransferTimeNs (ranks.getD pair.1 0)
            (ranks.getD pair.2 0) payloadBytes
          some (max sums.1 cost, saturate128 (sums.2 + cost))) start =
        some sums := by
    induction pairs generalizing start with
    | nil => exact ⟨start, rfl⟩
    | cons pair rest ih =>
        obtain ⟨own, others⟩ := List.forall_mem_cons.mp each
        obtain ⟨cost, timed⟩ := shortestTransferTimeNs_getD joined own.1 own.2
        obtain ⟨sums, later⟩ := ih others (max start.1 cost, saturate128 (start.2 + cost))
        refine ⟨sums, ?_⟩
        rw [List.foldlM_cons]
        exact Option.bind_eq_some_iff.mpr
          ⟨_, Option.bind_eq_some_iff.mpr ⟨cost, timed, rfl⟩, later⟩
  obtain ⟨sums, scored⟩ := steps (CollectiveTuning.ringPairs order)
    (fun pair among => by
      obtain ⟨index, listed, rfl⟩ := List.mem_map.mp among
      have within := List.mem_range.mp listed
      have next := Nat.mod_lt (index + 1) (Nat.zero_lt_of_lt within)
      rw [List.getD_eq_getElem _ _ within, List.getD_eq_getElem _ _ next]
      exact ⟨inside _ (List.getElem_mem within), inside _ (List.getElem_mem next)⟩) (0, 0)
  exact ⟨[sums.1, sums.2], Option.bind_eq_some_iff.mpr ⟨sums, scored, rfl⟩⟩

theorem collectRankCycles_isSome {order : List Nat} {remaining : Nat}
    (best : Option (List Nat × List Nat))
    (selection : Selection ranks.length order) (first : 0 ∈ order)
    (missing : order.length + remaining = ranks.length) :
    (topology.collectRankCycles payloadBytes ranks remaining order best).isSome = true := by
  induction remaining generalizing order best with
  | zero =>
      obtain ⟨score, scored⟩ := cycleScore_isSome joined selection.bounded
      unfold collectRankCycles
      rw [scored]
      cases best with
      | none => rfl
      | some kept =>
          dsimp only
          split
          · rfl
          · rfl
  | succ remaining ih =>
      obtain ⟨candidate, inside, fresh⟩ :=
        @exists_fresh ranks.length order (by omega)
      have positive : 0 < candidate := by
        refine Nat.pos_of_ne_zero fun zero => fresh ?_
        rw [zero]
        exact first
      have listed : candidate ∈ (List.range' 1 (ranks.length - 1)).filter
          fun candidate => candidate ∉ order :=
        List.mem_filter.mpr ⟨List.mem_range'_1.mpr (by omega),
          decide_eq_true fresh⟩
      rw [collectRankCycles]
      obtain ⟨before, behind, same⟩ := List.append_of_mem listed
      rw [same, List.foldl_append, List.foldl_cons]
      refine List.foldlRecOn
        (motive := fun best : Option (List Nat × List Nat) =>
          best.isSome = true) _ _ ?_
        fun best kept candidate _ => collectRankCycles_keeps kept
      refine ih _ (selection.concat inside fresh) (List.mem_append_left _ first) ?_
      rw [List.length_append, List.length_singleton]
      omega

theorem extendCycle_isSome {order : List Nat} {remaining : Nat}
    (selection : Selection ranks.length order) (started : order ≠ [])
    (missing : order.length + remaining = ranks.length) :
    ∃ cycle, topology.extendCycle payloadBytes ranks remaining order =
      some cycle ∧ cycle ≠ [] := by
  induction remaining generalizing order with
  | zero => exact ⟨order, rfl, started⟩
  | succ remaining ih =>
      obtain ⟨candidate, inside, fresh⟩ :=
        @exists_fresh ranks.length order (by omega)
      have last : order.getLastD 0 < ranks.length := by
        rw [List.getLastD_eq_getLast?, List.getLast?_eq_some_getLast started, Option.getD_some]
        exact selection.bounded _ (List.getLast_mem started)
      obtain ⟨cost, timed⟩ := shortestTransferTimeNs_getD joined last inside
      have priced : (cost, ranks.getD candidate 0, candidate) ∈
          ((List.range ranks.length).filter fun candidate =>
            candidate ∉ order).filterMap fun candidate =>
              (topology.shortestTransferTimeNs
                (ranks.getD (order.getLastD 0) 0) (ranks.getD candidate 0) payloadBytes).map
                fun cost => (cost, ranks.getD candidate 0, candidate) :=
        List.mem_filterMap.mpr ⟨candidate, List.mem_filter.mpr
          ⟨List.mem_range.mpr inside, decide_eq_true fresh⟩, by
            rw [timed]
            rfl⟩
      obtain ⟨⟨nearest, rank, next⟩, best⟩ := Option.isSome_iff_exists.mp
        (bestBy_isSome (List.ne_nil_of_mem priced) fun item kept =>
          decide ([item.1, item.2.1] < [kept.1, kept.2.1]))
      obtain ⟨chosen, among, own⟩ := List.mem_filterMap.mp (mem_of_bestBy best)
      obtain ⟨_, _, same⟩ := Option.map_eq_some_iff.mp own
      cases same
      obtain ⟨within, unused⟩ := List.mem_filter.mp among
      obtain ⟨cycle, extended, some⟩ := ih
        (selection.concat (List.mem_range.mp within)
          (of_decide_eq_true unused)) (by simp) (by
          rw [List.length_append, List.length_singleton]
          omega)
      exact ⟨cycle, Option.bind_eq_some_iff.mpr ⟨_, best, extended⟩, some⟩

theorem bestRankCycleOrder_isSome (nonempty : ranks ≠ []) :
    ∃ order, topology.bestRankCycleOrder payloadBytes ranks =
      some order := by
  have positive := List.length_pos_iff.mpr nonempty
  have first : Selection ranks.length [0] := .singleton positive
  have missing : [0].length + (ranks.length - 1) = ranks.length := by
    rw [List.length_singleton]
    omega
  rw [bestRankCycleOrder, if_neg nonempty]
  split
  · exact ⟨_, rfl⟩
  split
  · obtain ⟨best, collected⟩ := Option.isSome_iff_exists.mp
      (collectRankCycles_isSome joined none first (List.mem_singleton_self 0) missing)
    exact ⟨best.2, by rw [collected]; rfl⟩
  · obtain ⟨cycle, extended, some⟩ :=
      extendCycle_isSome joined first (List.cons_ne_nil _ _) missing
    have whole := extendCycle_perm first missing extended
    have inside : ∀ index ∈ cycle, index < ranks.length :=
      fun index among => List.mem_range.mp (whole.mem_iff.mp among)
    have last : cycle.getLastD 0 < ranks.length := by
      rw [List.getLastD_eq_getLast?, List.getLast?_eq_some_getLast some]
      exact inside _ (List.getLast_mem some)
    have head : cycle.headD 0 < ranks.length := by
      rw [List.headD_eq_head?_getD, List.head?_eq_some_head some]
      exact inside _ (List.head_mem some)
    obtain ⟨cost, closed⟩ := shortestTransferTimeNs_getD joined last head
    exact ⟨cycle, Option.bind_eq_some_iff.mpr ⟨cycle, extended,
      Option.bind_eq_some_iff.mpr ⟨cost, closed, rfl⟩⟩⟩

end Cycles

theorem optimizeHierarchy_isSome {groups : List (List Nat)}
    (valid : ValidGroups topology.worldSize groups)
    (timed : topology.Timed payloadBytes groups) :
    ∃ optimized, topology.optimizeHierarchy payloadBytes groups =
      some optimized := by
  have inside : ∀ group ∈ groups, ∀ rank ∈ group,
      rank < topology.worldSize := fun group listed rank among =>
    List.mem_range.mp (valid.partition.mem_iff.mp (List.mem_flatten.mpr ⟨group, listed, among⟩))
  have leads : groups.mapM (topology.leadGroup payloadBytes) = some
      (groups.map fun group =>
        (topology.leadGroup payloadBytes group).getD []) := by
    refine mapM_eq_map fun group listed => ?_
    obtain ⟨candidate, among, total, time⟩ := timed.within group listed
    obtain ⟨led, made⟩ := leadGroup_isSome (inside group listed) among time
    rw [made]
    rfl
  obtain ⟨length, partition, nonempty⟩ := leadGroups_perm leads
  generalize (groups.map fun group =>
    (topology.leadGroup payloadBytes group).getD []) = led at *
  have several := valid.several
  obtain ⟨order, cycle⟩ := @bestRankCycleOrder_isSome topology payloadBytes
    (led.map fun group => group.headD 0) (by
      have ranked : ∀ rank ∈ led.map fun group => group.headD 0, rank < topology.worldSize := by
        intro rank listed
        obtain ⟨group, own, rfl⟩ := List.mem_map.mp listed
        have some := nonempty valid.nonempty group own
        rw [List.headD_eq_head?_getD, List.head?_eq_some_head some]
        exact List.mem_range.mp ((partition.trans valid.partition).mem_iff.mp
          (List.mem_flatten.mpr ⟨group, own, List.head_mem some⟩))
      exact fun source inSource destination inDestination =>
        timed.between source (ranked source inSource) destination
          (ranked destination inDestination)) (by
      intro none
      have lengths := congrArg List.length none
      rw [List.length_map, length, List.length_nil] at lengths
      omega)
  exact ⟨_, Option.bind_eq_some_iff.mpr ⟨led, leads,
    Option.bind_eq_some_iff.mpr ⟨order, cycle, rfl⟩⟩⟩

/-- A threshold adds its own groups unless they are listed. -/
theorem addHierarchy_lists {candidates : List (List (List Nat))}
    {threshold : Nat} {optimized : List (List Nat)}
    (several : 2 ≤ (topology.groupsWithin payloadBytes threshold).length)
    (fewer : (topology.groupsWithin payloadBytes threshold).length < topology.worldSize)
    (made : topology.optimizeHierarchy payloadBytes
      (topology.groupsWithin payloadBytes threshold) = some optimized) :
    topology.groupsWithin payloadBytes threshold ∈
        topology.addHierarchy payloadBytes candidates threshold ∨
      optimized ∈
        topology.addHierarchy payloadBytes candidates threshold := by
  rw [addHierarchy]
  by_cases listed :
      topology.groupsWithin payloadBytes threshold ∈ candidates
  · rw [if_pos (Or.inr (Or.inr listed))]
    exact Or.inl listed
  · rw [if_neg (by
      push Not
      exact ⟨several, Nat.ne_of_lt fewer, listed⟩), made]
    dsimp only
    split
    case isTrue old => exact Or.inr old
    case isFalse => exact Or.inr (List.mem_append_right _ (List.mem_singleton_self _))

theorem subset_addHierarchy {candidates : List (List (List Nat))} (threshold : Nat) : candidates ⊆
      topology.addHierarchy payloadBytes candidates threshold := by
  intro groups listed
  rw [addHierarchy]
  split
  · exact listed
  · split
    · exact listed
    · split
      · exact listed
      · exact List.mem_append_left _ listed

/-- The components of every threshold are proposed, when they are neither one nor
all ranks apart and their times exist. -/
theorem hierarchyCandidates_complete (represented : topology.Represented)
    {first second : Nat} {cost : LinkCost}
    (present : topology.link first second = some cost)
    (several : 2 ≤ (topology.groupsWithin payloadBytes
      (linkTransferTimeNs cost payloadBytes)).length)
    (fewer : (topology.groupsWithin payloadBytes
      (linkTransferTimeNs cost payloadBytes)).length < topology.worldSize)
    (timed : topology.Timed payloadBytes (topology.groupsWithin payloadBytes
      (linkTransferTimeNs cost payloadBytes))) :
    ∃ groups ∈ topology.hierarchyCandidates payloadBytes, ValidGroups topology.worldSize groups ∧
      topology.AllComponents payloadBytes (linkTransferTimeNs cost payloadBytes) groups := by
  have among := @mem_thresholds topology payloadBytes represented _ _ _ present
  generalize linkTransferTimeNs cost payloadBytes = threshold at *
  obtain ⟨nonempty, partition⟩ := groupsWithin_partition topology payloadBytes threshold
  have components := @groupsWithin_components topology payloadBytes threshold represented
  have valid : ValidGroups topology.worldSize (topology.groupsWithin payloadBytes threshold) :=
    ⟨several, nonempty, partition⟩
  obtain ⟨optimized, made⟩ := optimizeHierarchy_isSome valid timed
  have listed : topology.groupsWithin payloadBytes threshold ∈
        topology.hierarchyCandidates payloadBytes ∨
      optimized ∈ topology.hierarchyCandidates payloadBytes := by
    obtain ⟨before, behind, same⟩ := List.append_of_mem among
    rw [hierarchyCandidates, same, List.foldl_append, List.foldl_cons]
    refine List.foldlRecOn
      (motive := fun candidates : List (List (List Nat)) =>
        topology.groupsWithin payloadBytes threshold ∈ candidates ∨ optimized ∈ candidates) _ _
        (addHierarchy_lists several fewer made) ?_
    intro candidates kept threshold _
    exact kept.imp (fun old => subset_addHierarchy threshold old)
      fun old => subset_addHierarchy threshold old
  rcases listed with own | better
  · exact ⟨_, own, valid, components⟩
  · refine ⟨optimized, better, optimizeHierarchy_valid made valid, fun group inGroups => ?_⟩
    obtain ⟨source, inSource, leads⟩ := (mem_optimizeHierarchy made).2 group inGroups
    exact (components source inSource).of_perm (leadGroup_perm leads)

end CollectiveTopology

/-- Proposed hierarchies are the components of fast links with their best leaders;
the one that is inferred is valid and has the least estimate. -/
theorem inferred_hierarchies_valid_and_best (tuning : ConfiguredTuning)
    (reachable : tuning.Reachable) (payloadBytes : Nat) :
    (∀ groups ∈ tuning.topology.hierarchyCandidates payloadBytes,
      tuning.topology.FastHierarchy payloadBytes groups) ∧
      ∀ after, tuning.withInferredHierarchy payloadBytes = .ok after →
        ∃ groups score, after.hierarchyGroups = some groups ∧
          groups ∈ tuning.topology.hierarchyCandidates payloadBytes ∧
          validateHierarchyGroups tuning.topology.worldSize groups = .ok () ∧
          tuning.hierarchyScore payloadBytes groups = some score ∧
          ∀ other ∈ tuning.topology.hierarchyCandidates payloadBytes, ∀ otherScore,
              tuning.hierarchyScore payloadBytes other = some otherScore →
                score ≤ otherScore := by
  have candidates := @CollectiveTopology.hierarchyCandidates_fast
    tuning.topology payloadBytes reachable.origin.represented
  refine ⟨candidates, fun after made => ?_⟩
  obtain ⟨_, _, made⟩ := of_bind made
  obtain ⟨⟨score, groups⟩, best, made⟩ := of_bind made
  rw [okOr_eq_ok_iff] at best
  obtain ⟨_, rfl⟩ := (ConfiguredTuning.revalidated_eq_ok_iff after).mp made
  obtain ⟨candidate, among, scored⟩ := List.mem_filterMap.mp (mem_of_bestBy best)
  obtain ⟨_, own, same⟩ := Option.map_eq_some_iff.mp scored
  cases same
  refine ⟨groups, score, rfl, among, ?_, own, ?_⟩
  · exact (validateHierarchyGroups_eq_ok_iff ..).mpr (candidates groups among).valid
  · intro other otherAmong otherScore otherOwn
    have present : (otherScore, other) ∈
        (tuning.topology.hierarchyCandidates payloadBytes).filterMap
          fun groups => (tuning.hierarchyScore payloadBytes groups).map
            fun score => (score, groups) :=
      List.mem_filterMap.mpr ⟨other, otherAmong, by rw [otherOwn]; rfl⟩
    have below : toLex (score, groups) ≤ toLex (otherScore, other) := by
      apply @bestBy_le _ (Nat ×ₗ List (List Nat)) _ (fun item => toLex item)
        _ ?_ _ _ _ best present
      intro item kept
      rw [decide_eq_true_eq, Prod.Lex.lt_iff]
      rfl
    rcases (Prod.Lex.le_iff ..).mp below with less | equal
    · exact Nat.le_of_lt less
    · exact Nat.le_of_eq equal.1

/-- Three ranks, of which 0 and 1 are joined by a faster link. -/
def fasterTriangle : CollectiveTopology :=
  { CollectiveTopology.triangle with
    links := setBoth CollectiveTopology.triangle.links 0 1 ⟨64000, 500⟩ }

section FasterTriangle

open CollectiveTopology

theorem fasterTriangle_thresholds : fasterTriangle.thresholds 4096 = [564, 1128] := by
  have times : ((List.range fasterTriangle.worldSize).flatMap fun first =>
      (ranksBehind fasterTriangle.worldSize first).filterMap fun second =>
        (fasterTriangle.link first second).map fun cost =>
          linkTransferTimeNs cost 4096) = [564, 1128, 1128] := by
    decide
  rw [thresholds, times, List.mergeSort_of_pairwise (by decide)]
  decide

theorem fasterTriangle_near : fasterTriangle.groupsWithin 4096 564 = [[0, 1], [2]] := by
  have world : fasterTriangle.worldSize = 3 := rfl
  have first : fasterTriangle.visitGroup 4096 564 3 [0] [0] [] = ([0, 1], [0, 1]) := by
    decide
  have last : fasterTriangle.visitGroup 4096 564 3 [0, 1, 2] [2] [] = ([0, 1, 2], [2]) := by
    decide
  simp [groupsWithin, addGroup, world, first, last, List.range_succ,
    List.mergeSort, List.MergeSort.Internal.splitInTwo]

theorem fasterTriangle_far : fasterTriangle.groupsWithin 4096 1128 = [[0, 1, 2]] := by
  have world : fasterTriangle.worldSize = 3 := rfl
  have all : fasterTriangle.visitGroup 4096 1128 3 [0] [0] [] = ([0, 1, 2], [0, 2, 1]) := by
    decide
  simp [groupsWithin, addGroup, world, all, List.range_succ, List.mergeSort,
    List.MergeSort.Internal.splitInTwo]

theorem fasterTriangle_candidates :
    fasterTriangle.hierarchyCandidates 4096 = [[[0, 1], [2]]] := by
  have world : fasterTriangle.worldSize = 3 := rfl
  have pair : fasterTriangle.leadGroup 4096 [0, 1] = some [0, 1] := by
    rw [leadGroup, List.mergeSort_of_pairwise (by decide)]
    decide
  have single : fasterTriangle.leadGroup 4096 [2] = some [2] := by
    rw [leadGroup, List.mergeSort_of_pairwise (by decide)]
    decide
  have cycle : fasterTriangle.bestRankCycleOrder 4096 [0, 2] = some [0, 1] := by
    decide
  simp [hierarchyCandidates, fasterTriangle_thresholds, addHierarchy,
    optimizeHierarchy, fasterTriangle_near, fasterTriangle_far, world, pair,
    single, cycle]

/-- The pair of the faster link is inferred as a group. -/
theorem inferred_hierarchies_valid_and_best_three :
    fasterTriangle.hierarchyCandidates 4096 = [[[0, 1], [2]]] ∧
      fasterTriangle.FastHierarchy 4096 [[0, 1], [2]] ∧
      ∃ tuning after : ConfiguredTuning, tuning.topology = fasterTriangle ∧
        tuning.withInferredHierarchy 4096 = .ok after ∧
        after.hierarchyGroups = some [[0, 1], [2]] := by
  have made : CollectiveTopology.uniform 3 =
      .ok CollectiveTopology.triangle := by
    decide
  have added : CollectiveTopology.triangle.addLink ⟨0, 1, 64000, 500⟩ =
      .ok fasterTriangle := rfl
  have valid : validateRingOrder 3 [0, 1, 2] = .ok () := rfl
  obtain ⟨tuning, started, same, unprofiled, score, scored⟩ : ∃ tuning,
      ConfiguredTuning.fromTopology .auto 0 fasterTriangle
        (some [0, 1, 2]) = .ok tuning ∧ tuning.topology = fasterTriangle ∧
      tuning.autotuneProfile = none ∧
      ∃ score, tuning.hierarchyScore 4096 [[0, 1], [2]] = some score :=
    ⟨_, (bind_eq_ok_iff ..).mpr ⟨[0, 1, 2], rfl,
      (bind_eq_ok_iff ..).mpr ⟨(), valid, rfl⟩⟩, rfl, rfl, _, rfl⟩
  have succeeds : tuning.withInferredHierarchy 4096 =
      .ok { tuning with hierarchyGroups := some [[0, 1], [2]] } := by
    rw [ConfiguredTuning.withInferredHierarchy, same,
      fasterTriangle_candidates, List.filterMap_cons, scored]
    change ConfiguredTuning.revalidated _ = _
    unfold ConfiguredTuning.revalidated
    split
    case h_1 => rfl
    case h_2 profile present => cases unprofiled.symm.trans present
  have inferred := inferred_hierarchies_valid_and_best tuning
    (.fromTopology (.addLink _ (.uniform made) added) started) 4096
  rw [same, fasterTriangle_candidates] at inferred
  obtain ⟨groups, _, chosen, among, _⟩ := inferred.2 _ succeeds
  rw [List.mem_singleton.mp among] at chosen
  exact ⟨fasterTriangle_candidates, inferred.1 _ (List.mem_singleton_self _),
    tuning, _, same, succeeds, chosen⟩

end FasterTriangle

end RuCCL.Rank
