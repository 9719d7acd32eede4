import RuCCL.Library.ShortestPath
import RuCCL.Rank.HierarchySearch

/-!
# Shortest transfers

The two searches for a shortest transfer are one, with different links and permitted
ranks.  Its result is the least saturating sum along any walk, or nothing when each
of them saturates.
-/

namespace RuCCL.Rank

open RuCCL.Library

namespace CollectiveTopology

theorem minByKey_eq (key : Nat → Nat) (indices : List Nat) :
    minByKey key indices = bestBy (fun item kept => decide (key item < key kept)) indices := by
  rw [minByKey, bestBy]
  refine List.foldl_ext _ _ _ fun best index _ => ?_
  cases best with
  | none => rfl
  | some least => simp only [decide_eq_true_eq]

theorem minByKey_least {key : Nat → Nat} {indices : List Nat} {best : Nat}
    (found : minByKey key indices = some best) :
    best ∈ indices ∧ ∀ other ∈ indices, key best ≤ key other := by
  rw [minByKey_eq] at found
  exact ⟨mem_of_bestBy found, fun other among =>
    bestBy_le (fun _ _ => decide_eq_true_iff) found among⟩

section Relax

variable {linkOf : Nat → Nat → Option LinkCost} {bytes current : Nat}

/-- The distance of a rank when the links of the current one are relaxed. -/
def relaxedDistance (linkOf : Nat → Nat → Option LinkCost)
    (bytes current : Nat) (search : Search) (next : Nat) : Nat :=
  if search.visited next then search.distances next
  else
    match linkOf current next with
    | none => search.distances next
    | some link => min (search.distances next)
        (saturate64 (search.distances current + linkTransferTimeNs link bytes))

/-- Relax one link. -/
def relaxLink (linkOf : Nat → Nat → Option LinkCost)
    (bytes current : Nat) (search : Search) (next : Nat) : Search :=
  { search with
    distances := Function.update search.distances next
      (relaxedDistance linkOf bytes current search next) }

theorem relax_eq (linkOf : Nat → Nat → Option LinkCost)
    (rankCount bytes current : Nat) (search : Search) :
    relax linkOf rankCount bytes current search =
      (List.range rankCount).foldl (relaxLink linkOf bytes current)
        search := by
  rw [relax]
  refine List.foldl_ext _ _ _ fun search next _ => ?_
  rw [relaxLink, relaxedDistance]
  split
  · rw [Function.update_eq_self]
  · cases linkOf current next with
    | none =>
        dsimp only
        rw [Function.update_eq_self]
    | some link => rfl

theorem foldl_relaxLink {nodes : List Nat} (nodup : nodes.Nodup)
    {search : Search} (seen : search.visited current = true) :
    (nodes.foldl (relaxLink linkOf bytes current) search).visited = search.visited ∧
      ∀ next, (nodes.foldl (relaxLink linkOf bytes current) search).distances next =
        if next ∈ nodes then
          relaxedDistance linkOf bytes current search next
        else search.distances next := by
  induction nodes generalizing search with
  | nil => exact ⟨rfl, fun next => (if_neg List.not_mem_nil).symm⟩
  | cons node rest ih =>
      obtain ⟨fresh, nodup⟩ := List.nodup_cons.mp nodup
      have kept : (relaxLink linkOf bytes current search node).distances
          current = search.distances current := by
        rw [relaxLink]
        dsimp only
        by_cases same : current = node
        · rw [← same, Function.update_self, relaxedDistance, if_pos seen]
        · rw [Function.update_of_ne same]
      obtain ⟨visited, distances⟩ := @ih nodup (relaxLink linkOf bytes current search node) seen
      rw [List.foldl_cons]
      refine ⟨visited, fun next => ?_⟩
      rw [distances next]
      by_cases same : next = node
      · rw [same, if_neg fresh, if_pos List.mem_cons_self, relaxLink]
        exact Function.update_self ..
      · have before : (relaxLink linkOf bytes current search node).distances
            next = search.distances next := Function.update_of_ne same ..
        have relaxed : relaxedDistance linkOf bytes current
            (relaxLink linkOf bytes current search node) next =
            relaxedDistance linkOf bytes current search next := by
          rw [relaxedDistance, relaxedDistance, before, kept]
          rfl
        rw [relaxed, before]
        simp only [List.mem_cons, same, false_or]

end Relax

/-- The saturating sum of a time and that of a link. -/
def saturatingAdd (time linkTime : Nat) : Nat := saturate64 (time + linkTime)

theorem costOrder_saturatingAdd : CostOrder saturatingAdd 0 maxU64 where
  zero_le := Nat.zero_le _
  monotone := by
    intro less more time below
    unfold saturatingAdd saturate64
    omega
  inflating := by
    intro cost time bounded
    unfold saturatingAdd saturate64
    omega
  bounded := by
    intro cost time
    exact Nat.min_le_right _ _

/-- The time of a link between two ranks, if there is one. -/
def timeOf (linkOf : Nat → Nat → Option LinkCost) (bytes : Nat)
    (first second : Nat) : Option Nat :=
  (linkOf first second).map (linkTransferTimeNs · bytes)

/-- The ranks of a search. -/
def Permitted (permitted : Nat → Bool) (rankCount rank : Nat) : Prop :=
  rank < rankCount ∧ permitted rank = true

/-- The times of the walks from a source over permitted ranks. -/
abbrev WalkTime (linkOf : Nat → Nat → Option LinkCost) (bytes : Nat)
    (inside : Nat → Prop) (source destination time : Nat) : Prop :=
  Walk saturatingAdd 0 (timeOf linkOf bytes) inside source destination time

/-- The rounds of a search over permitted ranks with any links. -/
def searchPermitted (linkOf : Nat → Nat → Option LinkCost)
    (permitted : Nat → Bool) (rankCount destination bytes : Nat) :
    Nat → Search → Option Nat
  | 0, search =>
      if search.distances destination ≠ maxU64 then
        some (search.distances destination)
      else none
  | rounds + 1, search =>
      match minByKey search.distances
          ((List.range rankCount).filter fun rank =>
            permitted rank && !search.visited rank) with
      | none => none
      | some current =>
          if search.distances current = maxU64 then
            if search.distances destination ≠ maxU64 then
              some (search.distances destination)
            else none
          else if current = destination then
            some (search.distances current)
          else
            searchPermitted linkOf permitted rankCount destination bytes
              rounds (relax linkOf rankCount bytes current
                { search with
                  visited := Function.update search.visited current true })

theorem searchRounds_eq (linkOf : Nat → Nat → Option LinkCost)
    (rankCount destination bytes rounds : Nat) (search : Search) :
    searchRounds linkOf rankCount destination bytes rounds search =
      searchPermitted linkOf (fun _ => true) rankCount destination bytes
        rounds search := by
  induction rounds generalizing search with
  | zero => rfl
  | succ rounds ih =>
      rw [searchRounds, searchPermitted]
      simp only [Bool.true_and]
      cases minByKey search.distances ((List.range rankCount).filter
          fun rank => !search.visited rank) with
      | none => rfl
      | some current => simp only [ih]

theorem searchWithin_eq (topology : CollectiveTopology)
    (permitted : Nat → Bool) (destination bytes rounds : Nat)
    (search : Search) :
    topology.searchWithin permitted destination bytes rounds search = searchPermitted
        (fun first second =>
          if permitted second then topology.link first second else none)
        permitted topology.worldSize destination bytes rounds search := by
  induction rounds generalizing search with
  | zero => rfl
  | succ rounds ih =>
      rw [searchWithin, searchPermitted]
      cases minByKey search.distances
          ((List.range topology.worldSize).filter fun rank =>
            permitted rank && !search.visited rank) with
      | none => rfl
      | some current => simp only [ih]

/-- The least of some times below the sentinel, or nothing. -/
structure LeastTime (times : Nat → Prop) (found : Option Nat) : Prop where
  some_iff : ∀ time, found = some time ↔
    time < maxU64 ∧ times time ∧ ∀ other, times other → time ≤ other
  none_iff : found = none ↔ ¬∃ time, times time ∧ time < maxU64

theorem leastTime_some {times : Nat → Prop} {time : Nat}
    (below : time < maxU64) (own : times time)
    (least : ∀ other, times other → time ≤ other) :
    LeastTime times (some time) where
  some_iff := by
    intro other
    rw [Option.some.injEq]
    constructor
    · rintro rfl
      exact ⟨below, own, least⟩
    · rintro ⟨_, otherOwn, otherLeast⟩
      exact Nat.le_antisymm (least other otherOwn) (otherLeast time own)
  none_iff := by
    constructor
    · intro absurd
      cases absurd
    · intro none
      exact absurd ⟨time, own, below⟩ none

theorem leastTime_none {times : Nat → Prop} (saturated : ∀ time, times time → maxU64 ≤ time) :
    LeastTime times none where
  some_iff := by
    intro time
    constructor
    · intro absurd
      cases absurd
    · rintro ⟨below, own, _⟩
      exact absurd (saturated time own) (Nat.not_le.mpr below)
  none_iff := by
    refine ⟨fun _ => ?_, fun _ => rfl⟩
    rintro ⟨time, own, below⟩
    exact absurd (saturated time own) (Nat.not_le.mpr below)

/-- What holds before each round of a search. -/
abbrev Searching (linkOf : Nat → Nat → Option LinkCost) (bytes : Nat)
    (inside : Nat → Prop) (source : Nat) (search : Search) : Prop :=
  Settled saturatingAdd 0 maxU64 (timeOf linkOf bytes) inside source
    search.distances fun rank => search.visited rank = true

section Rounds

variable {linkOf : Nat → Nat → Option LinkCost} {permitted : Nat → Bool}
  {rankCount source destination bytes current : Nat} {search : Search}

/-- A round keeps what holds before it. -/
theorem Searching.round
    (closed : ∀ first second, permitted second = false → linkOf first second = none)
    (searching : Searching linkOf bytes (Permitted permitted rankCount) source search)
    (inner : Permitted permitted rankCount source)
    (nearest : Nearest (Permitted permitted rankCount)
      (fun rank => search.visited rank = true) search.distances current)
    (found : search.distances current ≠ maxU64) :
    Searching linkOf bytes (Permitted permitted rankCount) source
      (relax linkOf rankCount bytes current
        { search with
          visited := Function.update search.visited current true }) := by
  have seen : Function.update search.visited current true current = true :=
    Function.update_self ..
  rw [relax_eq]
  obtain ⟨visited, distances⟩ := @foldl_relaxLink linkOf bytes current _
    (@List.nodup_range rankCount)
    { search with
      visited := Function.update search.visited current true } seen
  have visits : ∀ rank, Function.update search.visited current true rank =
      true ↔ search.visited rank = true ∨ rank = current := by
    intro rank
    by_cases same : rank = current
    · rw [same, Function.update_self]
      exact iff_of_true rfl (Or.inr rfl)
    · rw [Function.update_of_ne same]
      exact (or_iff_left same).symm
  rw [Searching, visited]
  simp only [visits]
  refine searching.visit costOrder_saturatingAdd inner nearest found ?_ ?_
  · intro next time relaxes link
    obtain ⟨cost, linked, rfl⟩ := Option.map_eq_some_iff.mp link
    obtain ⟨⟨inRange, _⟩, fresh, other, _⟩ := relaxes
    rw [distances next, if_pos (List.mem_range.mpr inRange),
      relaxedDistance, if_neg fun seen => ?_, linked]
    · rfl
    · rcases (visits next).mp seen with old | new
      · exact fresh old
      · exact other new
  · intro next unrelaxed
    rw [distances next]
    split
    case isFalse => rfl
    case isTrue inRange =>
      rw [relaxedDistance]
      split
      · rfl
      case isFalse fresh =>
        cases linked : linkOf current next with
        | none => rfl
        | some cost =>
            refine absurd ⟨⟨List.mem_range.mp inRange, ?_⟩, ?_⟩ unrelaxed
            · by_contra outside
              rw [closed current next (Bool.eq_false_of_not_eq_true outside)] at linked
              cases linked
            · rw [visits, not_or] at fresh
              refine ⟨fresh.1, fresh.2, ?_⟩
              rw [timeOf, linked]
              exact Option.some_ne_none _

/-- The ranks that a search has left. -/
def left (permitted : Nat → Bool) (rankCount : Nat) (search : Search) :
    List Nat :=
  (List.range rankCount).filter fun rank =>
    permitted rank && !search.visited rank

theorem mem_left {rank : Nat} :
    rank ∈ left permitted rankCount search ↔
      Permitted permitted rankCount rank ∧ ¬search.visited rank = true := by
  rw [left, List.mem_filter, List.mem_range, Bool.and_eq_true,
    Bool.not_eq_true', Permitted, and_assoc, Bool.not_eq_true]

theorem visited_relax (seen : search.visited current = true) :
    (relax linkOf rankCount bytes current search).visited =
      search.visited := by
  rw [relax_eq]
  exact (foldl_relaxLink List.nodup_range seen).1

/-- The rank that is visited is left no more. -/
theorem length_left_relax (among : current ∈ left permitted rankCount search) :
    (left permitted rankCount
      (relax linkOf rankCount bytes current
        { search with
          visited := Function.update search.visited current true })).length <
      (left permitted rankCount search).length := by
  have seen : Function.update search.visited current true current = true :=
    Function.update_self ..
  have same : left permitted rankCount
      (relax linkOf rankCount bytes current
        { search with
          visited := Function.update search.visited current true }) =
      (left permitted rankCount search).filter (· ≠ current) := by
    rw [left, left, visited_relax seen, List.filter_filter]
    refine List.filter_congr fun rank _ => ?_
    by_cases own : rank = current
    · dsimp only
      rw [own, seen]
      simp
    · simp [own]
  rw [same, List.length_filter_lt_length_iff_exists]
  exact ⟨current, among, by simp⟩

/-- A search finds the least time of a walk to its destination. -/
theorem Searching.leastTime
    (closed : ∀ first second, permitted second = false → linkOf first second = none)
    (inner : Permitted permitted rankCount source)
    (target : Permitted permitted rankCount destination) {rounds : Nat}
    (enough : (left permitted rankCount search).length ≤ rounds)
    (searching : Searching linkOf bytes (Permitted permitted rankCount) source search)
    (unseen : ¬search.visited destination = true) :
    LeastTime (WalkTime linkOf bytes (Permitted permitted rankCount) source destination)
      (searchPermitted linkOf permitted rankCount destination bytes rounds search) := by
  have waiting : destination ∈ left permitted rankCount search := mem_left.mpr ⟨target, unseen⟩
  induction rounds generalizing search with
  | zero =>
      have none := List.eq_nil_of_length_eq_zero (Nat.le_zero.mp enough)
      rw [none] at waiting
      cases waiting
  | succ rounds ih =>
      rw [searchPermitted, ← left]
      split
      case h_1 none =>
        have some := List.ne_nil_of_mem waiting
        have found := bestBy_isSome some fun item kept =>
          decide (search.distances item < search.distances kept)
        rw [← minByKey_eq, none] at found
        cases found
      case h_2 current best =>
        obtain ⟨among, least⟩ := minByKey_least best
        obtain ⟨own, fresh⟩ := mem_left.mp among
        have nearest : Nearest (Permitted permitted rankCount)
            (fun rank => search.visited rank = true) search.distances
            current :=
          ⟨own, fresh, fun other inside unseen =>
            least other (mem_left.mpr ⟨inside, unseen⟩)⟩
        split
        case isTrue unreached =>
          -- nothing that is left can be reached, the destination neither
          have far := Nat.le_antisymm (searching.bounded destination)
            (unreached ▸ least destination waiting)
          rw [if_neg (not_not.mpr far)]
          refine leastTime_none fun time walk => ?_
          rw [← unreached]
          exact searching.nearest_le costOrder_saturatingAdd inner nearest unseen walk
        case isFalse reached =>
          split
          case isTrue same =>
            subst same
            refine leastTime_some (Nat.lt_of_le_of_ne (searching.bounded current) reached)
              (searching.reached current reached) fun time walk => ?_
            exact searching.nearest_le costOrder_saturatingAdd inner nearest fresh walk
          case isFalse other =>
            have fewer := @length_left_relax linkOf permitted rankCount bytes current search among
            have seen : Function.update search.visited current true
                current = true := Function.update_self ..
            have still : ¬(relax linkOf rankCount bytes current
                { search with
                  visited := Function.update search.visited current
                    true }).visited destination = true := by
              rw [visited_relax seen]
              dsimp only
              rw [Function.update_of_ne (Ne.symm other)]
              exact unseen
            exact ih (by omega)
              (searching.round closed inner nearest reached) still
              (mem_left.mpr ⟨target, still⟩)

end Rounds

/-- The distances before the first round. -/
theorem searching_start {linkOf : Nat → Nat → Option LinkCost}
    {bytes source : Nat} {inside : Nat → Prop} :
    Searching linkOf bytes inside source
      { distances := Function.update (fun _ => maxU64) source 0
        visited := fun _ => false } := by
  refine settled_start costOrder_saturatingAdd ?_ (fun rank other => ?_) fun rank seen => ?_
  · exact Function.update_self source 0 fun _ => maxU64
  · exact Function.update_of_ne other 0 fun _ => maxU64
  · cases seen

theorem LeastTime.congr {times others : Nat → Prop} {found : Option Nat}
    (least : LeastTime times found)
    (same : ∀ time, times time ↔ others time) :
    LeastTime others found := by
  rw [← funext fun time => propext (same time)]
  exact least

variable (topology : CollectiveTopology)

/-- The link between two ranks, on a rail when there is one. -/
def linkVia (rail : Option Nat) (first second : Nat) : Option LinkCost :=
  match rail with
  | some rail => topology.linkOnRail first second rail
  | none => topology.link first second

theorem shortestTransferTimeNsForRail_least {source destination : Nat}
    (different : source ≠ destination)
    (inSource : source < topology.worldSize)
    (inDestination : destination < topology.worldSize) (bytes : Nat)
    (rail : Option Nat) :
    LeastTime
      (WalkTime (topology.linkVia rail) bytes (· < topology.worldSize) source destination)
      (topology.shortestTransferTimeNsForRail source destination bytes rail) := by
  rw [shortestTransferTimeNsForRail, if_neg different]
  dsimp only
  rw [searchRounds_eq]
  have few : (left (fun _ => true) topology.worldSize
      { distances := Function.update (fun _ => maxU64) source 0
        visited := fun _ => false }).length ≤ topology.worldSize := by
    refine (List.length_filter_le _ _).trans ?_
    rw [List.length_range]
  refine LeastTime.congr (searching_start.leastTime ?_ ⟨inSource, rfl⟩
    ⟨inDestination, rfl⟩ few ?_) fun time => ⟨fun walk => ?_, fun walk => ?_⟩
  · intro first second absurd
    cases absurd
  · intro seen
    cases seen
  · exact walk.mono (fun _ inner => inner.1) fun _ _ _ _ link => link
  · exact walk.mono (fun _ inner => ⟨inner, rfl⟩) fun _ _ _ _ link => link

theorem shortestTransferTimeNsWithin_least {source destination : Nat}
    (different : source ≠ destination) {allowed : List Nat}
    (inside : ∀ rank ∈ allowed, rank < topology.worldSize)
    (inSource : source ∈ allowed) (inDestination : destination ∈ allowed)
    (bytes : Nat) :
    LeastTime (WalkTime topology.link bytes (· ∈ allowed) source destination)
      (topology.shortestTransferTimeNsWithin source destination bytes allowed) := by
  rw [shortestTransferTimeNsWithin, if_neg different, searchWithin_eq]
  have few : (left (fun rank => rank ∈ allowed) topology.worldSize
      { distances := Function.update (fun _ => maxU64) source 0
        visited := fun _ => false }).length ≤ allowed.length := by
    refine List.Subperm.length_le (List.subperm_of_subset ?_ ?_)
    · exact List.nodup_range.filter _
    · intro rank among
      exact of_decide_eq_true (mem_left.mp among).1.2
  refine LeastTime.congr (searching_start.leastTime ?_
    ⟨inside _ inSource, decide_eq_true inSource⟩
    ⟨inside _ inDestination, decide_eq_true inDestination⟩ few ?_)
    fun time => ⟨fun walk => ?_, fun walk => ?_⟩
  · intro first second outside
    rw [if_neg (Bool.not_eq_true _ ▸ outside)]
  · intro seen
    cases seen
  · refine walk.mono (fun _ inner => of_decide_eq_true inner.2) ?_
    intro first second time inner link
    rw [timeOf, if_pos inner.2] at link
    exact link
  · refine walk.mono (fun rank inner => ⟨inside rank inner, decide_eq_true inner⟩) ?_
    intro first second time inner link
    rw [timeOf, if_pos (decide_eq_true inner)]
    exact link

/-- Both searches find the least saturating sum along a walk, and nothing exactly
when each of the sums saturates. -/
theorem shortest_transfer_least (topology : CollectiveTopology)
    (source destination : Nat) (different : source ≠ destination)
    (inSource : source < topology.worldSize)
    (inDestination : destination < topology.worldSize) (bytes : Nat) :
    (∀ rail : Option Nat, LeastTime
      (WalkTime (topology.linkVia rail) bytes (· < topology.worldSize) source destination)
      (topology.shortestTransferTimeNsForRail source destination bytes rail)) ∧
      ∀ allowed : List Nat, (∀ rank ∈ allowed, rank < topology.worldSize) →
        source ∈ allowed → destination ∈ allowed → LeastTime
          (WalkTime topology.link bytes (· ∈ allowed) source destination)
          (topology.shortestTransferTimeNsWithin source destination bytes allowed) := by
  constructor
  · intro rail
    exact topology.shortestTransferTimeNsForRail_least different inSource inDestination bytes rail
  · intro allowed inside
    exact fun among otherAmong =>
      topology.shortestTransferTimeNsWithin_least different inside among otherAmong bytes

/-- Three ranks, of which 0 and 2 are joined by a slow link. -/
def detourThree : CollectiveTopology :=
  { worldSize := 3
    links := [[none, some ⟨1000, 1⟩, some ⟨1000, 9⟩], [some ⟨1000, 1⟩, none, some ⟨1000, 2⟩],
      [some ⟨1000, 9⟩, some ⟨1000, 2⟩, none]]
    railLinks := []
    aggregateLinks := emptyMatrix Nat 3 }

theorem shortest_transfer_least_three :
    (∀ time, WalkTime (detourThree.linkVia none) 1 (· < 3) 0 2 time → 5 ≤ time) ∧
      ∀ time, WalkTime detourThree.link 1 (· ∈ [0, 2]) 0 2 time → 10 ≤ time := by
  have searched := shortest_transfer_least detourThree 0 2 (by decide)
    (by decide) (by decide) 1
  constructor
  · exact (((searched.1 none).some_iff 5).mp (by decide)).2.2
  · exact (((searched.2 [0, 2] (by decide) (by decide)
      (by decide)).some_iff 10).mp (by decide)).2.2

end CollectiveTopology

end RuCCL.Rank
