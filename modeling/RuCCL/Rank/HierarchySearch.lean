import RuCCL.Rank.RingSearch

/-!
# Groups of a topology

Ranks that are joined by fast links form a group.  Each threshold of the link times
gives one grouping; its leaders are the ranks that are closest to the others, and the
groups are ordered along a short cycle of the leaders.
-/

namespace RuCCL.Rank

open RuCCL.Library

namespace CollectiveTopology

variable (topology : CollectiveTopology) (payloadBytes : Nat)

/-- The times of all links, sorted and without repetitions. -/
def thresholds : List Nat :=
  (((List.range topology.worldSize).flatMap fun first =>
    (ranksBehind topology.worldSize first).filterMap fun second =>
      (topology.link first second).map fun cost =>
        linkTransferTimeNs cost payloadBytes).mergeSort).destutter (· ≠ ·)

def isFast (threshold rank peer : Nat) : Bool := (topology.link rank peer).any fun cost =>
    linkTransferTimeNs cost payloadBytes ≤ threshold

/-- Visit what is behind the pending ranks; `rounds` more ranks may be taken from
them.  The visited ranks and the group are returned. -/
def visitGroup (threshold : Nat) :
    Nat → List Nat → List Nat → List Nat → List Nat × List Nat
  | 0, visited, _, group => (visited, group)
  | rounds + 1, visited, pending, group =>
      match pending.getLast? with
      | none => (visited, group)
      | some rank =>
          let fresh := (List.range topology.worldSize).filter fun peer =>
            peer ∉ visited ∧ topology.isFast payloadBytes threshold rank peer
          visitGroup threshold rounds (visited ++ fresh)
            (pending.dropLast ++ fresh) (group ++ [rank])

/-- Add the group of a rank that has not been visited. -/
def addGroup (threshold : Nat) (state : List Nat × List (List Nat)) (firstRank : Nat) :
    List Nat × List (List Nat) :=
  if firstRank ∈ state.1 then state
  else
    let (visited, group) := topology.visitGroup payloadBytes threshold
      topology.worldSize (state.1 ++ [firstRank]) [firstRank] []
    (visited, state.2 ++ [group.mergeSort])

/-- The groups of a threshold, in the order of their first ranks. -/
def groupsWithin (threshold : Nat) : List (List Nat) :=
  ((List.range topology.worldSize).foldl
    (topology.addGroup payloadBytes threshold) ([], [])).2.mergeSort
      fun first second => decide (first.headD 0 ≤ second.headD 0)

/-- As `searchRounds`, on the permitted ranks only. -/
def searchWithin (permitted : Nat → Bool) (destination bytes : Nat) :
    Nat → Search → Option Nat
  | 0, search =>
      if search.distances destination ≠ maxU64 then
        some (search.distances destination)
      else none
  | rounds + 1, search =>
      match minByKey search.distances
          ((List.range topology.worldSize).filter fun rank =>
            permitted rank && !search.visited rank) with
      | none => none
      | some current =>
          if search.distances current = maxU64 then
            if search.distances destination ≠ maxU64 then
              some (search.distances destination)
            else none
          else if current = destination then
            some (search.distances current)
          else
            searchWithin permitted destination bytes rounds
              (relax
                (fun first second =>
                  if permitted second then topology.link first second
                  else none)
                topology.worldSize bytes current
                { search with
                  visited := Function.update search.visited current true })

def shortestTransferTimeNsWithin (source destination bytes : Nat)
    (allowed : List Nat) : Option Nat :=
  if source = destination then some 0
  else
    topology.searchWithin (fun rank => rank ∈ allowed) destination bytes allowed.length
      { distances := Function.update (fun _ => maxU64) source 0
        visited := fun _ => false }

/-- The time from a candidate to all ranks of its group. -/
def leaderTime (group : List Nat) (candidate : Nat) : Option Nat := group.foldlM
    (fun total rank => do
      let cost ← topology.shortestTransferTimeNsWithin candidate rank payloadBytes group
      some (saturate64 (total + cost)))
    0

/-- Exchange the first item with the one at `position`. -/
def swapFront : List Nat → Nat → List Nat
  | [], _ => []
  | first :: rest, 0 => first :: rest
  | first :: rest, position + 1 => rest.getD position first :: rest.set position first

/-- The leader first, then the other ranks. -/
def leadGroup (group : List Nat) : Option (List Nat) := do
  let (_, leader) ← bestBy (fun item kept => decide ([item.1, item.2] < [kept.1, kept.2]))
    (group.filterMap fun candidate =>
      (topology.leaderTime payloadBytes group candidate).map fun total => (total, candidate))
  let sorted := group.mergeSort
  let position ← sorted.idxOf? leader
  some (swapFront sorted position)

/-- The slowest step of a cycle and the sum of all steps. -/
def cycleScore (ranks order : List Nat) : Option (List Nat) := do
  let (slowest, total) ← (CollectiveTuning.ringPairs order).foldlM
    (fun (slowest, total) (first, second) => do
      let cost ← topology.shortestTransferTimeNs (ranks.getD first 0)
        (ranks.getD second 0) payloadBytes
      some (max slowest cost, saturate128 (total + cost)))
    (0, 0)
  some [slowest, total]

/-- The best cycle that begins with `order`, or `best`. -/
def collectRankCycles (ranks : List Nat) :
    Nat → List Nat → Option (List Nat × List Nat) → Option (List Nat × List Nat)
  | 0, order, best =>
      match topology.cycleScore payloadBytes ranks order, best with
      | none, _ => best
      | some score, none => some (score, order)
      | some score, some (bestScore, bestOrder) =>
          if score < bestScore ∨ (score = bestScore ∧ order < bestOrder) then
            some (score, order)
          else best
  | remaining + 1, order, best =>
      ((List.range' 1 (ranks.length - 1)).filter fun candidate =>
        candidate ∉ order).foldl
        (fun best candidate => collectRankCycles ranks remaining (order ++ [candidate]) best)
        best

/-- Go to the nearest leader for `remaining` more steps. -/
def extendCycle (ranks : List Nat) : Nat → List Nat → Option (List Nat)
  | 0, order => some order
  | remaining + 1, order => do
      let (_, _, next) ← bestBy
        (fun item kept =>
          decide ([item.1, item.2.1] < [kept.1, kept.2.1]))
        (((List.range ranks.length).filter fun candidate =>
          candidate ∉ order).filterMap fun candidate =>
            (topology.shortestTransferTimeNs
              (ranks.getD (order.getLastD 0) 0) (ranks.getD candidate 0) payloadBytes).map
              fun cost => (cost, ranks.getD candidate 0, candidate))
      extendCycle ranks remaining (order ++ [next])

def bestRankCycleOrder (ranks : List Nat) : Option (List Nat) :=
  if ranks = [] then none
  else if ranks.length = 1 then some [0]
  else if ranks.length ≤ exactRingSearchMaxRanks then
    (topology.collectRankCycles payloadBytes ranks (ranks.length - 1) [0] none).map Prod.snd
  else do
    let order ← topology.extendCycle payloadBytes ranks (ranks.length - 1) [0]
    let _ ← topology.shortestTransferTimeNs
      (ranks.getD (order.getLastD 0) 0) (ranks.getD (order.headD 0) 0) payloadBytes
    some order

def optimizeHierarchy (groups : List (List Nat)) :
    Option (List (List Nat)) := do
  let groups ← groups.mapM (topology.leadGroup payloadBytes)
  let order ← topology.bestRankCycleOrder payloadBytes (groups.map fun group => group.headD 0)
  some (order.map fun index => groups.getD index [])

/-- Add the hierarchy of a threshold, when it has groups and is a new one. -/
def addHierarchy (candidates : List (List (List Nat))) (threshold : Nat) :
    List (List (List Nat)) :=
  let groups := topology.groupsWithin payloadBytes threshold
  if groups.length < 2 ∨ groups.length = topology.worldSize ∨ groups ∈ candidates then candidates
  else
    match topology.optimizeHierarchy payloadBytes groups with
    | none => candidates
    | some groups => if groups ∈ candidates then candidates else candidates ++ [groups]

def hierarchyCandidates : List (List (List Nat)) := (topology.thresholds payloadBytes).foldl
    (topology.addHierarchy payloadBytes) []

variable {topology : CollectiveTopology} {payloadBytes : Nat}

/-- A visit takes all pending ranks into the group, when there are rounds enough. -/
theorem visitGroup_perm {threshold rounds : Nat} {before visited pending group : List Nat}
    (selection : Selection topology.worldSize visited)
    (shares : visited.Perm (before ++ group ++ pending))
    (enough : topology.worldSize ≤ before.length + group.length + rounds) :
    let result := topology.visitGroup payloadBytes threshold rounds visited pending group
    Selection topology.worldSize result.1 ∧
      result.1.Perm (before ++ result.2) ∧ visited <+: result.1 := by
  induction rounds generalizing visited pending group with
  | zero =>
      have bound := selection.length_le
      have lengths := shares.length_eq
      rw [List.length_append, List.length_append] at lengths
      have none : pending = [] := List.length_eq_zero_iff.mp (by omega)
      rw [none, List.append_nil] at shares
      exact ⟨selection, shares, List.prefix_rfl⟩
  | succ rounds ih =>
      rw [visitGroup]
      split
      case h_1 last =>
        rw [List.getLast?_eq_none_iff.mp last, List.append_nil] at shares
        exact ⟨selection, shares, List.prefix_rfl⟩
      case h_2 rank last =>
        obtain ⟨front, rfl⟩ := List.getLast?_eq_some_iff.mp last
        dsimp only
        generalize fresh : ((List.range topology.worldSize).filter fun peer => peer ∉ visited ∧
            topology.isFast payloadBytes threshold rank peer) = new
        have added : Selection topology.worldSize (visited ++ new) := by
          subst fresh
          refine selection.append ⟨List.nodup_range.filter _, ?_⟩ ?_
          · intro peer among
            exact List.mem_range.mp (List.mem_filter.mp among).1
          · intro peer old among
            have unseen := of_decide_eq_true (List.mem_filter.mp among).2
            exact unseen.1 old
        rw [List.dropLast_concat]
        have moved : (visited ++ new).Perm (before ++ (group ++ [rank]) ++ (front ++ new)) := by
          refine (shares.append_right new).trans ?_
          have turned : (front ++ [rank]).Perm ([rank] ++ front) := List.perm_append_comm
          have inner := (turned.append_left (before ++ group)).append_right new
          refine inner.trans ?_
          simp only [List.append_assoc]
          rfl
        obtain ⟨all, partition, kept⟩ := ih added moved (by
          rw [List.length_append, List.length_singleton]
          omega)
        exact ⟨all, partition, (List.prefix_append _ _).trans kept⟩

/-- The ranks visited so far are those of the groups. -/
structure Grouped (topology : CollectiveTopology)
    (state : List Nat × List (List Nat)) : Prop where
  selection : Selection topology.worldSize state.1
  partition : state.1.Perm state.2.flatten
  nonempty : ∀ group ∈ state.2, group ≠ []

theorem Grouped.addGroup {threshold firstRank : Nat}
    {state : List Nat × List (List Nat)} (grouped : Grouped topology state)
    (inside : firstRank < topology.worldSize) :
    let result := topology.addGroup payloadBytes threshold state firstRank
    Grouped topology result ∧ firstRank ∈ result.1 ∧ ∀ rank ∈ state.1, rank ∈ result.1 := by
  rw [CollectiveTopology.addGroup]
  split
  case isTrue seen => exact ⟨grouped, seen, fun _ among => among⟩
  case isFalse unseen =>
    have start : (state.1 ++ [firstRank]).Perm (state.1 ++ [] ++ [firstRank]) := by
      rw [List.append_nil]
    have bound : topology.worldSize ≤ state.1.length +
        ([] : List Nat).length + topology.worldSize := Nat.le_add_left _ _
    obtain ⟨all, partition, kept⟩ := visitGroup_perm
      (grouped.selection.concat inside unseen) start bound
    generalize topology.visitGroup payloadBytes threshold topology.worldSize
      (state.1 ++ [firstRank]) [firstRank] [] = result at all partition kept
    obtain ⟨visited, group⟩ := result
    dsimp only at all partition kept ⊢
    have first : firstRank ∈ visited :=
      kept.subset (List.mem_append_right _ (List.mem_singleton_self _))
    refine ⟨⟨all, ?_, ?_⟩, first, fun rank among =>
      kept.subset (List.mem_append_left _ among)⟩
    · rw [List.flatten_append, List.flatten_singleton]
      exact partition.trans (grouped.partition.append (List.mergeSort_perm group _).symm)
    · intro other among
      rcases List.mem_append.mp among with old | new
      · exact grouped.nonempty other old
      · rw [List.mem_singleton.mp new]
        intro none
        have empty : group = [] := by
          have lengths := congrArg List.length none
          rw [List.length_mergeSort] at lengths
          exact List.length_eq_zero_iff.mp lengths
        rw [empty, List.append_nil] at partition
        exact unseen (partition.mem_iff.mp first)

theorem grouped_foldl {threshold : Nat} {ranks : List Nat}
    {state : List Nat × List (List Nat)} (grouped : Grouped topology state)
    (inside : ∀ rank ∈ ranks, rank < topology.worldSize) :
    let result := ranks.foldl (topology.addGroup payloadBytes threshold) state
    Grouped topology result ∧ (∀ rank ∈ ranks, rank ∈ result.1) ∧
      ∀ rank ∈ state.1, rank ∈ result.1 := by
  induction ranks generalizing state with
  | nil =>
      exact ⟨grouped, fun _ absent => absurd absent List.not_mem_nil, fun _ among => among⟩
  | cons first rest ih =>
      obtain ⟨next, own, kept⟩ := grouped.addGroup (inside first List.mem_cons_self)
      obtain ⟨final, others, later⟩ := ih next
        fun rank among => inside rank (List.mem_cons_of_mem _ among)
      refine ⟨final, fun rank among => ?_, fun rank among =>
        later rank (kept rank among)⟩
      rcases List.mem_cons.mp among with rfl | behind
      · exact later _ own
      · exact others rank behind

theorem groupsWithin_partition (topology : CollectiveTopology) (payloadBytes threshold : Nat) :
    (∀ group ∈ topology.groupsWithin payloadBytes threshold, group ≠ []) ∧
      (topology.groupsWithin payloadBytes threshold).flatten.Perm
        (List.range topology.worldSize) := by
  have start : Grouped topology ([], []) :=
    ⟨.nil, .nil, fun _ absent => absurd absent List.not_mem_nil⟩
  obtain ⟨grouped, all, _⟩ := grouped_foldl start fun rank among => List.mem_range.mp among
  have sorted := List.mergeSort_perm ((List.range topology.worldSize).foldl
    (topology.addGroup payloadBytes threshold) ([], [])).2
      fun first second => decide (first.headD 0 ≤ second.headD 0)
  refine ⟨fun group among => ?_, ?_⟩
  · exact grouped.nonempty group (sorted.mem_iff.mp among)
  · exact (sorted.flatten.trans grouped.partition.symm).trans
      (grouped.selection.perm_of_mem fun rank inside =>
        all rank (List.mem_range.mpr inside))

theorem swapFront_perm (items : List Nat) (position : Nat) :
    (swapFront items position).Perm items := by
  match items, position with
  | [], _ => exact .nil
  | first :: rest, 0 => exact .refl _
  | first :: rest, position + 1 =>
      rw [swapFront]
      by_cases inside : position < rest.length
      · have split := List.take_append_drop position rest
        rw [List.drop_eq_getElem_cons inside] at split
        rw [List.set_eq_take_append_cons_drop, if_pos inside,
          List.getD_eq_getElem?_getD, List.getElem?_eq_getElem inside,
          Option.getD_some]
        nth_rewrite 4 [← split]
        refine (List.perm_middle.cons _).trans ?_
        refine (List.Perm.swap _ _ _).trans ?_
        exact (List.perm_middle.symm).cons _
      · rw [List.set_eq_of_length_le (Nat.le_of_not_lt inside), List.getD_eq_getElem?_getD,
          List.getElem?_eq_none (Nat.le_of_not_lt inside),
          Option.getD_none]

theorem leadGroup_perm {group led : List Nat}
    (made : topology.leadGroup payloadBytes group = some led) :
    led.Perm group := by
  obtain ⟨_, _, made⟩ := Option.bind_eq_some_iff.mp made
  obtain ⟨position, _, made⟩ := Option.bind_eq_some_iff.mp made
  cases made
  exact (swapFront_perm _ _).trans (List.mergeSort_perm _ _)

theorem collectRankCycles_perm {ranks order : List Nat} {remaining : Nat}
    {best : Option (List Nat × List Nat)}
    (selection : Selection ranks.length order)
    (missing : order.length + remaining = ranks.length)
    (before : ∀ result, best = some result → result.2.Perm (List.range ranks.length)) :
    ∀ result, topology.collectRankCycles payloadBytes ranks remaining order
        best = some result → result.2.Perm (List.range ranks.length) := by
  induction remaining generalizing order best with
  | zero =>
      have own := selection.perm missing
      intro result found
      unfold collectRankCycles at found
      split at found
      · exact before result found
      · cases found
        exact own
      · split at found
        · cases found
          exact own
        · exact before result found
  | succ remaining ih =>
      rw [collectRankCycles]
      refine List.foldlRecOn
        (motive := fun best : Option (List Nat × List Nat) =>
          ∀ result, best = some result → result.2.Perm (List.range ranks.length)) _ _ before ?_
      intro best kept candidate among
      obtain ⟨listed, fresh⟩ := List.mem_filter.mp among
      have inside : candidate < ranks.length := by
        obtain ⟨step, bound, rfl⟩ := List.mem_range'.mp listed
        omega
      refine ih (selection.concat inside (of_decide_eq_true fresh)) ?_ kept
      rw [List.length_append, List.length_singleton]
      omega

theorem extendCycle_perm {ranks order cycle : List Nat} {remaining : Nat}
    (selection : Selection ranks.length order)
    (missing : order.length + remaining = ranks.length)
    (found : topology.extendCycle payloadBytes ranks remaining order =
      some cycle) : cycle.Perm (List.range ranks.length) := by
  induction remaining generalizing order with
  | zero =>
      cases found
      exact selection.perm missing
  | succ remaining ih =>
      obtain ⟨⟨cost, rank, next⟩, best, later⟩ := Option.bind_eq_some_iff.mp found
      obtain ⟨candidate, among, priced⟩ := List.mem_filterMap.mp (mem_of_bestBy best)
      obtain ⟨_, _, same⟩ := Option.map_eq_some_iff.mp priced
      cases same
      obtain ⟨inside, fresh⟩ := List.mem_filter.mp among
      refine ih (selection.concat (List.mem_range.mp inside) (of_decide_eq_true fresh)) ?_ later
      rw [List.length_append, List.length_singleton]
      omega

theorem bestRankCycleOrder_perm {ranks order : List Nat}
    (found : topology.bestRankCycleOrder payloadBytes ranks = some order) :
    order.Perm (List.range ranks.length) := by
  rw [bestRankCycleOrder] at found
  split at found
  · cases found
  case isFalse some =>
    have positive : 0 < ranks.length := List.length_pos_iff.mpr some
    have first : Selection ranks.length [0] := .singleton positive
    have missing : [0].length + (ranks.length - 1) = ranks.length := by
      rw [List.length_singleton]
      omega
    split at found
    case isTrue one =>
      cases found
      rw [one]
      rfl
    split at found
    case isTrue =>
      obtain ⟨result, collected, rfl⟩ := Option.map_eq_some_iff.mp found
      exact collectRankCycles_perm first missing
        (fun _ absent => by cases absent) result collected
    case isFalse =>
      obtain ⟨cycle, extended, found⟩ := Option.bind_eq_some_iff.mp found
      obtain ⟨_, _, same⟩ := Option.bind_eq_some_iff.mp found
      cases same
      exact extendCycle_perm first missing extended

theorem leadGroups_perm {groups led : List (List Nat)}
    (made : groups.mapM (topology.leadGroup payloadBytes) = some led) :
    led.length = groups.length ∧ led.flatten.Perm groups.flatten ∧
      ((∀ group ∈ groups, group ≠ []) → ∀ group ∈ led, group ≠ []) := by
  induction groups generalizing led with
  | nil =>
      cases made
      exact ⟨rfl, .refl _, fun nonempty => nonempty⟩
  | cons group rest ih =>
      rw [List.mapM_cons] at made
      obtain ⟨first, own, made⟩ := Option.bind_eq_some_iff.mp made
      obtain ⟨others, later, same⟩ := Option.bind_eq_some_iff.mp made
      cases same
      obtain ⟨length, partition, nonempty⟩ := ih later
      have led := leadGroup_perm own
      refine ⟨by rw [List.length_cons, List.length_cons, length], ?_, ?_⟩
      · rw [List.flatten_cons, List.flatten_cons]
        exact led.append partition
      · intro all
        obtain ⟨head, tail⟩ := List.forall_mem_cons.mp all
        refine List.forall_mem_cons.mpr ⟨fun none => ?_, nonempty tail⟩
        rw [none] at led
        exact head led.nil_eq.symm

theorem map_getD_range {α : Type} (items : List α) (default : α) :
    (List.range items.length).map (fun index => items.getD index default) =
      items := by
  refine List.ext_getElem? fun index => ?_
  rw [List.getElem?_map]
  by_cases inside : index < items.length
  · rw [List.getElem?_range inside, Option.map_some,
      List.getD_eq_getElem?_getD, List.getElem?_eq_getElem inside,
      Option.getD_some]
  · rw [List.getElem?_eq_none (Nat.le_of_not_lt inside),
      List.getElem?_eq_none (by
        rw [List.length_range]
        exact Nat.le_of_not_lt inside), Option.map_none]

/-- An optimized hierarchy orders the led groups. -/
theorem optimizeHierarchy_perm {groups optimized : List (List Nat)}
    (made : topology.optimizeHierarchy payloadBytes groups = some optimized) :
    ∃ led, groups.mapM (topology.leadGroup payloadBytes) = some led ∧ optimized.Perm led := by
  obtain ⟨led, leads, made⟩ := Option.bind_eq_some_iff.mp made
  obtain ⟨order, cycle, same⟩ := Option.bind_eq_some_iff.mp made
  cases same
  have whole := bestRankCycleOrder_perm cycle
  rw [List.length_map] at whole
  have sorted := whole.map fun index => led.getD index []
  rw [map_getD_range] at sorted
  exact ⟨led, leads, sorted⟩

theorem optimizeHierarchy_valid {groups optimized : List (List Nat)}
    (made : topology.optimizeHierarchy payloadBytes groups = some optimized)
    (valid : ValidGroups topology.worldSize groups) :
    ValidGroups topology.worldSize optimized := by
  obtain ⟨led, leads, sorted⟩ := optimizeHierarchy_perm made
  obtain ⟨length, partition, nonempty⟩ := leadGroups_perm leads
  refine ⟨?_, fun group among => ?_, ?_⟩
  · rw [sorted.length_eq, length]
    exact valid.several
  · exact nonempty valid.nonempty group (sorted.mem_iff.mp among)
  · exact (sorted.flatten.trans partition).trans valid.partition

theorem addHierarchy_valid {candidates : List (List (List Nat))} (threshold : Nat)
    (before : ∀ groups ∈ candidates, ValidGroups topology.worldSize groups) :
    ∀ groups ∈ topology.addHierarchy payloadBytes candidates threshold,
      ValidGroups topology.worldSize groups := by
  obtain ⟨nonempty, partition⟩ := groupsWithin_partition topology payloadBytes threshold
  rw [addHierarchy]
  split
  · exact before
  case isFalse proper =>
    have several : 2 ≤ (topology.groupsWithin payloadBytes threshold).length := by
      push Not at proper
      exact proper.1
    split
    · exact before
    case h_2 optimized made =>
      have valid := optimizeHierarchy_valid made ⟨several, nonempty, partition⟩
      split
      · exact before
      · intro groups among
        rcases List.mem_append.mp among with old | new
        · exact before groups old
        · rw [List.mem_singleton.mp new]
          exact valid

/-- Every hierarchy that is proposed passes the check. -/
theorem hierarchyCandidates_valid :
    ∀ groups ∈ topology.hierarchyCandidates payloadBytes,
      ValidGroups topology.worldSize groups := by
  refine List.foldlRecOn
    (motive := fun candidates : List (List (List Nat)) =>
      ∀ groups ∈ candidates, ValidGroups topology.worldSize groups) _ _
        (fun _ absent => absurd absent List.not_mem_nil) ?_
  intro candidates before threshold _
  exact addHierarchy_valid threshold before

end CollectiveTopology

end RuCCL.Rank
