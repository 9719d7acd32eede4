import Mathlib.Data.List.Destutter
import RuCCL.Rank.TopologyBuild

/-!
# Rings of a topology

Small worlds are searched for all closed rings, larger ones greedily from each
rank.  Among the rings that are found, the selected ones use each link as rarely as
possible.
-/

namespace RuCCL.Rank

open RuCCL.Library

def exactRingSearchMaxRanks : Nat := 9
def maxU16 : Nat := 2 ^ 16 - 1

/-- How often each link is used by the rings that have been selected. -/
abbrev EdgeUsage := Nat → Nat → Nat

namespace CollectiveTopology

variable (topology : CollectiveTopology)

def ringScore (order : List Nat) : Except TopologyError RingScore := do
  validateRingOrder topology.worldSize order
  let (bottleneck, bandwidth, latency) ← (CollectiveTuning.ringPairs order).foldlM
      (fun (bottleneck, bandwidth, latency) (first, second) => do
        let cost ← okOr (topology.link first second) (.invalidRing (.edgeMissing first second))
        .ok (min bottleneck cost.bandwidthMbps,
          bandwidth + cost.bandwidthMbps, latency + cost.latencyNs))
      (maxU64, 0, 0)
  .ok ⟨bottleneck, bandwidth, maxU128 - latency⟩

/-- The order with the other direction. -/
def reversedRing (order : List Nat) : List Nat := 0 :: order.tail.reverse

/-- The rings that begin with `order`, of which `remaining` ranks are missing; of two
directions the smaller one is kept. -/
def collectRings : Nat → List Nat → List (List Nat)
  | 0, order =>
      if topology.link (order.getLastD 0) (order.headD 0) = none then []
      else if order ≤ reversedRing order then [order]
      else []
  | remaining + 1, order =>
      ((List.range' 1 (topology.worldSize - 1)).filter fun candidate =>
        candidate ∉ order ∧ topology.link (order.getLastD 0) candidate ≠ none).flatMap
        fun candidate => collectRings remaining (order ++ [candidate])

/-- The ranks that can follow `current`, with their links. -/
def successors (order : List Nat) (current : Nat) : List (Nat × LinkCost) :=
  ((List.range topology.worldSize).filter fun rank => rank ∉ order).filterMap
    fun rank => (topology.link current rank).map fun cost => (rank, cost)

/-- Greatest bandwidth, then least latency, then least rank. -/
def successorKey (successor : Nat × LinkCost) : List Nat :=
  [successor.2.bandwidthMbps, maxU64 - successor.2.latencyNs, maxU32 - successor.1]

/-- Follow the best links for `remaining` more ranks; nothing is left of a ring that
cannot go on. -/
def extendRing : Nat → List Nat → List Nat
  | 0, order => order
  | remaining + 1, order =>
      match bestBy (fun item kept => decide (successorKey kept ≤ successorKey item))
          (topology.successors order (order.getLastD 0)) with
      | none => []
      | some (next, _) => extendRing remaining (order ++ [next])

def rotateRingToZero (order : List Nat) : List Nat :=
  let rotated :=
    if 0 ∈ order then order.drop (order.idxOf 0) ++ order.take (order.idxOf 0)
    else order
  if reversedRing rotated < rotated then reversedRing rotated else rotated

/-- Add the greedy ring from `start`, when it is closed and a new one. -/
def addGreedyRing (candidates : List (List Nat)) (start : Nat) : List (List Nat) :=
  let order := topology.extendRing (topology.worldSize - 1) [start]
  if order.length ≠ topology.worldSize then candidates
  else if topology.link (order.getLastD 0) (order.headD 0) = none then
    candidates
  else if rotateRingToZero order ∈ candidates then candidates
  else candidates ++ [rotateRingToZero order]

def greedyRings : List (List Nat) :=
  (List.range topology.worldSize).foldl topology.addGreedyRing []

/-- Least use of the most used link, least use of all links, best score. -/
def diverseKey (usage : EdgeUsage) (order : List Nat) :
    Except TopologyError (List Nat) := do
  let pairs := CollectiveTuning.ringPairs order
  let maximumUsage := pairs.foldl (fun most (first, second) => max most (usage first second)) 0
  let totalUsage := pairs.foldl
    (fun total (first, second) => saturate64 (total + usage first second)) 0
  let score ← topology.ringScore order
  .ok [maxU16 - maximumUsage, maxU64 - totalUsage, score.bottleneck,
    score.totalBandwidth, score.inverseLatency]

/-- Count the links of a ring in both directions. -/
def useEdges (usage : EdgeUsage) (order : List Nat) : EdgeUsage :=
  (CollectiveTuning.ringPairs order).foldl
    (fun usage (first, second) =>
      let forward : EdgeUsage := fun source destination =>
        if source = first ∧ destination = second then
          min (usage source destination + 1) maxU16
        else usage source destination
      fun source destination =>
        if source = second ∧ destination = first then
          min (forward source destination + 1) maxU16
        else forward source destination)
    usage

/-- Select at most `maximum` rings, each time the first of those with the greatest
key. -/
def selectRings : Nat → EdgeUsage → List (List Nat) → Except TopologyError (List (List Nat))
  | 0, _, _ => .ok []
  | maximum + 1, usage, candidates => do
      let keys ← candidates.mapM (topology.diverseKey usage)
      match bestBy (fun item kept => decide (kept.1 < item.1)) (keys.zip candidates.zipIdx) with
      | none => .ok []
      | some (_, order, index) => do
          let rest ← selectRings maximum (useEdges usage order) (candidates.eraseIdx index)
          .ok (order :: rest)

def selectDiverseRings (candidates : List (List Nat)) (maximum : Nat) :
    Except TopologyError (List (List Nat)) := do
  rejectIf (candidates = []) (.invalidRing .notClosed)
  topology.selectRings maximum (fun _ _ => 0)
    ((candidates.mergeSort fun first second =>
      decide (first ≤ second)).destutter (· ≠ ·))

def bestRingOrders (maximum : Nat) : Except TopologyError (List (List Nat)) :=
  if maximum = 0 then .ok []
  else if topology.worldSize = 1 then .ok [[0]]
  else if topology.worldSize ≤ exactRingSearchMaxRanks then
    topology.selectDiverseRings (topology.collectRings (topology.worldSize - 1) [0]) maximum
  else topology.selectDiverseRings topology.greedyRings maximum

/-- The first of the best rings; there is one, see `bestRingOrders_spec`. -/
def bestRingOrder : Except TopologyError (List Nat) := do
  let orders ← topology.bestRingOrders 1
  .ok (orders.headD [])

end CollectiveTopology

/-- The links of a ring without their directions. -/
def ringEdges (order : List Nat) : List (Nat × Nat) :=
  ((CollectiveTuning.ringPairs order).map fun (first, second) =>
    (min first second, max first second)).mergeSort fun first second =>
      first.1 < second.1 ∨ (first.1 = second.1 ∧ first.2 ≤ second.2)

/-- Add a ring whose links are not those of another one. -/
def addRing (primary : List Nat) (orders : List (List Nat))
    (candidate : List Nat) : List (List Nat) :=
  if ringEdges candidate ≠ ringEdges primary ∧
      ∀ order ∈ orders, ringEdges order ≠ ringEdges candidate then
    orders ++ [candidate]
  else orders

def ringOrdersWithPrimary (topology : CollectiveTopology)
    (primary : List Nat) : List (List Nat) :=
  match topology.bestRingOrders maxRingChannels with
  | .error _ => [primary]
  | .ok candidates => candidates.foldl (addRing primary) [primary]

namespace CollectiveTopology

variable {topology : CollectiveTopology}

theorem collectRings_perm {remaining : Nat} {order ring : List Nat}
    (selection : Selection topology.worldSize order)
    (missing : order.length + remaining = topology.worldSize)
    (found : ring ∈ topology.collectRings remaining order) :
    ring.Perm (List.range topology.worldSize) := by
  induction remaining generalizing order with
  | zero =>
      rw [collectRings] at found
      split at found
      · cases found
      · split at found
        · rw [List.mem_singleton.mp found]
          exact selection.perm missing
        · cases found
  | succ remaining ih =>
      rw [collectRings] at found
      obtain ⟨candidate, chosen, later⟩ := List.mem_flatMap.mp found
      obtain ⟨among, usable⟩ := List.mem_filter.mp chosen
      have fresh := (of_decide_eq_true usable).1
      have inside : candidate < topology.worldSize := by
        obtain ⟨step, bound, rfl⟩ := List.mem_range'.mp among
        omega
      refine ih (selection.concat inside fresh) ?_ later
      rw [List.length_append, List.length_singleton]
      omega

theorem mem_successors {order : List Nat} {current next : Nat} {cost : LinkCost}
    (found : (next, cost) ∈ topology.successors order current) :
    next < topology.worldSize ∧ next ∉ order := by
  obtain ⟨rank, among, linked⟩ := List.mem_filterMap.mp found
  obtain ⟨_, _, same⟩ := Option.map_eq_some_iff.mp linked
  cases same
  obtain ⟨inside, fresh⟩ := List.mem_filter.mp among
  exact ⟨List.mem_range.mp inside, of_decide_eq_true fresh⟩

theorem selection_extendRing {remaining : Nat} {order : List Nat}
    (selection : Selection topology.worldSize order) :
    Selection topology.worldSize (topology.extendRing remaining order) := by
  induction remaining generalizing order with
  | zero => exact selection
  | succ remaining ih =>
      rw [extendRing]
      split
      case h_1 => exact .nil
      case h_2 next cost best =>
        obtain ⟨inside, fresh⟩ := mem_successors (mem_of_bestBy best)
        exact ih (selection.concat inside fresh)

theorem reversedRing_perm {rest : List Nat} : (reversedRing (0 :: rest)).Perm (0 :: rest) :=
  (List.reverse_perm rest).cons 0

theorem rotateRingToZero_perm {order : List Nat} (zero : 0 ∈ order) :
    (rotateRingToZero order).Perm order := by
  have inside := List.idxOf_lt_length_iff.mpr zero
  have front : order.drop (order.idxOf 0) = 0 :: order.drop (order.idxOf 0 + 1) := by
    rw [List.drop_eq_getElem_cons inside, List.getElem_idxOf]
  have turned : (order.drop (order.idxOf 0) ++ order.take (order.idxOf 0)).Perm order := by
    refine List.perm_append_comm.trans ?_
    rw [List.take_append_drop]
  rw [rotateRingToZero, if_pos zero]
  rw [front, List.cons_append] at turned ⊢
  split
  · exact reversedRing_perm.trans turned
  · exact turned

theorem addGreedyRing_perm {candidates : List (List Nat)} {start : Nat}
    (inside : start < topology.worldSize)
    (before : ∀ ring ∈ candidates, ring.Perm (List.range topology.worldSize)) :
    ∀ ring ∈ topology.addGreedyRing candidates start,
      ring.Perm (List.range topology.worldSize) := by
  have selection : Selection topology.worldSize
      (topology.extendRing (topology.worldSize - 1) [start]) :=
    selection_extendRing (.singleton inside)
  rw [addGreedyRing]
  generalize topology.extendRing (topology.worldSize - 1) [start] = order at selection
  split
  · exact before
  case isFalse complete =>
    have all := selection.perm (not_not.mp complete)
    have zero : 0 ∈ order := all.mem_iff.mpr
      (List.mem_range.mpr (lt_of_le_of_lt (Nat.zero_le _) inside))
    split
    · exact before
    · split
      · exact before
      · intro ring among
        rcases List.mem_append.mp among with old | new
        · exact before ring old
        · rw [List.mem_singleton.mp new]
          exact (rotateRingToZero_perm zero).trans all

theorem greedyRings_perm :
    ∀ ring ∈ topology.greedyRings, ring.Perm (List.range topology.worldSize) := by
  refine List.foldlRecOn (motive := fun candidates : List (List Nat) =>
    ∀ ring ∈ candidates, ring.Perm (List.range topology.worldSize)) _ _
      (fun _ absent => absurd absent List.not_mem_nil) ?_
  intro candidates before start among
  exact addGreedyRing_perm (List.mem_range.mp among) before

theorem selectRings_subset {maximum : Nat} {usage : EdgeUsage}
    {candidates selected : List (List Nat)}
    (ran : topology.selectRings maximum usage candidates = .ok selected) :
    ∀ ring ∈ selected, ring ∈ candidates := by
  induction maximum generalizing usage candidates selected with
  | zero =>
      cases ran
      exact fun _ absent => absurd absent List.not_mem_nil
  | succ maximum ih =>
      obtain ⟨keys, _, ran⟩ := of_bind ran
      split at ran
      case h_1 =>
        cases ran
        exact fun _ absent => absurd absent List.not_mem_nil
      case h_2 key order index best =>
        obtain ⟨rest, later, same⟩ := of_bind ran
        cases same
        have own : order ∈ candidates := by
          have indexed := (List.of_mem_zip (mem_of_bestBy best)).2
          exact List.mem_of_getElem? (List.mk_mem_zipIdx_iff_getElem?.mp indexed)
        intro ring among
        rcases List.mem_cons.mp among with rfl | behind
        · exact own
        · exact List.mem_of_mem_eraseIdx (ih later ring behind)

theorem selectRings_ne_nil {maximum : Nat} {usage : EdgeUsage}
    {candidates selected : List (List Nat)} (some : candidates ≠ [])
    (ran : topology.selectRings (maximum + 1) usage candidates =
      .ok selected) : selected ≠ [] := by
  obtain ⟨keys, keyed, ran⟩ := of_bind ran
  split at ran
  case h_1 none =>
    have length : keys.length = candidates.length := by
      have lengths := congrArg List.length (mapM_eq_ok_iff.mp keyed)
      rw [List.length_map, List.length_map] at lengths
      exact lengths.symm
    have present : keys.zip candidates.zipIdx ≠ [] := by
      rw [← List.length_pos_iff] at some ⊢
      rw [List.length_zip, List.length_zipIdx, length, Nat.min_self]
      exact some
    have found := bestBy_isSome present fun item kept => decide (kept.1 < item.1)
    rw [none] at found
    cases found
  case h_2 key order index best =>
    obtain ⟨rest, _, same⟩ := of_bind ran
    cases same
    exact List.cons_ne_nil _ _

theorem mem_of_mem_destutter {α : Type} [DecidableEq α] {items : List α}
    {item : α} (among : item ∈ items.destutter (· ≠ ·)) : item ∈ items :=
  (List.destutter_sublist _ _).subset among

/-- The rings of a selection are among the candidates, and there is one when any
may be selected. -/
theorem selectDiverseRings_spec {candidates selected : List (List Nat)} {maximum : Nat}
    (ran : topology.selectDiverseRings candidates maximum = .ok selected) :
    (∀ ring ∈ selected, ring ∈ candidates) ∧ (0 < maximum → selected ≠ []) := by
  obtain ⟨_, present, ran⟩ := of_bind ran
  have some := (rejectIf_eq_ok_iff ..).mp present
  refine ⟨fun ring among => ?_, fun positive => ?_⟩
  · exact List.mem_mergeSort.mp (mem_of_mem_destutter (selectRings_subset ran ring among))
  · obtain ⟨less, rfl⟩ := Nat.exists_eq_succ_of_ne_zero (Nat.ne_of_gt positive)
    refine selectRings_ne_nil ?_ ran
    rw [Ne, List.destutter_eq_nil]
    intro none
    have length := congrArg List.length none
    rw [List.length_mergeSort, List.length_nil, List.length_eq_zero_iff] at length
    exact some length

theorem bestRingOrders_spec {maximum : Nat} {orders : List (List Nat)}
    (some : topology.worldSize ≠ 0)
    (found : topology.bestRingOrders maximum = .ok orders) :
    (∀ order ∈ orders, order.Perm (List.range topology.worldSize)) ∧
      (0 < maximum → orders ≠ []) := by
  rw [bestRingOrders] at found
  split at found
  case isTrue zero =>
    cases found
    exact ⟨fun _ absent => absurd absent List.not_mem_nil,
      fun positive => absurd zero (Nat.ne_of_gt positive)⟩
  split at found
  case isTrue one =>
    cases found
    refine ⟨fun order among => ?_, fun _ => List.cons_ne_nil _ _⟩
    rw [List.mem_singleton.mp among, one]
    rfl
  split at found
  case isTrue =>
    obtain ⟨subset, present⟩ := selectDiverseRings_spec found
    refine ⟨fun order among => ?_, present⟩
    have first : Selection topology.worldSize [0] := .singleton (Nat.pos_of_ne_zero some)
    refine collectRings_perm first ?_ (subset order among)
    rw [List.length_singleton]
    omega
  case isFalse =>
    obtain ⟨subset, present⟩ := selectDiverseRings_spec found
    exact ⟨fun order among => greedyRings_perm order (subset order among), present⟩

theorem bestRingOrder_perm {order : List Nat} (some : topology.worldSize ≠ 0)
    (found : topology.bestRingOrder = .ok order) :
    order.Perm (List.range topology.worldSize) := by
  obtain ⟨orders, ran, same⟩ := of_bind found
  obtain ⟨all, present⟩ := bestRingOrders_spec some ran
  cases orders with
  | nil => exact absurd rfl (present Nat.one_pos)
  | cons first rest =>
      cases same
      exact all first List.mem_cons_self

end CollectiveTopology

theorem addRing_perm {worldSize : Nat} {primary candidate : List Nat} {orders : List (List Nat)}
    (own : candidate.Perm (List.range worldSize))
    (before : orders ≠ [] ∧ ∀ order ∈ orders, order.Perm (List.range worldSize)) :
    addRing primary orders candidate ≠ [] ∧ ∀ order ∈ addRing primary orders candidate,
        order.Perm (List.range worldSize) := by
  rw [addRing]
  split
  · refine ⟨List.append_ne_nil_of_left_ne_nil before.1 _, ?_⟩
    intro order among
    rcases List.mem_append.mp among with old | new
    · exact before.2 order old
    · rw [List.mem_singleton.mp new]
      exact own
  · exact before

/-- A primary ring is the first of all rings, and all of them visit all ranks. -/
theorem ringOrdersWithPrimary_perm {topology : CollectiveTopology}
    {primary : List Nat} (some : topology.worldSize ≠ 0)
    (all : primary.Perm (List.range topology.worldSize)) :
    ringOrdersWithPrimary topology primary ≠ [] ∧
      ∀ order ∈ ringOrdersWithPrimary topology primary,
        order.Perm (List.range topology.worldSize) := by
  have alone : ([primary] : List (List Nat)) ≠ [] ∧
      ∀ order ∈ [primary], order.Perm (List.range topology.worldSize) := by
    refine ⟨List.cons_ne_nil _ _, fun order among => ?_⟩
    rw [List.mem_singleton.mp among]
    exact all
  rw [ringOrdersWithPrimary]
  split
  · exact alone
  case h_2 candidates found =>
    have fine := (CollectiveTopology.bestRingOrders_spec some found).1
    refine List.foldlRecOn (motive := fun orders : List (List Nat) =>
      orders ≠ [] ∧ ∀ order ∈ orders, order.Perm (List.range topology.worldSize)) _ _ alone ?_
    intro orders before candidate among
    exact addRing_perm (fine candidate among) before

end RuCCL.Rank
