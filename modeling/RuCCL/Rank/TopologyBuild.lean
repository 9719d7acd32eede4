import RuCCL.Library.Result
import RuCCL.Library.Selection
import RuCCL.Rank.Topology

/-!
# Building topologies

The links of a topology are three kinds of square matrices, filled entry by entry.
Orders of ranks and rails and groups of ranks are checked where they come in.
-/

namespace RuCCL.Rank

open RuCCL.Library

def defaultRingThresholdBytes : Nat := 256 * 1024
def defaultBandwidthMbps : Nat := 32000
def defaultLatencyNs : Nat := 1000
def defaultHierarchyInferenceBytes : Nat := 16 * 1024 * 1024
def maxRingChannels : Nat := 64
def maxP2pRails : Nat := 64
def maxU32 : Nat := 2 ^ 32 - 1

/-- The environment variables of a tuning. -/
inductive TuningVariable where
  | collectiveAlgorithm | ringThresholdBytes | ringChannels | p2pRails
  | directBandwidthMbps | directLatencyNs | collectiveTransport
  | topologyLinks | topologyRailLinks | topologyAggregateLinks | railOrder
  | ringOrder | topologyGroups | topologyGroupPayloadBytes
  | collectiveAutotuneProfile
  deriving DecidableEq

/-- What is wrong with a ring. -/
inductive RingFault where
  | tooLarge
  | wrongLength (ranks expected : Nat)
  | repeatedRank (rank : Nat)
  | edgeMissing (first second : Nat)
  | notClosed
  deriving DecidableEq

inductive RailOrderFault where
  | wrongLength (rails expected : Nat)
  | outside (rail railCount : Nat)
  | repeatedRail (rail : Nat)
  deriving DecidableEq

inductive HierarchyFault where
  | tooFewGroups
  | emptyGroup (group : Nat)
  | repeatedRank (rank : Nat)
  | uncovered (ranks : List Nat)
  | zeroPayload
  | noDomains
  | policyNeedsGroups
  deriving DecidableEq

inductive ProfileFault where
  | notJson
  | notText
  | version (version : Nat)
  | worldSize (profile configured : Nat)
  | topologyFingerprint (fingerprint expected : List Char)
  | executionFingerprint (fingerprint expected : List Char)
  | noEntries
  | reversedRange (entry : CollectiveAutotuneEntry)
  | zeroTime (entry : CollectiveAutotuneEntry)
  | ringChannels (entry : CollectiveAutotuneEntry)
  | algorithm (entry : CollectiveAutotuneEntry)
  | needsGroups
  | overlap (kind : CollectiveKind) (first second : Nat × Nat)
  deriving DecidableEq

/-- The errors of the source; texts are kept as the values that they print. -/
inductive TopologyError where
  | emptyWorld
  | rankOutOfRange (rank worldSize : Nat)
  | selfLink (rank : Nat)
  | zeroBandwidth (firstRank secondRank : Nat)
  | zeroDirectBandwidth
  | profileRead
  | invalidProfile (fault : ProfileFault)
  | invalidRing (fault : RingFault)
  | invalidRingChannels (channels : Nat)
  | invalidP2pRails (rails : Nat)
  | invalidRailOrder (fault : RailOrderFault)
  | invalidHierarchy (fault : HierarchyFault)
  | invalidEnvironment (name : TuningVariable) (value : List Char)
  deriving DecidableEq

def validateRingChannels (channels : Nat) : Except TopologyError Unit :=
  rejectIf (channels = 0 ∨ channels > maxRingChannels) (.invalidRingChannels channels)

def validateP2pRails (rails : Nat) : Except TopologyError Unit :=
  rejectIf (rails = 0 ∨ rails > maxP2pRails) (.invalidP2pRails rails)

/-- Mark indices as seen, each of them below `size` and for the first time. -/
def markSeen (size : Nat) (outside repeated : Nat → TopologyError) :
    List Nat → List Nat → Except TopologyError (List Nat)
  | seen, [] => .ok seen
  | seen, index :: rest => do
      rejectIf (size ≤ index) (outside index)
      rejectIf (index ∈ seen) (repeated index)
      markSeen size outside repeated (index :: seen) rest

def validateRingOrder (worldSize : Nat) (order : List Nat) :
    Except TopologyError Unit := do
  rejectIf (worldSize = 0) .emptyWorld
  rejectIf (order.length ≠ worldSize) (.invalidRing (.wrongLength order.length worldSize))
  let _ ← markSeen worldSize (fun rank => .rankOutOfRange rank worldSize)
    (fun rank => .invalidRing (.repeatedRank rank)) [] order
  .ok ()

def validateRailOrder (railCount : Nat) (order : List Nat) :
    Except TopologyError Unit := do
  rejectIf (order.length ≠ railCount) (.invalidRailOrder (.wrongLength order.length railCount))
  let _ ← markSeen railCount (fun rail => .invalidRailOrder (.outside rail railCount))
    (fun rail => .invalidRailOrder (.repeatedRail rail)) [] order
  .ok ()

/-- Mark the ranks of the groups from the one at `index` on. -/
def markGroups (worldSize : Nat) :
    Nat → List Nat → List (List Nat) → Except TopologyError (List Nat)
  | _, seen, [] => .ok seen
  | index, seen, group :: rest => do
      rejectIf (group = []) (.invalidHierarchy (.emptyGroup index))
      let seen ← markSeen worldSize (fun rank => .rankOutOfRange rank worldSize)
        (fun rank => .invalidHierarchy (.repeatedRank rank)) seen group
      markGroups worldSize (index + 1) seen rest

def validateHierarchyGroups (worldSize : Nat) (groups : List (List Nat)) :
    Except TopologyError Unit := do
  rejectIf (groups.length < 2) (.invalidHierarchy .tooFewGroups)
  let seen ← markGroups worldSize 0 [] groups
  let missing := (List.range worldSize).filter fun rank => rank ∉ seen
  rejectIf (missing ≠ []) (.invalidHierarchy (.uncovered missing))

structure TopologyLink where
  firstRank : Nat
  secondRank : Nat
  bandwidthMbps : Nat
  latencyNs : Nat
  deriving DecidableEq

structure TopologyRailLink where
  rail : Nat
  firstRank : Nat
  secondRank : Nat
  bandwidthMbps : Nat
  latencyNs : Nat
  deriving DecidableEq

structure TopologyAggregateLink where
  firstRank : Nat
  secondRank : Nat
  bandwidthMbps : Nat
  deriving DecidableEq

/-- A matrix without entries. -/
def emptyMatrix (α : Type) (size : Nat) : List (List (Option α)) :=
  List.replicate size (List.replicate size none)

/-- Write an entry. -/
def setEntry {α : Type} (matrix : List (List (Option α)))
    (first second : Nat) (value : α) : List (List (Option α)) :=
  matrix.modify first fun row => row.set second (some value)

/-- Write an entry and the one of the opposite direction. -/
def setBoth {α : Type} (matrix : List (List (Option α)))
    (first second : Nat) (value : α) : List (List (Option α)) :=
  setEntry (setEntry matrix first second value) second first value

namespace CollectiveTopology

def empty (worldSize : Nat) : Except TopologyError CollectiveTopology := do
  rejectIf (worldSize = 0) .emptyWorld
  .ok
    { worldSize := worldSize
      links := emptyMatrix LinkCost worldSize
      railLinks := []
      aggregateLinks := emptyMatrix Nat worldSize }

variable (topology : CollectiveTopology)

def validateRank (rank : Nat) : Except TopologyError Unit := rejectIf (topology.worldSize ≤ rank)
    (.rankOutOfRange rank topology.worldSize)

/-- What every new link must satisfy. -/
def checkLink (firstRank secondRank bandwidthMbps : Nat) :
    Except TopologyError Unit := do
  topology.validateRank firstRank
  topology.validateRank secondRank
  rejectIf (firstRank = secondRank) (.selfLink firstRank)
  rejectIf (bandwidthMbps = 0) (.zeroBandwidth firstRank secondRank)

def addLink (link : TopologyLink) :
    Except TopologyError CollectiveTopology := do
  topology.checkLink link.firstRank link.secondRank link.bandwidthMbps
  .ok { topology with
    links := setBoth topology.links link.firstRank link.secondRank
      ⟨link.bandwidthMbps, link.latencyNs⟩ }

def addRailLink (link : TopologyRailLink) :
    Except TopologyError CollectiveTopology := do
  validateP2pRails (link.rail + 1)
  topology.checkLink link.firstRank link.secondRank link.bandwidthMbps
  let railLinks := topology.railLinks ++
    List.replicate (link.rail + 1 - topology.railLinks.length)
      (emptyMatrix LinkCost topology.worldSize)
  .ok { topology with
    railLinks := railLinks.modify link.rail fun links =>
      setBoth links link.firstRank link.secondRank ⟨link.bandwidthMbps, link.latencyNs⟩ }

def addAggregateLink (link : TopologyAggregateLink) :
    Except TopologyError CollectiveTopology := do
  topology.checkLink link.firstRank link.secondRank link.bandwidthMbps
  .ok { topology with
    aggregateLinks := setBoth topology.aggregateLinks link.firstRank
      link.secondRank link.bandwidthMbps }

/-- The ranks behind `first`. -/
def ranksBehind (worldSize first : Nat) : List Nat :=
  List.range' (first + 1) (worldSize - (first + 1))

def uniform (worldSize : Nat) :
    Except TopologyError CollectiveTopology := do
  rejectIf (worldSize = 0) .emptyWorld
  let topology ← empty worldSize
  (List.range worldSize).foldlM
    (fun topology first =>
      (ranksBehind worldSize first).foldlM
        (fun topology second => topology.addLink
          ⟨first, second, defaultBandwidthMbps, defaultLatencyNs⟩)
        topology)
    topology

/-- A square matrix whose entries are all good. -/
def Square {α : Type} (size : Nat) (good : α → Prop) (matrix : List (List (Option α))) : Prop :=
  matrix.length = size ∧ ∀ row ∈ matrix, row.length = size ∧
      ∀ entry ∈ row, ∀ value, entry = some value → good value

/-- Every rank has its row and its column, and no link has the bandwidth zero. -/
structure Shaped (topology : CollectiveTopology) : Prop where
  someRank : topology.worldSize ≠ 0
  links : Square topology.worldSize (fun cost => cost.bandwidthMbps ≠ 0) topology.links
  railLinks : ∀ links ∈ topology.railLinks,
    Square topology.worldSize (fun cost => cost.bandwidthMbps ≠ 0) links
  aggregateLinks : Square topology.worldSize (· ≠ 0) topology.aggregateLinks

theorem square_emptyMatrix {α : Type} {size : Nat} {good : α → Prop} :
    Square size good (emptyMatrix α size) := by
  refine ⟨List.length_replicate, fun row among => ?_⟩
  obtain ⟨_, rfl⟩ := List.mem_replicate.mp among
  refine ⟨List.length_replicate, fun entry inside value present => ?_⟩
  obtain ⟨_, rfl⟩ := List.mem_replicate.mp inside
  cases present

theorem mem_modify {α : Type} {items : List α} {index : Nat} {change : α → α}
    {item : α} (among : item ∈ items.modify index change) :
    ∃ old ∈ items, item = old ∨ item = change old := by
  obtain ⟨place, located⟩ := List.getElem?_of_mem among
  rw [List.getElem?_modify, Option.map_eq_map] at located
  obtain ⟨old, before, changed⟩ := Option.map_eq_some_iff.mp located
  refine ⟨old, List.mem_of_getElem? before, ?_⟩
  split at changed
  · exact Or.inr changed.symm
  · exact Or.inl changed.symm

theorem Square.setEntry {α : Type} {size : Nat} {good : α → Prop}
    {matrix : List (List (Option α))} (square : Square size good matrix)
    (first second : Nat) {value : α} (fine : good value) :
    Square size good (setEntry matrix first second value) := by
  obtain ⟨length, rows⟩ := square
  refine ⟨?_, fun row among => ?_⟩
  · rw [Rank.setEntry, List.length_modify, length]
  · obtain ⟨old, before, rfl | rfl⟩ := mem_modify among
    · exact rows row before
    · obtain ⟨width, entries⟩ := rows old before
      refine ⟨by rw [List.length_set, width], ?_⟩
      intro entry inside found present
      rcases List.mem_or_eq_of_mem_set inside with same | new
      · exact entries entry same found present
      · rw [new] at present
        cases present
        exact fine

theorem Square.setBoth {α : Type} {size : Nat} {good : α → Prop}
    {matrix : List (List (Option α))} (square : Square size good matrix)
    (first second : Nat) {value : α} (fine : good value) :
    Square size good (setBoth matrix first second value) :=
  (square.setEntry first second fine).setEntry second first fine

theorem shaped_empty {worldSize : Nat} {topology : CollectiveTopology}
    (made : empty worldSize = .ok topology) :
    topology.Shaped ∧ topology.worldSize = worldSize := by
  obtain ⟨_, some, made⟩ := of_bind made
  cases made
  refine ⟨⟨(rejectIf_eq_ok_iff ..).mp some, square_emptyMatrix, ?_, square_emptyMatrix⟩, rfl⟩
  intro links among
  cases among

variable {topology : CollectiveTopology}

theorem bandwidth_ne_zero {first second bandwidth : Nat} {done : Unit}
    (checked : topology.checkLink first second bandwidth = .ok done) :
    bandwidth ≠ 0 := by
  obtain ⟨_, _, checked⟩ := of_bind checked
  obtain ⟨_, _, checked⟩ := of_bind checked
  obtain ⟨_, _, checked⟩ := of_bind checked
  exact (rejectIf_eq_ok_iff ..).mp checked

/-- A topology as it was before, with new links. -/
structure Extends (before after : CollectiveTopology) : Prop where
  shaped : before.Shaped → after.Shaped
  worldSize : after.worldSize = before.worldSize

theorem extends_addLink {link : TopologyLink} {after : CollectiveTopology}
    (added : topology.addLink link = .ok after) :
    topology.Extends after := by
  obtain ⟨_, checked, added⟩ := of_bind added
  cases added
  refine ⟨fun shaped => ?_, rfl⟩
  exact ⟨shaped.someRank, shaped.links.setBoth _ _ (bandwidth_ne_zero checked),
    shaped.railLinks, shaped.aggregateLinks⟩

theorem extends_addRailLink {link : TopologyRailLink} {after : CollectiveTopology}
    (added : topology.addRailLink link = .ok after) :
    topology.Extends after := by
  obtain ⟨_, _, added⟩ := of_bind added
  obtain ⟨_, checked, added⟩ := of_bind added
  cases added
  refine ⟨fun shaped => ?_, rfl⟩
  refine ⟨shaped.someRank, shaped.links, ?_, shaped.aggregateLinks⟩
  have padded : ∀ links ∈ topology.railLinks ++
      List.replicate (link.rail + 1 - topology.railLinks.length)
        (emptyMatrix LinkCost topology.worldSize),
      Square topology.worldSize (fun cost => cost.bandwidthMbps ≠ 0)
        links := by
    intro links among
    rcases List.mem_append.mp among with old | new
    · exact shaped.railLinks links old
    · obtain ⟨_, rfl⟩ := List.mem_replicate.mp new
      exact square_emptyMatrix
  intro links among
  obtain ⟨old, before, rfl | rfl⟩ := mem_modify among
  · exact padded links before
  · exact (padded old before).setBoth _ _ (bandwidth_ne_zero checked)

theorem extends_addAggregateLink {link : TopologyAggregateLink} {after : CollectiveTopology}
    (added : topology.addAggregateLink link = .ok after) :
    topology.Extends after := by
  obtain ⟨_, checked, added⟩ := of_bind added
  cases added
  refine ⟨fun shaped => ?_, rfl⟩
  exact ⟨shaped.someRank, shaped.links, shaped.railLinks,
    shaped.aggregateLinks.setBoth _ _ (bandwidth_ne_zero checked)⟩

theorem Extends.trans {between after : CollectiveTopology}
    (first : topology.Extends between) (second : between.Extends after) :
    topology.Extends after :=
  ⟨fun shaped => second.shaped (first.shaped shaped), second.worldSize.trans first.worldSize⟩

theorem Extends.refl (before : CollectiveTopology) :
    before.Extends before :=
  ⟨id, rfl⟩

theorem extends_foldlM {α : Type} {items : List α}
    {action : CollectiveTopology → α → Except TopologyError CollectiveTopology}
    (each : ∀ before item after, action before item = .ok after →
      before.Extends after) {after : CollectiveTopology}
    (ran : items.foldlM action topology = .ok after) :
    topology.Extends after := by
  induction items generalizing topology with
  | nil =>
      cases ran
      exact .refl _
  | cons item rest ih =>
      rw [List.foldlM_cons] at ran
      obtain ⟨between, first, later⟩ := of_bind ran
      exact (each _ _ _ first).trans (ih later)

theorem shaped_uniform {worldSize : Nat} (made : uniform worldSize = .ok topology) :
    topology.Shaped ∧ topology.worldSize = worldSize := by
  obtain ⟨_, _, made⟩ := of_bind made
  obtain ⟨start, begun, made⟩ := of_bind made
  obtain ⟨shaped, sized⟩ := shaped_empty begun
  have extended : start.Extends topology := by
    refine extends_foldlM (fun before first after ran => ?_) made
    exact extends_foldlM (fun _ _ _ added => extends_addLink added) ran
  exact ⟨extended.shaped shaped, extended.worldSize.trans sized⟩

/-- The topologies that can be built. -/
inductive Built : CollectiveTopology → Prop
  | empty {worldSize : Nat} {topology : CollectiveTopology}
      (made : empty worldSize = .ok topology) : Built topology
  | uniform {worldSize : Nat} {topology : CollectiveTopology}
      (made : uniform worldSize = .ok topology) : Built topology
  | addLink {before after : CollectiveTopology} (link : TopologyLink)
      (built : Built before) (added : before.addLink link = .ok after) :
      Built after
  | addRailLink {before after : CollectiveTopology}
      (link : TopologyRailLink) (built : Built before)
      (added : before.addRailLink link = .ok after) : Built after
  | addAggregateLink {before after : CollectiveTopology}
      (link : TopologyAggregateLink) (built : Built before)
      (added : before.addAggregateLink link = .ok after) : Built after

theorem Built.shaped (built : Built topology) : topology.Shaped := by
  induction built with
  | empty made => exact (shaped_empty made).1
  | uniform made => exact (shaped_uniform made).1
  | addLink link _ added ih => exact (extends_addLink added).shaped ih
  | addRailLink link _ added ih => exact (extends_addRailLink added).shaped ih
  | addAggregateLink link _ added ih => exact (extends_addAggregateLink added).shaped ih

end CollectiveTopology

section Checks

theorem validateRingChannels_eq_ok_iff (channels : Nat) (done : Unit) :
    validateRingChannels channels = .ok done ↔ 1 ≤ channels ∧ channels ≤ maxRingChannels := by
  rw [validateRingChannels, rejectIf_eq_ok_iff]
  omega

theorem validateP2pRails_eq_ok_iff (rails : Nat) (done : Unit) :
    validateP2pRails rails = .ok done ↔ 1 ≤ rails ∧ rails ≤ maxP2pRails := by
  rw [validateP2pRails, rejectIf_eq_ok_iff]
  omega

variable {size : Nat} {outside repeated : Nat → TopologyError}

theorem markSeen_eq_ok_iff (seen order result : List Nat) (selection : Selection size seen) :
    markSeen size outside repeated seen order = .ok result ↔
      Selection size (seen ++ order) ∧ result = order.reverse ++ seen := by
  induction order generalizing seen with
  | nil =>
      rw [markSeen, List.append_nil, Except.ok.injEq]
      exact ⟨fun same => ⟨selection, same.symm⟩, fun same => same.2.symm⟩
  | cons index rest ih =>
      have moved : (seen ++ index :: rest).Perm ((index :: seen) ++ rest) := List.perm_middle
      rw [markSeen, bind_eq_ok_iff]
      simp only [rejectIf_eq_ok_iff, exists_const, bind_eq_ok_iff]
      constructor
      · rintro ⟨inside, fresh, marked⟩
        have next : Selection size (index :: seen) :=
          (selection.concat (Nat.lt_of_not_le inside) fresh).of_perm
            (List.perm_append_singleton index seen)
        obtain ⟨all, rfl⟩ := (ih _ next).mp marked
        exact ⟨all.of_perm moved.symm, by simp⟩
      · rintro ⟨all, rfl⟩
        have later := all.of_perm moved
        have next : Selection size (index :: seen) :=
          ⟨(List.nodup_append.mp later.nodup).1, fun other among =>
            later.bounded other (List.mem_append_left _ among)⟩
        refine ⟨Nat.not_le_of_lt (next.bounded index List.mem_cons_self),
          (List.nodup_cons.mp next.nodup).1, ?_⟩
        exact (ih _ next).mpr ⟨later, by simp⟩

/-- A list of as many different indices as there are is a permutation of them. -/
theorem checked_order_iff (order : List Nat) :
    (¬order.length ≠ size ∧ ∃ seen, markSeen size outside repeated [] order = .ok seen) ↔
      order.Perm (List.range size) := by
  simp only [markSeen_eq_ok_iff [] order _ .nil, List.nil_append,
    exists_and_left, exists_eq, and_true, not_not]
  constructor
  · rintro ⟨complete, selection⟩
    exact selection.perm complete
  · intro same
    refine ⟨?_, (Selection.range size).of_perm same.symm⟩
    rw [same.length_eq, List.length_range]

theorem validateRingOrder_eq_ok_iff (worldSize : Nat) (order : List Nat) (done : Unit) :
    validateRingOrder worldSize order = .ok done ↔
      worldSize ≠ 0 ∧ order.Perm (List.range worldSize) := by
  rw [validateRingOrder, bind_eq_ok_iff]
  simp only [rejectIf_eq_ok_iff, exists_const, bind_eq_ok_iff, and_true, checked_order_iff, ne_eq]

theorem validateRailOrder_eq_ok_iff (railCount : Nat) (order : List Nat) (done : Unit) :
    validateRailOrder railCount order = .ok done ↔ order.Perm (List.range railCount) := by
  rw [validateRailOrder, bind_eq_ok_iff]
  simp only [rejectIf_eq_ok_iff, exists_const, bind_eq_ok_iff, and_true, checked_order_iff]

theorem markGroups_eq_ok_iff (worldSize index : Nat)
    (seen result : List Nat) (groups : List (List Nat))
    (selection : Selection worldSize seen) :
    markGroups worldSize index seen groups = .ok result ↔
      ((∀ group ∈ groups, group ≠ []) ∧ Selection worldSize (seen ++ groups.flatten)) ∧
        result = groups.flatten.reverse ++ seen := by
  induction groups generalizing index seen with
  | nil => simp [markGroups, selection, eq_comm]
  | cons group rest ih =>
      have turned (ranks : List Nat) :
          (seen ++ (group ++ ranks)).Perm ((group.reverse ++ seen) ++ ranks) := by
        rw [← List.append_assoc]
        exact (List.perm_append_comm.trans
          ((List.reverse_perm group).symm.append_right seen)).append_right _
      rw [markGroups, bind_eq_ok_iff]
      simp only [rejectIf_eq_ok_iff, exists_const, bind_eq_ok_iff,
        markSeen_eq_ok_iff seen group _ selection]
      constructor
      · rintro ⟨some, _, ⟨own, rfl⟩, marked⟩
        have next : Selection worldSize (group.reverse ++ seen) := by
          refine own.of_perm ?_
          simpa using turned []
        obtain ⟨⟨others, all⟩, rfl⟩ := (ih _ _ next).mp marked
        refine ⟨⟨?_, ?_⟩, by simp⟩
        · exact List.forall_mem_cons.mpr ⟨some, others⟩
        · exact all.of_perm (turned rest.flatten).symm
      · rintro ⟨⟨some, all⟩, rfl⟩
        obtain ⟨first, others⟩ := List.forall_mem_cons.mp some
        have later := all.of_perm (turned rest.flatten)
        have next : Selection worldSize (group.reverse ++ seen) :=
          ⟨(List.nodup_append.mp later.nodup).1, fun other among =>
            later.bounded other (List.mem_append_left _ among)⟩
        refine ⟨first, _, ⟨?_, rfl⟩, (ih _ _ next).mpr ⟨⟨others, later⟩, by simp⟩⟩
        refine next.of_perm ?_
        simpa using (turned []).symm

/-- Groups of ranks that the check accepts: two or more, none of them empty, with
each rank in one of them. -/
structure ValidGroups (worldSize : Nat) (groups : List (List Nat)) : Prop where
  several : 2 ≤ groups.length
  nonempty : ∀ group ∈ groups, group ≠ []
  partition : groups.flatten.Perm (List.range worldSize)

theorem validateHierarchyGroups_eq_ok_iff (worldSize : Nat)
    (groups : List (List Nat)) (done : Unit) :
    validateHierarchyGroups worldSize groups = .ok done ↔
      ValidGroups worldSize groups := by
  have covered (all : Selection worldSize groups.flatten) :
      ¬((List.range worldSize).filter fun rank =>
        rank ∉ groups.flatten.reverse ++ []) ≠ [] ↔
      groups.flatten.Perm (List.range worldSize) := by
    rw [not_not, List.filter_eq_nil_iff]
    simp only [List.mem_range, List.append_nil, List.mem_reverse, decide_eq_true_eq, not_not]
    constructor
    · exact all.perm_of_mem
    · intro same rank inside
      exact same.mem_iff.mpr (List.mem_range.mpr inside)
  rw [validateHierarchyGroups, bind_eq_ok_iff]
  simp only [rejectIf_eq_ok_iff, exists_const, bind_eq_ok_iff,
    markGroups_eq_ok_iff worldSize 0 [] _ groups .nil, List.nil_append]
  constructor
  · rintro ⟨several, _, ⟨⟨nonempty, all⟩, rfl⟩, complete⟩
    exact ⟨Nat.le_of_not_lt several, nonempty, (covered all).mp complete⟩
  · intro valid
    have all := (Selection.range worldSize).of_perm valid.partition.symm
    exact ⟨Nat.not_lt_of_le valid.several, _,
      ⟨⟨valid.nonempty, all⟩, rfl⟩, (covered all).mpr valid.partition⟩

end Checks

end RuCCL.Rank
