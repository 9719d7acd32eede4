import RuCCL.Library.Text
import RuCCL.Rank.TopologyBuild

/-!
# Topologies as text

Links, orders and groups are written as lists with separators.  A text that cannot be
read is an error that names its variable and shows the text.
-/

namespace RuCCL.Rank

open RuCCL.Library

/-- The entries of a list with commas; blank ones are left out. -/
def listEntries (value : List Char) : List (List Char) :=
  (value.splitOn ',').filter fun entry => trim entry ≠ []

/-- Two ranks and what is known of their link: `first-second:bandwidth:latency`. -/
def parseLink (text : List Char) : Option TopologyLink := do
  let (ranks, metrics) ← splitOnce ':' text
  let (first, second) ← splitOnce '-' ranks
  let (bandwidth, latency) ← splitOnce ':' metrics
  let first ← parseUnsigned maxU32 (trim first)
  let second ← parseUnsigned maxU32 (trim second)
  let bandwidth ← parseUnsigned maxU64 (trim bandwidth)
  let latency ← parseUnsigned maxU64 (trim latency)
  some ⟨first, second, bandwidth, latency⟩

/-- A link on one of the rails: `rail@first-second:bandwidth:latency`. -/
def parseRailLink (p2pRails : Nat) (text : List Char) :
    Option TopologyRailLink := do
  let (rail, link) ← splitOnce '@' text
  let rail ← parseUnsigned maxU64 (trim rail)
  if rail ≥ p2pRails then none
  else do
    let link ← parseLink link
    some ⟨rail, link.firstRank, link.secondRank, link.bandwidthMbps, link.latencyNs⟩

/-- The bandwidth of all rails together: `first-second:bandwidth`. -/
def parseAggregateLink (text : List Char) :
    Option TopologyAggregateLink := do
  let (ranks, bandwidth) ← splitOnce ':' text
  let (first, second) ← splitOnce '-' ranks
  let first ← parseUnsigned maxU32 (trim first)
  let second ← parseUnsigned maxU32 (trim second)
  let bandwidth ← parseUnsigned maxU64 (trim bandwidth)
  some ⟨first, second, bandwidth⟩

def parseTopologyLinks (worldSize : Nat) (value : List Char) :
    Except TopologyError CollectiveTopology := do
  let topology ← CollectiveTopology.empty worldSize
  (listEntries value).foldlM
    (fun topology encoded => do
      let link ← okOr (parseLink (trim encoded)) (.invalidEnvironment .topologyLinks value)
      topology.addLink link)
    topology

def parseTopologyRailLinks (topology : CollectiveTopology) (value : List Char) (p2pRails : Nat) :
    Except TopologyError CollectiveTopology :=
  (listEntries value).foldlM
    (fun topology encoded => do
      let link ← okOr (parseRailLink p2pRails (trim encoded))
        (.invalidEnvironment .topologyRailLinks value)
      topology.addRailLink link)
    topology

def parseTopologyAggregateLinks (topology : CollectiveTopology)
    (value : List Char) : Except TopologyError CollectiveTopology :=
  (listEntries value).foldlM
    (fun topology encoded => do
      let link ← okOr (parseAggregateLink (trim encoded))
        (.invalidEnvironment .topologyAggregateLinks value)
      topology.addAggregateLink link)
    topology

/-- Numbers with commas between them. -/
def parseIndices (limit : Nat) (entries : List (List Char)) : Option (List Nat) :=
  entries.mapM fun entry => parseUnsigned limit (trim entry)

def parseRingOrder (worldSize : Nat) (value : List Char) :
    Except TopologyError (List Nat) := do
  let order ← okOr (parseIndices maxU32 (value.splitOn ','))
    (.invalidEnvironment .ringOrder value)
  validateRingOrder worldSize order
  .ok order

def parseRailOrder (railCount : Nat) (value : List Char) :
    Except TopologyError (List Nat) := do
  let order ← okOr (parseIndices maxU64 (value.splitOn ','))
    (.invalidEnvironment .railOrder value)
  validateRailOrder railCount order
  .ok order

def parseHierarchyGroups (worldSize : Nat) (value : List Char) :
    Except TopologyError (List (List Nat)) := do
  let groups ← okOr ((value.splitOn ';').mapM fun group =>
      parseIndices maxU32 (listEntries group))
    (.invalidEnvironment .topologyGroups value)
  validateHierarchyGroups worldSize groups
  .ok groups

section Shapes

variable {topology : CollectiveTopology} {value : List Char}

theorem shaped_parseTopologyLinks {worldSize : Nat}
    (parsed : parseTopologyLinks worldSize value = .ok topology) :
    topology.Shaped ∧ topology.worldSize = worldSize := by
  obtain ⟨start, begun, parsed⟩ := of_bind parsed
  obtain ⟨shaped, sized⟩ := CollectiveTopology.shaped_empty begun
  have extended : start.Extends topology := by
    refine CollectiveTopology.extends_foldlM (fun before encoded after ran => ?_) parsed
    obtain ⟨link, _, added⟩ := of_bind ran
    exact CollectiveTopology.extends_addLink added
  exact ⟨extended.shaped shaped, extended.worldSize.trans sized⟩

theorem extends_parseTopologyRailLinks {p2pRails : Nat} {after : CollectiveTopology}
    (parsed : parseTopologyRailLinks topology value p2pRails = .ok after) :
    topology.Extends after := by
  refine CollectiveTopology.extends_foldlM (fun before encoded after ran => ?_) parsed
  obtain ⟨link, _, added⟩ := of_bind ran
  exact CollectiveTopology.extends_addRailLink added

theorem extends_parseTopologyAggregateLinks {after : CollectiveTopology}
    (parsed : parseTopologyAggregateLinks topology value = .ok after) :
    topology.Extends after := by
  refine CollectiveTopology.extends_foldlM (fun before encoded after ran => ?_) parsed
  obtain ⟨link, _, added⟩ := of_bind ran
  exact CollectiveTopology.extends_addAggregateLink added

theorem parseRingOrder_perm {worldSize : Nat} {order : List Nat}
    (parsed : parseRingOrder worldSize value = .ok order) :
    order.Perm (List.range worldSize) := by
  obtain ⟨_, _, parsed⟩ := of_bind parsed
  obtain ⟨_, checked, same⟩ := of_bind parsed
  cases same
  exact ((validateRingOrder_eq_ok_iff ..).mp checked).2

theorem parseRailOrder_perm {railCount : Nat} {order : List Nat}
    (parsed : parseRailOrder railCount value = .ok order) :
    order.Perm (List.range railCount) := by
  obtain ⟨_, _, parsed⟩ := of_bind parsed
  obtain ⟨_, checked, same⟩ := of_bind parsed
  cases same
  exact (validateRailOrder_eq_ok_iff ..).mp checked

theorem parseHierarchyGroups_valid {worldSize : Nat} {groups : List (List Nat)}
    (parsed : parseHierarchyGroups worldSize value = .ok groups) :
    ValidGroups worldSize groups := by
  obtain ⟨_, _, parsed⟩ := of_bind parsed
  obtain ⟨_, checked, same⟩ := of_bind parsed
  cases same
  exact (validateHierarchyGroups_eq_ok_iff ..).mp checked

end Shapes

end RuCCL.Rank
