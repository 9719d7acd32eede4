import RuCCL.Rank.Layout

/-!
# Topology-aware planning

Links have a bandwidth and a latency, and the plan of a collective compares the
estimated times of its algorithms.  Ranks, sizes and times are naturals; where
the source saturates, so does the model.
-/

namespace RuCCL.Rank

open RuCCL.Library

def maxU64 : Nat := 2 ^ 64 - 1
def maxU128 : Nat := 2 ^ 128 - 1

def saturate64 (value : Nat) : Nat := min value maxU64
def saturate128 (value : Nat) : Nat := min value maxU128

def divCeil (value parts : Nat) : Nat := value / parts + if value % parts = 0 then 0 else 1

/-- The greatest of some values, when there is one. -/
def maximum (values : List Nat) : Option Nat :=
  values.foldl (fun best value => some (max (best.getD 0) value)) none

inductive CollectiveAlgorithm where
  | direct | ring | pairwise | hierarchical
  deriving DecidableEq

inductive AlgorithmPolicy where
  | auto | direct | ring | hierarchical
  deriving DecidableEq

inductive CollectiveKind where
  | allReduce | allGather | reduceScatter | allToAll
  deriving DecidableEq

inductive CollectivePlanSource where
  | policy | autotune | model
  deriving DecidableEq

structure LinkCost where
  bandwidthMbps : Nat
  latencyNs : Nat
  deriving DecidableEq

structure CollectiveTopology where
  worldSize : Nat
  links : List (List (Option LinkCost))
  railLinks : List (List (List (Option LinkCost)))
  aggregateLinks : List (List (Option Nat))
  deriving DecidableEq

structure CollectiveAutotuneEntry where
  operation : CollectiveKind
  minPayloadBytes : Nat
  maxPayloadBytes : Nat
  algorithm : CollectiveAlgorithm
  ringChannels : Nat
  measuredTimeNs : Nat
  deriving DecidableEq

/-- The part of a tuning that plans are made from. -/
structure CollectiveTuning where
  algorithmPolicy : AlgorithmPolicy
  ringThresholdBytes : Nat
  ringOrder : List Nat
  ringOrders : List (List Nat)
  ringChannels : Nat
  p2pRails : Nat
  railOrderOverride : Option (List Nat)
  hierarchyGroups : Option (List (List Nat))
  topology : CollectiveTopology
  directBandwidthMbps : Nat
  directLatencyNs : Nat
  autotuneEntries : Option (List CollectiveAutotuneEntry)
  deriving DecidableEq

structure CollectivePlan where
  algorithm : CollectiveAlgorithm
  source : CollectivePlanSource
  estimatedTimeNs : Nat
  directEstimatedTimeNs : Nat
  peerEstimatedTimeNs : Option Nat
  hierarchicalEstimatedTimeNs : Option Nat
  ringChannels : Nat
  deriving DecidableEq

def transferTimeNsU128 (bytes bandwidthMbps : Nat) : Nat :=
  saturate128 (saturate128 (bytes * 1000) + (bandwidthMbps - 1)) / bandwidthMbps

def transferTimeNs (bytes bandwidthMbps : Nat) : Nat :=
  saturate64 (transferTimeNsU128 bytes bandwidthMbps)

def linkTransferTimeNs (link : LinkCost) (bytes : Nat) : Nat :=
  saturate64 (link.latencyNs + transferTimeNs bytes link.bandwidthMbps)

def balancedSizes (total parts : Nat) : List Nat := (List.range parts).map fun part =>
    total / parts + if part < total % parts then 1 else 0

/-- Bytes under way between pairs of ranks. -/
abbrev Traffic := Nat → Nat → Nat

def Traffic.add (traffic : Traffic) (source destination bytes : Nat) : Traffic :=
  fun first second =>
    if first = source ∧ second = destination then
      saturate64 (traffic first second + bytes)
    else traffic first second

/-- The times of the rails and the traffic, while channels are assigned. -/
structure Load where
  railTimes : List Nat
  traffic : Traffic

def Load.idle (rails : Nat) : Load := ⟨List.replicate rails 0, fun _ _ => 0⟩

/-- Add the time of a channel to its rail. -/
def Load.addTime (load : Load) (slot time : Nat) : Load :=
  { load with
    railTimes := load.railTimes.modify slot fun total =>
      saturate64 (total + time) }

namespace CollectiveTopology

variable (topology : CollectiveTopology)

/-- `links[first][second]` -/
def entryAt {α : Type} (links : List (List (Option α))) (first second : Nat) : Option α :=
  (links[first]?.bind fun row => row[second]?).join

def link (first second : Nat) : Option LinkCost := entryAt topology.links first second

def linkOnRail (first second rail : Nat) : Option LinkCost :=
  match topology.railLinks[rail]?.bind fun links =>
      entryAt links first second with
  | some cost => some cost
  | none => topology.link first second

def aggregateBandwidthMbps (first second : Nat) : Option Nat :=
  entryAt topology.aggregateLinks first second

def aggregateTransferCapNs (traffic : Traffic) : Nat := (List.range topology.worldSize).foldl
    (fun slowest first =>
      (List.range' (first + 1) (topology.worldSize - (first + 1))).foldl
        (fun slowest second =>
          let bytes := max (traffic first second) (traffic second first)
          if bytes = 0 then slowest
          else
            match topology.aggregateBandwidthMbps first second with
            | some bandwidth => max slowest (transferTimeNs bytes bandwidth)
            | none => slowest)
        slowest)
    0

/-- The time of a step whose channels have been assigned to `rails` rails. -/
def stepTimeNs (rails : Nat) (load : Load) : Nat := max ((maximum load.railTimes).getD 0)
    (if rails > 1 then topology.aggregateTransferCapNs load.traffic else 0)

/-- The first index with the least key. -/
def minByKey (key : Nat → Nat) (indices : List Nat) : Option Nat := indices.foldl
    (fun best index =>
      match best with
      | none => some index
      | some least => if key index < key least then some index else best)
    none

structure Search where
  distances : Nat → Nat
  visited : Nat → Bool

/-- Relax the links of a rank that has just been visited. -/
def relax (linkOf : Nat → Nat → Option LinkCost) (rankCount bytes current : Nat)
    (search : Search) : Search :=
  (List.range rankCount).foldl
    (fun search next =>
      if search.visited next then search
      else
        match linkOf current next with
        | none => search
        | some link =>
            let candidate := saturate64 (search.distances current + linkTransferTimeNs link bytes)
            { search with
              distances := Function.update search.distances next
                (min (search.distances next) candidate) })
    search

/-- The rounds of the search; `rounds` of them are left. -/
def searchRounds (linkOf : Nat → Nat → Option LinkCost)
    (rankCount destination bytes : Nat) : Nat → Search → Option Nat
  | 0, search =>
      if search.distances destination ≠ maxU64 then
        some (search.distances destination)
      else none
  | rounds + 1, search =>
      match minByKey search.distances
          ((List.range rankCount).filter fun rank =>
            !search.visited rank) with
      | none => none
      | some current =>
          if search.distances current = maxU64 then
            if search.distances destination ≠ maxU64 then
              some (search.distances destination)
            else none
          else if current = destination then
            some (search.distances current)
          else
            searchRounds linkOf rankCount destination bytes rounds
              (relax linkOf rankCount bytes current
                { search with
                  visited := Function.update search.visited current true })

def shortestTransferTimeNsForRail
    (source destination bytes : Nat) (rail : Option Nat) : Option Nat :=
  if source = destination then some 0
  else
    let linkOf := fun first second =>
      match rail with
      | some rail => topology.linkOnRail first second rail
      | none => topology.link first second
    searchRounds linkOf topology.worldSize destination bytes topology.worldSize
      { distances := Function.update (fun _ => maxU64) source 0
        visited := fun _ => false }

def shortestTransferTimeNs (source destination bytes : Nat) : Option Nat :=
  topology.shortestTransferTimeNsForRail source destination bytes none

def shortestTransferTimeNsOnRail (source destination bytes rail : Nat) : Option Nat :=
  topology.shortestTransferTimeNsForRail source destination bytes (some rail)

/-- Bottleneck, total bandwidth and inverse latency, compared in this order. -/
structure RingScore where
  bottleneck : Nat
  totalBandwidth : Nat
  inverseLatency : Nat
  deriving DecidableEq

def RingScore.atLeast (left right : RingScore) : Bool := right.bottleneck < left.bottleneck ∨
    (right.bottleneck = left.bottleneck ∧
      (right.totalBandwidth < left.totalBandwidth ∨
        (right.totalBandwidth = left.totalBandwidth ∧
          right.inverseLatency ≤ left.inverseLatency)))

def railScore (rail : Nat) : RingScore :=
  let costs := (List.range topology.worldSize).flatMap fun first =>
    (List.range' (first + 1) (topology.worldSize - (first + 1))).filterMap
      fun second => topology.linkOnRail first second rail
  { bottleneck :=
      if costs = [] then 0
      else costs.foldl (fun least cost => min least cost.bandwidthMbps) maxU64
    totalBandwidth := costs.foldl (fun total cost => saturate128 (total + cost.bandwidthMbps)) 0
    inverseLatency := maxU128 - costs.foldl
      (fun total cost => saturate128 (total + cost.latencyNs)) 0 }

/-- Best score first; equal scores keep the order of their rails. -/
def preferredRailOrder (railCount : Nat) : List Nat :=
  (List.range railCount).mergeSort fun first second =>
    (topology.railScore first).atLeast (topology.railScore second)

def ringStepTimeNsOnRail (order : List Nat) (bytes rail : Nat) :
    Option Nat := do
  let times ← (List.range order.length).mapM fun index => do
    let cost ← topology.linkOnRail (order.getD index 0)
      (order.getD ((index + 1) % order.length) 0) rail
    some (linkTransferTimeNs cost bytes)
  maximum times

/-- Assign one channel whose transfers are given as source, destination and
bytes. -/
def assignChannel (railOrder : List Nat) (rails channel : Nat)
    (transfers : List (Nat × Nat × Nat)) (load : Load) : Option Load := do
  let slot := channel % rails
  let rail := railOrder.getD slot 0
  let (traffic, slowest) ← transfers.foldlM
    (fun (state : Traffic × Nat) (transfer : Nat × Nat × Nat) => do
      let time ← topology.shortestTransferTimeNsOnRail transfer.1 transfer.2.1 transfer.2.2 rail
      some (state.1.add transfer.1 transfer.2.1 transfer.2.2, max state.2 time))
    (load.traffic, 0)
  some ({ load with traffic := traffic }.addTime slot slowest)

def pairwiseTimeNs (order : List Nat) (bytesPerPeer channelCount : Nat)
    (railOrder : List Nat) : Option Nat :=
  if order.length ≤ 1 then some 0
  else if railOrder = [] then none
  else
    let channels := max (min channelCount (max bytesPerPeer 1)) 1
    let rails := max (min railOrder.length channels) 1
    let channelBytes := balancedSizes bytesPerPeer channels
    (List.range' 1 (order.length - 1)).foldlM
      (fun total step => do
        let load ← channelBytes.zipIdx.foldlM
          (fun load (bytes, channel) =>
            topology.assignChannel railOrder rails channel
              ((List.range order.length).map fun position =>
                (order.getD position 0, order.getD ((position + step) % order.length) 0, bytes))
              load)
          (Load.idle rails)
        some (saturate64 (total + topology.stepTimeNs rails load)))
      0

end CollectiveTopology

namespace CollectiveTuning

variable (tuning : CollectiveTuning)

def railOrder : List Nat := tuning.railOrderOverride.getD
    (tuning.topology.preferredRailOrder tuning.p2pRails)

def ringOrderForChannel (channel : Nat) : List Nat :=
  tuning.ringOrders.getD (channel % tuning.ringOrders.length) []

def autotuneEntry (kind : CollectiveKind) (payloadBytes : Nat) :
    Option CollectiveAutotuneEntry :=
  let payloadBytes := saturate64 payloadBytes
  tuning.autotuneEntries.bind fun entries =>
    entries.find? fun entry =>
      entry.operation = kind ∧ payloadBytes ≥ entry.minPayloadBytes ∧
        payloadBytes ≤ entry.maxPayloadBytes

def directEstimatedTimeNs (kind : CollectiveKind) (payload : Nat) : Nat :=
  let ranks := tuning.ringOrder.length
  if ranks ≤ 1 then 0
  else
    let response :=
      match kind with
      | .allReduce => payload
      | .allToAll => payload
      | .allGather => saturate128 (payload * ranks)
      | .reduceScatter => divCeil payload ranks
    let aggregateBytes := saturate128 (ranks * saturate128 (payload + response))
    let transferNs := transferTimeNsU128 aggregateBytes tuning.directBandwidthMbps
    let latencyNs := saturate128 (saturate128 (tuning.directLatencyNs * 2) * ranks)
    saturate64 (saturate128 (transferNs + latencyNs))

/-- Neighbours on a ring, as source and destination. -/
def ringPairs (order : List Nat) : List (Nat × Nat) := (List.range order.length).map fun index =>
    (order.getD index 0, order.getD ((index + 1) % order.length) 0)

def multiRingStepTimeNs (bytes : Nat) : Option Nat := do
  let channels := max (min tuning.ringChannels (max bytes 1)) 1
  let railOrder := tuning.railOrder
  let rails := max (min railOrder.length channels) 1
  let load ← (List.range channels).foldlM
    (fun load channel => do
      let channelBytes := bytes / channels + if channel < bytes % channels then 1 else 0
      let slot := channel % rails
      let order := tuning.ringOrderForChannel channel
      let traffic := (ringPairs order).foldl
        (fun traffic pair => traffic.add pair.1 pair.2 channelBytes)
        load.traffic
      let step ← tuning.topology.ringStepTimeNsOnRail order channelBytes (railOrder.getD slot 0)
      some ({ load with traffic := traffic }.addTime slot step))
    (Load.idle rails)
  some (tuning.topology.stepTimeNs rails load)

def stripedRingStepTimeNs (order bytesByPosition : List Nat) :
    Option Nat := do
  if order.length ≠ bytesByPosition.length then none
  else
    let maximumBytes := (maximum bytesByPosition).getD 0
    let channels := max (min tuning.ringChannels (max maximumBytes 1)) 1
    let railOrder := tuning.railOrder
    let rails := max (min railOrder.length channels) 1
    let load ← (List.range channels).foldlM
      (fun load channel =>
        tuning.topology.assignChannel railOrder rails channel
          (((ringPairs order).zip bytesByPosition).map fun (pair, bytes) =>
            (pair.1, pair.2, (balancedSizes bytes channels).getD channel 0))
          load)
      (Load.idle rails)
    some (tuning.topology.stepTimeNs rails load)

def peerEstimatedTimeNs (kind : CollectiveKind) (payloadBytes : Nat) :
    Option Nat :=
  let ranks := tuning.ringOrder.length
  if ranks ≤ 1 then some 0
  else
    let chunkBytes := divCeil payloadBytes ranks
    match kind with
    | .allReduce =>
        (tuning.multiRingStepTimeNs chunkBytes).map fun step =>
          saturate64 (step * (2 * (ranks - 1)))
    | .allGather =>
        (tuning.multiRingStepTimeNs payloadBytes).map fun step =>
          saturate64 (step * (ranks - 1))
    | .reduceScatter =>
        (tuning.multiRingStepTimeNs chunkBytes).map fun step =>
          saturate64 (step * (ranks - 1))
    | .allToAll =>
        tuning.topology.pairwiseTimeNs tuning.ringOrder chunkBytes
          tuning.ringChannels tuning.railOrder

/-- The slowest group, when each moves `bytes` between its leader and each of
its members; `toLeader` says in which direction. -/
def localTimeNs (groups : List (List Nat)) (bytes : Nat) (toLeader : Bool) :
    Option Nat := do
  let times ← groups.mapM fun group =>
    let leader := group.getD 0 0
    group.tail.foldlM
      (fun total rank => do
        let cost ←
          if toLeader then
            tuning.topology.shortestTransferTimeNs rank leader bytes
          else tuning.topology.shortestTransferTimeNs leader rank bytes
        some (saturate64 (total + cost)))
      0
  some ((maximum times).getD 0)

/-- The steps of the leaders' ring, each with its own bytes by position. -/
def leaderStepsNs (leaders : List Nat) (bytesAt : Nat → Nat → Nat) : Option Nat :=
  (List.range (leaders.length - 1)).foldlM
    (fun total step => do
      let time ← tuning.stripedRingStepTimeNs leaders
        ((List.range leaders.length).map fun position =>
          bytesAt step position)
      some (saturate64 (total + time)))
    0

def hierarchicalEstimatedTimeNs (kind : CollectiveKind) (payloadBytes : Nat) : Option Nat := do
  let groups ← tuning.hierarchyGroups
  if kind = .allToAll then none
  else
    let leaders := groups.map fun group => group.getD 0 0
    let localGather ← tuning.localTimeNs groups payloadBytes true
    let leaderCount := leaders.length
    let worldSize := tuning.ringOrder.length
    let shardBytes := divCeil payloadBytes worldSize
    let sizeOf := fun index => (groups.getD index []).length
    let interCollective ←
      match kind with
      | .allReduce => do
          let step ← tuning.stripedRingStepTimeNs leaders
            (List.replicate leaderCount (divCeil payloadBytes leaderCount))
          some (saturate64 (step * (2 * (leaderCount - 1))))
      | .reduceScatter =>
          tuning.leaderStepsNs leaders fun step position =>
            saturate64 (sizeOf ((position + leaderCount - 1 - step) % leaderCount) * shardBytes)
      | .allGather =>
          tuning.leaderStepsNs leaders fun step position =>
            saturate64 (sizeOf ((position + leaderCount - step) % leaderCount) * payloadBytes)
      | .allToAll => none
    let distributed :=
      match kind with
      | .allGather => saturate64 (payloadBytes * worldSize)
      | .reduceScatter => shardBytes
      | _ => payloadBytes
    let localDistribute ← tuning.localTimeNs groups distributed false
    some (saturate64 (saturate64 (localGather + interCollective) + localDistribute))

/-- The algorithm between peers that a kind has. -/
def peerAlgorithm : CollectiveKind → CollectiveAlgorithm
  | .allToAll => .pairwise
  | _ => .ring

/-- The cheapest algorithm of the model; ties go to the earlier one. -/
def modelAlgorithm (kind : CollectiveKind) (payloadBytes : Nat) :
    CollectiveAlgorithm :=
  let direct := tuning.directEstimatedTimeNs kind payloadBytes
  let best :=
    match tuning.peerEstimatedTimeNs kind payloadBytes with
    | some estimate =>
        if estimate < direct then (peerAlgorithm kind, estimate)
        else (.direct, direct)
    | none => (.direct, direct)
  if kind = .allToAll then best.1
  else
    match tuning.hierarchicalEstimatedTimeNs kind payloadBytes with
    | some estimate => if estimate < best.2 then .hierarchical else best.1
    | none => best.1

/-- Algorithm, source, measured time and channels. -/
def choose (kind : CollectiveKind) (payloadBytes : Nat) :
    CollectiveAlgorithm × CollectivePlanSource × Option Nat × Nat :=
  let channels := tuning.ringChannels
  if tuning.ringOrder.length ≤ 1 then
    (.direct,
      if tuning.algorithmPolicy = .auto then .model else .policy,
      none, channels)
  else
    match tuning.algorithmPolicy with
    | .direct => (.direct, .policy, none, channels)
    | .ring => (peerAlgorithm kind, .policy, none, channels)
    | .hierarchical =>
        (if kind = .allToAll then peerAlgorithm kind
          else if (tuning.hierarchicalEstimatedTimeNs kind payloadBytes).isSome then .hierarchical
          else peerAlgorithm kind,
          .policy, none, channels)
    | .auto =>
        match tuning.autotuneEntry kind payloadBytes with
        | some entry =>
            (entry.algorithm, .autotune, some entry.measuredTimeNs, entry.ringChannels)
        | none =>
            if payloadBytes < tuning.ringThresholdBytes then
              (.direct, .model, none, channels)
            else
              (tuning.modelAlgorithm kind payloadBytes, .model, none, channels)

def plan (kind : CollectiveKind) (payloadBytes : Nat) : CollectivePlan :=
  let direct := tuning.directEstimatedTimeNs kind payloadBytes
  let peer := tuning.peerEstimatedTimeNs kind payloadBytes
  let hierarchical := tuning.hierarchicalEstimatedTimeNs kind payloadBytes
  let (algorithm, source, measured, channels) := tuning.choose kind payloadBytes
  { algorithm := algorithm
    source := source
    estimatedTimeNs := measured.getD
      (match algorithm with
        | .direct => direct
        | .ring => peer.getD maxU64
        | .pairwise => peer.getD maxU64
        | .hierarchical => hierarchical.getD maxU64)
    directEstimatedTimeNs := direct
    peerEstimatedTimeNs := peer
    hierarchicalEstimatedTimeNs := hierarchical
    ringChannels := channels }

end CollectiveTuning

end RuCCL.Rank
