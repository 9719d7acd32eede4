import RuCCL.Rank.HierarchySearch
import RuCCL.Rank.Tags
import RuCCL.Rank.TopologyText

/-!
# Tunings and their builders

A tuning is made from a topology or from the environment and changed by builders,
each of which checks its argument and then the stored profile of measurements.
Reading the file of a profile and its JSON stay outside: a file is what reading it
gives.
-/

namespace RuCCL.Rank

open RuCCL.Library

def collectiveAutotuneProfileVersion : Nat := 2
def collectiveExecutionRevision : Nat := 6

inductive CollectiveTransport where
  | hostStaged | tcpHostStaged | tcpPeer | pciePeer | rdma | gxLink
  deriving DecidableEq

structure CollectiveAutotuneProfile where
  version : Nat
  worldSize : Nat
  topologyFingerprint : List Char
  executionFingerprint : List Char
  entries : List CollectiveAutotuneEntry
  deriving DecidableEq

/-- A whole tuning: what plans are made from, the transport and the profile whose
entries the plans use. -/
structure ConfiguredTuning extends CollectiveTuning where
  transport : CollectiveTransport
  autotuneProfile : Option CollectiveAutotuneProfile
  entries_eq : autotuneEntries = autotuneProfile.map CollectiveAutotuneProfile.entries

/-- All pairs of different ranks, the smaller one first. -/
def rankPairs (worldSize : Nat) : List (Nat × Nat) := (List.range worldSize).flatMap fun first =>
    (CollectiveTopology.ranksBehind worldSize first).map fun second =>
      (first, second)

def linkWords : Option LinkCost → List Nat
  | some cost => [1, cost.bandwidthMbps, cost.latencyNs]
  | none => [0]

def bandwidthWords : Option Nat → List Nat
  | some bandwidth => [1, bandwidth]
  | none => [0]

/-- Lists of numbers, each with its length. -/
def listWords (lists : List (List Nat)) : List Nat :=
  lists.length :: lists.flatMap fun list => list.length :: list

def CollectiveTopology.words (topology : CollectiveTopology) : List Nat :=
  let pairs := rankPairs topology.worldSize
  [topology.worldSize] ++
    (pairs.flatMap fun (first, second) =>
      [first, second] ++ linkWords (topology.link first second)) ++
    (if topology.railLinks = [] then []
      else
        [0x47585241494c4c4b, topology.railLinks.length] ++
          topology.railLinks.zipIdx.flatMap fun (links, rail) =>
            rail :: pairs.flatMap fun (first, second) =>
              [first, second] ++ linkWords (CollectiveTopology.entryAt links first second)) ++
    (if ∃ row ∈ topology.aggregateLinks, ∃ entry ∈ row, entry ≠ none then
        0x4758414747524547 :: pairs.flatMap fun (first, second) =>
          [first, second] ++ bandwidthWords (topology.aggregateBandwidthMbps first second)
      else [])

/-- Hash words of sixty-four bits. -/
def hashWords (words : List Nat) : UInt64 :=
  hashBytes hashStart (words.flatMap fun word => leBytes 8 word)

def CollectiveTuning.topologyFingerprint (tuning : CollectiveTuning) :
    UInt64 :=
  hashWords (tuning.topology.words ++ listWords tuning.ringOrders ++
    (match tuning.hierarchyGroups with
      | some groups => listWords groups
      | none => [0]) ++
    [tuning.directBandwidthMbps, tuning.directLatencyNs] ++
    (if tuning.p2pRails = 1 then []
      else [0x47585241494c0001, tuning.p2pRails]) ++
    (if tuning.railOrder = List.range tuning.p2pRails then []
      else 0x47585241494c4f52 :: tuning.railOrder))

def CollectiveTuning.topologyFingerprintHex (tuning : CollectiveTuning) :
    List Char :=
  hexText tuning.topologyFingerprint.toNat

def transportCode : CollectiveTransport → Nat
  | .hostStaged => 1
  | .tcpHostStaged => 2
  | .tcpPeer => 3
  | .pciePeer => 4
  | .rdma => 5
  | .gxLink => 6

def executionFingerprintHex (transport : CollectiveTransport) :
    List Char :=
  hexText (hashWords [collectiveExecutionRevision, transportCode transport]).toNat

/-- A fingerprint as it is compared. -/
def normalFingerprint (fingerprint : List Char) : List Char :=
  asciiLowercase (withoutStart ['0', 'x'] fingerprint)

def metricWithinFactor (first second factor : Nat) : Bool :=
  if first = 0 ∨ second = 0 then first = second
  else max first second ≤ saturate64 (min first second * factor)

def costsMatch : Option LinkCost → Option LinkCost → Bool
  | none, none => true
  | some current, some detected =>
      metricWithinFactor current.bandwidthMbps detected.bandwidthMbps 4 &&
        metricWithinFactor current.latencyNs detected.latencyNs 4
  | _, _ => false

def bandwidthsMatch : Option Nat → Option Nat → Bool
  | none, none => true
  | some current, some detected => metricWithinFactor current detected 4
  | _, _ => false

def probedTopologyMatches (current detected : CollectiveTopology) : Bool :=
  let pairs := rankPairs current.worldSize
  current.worldSize = detected.worldSize &&
    (pairs.all fun (first, second) =>
      costsMatch (current.link first second) (detected.link first second)) &&
    current.railLinks.length = detected.railLinks.length &&
    ((current.railLinks.zip detected.railLinks).all fun (links, others) =>
      pairs.all fun (first, second) =>
        costsMatch (CollectiveTopology.entryAt links first second)
          (CollectiveTopology.entryAt others first second)) &&
    pairs.all fun (first, second) =>
      bandwidthsMatch (current.aggregateBandwidthMbps first second)
        (detected.aggregateBandwidthMbps first second)

/-- What a profile says about the topology it was measured on, and whether that may
be used. -/
structure DetectedTopology where
  links : Option (List Char)
  railLinks : Option (List Char)
  aggregateLinks : Option (List Char)
  allowed : Bool

def noDetection : DetectedTopology := ⟨none, none, none, false⟩

/-- Go on with a text when there is one. -/
def ifGiven {α : Type} (text : Option (List Char)) (otherwise : α)
    (next : List Char → Except TopologyError α) : Except TopologyError α :=
  match text with
  | some value => next value
  | none => .ok otherwise

/-- The topology behind the texts. -/
def DetectedTopology.parse (detected : DetectedTopology)
    (links : List Char) (worldSize p2pRails : Nat) :
    Except TopologyError CollectiveTopology := do
  let topology ← parseTopologyLinks worldSize links
  let topology ← ifGiven detected.railLinks topology fun encoded =>
    parseTopologyRailLinks topology encoded p2pRails
  ifGiven detected.aggregateLinks topology fun encoded =>
    parseTopologyAggregateLinks topology encoded

def CollectiveTuning.detectedMatches (tuning : CollectiveTuning)
    (detected : DetectedTopology) (fingerprint : List Char) :
    Except TopologyError Bool :=
  match detected.links, detected.allowed with
  | some encoded, true => do
      let topology ← detected.parse encoded tuning.ringOrder.length tuning.p2pRails
      let pinned := { tuning with topology := topology }
      .ok (probedTopologyMatches tuning.topology topology &&
        tuning.railOrder = pinned.railOrder &&
        pinned.topologyFingerprintHex = fingerprint)
  | _, _ => .ok false

/-- The fingerprint of the profile is that of the tuning, or that of the topology the
profile was measured on, when the two are close. -/
def CollectiveTuning.checkTopology (tuning : CollectiveTuning)
    (profile : CollectiveAutotuneProfile) (detected : DetectedTopology) :
    Except TopologyError Unit :=
  let fingerprint := normalFingerprint profile.topologyFingerprint
  let expected := tuning.topologyFingerprintHex
  if fingerprint = expected then .ok ()
  else do
    let matched ← tuning.detectedMatches detected fingerprint
    rejectIf (¬matched) (.invalidProfile (.topologyFingerprint fingerprint expected))

/-- The algorithms that a profile may name for a kind. -/
def validAlgorithm : CollectiveKind → CollectiveAlgorithm → Bool
  | .allToAll, algorithm => algorithm = .direct ∨ algorithm = .pairwise
  | _, algorithm => algorithm = .direct ∨ algorithm = .ring ∨ algorithm = .hierarchical

def checkEntry (grouped : Bool) (entry : CollectiveAutotuneEntry) :
    Except TopologyError Unit := do
  rejectIf (entry.minPayloadBytes > entry.maxPayloadBytes)
    (.invalidProfile (.reversedRange entry))
  rejectIf (entry.measuredTimeNs = 0) (.invalidProfile (.zeroTime entry))
  (validateRingChannels entry.ringChannels).mapError
    fun _ => .invalidProfile (.ringChannels entry)
  rejectIf (¬validAlgorithm entry.operation entry.algorithm) (.invalidProfile (.algorithm entry))
  rejectIf (entry.algorithm = .hierarchical ∧ ¬grouped) (.invalidProfile .needsGroups)

/-- The ranges of a kind must not overlap. -/
def checkRanges (entries : List CollectiveAutotuneEntry)
    (kind : CollectiveKind) : Except TopologyError Unit :=
  let ranges := ((entries.filter fun entry => entry.operation = kind).map
    fun entry => (entry.minPayloadBytes, entry.maxPayloadBytes)).mergeSort fun first second =>
        first.1 < second.1 ∨ (first.1 = second.1 ∧ first.2 ≤ second.2)
  (ranges.zip ranges.tail).forM fun (first, second) =>
    rejectIf (second.1 ≤ first.2) (.invalidProfile (.overlap kind first second))

/-- The checks that do not depend on the topology. -/
def checkMeasurements (transport : CollectiveTransport) (grouped : Bool)
    (profile : CollectiveAutotuneProfile) : Except TopologyError Unit := do
  let fingerprint := normalFingerprint profile.executionFingerprint
  let expected := executionFingerprintHex transport
  rejectIf (fingerprint ≠ expected) (.invalidProfile (.executionFingerprint fingerprint expected))
  rejectIf (profile.entries = []) (.invalidProfile .noEntries)
  profile.entries.forM (checkEntry grouped)
  [CollectiveKind.allReduce, .allGather, .reduceScatter, .allToAll].forM
    (checkRanges profile.entries)

namespace ConfiguredTuning

variable (tuning : ConfiguredTuning)

def validateAutotuneProfileWithDetected
    (profile : CollectiveAutotuneProfile) (detected : DetectedTopology) :
    Except TopologyError Unit := do
  rejectIf (profile.version ≠ collectiveAutotuneProfileVersion)
    (.invalidProfile (.version profile.version))
  rejectIf (profile.worldSize ≠ tuning.ringOrder.length)
    (.invalidProfile (.worldSize profile.worldSize tuning.ringOrder.length))
  tuning.checkTopology profile detected
  checkMeasurements tuning.transport tuning.hierarchyGroups.isSome profile

def validateAutotuneProfile (profile : CollectiveAutotuneProfile) :
    Except TopologyError Unit :=
  tuning.validateAutotuneProfileWithDetected profile noDetection

/-- A tuning whose stored profile still fits. -/
def revalidated : Except TopologyError ConfiguredTuning :=
  match tuning.autotuneProfile with
  | none => .ok tuning
  | some profile => do
      tuning.validateAutotuneProfile profile
      .ok tuning

def withDirectTransport (bandwidthMbps latencyNs : Nat) :
    Except TopologyError ConfiguredTuning := do
  rejectIf (bandwidthMbps = 0) .zeroDirectBandwidth
  revalidated { tuning with
    directBandwidthMbps := bandwidthMbps
    directLatencyNs := latencyNs }

def withTransport (transport : CollectiveTransport) :
    Except TopologyError ConfiguredTuning :=
  revalidated { tuning with transport := transport }

def withHierarchy (groups : List (List Nat)) :
    Except TopologyError ConfiguredTuning := do
  validateHierarchyGroups tuning.topology.worldSize groups
  revalidated { tuning with hierarchyGroups := some groups }

/-- The estimates of three collectives with these groups, added up. -/
def hierarchyScore (payloadBytes : Nat) (groups : List (List Nat)) :
    Option Nat :=
  [CollectiveKind.allReduce, .allGather, .reduceScatter].foldlM
    (fun total kind => do
      let estimate ← CollectiveTuning.hierarchicalEstimatedTimeNs
        { tuning.toCollectiveTuning with hierarchyGroups := some groups }
        kind payloadBytes
      some (saturate128 (total + estimate)))
    0

def withInferredHierarchy (payloadBytes : Nat) :
    Except TopologyError ConfiguredTuning := do
  rejectIf (payloadBytes = 0) (.invalidHierarchy .zeroPayload)
  let (_, groups) ← okOr
    (bestBy
      (fun item kept => decide (item.1 < kept.1 ∨ (item.1 = kept.1 ∧ item.2 < kept.2)))
      ((tuning.topology.hierarchyCandidates payloadBytes).filterMap
        fun groups => (tuning.hierarchyScore payloadBytes groups).map
          fun score => (score, groups)))
    (.invalidHierarchy .noDomains)
  revalidated { tuning with hierarchyGroups := some groups }

def withRingChannels (channels : Nat) :
    Except TopologyError ConfiguredTuning := do
  validateRingChannels channels
  revalidated { tuning with ringChannels := channels }

/-- A given order of the rails must be one of `rails` rails. -/
def checkRailOverride (rails : Nat) : Except TopologyError Unit :=
  match tuning.railOrderOverride with
  | some order => validateRailOrder rails order
  | none => .ok ()

def withP2pRails (rails : Nat) : Except TopologyError ConfiguredTuning := do
  validateP2pRails rails
  tuning.checkRailOverride rails
  revalidated { tuning with p2pRails := rails }

def withRailOrder (order : List Nat) :
    Except TopologyError ConfiguredTuning := do
  validateRailOrder tuning.p2pRails order
  revalidated { tuning with railOrderOverride := some order }

/-- The tuning with a profile stored. -/
def storeProfile (profile : CollectiveAutotuneProfile) :
    ConfiguredTuning :=
  { tuning with
    autotuneEntries := some profile.entries
    autotuneProfile := some profile
    entries_eq := rfl }

def withAutotuneProfile (profile : CollectiveAutotuneProfile) :
    Except TopologyError ConfiguredTuning := do
  tuning.validateAutotuneProfile profile
  .ok (tuning.storeProfile profile)

end ConfiguredTuning

inductive EnvironmentValue where
  | absent
  | text (value : List Char)
  | notUnicode (lossy : List Char)

/-- A member of a JSON object. -/
inductive DocumentField where
  | absent
  | text (value : List Char)
  | other

/-- A JSON document: the fields about the detected topology, and the profile when the
document is one. -/
structure ProfileDocument where
  detectedTopologyLinks : DocumentField
  detectedTopologyRailLinks : DocumentField
  detectedTopologyAggregateLinks : DocumentField
  profile : Option CollectiveAutotuneProfile

/-- What reading a file gives. -/
inductive ProfileFile where
  | unreadable
  | notJson
  | document (document : ProfileDocument)

structure Environment where
  value : TuningVariable → EnvironmentValue
  file : List Char → ProfileFile

namespace Environment

variable (environment : Environment)

/-- The meaning of a variable, `absent` without it. -/
def read {α : Type} (name : TuningVariable) (absent : Except TopologyError α)
    (present : List Char → Except TopologyError α) :
    Except TopologyError α :=
  match environment.value name with
  | .absent => absent
  | .text value => present value
  | .notUnicode lossy => .error (.invalidEnvironment name lossy)

def readUnsigned (name : TuningVariable) (default : Nat) :
    Except TopologyError Nat :=
  environment.read name (.ok default) fun value =>
    okOr (parseUnsigned maxU64 value) (.invalidEnvironment name value)

/-- Whether a text is this word, in any case and with white space around it. -/
def isWord (word : String) (value : List Char) : Bool := asciiLowercase (trim value) = word.toList

def topologyProbeRequested : Except TopologyError Bool :=
  environment.read .topologyLinks (.ok false) fun value =>
    .ok (isWord "probe" value)

def readAlgorithmPolicy : Except TopologyError AlgorithmPolicy :=
  environment.read .collectiveAlgorithm (.ok .auto) fun value =>
    if isWord "auto" value then .ok .auto
    else if isWord "direct" value then .ok .direct
    else if isWord "ring" value then .ok .ring
    else if isWord "hierarchical" value then .ok .hierarchical
    else .error (.invalidEnvironment .collectiveAlgorithm value)

def parseCollectiveTransport : Except TopologyError CollectiveTransport :=
  environment.read .collectiveTransport (.ok .tcpHostStaged) fun value =>
    if isWord "coordinator" value ∨ isWord "tcp_coordinator" value ∨
        isWord "tcp_host_staged" value then .ok .tcpHostStaged
    else if isWord "peer" value ∨ isWord "tcp_peer" value then .ok .tcpPeer
    else .error (.invalidEnvironment .collectiveTransport value)

/-- The links of the environment, those of a probe or the uniform ones. -/
def readTopology (worldSize : Nat) (probed : Option CollectiveTopology) :
    Except TopologyError CollectiveTopology :=
  environment.read .topologyLinks
    (match probed with
      | some topology => .ok topology
      | none => CollectiveTopology.uniform worldSize)
    fun value =>
      if isWord "probe" value then
        okOr probed (.invalidEnvironment .topologyLinks value)
      else parseTopologyLinks worldSize value

/-- Groups of the environment, or the payload size to infer them for. -/
def readGroups (worldSize : Nat) : Except TopologyError (Option (List (List Nat)) × Option Nat) :=
  environment.read .topologyGroups (.ok (none, none)) fun value =>
    if isWord "auto" value then do
      let payloadBytes ← environment.readUnsigned .topologyGroupPayloadBytes
        defaultHierarchyInferenceBytes
      rejectIf (payloadBytes = 0) (.invalidEnvironment .topologyGroupPayloadBytes ['0'])
      .ok (none, some payloadBytes)
    else do
      let groups ← parseHierarchyGroups worldSize value
      .ok (some groups, none)

end Environment

def DocumentField.detected : DocumentField → Except TopologyError (Option (List Char))
  | .absent => .ok none
  | .text value => .ok (some value)
  | .other => .error (.invalidProfile .notText)

namespace ConfiguredTuning

def withAutotuneProfilePath (tuning : ConfiguredTuning)
    (environment : Environment) (path : List Char) :
    Except TopologyError ConfiguredTuning :=
  match environment.file path with
  | .unreadable => .error .profileRead
  | .notJson => .error (.invalidProfile .notJson)
  | .document document => do
      let links ← document.detectedTopologyLinks.detected
      let railLinks ← document.detectedTopologyRailLinks.detected
      let aggregateLinks ← document.detectedTopologyAggregateLinks.detected
      let profile ← okOr document.profile (.invalidProfile .notJson)
      let probed ← environment.topologyProbeRequested
      tuning.validateAutotuneProfileWithDetected profile
        ⟨links, railLinks, aggregateLinks, probed⟩
      .ok (tuning.storeProfile profile)

/-- A given order of the ranks, or the best one. -/
def primaryOrder (topology : CollectiveTopology) :
    Option (List Nat) → Except TopologyError (List Nat)
  | some order => .ok order
  | none => topology.bestRingOrder

def fromTopology (algorithmPolicy : AlgorithmPolicy)
    (ringThresholdBytes : Nat) (topology : CollectiveTopology)
    (ringOrder : Option (List Nat)) :
    Except TopologyError ConfiguredTuning := do
  let ringOrder ← primaryOrder topology ringOrder
  validateRingOrder topology.worldSize ringOrder
  .ok
    { algorithmPolicy := algorithmPolicy
      ringThresholdBytes := ringThresholdBytes
      ringOrder := ringOrder
      ringOrders := ringOrdersWithPrimary topology ringOrder
      ringChannels := 1
      p2pRails := 1
      railOrderOverride := none
      hierarchyGroups := none
      topology := topology
      directBandwidthMbps := defaultBandwidthMbps
      directLatencyNs := defaultLatencyNs
      autotuneEntries := none
      transport := .tcpHostStaged
      autotuneProfile := none
      entries_eq := rfl }

def new (algorithmPolicy : AlgorithmPolicy) (ringThresholdBytes : Nat)
    (ringOrder : List Nat) : Except TopologyError ConfiguredTuning := do
  rejectIf (ringOrder.length > maxU32) (.invalidRing .tooLarge)
  let topology ← CollectiveTopology.uniform ringOrder.length
  fromTopology algorithmPolicy ringThresholdBytes topology (some ringOrder)

/-- The tuning that the variables describe, before groups are inferred and a profile
is read. -/
def readVariables (environment : Environment) (worldSize : Nat)
    (probed : Option CollectiveTopology) :
    Except TopologyError (ConfiguredTuning × Option Nat) := do
  let algorithmPolicy ← environment.readAlgorithmPolicy
  let ringThresholdBytes ← environment.readUnsigned .ringThresholdBytes defaultRingThresholdBytes
  let ringChannels ← environment.readUnsigned .ringChannels 1
  validateRingChannels ringChannels
  let p2pRails ← environment.readUnsigned .p2pRails 1
  validateP2pRails p2pRails
  let directBandwidthMbps ← environment.readUnsigned .directBandwidthMbps defaultBandwidthMbps
  rejectIf (directBandwidthMbps = 0) (.invalidEnvironment .directBandwidthMbps ['0'])
  let directLatencyNs ← environment.readUnsigned .directLatencyNs defaultLatencyNs
  let transport ← environment.parseCollectiveTransport
  let topology ← environment.readTopology worldSize probed
  let topology ← environment.read .topologyRailLinks (.ok topology)
    fun value => parseTopologyRailLinks topology value p2pRails
  let topology ← environment.read .topologyAggregateLinks (.ok topology)
    fun value => parseTopologyAggregateLinks topology value
  let railOrderOverride ← environment.read .railOrder (.ok none) fun value =>
      if Environment.isWord "auto" value then .ok none
      else (parseRailOrder p2pRails value).map some
  let ringOrder ← environment.read .ringOrder topology.bestRingOrder
    fun value => parseRingOrder worldSize value
  let (hierarchyGroups, inferred) ← environment.readGroups worldSize
  .ok
    ({ algorithmPolicy := algorithmPolicy
       ringThresholdBytes := ringThresholdBytes
       ringOrder := ringOrder
       ringOrders := ringOrdersWithPrimary topology ringOrder
       ringChannels := ringChannels
       p2pRails := p2pRails
       railOrderOverride := railOrderOverride
       hierarchyGroups := hierarchyGroups
       topology := topology
       directBandwidthMbps := directBandwidthMbps
       directLatencyNs := directLatencyNs
       autotuneEntries := none
       transport := transport
       autotuneProfile := none
       entries_eq := rfl }, inferred)

/-- Infer groups when the environment asks for it. -/
def inferGroups (tuning : ConfiguredTuning) :
    Option Nat → Except TopologyError ConfiguredTuning
  | some payloadBytes => tuning.withInferredHierarchy payloadBytes
  | none => .ok tuning

def fromEnvironmentImpl (environment : Environment) (worldSize : Nat)
    (probed : Option CollectiveTopology) :
    Except TopologyError ConfiguredTuning := do
  let (tuning, inferred) ← readVariables environment worldSize probed
  let tuning ← tuning.inferGroups inferred
  rejectIf (tuning.algorithmPolicy = .hierarchical ∧ tuning.hierarchyGroups = none)
    (.invalidHierarchy .policyNeedsGroups)
  environment.read .collectiveAutotuneProfile (.ok tuning)
    fun path => tuning.withAutotuneProfilePath environment path

def fromEnvironment (environment : Environment) (worldSize : Nat) :
    Except TopologyError ConfiguredTuning :=
  fromEnvironmentImpl environment worldSize none

def fromEnvironmentWithTopology (environment : Environment) (topology : CollectiveTopology) :
    Except TopologyError ConfiguredTuning :=
  fromEnvironmentImpl environment topology.worldSize (some topology)

/-- The tunings that the public constructors and builders return. -/
inductive Reachable : ConfiguredTuning → Prop
  | new {policy : AlgorithmPolicy} {threshold : Nat} {order : List Nat}
      {tuning : ConfiguredTuning}
      (made : new policy threshold order = .ok tuning) : Reachable tuning
  | fromTopology {policy : AlgorithmPolicy} {threshold : Nat}
      {topology : CollectiveTopology} {order : Option (List Nat)}
      {tuning : ConfiguredTuning} (built : topology.Built)
      (made : fromTopology policy threshold topology order = .ok tuning) :
      Reachable tuning
  | fromEnvironment {environment : Environment} {worldSize : Nat} {tuning : ConfiguredTuning}
      (made : fromEnvironment environment worldSize = .ok tuning) :
      Reachable tuning
  | fromEnvironmentWithTopology {environment : Environment}
      {topology : CollectiveTopology} {tuning : ConfiguredTuning}
      (built : topology.Built)
      (made : fromEnvironmentWithTopology environment topology = .ok tuning) : Reachable tuning
  | withDirectTransport {before after : ConfiguredTuning}
      {bandwidth latency : Nat} (reachable : Reachable before)
      (made : before.withDirectTransport bandwidth latency = .ok after) :
      Reachable after
  | withTransport {before after : ConfiguredTuning}
      {transport : CollectiveTransport} (reachable : Reachable before)
      (made : before.withTransport transport = .ok after) : Reachable after
  | withHierarchy {before after : ConfiguredTuning}
      {groups : List (List Nat)} (reachable : Reachable before)
      (made : before.withHierarchy groups = .ok after) : Reachable after
  | withInferredHierarchy {before after : ConfiguredTuning}
      {payloadBytes : Nat} (reachable : Reachable before)
      (made : before.withInferredHierarchy payloadBytes = .ok after) :
      Reachable after
  | withRingChannels {before after : ConfiguredTuning} {channels : Nat}
      (reachable : Reachable before)
      (made : before.withRingChannels channels = .ok after) :
      Reachable after
  | withP2pRails {before after : ConfiguredTuning} {rails : Nat} (reachable : Reachable before)
      (made : before.withP2pRails rails = .ok after) : Reachable after
  | withRailOrder {before after : ConfiguredTuning} {order : List Nat}
      (reachable : Reachable before)
      (made : before.withRailOrder order = .ok after) : Reachable after
  | withAutotuneProfile {before after : ConfiguredTuning}
      {profile : CollectiveAutotuneProfile} (reachable : Reachable before)
      (made : before.withAutotuneProfile profile = .ok after) :
      Reachable after
  | withAutotuneProfilePath {before after : ConfiguredTuning}
      {environment : Environment} {path : List Char}
      (reachable : Reachable before)
      (made : before.withAutotuneProfilePath environment path = .ok after) : Reachable after

end ConfiguredTuning

end RuCCL.Rank
