import RuCCL.Rank.Tuning

/-!
# What holds of every tuning

Orders are permutations, counts are in their ranges, groups are valid and a stored
profile has passed all checks but that of its topology, whatever constructors and
builders a tuning has come from.
-/

namespace RuCCL.Rank

open RuCCL.Library

/-- All that a profile is checked for, except its topology. -/
structure ProfileFits (tuning : ConfiguredTuning)
    (profile : CollectiveAutotuneProfile) : Prop where
  version : profile.version = collectiveAutotuneProfileVersion
  worldSize : profile.worldSize = tuning.ringOrder.length
  measurements : checkMeasurements tuning.transport tuning.hierarchyGroups.isSome profile = .ok ()

/-- What holds of all tunings, their profiles apart. -/
structure TuningShaped (tuning : CollectiveTuning) : Prop where
  shaped : tuning.topology.Shaped
  ringOrder : tuning.ringOrder.Perm (List.range tuning.topology.worldSize)
  someRing : tuning.ringOrders ≠ []
  ringOrders : ∀ order ∈ tuning.ringOrders, order.Perm (List.range tuning.topology.worldSize)
  ringChannels : 1 ≤ tuning.ringChannels ∧ tuning.ringChannels ≤ maxRingChannels
  p2pRails : 1 ≤ tuning.p2pRails ∧ tuning.p2pRails ≤ maxP2pRails
  railOrder : ∀ order, tuning.railOrderOverride = some order →
    order.Perm (List.range tuning.p2pRails)
  groups : ∀ groups, tuning.hierarchyGroups = some groups →
    ValidGroups tuning.topology.worldSize groups
  directBandwidth : tuning.directBandwidthMbps ≠ 0

/-- The invariant of all tunings. -/
structure TuningSound (tuning : ConfiguredTuning) : Prop extends
    TuningShaped tuning.toCollectiveTuning where
  profile : ∀ profile, tuning.autotuneProfile = some profile → ProfileFits tuning profile

namespace ConfiguredTuning

variable {tuning : ConfiguredTuning}

theorem checkTopology_noDetection (profile : CollectiveAutotuneProfile) (done : Unit) :
    tuning.checkTopology profile noDetection = .ok done ↔
      normalFingerprint profile.topologyFingerprint =
        tuning.topologyFingerprintHex := by
  rw [CollectiveTuning.checkTopology]
  split
  case isTrue same => exact ⟨fun _ => same, fun _ => rfl⟩
  case isFalse other =>
    constructor
    · intro checked
      simp [CollectiveTuning.detectedMatches, noDetection, rejectIf] at checked
    · intro same
      exact absurd same other

theorem validateWithDetected_eq_ok_iff
    (profile : CollectiveAutotuneProfile) (detected : DetectedTopology)
    (done : Unit) :
    tuning.validateAutotuneProfileWithDetected profile detected = .ok done ↔
      ProfileFits tuning profile ∧ tuning.checkTopology profile detected = .ok () := by
  rw [validateAutotuneProfileWithDetected, bind_eq_ok_iff]
  simp only [rejectIf_eq_ok_iff, exists_const, bind_eq_ok_iff, ne_eq, not_not]
  constructor
  · rintro ⟨version, worldSize, _, topology, measurements⟩
    exact ⟨⟨version, worldSize, measurements⟩, topology⟩
  · rintro ⟨fits, topology⟩
    exact ⟨fits.version, fits.worldSize, (), topology, fits.measurements⟩

/-- The stored profile was measured on this very topology, if there is one. -/
def ProfileMatches (tuning : ConfiguredTuning) : Prop :=
  ∀ profile, tuning.autotuneProfile = some profile →
    normalFingerprint profile.topologyFingerprint = tuning.topologyFingerprintHex

theorem validateAutotuneProfile_eq_ok_iff (profile : CollectiveAutotuneProfile) (done : Unit) :
    tuning.validateAutotuneProfile profile = .ok done ↔ ProfileFits tuning profile ∧
        normalFingerprint profile.topologyFingerprint =
          tuning.topologyFingerprintHex := by
  rw [validateAutotuneProfile, validateWithDetected_eq_ok_iff, checkTopology_noDetection]

/-- A builder succeeds when the stored profile fits the new tuning in all respects. -/
theorem revalidated_eq_ok_iff (after : ConfiguredTuning) :
    tuning.revalidated = .ok after ↔
      ((∀ profile, tuning.autotuneProfile = some profile →
        ProfileFits tuning profile) ∧ tuning.ProfileMatches) ∧ after = tuning := by
  rw [revalidated]
  split
  case h_1 absent =>
    simp only [ProfileMatches, absent]
    simp [eq_comm]
  case h_2 profile present =>
    rw [bind_eq_ok_iff]
    simp only [validateAutotuneProfile_eq_ok_iff, ProfileMatches, present,
      Option.some.injEq, forall_eq', exists_const, Except.ok.injEq]
    exact and_congr_right fun _ => eq_comm

theorem sound_of_revalidated {after : ConfiguredTuning}
    (shaped : TuningShaped tuning.toCollectiveTuning)
    (made : tuning.revalidated = .ok after) : TuningSound after := by
  obtain ⟨⟨fits, _⟩, rfl⟩ := (revalidated_eq_ok_iff after).mp made
  exact ⟨shaped, fits⟩

section Builders

variable {after : ConfiguredTuning} (sound : TuningSound tuning)

include sound

theorem sound_withDirectTransport {bandwidth latency : Nat}
    (made : tuning.withDirectTransport bandwidth latency = .ok after) :
    TuningSound after := by
  obtain ⟨_, positive, made⟩ := of_bind made
  refine sound_of_revalidated ?_ made
  exact { sound.toTuningShaped with
    directBandwidth := (rejectIf_eq_ok_iff ..).mp positive }

theorem sound_withTransport {transport : CollectiveTransport}
    (made : tuning.withTransport transport = .ok after) :
    TuningSound after := by
  rw [withTransport] at made
  refine sound_of_revalidated ?_ made
  exact sound.toTuningShaped

theorem shaped_hierarchy {groups : List (List Nat)}
    (valid : ValidGroups tuning.topology.worldSize groups) :
    TuningShaped { tuning.toCollectiveTuning with
      hierarchyGroups := some groups } :=
  { sound.toTuningShaped with
    groups := by
      rintro _ ⟨⟩
      exact valid }

theorem sound_withHierarchy {groups : List (List Nat)}
    (made : tuning.withHierarchy groups = .ok after) :
    TuningSound after := by
  obtain ⟨_, checked, made⟩ := of_bind made
  refine sound_of_revalidated ?_ made
  exact shaped_hierarchy sound ((validateHierarchyGroups_eq_ok_iff ..).mp checked)

theorem sound_withInferredHierarchy {payloadBytes : Nat}
    (made : tuning.withInferredHierarchy payloadBytes = .ok after) :
    TuningSound after := by
  obtain ⟨_, _, made⟩ := of_bind made
  obtain ⟨⟨score, groups⟩, best, made⟩ := of_bind made
  rw [okOr_eq_ok_iff] at best
  obtain ⟨candidate, among, scored⟩ := List.mem_filterMap.mp (mem_of_bestBy best)
  obtain ⟨_, _, same⟩ := Option.map_eq_some_iff.mp scored
  cases same
  refine sound_of_revalidated ?_ made
  exact shaped_hierarchy sound (CollectiveTopology.hierarchyCandidates_valid _ among)

theorem sound_withRingChannels {channels : Nat}
    (made : tuning.withRingChannels channels = .ok after) :
    TuningSound after := by
  obtain ⟨_, checked, made⟩ := of_bind made
  refine sound_of_revalidated ?_ made
  exact { sound.toTuningShaped with
    ringChannels := (validateRingChannels_eq_ok_iff ..).mp checked }

theorem sound_withP2pRails {rails : Nat}
    (made : tuning.withP2pRails rails = .ok after) : TuningSound after := by
  obtain ⟨_, counted, made⟩ := of_bind made
  obtain ⟨_, ordered, made⟩ := of_bind made
  refine sound_of_revalidated ?_ made
  exact { sound.toTuningShaped with
    p2pRails := (validateP2pRails_eq_ok_iff ..).mp counted
    railOrder := by
      intro order present
      change tuning.railOrderOverride = some order at present
      rw [checkRailOverride, present] at ordered
      exact (validateRailOrder_eq_ok_iff ..).mp ordered }

theorem sound_withRailOrder {order : List Nat} (made : tuning.withRailOrder order = .ok after) :
    TuningSound after := by
  obtain ⟨_, checked, made⟩ := of_bind made
  refine sound_of_revalidated ?_ made
  exact { sound.toTuningShaped with
    railOrder := by
      rintro _ ⟨⟩
      exact (validateRailOrder_eq_ok_iff ..).mp checked }

theorem sound_storeProfile {profile : CollectiveAutotuneProfile}
    (fits : ProfileFits tuning profile) :
    TuningSound (tuning.storeProfile profile) :=
  ⟨{ sound.toTuningShaped with }, by
    rintro _ ⟨⟩
    exact ⟨fits.version, fits.worldSize, fits.measurements⟩⟩

theorem sound_withAutotuneProfile {profile : CollectiveAutotuneProfile}
    (made : tuning.withAutotuneProfile profile = .ok after) :
    TuningSound after := by
  obtain ⟨_, checked, same⟩ := of_bind made
  cases same
  exact sound_storeProfile sound ((validateAutotuneProfile_eq_ok_iff ..).mp checked).1

theorem sound_withAutotuneProfilePath {environment : Environment} {path : List Char}
    (made : tuning.withAutotuneProfilePath environment path = .ok after) :
    TuningSound after := by
  rw [withAutotuneProfilePath] at made
  split at made
  · cases made
  · cases made
  · obtain ⟨_, _, made⟩ := of_bind made
    obtain ⟨_, _, made⟩ := of_bind made
    obtain ⟨_, _, made⟩ := of_bind made
    obtain ⟨_, _, made⟩ := of_bind made
    obtain ⟨_, _, made⟩ := of_bind made
    obtain ⟨_, checked, same⟩ := of_bind made
    cases same
    exact sound_storeProfile sound ((validateWithDetected_eq_ok_iff ..).mp checked).1

end Builders

theorem sound_fromTopology {policy : AlgorithmPolicy} {threshold : Nat}
    {topology : CollectiveTopology} {order : Option (List Nat)}
    (shaped : topology.Shaped)
    (made : fromTopology policy threshold topology order = .ok tuning) :
    TuningSound tuning := by
  obtain ⟨ringOrder, _, made⟩ := of_bind made
  obtain ⟨_, checked, same⟩ := of_bind made
  obtain ⟨some, whole⟩ := (validateRingOrder_eq_ok_iff ..).mp checked
  obtain ⟨first, all⟩ := ringOrdersWithPrimary_perm some whole
  cases same
  have one : 1 ≤ 1 ∧ 1 ≤ 64 := by decide
  have fast : defaultBandwidthMbps ≠ 0 := by decide
  refine ⟨⟨shaped, whole, first, all, one, one, ?_, ?_, fast⟩, ?_⟩
  · rintro _ ⟨⟩
  · rintro _ ⟨⟩
  · rintro _ ⟨⟩

theorem sound_new {policy : AlgorithmPolicy} {threshold : Nat}
    {order : List Nat} (made : new policy threshold order = .ok tuning) :
    TuningSound tuning := by
  obtain ⟨_, _, made⟩ := of_bind made
  obtain ⟨topology, uniform, made⟩ := of_bind made
  exact sound_fromTopology (CollectiveTopology.shaped_uniform uniform).1 made

theorem read_eq_ok {α : Type} {environment : Environment}
    {name : TuningVariable} {absent : Except TopologyError α}
    {present : List Char → Except TopologyError α} {value : α}
    (ran : environment.read name absent present = .ok value) :
    absent = .ok value ∨ ∃ text, present text = .ok value := by
  rw [Environment.read] at ran
  split at ran
  · exact Or.inl ran
  · exact Or.inr ⟨_, ran⟩
  · cases ran

theorem shaped_readTopology {environment : Environment} {worldSize : Nat}
    {probed : Option CollectiveTopology} {topology : CollectiveTopology}
    (fine : ∀ other, probed = some other → other.Shaped ∧ other.worldSize = worldSize)
    (ran : environment.readTopology worldSize probed = .ok topology) :
    topology.Shaped ∧ topology.worldSize = worldSize := by
  rcases read_eq_ok ran with absent | ⟨text, present⟩
  · split at absent
    case h_1 other =>
      cases absent
      exact fine _ rfl
    case h_2 => exact CollectiveTopology.shaped_uniform absent
  · split at present
    · exact fine _ ((okOr_eq_ok_iff ..).mp present)
    · exact shaped_parseTopologyLinks present

theorem groups_readGroups {environment : Environment} {worldSize : Nat}
    {groups : Option (List (List Nat))} {inferred : Option Nat}
    (ran : environment.readGroups worldSize = .ok (groups, inferred)) :
    ∀ given, groups = some given → ValidGroups worldSize given := by
  rintro given rfl
  rcases read_eq_ok ran with absent | ⟨text, present⟩
  · cases absent
  · split at present
    · obtain ⟨_, _, present⟩ := of_bind present
      obtain ⟨_, _, present⟩ := of_bind present
      cases present
    · obtain ⟨_, parsed, same⟩ := of_bind present
      cases same
      exact parseHierarchyGroups_valid parsed

theorem sound_readVariables {environment : Environment} {worldSize : Nat}
    {probed : Option CollectiveTopology} {inferred : Option Nat}
    (fine : ∀ other, probed = some other → other.Shaped ∧ other.worldSize = worldSize)
    (ran : readVariables environment worldSize probed =
      .ok (tuning, inferred)) : TuningSound tuning := by
  obtain ⟨_, _, ran⟩ := of_bind ran
  obtain ⟨_, _, ran⟩ := of_bind ran
  obtain ⟨_, _, ran⟩ := of_bind ran
  obtain ⟨_, channels, ran⟩ := of_bind ran
  obtain ⟨_, _, ran⟩ := of_bind ran
  obtain ⟨_, rails, ran⟩ := of_bind ran
  obtain ⟨_, _, ran⟩ := of_bind ran
  obtain ⟨_, bandwidth, ran⟩ := of_bind ran
  obtain ⟨_, _, ran⟩ := of_bind ran
  obtain ⟨_, _, ran⟩ := of_bind ran
  obtain ⟨links, linked, ran⟩ := of_bind ran
  obtain ⟨railed, railRead, ran⟩ := of_bind ran
  obtain ⟨topology, aggregateRead, ran⟩ := of_bind ran
  obtain ⟨override, overridden, ran⟩ := of_bind ran
  obtain ⟨order, ordered, ran⟩ := of_bind ran
  obtain ⟨⟨groups, _⟩, grouped, ran⟩ := of_bind ran
  cases ran
  obtain ⟨linksShaped, linksSized⟩ := shaped_readTopology fine linked
  have withRails : links.Extends railed := by
    rcases read_eq_ok railRead with absent | ⟨_, present⟩
    · cases absent
      exact .refl _
    · exact extends_parseTopologyRailLinks present
  have withAggregate : railed.Extends topology := by
    rcases read_eq_ok aggregateRead with absent | ⟨_, present⟩
    · cases absent
      exact .refl _
    · exact extends_parseTopologyAggregateLinks present
  have extended := withRails.trans withAggregate
  have shaped := extended.shaped linksShaped
  have sized : topology.worldSize = worldSize := extended.worldSize.trans linksSized
  have whole : order.Perm (List.range topology.worldSize) := by
    rcases read_eq_ok ordered with absent | ⟨_, present⟩
    · exact CollectiveTopology.bestRingOrder_perm shaped.someRank absent
    · rw [sized]
      exact parseRingOrder_perm present
  obtain ⟨first, all⟩ := ringOrdersWithPrimary_perm shaped.someRank whole
  refine ⟨⟨shaped, whole, first, all, (validateRingChannels_eq_ok_iff ..).mp channels,
    (validateP2pRails_eq_ok_iff ..).mp rails, ?_, ?_,
    (rejectIf_eq_ok_iff ..).mp bandwidth⟩, ?_⟩
  · rintro given rfl
    rcases read_eq_ok overridden with absent | ⟨text, present⟩
    · cases absent
    · split at present
      · cases present
      · cases parsed : parseRailOrder _ text with
        | error failure =>
            rw [parsed] at present
            cases present
        | ok rails =>
            rw [parsed] at present
            cases present
            exact parseRailOrder_perm parsed
  · intro given present
    rw [sized]
    exact groups_readGroups grouped given present
  · rintro _ ⟨⟩

theorem sound_fromEnvironmentImpl {environment : Environment}
    {worldSize : Nat} {probed : Option CollectiveTopology}
    (fine : ∀ other, probed = some other → other.Shaped ∧ other.worldSize = worldSize)
    (made : fromEnvironmentImpl environment worldSize probed = .ok tuning) :
    TuningSound tuning := by
  obtain ⟨⟨start, inferred⟩, read, made⟩ := of_bind made
  obtain ⟨grouped, infers, made⟩ := of_bind made
  obtain ⟨_, _, made⟩ := of_bind made
  have sound := sound_readVariables fine read
  have groupedSound : TuningSound grouped := by
    cases inferred with
    | none =>
        cases infers
        exact sound
    | some payloadBytes => exact sound_withInferredHierarchy sound infers
  rcases read_eq_ok made with absent | ⟨path, present⟩
  · cases absent
    exact groupedSound
  · exact sound_withAutotuneProfilePath groupedSound present

/-- The invariant holds of every tuning there is. -/
theorem Reachable.sound (reachable : Reachable tuning) :
    TuningSound tuning := by
  induction reachable with
  | new made => exact sound_new made
  | fromTopology built made => exact sound_fromTopology built.shaped made
  | fromEnvironment made => exact sound_fromEnvironmentImpl (fun _ absent => by cases absent) made
  | fromEnvironmentWithTopology built made =>
      refine sound_fromEnvironmentImpl ?_ made
      rintro other ⟨⟩
      exact ⟨built.shaped, rfl⟩
  | withDirectTransport _ made sound => exact sound_withDirectTransport sound made
  | withTransport _ made sound => exact sound_withTransport sound made
  | withHierarchy _ made sound => exact sound_withHierarchy sound made
  | withInferredHierarchy _ made sound => exact sound_withInferredHierarchy sound made
  | withRingChannels _ made sound => exact sound_withRingChannels sound made
  | withP2pRails _ made sound => exact sound_withP2pRails sound made
  | withRailOrder _ made sound => exact sound_withRailOrder sound made
  | withAutotuneProfile _ made sound => exact sound_withAutotuneProfile sound made
  | withAutotuneProfilePath _ made sound => exact sound_withAutotuneProfilePath sound made

end ConfiguredTuning

end RuCCL.Rank
