import RuCCL.Rank.PlanExecutable

/-!
# Builders that change nothing

Every builder checks the stored profile again, but without the topology that the
profile was measured on.  A builder that is given the values a tuning already has
therefore succeeds exactly when the profile is one of the tuning's own topology.
-/

namespace RuCCL.Rank

open RuCCL.Library

/-- A builder has given a tuning with the same plans. -/
def Reapplies (tuning : ConfiguredTuning)
    (again : Except TopologyError ConfiguredTuning) : Prop :=
  ∃ after, again = .ok after ∧ ∀ kind payloadBytes,
      after.plan kind payloadBytes = tuning.plan kind payloadBytes

/-- All builders accept the values that the tuning has and keep its plans. -/
structure BuildersIdempotent (tuning : ConfiguredTuning) : Prop where
  directTransport : Reapplies tuning
    (tuning.withDirectTransport tuning.directBandwidthMbps tuning.directLatencyNs)
  transport : Reapplies tuning (tuning.withTransport tuning.transport)
  hierarchy : ∀ groups, tuning.hierarchyGroups = some groups →
    Reapplies tuning (tuning.withHierarchy groups)
  ringChannels : Reapplies tuning (tuning.withRingChannels tuning.ringChannels)
  p2pRails : Reapplies tuning (tuning.withP2pRails tuning.p2pRails)
  railOrder : Reapplies tuning (tuning.withRailOrder tuning.railOrder)

namespace ConfiguredTuning

variable {tuning : ConfiguredTuning}

/-- The tuning with its order of the rails as the given one. -/
def railOrderPinned (tuning : ConfiguredTuning) : ConfiguredTuning :=
  { tuning with railOrderOverride := some tuning.railOrder }

theorem plan_railOrderPinned (kind : CollectiveKind) (payloadBytes : Nat) :
    tuning.railOrderPinned.plan kind payloadBytes =
      tuning.plan kind payloadBytes := by
  rfl

theorem fingerprint_railOrderPinned :
    tuning.railOrderPinned.topologyFingerprintHex =
      tuning.topologyFingerprintHex := by
  rfl

section Sound

variable (sound : TuningSound tuning) (matching : tuning.ProfileMatches)

include sound matching

theorem revalidated_of_matches : tuning.revalidated = .ok tuning :=
  (revalidated_eq_ok_iff tuning).mpr ⟨⟨sound.profile, matching⟩, rfl⟩

theorem reapplies_of_unchanged {again : Except TopologyError ConfiguredTuning}
    (unchanged : again = tuning.revalidated) : Reapplies tuning again :=
  ⟨tuning, unchanged.trans (revalidated_of_matches sound matching), fun _ _ => rfl⟩

theorem reapplies_railOrder : Reapplies tuning (tuning.withRailOrder tuning.railOrder) := by
  have valid : validateRailOrder tuning.p2pRails tuning.railOrder = .ok () :=
    (validateRailOrder_eq_ok_iff ..).mpr sound.toTuningShaped.railOrder_perm
  have kept : tuning.railOrderPinned.revalidated =
      .ok tuning.railOrderPinned := by
    refine (revalidated_eq_ok_iff _).mpr ⟨⟨?_, ?_⟩, rfl⟩
    · intro profile present
      have fits := sound.profile profile present
      exact ⟨fits.version, fits.worldSize, fits.measurements⟩
    · intro profile present
      exact (matching profile present).trans fingerprint_railOrderPinned.symm
  refine ⟨tuning.railOrderPinned, ?_, plan_railOrderPinned⟩
  exact (bind_eq_ok_iff ..).mpr ⟨(), valid, kept⟩

theorem buildersIdempotent_of_matches : BuildersIdempotent tuning := by
  have shaped := sound.toTuningShaped
  have again : ∀ {checks : Except TopologyError Unit}, checks = .ok () →
        Reapplies tuning (checks >>= fun _ => tuning.revalidated) := by
    intro checks passed
    refine reapplies_of_unchanged sound matching ?_
    rw [passed]
    rfl
  exact
    { directTransport := again ((rejectIf_eq_ok_iff ..).mpr shaped.directBandwidth)
      transport := reapplies_of_unchanged sound matching rfl
      hierarchy := by
        intro groups given
        have valid : validateHierarchyGroups tuning.topology.worldSize groups = .ok () :=
          (validateHierarchyGroups_eq_ok_iff ..).mpr (shaped.groups groups given)
        have unchanged :
            ({ tuning with hierarchyGroups := some groups } : ConfiguredTuning) = tuning := by
          rw [← given]
        rw [withHierarchy, unchanged]
        exact again valid
      ringChannels := again ((validateRingChannels_eq_ok_iff ..).mpr shaped.ringChannels)
      p2pRails := by
        have counted := (validateP2pRails_eq_ok_iff tuning.p2pRails ()).mpr shaped.p2pRails
        have ordered : tuning.checkRailOverride tuning.p2pRails = .ok () := by
          rw [checkRailOverride]
          cases given : tuning.railOrderOverride with
          | none => rfl
          | some order =>
              exact (validateRailOrder_eq_ok_iff ..).mpr (shaped.railOrder order given)
        rw [withP2pRails, counted]
        exact again ordered
      railOrder := reapplies_railOrder sound matching }

end Sound

theorem matches_of_transport (again : Reapplies tuning (tuning.withTransport tuning.transport)) :
    tuning.ProfileMatches := by
  obtain ⟨after, made, _⟩ := again
  exact ((revalidated_eq_ok_iff after).mp made).1.2

end ConfiguredTuning

/-- The builders are idempotent on a tuning exactly when the profile that it stores,
if any, has the fingerprint of the tuning's own topology. -/
theorem buildersIdempotent_iff (tuning : ConfiguredTuning) (reachable : tuning.Reachable) :
    BuildersIdempotent tuning ↔ tuning.ProfileMatches := by
  constructor
  · intro idempotent
    exact ConfiguredTuning.matches_of_transport idempotent.transport
  · intro matching
    exact ConfiguredTuning.buildersIdempotent_of_matches reachable.sound matching

/-- A profile that was measured over the links of `pairTuning`. -/
def measuredProfile : CollectiveAutotuneProfile :=
  { version := 2
    worldSize := 2
    topologyFingerprint := "0x2EE759E114CC4DC5".toList
    executionFingerprint := "ac2e661724f69fa1".toList
    entries := [⟨.allReduce, 0, 4096, .ring, 1, 500⟩] }

theorem measuredProfile_accepted :
    pairTuning.withAutotuneProfile measuredProfile =
      .ok (pairTuning.storeProfile measuredProfile) := by
  have valid : pairTuning.validateAutotuneProfile measuredProfile = .ok () := by
    decide +kernel
  exact (bind_eq_ok_iff ..).mpr ⟨(), valid, rfl⟩

theorem pairTuning_buildersIdempotent :
    BuildersIdempotent (pairTuning.storeProfile measuredProfile) := by
  have reachable : (pairTuning.storeProfile measuredProfile).Reachable :=
    .withAutotuneProfile reachable_pairTuning measuredProfile_accepted
  refine (buildersIdempotent_iff _ reachable).mpr ?_
  intro profile present
  cases present
  decide +kernel

/-- A profile that was measured over a link of half the bandwidth. -/
def probedProfile : CollectiveAutotuneProfile :=
  { measuredProfile with
    topologyFingerprint := "492d3910e47c2220".toList }

/-- The links are probed, and every file is a profile with the links that the probe
had found. -/
def probedEnvironment : Environment :=
  { value := fun name =>
      if name = .topologyLinks then .text "probe".toList else .absent
    file := fun _ => .document
      { detectedTopologyLinks := .text "0-1:16000:1000".toList
        detectedTopologyRailLinks := .absent
        detectedTopologyAggregateLinks := .absent
        profile := some probedProfile } }

theorem probedProfile_accepted :
    pairTuning.withAutotuneProfilePath probedEnvironment [] =
      .ok (pairTuning.storeProfile probedProfile) := by
  have valid : pairTuning.validateAutotuneProfileWithDetected probedProfile
      ⟨some "0-1:16000:1000".toList, none, none, true⟩ = .ok () := by
    decide +kernel
  refine (bind_eq_ok_iff ..).mpr ⟨some "0-1:16000:1000".toList, rfl, ?_⟩
  refine (bind_eq_ok_iff ..).mpr ⟨none, rfl, ?_⟩
  refine (bind_eq_ok_iff ..).mpr ⟨none, rfl, ?_⟩
  refine (bind_eq_ok_iff ..).mpr ⟨probedProfile, rfl, ?_⟩
  refine (bind_eq_ok_iff ..).mpr ⟨true, by decide, ?_⟩
  exact (bind_eq_ok_iff ..).mpr ⟨(), valid, rfl⟩

/-- A tuning that was accepted with such a profile rejects its own transport. -/
theorem probedTuning_not_idempotent :
    ∃ tuning : ConfiguredTuning, tuning.Reachable ∧ ¬BuildersIdempotent tuning ∧
      tuning.withTransport tuning.transport =
        .error (.invalidProfile (.topologyFingerprint
          "492d3910e47c2220".toList "2ee759e114cc4dc5".toList)) := by
  have rejected : (pairTuning.storeProfile probedProfile).withTransport .tcpHostStaged =
        .error (.invalidProfile (.topologyFingerprint
          "492d3910e47c2220".toList "2ee759e114cc4dc5".toList)) := by
    have checked : (pairTuning.storeProfile probedProfile).validateAutotuneProfile probedProfile =
        .error (.invalidProfile (.topologyFingerprint
          "492d3910e47c2220".toList "2ee759e114cc4dc5".toList)) := by
      decide +kernel
    change ((pairTuning.storeProfile
      probedProfile).validateAutotuneProfile probedProfile >>= fun _ =>
        Except.ok (pairTuning.storeProfile probedProfile)) = _
    rw [checked]
    rfl
  refine ⟨pairTuning.storeProfile probedProfile,
    .withAutotuneProfilePath reachable_pairTuning probedProfile_accepted,
    fun idempotent => ?_, rejected⟩
  obtain ⟨after, made, _⟩ := idempotent.transport
  rw [show (pairTuning.storeProfile probedProfile).transport =
    .tcpHostStaged from rfl, rejected] at made
  cases made

end RuCCL.Rank
