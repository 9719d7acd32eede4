import RuCCL.Rank.PlanAgreement
import RuCCL.Rank.TuningInvariant

/-!
# Every plan can be executed

Whatever policy, profile, groups and payload come together, the plan names an
algorithm that its dispatcher runs, with channels whose rings and rails exist.
-/

namespace RuCCL.Rank

open RuCCL.Library

/-- The algorithm that a collective runs for the one that its plan names. -/
def dispatched : CollectiveKind → CollectiveAlgorithm → CollectiveAlgorithm
  | .allToAll, .pairwise => .pairwise
  | .allToAll, _ => .direct
  | _, .hierarchical => .hierarchical
  | _, .ring => .ring
  | _, .direct => .direct
  | _, .pairwise => .direct

def CollectiveTuning.railForChannel (tuning : CollectiveTuning) (channel : Nat) : Nat :=
  tuning.railOrder.getD (channel % tuning.railOrder.length) 0

/-- The estimates that a plan compares. -/
def CollectivePlan.estimates (plan : CollectivePlan) : List Nat := plan.directEstimatedTimeNs ::
    (plan.peerEstimatedTimeNs.toList ++ plan.hierarchicalEstimatedTimeNs.toList)

/-- A plan that can be executed. -/
structure PlanExecutable (tuning : CollectiveTuning)
    (kind : CollectiveKind) (plan : CollectivePlan) : Prop where
  implemented : dispatched kind plan.algorithm = plan.algorithm
  grouped : plan.algorithm = .hierarchical → ∃ groups, tuning.hierarchyGroups = some groups ∧
      validateHierarchyGroups tuning.topology.worldSize groups = .ok ()
  channels : 1 ≤ plan.ringChannels ∧ plan.ringChannels ≤ maxRingChannels
  rings : ∀ channel < plan.ringChannels, tuning.ringOrders[channel % tuning.ringOrders.length]? =
        some (tuning.ringOrderForChannel channel) ∧
      (tuning.ringOrderForChannel channel).Perm (List.range tuning.topology.worldSize)
  rails : ∀ channel < plan.ringChannels, tuning.railOrder[channel % tuning.railOrder.length]? =
        some (tuning.railForChannel channel) ∧
      tuning.railForChannel channel < tuning.p2pRails

namespace TuningShaped

variable {tuning : CollectiveTuning} (shaped : TuningShaped tuning)

include shaped

theorem railOrder_perm : tuning.railOrder.Perm (List.range tuning.p2pRails) := by
  rw [CollectiveTuning.railOrder]
  cases given : tuning.railOrderOverride with
  | none => exact List.mergeSort_perm _ _
  | some order => exact shaped.railOrder order given

theorem railFor (channel : Nat) :
    tuning.railOrder[channel % tuning.railOrder.length]? = some (tuning.railForChannel channel) ∧
      tuning.railForChannel channel < tuning.p2pRails := by
  have whole := shaped.railOrder_perm
  have length : tuning.railOrder.length = tuning.p2pRails := by
    rw [whole.length_eq, List.length_range]
  have inside : channel % tuning.railOrder.length <
      tuning.railOrder.length := by
    refine Nat.mod_lt _ ?_
    rw [length]
    exact shaped.p2pRails.1
  have found := List.getElem?_eq_getElem inside
  rw [CollectiveTuning.railForChannel, List.getD_eq_getElem?_getD, found]
  refine ⟨rfl, List.mem_range.mp (whole.mem_iff.mp ?_)⟩
  exact List.mem_of_getElem? found

theorem ringOrderFor (channel : Nat) :
    tuning.ringOrders[channel % tuning.ringOrders.length]? =
        some (tuning.ringOrderForChannel channel) ∧
      (tuning.ringOrderForChannel channel).Perm (List.range tuning.topology.worldSize) := by
  have inside : channel % tuning.ringOrders.length <
      tuning.ringOrders.length :=
    Nat.mod_lt _ (List.length_pos_iff.mpr shaped.someRing)
  have found := List.getElem?_eq_getElem inside
  rw [CollectiveTuning.ringOrderForChannel, List.getD_eq_getElem?_getD, found]
  exact ⟨rfl, shaped.ringOrders _ (List.mem_of_getElem? found)⟩

theorem grouped_of_isSome (grouped : tuning.hierarchyGroups.isSome = true) :
    ∃ groups, tuning.hierarchyGroups = some groups ∧
      validateHierarchyGroups tuning.topology.worldSize groups = .ok () := by
  obtain ⟨groups, given⟩ := Option.isSome_iff_exists.mp grouped
  exact ⟨groups, given, (validateHierarchyGroups_eq_ok_iff ..).mpr (shaped.groups groups given)⟩

end TuningShaped

theorem dispatched_of_validAlgorithm {kind : CollectiveKind} {algorithm : CollectiveAlgorithm}
    (valid : validAlgorithm kind algorithm = true) :
    dispatched kind algorithm = algorithm := by
  cases kind <;> cases algorithm <;> first | rfl | cases valid

theorem isSome_of_hierarchicalEstimate {tuning : CollectiveTuning}
    {kind : CollectiveKind} {payloadBytes estimate : Nat}
    (estimated : tuning.hierarchicalEstimatedTimeNs kind payloadBytes = some estimate) :
    tuning.hierarchyGroups.isSome = true ∧ kind ≠ .allToAll := by
  obtain ⟨groups, given, rest⟩ := Option.bind_eq_some_iff.mp estimated
  refine ⟨Option.isSome_iff_exists.mpr ⟨groups, given⟩, ?_⟩
  rintro rfl
  rw [if_pos rfl] at rest
  cases rest

section LeastEstimate

variable (tuning : CollectiveTuning) (kind : CollectiveKind) (payloadBytes : Nat)

/-- The estimates that `plan` compares. -/
def CollectiveTuning.estimates : List Nat := tuning.directEstimatedTimeNs kind payloadBytes ::
    ((tuning.peerEstimatedTimeNs kind payloadBytes).toList ++
      (tuning.hierarchicalEstimatedTimeNs kind payloadBytes).toList)

def CollectiveTuning.estimateOf : CollectiveAlgorithm → Nat
  | .direct => tuning.directEstimatedTimeNs kind payloadBytes
  | .ring => (tuning.peerEstimatedTimeNs kind payloadBytes).getD maxU64
  | .pairwise => (tuning.peerEstimatedTimeNs kind payloadBytes).getD maxU64
  | .hierarchical => (tuning.hierarchicalEstimatedTimeNs kind payloadBytes).getD maxU64

theorem estimateOf_peerAlgorithm :
    tuning.estimateOf kind payloadBytes (CollectiveTuning.peerAlgorithm kind) =
      (tuning.peerEstimatedTimeNs kind payloadBytes).getD maxU64 := by
  cases kind <;> rfl

/-- The better of the direct algorithm and that between peers. -/
theorem betterOfTwo_spec :
    ∃ best : CollectiveAlgorithm × Nat,
      best = (match tuning.peerEstimatedTimeNs kind payloadBytes with
        | some estimate =>
            if estimate < tuning.directEstimatedTimeNs kind payloadBytes then
              (CollectiveTuning.peerAlgorithm kind, estimate)
            else (.direct, tuning.directEstimatedTimeNs kind payloadBytes)
        | none => (.direct, tuning.directEstimatedTimeNs kind payloadBytes)) ∧
      (best.1 = .direct ∨ best.1 = CollectiveTuning.peerAlgorithm kind) ∧
      tuning.estimateOf kind payloadBytes best.1 = best.2 ∧
      best.2 ∈ tuning.directEstimatedTimeNs kind payloadBytes ::
        (tuning.peerEstimatedTimeNs kind payloadBytes).toList ∧
      ∀ estimate ∈ tuning.directEstimatedTimeNs kind payloadBytes ::
        (tuning.peerEstimatedTimeNs kind payloadBytes).toList,
        best.2 ≤ estimate := by
  refine ⟨_, rfl, ?_⟩
  have ofPeer := estimateOf_peerAlgorithm tuning kind payloadBytes
  cases known : tuning.peerEstimatedTimeNs kind payloadBytes with
  | none => exact ⟨Or.inl rfl, rfl, by simp, by simp⟩
  | some peer =>
      rw [known, Option.getD_some] at ofPeer
      by_cases cheaper :
          peer < tuning.directEstimatedTimeNs kind payloadBytes
      · dsimp only
        rw [if_pos cheaper]
        exact ⟨Or.inr rfl, ofPeer, by simp, by simp [cheaper.le]⟩
      · dsimp only
        rw [if_neg cheaper]
        exact ⟨Or.inl rfl, rfl, by simp, by simp [Nat.not_lt.mp cheaper]⟩

/-- What the model chooses. -/
theorem modelAlgorithm_spec :
    (tuning.modelAlgorithm kind payloadBytes = .direct ∨ tuning.modelAlgorithm kind payloadBytes =
          CollectiveTuning.peerAlgorithm kind ∨
        tuning.modelAlgorithm kind payloadBytes = .hierarchical ∧
          ∃ estimate, tuning.hierarchicalEstimatedTimeNs kind payloadBytes = some estimate) ∧
      tuning.estimateOf kind payloadBytes (tuning.modelAlgorithm kind payloadBytes) ∈
        tuning.estimates kind payloadBytes ∧
      ∀ estimate ∈ tuning.estimates kind payloadBytes, tuning.estimateOf kind payloadBytes
          (tuning.modelAlgorithm kind payloadBytes) ≤ estimate := by
  obtain ⟨best, isBest, either, ofBest, among, least⟩ := betterOfTwo_spec tuning kind payloadBytes
  have unfolded : tuning.modelAlgorithm kind payloadBytes =
      if kind = .allToAll then best.1
      else
        match tuning.hierarchicalEstimatedTimeNs kind payloadBytes with
        | some estimate => if estimate < best.2 then .hierarchical else best.1
        | none => best.1 := by
    rw [isBest]
    rfl
  cases estimated :
      tuning.hierarchicalEstimatedTimeNs kind payloadBytes with
  | none =>
      have chosen : tuning.modelAlgorithm kind payloadBytes = best.1 := by
        rw [unfolded, estimated]
        exact ite_self _
      have listed : tuning.estimates kind payloadBytes =
          tuning.directEstimatedTimeNs kind payloadBytes ::
            (tuning.peerEstimatedTimeNs kind payloadBytes).toList := by
        rw [CollectiveTuning.estimates, estimated]
        simp
      rw [chosen, ofBest, listed]
      exact ⟨either.imp_right Or.inl, among, least⟩
  | some hierarchical =>
      have reduces := (isSome_of_hierarchicalEstimate estimated).2
      rw [if_neg reduces, estimated] at unfolded
      have listed : ∀ estimate, estimate ∈ tuning.estimates kind payloadBytes ↔
            estimate ∈ tuning.directEstimatedTimeNs kind payloadBytes ::
                (tuning.peerEstimatedTimeNs kind payloadBytes).toList ∨
              estimate = hierarchical := by
        intro estimate
        rw [CollectiveTuning.estimates, estimated, ← List.cons_append, List.mem_append]
        simp
      simp only [listed]
      by_cases cheaper : hierarchical < best.2
      · have chosen : tuning.modelAlgorithm kind payloadBytes = .hierarchical := by
          rw [unfolded]
          exact if_pos cheaper
        have cost : tuning.estimateOf kind payloadBytes .hierarchical =
            hierarchical := by
          rw [CollectiveTuning.estimateOf, estimated, Option.getD_some]
        rw [chosen, cost]
        refine ⟨Or.inr (Or.inr ⟨rfl, hierarchical, rfl⟩), Or.inr rfl, ?_⟩
        rintro estimate (earlier | rfl)
        · exact cheaper.le.trans (least estimate earlier)
        · exact Nat.le_refl _
      · have chosen : tuning.modelAlgorithm kind payloadBytes = best.1 := by
          rw [unfolded]
          exact if_neg cheaper
        rw [chosen, ofBest]
        refine ⟨either.imp_right Or.inl, Or.inl among, ?_⟩
        rintro estimate (earlier | rfl)
        · exact least estimate earlier
        · exact Nat.not_lt.mp cheaper

end LeastEstimate

namespace TuningSound

variable {tuning : ConfiguredTuning} (sound : TuningSound tuning)

include sound

/-- An entry that a plan uses has been checked. -/
theorem entry_checked {kind : CollectiveKind} {payloadBytes : Nat}
    {entry : CollectiveAutotuneEntry}
    (found : tuning.autotuneEntry kind payloadBytes = some entry) :
    dispatched kind entry.algorithm = entry.algorithm ∧
      (entry.algorithm = .hierarchical → tuning.hierarchyGroups.isSome = true) ∧
      1 ≤ entry.ringChannels ∧ entry.ringChannels ≤ maxRingChannels := by
  obtain ⟨entries, stored, located⟩ := Option.bind_eq_some_iff.mp found
  rw [tuning.entries_eq] at stored
  obtain ⟨profile, present, rfl⟩ := Option.map_eq_some_iff.mp stored
  have among := List.mem_of_find?_eq_some located
  have applies := List.find?_some located
  have operation : entry.operation = kind := (of_decide_eq_true applies).1
  have measured := (sound.profile profile present).measurements
  obtain ⟨_, _, measured⟩ := of_bind measured
  obtain ⟨_, _, measured⟩ := of_bind measured
  obtain ⟨_, each, _⟩ := of_bind measured
  have checked := forM_eq_ok_iff.mp each entry among
  obtain ⟨_, _, checked⟩ := of_bind checked
  obtain ⟨_, _, checked⟩ := of_bind checked
  obtain ⟨_, counted, checked⟩ := of_bind checked
  obtain ⟨_, algorithm, checked⟩ := of_bind checked
  have valid := not_not.mp ((rejectIf_eq_ok_iff ..).mp algorithm)
  have needs := (rejectIf_eq_ok_iff ..).mp checked
  rw [operation] at valid
  refine ⟨dispatched_of_validAlgorithm valid, fun hierarchical => ?_, ?_⟩
  · by_contra none
    exact needs ⟨hierarchical, none⟩
  · cases channels : validateRingChannels entry.ringChannels with
    | error failure =>
        rw [channels] at counted
        cases counted
    | ok done => exact (validateRingChannels_eq_ok_iff ..).mp channels

/-- What a choice has to satisfy for its plan to be executable. -/
def Runnable (tuning : CollectiveTuning) (kind : CollectiveKind)
    (algorithm : CollectiveAlgorithm) (channels : Nat) : Prop :=
  dispatched kind algorithm = algorithm ∧
    (algorithm = .hierarchical → tuning.hierarchyGroups.isSome = true) ∧
      1 ≤ channels ∧ channels ≤ maxRingChannels

theorem runnable_direct (kind : CollectiveKind) :
    Runnable tuning.toCollectiveTuning kind .direct tuning.ringChannels := by
  refine ⟨?_, ?_, sound.ringChannels⟩
  · cases kind <;> rfl
  · intro impossible
    cases impossible

theorem runnable_peer (kind : CollectiveKind) :
    Runnable tuning.toCollectiveTuning kind
      (CollectiveTuning.peerAlgorithm kind) tuning.ringChannels := by
  refine ⟨?_, ?_, sound.ringChannels⟩
  · cases kind <;> rfl
  · intro impossible
    cases kind <;> cases impossible

theorem runnable_hierarchical {kind : CollectiveKind} {payloadBytes estimate : Nat}
    (estimated : tuning.hierarchicalEstimatedTimeNs kind payloadBytes = some estimate) :
    Runnable tuning.toCollectiveTuning kind .hierarchical
      tuning.ringChannels := by
  obtain ⟨grouped, reduces⟩ := isSome_of_hierarchicalEstimate estimated
  refine ⟨?_, fun _ => grouped, sound.ringChannels⟩
  cases kind with
  | allToAll => exact absurd rfl reduces
  | allReduce => rfl
  | allGather => rfl
  | reduceScatter => rfl

theorem runnable_model (kind : CollectiveKind) (payloadBytes : Nat) :
    Runnable tuning.toCollectiveTuning kind
      (tuning.modelAlgorithm kind payloadBytes) tuning.ringChannels := by
  obtain ⟨algorithm | algorithm | ⟨algorithm, estimate, estimated⟩, _⟩ :=
    modelAlgorithm_spec tuning.toCollectiveTuning kind payloadBytes
  · rw [algorithm]
    exact sound.runnable_direct kind
  · rw [algorithm]
    exact sound.runnable_peer kind
  · rw [algorithm]
    exact sound.runnable_hierarchical estimated

theorem runnable_choose (kind : CollectiveKind) (payloadBytes : Nat) :
    Runnable tuning.toCollectiveTuning kind (tuning.choose kind payloadBytes).1
      (tuning.choose kind payloadBytes).2.2.2 := by
  have direct := sound.runnable_direct kind
  have peer := sound.runnable_peer kind
  unfold CollectiveTuning.choose
  by_cases alone : tuning.ringOrder.length ≤ 1
  · rw [if_pos alone]
    exact direct
  · rw [if_neg alone]
    cases policy : tuning.algorithmPolicy with
    | direct => exact direct
    | ring => exact peer
    | hierarchical =>
        dsimp only
        split
        · exact peer
        · cases estimated :
              tuning.hierarchicalEstimatedTimeNs kind payloadBytes with
          | none => exact peer
          | some estimate => exact sound.runnable_hierarchical estimated
    | auto =>
        dsimp only
        cases found : tuning.autotuneEntry kind payloadBytes with
        | some entry => exact sound.entry_checked found
        | none =>
            dsimp only
            split
            · exact direct
            · exact sound.runnable_model kind payloadBytes

theorem plan_executable (kind : CollectiveKind) (payloadBytes : Nat) :
    PlanExecutable tuning.toCollectiveTuning kind (tuning.plan kind payloadBytes) := by
  obtain ⟨algorithm, channels⟩ := plan_choice tuning.toCollectiveTuning kind payloadBytes
  obtain ⟨implemented, grouped, counted⟩ := sound.runnable_choose kind payloadBytes
  rw [← algorithm] at implemented grouped
  rw [← channels] at counted
  exact
    { implemented := implemented
      grouped := fun chosen =>
        sound.toTuningShaped.grouped_of_isSome (grouped chosen)
      channels := counted
      rings := fun channel _ => sound.toTuningShaped.ringOrderFor channel
      rails := fun channel _ => sound.toTuningShaped.railFor channel }

end TuningSound

/-- A plan reports the estimates of its tuning, whatever has chosen it. -/
theorem plan_estimates (tuning : CollectiveTuning) (kind : CollectiveKind) (payloadBytes : Nat) :
    (tuning.plan kind payloadBytes).estimates =
      tuning.estimates kind payloadBytes :=
  rfl

/-- The model takes the least of the estimates of its tuning. -/
theorem estimateOf_plan_least {tuning : CollectiveTuning}
    {kind : CollectiveKind} {payloadBytes : Nat}
    (auto : tuning.algorithmPolicy = .auto)
    (several : 1 < tuning.ringOrder.length)
    (missing : tuning.autotuneEntry kind payloadBytes = none)
    (large : tuning.ringThresholdBytes ≤ payloadBytes) :
    (tuning.plan kind payloadBytes).estimatedTimeNs = tuning.estimateOf kind payloadBytes
          (tuning.plan kind payloadBytes).algorithm ∧
      tuning.estimateOf kind payloadBytes (tuning.plan kind payloadBytes).algorithm ∈
        tuning.estimates kind payloadBytes ∧
      ∀ estimate ∈ tuning.estimates kind payloadBytes, tuning.estimateOf kind payloadBytes
          (tuning.plan kind payloadBytes).algorithm ≤ estimate := by
  have chosen : tuning.choose kind payloadBytes =
      (tuning.modelAlgorithm kind payloadBytes, .model, none, tuning.ringChannels) := by
    rw [CollectiveTuning.choose, if_neg (Nat.not_le.mpr several), auto]
    dsimp only
    rw [missing]
    exact if_neg (Nat.not_lt.mpr large)
  have algorithm : (tuning.plan kind payloadBytes).algorithm =
      tuning.modelAlgorithm kind payloadBytes := by
    rw [(plan_choice tuning kind payloadBytes).1, chosen]
  have estimated : (tuning.plan kind payloadBytes).estimatedTimeNs =
      tuning.estimateOf kind payloadBytes (tuning.modelAlgorithm kind payloadBytes) := by
    rw [CollectiveTuning.plan, chosen]
    rfl
  rw [algorithm]
  exact ⟨estimated, (modelAlgorithm_spec tuning kind payloadBytes).2⟩

/-- Every plan of every tuning can be executed and reports the estimates of the
tuning, and where the model decides, its algorithm has the least of them. -/
theorem plan_executable_of_reachable (tuning : ConfiguredTuning)
    (reachable : tuning.Reachable) (kind : CollectiveKind)
    (payloadBytes : Nat) :
    PlanExecutable tuning.toCollectiveTuning kind (tuning.plan kind payloadBytes) ∧
      (tuning.plan kind payloadBytes).estimates = tuning.estimates kind payloadBytes ∧
      (tuning.algorithmPolicy = .auto → 1 < tuning.ringOrder.length →
        tuning.autotuneEntry kind payloadBytes = none →
        tuning.ringThresholdBytes ≤ payloadBytes →
        (tuning.plan kind payloadBytes).estimatedTimeNs = tuning.estimateOf kind payloadBytes
              (tuning.plan kind payloadBytes).algorithm ∧
          tuning.estimateOf kind payloadBytes (tuning.plan kind payloadBytes).algorithm ∈
            tuning.estimates kind payloadBytes ∧
          ∀ estimate ∈ tuning.estimates kind payloadBytes, tuning.estimateOf kind payloadBytes
              (tuning.plan kind payloadBytes).algorithm ≤ estimate) :=
  ⟨reachable.sound.plan_executable kind payloadBytes,
    plan_estimates tuning.toCollectiveTuning kind payloadBytes,
    fun auto several missing large =>
      estimateOf_plan_least auto several missing large⟩

def pairTopology : CollectiveTopology :=
  { worldSize := 2
    links := [[none, some ⟨32000, 1000⟩], [some ⟨32000, 1000⟩, none]]
    railLinks := []
    aggregateLinks := [[none, none], [none, none]] }

theorem ringOrders_pairTopology : ringOrdersWithPrimary pairTopology [0, 1] = [[0, 1]] := by
  have best : pairTopology.bestRingOrders maxRingChannels = .ok [[0, 1]] := by
    decide +kernel
  rw [ringOrdersWithPrimary, best]
  simp [addRing]

theorem pairTuning_entries_eq :
    (none : Option (List CollectiveAutotuneEntry)) = (none : Option CollectiveAutotuneProfile).map
        CollectiveAutotuneProfile.entries :=
  rfl

/-- Two ranks, with nothing configured. -/
def pairTuning : ConfiguredTuning :=
  { algorithmPolicy := .auto
    ringThresholdBytes := 0
    ringOrder := [0, 1]
    ringOrders := [[0, 1]]
    ringChannels := 1
    p2pRails := 1
    railOrderOverride := none
    hierarchyGroups := none
    topology := pairTopology
    directBandwidthMbps := 32000
    directLatencyNs := 1000
    autotuneEntries := none
    transport := .tcpHostStaged
    autotuneProfile := none
    entries_eq := pairTuning_entries_eq }

theorem reachable_pairTuning : pairTuning.Reachable := by
  have uniform : CollectiveTopology.uniform 2 = .ok pairTopology := by
    decide
  have small : ¬[0, 1].length > maxU32 := by
    decide
  have valid : validateRingOrder 2 [0, 1] = .ok () := rfl
  have made : ConfiguredTuning.new .auto 0 [0, 1] = .ok pairTuning := by
    rw [ConfiguredTuning.new, (rejectIf_eq_ok_iff ..).mpr small]
    refine (bind_eq_ok_iff ..).mpr ⟨(), rfl, ?_⟩
    refine (bind_eq_ok_iff ..).mpr ⟨pairTopology, uniform, ?_⟩
    refine (bind_eq_ok_iff ..).mpr ⟨[0, 1], rfl, ?_⟩
    refine (bind_eq_ok_iff ..).mpr ⟨(), valid, ?_⟩
    rw [ringOrders_pairTopology]
    rfl
  exact .new made

theorem pairTuning_plan_executable :
    PlanExecutable pairTuning.toCollectiveTuning .allReduce (pairTuning.plan .allReduce 4096) ∧
      (pairTuning.plan .allReduce 4096).algorithm = .ring ∧
      ∀ estimate ∈ pairTuning.estimates .allReduce 4096,
        pairTuning.estimateOf .allReduce 4096 .ring ≤ estimate := by
  have general := plan_executable_of_reachable pairTuning reachable_pairTuning .allReduce 4096
  have ring : (pairTuning.plan .allReduce 4096).algorithm = .ring := by
    decide +kernel
  have least := (general.2.2 rfl (by decide) rfl (by decide)).2.2
  rw [ring] at least
  exact ⟨general.1, ring, least⟩

end RuCCL.Rank
