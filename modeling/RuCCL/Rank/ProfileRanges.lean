import RuCCL.Library.Ranges
import RuCCL.Rank.PlanExecutable

/-!
# The ranges of a profile

Only neighbours of the sorted ranges of a kind are compared, which is enough: no two
entries of a kind fit one payload, so the order of the entries does not matter.
-/

namespace RuCCL.Rank

open RuCCL.Library

/-- The payloads that an entry is for. -/
def CollectiveAutotuneEntry.range (entry : CollectiveAutotuneEntry) : Nat × Nat :=
  (entry.minPayloadBytes, entry.maxPayloadBytes)

/-- Two entries that are not both for one payload of one kind. -/
def EntriesApart (first second : CollectiveAutotuneEntry) : Prop :=
  first.operation = second.operation → RangesApart first.range second.range

instance : Std.Symm EntriesApart where
  symm _ _ apart same := (apart same.symm).symm

/-- The order in which ranges are sorted. -/
def rangeLe (first second : Nat × Nat) : Bool :=
  first.1 < second.1 ∨ (first.1 = second.1 ∧ first.2 ≤ second.2)

theorem rangeLe_iff {first second : Nat × Nat} :
    rangeLe first second = true ↔
      first.1 < second.1 ∨ (first.1 = second.1 ∧ first.2 ≤ second.2) :=
  decide_eq_true_iff

/-- The ranges of the entries of a kind. -/
def kindRanges (entries : List CollectiveAutotuneEntry)
    (kind : CollectiveKind) : List (Nat × Nat) :=
  (entries.filter fun entry => entry.operation = kind).map CollectiveAutotuneEntry.range

theorem sort_rangeLe_perm {ranges others : List (Nat × Nat)} (order : ranges.Perm others) :
    ranges.mergeSort rangeLe = others.mergeSort rangeLe := by
  have sorted : ∀ list : List (Nat × Nat), (list.mergeSort rangeLe).Pairwise fun first second =>
        rangeLe first second = true := by
    intro list
    refine List.pairwise_mergeSort ?_ ?_ list
    · intro first second third below above
      rw [rangeLe_iff] at below above ⊢
      omega
    · intro first second
      rw [Bool.or_eq_true, rangeLe_iff, rangeLe_iff]
      omega
  refine List.Perm.eq_of_pairwise ?_ (sorted ranges) (sorted others)
    ((List.mergeSort_perm _ _).trans (order.trans (List.mergeSort_perm _ _).symm))
  intro first second _ _ below above
  rw [rangeLe_iff] at below above
  exact Prod.ext (by omega) (by omega)

/-- The check of a kind is about its ranges, whatever their order. -/
theorem checkRanges_perm {entries others : List CollectiveAutotuneEntry}
    (order : entries.Perm others) (kind : CollectiveKind) :
    checkRanges entries kind = checkRanges others kind := by
  have same := sort_rangeLe_perm ((order.filter fun entry =>
    entry.operation = kind).map CollectiveAutotuneEntry.range)
  have unfolded : ∀ list, checkRanges list kind =
      (((kindRanges list kind).mergeSort rangeLe).zip
        ((kindRanges list kind).mergeSort rangeLe).tail).forM
          fun pair => rejectIf (pair.2.1 ≤ pair.1.2)
            (.invalidProfile (.overlap kind pair.1 pair.2)) :=
    fun _ => rfl
  rw [unfolded, unfolded, kindRanges, kindRanges, same]

theorem checkRanges_eq_ok {entries : List CollectiveAutotuneEntry}
    {kind : CollectiveKind} (checked : checkRanges entries kind = .ok ())
    (forward : ∀ entry ∈ entries, entry.minPayloadBytes ≤ entry.maxPayloadBytes) :
    (kindRanges entries kind).Pairwise RangesApart := by
  have apart := forM_eq_ok_iff.mp checked
  refine apart_of_neighbours (List.mergeSort_perm _ rangeLe) ?_ ?_
  · intro range among
    obtain ⟨entry, member, rfl⟩ := List.mem_map.mp among
    exact forward entry (List.mem_filter.mp member).1
  · intro pair among
    have passed := (rejectIf_eq_ok_iff ..).mp (apart pair among)
    exact Nat.not_le.mp passed

theorem checkEntry_forward {grouped : Bool} {entry : CollectiveAutotuneEntry} {done : Unit}
    (checked : checkEntry grouped entry = .ok done) :
    entry.minPayloadBytes ≤ entry.maxPayloadBytes := by
  rw [checkEntry] at checked
  obtain ⟨passed, ranged, _⟩ := of_bind checked
  exact Nat.not_lt.mp ((rejectIf_eq_ok_iff ..).mp ranged)

/-- What the checks of the measurements come to. -/
theorem checkMeasurements_eq_ok_iff {transport : CollectiveTransport}
    {grouped : Bool} {profile : CollectiveAutotuneProfile} :
    checkMeasurements transport grouped profile = .ok () ↔
      normalFingerprint profile.executionFingerprint = executionFingerprintHex transport ∧
      profile.entries ≠ [] ∧
      (∀ entry ∈ profile.entries, checkEntry grouped entry = .ok ()) ∧
      ∀ kind, checkRanges profile.entries kind = .ok () := by
  rw [checkMeasurements]
  simp only [bind_eq_ok_iff, rejectIf_eq_ok_iff, exists_const, ne_eq, not_not]
  refine and_congr_right fun _ => and_congr_right fun _ => ?_
  constructor
  · rintro ⟨passed, entries, ranges⟩
    refine ⟨forM_eq_ok_iff.mp entries, fun kind => ?_⟩
    exact forM_eq_ok_iff.mp ranges kind (by cases kind <;> decide)
  · rintro ⟨entries, ranges⟩
    exact ⟨(), forM_eq_ok_iff.mpr entries, forM_eq_ok_iff.mpr fun kind _ => ranges kind⟩

/-- No two entries of a checked profile are for one payload. -/
theorem entriesApart_of_checked {transport : CollectiveTransport}
    {grouped : Bool} {profile : CollectiveAutotuneProfile}
    (checked : checkMeasurements transport grouped profile = .ok ()) :
    profile.entries.Pairwise EntriesApart := by
  obtain ⟨_, _, entries, ranges⟩ := checkMeasurements_eq_ok_iff.mp checked
  have kinds : ∀ kind, profile.entries.Pairwise fun first second =>
      decide (first.operation = kind) = true →
      decide (second.operation = kind) = true →
      RangesApart first.range second.range := by
    intro kind
    have apart := checkRanges_eq_ok (ranges kind) fun entry among =>
      checkEntry_forward (entries entry among)
    rw [kindRanges, List.pairwise_map, List.pairwise_filter] at apart
    exact apart
  rw [List.pairwise_iff_getElem]
  intro earlier later earlierInside laterInside before same
  exact List.pairwise_iff_getElem.mp (kinds _) earlier later earlierInside
    laterInside before (decide_eq_true rfl) (decide_eq_true same.symm)

/-- At most one entry fits a payload. -/
theorem entry_unique {entries : List CollectiveAutotuneEntry}
    (apart : entries.Pairwise EntriesApart)
    {first second : CollectiveAutotuneEntry} (firstAmong : first ∈ entries)
    (secondAmong : second ∈ entries) {kind : CollectiveKind} {payload : Nat}
    (firstFits : first.operation = kind ∧ first.minPayloadBytes ≤ payload ∧
      payload ≤ first.maxPayloadBytes)
    (secondFits : second.operation = kind ∧ second.minPayloadBytes ≤ payload ∧
      payload ≤ second.maxPayloadBytes) :
    first = second := by
  by_contra different
  exact apart.forall firstAmong secondAmong different
    (firstFits.1.trans secondFits.1.symm) payload firstFits.2 secondFits.2

section Order

variable (tuning : CollectiveTuning) {entries others : List CollectiveAutotuneEntry}

/-- The entry for a payload does not depend on the order of the entries. -/
theorem autotuneEntry_perm (order : entries.Perm others)
    (apart : entries.Pairwise EntriesApart) (kind : CollectiveKind)
    (payloadBytes : Nat) :
    CollectiveTuning.autotuneEntry
        { tuning with autotuneEntries := some entries } kind payloadBytes =
      CollectiveTuning.autotuneEntry
        { tuning with autotuneEntries := some others } kind payloadBytes := by
  refine find?_eq_of_perm order ?_
  intro first firstAmong second secondAmong firstFits secondFits
  exact entry_unique apart firstAmong secondAmong
    (of_decide_eq_true firstFits) (of_decide_eq_true secondFits)

/-- A plan sees the entries only through the one for its payload. -/
theorem plan_congr (kind : CollectiveKind) (payloadBytes : Nat)
    (same : CollectiveTuning.autotuneEntry
        { tuning with autotuneEntries := some entries } kind payloadBytes =
      CollectiveTuning.autotuneEntry
        { tuning with autotuneEntries := some others } kind payloadBytes) :
    CollectiveTuning.plan { tuning with autotuneEntries := some entries } kind payloadBytes =
      CollectiveTuning.plan { tuning with autotuneEntries := some others } kind
          payloadBytes := by
  have chosen : CollectiveTuning.choose
        { tuning with autotuneEntries := some entries } kind payloadBytes =
      CollectiveTuning.choose { tuning with autotuneEntries := some others } kind
          payloadBytes := by
    rw [CollectiveTuning.choose, CollectiveTuning.choose, same]
    rfl
  rw [CollectiveTuning.plan, CollectiveTuning.plan, chosen]
  rfl

end Order

/-- The entries of an accepted profile of a kind are for different payloads, and in
any order they are accepted and lead to the same plans. -/
theorem accepted_profile_unambiguous (tuning : ConfiguredTuning)
    (profile : CollectiveAutotuneProfile) (detected : DetectedTopology)
    (accepted : tuning.validateAutotuneProfileWithDetected profile detected = .ok ()) :
    profile.entries.Pairwise EntriesApart ∧ ∀ entries, entries.Perm profile.entries →
        tuning.validateAutotuneProfileWithDetected
          { profile with entries := entries } detected = .ok () ∧
        ∀ kind payloadBytes,
          (tuning.storeProfile { profile with entries := entries }).autotuneEntry kind
              payloadBytes =
            (tuning.storeProfile profile).autotuneEntry kind payloadBytes ∧
          (tuning.storeProfile { profile with entries := entries }).plan kind payloadBytes =
            (tuning.storeProfile profile).plan kind payloadBytes := by
  obtain ⟨fits, topology⟩ := (ConfiguredTuning.validateWithDetected_eq_ok_iff ..).mp accepted
  have apart := entriesApart_of_checked fits.measurements
  refine ⟨apart, fun entries order => ⟨?_, fun kind payloadBytes => ?_⟩⟩
  · refine (ConfiguredTuning.validateWithDetected_eq_ok_iff ..).mpr
      ⟨⟨fits.version, fits.worldSize, ?_⟩, topology⟩
    obtain ⟨execution, present, each, ranges⟩ := checkMeasurements_eq_ok_iff.mp fits.measurements
    refine checkMeasurements_eq_ok_iff.mpr ⟨execution, ?_, ?_, ?_⟩
    · intro none
      rw [show entries = [] from none] at order
      exact present order.nil_eq.symm
    · intro entry among
      exact each entry (order.mem_iff.mp among)
    · intro kind
      exact (checkRanges_perm order kind).trans (ranges kind)
  · have same := (autotuneEntry_perm tuning.toCollectiveTuning order.symm
      apart kind payloadBytes).symm
    exact ⟨same, plan_congr _ kind payloadBytes same⟩

/-- Three measurements over the links of `pairTuning`, two of one kind. -/
def tripleProfile : CollectiveAutotuneProfile :=
  { version := 2
    worldSize := 2
    topologyFingerprint := "0x2EE759E114CC4DC5".toList
    executionFingerprint := "ac2e661724f69fa1".toList
    entries := [⟨.allReduce, 4097, 8192, .ring, 1, 500⟩, ⟨.allToAll, 0, 8192, .pairwise, 1, 300⟩,
      ⟨.allReduce, 0, 4096, .direct, 1, 200⟩] }

theorem tripleProfile_accepted :
    pairTuning.validateAutotuneProfileWithDetected tripleProfile noDetection = .ok () := by
  refine (ConfiguredTuning.validateWithDetected_eq_ok_iff ..).mpr
    ⟨⟨rfl, rfl, ?_⟩, by decide +kernel⟩
  refine checkMeasurements_eq_ok_iff.mpr ⟨by decide, by decide, ?_, fun kind => ?_⟩
  · rw [← forM_eq_ok_iff]
    decide
  · cases kind with
    | allReduce =>
        -- the two ranges of this kind are given in the other order
        have swapped := checkRanges_perm (List.reverse_perm tripleProfile.entries).symm .allReduce
        have sorted : ((kindRanges tripleProfile.entries.reverse
            .allReduce).mergeSort rangeLe) = [(0, 4096), (4097, 8192)] :=
          List.mergeSort_of_pairwise (by decide)
        rw [swapped]
        refine forM_eq_ok_iff.mpr fun pair among => ?_
        replace among : pair ∈ [((0, 4096), (4097, 8192))] := by
          rw [show [((0, 4096), (4097, 8192))] =
            ((kindRanges tripleProfile.entries.reverse .allReduce).mergeSort rangeLe).zip
            ((kindRanges tripleProfile.entries.reverse
              .allReduce).mergeSort rangeLe).tail by rw [sorted]; rfl]
          exact among
        rw [List.mem_singleton.mp among]
        rfl
    | allGather => decide +kernel
    | reduceScatter => decide +kernel
    | allToAll => decide +kernel

/-- The last entry of the profile plans a payload of its range, also when it comes
first. -/
theorem accepted_profile_unambiguous_three :
    ((pairTuning.storeProfile tripleProfile).plan .allReduce 4096).algorithm = .direct ∧
      (pairTuning.storeProfile
        { tripleProfile with
          entries := tripleProfile.entries.reverse }).plan .allReduce 4096 =
        (pairTuning.storeProfile tripleProfile).plan .allReduce 4096 := by
  refine ⟨by decide, ?_⟩
  exact ((accepted_profile_unambiguous pairTuning tripleProfile noDetection
    tripleProfile_accepted).2 _ (List.reverse_perm _)).2 .allReduce 4096 |>.2

end RuCCL.Rank
