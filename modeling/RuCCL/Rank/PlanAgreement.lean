import RuCCL.Rank.Topology
import RuCCL.Rank.Routing

/-!
# Plans of the variable all-to-all

Every rank plans with the bytes of its own input.  Ranks of one call may
contribute different amounts, so their plans agree only when all these amounts
fall into one regime of the tuning.
-/

namespace RuCCL.Rank

open RuCCL.Library

/-- `all_to_all_v` up to its plan. -/
def allToAllVPlan (tuning : CollectiveTuning) (worldSize elementSize inputLength : Nat)
    (sendCounts : List Nat) : Except RankError CollectivePlan := do
  rejectIf (sendCounts.length ≠ worldSize)
    (.invalidLength
      "TCP all-to-all-v send_counts must have one entry per rank")
  let sendTotal ← okOr (checkedSum sendCounts) (.overflow "TCP all-to-all-v send count")
  rejectIf (sendTotal ≠ inputLength)
    (.invalidLength "TCP all-to-all-v send_counts do not sum to input length")
  .ok (tuning.plan .allToAll (inputLength * elementSize))

/-- One call: a row of counts for each rank, with inputs of these lengths. -/
structure CountMatrix (worldSize elementSize : Nat) where
  rows : List (List Nat)
  square : rows.length = worldSize ∧ ∀ row ∈ rows, row.length = worldSize
  sized : ∀ row ∈ rows, row.sum * elementSize < 2 ^ 64 ∧ row.sum < 2 ^ 64

/-- All ranks of a call select this algorithm and this number of channels. -/
def SelectsAlike (tuning : CollectiveTuning) {worldSize elementSize : Nat}
    (counts : CountMatrix worldSize elementSize) : Prop :=
  ∃ algorithm channels, ∀ row ∈ counts.rows, ∃ plan,
    allToAllVPlan tuning worldSize elementSize row.sum row = .ok plan ∧
      plan.algorithm = algorithm ∧ plan.ringChannels = channels

/-- The payload reaches the threshold and the model prefers the peers. -/
def PeerPays (tuning : CollectiveTuning) (payloadBytes : Nat) : Prop :=
  tuning.ringThresholdBytes ≤ payloadBytes ∧ ∃ estimate,
      tuning.peerEstimatedTimeNs .allToAll payloadBytes = some estimate ∧
        estimate < tuning.directEstimatedTimeNs .allToAll payloadBytes

/-- An autotune entry says what the model says without one. -/
def EntryMatchesModel (tuning : CollectiveTuning) (entry : CollectiveAutotuneEntry)
    (payloadBytes : Nat) : Prop :=
  entry.ringChannels = tuning.ringChannels ∧
    ((PeerPays tuning payloadBytes ∧ entry.algorithm = .pairwise) ∨
      (¬PeerPays tuning payloadBytes ∧ entry.algorithm = .direct))

/-- Two payloads are in one regime: their autotune entries say the same, or the
model treats them alike where there is none. -/
def SameRegime (tuning : CollectiveTuning) (left right : Nat) : Prop :=
  match tuning.autotuneEntry .allToAll left, tuning.autotuneEntry .allToAll right with
  | some leftEntry, some rightEntry =>
      leftEntry.algorithm = rightEntry.algorithm ∧
        leftEntry.ringChannels = rightEntry.ringChannels
  | some leftEntry, none => EntryMatchesModel tuning leftEntry right
  | none, some rightEntry => EntryMatchesModel tuning rightEntry left
  | none, none => PeerPays tuning left ↔ PeerPays tuning right

/-- The tuning does not look at the payload. -/
def IgnoresPayload (tuning : CollectiveTuning) : Prop :=
  tuning.ringOrder.length ≤ 1 ∨ tuning.algorithmPolicy ≠ .auto

variable {tuning : CollectiveTuning}

theorem plan_choice (tuning : CollectiveTuning) (kind : CollectiveKind) (payloadBytes : Nat) :
    (tuning.plan kind payloadBytes).algorithm = (tuning.choose kind payloadBytes).1 ∧
      (tuning.plan kind payloadBytes).ringChannels = (tuning.choose kind payloadBytes).2.2.2 := by
  unfold CollectiveTuning.plan
  generalize tuning.choose kind payloadBytes = choice
  obtain ⟨algorithm, source, measured, channels⟩ := choice
  exact ⟨rfl, rfl⟩

/-- What the plan of an all-to-all selects. -/
def selected (tuning : CollectiveTuning) (payloadBytes : Nat) : CollectiveAlgorithm × Nat :=
  ((tuning.choose .allToAll payloadBytes).1, (tuning.choose .allToAll payloadBytes).2.2.2)

theorem selected_of_ignoresPayload (ignores : IgnoresPayload tuning) (left right : Nat) :
    selected tuning left = selected tuning right := by
  unfold selected CollectiveTuning.choose
  by_cases alone : tuning.ringOrder.length ≤ 1
  · simp only [if_pos alone]
  · have fixed := ignores.resolve_left alone
    simp only [if_neg alone]
    cases policy : tuning.algorithmPolicy with
    | auto => exact absurd policy fixed
    | direct => rfl
    | ring => rfl
    | hierarchical => simp only [if_true]

section Auto

variable (several : ¬tuning.ringOrder.length ≤ 1)
variable (auto : tuning.algorithmPolicy = .auto)

include several auto

theorem selected_of_entry {payloadBytes : Nat} {entry : CollectiveAutotuneEntry}
    (found : tuning.autotuneEntry .allToAll payloadBytes = some entry) :
    selected tuning payloadBytes = (entry.algorithm, entry.ringChannels) := by
  simp [selected, CollectiveTuning.choose, if_neg several, auto, found]

theorem selected_of_peerPays {payloadBytes : Nat}
    (missing : tuning.autotuneEntry .allToAll payloadBytes = none)
    (pays : PeerPays tuning payloadBytes) :
    selected tuning payloadBytes = (.pairwise, tuning.ringChannels) := by
  obtain ⟨reaches, estimate, known, cheaper⟩ := pays
  have small : ¬payloadBytes < tuning.ringThresholdBytes := Nat.not_lt.mpr reaches
  simp [selected, CollectiveTuning.choose, if_neg several, auto, missing,
    small, CollectiveTuning.modelAlgorithm, known, cheaper,
    CollectiveTuning.peerAlgorithm]

omit several in
theorem selected_of_not_peerPays {payloadBytes : Nat}
    (missing : tuning.autotuneEntry .allToAll payloadBytes = none)
    (costs : ¬PeerPays tuning payloadBytes) :
    selected tuning payloadBytes = (.direct, tuning.ringChannels) := by
  by_cases small : payloadBytes < tuning.ringThresholdBytes
  · simp [selected, CollectiveTuning.choose, auto, missing, small]
  · have dearer : ∀ estimate, tuning.peerEstimatedTimeNs .allToAll payloadBytes = some estimate →
          ¬estimate <
            tuning.directEstimatedTimeNs .allToAll payloadBytes := by
      intro estimate known cheaper
      exact costs ⟨Nat.not_lt.mp small, estimate, known, cheaper⟩
    cases known : tuning.peerEstimatedTimeNs .allToAll payloadBytes with
    | none =>
        simp [selected, CollectiveTuning.choose, auto, missing, small,
          CollectiveTuning.modelAlgorithm, known]
    | some estimate =>
        have notCheaper := dearer estimate known
        simp [selected, CollectiveTuning.choose, auto, missing, small,
          CollectiveTuning.modelAlgorithm, known, notCheaper]

/-- An entry agrees with the model exactly when both select the same. -/
theorem entryMatchesModel_iff {payloadBytes : Nat} (entry : CollectiveAutotuneEntry)
    (missing : tuning.autotuneEntry .allToAll payloadBytes = none) :
    EntryMatchesModel tuning entry payloadBytes ↔ (entry.algorithm, entry.ringChannels) =
        selected tuning payloadBytes := by
  unfold EntryMatchesModel
  by_cases pays : PeerPays tuning payloadBytes
  · rw [selected_of_peerPays several auto missing pays]
    simp [pays, Prod.ext_iff, and_comm]
  · rw [selected_of_not_peerPays auto missing pays]
    simp [pays, Prod.ext_iff, and_comm]

theorem sameRegime_iff (left right : Nat) :
    SameRegime tuning left right ↔ selected tuning left = selected tuning right := by
  unfold SameRegime
  cases leftFound : tuning.autotuneEntry .allToAll left with
  | some leftEntry =>
      rw [selected_of_entry several auto leftFound]
      cases rightFound : tuning.autotuneEntry .allToAll right with
      | some rightEntry =>
          rw [selected_of_entry several auto rightFound]
          simp [Prod.ext_iff]
      | none => exact entryMatchesModel_iff several auto leftEntry rightFound
  | none =>
      cases rightFound : tuning.autotuneEntry .allToAll right with
      | some rightEntry =>
          rw [selected_of_entry several auto rightFound]
          exact (entryMatchesModel_iff several auto rightEntry leftFound).trans eq_comm
      | none =>
          by_cases leftPays : PeerPays tuning left <;>
            by_cases rightPays : PeerPays tuning right <;>
              simp [leftPays, rightPays, leftFound, rightFound, selected_of_peerPays several auto,
                selected_of_not_peerPays auto]

end Auto

theorem checkedSum_of_lt {counts : List Nat} (fits : counts.sum < 2 ^ 64) :
    checkedSum counts = some counts.sum := by
  have total := @foldlM_checkedAdd counts 0 (by rwa [Nat.zero_add])
  rwa [Nat.zero_add] at total

/-- Accepted arguments are planned with the bytes of the own input. -/
theorem allToAllVPlan_eq {worldSize elementSize : Nat}
    {counts : CountMatrix worldSize elementSize}
    {row : List Nat} (member : row ∈ counts.rows) :
    allToAllVPlan tuning worldSize elementSize row.sum row =
      .ok (tuning.plan .allToAll (row.sum * elementSize)) := by
  unfold allToAllVPlan
  simp [rejectIf, okOr, counts.square.2 row member, checkedSum_of_lt (counts.sized row member).2]

/-- The ranks of a call select the same algorithm and the same channels exactly
when the tuning ignores the payload or their payloads are in one regime. -/
theorem allToAllV_selects_alike_iff (tuning : CollectiveTuning) (worldSize elementSize : Nat)
    (counts : CountMatrix worldSize elementSize) :
    SelectsAlike tuning counts ↔ IgnoresPayload tuning ∨
        ∀ left ∈ counts.rows, ∀ right ∈ counts.rows, SameRegime tuning (left.sum * elementSize)
            (right.sum * elementSize) := by
  have alike : SelectsAlike tuning counts ↔ ∀ left ∈ counts.rows, ∀ right ∈ counts.rows,
        selected tuning (left.sum * elementSize) = selected tuning (right.sum * elementSize) := by
    constructor
    · rintro ⟨algorithm, channels, same⟩ left leftMember right rightMember
      have choice : ∀ row ∈ counts.rows, selected tuning (row.sum * elementSize) =
            (algorithm, channels) := by
        intro row member
        obtain ⟨plan, planned, sameAlgorithm, sameChannels⟩ := same row member
        rw [allToAllVPlan_eq member] at planned
        cases planned
        obtain ⟨first, second⟩ := plan_choice tuning .allToAll (row.sum * elementSize)
        exact Prod.ext (first.symm.trans sameAlgorithm) (second.symm.trans sameChannels)
      rw [choice left leftMember, choice right rightMember]
    · intro same
      cases rows : counts.rows with
      | nil => exact ⟨.direct, 0, by simp [rows]⟩
      | cons first rest =>
          have firstMember : first ∈ counts.rows := by simp [rows]
          refine ⟨(selected tuning (first.sum * elementSize)).1,
            (selected tuning (first.sum * elementSize)).2, ?_⟩
          intro row member
          refine ⟨_, allToAllVPlan_eq member, ?_⟩
          obtain ⟨algorithm, channels⟩ := plan_choice tuning .allToAll (row.sum * elementSize)
          rw [same first firstMember row member]
          exact ⟨algorithm, channels⟩
  rw [alike]
  by_cases ignores : IgnoresPayload tuning
  · simp only [ignores, true_or, iff_true]
    intro left _ right _
    exact selected_of_ignoresPayload ignores _ _
  · simp only [ignores, false_or]
    unfold IgnoresPayload at ignores
    rw [not_or, not_not] at ignores
    simp only [sameRegime_iff ignores.1 ignores.2]

/-- Two ranks with the default tuning and a uniform topology. -/
def defaultPairTuning : CollectiveTuning where
  algorithmPolicy := .auto
  ringThresholdBytes := 256 * 1024
  ringOrder := [0, 1]
  ringOrders := [[0, 1]]
  ringChannels := 1
  p2pRails := 1
  railOrderOverride := none
  hierarchyGroups := none
  topology :=
    { worldSize := 2
      links := [[none, some ⟨32000, 1000⟩], [some ⟨32000, 1000⟩, none]]
      railLinks := []
      aggregateLinks := [[none, none], [none, none]] }
  directBandwidthMbps := 32000
  directLatencyNs := 1000
  autotuneEntries := none

/-- Rank 0 has nothing to send; rank 1 sends a mebibyte to rank 0. -/
def unevenCounts : CountMatrix 2 1 where
  rows := [[0, 0], [1024 * 1024, 0]]
  square := by decide
  sized := by decide

/-- Uneven counts make two ranks with one tuning plan differently. -/
theorem uneven_counts_split_plan :
    ¬∀ (tuning : CollectiveTuning) (worldSize elementSize : Nat)
      (counts : CountMatrix worldSize elementSize),
      SelectsAlike tuning counts := by
  intro always
  obtain ⟨algorithm, channels, same⟩ := always defaultPairTuning 2 1 unevenCounts
  have direct : (allToAllVPlan defaultPairTuning 2 1 [0, 0].sum
      [0, 0]).map CollectivePlan.algorithm = .ok .direct := by
    decide
  have pairwise : (allToAllVPlan defaultPairTuning 2 1 [1024 * 1024, 0].sum [1024 * 1024, 0]).map
        CollectivePlan.algorithm = .ok .pairwise := by
    decide +kernel
  obtain ⟨first, firstPlanned, firstSame, _⟩ := same [0, 0] (by decide)
  obtain ⟨second, secondPlanned, secondSame, _⟩ := same [1024 * 1024, 0] (by decide)
  rw [firstPlanned] at direct
  rw [secondPlanned] at pairwise
  have isDirect := Except.ok.inj direct
  have isPairwise := Except.ok.inj pairwise
  rw [firstSame] at isDirect
  rw [secondSame, isDirect] at isPairwise
  cases isPairwise

end RuCCL.Rank
