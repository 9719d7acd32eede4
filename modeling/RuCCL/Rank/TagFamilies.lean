import RuCCL.Rank.Tags

/-!
# Families of tags

The tags of rings, of hierarchies and of topology probes begin with different words,
and everything that is packed into a tag stays behind its first word.
-/

namespace RuCCL.Rank

open RuCCL.Library

def topologyProbeTagPrefix : UInt64 := 0x475a000000000000

def topologyProbeTag (firstRank secondRank : UInt32) (rail : Nat)
    (direction kind : UInt64) : UInt64 :=
  topologyProbeTagPrefix |||
    (hashBytes hashStart
      (leBytes 4 firstRank.toNat ++ leBytes 4 secondRank.toNat ++
        leBytes 8 rail ++ leBytes 8 direction.toNat ++
        leBytes 8 kind.toNat) &&& 0x0000ffffffffffff)

/-- The first word of a tag. -/
def tagFamily (tag : UInt64) : UInt64 := tag >>> 48

/-- A masked hash stays behind the first word. -/
theorem tagFamily_hashed (start hash : UInt64) :
    tagFamily (start ||| (hash &&& 0x0000ffffffffffff)) =
      tagFamily start := by
  apply UInt64.toBitVec_inj.mp
  apply BitVec.eq_of_getLsbD_eq
  intro index inside
  by_cases small : index < 16
  · interval_cases index <;> simp [tagFamily]
  · have beyond : 64 ≤ 48 + index := by
      omega
    simp [tagFamily, BitVec.getLsbD_of_ge _ _ beyond]

theorem tagFamily_ringDataTag (operation phase : UInt64) (channel step : Nat) :
    tagFamily (ringDataTag operation phase channel step) = 0x4758 := by
  apply UInt64.toBitVec_inj.mp
  apply BitVec.eq_of_getLsbD_eq
  intro index inside
  by_cases small : index < 16
  · interval_cases index <;>
      simp [tagFamily, ringDataTag, internalRingTagPrefix]
  · have beyond : 64 ≤ 48 + index := by
      omega
    have word : (0x4758#64).getLsbD index = false := by
      interval_cases index <;> simp at small ⊢
    simp [tagFamily, BitVec.getLsbD_of_ge _ _ beyond, word]

theorem tagFamily_hierarchyDataTag (operation : UInt64) (phase index : UInt32) :
    tagFamily (hierarchyDataTag operation phase index) = 0x4759 :=
  tagFamily_hashed _ _

theorem tagFamily_hierarchyRingDataTag (operation : UInt64)
    (phase : UInt32) (channel step : Nat) :
    tagFamily (hierarchyRingDataTag operation phase channel step) =
      0x4759 :=
  tagFamily_hashed _ _

theorem tagFamily_topologyProbeTag (firstRank secondRank : UInt32)
    (rail : Nat) (direction kind : UInt64) :
    tagFamily (topologyProbeTag firstRank secondRank rail direction kind) =
      0x475a :=
  tagFamily_hashed _ _

theorem ne_of_tagFamily {tag other family : UInt64}
    (here : tagFamily tag = family) (there : tagFamily other ≠ family) :
    tag ≠ other := by
  rintro rfl
  exact there here

section Fields

variable (operation phase : UInt64) (channel step : Nat)

theorem ringDataTag_operation_bits :
    ringDataTag operation phase channel step >>> 24 &&& 0xffffff = operation &&& 0xffffff := by
  apply UInt64.toBitVec_inj.mp
  apply BitVec.eq_of_getLsbD_eq
  intro index inside
  by_cases small : index < 24
  · interval_cases index <;> simp [ringDataTag, internalRingTagPrefix]
  · have masked : (16777215#64).getLsbD index = false := by
      interval_cases index <;> simp at small ⊢
    simp [masked]

theorem ringDataTag_phase_bits :
    ringDataTag operation phase channel step >>> 20 &&& 0xf = phase &&& 0xf := by
  apply UInt64.toBitVec_inj.mp
  apply BitVec.eq_of_getLsbD_eq
  intro index inside
  by_cases small : index < 4
  · interval_cases index <;> simp [ringDataTag, internalRingTagPrefix]
  · have masked : (15#64).getLsbD index = false := by
      interval_cases index <;> simp at small ⊢
    simp [masked]

theorem ringDataTag_step_bits :
    ringDataTag operation phase channel step &&& 0xfff = UInt64.ofNat step &&& 0xfff := by
  apply UInt64.toBitVec_inj.mp
  apply BitVec.eq_of_getLsbD_eq
  intro index inside
  by_cases small : index < 12
  · interval_cases index <;> simp [ringDataTag, internalRingTagPrefix]
  · have masked : (4095#64).getLsbD index = false := by
      interval_cases index <;> simp at small ⊢
    simp [masked]

end Fields

/-- A mask keeps what fits below it. -/
theorem toNat_and_mask {value mask : UInt64} {width : Nat}
    (low : mask.toNat = 2 ^ width - 1) (small : value.toNat < 2 ^ width) :
    (value &&& mask).toNat = value.toNat := by
  rw [UInt64.toNat_and, low, Nat.and_two_pow_sub_one_eq_mod]
  exact Nat.mod_eq_of_lt small

theorem eq_of_and_mask {value other mask : UInt64} {width : Nat}
    (low : mask.toNat = 2 ^ width - 1) (small : value.toNat < 2 ^ width)
    (otherSmall : other.toNat < 2 ^ width)
    (same : value &&& mask = other &&& mask) : value.toNat = other.toNat := by
  rw [← toNat_and_mask low small, same, toNat_and_mask low otherSmall]

/-- Ring tags tell their fields, as long as these fit. -/
theorem ringDataTag_injective {operation otherOperation : UInt64}
    {phase otherPhase : UInt64} {channel otherChannel : Nat}
    {step otherStep : Nat}
    (operations : operation.toNat < 2 ^ 24 ∧ otherOperation.toNat < 2 ^ 24)
    (phases : phase.toNat < 16 ∧ otherPhase.toNat < 16)
    (channels : channel < 256 ∧ otherChannel < 256)
    (steps : step < 4096 ∧ otherStep < 4096)
    (same : ringDataTag operation phase channel step =
      ringDataTag otherOperation otherPhase otherChannel otherStep) :
    operation = otherOperation ∧ phase = otherPhase ∧
      channel = otherChannel ∧ step = otherStep := by
  have number (value : Nat) (small : value < 4096) : (UInt64.ofNat value).toNat = value :=
    UInt64.toNat_ofNat_of_lt' (lt_of_lt_of_le small (by decide))
  have operationBits := ringDataTag_operation_bits operation phase channel step
  have phaseBits := ringDataTag_phase_bits operation phase channel step
  have channelBits := ringDataTag_channel_bits operation phase channel step
  have stepBits := ringDataTag_step_bits operation phase channel step
  rw [same, ringDataTag_operation_bits] at operationBits
  rw [same, ringDataTag_phase_bits] at phaseBits
  rw [same, ringDataTag_channel_bits] at channelBits
  rw [same, ringDataTag_step_bits] at stepBits
  refine ⟨?_, ?_, ?_, ?_⟩
  · exact UInt64.toNat_inj.mp (eq_of_and_mask rfl operations.1 operations.2 operationBits.symm)
  · exact UInt64.toNat_inj.mp (@eq_of_and_mask _ _ _ 4 rfl phases.1 phases.2 phaseBits.symm)
  · have small : channel < 4096 := channels.1.trans (by decide)
    have otherSmall : otherChannel < 4096 := channels.2.trans (by decide)
    have equal := @eq_of_and_mask _ _ _ 8 rfl
      (by rw [number channel small]; exact channels.1)
      (by rw [number otherChannel otherSmall]; exact channels.2)
      channelBits.symm
    rwa [number channel small, number otherChannel otherSmall] at equal
  · have equal := @eq_of_and_mask _ _ _ 12 rfl
      (by rw [number step steps.1]; exact steps.1)
      (by rw [number otherStep steps.2]; exact steps.2) stepBits.symm
    rwa [number step steps.1, number otherStep steps.2] at equal

/-- Ring tags whose fields fit are told apart, and no tag belongs to two families. -/
theorem tag_spaces_disjoint :
    (∀ (operation otherOperation phase otherPhase : UInt64)
        (channel otherChannel step otherStep : Nat),
      operation.toNat < 2 ^ 24 → otherOperation.toNat < 2 ^ 24 →
      phase.toNat < 16 → otherPhase.toNat < 16 →
      channel < 256 → otherChannel < 256 →
      step < 4096 → otherStep < 4096 →
      ringDataTag operation phase channel step =
        ringDataTag otherOperation otherPhase otherChannel otherStep →
      operation = otherOperation ∧ phase = otherPhase ∧
        channel = otherChannel ∧ step = otherStep) ∧
    (∀ (operation phase : UInt64) (channel step : Nat)
        (otherOperation : UInt64) (otherPhase : UInt32),
      (∀ index, ringDataTag operation phase channel step ≠
        hierarchyDataTag otherOperation otherPhase index) ∧
      ∀ otherChannel otherStep, ringDataTag operation phase channel step ≠
        hierarchyRingDataTag otherOperation otherPhase otherChannel otherStep) ∧
    ∀ (firstRank secondRank : UInt32) (rail : Nat) (direction kind : UInt64),
      (∀ operation phase channel step, topologyProbeTag firstRank secondRank rail direction kind ≠
          ringDataTag operation phase channel step) ∧
      (∀ operation phase index, topologyProbeTag firstRank secondRank rail direction kind ≠
          hierarchyDataTag operation phase index) ∧
      ∀ operation phase channel step, topologyProbeTag firstRank secondRank rail direction kind ≠
          hierarchyRingDataTag operation phase channel step := by
  refine ⟨?_, ?_, ?_⟩
  · intro operation otherOperation phase otherPhase channel otherChannel
      step otherStep operations otherOperations phases otherPhases channels
      otherChannels steps otherSteps same
    exact ringDataTag_injective ⟨operations, otherOperations⟩
      ⟨phases, otherPhases⟩ ⟨channels, otherChannels⟩
      ⟨steps, otherSteps⟩ same
  · intro operation phase channel step otherOperation otherPhase
    have ring := tagFamily_ringDataTag operation phase channel step
    constructor
    · intro index
      apply ne_of_tagFamily ring
      rw [tagFamily_hierarchyDataTag]
      decide
    · intro otherChannel otherStep
      apply ne_of_tagFamily ring
      rw [tagFamily_hierarchyRingDataTag]
      decide
  · intro firstRank secondRank rail direction kind
    have probe := tagFamily_topologyProbeTag firstRank secondRank rail direction kind
    refine ⟨?_, ?_, ?_⟩
    · intro operation phase channel step
      apply ne_of_tagFamily probe
      rw [tagFamily_ringDataTag]
      decide
    · intro operation phase index
      apply ne_of_tagFamily probe
      rw [tagFamily_hierarchyDataTag]
      decide
    · intro operation phase channel step
      apply ne_of_tagFamily probe
      rw [tagFamily_hierarchyRingDataTag]
      decide

/-- The largest fields still tell two channels apart. -/
theorem tag_spaces_disjoint_largest :
    ringDataTag 0xffffff 15 255 4095 ≠ ringDataTag 0xffffff 15 254 4095 := by
  intro same
  have fields := tag_spaces_disjoint.1 0xffffff 0xffffff 15 15 255 254 4095
    4095 (by decide) (by decide) (by decide) (by decide) (by decide)
    (by decide) (by decide) (by decide) same
  exact absurd fields.2.2.1 (by decide)

end RuCCL.Rank
