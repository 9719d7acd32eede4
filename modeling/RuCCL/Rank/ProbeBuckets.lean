import RuCCL.Rank.Tuning

/-!
# Buckets of probe measurements

Bandwidths are rounded down and latencies up to a power of four.  Measurements that
differ by a factor of four at most fall into buckets that a tuning accepts.
-/

namespace RuCCL.Rank

open RuCCL.Library

def leadingZeros (value : UInt64) : Nat :=
  if value = 0 then 64 else 63 - value.toNat.log2

def conservativeProbeBandwidthBucket (value : UInt64) : UInt64 :=
  let exponent := 63 - leadingZeros (max value 1)
  1 <<< UInt64.ofNat (exponent &&& 0xfffffffe)

def conservativeProbeLatencyBucket (value : UInt64) : UInt64 :=
  let exponent := 63 - leadingZeros (max value 1)
  let upperExponent := (exponent &&& 0xfffffffe) + 2
  if upperExponent ≥ 64 then 0xffffffffffffffff
  else 1 <<< UInt64.ofNat upperExponent

/-- The power of four below a measurement. -/
def quarterLog (value : UInt64) : Nat := value.toNat.log2 / 2

section Exponents

variable {value : UInt64}

theorem log2_lt (positive : 0 < value) : value.toNat.log2 < 64 := by
  have bounded := value.toNat_lt
  have nonzero : value.toNat ≠ 0 := Nat.ne_of_gt positive
  exact (Nat.log2_lt nonzero).mpr bounded

theorem exponent_eq (positive : 0 < value) :
    63 - leadingZeros (max value 1) = value.toNat.log2 := by
  have below := log2_lt positive
  have nonzero : value ≠ 0 := by
    rintro rfl
    exact absurd positive (by decide)
  have same : max value 1 = value := by
    change (if value ≤ 1 then 1 else value) = value
    split
    case isTrue small =>
      have one : value.toNat ≤ 1 := small
      have some : 0 < value.toNat := positive
      apply UInt64.toNat_inj.mp
      change 1 = value.toNat
      omega
    case isFalse => rfl
  rw [same, leadingZeros, if_neg nonzero]
  omega

/-- Clearing the lowest bit of a small exponent. -/
theorem even_exponent {exponent : Nat} (small : exponent < 64) :
    exponent &&& 0xfffffffe = 2 * (exponent / 2) := by
  have table : ∀ other < 64, other &&& 0xfffffffe = 2 * (other / 2) := by
    decide
  exact table exponent small

theorem toNat_shiftLeft_one {exponent : Nat} (small : exponent < 64) :
    ((1 : UInt64) <<< UInt64.ofNat exponent).toNat = 2 ^ exponent := by
  have table : ∀ other < 64, ((1 : UInt64) <<< UInt64.ofNat other).toNat = 2 ^ other := by
    decide
  exact table exponent small

theorem quarterLog_spec (positive : 0 < value) :
    4 ^ quarterLog value ≤ value.toNat ∧ value.toNat < 4 * 4 ^ quarterLog value := by
  have nonzero : value.toNat ≠ 0 := Nat.ne_of_gt positive
  have below := Nat.log2_self_le nonzero
  have above := @Nat.lt_log2_self value.toNat
  have square (count : Nat) : 4 ^ count = 2 ^ (2 * count) := by
    rw [pow_mul]
    rfl
  have low : 2 * quarterLog value ≤ value.toNat.log2 := by
    unfold quarterLog
    omega
  have high : value.toNat.log2 + 1 ≤ 2 * (quarterLog value + 1) := by
    unfold quarterLog
    omega
  constructor
  · rw [square]
    exact (Nat.pow_le_pow_right (by decide) low).trans below
  · have wide := Nat.pow_le_pow_right (n := 2) (by decide) high
    rw [← pow_succ', square]
    exact lt_of_lt_of_le above wide

theorem bandwidthBucket_eq (positive : 0 < value) :
    (conservativeProbeBandwidthBucket value).toNat = 4 ^ quarterLog value := by
  have below := log2_lt positive
  unfold conservativeProbeBandwidthBucket
  dsimp only
  rw [exponent_eq positive, even_exponent below, toNat_shiftLeft_one (by omega), pow_mul]
  rfl

theorem latencyBucket_eq (positive : 0 < value) :
    (conservativeProbeLatencyBucket value).toNat = saturate64 (4 * 4 ^ quarterLog value) := by
  have below := log2_lt positive
  have quarter : quarterLog value < 32 := by
    unfold quarterLog
    omega
  unfold conservativeProbeLatencyBucket
  dsimp only
  rw [exponent_eq positive, even_exponent below]
  change (if 2 * quarterLog value + 2 ≥ 64 then (0xffffffffffffffff : UInt64)
    else 1 <<< UInt64.ofNat (2 * quarterLog value + 2)).toNat = _
  have power : 4 * 4 ^ quarterLog value = 2 ^ (2 * quarterLog value + 2) := by
    rw [pow_add, pow_mul, Nat.mul_comm]
    rfl
  rw [power]
  split
  case isTrue top =>
    have last : 2 * quarterLog value + 2 = 64 := by
      omega
    rw [last]
    rfl
  case isFalse inside =>
    have small : 2 * quarterLog value + 2 ≤ 63 := by
      omega
    have bounded := Nat.pow_le_pow_right (n := 2) (by decide) small
    rw [toNat_shiftLeft_one (by omega), saturate64, Nat.min_eq_left]
    exact bounded.trans (by decide)

end Exponents

theorem metricWithinFactor_of_le {first second factor : Nat}
    (positive : 0 < first) (otherPositive : 0 < second)
    (near : first ≤ saturate64 (second * factor))
    (back : second ≤ saturate64 (first * factor)) :
    metricWithinFactor first second factor = true := by
  rw [metricWithinFactor, if_neg, decide_eq_true_iff]
  · rcases Nat.le_total first second with less | more
    · rw [Nat.max_eq_right less, Nat.min_eq_left less]
      exact back
    · rw [Nat.max_eq_left more, Nat.min_eq_right more]
      exact near
  · omega

/-- A measurement at most four times as large lies one bucket higher at most. -/
theorem quarterLog_le {first second : UInt64} (positive : 0 < first) (otherPositive : 0 < second)
    (near : first.toNat ≤ 4 * second.toNat) :
    4 ^ quarterLog first ≤ 4 * 4 ^ quarterLog second := by
  have low := (quarterLog_spec positive).1
  have high := (quarterLog_spec otherPositive).2
  have below : 4 ^ quarterLog first < 4 ^ (quarterLog second + 2) := by
    rw [pow_succ, pow_succ]
    omega
  have exponents := (Nat.pow_lt_pow_iff_right (by decide)).mp below
  rw [← pow_succ']
  exact Nat.pow_le_pow_right (by decide) (Nat.lt_succ_iff.mp exponents)

/-- Buckets of noisy measurements are accepted, and each bucket is the power of four
on its side of the measurement. -/
theorem probe_buckets_tolerate_noise :
    (∀ first second : UInt64, 0 < first → 0 < second →
      first.toNat ≤ 4 * second.toNat → second.toNat ≤ 4 * first.toNat →
      metricWithinFactor (conservativeProbeBandwidthBucket first).toNat
          (conservativeProbeBandwidthBucket second).toNat 4 = true ∧
        metricWithinFactor (conservativeProbeLatencyBucket first).toNat
          (conservativeProbeLatencyBucket second).toNat 4 = true) ∧
    (∀ value : UInt64, 1 ≤ value →
      (∃ exponent, (conservativeProbeBandwidthBucket value).toNat = 4 ^ exponent) ∧
      (conservativeProbeBandwidthBucket value).toNat ≤ value.toNat ∧
      value.toNat < 4 * (conservativeProbeBandwidthBucket value).toNat) ∧
    ∀ value : UInt64, 1 ≤ value → value.toNat ≤ (conservativeProbeLatencyBucket value).toNat ∧
      (conservativeProbeLatencyBucket value).toNat ≤ saturate64 (4 * value.toNat) := by
  refine ⟨?_, ?_, ?_⟩
  · intro first second positive otherPositive near back
    have up := quarterLog_le positive otherPositive near
    have down := quarterLog_le otherPositive positive back
    have some := Nat.pow_pos (n := quarterLog first) (show 0 < 4 by decide)
    have other := Nat.pow_pos (n := quarterLog second) (show 0 < 4 by decide)
    have bounded := (quarterLog_spec positive).1
    have otherBounded := (quarterLog_spec otherPositive).1
    have limit := first.toNat_lt
    have otherLimit := second.toNat_lt
    rw [bandwidthBucket_eq positive, bandwidthBucket_eq otherPositive,
      latencyBucket_eq positive, latencyBucket_eq otherPositive]
    constructor
    · apply metricWithinFactor_of_le some other
      · unfold saturate64 maxU64
        omega
      · unfold saturate64 maxU64
        omega
    · apply metricWithinFactor_of_le
      · unfold saturate64 maxU64
        omega
      · unfold saturate64 maxU64
        omega
      · unfold saturate64 maxU64
        omega
      · unfold saturate64 maxU64
        omega
  · intro value positive
    have bounds := quarterLog_spec positive
    rw [bandwidthBucket_eq positive]
    exact ⟨⟨_, rfl⟩, bounds⟩
  · intro value positive
    have bounds := quarterLog_spec positive
    have limit := value.toNat_lt
    rw [latencyBucket_eq positive]
    unfold saturate64 maxU64
    constructor
    · omega
    · omega

theorem probe_buckets_tolerate_noise_fifteen :
    metricWithinFactor (conservativeProbeBandwidthBucket 4).toNat
        (conservativeProbeBandwidthBucket 15).toNat 4 = true ∧
      metricWithinFactor (conservativeProbeLatencyBucket 4).toNat
        (conservativeProbeLatencyBucket 15).toNat 4 = true :=
  probe_buckets_tolerate_noise.1 4 15 (by decide) (by decide) (by decide)
    (by decide)

end RuCCL.Rank
