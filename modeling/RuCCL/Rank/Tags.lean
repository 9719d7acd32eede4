import RuCCL.Library.Bytes
import RuCCL.Library.Hash
import Mathlib.Tactic.IntervalCases
import Mathlib.Tactic.LinearCombination
import Mathlib.Tactic.NormNum
import Mathlib.Tactic.Zify

/-!
# Tags of the device collectives

Agreements hash everything the ranks have to agree on into the tag of a barrier.
The transfers of a collective have tags of their own: fields of a word for the
ring, a hash for the hierarchy.
-/

namespace RuCCL.Rank

open RuCCL.Library

def internalRingTagPrefix : UInt64 := 0x4758000000000000
def internalHierarchyTagPrefix : UInt64 := 0x4759000000000000

/-- The multiplier of the hash. -/
def hashPrime : Nat := 0x100000001b3

def hashByte (hash : UInt64) (byte : UInt8) : UInt64 := (hash ^^^ byte.toUInt64) * 0x100000001b3

def hashBytes (hash : UInt64) (bytes : List UInt8) : UInt64 := bytes.foldl hashByte hash

def hashStart : UInt64 := 0xcbf29ce484222325

/-- The groups of ranks of an agreement: rings or hierarchy groups. -/
def rankListBytes (groups : List (List UInt32)) : List UInt8 := groups.flatMap fun group =>
    leBytes 8 group.length ++ group.flatMap fun rank => leBytes 4 rank.toNat

/-- What an agreement hashes. -/
def agreementBytes (operation : UInt64) (length : Nat) (groups : List (List UInt32))
    (discriminator : UInt32) (channels : Nat) (channelRails : List Nat) :
    List UInt8 :=
  leBytes 8 operation.toNat ++ leBytes 8 length ++
    leBytes 4 discriminator.toNat ++ leBytes 8 channels ++
    rankListBytes groups ++ channelRails.flatMap fun rail => leBytes 8 rail

def ringAgreementTag (operation : UInt64) (length : Nat) (rings : List (List UInt32))
    (discriminator : UInt32) (channels : Nat) (channelRails : List Nat) :
    UInt64 :=
  hashBytes hashStart
    (agreementBytes operation length rings discriminator channels channelRails)

def ringDataTag (operation phase : UInt64) (channel step : Nat) : UInt64 :=
  internalRingTagPrefix ||| ((operation &&& 0x00ffffff) <<< 24) ||| ((phase &&& 0x0f) <<< 20) |||
    ((UInt64.ofNat channel &&& 0xff) <<< 12) |||
    (UInt64.ofNat step &&& 0x0fff)

def hierarchyAgreementTag (operation : UInt64) (length : Nat) (groups : List (List UInt32))
    (discriminator : UInt32) (ringChannels : Nat)
    (channelRails : List Nat) : UInt64 :=
  hashBytes hashStart
    (agreementBytes operation length groups discriminator ringChannels channelRails)

def hierarchyDataTag (operation : UInt64) (phase index : UInt32) : UInt64 :=
  internalHierarchyTagPrefix |||
    (hashBytes hashStart
      (leBytes 8 operation.toNat ++ leBytes 4 phase.toNat ++
        leBytes 4 index.toNat) &&& 0x0000ffffffffffff)

def hierarchyRingDataTag (operation : UInt64) (phase : UInt32) (channel step : Nat) : UInt64 :=
  internalHierarchyTagPrefix |||
    (hashBytes hashStart
      (leBytes 8 operation.toNat ++ leBytes 4 phase.toNat ++
        leBytes 8 channel ++ leBytes 8 step) &&& 0x0000ffffffffffff)

/-- The other fields of a ring tag stay out of the bits of the channel. -/
theorem ringDataTag_channel_bits (operation phase : UInt64) (channel step : Nat) :
    ringDataTag operation phase channel step >>> 12 &&& 0xff = UInt64.ofNat channel &&& 0xff := by
  apply UInt64.toBitVec_inj.mp
  apply BitVec.eq_of_getLsbD_eq
  intro index inside
  by_cases small : index < 8
  · interval_cases index <;> simp [ringDataTag, internalRingTagPrefix]
  · have masked : (255#64).getLsbD index = false := by
      interval_cases index <;> simp at small ⊢
    simp [masked]

theorem ringDataTag_ne {operation phase otherPhase : UInt64} {channel other : Nat}
    (step otherStep : Nat) (bounded : channel < 256)
    (otherBounded : other < 256) (different : channel ≠ other) :
    ringDataTag operation phase channel step ≠
      ringDataTag operation otherPhase other otherStep := by
  intro same
  apply different
  have field : ∀ value < 256, (UInt64.ofNat value &&& 0xff).toNat = value := by
    intro value small
    have masked : value &&& 2 ^ 8 - 1 = value % 2 ^ 8 := Nat.and_two_pow_sub_one_eq_mod value 8
    rw [UInt64.toNat_and, UInt64.toNat_ofNat_of_lt' (lt_of_lt_of_le small (by decide))]
    exact masked.trans (Nat.mod_eq_of_lt small)
  rw [← field channel bounded, ← field other otherBounded,
    ← ringDataTag_channel_bits operation phase channel step,
    ← ringDataTag_channel_bits operation otherPhase other otherStep, same]

/-- A byte of the hash, up to the bits that a tag keeps. -/
theorem hashByte_modEq (hash : UInt64) (byte : UInt8) :
    ((hashByte hash byte).toNat : ℤ) ≡ ((hash.toNat ^^^ byte.toNat : Nat) : ℤ) * hashPrime
        [ZMOD 2 ^ 48] := by
  have value : (hashByte hash byte).toNat = (hash.toNat ^^^ byte.toNat) * hashPrime % 2 ^ 64 := by
    rw [hashByte, UInt64.toNat_mul, UInt64.toNat_xor, UInt8.toNat_toUInt64]
    rfl
  rw [value]
  push_cast
  have whole := Int.mod_modEq (((hash.toNat ^^^ byte.toNat : Nat) : ℤ) * hashPrime) (2 ^ 64)
  exact whole.of_dvd ⟨2 ^ 16, by norm_num⟩

theorem hashBytes_cons (hash : UInt64) (byte : UInt8) (rest : List UInt8) :
    hashBytes hash (byte :: rest) = hashBytes (hashByte hash byte) rest :=
  rfl

theorem hashBytes_append (hash : UInt64) (left right : List UInt8) :
    hashBytes hash (left ++ right) = hashBytes (hashBytes hash left) right :=
  List.foldl_append ..

theorem leBytes_zero (width : Nat) : leBytes width 0 = List.replicate width 0 := by
  induction width with
  | zero => rfl
  | succ width ih =>
      rw [leBytes, Nat.zero_div, ih]
      rfl

/-- Zero bytes only multiply. -/
theorem hashBytes_zeros_modEq (hash : UInt64) (count : Nat) :
    ((hashBytes hash (List.replicate count 0)).toNat : ℤ) ≡
      hash.toNat * (hashPrime : ℤ) ^ count [ZMOD 2 ^ 48] := by
  induction count generalizing hash with
  | zero => simp [hashBytes]
  | succ count ih =>
      rw [List.replicate_succ, hashBytes_cons]
      have first := hashByte_modEq hash 0
      rw [show (0 : UInt8).toNat = 0 from rfl, Nat.xor_zero] at first
      have later := ih (hashByte hash 0)
      calc _ ≡ _ [ZMOD 2 ^ 48] := later
        _ ≡ hash.toNat * hashPrime * (hashPrime : ℤ) ^ count [ZMOD 2 ^ 48] := first.mul_right _
        _ ≡ _ [ZMOD 2 ^ 48] := by rw [mul_assoc, ← pow_succ']

/-- A field whose value fits its lowest byte. -/
theorem hashBytes_small_modEq (hash : UInt64) (width : Nat) {value : Nat} (small : value < 256) :
    ((hashBytes hash (leBytes (width + 1) value)).toNat : ℤ) ≡
      ((hash.toNat ^^^ value : Nat) : ℤ) * hashPrime * (hashPrime : ℤ) ^ width [ZMOD 2 ^ 48] := by
  have high : value / 256 = 0 := Nat.div_eq_of_lt small
  have low : (UInt8.ofNat value).toNat = value := UInt8.toNat_ofNat_of_lt' small
  rw [leBytes, high, leBytes_zero, hashBytes_cons]
  have first := hashByte_modEq hash (UInt8.ofNat value)
  rw [low] at first
  exact (hashBytes_zeros_modEq _ width).trans (first.mul_right _)

/-- A step number of at most four bytes. -/
theorem hashBytes_step_modEq (hash : UInt64) {step : Nat} (small : step < 2 ^ 32) :
    ∃ first second third fourth : ℤ,
      |first| ≤ 255 ∧ |second| ≤ 255 ∧ |third| ≤ 255 ∧ |fourth| ≤ 255 ∧
      ((hashBytes hash (leBytes 8 step)).toNat : ℤ) ≡
        (((((hash.toNat : ℤ) + first) * hashPrime + second) * hashPrime +
          third) * hashPrime + fourth) * hashPrime * (hashPrime : ℤ) ^ 4
          [ZMOD 2 ^ 48] := by
  have offset : ∀ (hash : UInt64) (byte : UInt8), ∃ change : ℤ,
      |change| ≤ 255 ∧ ((hashByte hash byte).toNat : ℤ) ≡
        ((hash.toNat : ℤ) + change) * hashPrime [ZMOD 2 ^ 48] := by
    intro hash byte
    obtain ⟨change, same, bounded, _⟩ := xor_offset hash.toNat byte.toNat
    have below := byte.toNat_lt
    refine ⟨change, by omega, ?_⟩
    rw [← same]
    exact hashByte_modEq hash byte
  have zero : step / 256 / 256 / 256 / 256 = 0 := by omega
  rw [show (8 : Nat) = 4 + 1 + 1 + 1 + 1 from rfl, leBytes, leBytes, leBytes,
    leBytes, zero, leBytes_zero, hashBytes_cons, hashBytes_cons,
    hashBytes_cons, hashBytes_cons]
  obtain ⟨first, firstBound, firstSame⟩ := offset hash (UInt8.ofNat step)
  obtain ⟨second, secondBound, secondSame⟩ := offset
    (hashByte hash (UInt8.ofNat step)) (UInt8.ofNat (step / 256))
  obtain ⟨third, thirdBound, thirdSame⟩ := offset
    (hashByte (hashByte hash (UInt8.ofNat step)) (UInt8.ofNat (step / 256)))
    (UInt8.ofNat (step / 256 / 256))
  obtain ⟨fourth, fourthBound, fourthSame⟩ := offset
    (hashByte (hashByte (hashByte hash (UInt8.ofNat step))
      (UInt8.ofNat (step / 256))) (UInt8.ofNat (step / 256 / 256)))
    (UInt8.ofNat (step / 256 / 256 / 256))
  refine ⟨first, second, third, fourth, firstBound, secondBound, thirdBound, fourthBound, ?_⟩
  refine (hashBytes_zeros_modEq _ 4).trans (Int.ModEq.mul_right _ ?_)
  refine fourthSame.trans (Int.ModEq.mul_right _ (Int.ModEq.add_right _ ?_))
  refine thirdSame.trans (Int.ModEq.mul_right _ (Int.ModEq.add_right _ ?_))
  exact secondSame.trans (Int.ModEq.mul_right _ (Int.ModEq.add_right _ firstSame))

/-- The number that the digits of a collision have to represent, for a change of
the phase by `phase - 3` and of the channel by `channel - 126`. -/
def collisionTarget (phase channel : Nat) : Nat :=
  (510 * (1 + hashPrime + hashPrime ^ 2 + hashPrime ^ 3) +
    (2 ^ 48 - (phase * hashPrime ^ 15 + channel * hashPrime ^ 11) % 2 ^ 48) +
    (3 * hashPrime ^ 15 + 126 * hashPrime ^ 11)) % 2 ^ 48

/-- The multiplier is 435 up to the fortieth bit, which leaves few candidates for
the bytes of the step numbers; none of them goes on to the last bits. -/
def collides (target : Nat) : Bool :=
  decide (target % 2 ^ 40 ≤ 1020 * (1 + 435 + 435 ^ 2 + 435 ^ 3)) &&
  (expansions 435 1020 4 (target % 2 ^ 40)).any fun digits =>
    Nat.ofDigits hashPrime digits % 2 ^ 48 == target

theorem collides_eq_false :
    ∀ phase < 7, ∀ channel < 253, (phase % 2 = 0 ∨ (phase = 3 ∧ channel ≠ 126)) →
        collides (collisionTarget phase channel) = false := by
  decide +kernel

/-- Digits that represent the target are found. -/
theorem collides_of_digits {target lowest low high highest : Nat}
    (lowestBound : lowest ≤ 1020) (lowBound : low ≤ 1020)
    (highBound : high ≤ 1020) (highestBound : highest ≤ 1020)
    (same : (lowest + hashPrime * (low + hashPrime *
      (high + hashPrime * highest))) % 2 ^ 48 = target) :
    collides target = true := by
  have value : ∀ base : Nat, Nat.ofDigits base [lowest, low, high, highest] =
        lowest + base * (low + base * (high + base * highest)) := by
    intro base
    simp [Nat.ofDigits]
  have bounded : ∀ digit ∈ [lowest, low, high, highest], digit ≤ 1020 := by
    intro digit member
    simp only [List.mem_cons, List.not_mem_nil, or_false] at member
    omega
  have reduced : lowest + 435 * (low + 435 * (high + 435 * highest)) = target % 2 ^ 40 := by
    rw [← same]
    simp only [hashPrime]
    omega
  have listed := @mem_expansions 435 1020 (by decide)
    [lowest, low, high, highest] bounded
  rw [value, reduced] at listed
  rw [collides, Bool.and_eq_true, decide_eq_true_eq, List.any_eq_true]
  refine ⟨by omega, _, listed, ?_⟩
  rw [value, same]
  exact beq_self_eq_true target

/-- A vanishing combination in terms of its shifted coefficients. -/
theorem digits_mod_eq {phase channel highest high low lowest : Nat}
    (vanishes : (2 ^ 48 : ℤ) ∣ ((phase : ℤ) - 3) * (hashPrime : ℤ) ^ 15 +
      ((channel : ℤ) - 126) * (hashPrime : ℤ) ^ 11 +
      ((highest : ℤ) - 510) * (hashPrime : ℤ) ^ 3 +
      ((high : ℤ) - 510) * (hashPrime : ℤ) ^ 2 +
      ((low : ℤ) - 510) * hashPrime + ((lowest : ℤ) - 510)) :
    (lowest + hashPrime * (low + hashPrime * (high + hashPrime * highest))) % 2 ^ 48 =
      collisionTarget phase channel := by
  rw [collisionTarget]
  generalize hashPrime = prime at vanishes ⊢
  obtain ⟨times, multiple⟩ := vanishes
  obtain ⟨quotient, remainder, small, split⟩ :
      ∃ quotient remainder, remainder < 2 ^ 48 ∧ phase * prime ^ 15 + channel * prime ^ 11 =
          2 ^ 48 * quotient + remainder :=
    ⟨_, _, Nat.mod_lt _ (by norm_num), (Nat.div_add_mod _ _).symm⟩
  rw [split, Nat.mul_add_mod, Nat.mod_eq_of_lt small]
  obtain ⟨rest, restEq⟩ := Nat.exists_eq_add_of_le small.le
  have removed : 2 ^ 48 - remainder = rest := by omega
  rw [removed]
  apply Int.natCast_modEq_iff.mp
  rw [Int.modEq_iff_dvd]
  refine ⟨1 + quotient - times, ?_⟩
  zify at split restEq
  push_cast
  linear_combination split - restEq - multiple

/-- No small combination of the powers of the multiplier vanishes. -/
theorem combination_not_modEq {phase channel first second third fourth : ℤ}
    (phaseBound : |phase| ≤ 3) (channelBound : |channel| ≤ 126)
    (firstBound : |first| ≤ 510) (secondBound : |second| ≤ 510)
    (thirdBound : |third| ≤ 510) (fourthBound : |fourth| ≤ 510)
    (changed : phase % 2 = 1 ∨ (phase = 0 ∧ channel ≠ 0)) :
    ¬phase * (hashPrime : ℤ) ^ 15 + channel * (hashPrime : ℤ) ^ 11 +
      first * (hashPrime : ℤ) ^ 3 + second * (hashPrime : ℤ) ^ 2 +
      third * hashPrime + fourth ≡ 0 [ZMOD 2 ^ 48] := by
  rw [abs_le] at phaseBound channelBound
  rw [abs_le] at firstBound secondBound thirdBound fourthBound
  intro vanishes
  obtain ⟨phaseDigit, phaseEq⟩ := Int.eq_ofNat_of_zero_le (show 0 ≤ phase + 3 by omega)
  obtain ⟨channelDigit, channelEq⟩ := Int.eq_ofNat_of_zero_le (show 0 ≤ channel + 126 by omega)
  obtain ⟨highest, firstEq⟩ := Int.eq_ofNat_of_zero_le (show 0 ≤ first + 510 by omega)
  obtain ⟨high, secondEq⟩ := Int.eq_ofNat_of_zero_le (show 0 ≤ second + 510 by omega)
  obtain ⟨low, thirdEq⟩ := Int.eq_ofNat_of_zero_le (show 0 ≤ third + 510 by omega)
  obtain ⟨lowest, fourthEq⟩ := Int.eq_ofNat_of_zero_le (show 0 ≤ fourth + 510 by omega)
  have found : collides (collisionTarget phaseDigit channelDigit) = true := by
    apply @collides_of_digits _ lowest low high highest (by omega) (by omega)
      (by omega) (by omega)
    apply digits_mod_eq
    rw [← phaseEq, ← channelEq, ← firstEq, ← secondEq, ← thirdEq, ← fourthEq]
    simp only [add_sub_cancel_right]
    exact Int.modEq_zero_iff_dvd.mp vanishes
  have free := collides_eq_false phaseDigit (by omega) channelDigit
    (by omega) (by omega)
  rw [free] at found
  cases found

/-- The bits of the hash that a tag keeps. -/
theorem hash_mod_of_tag {hash other : UInt64}
    (same : internalHierarchyTagPrefix ||| (hash &&& 0x0000ffffffffffff) =
      internalHierarchyTagPrefix ||| (other &&& 0x0000ffffffffffff)) :
    (hash.toNat : ℤ) ≡ other.toNat [ZMOD 2 ^ 48] := by
  have kept : ∀ value : UInt64,
      ((internalHierarchyTagPrefix ||| (value &&& 0x0000ffffffffffff)) &&&
        0x0000ffffffffffff).toNat = value.toNat % 2 ^ 48 := by
    intro value
    have masked : (internalHierarchyTagPrefix |||
        (value &&& 0x0000ffffffffffff)) &&& 0x0000ffffffffffff =
        value &&& 0x0000ffffffffffff := by
      apply UInt64.toBitVec_inj.mp
      apply BitVec.eq_of_getLsbD_eq
      intro index inside
      interval_cases index <;> simp [internalHierarchyTagPrefix]
    rw [masked, UInt64.toNat_and]
    exact Nat.and_two_pow_sub_one_eq_mod value.toNat 48
  have remainders : hash.toNat % 2 ^ 48 = other.toNat % 2 ^ 48 := by
    rw [← kept hash, ← kept other, same]
  exact Int.natCast_modEq_iff.mpr remainders

/-- The hash of a transfer of the leaders' ring as a polynomial of the
multiplier. -/
theorem hashBytes_transfer_modEq (hash : UInt64) (phase : Nat) {channel step : Nat}
    (channelSmall : channel < 256) (stepSmall : step < 2 ^ 32) :
    ∃ first second third fourth : ℤ,
      |first| ≤ 255 ∧ |second| ≤ 255 ∧ |third| ≤ 255 ∧ |fourth| ≤ 255 ∧
      ((hashBytes (hashBytes (hashBytes hash (leBytes 4 phase))
        (leBytes 8 channel)) (leBytes 8 step)).toNat : ℤ) ≡
        (((((hashBytes hash (leBytes 4 phase)).toNat ^^^ channel : Nat) : ℤ) *
          (hashPrime : ℤ) ^ 11 + first * (hashPrime : ℤ) ^ 3 +
          second * (hashPrime : ℤ) ^ 2 + third * hashPrime + fourth) *
          (hashPrime : ℤ) ^ 5) [ZMOD 2 ^ 48] := by
  have second := hashBytes_small_modEq (hashBytes hash (leBytes 4 phase)) 7 channelSmall
  obtain ⟨e0, e1, e2, e3, b0, b1, b2, b3, third⟩ := hashBytes_step_modEq
    (hashBytes (hashBytes hash (leBytes 4 phase)) (leBytes 8 channel))
    stepSmall
  refine ⟨e0, e1, e2, e3, b0, b1, b2, b3, third.trans ?_⟩
  have replaced := ((((((second.add_right e0).mul_right
    (hashPrime : ℤ)).add_right e1).mul_right (hashPrime : ℤ)).add_right
    e2).mul_right (hashPrime : ℤ)).add_right e3
  refine ((replaced.mul_right (hashPrime : ℤ)).mul_right ((hashPrime : ℤ) ^ 4)).trans ?_
  generalize (hashPrime : ℤ) = prime
  apply congrArg (fun value : ℤ => value % 2 ^ 48)
  ring

theorem modEq_of_mul_prime {left right : ℤ}
    (same : left * (hashPrime : ℤ) ^ 5 ≡ right * (hashPrime : ℤ) ^ 5
      [ZMOD 2 ^ 48]) : left ≡ right [ZMOD 2 ^ 48] := by
  have cancelled := Int.ModEq.cancel_right_div_gcd (by norm_num) same
  have coprime : Int.gcd (2 ^ 48) ((hashPrime : ℤ) ^ 5) = 1 := by
    decide
  rw [coprime] at cancelled
  simpa using cancelled

/-- Transfers of different channels of the leaders' rings have different tags, in one
phase or in the two of an all-reduce. -/
theorem hierarchyRingDataTag_ne (operation : UInt64) {phase otherPhase : UInt32}
    {channel other step otherStep : Nat} (small : phase.toNat < 256)
    (phases : phase = otherPhase ∨ phase = 1 ∧ otherPhase = 2 ∨ phase = 2 ∧ otherPhase = 1)
    (bounded : channel < 64) (otherBounded : other < 64)
    (stepBounded : step < 2 ^ 32) (otherStepBounded : otherStep < 2 ^ 32)
    (different : channel ≠ other) :
    hierarchyRingDataTag operation phase channel step ≠
      hierarchyRingDataTag operation otherPhase other otherStep := by
  intro same
  have hashes := hash_mod_of_tag same
  simp only [hashBytes_append] at hashes
  generalize hashBytes hashStart (leBytes 8 operation.toNat) = hash at hashes
  have numbers : phase.toNat = otherPhase.toNat ∨ phase.toNat = 1 ∧ otherPhase.toNat = 2 ∨
      phase.toNat = 2 ∧ otherPhase.toNat = 1 := by
    rcases phases with rfl | ⟨rfl, rfl⟩ | ⟨rfl, rfl⟩
    · exact .inl rfl
    · exact .inr (.inl ⟨rfl, rfl⟩)
    · exact .inr (.inr ⟨rfl, rfl⟩)
  generalize phase.toNat = number at hashes numbers small
  generalize otherPhase.toNat = otherNumber at hashes numbers
  obtain ⟨e0, e1, e2, e3, b0, b1, b2, b3, left⟩ :=
    @hashBytes_transfer_modEq hash number channel step (by omega) stepBounded
  obtain ⟨o0, o1, o2, o3, c0, c1, c2, c3, right⟩ :=
    @hashBytes_transfer_modEq hash otherNumber other otherStep (by omega)
      otherStepBounded
  have equal := modEq_of_mul_prime (left.symm.trans (hashes.trans right))
  have start := @hashBytes_small_modEq hash 3 number (by omega)
  have otherStart := @hashBytes_small_modEq hash 3 otherNumber (by omega)
  obtain ⟨d, dSame, dBound, _⟩ := xor_offset (hashBytes hash (leBytes 4 number)).toNat channel
  obtain ⟨o, oSame, oBound, _⟩ := xor_offset (hashBytes hash (leBytes 4 otherNumber)).toNat other
  obtain ⟨f, fSame, fBound, fParity⟩ := xor_offset hash.toNat number
  obtain ⟨g, gSame, gBound, gParity⟩ := xor_offset hash.toNat otherNumber
  rw [abs_le] at b0 b1 b2 b3 c0 c1 c2 c3 dBound oBound fBound gBound
  have near : |f - g| ≤ 3 := by
    rw [abs_le]
    rcases numbers with rfl | ⟨rfl, rfl⟩ | ⟨rfl, rfl⟩
    · constructor <;> omega
    · constructor <;> omega
    · constructor <;> omega
  -- Either the phases differ, by an odd number, or the channels do.
  have changed : (f - g) % 2 = 1 ∨ (f - g = 0 ∧ d - o ≠ 0) := by
    by_cases samePhase : number = otherNumber
    · subst samePhase
      refine .inr ⟨by omega, ?_⟩
      intro unchanged
      apply different
      have xorSame : (hashBytes hash (leBytes 4 number)).toNat ^^^ channel =
          (hashBytes hash (leBytes 4 number)).toNat ^^^ other := by
        omega
      exact Nat.xor_right_injective xorSame
    · exact .inl (by omega)
  rw [fSame] at start
  rw [gSame] at otherStart
  rw [dSame, oSame] at equal
  have leftStart := ((start.add_right d).mul_right
    ((hashPrime : ℤ) ^ 11)).add_right (e0 * (hashPrime : ℤ) ^ 3 +
      e1 * (hashPrime : ℤ) ^ 2 + e2 * hashPrime + e3)
  have rightStart := ((otherStart.add_right o).mul_right
    ((hashPrime : ℤ) ^ 11)).add_right (o0 * (hashPrime : ℤ) ^ 3 +
      o1 * (hashPrime : ℤ) ^ 2 + o2 * hashPrime + o3)
  simp only [← add_assoc] at leftStart rightStart
  have zero := (leftStart.symm.trans (equal.trans rightStart)).sub_right
    ((((hash.toNat : ℤ) + g) * hashPrime * (hashPrime : ℤ) ^ 3 + o) *
      (hashPrime : ℤ) ^ 11 + o0 * (hashPrime : ℤ) ^ 3 +
      o1 * (hashPrime : ℤ) ^ 2 + o2 * hashPrime + o3)
  rw [sub_self] at zero
  refine @combination_not_modEq (f - g) (d - o) (e0 - o0) (e1 - o1)
    (e2 - o2) (e3 - o3) near ?_ ?_ ?_ ?_ ?_ changed (Eq.trans ?_ zero)
  · rw [abs_le]
    constructor <;> omega
  · rw [abs_le]
    constructor <;> omega
  · rw [abs_le]
    constructor <;> omega
  · rw [abs_le]
    constructor <;> omega
  · rw [abs_le]
    constructor <;> omega
  · generalize (hashPrime : ℤ) = prime
    apply congrArg (fun value : ℤ => value % 2 ^ 48)
    ring

end RuCCL.Rank
