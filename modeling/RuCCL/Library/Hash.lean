import Mathlib.Data.Int.ModEq
import Mathlib.Data.Nat.Bitwise
import Mathlib.Data.Nat.Digits.Defs
import Mathlib.Tactic.Linarith
import Mathlib.Tactic.Ring

/-!
# Collisions of a multiplicative byte hash

A byte hash that alternates an exclusive or with a multiplication adds a small
number per byte and multiplies: two inputs collide when a combination of powers
of the multiplier with small coefficients vanishes.  All representations of a
number with such coefficients can be listed, so that collisions of short inputs
are excluded by computation.
-/

namespace RuCCL.Library

theorem xor_le_add (left right : Nat) : left ^^^ right ≤ left + right := by
  induction left using Nat.strong_induction_on generalizing right with
  | _ left ih =>
      by_cases zero : left = 0
      · rw [zero, Nat.zero_xor, Nat.zero_add]
      · have half := ih (left / 2) (by omega) (right / 2)
        have halves : (left ^^^ right) / 2 = left / 2 ^^^ right / 2 := Nat.xor_div_two
        have parity : (left ^^^ right) % 2 = (left + right) % 2 := Nat.xor_mod_two_eq
        omega

/-- Exclusive or with a byte changes a number by at most the byte, and its parity
by that of the byte. -/
theorem xor_offset (value byte : Nat) :
    ∃ change : ℤ, ((value ^^^ byte : Nat) : ℤ) = value + change ∧
      |change| ≤ byte ∧ change % 2 = (byte : ℤ) % 2 := by
  have above := xor_le_add value byte
  have below : value ≤ (value ^^^ byte) + byte := by
    have back := xor_le_add (value ^^^ byte) byte
    rw [Nat.xor_assoc, Nat.xor_self, Nat.xor_zero] at back
    exact back
  have parity : (value ^^^ byte) % 2 = (value + byte) % 2 := Nat.xor_mod_two_eq
  refine ⟨((value ^^^ byte : Nat) : ℤ) - value, by ring, ?_, by omega⟩
  rw [abs_le]
  constructor <;> omega

/-- All representations of a number with `count` digits of at most `limit`, the
lowest digit first. -/
def expansions (base limit : Nat) : Nat → Nat → List (List Nat)
  | 0, target => if target = 0 then [[]] else []
  | count + 1, target =>
      ((List.range (limit / base + 1)).map fun extra =>
        target % base + extra * base).flatMap fun digit =>
          if digit ≤ limit ∧ digit ≤ target then
            (expansions base limit count ((target - digit) / base)).map fun rest => digit :: rest
          else []

theorem mem_expansions {base limit : Nat} (positive : 0 < base) (digits : List Nat) :
    (∀ digit ∈ digits, digit ≤ limit) → digits ∈ expansions base limit digits.length
        (Nat.ofDigits base digits) := by
  induction digits with
  | nil =>
      intro _
      simp [expansions, Nat.ofDigits]
  | cons digit rest ih =>
      intro bounded
      have small := bounded digit List.mem_cons_self
      have later := ih fun other member =>
        bounded other (List.mem_cons_of_mem digit member)
      have value : Nat.ofDigits base (digit :: rest) = digit + base * Nat.ofDigits base rest := by
        simp [Nat.ofDigits]
      rw [List.length_cons, expansions, value, List.mem_flatMap]
      refine ⟨digit, ?_, ?_⟩
      · rw [List.mem_map]
        refine ⟨digit / base, ?_, ?_⟩
        · rw [List.mem_range]
          exact Nat.lt_succ_of_le (Nat.div_le_div_right small)
        · rw [Nat.add_mul_mod_self_left, Nat.mul_comm]
          exact Nat.mod_add_div digit base
      · rw [if_pos ⟨small, Nat.le_add_right _ _⟩, Nat.add_sub_cancel_left,
          Nat.mul_div_cancel_left _ positive]
        exact List.mem_map.mpr ⟨rest, later, rfl⟩

end RuCCL.Library
