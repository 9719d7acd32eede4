import Mathlib.Data.List.Basic
import Mathlib.Data.Nat.Basic
import Mathlib.Tactic.Ring
import Mathlib.Tactic.Linarith

/-!
# Little-endian fields of a byte buffer

`leBytes` and `leValue` are mutually inverse between the numbers below
`256 ^ width` and the byte lists of length `width`.  `putBytes` overwrites one
field of a buffer in place and `getBytes` reads one back.
-/

namespace RuCCL.Library

/-- The `width` low bytes of `value`, lowest byte first. -/
def leBytes : Nat → Nat → List UInt8
  | 0, _ => []
  | width + 1, value => UInt8.ofNat value :: leBytes width (value / 256)

/-- The number that a little-endian byte list denotes. -/
def leValue : List UInt8 → Nat
  | [] => 0
  | byte :: rest => byte.toNat + 256 * leValue rest

@[simp]
theorem leBytes_length (width value : Nat) : (leBytes width value).length = width := by
  induction width generalizing value with
  | zero => rfl
  | succ width ih => simp [leBytes, ih]

theorem leValue_leBytes {width value : Nat} (bounded : value < 256 ^ width) :
    leValue (leBytes width value) = value := by
  induction width generalizing value with
  | zero =>
      have zero : value = 0 := by simpa using bounded
      simp [leBytes, leValue, zero]
  | succ width ih =>
      have smaller : value / 256 < 256 ^ width := by
        apply Nat.div_lt_of_lt_mul
        rw [← pow_succ']
        exact bounded
      simp only [leBytes, leValue, ih smaller, UInt8.toNat_ofNat']
      exact Nat.mod_add_div value 256

theorem leBytes_leValue (bytes : List UInt8) : leBytes bytes.length (leValue bytes) = bytes := by
  induction bytes with
  | nil => rfl
  | cons byte rest ih =>
      have bounded : byte.toNat < 256 := byte.toNat_lt
      have low : UInt8.ofNat (leValue (byte :: rest)) = byte := by
        apply UInt8.toNat_inj.mp
        simp only [UInt8.toNat_ofNat', leValue]
        omega
      have high : leValue (byte :: rest) / 256 = leValue rest := by
        simp only [leValue]
        omega
      simp only [List.length_cons, leBytes, low, high, ih]

theorem leValue_lt (bytes : List UInt8) : leValue bytes < 256 ^ bytes.length := by
  induction bytes with
  | nil => simp [leValue]
  | cons byte rest ih =>
      have bounded : byte.toNat < 256 := byte.toNat_lt
      simp only [leValue, List.length_cons, pow_succ]
      omega

/-- The `width` bytes found at `offset`. -/
def getBytes (bytes : List UInt8) (offset width : Nat) : List UInt8 :=
  (bytes.drop offset).take width

/-- Overwrite the bytes from `offset` on by `field`. -/
def putBytes (bytes : List UInt8) (offset : Nat) (field : List UInt8) :
    List UInt8 :=
  bytes.take offset ++ field ++ bytes.drop (offset + field.length)

theorem getBytes_length {bytes : List UInt8} {offset width : Nat}
    (inside : offset + width ≤ bytes.length) :
    (getBytes bytes offset width).length = width := by
  simp only [getBytes, List.length_take, List.length_drop]
  omega

/-- A field written right behind `front` replaces as many zeros. -/
theorem putBytes_zeros (front field : List UInt8) (remaining : Nat) :
    putBytes (front ++ List.replicate (field.length + remaining) 0) front.length field =
      (front ++ field) ++ List.replicate remaining 0 := by
  have dropped :
      (front ++ List.replicate (field.length + remaining) 0).drop (front.length + field.length) =
        List.replicate remaining 0 := by
    rw [List.drop_append]
    simp
  simp [putBytes, dropped]

/-- Cut consecutive fields of the given widths out of a buffer. -/
def sliceFields : Nat → List Nat → List UInt8 → List (List UInt8)
  | _, [], _ => []
  | offset, width :: widths, bytes =>
      getBytes bytes offset width :: sliceFields (offset + width) widths bytes

/-- Write consecutive fields of the given widths into a buffer. -/
def putFields :
    Nat → List Nat → List (List UInt8) → List UInt8 → List UInt8
  | offset, width :: widths, field :: fields, bytes =>
      putFields (offset + width) widths fields (putBytes bytes offset field)
  | _, _, _, bytes => bytes

/-- Slicing a buffer that was laid out field by field gives the fields back,
whatever follows them. -/
theorem sliceFields_flatten (front : List UInt8) (fields : List (List UInt8))
    (rest : List UInt8) :
    sliceFields front.length (fields.map List.length)
        (front ++ (fields.flatten ++ rest)) = fields := by
  induction fields generalizing front with
  | nil => rfl
  | cons field fields ih =>
      have tail := ih (front ++ field)
      simp only [List.length_append, List.append_assoc] at tail
      simp only [List.map_cons, sliceFields, List.flatten_cons,
        List.append_assoc, tail, List.cons.injEq, and_true]
      simp [getBytes]

/-- The slices of a buffer put together are the buffer's front part. -/
theorem flatten_sliceFields (offset : Nat) (widths : List Nat) (bytes : List UInt8) :
    (sliceFields offset widths bytes).flatten =
      getBytes bytes offset widths.sum := by
  induction widths generalizing offset with
  | nil => simp [sliceFields, getBytes]
  | cons width widths ih =>
      rw [sliceFields, List.flatten_cons, ih]
      simp only [getBytes, List.sum_cons]
      rw [List.take_add, List.drop_drop]

/-- Filling zeros field by field concatenates the fields. -/
theorem putFields_zeros (front : List UInt8) (fields : List (List UInt8)) (remaining : Nat) :
    putFields front.length (fields.map List.length) fields
        (front ++ List.replicate ((fields.map List.length).sum + remaining) 0) =
      front ++ fields.flatten ++ List.replicate remaining 0 := by
  induction fields generalizing front with
  | nil => simp [putFields]
  | cons field fields ih =>
      have tail := ih (front ++ field)
      rw [List.length_append] at tail
      simp only [List.map_cons, List.sum_cons, putFields, Nat.add_assoc]
      rw [putBytes_zeros, tail]
      simp

end RuCCL.Library
