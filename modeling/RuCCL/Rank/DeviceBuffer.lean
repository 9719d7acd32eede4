import RuCCL.Rank.Routing
import RuCCL.Rank.Topology

/-!
# Buffers and statistics of device collectives

A device buffer is its bytes, whole elements of one size; copies out of its range
fail.  Statistics are kept as far as they can fail; the name of the transport is
left out.
-/

namespace RuCCL.Rank

open RuCCL.Library

/-- The error of a device collective. -/
inductive DeviceError where
  | rankOutOfRange (rank worldSize : Nat)
  | rank (error : RankError)
  | network (error : NetworkError)
  | device
  deriving DecidableEq

def isizeLimit : Nat := 2 ^ 63 - 1

/-- Every sum of bytes is checked, so that it stays below `wordSize`. -/
structure CollectiveStats where
  algorithm : CollectiveAlgorithm
  steps : UInt32
  transferredBytes : Nat
  reductionKernelLaunches : UInt32
  deriving DecidableEq

def CollectiveStats.new (algorithm : CollectiveAlgorithm) :
    CollectiveStats where
  algorithm := algorithm
  steps := 0
  transferredBytes := 0
  reductionKernelLaunches := 0

/-- `checked_add` on `u32`. -/
def checkedAddSteps (left right : UInt32) : Option UInt32 :=
  if left.toNat + right.toNat < 2 ^ 32 then some (left + right) else none

/-- A buffer of whole elements. -/
structure DeviceBuffer (elementSize : Nat) where
  length : Nat
  bytes : List UInt8
  sized : bytes.length = length * elementSize
  fits : length < wordSize

namespace DeviceBuffer

variable {elementSize : Nat} (buffer : DeviceBuffer elementSize)

def copyBytesFromDeviceAt (offset length : Nat) : Except DeviceError (List UInt8) :=
  if offset + length ≤ buffer.length then
    .ok (getBytes buffer.bytes (offset * elementSize) (length * elementSize))
  else .error .device

theorem putBytes_sized {bytes field : List UInt8} {offset : Nat}
    (inside : offset + field.length ≤ bytes.length) :
    (putBytes bytes offset field).length = bytes.length := by
  simp only [putBytes, List.length_append, List.length_take, List.length_drop]
  omega

def copyBytesToDeviceAt (offset : Nat) (values : List UInt8) :
    Except DeviceError (DeviceBuffer elementSize) :=
  if inside : offset * elementSize + values.length ≤ buffer.bytes.length then
    .ok { buffer with
      bytes := putBytes buffer.bytes (offset * elementSize) values
      sized := (putBytes_sized inside).trans buffer.sized }
  else .error .device

end DeviceBuffer

end RuCCL.Rank
