import RuCCL.Rank.DeviceBuffer

/-!
# Elements and errors of tensor devices

A backend names the type of its tensors, and only some of these types are elements of
collectives.
-/

namespace RuCCL.Tensor

open RuCCL.Rank

/-- The element types of a backend, as far as collectives name them. -/
inductive DType where
  | f32 | f16 | bf16 | i32 | i64 | u8 | u32
  | other (code : Nat)
  deriving DecidableEq

/-- The sealed implementations. -/
inductive SealedElement where
  | f32 | i32 | i64 | u8 | u32 | f16 | bf16
  deriving DecidableEq

def SealedElement.dtype : SealedElement → DType
  | f32 => .f32
  | i32 => .i32
  | i64 => .i64
  | u8 => .u8
  | u32 => .u32
  | f16 => .f16
  | bf16 => .bf16

def SealedElement.size : SealedElement → Nat
  | f32 => 4
  | i32 => 4
  | i64 => 8
  | u8 => 1
  | u32 => 4
  | f16 => 2
  | bf16 => 2

class TensorElement (T : Type) where
  element : SealedElement

namespace TensorElement

variable {T : Type} [TensorElement T]

def dtype (T : Type) [TensorElement T] : DType := (element T).dtype

/-- `size_of` -/
def elementSize (T : Type) [TensorElement T] : Nat := (element T).size

theorem positive : 0 < elementSize T := by
  unfold elementSize
  cases element T <;> decide

theorem small : elementSize T ≤ 8 := by
  unfold elementSize
  cases element T <;> decide

end TensorElement

/-- Other errors are those of a collective; `outOfRange` is a panic of the backend. -/
inductive TensorDeviceError where
  | unsupportedDType (dtype : DType)
  | dtypeMismatch (expected actual : DType)
  | deviceMismatch
  | invalidBuffer (message : String)
  | invalidOperation (message : String)
  | poisoned
  | collective (error : DeviceError)
  | outOfRange
  deriving DecidableEq

end RuCCL.Tensor
