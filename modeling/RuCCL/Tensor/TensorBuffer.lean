import RuCCL.Library.Partition
import RuCCL.Library.Result
import RuCCL.Library.Transition
import RuCCL.Rank.AllReducePasses
import RuCCL.Tensor.Element

/-!
# Typed buffers on a tensor backend

A buffer stores a floating or an integer primitive of the backend.  Which of the two
follows from the element type, and each entry point decides it by a list of its own.

The backend is a parameter: its tensors report any element type, shape and device.
-/

namespace RuCCL.TensorDevice

open RuCCL.Library
open RuCCL.Rank (ReductionOperation)
open RuCCL.Tensor (DType TensorDeviceError TensorElement)
open RuCCL.Tensor.TensorElement (dtype elementSize)

structure TensorData (T : Type) where
  values : List T
  shape : List Nat

/-- The operations of a backend on tensors of one kind. -/
structure TensorOps (T Device Mask Tensor : Type) where
  dtype : Tensor → DType
  shape : Tensor → List Nat
  device : Tensor → Device
  empty : List Nat → Device → DType → Tensor
  fromData : TensorData T → Device → Tensor
  slice : Tensor → Span → Tensor
  sliceAssign : Tensor → Span → Tensor → Tensor
  add : Tensor → Tensor → Tensor
  mul : Tensor → Tensor → Tensor
  lower : Tensor → Tensor → DType → Mask
  maskWhere : Tensor → Mask → Tensor → Tensor

structure Backend (T : Type) where
  Device : Type
  Mask : Type
  FloatTensorPrimitive : Type
  IntTensorPrimitive : Type
  sameDevice : DecidableEq Device
  supportsDtype : Device → DType → Bool
  boolDtype : Device → DType
  float : TensorOps T Device Mask FloatTensorPrimitive
  int : TensorOps T Device Mask IntTensorPrimitive
  bitwiseAnd : IntTensorPrimitive → IntTensorPrimitive → IntTensorPrimitive
  bitwiseOr : IntTensorPrimitive → IntTensorPrimitive → IntTensorPrimitive
  bitwiseXor : IntTensorPrimitive → IntTensorPrimitive → IntTensorPrimitive

instance {T : Type} (B : Backend T) : DecidableEq B.Device := B.sameDevice

/-- How a call ends without a result. -/
inductive Fault where
  | error (error : TensorDeviceError)
  /-- An arm that must not be reached: the thread panics. -/
  | unreachable (message : String)
  deriving DecidableEq

inductive Primitive {T : Type} (B : Backend T) where
  | float (value : B.FloatTensorPrimitive)
  | int (value : B.IntTensorPrimitive)

/-- The value is gone once an update has panicked. -/
structure TensorBuffer {T : Type} (B : Backend T) where
  value : Option (Primitive B)
  device : B.Device
  length : Nat

structure TensorReductionLaunch where
  length : Nat
  destinationOffset : Nat

variable {T : Type} {B : Backend T}

def checkedLength (T : Type) [TensorElement T] (length : Nat) :
    Except Fault Unit := do
  let bytes ← okOr (checkedMul length (elementSize T))
    (.error (.invalidBuffer "collective buffer byte length overflow"))
  rejectIf (2 ^ 63 - 1 < bytes)
    (.error (.invalidBuffer "collective buffer exceeds addressable size"))

def checkedRange (total offset length : Nat) : Except Fault Span := do
  let stop ← okOr (checkedAdd offset length)
    (.error (.invalidBuffer "collective element range overflow"))
  rejectIf (total < stop) (.error (.invalidBuffer "collective element range out of bounds"))
  return ⟨offset, stop⟩

def validateType [TensorElement T] (B : Backend T) (device : B.Device) :
    Except Fault Unit :=
  rejectIf (B.supportsDtype device (dtype T) = false) (.error (.unsupportedDType (dtype T)))

def validateImport [TensorElement T] {Tensor : Type}
    (ops : TensorOps T B.Device B.Mask Tensor) (device : B.Device)
    (value : Tensor) : Except Fault Unit := do
  rejectIf (ops.dtype value ≠ dtype T) (.error (.dtypeMismatch (dtype T) (ops.dtype value)))
  rejectIf (ops.device value ≠ device) (.error .deviceMismatch)
  rejectIf ((ops.shape value).length ≠ 1)
    (.error (.invalidBuffer "collective tensors must have rank one"))
  checkedLength T ((ops.shape value).headD 0)

def validateBuffer (device : B.Device) (buffer : TensorBuffer B) :
    Except Fault Unit :=
  rejectIf (buffer.device ≠ device) (.error .deviceMismatch)

def Primitive.slice (range : Span) : Primitive B → Primitive B
  | .float value => .float (B.float.slice value range)
  | .int value => .int (B.int.slice value range)

def Primitive.assign (range : Span) :
    Primitive B → Primitive B → Except Fault (Primitive B)
  | .float tensor, .float value => .ok (.float (B.float.sliceAssign tensor range value))
  | .int tensor, .int value => .ok (.int (B.int.sliceAssign tensor range value))
  | _, _ => .error (.unreachable "typed collective buffer storage kind")

def fromValues [TensorElement T] (B : Backend T) (device : B.Device)
    (values : List T) : Primitive B :=
  let data : TensorData T := ⟨values, [values.length]⟩
  if dtype T ∈ [DType.u8, .u32, .i32, .i64] then
    .int (B.int.fromData data device)
  else
    .float (B.float.fromData data device)

/-- Keep the destination unless the source is strictly better. -/
def select {Tensor : Type} (ops : TensorOps T B.Device B.Mask Tensor)
    (boolDtype : DType) (minimum : Bool) (destination source : Tensor) :
    Tensor :=
  let mask := if minimum then ops.lower source destination boolDtype
    else ops.lower destination source boolDtype
  ops.maskWhere destination mask source

def reduceValues (device : B.Device) (operation : ReductionOperation) :
    Primitive B → Primitive B → Except Fault (Primitive B)
  | .float destination, .float source =>
      match operation with
      | .sum => .ok (.float (B.float.add destination source))
      | .product => .ok (.float (B.float.mul destination source))
      | .minimum =>
          .ok (.float (select B.float (B.boolDtype device) true destination source))
      | .maximum =>
          .ok (.float (select B.float (B.boolDtype device) false destination source))
      | .bitAnd | .bitOr | .bitXor => .error (.unreachable "validated floating reduction")
  | .int destination, .int source =>
      match operation with
      | .sum => .ok (.int (B.int.add destination source))
      | .product => .ok (.int (B.int.mul destination source))
      | .minimum =>
          .ok (.int (select B.int (B.boolDtype device) true destination source))
      | .maximum =>
          .ok (.int (select B.int (B.boolDtype device) false destination source))
      | .bitAnd => .ok (.int (B.bitwiseAnd destination source))
      | .bitOr => .ok (.int (B.bitwiseOr destination source))
      | .bitXor => .ok (.int (B.bitwiseXor destination source))
  | _, _ => .error (.unreachable "typed collective buffer storage kind")

section Entry

variable [TensorElement T]

def wrap (device : B.Device) (value : Primitive B) (length : Nat) :
    TensorBuffer B :=
  ⟨some value, device, length⟩

def importFloat (device : B.Device) (value : B.FloatTensorPrimitive) :
    Except Fault (TensorBuffer B) := do
  rejectIf (dtype T ∈ [DType.u8, .i32, .i64])
    (.error (.invalidBuffer "integer elements require import_int"))
  validateType B device
  validateImport B.float device value
  return wrap device (.float value) ((B.float.shape value).headD 0)

def importInt (device : B.Device) (value : B.IntTensorPrimitive) :
    Except Fault (TensorBuffer B) := do
  rejectIf (dtype T ∉ [DType.u8, .u32, .i32, .i64])
    (.error (.invalidBuffer "floating elements require import_float"))
  validateType B device
  validateImport B.int device value
  return wrap device (.int value) ((B.int.shape value).headD 0)

def upload (device : B.Device) (values : List T) :
    Except Fault (TensorBuffer B) := do
  validateType B device
  checkedLength T values.length
  return wrap device (fromValues B device values) values.length

def allocate (device : B.Device) (length : Nat) :
    Except Fault (TensorBuffer B) := do
  validateType B device
  checkedLength T length
  let value ← match dtype T with
    | .f32 => .ok (.float (B.float.empty [length] device .f32))
    | .f16 => .ok (.float (B.float.empty [length] device .f16))
    | .bf16 => .ok (.float (B.float.empty [length] device .bf16))
    | .i32 => .ok (.int (B.int.empty [length] device .i32))
    | .i64 => .ok (.int (B.int.empty [length] device .i64))
    | .u8 => .ok (.int (B.int.empty [length] device .u8))
    | .u32 => .ok (.int (B.int.empty [length] device .u32))
    | _ => .error (.unreachable "sealed collective element type")
  return wrap device value length

omit [TensorElement T] in
/-- Replace the stored value; it is lost if the update panics. -/
def TensorBuffer.update (buffer : TensorBuffer B)
    (update : Primitive B → Except Fault (Primitive B)) :
    TensorBuffer B × Except Fault Unit :=
  match buffer.value with
  | none => (buffer, .error (.error .poisoned))
  | some previous =>
      match update previous with
      | .ok value => ({ buffer with value := some value }, .ok ())
      | .error fault => ({ buffer with value := none }, .error fault)

omit [TensorElement T] in
/-- A refused check leaves the buffer as it is. -/
def TensorBuffer.afterChecks {α : Type} (buffer : TensorBuffer B)
    (checks : Except Fault α) (act : α → TensorBuffer B × Except Fault Unit) :
    TensorBuffer B × Except Fault Unit :=
  match checks with
  | .error fault => (buffer, .error fault)
  | .ok checked => act checked

def writeAt (device : B.Device) (buffer : TensorBuffer B) (offset : Nat)
    (values : List T) : TensorBuffer B × Except Fault Unit :=
  let checks := do
    validateBuffer device buffer
    checkedRange buffer.length offset values.length
  buffer.afterChecks checks fun range =>
    if ¬range.start < range.stop then (buffer, .ok ())
    else
      let incoming := fromValues B device values
      buffer.update fun current =>
        if range.start = 0 ∧ range.stop = buffer.length then .ok incoming
        else current.assign range incoming

def reductionKernel (B : Backend T) (device : B.Device) (operation : ReductionOperation) :
    Except Fault ReductionOperation := do
  validateType B device
  rejectIf (dtype T ∉ [DType.i32, .i64] ∧
      operation ∈ [ReductionOperation.bitAnd, .bitOr, .bitXor])
    (.error (.invalidOperation "bitwise reductions require I32 or I64 elements"))
  return operation

omit [TensorElement T] in
/-- Reduce into the target range of the destination. -/
def applyReduction (device : B.Device) (operation : ReductionOperation)
    (destinationLength : Nat) (target : Span)
    (current incoming : Primitive B) : Except Fault (Primitive B) :=
  if target.start = 0 ∧ target.stop = destinationLength then
    reduceValues device operation current incoming
  else do
    let reduced ← reduceValues device operation (current.slice target) incoming
    current.assign target reduced

/-- `aliased` tells that source and destination share their storage. -/
def reduce (device : B.Device) (operation : ReductionOperation)
    (launch : TensorReductionLaunch) (source destination : TensorBuffer B)
    (aliased : Bool) : TensorBuffer B × Except Fault Unit :=
  let checks := do
    validateBuffer device source
    validateBuffer device destination
    let _ ← reductionKernel B device operation
    let sourceRange ← checkedRange source.length 0 launch.length
    let targetRange ← checkedRange destination.length launch.destinationOffset launch.length
    return (sourceRange, targetRange)
  destination.afterChecks checks fun ranges =>
    if launch.length = 0 then (destination, .ok ())
    else if aliased then
      destination.update fun current =>
        applyReduction device operation destination.length ranges.2
          current (current.slice ranges.1)
    else
      match source.value with
      | none => (destination, .error (.error .poisoned))
      | some snapshot =>
          let incoming := if launch.length ≠ source.length then
            snapshot.slice ranges.1 else snapshot
          destination.update fun current =>
            applyReduction device operation destination.length ranges.2 current incoming

end Entry

/-- A call; buffers are named by their place among all buffers so far. -/
inductive Call {T : Type} (B : Backend T) where
  | importFloat (device : B.Device) (value : B.FloatTensorPrimitive)
  | importInt (device : B.Device) (value : B.IntTensorPrimitive)
  | upload (device : B.Device) (values : List T)
  | allocate (device : B.Device) (length : Nat)
  | writeAt (device : B.Device) (buffer offset : Nat) (values : List T)
  | reduce (device : B.Device) (operation : ReductionOperation)
      (launch : TensorReductionLaunch) (source destination : Nat)

/-- The buffers so far, and whether an unreachable arm has been reached. -/
structure Session {T : Type} (B : Backend T) where
  buffers : List (TensorBuffer B)
  unreachable : Bool

def Session.start (B : Backend T) : Session B := ⟨[], false⟩

def reachesUnreachable {α : Type} : Except Fault α → Bool
  | .error (.unreachable _) => true
  | _ => false

def Session.extend (session : Session B)
    (created : Except Fault (TensorBuffer B)) : Session B where
  buffers := session.buffers ++ created.toOption.toList
  unreachable := session.unreachable || reachesUnreachable created

def Session.store (session : Session B) (buffer : Nat)
    (changed : TensorBuffer B × Except Fault Unit) : Session B where
  buffers := session.buffers.set buffer changed.1
  unreachable := session.unreachable || reachesUnreachable changed.2

variable [TensorElement T]

/-- One call; only buffers that exist can be named. -/
def Session.step (session : Session B) : Call B → Option (Session B)
  | .importFloat device value => some (session.extend (TensorDevice.importFloat device value))
  | .importInt device value => some (session.extend (TensorDevice.importInt device value))
  | .upload device values => some (session.extend (TensorDevice.upload device values))
  | .allocate device length => some (session.extend (TensorDevice.allocate device length))
  | .writeAt device buffer offset values => do
      let target ← session.buffers[buffer]?
      return session.store buffer (TensorDevice.writeAt device target offset values)
  | .reduce device operation launch source destination => do
      let origin ← session.buffers[source]?
      let target ← session.buffers[destination]?
      return session.store destination
        (TensorDevice.reduce device operation launch origin target (source = destination))

end RuCCL.TensorDevice
