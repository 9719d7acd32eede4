import RuCCL.Tensor.TensorBuffer

/-!
# The kind of the stored primitive

Only imports bring in primitives whose kind the element type does not decide.
Floating tensors are turned away for the integer elements, except for the 32-bit
unsigned ones.
-/

namespace RuCCL.TensorDevice

open RuCCL.Library
open RuCCL.Rank (ReductionOperation)
open RuCCL.Tensor (DType SealedElement TensorDeviceError TensorElement)
open RuCCL.Tensor.TensorElement (dtype)

variable {T : Type} {B : Backend T}

/-- No unreachable arm is reached, and a result has the property. -/
def Yields {α : Type} (call : Except Fault α) (post : α → Prop) : Prop :=
  match call with
  | .ok value => post value
  | .error (.error _) => True
  | .error (.unreachable _) => False

theorem Yields.bind {α β : Type} {call : Except Fault α}
    {next : α → Except Fault β} {between : α → Prop} {post : β → Prop}
    (first : Yields call between)
    (later : ∀ value, between value → Yields (next value) post) :
    Yields (call >>= next) post := by
  match call, first with
  | .ok value, first => exact later value first
  | .error (.error _), _ => trivial

theorem Yields.rejectIf (condition : Prop) [Decidable condition] (error : TensorDeviceError) :
    Yields (rejectIf condition (Fault.error error)) fun _ => ¬condition := by
  unfold Library.rejectIf
  split
  case isTrue => trivial
  case isFalse passed => exact passed

theorem Yields.okOr {α : Type} (value : Option α) (error : TensorDeviceError) :
    Yields (okOr value (Fault.error error)) fun found =>
      value = some found := by
  cases value with
  | none => trivial
  | some found => rfl

theorem Yields.mono {α : Type} {call : Except Fault α} {post weaker : α → Prop}
    (holds : Yields call post) (weaken : ∀ value, post value → weaker value) :
    Yields call weaker := by
  match call, holds with
  | .ok value, holds => exact weaken value holds
  | .error (.error _), _ => trivial

/-- What is known of a result may use where it comes from. -/
theorem Yields.self {α : Type} {call : Except Fault α} {post : α → Prop}
    (holds : Yields call post) :
    Yields call fun value => call = .ok value ∧ post value := by
  match call, holds with
  | .ok value, holds => exact ⟨rfl, holds⟩
  | .error (.error _), _ => trivial

theorem Yields.reachesUnreachable {α : Type} {call : Except Fault α}
    {post : α → Prop} (holds : Yields call post) :
    reachesUnreachable call = false := by
  match call, holds with
  | .ok _, _ => rfl
  | .error (.error _), _ => rfl

theorem yields_checkedRange (total offset length : Nat) :
    Yields (checkedRange total offset length) fun _ => True :=
  (Yields.okOr _ _).bind fun _ _ =>
    (Yields.rejectIf _ _).bind fun _ _ => trivial

theorem yields_checkedLength (T : Type) [TensorElement T] (length : Nat) :
    Yields (checkedLength T length) fun _ => True :=
  (Yields.okOr _ _).bind fun _ _ =>
    (Yields.rejectIf _ _).mono fun _ _ => trivial

def Primitive.isInt : Primitive B → Bool
  | .float _ => false
  | .int _ => true

@[simp]
theorem Primitive.isInt_slice (primitive : Primitive B) (range : Span) :
    (primitive.slice range).isInt = primitive.isInt := by
  cases primitive <;> rfl

theorem Primitive.assign_same {primitive value : Primitive B} (range : Span)
    (same : primitive.isInt = value.isInt) :
    ∃ assigned, primitive.assign range value = .ok assigned ∧
      assigned.isInt = primitive.isInt := by
  cases primitive with
  | float tensor =>
      cases value with
      | float value => exact ⟨_, rfl, rfl⟩
      | int value => cases same
  | int tensor =>
      cases value with
      | float value => cases same
      | int value => exact ⟨_, rfl, rfl⟩

/-- Operations on bits are refused for floating tensors. -/
def Bitwise (operation : ReductionOperation) : Prop :=
  operation ∈ [ReductionOperation.bitAnd, .bitOr, .bitXor]

theorem reduceValues_same {device : B.Device} {operation : ReductionOperation}
    {destination source : Primitive B}
    (same : destination.isInt = source.isInt)
    (permitted : Bitwise operation → destination.isInt = true) :
    ∃ reduced, reduceValues device operation destination source = .ok reduced ∧
      reduced.isInt = destination.isInt := by
  cases destination with
  | float destination =>
      cases source with
      | float source =>
          cases operation with
          | sum | product | minimum | maximum => exact ⟨_, rfl, rfl⟩
          | bitAnd | bitOr | bitXor =>
              exact absurd (permitted (by simp [Bitwise])) Bool.false_ne_true
      | int source => cases same
  | int destination =>
      cases source with
      | float source => cases same
      | int source => cases operation <;> exact ⟨_, rfl, rfl⟩

theorem applyReduction_same {device : B.Device}
    {operation : ReductionOperation} {length : Nat} {target : Span}
    {current incoming : Primitive B} (same : current.isInt = incoming.isInt)
    (permitted : Bitwise operation → current.isInt = true) :
    ∃ reduced, applyReduction device operation length target current incoming = .ok reduced ∧
      reduced.isInt = current.isInt := by
  unfold applyReduction
  split
  case isTrue => exact reduceValues_same same permitted
  case isFalse =>
    have sliced := Primitive.isInt_slice current target
    obtain ⟨reduced, computed, kept⟩ := @reduceValues_same _ _ device _ _ _
      (sliced.trans same) fun bitwise => sliced.trans (permitted bitwise)
    rw [computed, ok_bind]
    exact Primitive.assign_same target (sliced.symm.trans kept.symm)

section Kind

variable [TensorElement T]

/-- The elements that are stored as integers. -/
def Integral (T : Type) [TensorElement T] : Prop := dtype T ∈ [DType.u8, .u32, .i32, .i64]

instance : Decidable (Integral T) := inferInstanceAs (Decidable (_ ∈ _))

/-- The stored primitive is an integer exactly for integral elements. -/
def Primitive.Typed (primitive : Primitive B) : Prop := primitive.isInt = true ↔ Integral T

theorem Primitive.Typed.same {primitive other : Primitive B}
    (typed : primitive.Typed) (otherTyped : other.Typed) :
    primitive.isInt = other.isInt :=
  Bool.eq_iff_iff.mpr (typed.trans otherTyped.symm)

theorem Primitive.Typed.of_isInt {primitive other : Primitive B}
    (typed : primitive.Typed) (same : other.isInt = primitive.isInt) :
    other.Typed := by
  rw [Primitive.Typed, same]
  exact typed

theorem Primitive.Typed.float (value : B.FloatTensorPrimitive)
    (floating : ¬Integral T) : (Primitive.float value : Primitive B).Typed :=
  ⟨fun absent => (by cases absent), fun integral => absurd integral floating⟩

theorem Primitive.Typed.int (value : B.IntTensorPrimitive)
    (integral : Integral T) : (Primitive.int value : Primitive B).Typed :=
  ⟨fun _ => integral, fun _ => rfl⟩

structure TensorBuffer.Typed (buffer : TensorBuffer B) : Prop where
  stored : ∃ value, buffer.value = some value ∧ value.Typed

theorem fromValues_typed (device : B.Device) (values : List T) :
    (fromValues B device values).Typed := by
  unfold fromValues
  by_cases integral : dtype T ∈ [DType.u8, .u32, .i32, .i64]
  · rw [if_pos integral]
    exact Primitive.Typed.int _ integral
  · rw [if_neg integral]
    exact Primitive.Typed.float _ integral

theorem wrap_typed {device : B.Device} {value : Primitive B} {length : Nat}
    (typed : value.Typed) : (wrap device value length).Typed :=
  ⟨value, rfl, typed⟩

theorem yields_validateType (device : B.Device) : Yields (validateType B device) fun _ => True :=
  (Yields.rejectIf _ _).mono fun _ _ => trivial

theorem yields_validateImport {Tensor : Type}
    (ops : TensorOps T B.Device B.Mask Tensor) (device : B.Device)
    (value : Tensor) :
    Yields (validateImport ops device value) fun _ => True :=
  (Yields.rejectIf _ _).bind fun _ _ =>
    (Yields.rejectIf _ _).bind fun _ _ =>
      (Yields.rejectIf _ _).bind fun _ _ => yields_checkedLength T _

omit [TensorElement T] in
theorem yields_validateBuffer (device : B.Device) (buffer : TensorBuffer B) :
    Yields (validateBuffer device buffer) fun _ => True :=
  (Yields.rejectIf _ _).mono fun _ _ => trivial

theorem importInt_typed (device : B.Device) (value : B.IntTensorPrimitive) :
    Yields (importInt device value) TensorBuffer.Typed := by
  apply (Yields.rejectIf _ _).bind
  intro _ integral
  apply (yields_validateType device).bind
  intro _ _
  apply (yields_validateImport B.int device value).bind
  intro _ _
  exact wrap_typed (Primitive.Typed.int value (not_not.mp integral))

theorem upload_typed (device : B.Device) (values : List T) :
    Yields (upload device values) (TensorBuffer.Typed (B := B)) := by
  apply (yields_validateType device).bind
  intro _ _
  apply (yields_checkedLength T values.length).bind
  intro _ _
  exact wrap_typed (fromValues_typed device values)

theorem allocate_typed (device : B.Device) (length : Nat) :
    Yields (allocate device length) (TensorBuffer.Typed (B := B)) := by
  apply (yields_validateType device).bind
  intro _ _
  apply (yields_checkedLength T length).bind
  intro _ _
  have integral : Integral T ↔ (TensorElement.element T).dtype ∈
      [DType.u8, .u32, .i32, .i64] := Iff.rfl
  unfold TensorElement.dtype
  cases element : TensorElement.element T with
  | f32 | f16 | bf16 =>
      rw [element] at integral
      apply wrap_typed
      apply Primitive.Typed.float
      rw [integral]
      decide
  | i32 | i64 | u8 | u32 =>
      rw [element] at integral
      apply wrap_typed
      apply Primitive.Typed.int
      rw [integral]
      decide

/-- The floating imports that are turned away, or whose element is not integral. -/
def SoundImport (device : B.Device) (value : B.FloatTensorPrimitive) : Prop :=
  TensorElement.element T = .u32 →
    ¬(validateType B device = .ok () ∧ validateImport B.float device value = .ok ())

/-- Among the integral elements only one gets past the first check. -/
theorem element_eq_u32 (passed : dtype T ∉ [DType.u8, .i32, .i64])
    (integral : Integral T) : TensorElement.element T = .u32 := by
  unfold Integral TensorElement.dtype at integral
  unfold TensorElement.dtype at passed
  cases element : TensorElement.element T with
  | u32 => rfl
  | f32 | f16 | bf16 =>
      rw [element] at integral
      exact absurd integral (by decide)
  | i32 | i64 | u8 =>
      rw [element] at passed
      exact absurd passed (by decide)

theorem importFloat_typed {device : B.Device} {value : B.FloatTensorPrimitive}
    (sound : SoundImport device value) :
    Yields (importFloat device value) TensorBuffer.Typed := by
  apply (Yields.rejectIf _ _).bind
  intro _ passed
  apply (yields_validateType device).self.bind
  rintro _ ⟨supported, -⟩
  apply (yields_validateImport B.float device value).self.bind
  rintro _ ⟨accepted, -⟩
  apply wrap_typed
  apply Primitive.Typed.float
  intro integral
  exact sound (element_eq_u32 passed integral) ⟨supported, accepted⟩

/-- An import that is not sound stores a floating tensor. -/
theorem importFloat_of_not_sound {device : B.Device}
    {value : B.FloatTensorPrimitive} (unsound : ¬SoundImport device value) :
    ∃ buffer : TensorBuffer B, importFloat device value = .ok buffer ∧ ¬buffer.Typed := by
  unfold SoundImport at unsound
  rw [Classical.not_imp, not_not] at unsound
  obtain ⟨element, supported, accepted⟩ := unsound
  have unsigned : dtype T = .u32 := congrArg SealedElement.dtype element
  have passed : dtype T ∉ [DType.u8, .i32, .i64] := by
    rw [unsigned]
    decide
  have created : importFloat device value =
      .ok (wrap device (.float value) ((B.float.shape value).headD 0)) := by
    rw [importFloat, rejectIf, if_neg passed, supported, accepted]
    rfl
  refine ⟨_, created, ?_⟩
  rintro ⟨stored, same, typed⟩
  have floating : stored = .float value := (Option.some.inj same).symm
  rw [floating] at typed
  have integral : Integral T := by
    rw [Integral, unsigned]
    decide
  exact absurd (typed.mpr integral) Bool.false_ne_true

/-- A call that changes a buffer keeps its kind and reaches no unreachable arm. -/
structure KeepsKind (changed : TensorBuffer B × Except Fault Unit) :
    Prop where
  typed : changed.1.Typed
  reachable : Yields changed.2 fun _ => True

theorem TensorBuffer.Typed.update {buffer : TensorBuffer B} (typed : buffer.Typed)
    {update : Primitive B → Except Fault (Primitive B)}
    (keeps : ∀ value, value.Typed → ∃ updated, update value = .ok updated ∧ updated.Typed) :
    KeepsKind (buffer.update update) := by
  obtain ⟨value, stored, kind⟩ := typed.stored
  obtain ⟨updated, result, kept⟩ := keeps value kind
  have changed : buffer.update update = ({ buffer with value := some updated }, .ok ()) := by
    rw [TensorBuffer.update, stored]
    simp only [result]
  rw [changed]
  exact ⟨⟨updated, rfl, kept⟩, trivial⟩

theorem KeepsKind.unchanged {buffer : TensorBuffer B} (typed : buffer.Typed)
    {outcome : Except Fault Unit} (orderly : Yields outcome fun _ => True) :
    KeepsKind (buffer, outcome) :=
  ⟨typed, orderly⟩

/-- A call that checks first and then acts on what it has checked. -/
theorem KeepsKind.checked {α : Type} {buffer : TensorBuffer B}
    (typed : buffer.Typed) {checks : Except Fault α} {post : α → Prop}
    (orderly : Yields checks post)
    {act : α → TensorBuffer B × Except Fault Unit}
    (later : ∀ value, post value → KeepsKind (act value)) :
    KeepsKind (buffer.afterChecks checks act) := by
  match checks, orderly with
  | .ok value, orderly => exact later value orderly
  | .error (.error _), _ => exact KeepsKind.unchanged typed trivial

theorem writeAt_keeps {device : B.Device} {buffer : TensorBuffer B}
    (typed : buffer.Typed) (offset : Nat) (values : List T) :
    KeepsKind (writeAt device buffer offset values) := by
  have orderly : Yields (do
      validateBuffer device buffer
      checkedRange buffer.length offset values.length) fun _ => True :=
    (yields_validateBuffer device buffer).bind fun _ _ =>
      yields_checkedRange _ _ _
  apply KeepsKind.checked typed orderly
  intro range _
  split
  case isTrue => exact KeepsKind.unchanged typed trivial
  case isFalse =>
    apply typed.update
    intro current kind
    have incoming := fromValues_typed device values
    split
    case isTrue => exact ⟨_, rfl, incoming⟩
    case isFalse =>
      obtain ⟨assigned, result, kept⟩ := Primitive.assign_same range (kind.same incoming)
      exact ⟨assigned, result, kind.of_isInt kept⟩

/-- The bitwise operations are left to elements that are stored as integers. -/
theorem yields_reductionKernel (device : B.Device) (operation : ReductionOperation) :
    Yields (reductionKernel B device operation) fun _ =>
      Bitwise operation → Integral T := by
  apply (yields_validateType device).bind
  intro _ _
  apply (Yields.rejectIf _ _).bind
  intro _ permitted bitwise
  have integers : dtype T ∈ [DType.i32, .i64] := by
    by_contra other
    exact permitted ⟨other, bitwise⟩
  unfold Integral
  simp only [List.mem_cons, List.not_mem_nil, or_false] at integers ⊢
  exact Or.inr (Or.inr integers)

theorem reduce_keeps {device : B.Device} {operation : ReductionOperation}
    {launch : TensorReductionLaunch} {source destination : TensorBuffer B}
    (sourceTyped : source.Typed) (typed : destination.Typed)
    (aliased : Bool) :
    KeepsKind (reduce device operation launch source destination aliased) := by
  have orderly : Yields (do
      validateBuffer device source
      validateBuffer device destination
      let _ ← reductionKernel B device operation
      let sourceRange ← checkedRange source.length 0 launch.length
      let targetRange ← checkedRange destination.length launch.destinationOffset launch.length
      return (sourceRange, targetRange))
      fun _ => Bitwise operation → Integral T :=
    (yields_validateBuffer device source).bind fun _ _ =>
      (yields_validateBuffer device destination).bind fun _ _ =>
        (yields_reductionKernel device operation).bind fun _ permitted =>
          (yields_checkedRange _ _ _).bind fun _ _ =>
            (yields_checkedRange _ _ _).bind fun _ _ => permitted
  apply KeepsKind.checked typed orderly
  rintro ⟨sourceRange, targetRange⟩ permitted
  have applied {current incoming : Primitive B} (kind : current.Typed)
      (incomingKind : incoming.Typed) :
      ∃ updated, applyReduction device operation destination.length
          targetRange current incoming = .ok updated ∧ updated.Typed := by
    obtain ⟨reduced, computed, kept⟩ :=
      @applyReduction_same _ _ device operation destination.length
        targetRange _ _ (kind.same incomingKind)
        fun bitwise => kind.mpr (permitted bitwise)
    exact ⟨reduced, computed, kind.of_isInt kept⟩
  split
  case isTrue => exact KeepsKind.unchanged typed trivial
  case isFalse =>
    split
    case isTrue =>
      apply typed.update
      intro current kind
      exact applied kind (kind.of_isInt (Primitive.isInt_slice _ _))
    case isFalse =>
      obtain ⟨snapshot, stored, snapshotKind⟩ := sourceTyped.stored
      rw [stored]
      apply typed.update
      intro current kind
      apply applied kind
      split
      case isTrue => exact snapshotKind.of_isInt (Primitive.isInt_slice _ _)
      case isFalse => exact snapshotKind

/-- Floating imports must be sound. -/
def Call.Sound : Call B → Prop
  | .importFloat device value => SoundImport device value
  | _ => True

/-- Every buffer stores a primitive of its kind, and no unreachable arm has been
reached. -/
structure Session.KindInvariant (session : Session B) : Prop where
  typed : ∀ buffer ∈ session.buffers, buffer.Typed
  reachable : session.unreachable = false

theorem Session.KindInvariant.extend {session : Session B} (holds : session.KindInvariant)
    {created : Except Fault (TensorBuffer B)}
    (yields : Yields created TensorBuffer.Typed) :
    (session.extend created).KindInvariant where
  typed := by
    intro buffer member
    rcases List.mem_append.mp member with before | new
    · exact holds.typed buffer before
    · match created, yields with
      | .ok value, yields =>
          have same : buffer = value := List.mem_singleton.mp new
          rw [same]
          exact yields
      | .error _, _ => cases new
  reachable := by
    rw [Session.extend, holds.reachable, yields.reachesUnreachable]
    rfl

theorem Session.KindInvariant.store {session : Session B}
    (holds : session.KindInvariant) (buffer : Nat)
    {changed : TensorBuffer B × Except Fault Unit}
    (keeps : KeepsKind changed) :
    (session.store buffer changed).KindInvariant where
  typed := by
    intro other member
    rcases List.mem_or_eq_of_mem_set member with before | same
    · exact holds.typed other before
    · rw [same]
      exact keeps.typed
  reachable := by
    rw [Session.store, holds.reachable, keeps.reachable.reachesUnreachable]
    rfl

theorem Session.KindInvariant.step {session successor : Session B}
    {call : Call B} (holds : session.KindInvariant) (sound : call.Sound)
    (stepped : session.step call = some successor) :
    successor.KindInvariant := by
  cases call with
  | importFloat device value =>
      cases stepped
      exact holds.extend (importFloat_typed sound)
  | importInt device value =>
      cases stepped
      exact holds.extend (importInt_typed device value)
  | upload device values =>
      cases stepped
      exact holds.extend (upload_typed device values)
  | allocate device length =>
      cases stepped
      exact holds.extend (allocate_typed device length)
  | writeAt device buffer offset values =>
      obtain ⟨target, located, stepped⟩ := Option.bind_eq_some_iff.mp stepped
      cases stepped
      exact holds.store buffer (writeAt_keeps
        (holds.typed target (List.mem_of_getElem? located)) offset values)
  | reduce device operation launch source destination =>
      obtain ⟨origin, found, stepped⟩ := Option.bind_eq_some_iff.mp stepped
      obtain ⟨target, located, stepped⟩ := Option.bind_eq_some_iff.mp stepped
      cases stepped
      exact holds.store destination (reduce_keeps
        (holds.typed origin (List.mem_of_getElem? found))
        (holds.typed target (List.mem_of_getElem? located)) _)

/-- An import that is not sound breaks the invariant at once. -/
theorem Session.not_kindInvariant_of_not_sound {session successor : Session B} {call : Call B}
    (unsound : ¬call.Sound)
    (stepped : session.step call = some successor) :
    ¬successor.KindInvariant := by
  cases call with
  | importFloat device value =>
      cases stepped
      obtain ⟨buffer, created, untyped⟩ := importFloat_of_not_sound unsound
      intro holds
      apply untyped
      apply holds.typed
      rw [Session.extend, created]
      exact List.mem_append_right _ (List.mem_singleton_self buffer)
  | importInt | upload | allocate | writeAt | reduce => exact absurd trivial unsound

/-- Runs without unsound imports keep every buffer in its kind and reach no
unreachable arm, and only an unsound import ends this. -/
theorem storage_kind_invariant (B : Backend T) (session : Session B)
    (reached : Reached Session.step (fun _ call => call.Sound) (Session.start B) session) :
    session.KindInvariant ∧ ∀ call successor, session.step call = some successor →
        (successor.KindInvariant ↔ call.Sound) := by
  have holds : session.KindInvariant := by
    apply reached.invariant ⟨fun _ member => (by cases member), rfl⟩
    intro before call after invariant sound stepped
    exact invariant.step sound stepped
  refine ⟨holds, fun call successor stepped => ⟨?_, ?_⟩⟩
  · intro kept
    by_contra unsound
    exact Session.not_kindInvariant_of_not_sound unsound stepped kept
  · intro sound
    exact holds.step sound stepped

end Kind

structure ReportedTensor where
  dtype : DType
  values : List UInt32

def reportedOps : TensorOps UInt32 Unit (List Bool) ReportedTensor where
  dtype := ReportedTensor.dtype
  shape := fun tensor => [tensor.values.length]
  device := fun _ => ()
  empty := fun shape _ dtype => ⟨dtype, List.replicate shape.sum 0⟩
  fromData := fun data _ => ⟨.u32, data.values⟩
  slice := fun tensor range =>
    ⟨tensor.dtype, (tensor.values.drop range.start).take range.length⟩
  sliceAssign := fun tensor range value =>
    ⟨tensor.dtype, tensor.values.take range.start ++ value.values ++
      tensor.values.drop range.stop⟩
  add := fun tensor other =>
    ⟨tensor.dtype, List.zipWith (· + ·) tensor.values other.values⟩
  mul := fun tensor other =>
    ⟨tensor.dtype, List.zipWith (· * ·) tensor.values other.values⟩
  lower := fun tensor other _ =>
    List.zipWith (fun first second => decide (first < second)) tensor.values other.values
  maskWhere := fun tensor mask other =>
    ⟨tensor.dtype, List.zipWith (fun chosen pair =>
      if chosen then pair.2 else pair.1) mask (tensor.values.zip other.values)⟩

def reportingBackend : Backend UInt32 where
  Device := Unit
  Mask := List Bool
  FloatTensorPrimitive := ReportedTensor
  IntTensorPrimitive := ReportedTensor
  sameDevice := inferInstance
  supportsDtype := fun _ _ => true
  boolDtype := fun _ => .u8
  float := reportedOps
  int := reportedOps
  bitwiseAnd := fun tensor other =>
    ⟨tensor.dtype, List.zipWith (· &&& ·) tensor.values other.values⟩
  bitwiseOr := fun tensor other =>
    ⟨tensor.dtype, List.zipWith (· ||| ·) tensor.values other.values⟩
  bitwiseXor := fun tensor other =>
    ⟨tensor.dtype, List.zipWith (· ^^^ ·) tensor.values other.values⟩

instance : TensorElement UInt32 := ⟨.u32⟩

def reportedValues : Primitive reportingBackend → List UInt32
  | .float value => value.values
  | .int value => value.values

/-- A part of a buffer is written, and another buffer is added to a part of it. -/
theorem storage_kind_invariant_reduced :
    ∃ session : Session reportingBackend,
      follow Session.step (fun _ _ => True) (.start reportingBackend)
        [.upload () [3, 5, 8], .upload () [1, 2], .writeAt () 0 1 [7],
          .reduce () .sum ⟨2, 1⟩ 1 0] = some session ∧
      session.buffers.map (fun buffer => buffer.value.map reportedValues) =
        [some [3, 8, 10], some [1, 2]] ∧
      session.KindInvariant := by
  let Sound (_ : Session reportingBackend) (call : Call reportingBackend) := call.Sound
  have step {session successor : Session reportingBackend}
      (reached : Reached Session.step Sound (.start _) session)
      (call : Call reportingBackend) (sound : call.Sound)
      (stepped : session.step call = some successor) :
      Reached Session.step Sound (.start _) successor :=
    reached.next sound stepped
  have uploaded := step .start (.upload () [3, 5, 8]) trivial rfl
  have both := step uploaded (.upload () [1, 2]) trivial rfl
  have written := step both (.writeAt () 0 1 [7]) trivial rfl
  have reduced := step written (.reduce () .sum ⟨2, 1⟩ 1 0) trivial rfl
  exact ⟨_, rfl, rfl, (storage_kind_invariant reportingBackend _ reduced).1⟩

/-- A floating tensor that reports unsigned integers is imported as one, and the next
partial write ends in the unreachable arm. -/
theorem import_float_u32_unreachable :
    (follow Session.step (fun _ _ => True) (Session.start reportingBackend)
        [.importFloat () ⟨.u32, [1, 2]⟩]).map
      (fun session => session.buffers.map fun buffer =>
        buffer.value.map Primitive.isInt) = some [some false] ∧
    (follow Session.step (fun _ _ => True) (Session.start reportingBackend)
        [.importFloat () ⟨.u32, [1, 2]⟩, .writeAt () 0 1 [7]]).map
      Session.unreachable = some true := by
  exact ⟨rfl, rfl⟩

end RuCCL.TensorDevice
