import Mathlib.Algebra.BigOperators.Group.List.Basic
import RuCCL.Local.Strategies

/-!
# Tensors of exact elements

What the strategies rely on in a backend: its operations move, add, divide, cut and
join tensors entry by entry.  A dense tensor over any commutative monoid is such a
backend.
-/

namespace RuCCL.Local

open RuCCL.Library

/-- A coordinate for each dimension; those behind the last dimension do not
matter. -/
abbrev Index := Nat → Nat

def Inside (shape : List Nat) (index : Index) : Prop :=
  ∀ dimension size, shape[dimension]? = some size → index dimension < size

/-- The ranges are one for each dimension, and lie inside it. -/
def RangesFit (ranges : List (Nat × Nat)) (shape : List Nat) : Prop :=
  ranges.length = shape.length ∧ ∀ (dimension : Nat) (range : Nat × Nat) (size : Nat),
      ranges[dimension]? = some range → shape[dimension]? = some size →
        range.1 ≤ range.2 ∧ range.2 ≤ size

/-- Where an index of a slice is in the whole tensor. -/
def shifted (ranges : List (Nat × Nat)) (index : Index) : Index :=
  fun dimension => (ranges.getD dimension (0, 0)).1 + index dimension

section Laws

variable {Tensor Device Element : Type} (B : Backend Tensor Device)
  (content : Tensor → Index → Element)

/-- A tensor on a device, with a shape and with entries. -/
structure Holds (tensor : Tensor) (device : Device) (shape : List Nat)
    (entries : Index → Element) : Prop where
  located : B.floatDevice tensor = device
  shaped : B.shape tensor = shape
  filled : ∀ index, Inside shape index → content tensor index = entries index

/-- The extent of some tensors along an axis. -/
def lengthAlong (axis : Nat) (parts : List Tensor) : Nat :=
  (parts.map fun part => (B.shape part).getD axis 0).sum

/-- The operations compute entry by entry, without rounding. -/
structure Exact [AddCommMonoid Element] (divide : Element → Nat → Element) : Prop where
  toDevice : ∀ tensor device,
    Holds B content (B.floatToDevice tensor device) device (B.shape tensor) (content tensor)
  add : ∀ left right, B.shape left = B.shape right → B.floatDevice left = B.floatDevice right →
    Holds B content (B.floatAdd left right) (B.floatDevice left)
      (B.shape left) fun index => content left index + content right index
  divScalar : ∀ tensor count, 0 < count →
    Holds B content (B.floatDivScalar tensor count) (B.floatDevice tensor)
      (B.shape tensor) fun index => divide (content tensor index) count
  slice : ∀ tensor ranges, RangesFit ranges (B.shape tensor) →
    Holds B content (B.floatSlice tensor ranges) (B.floatDevice tensor)
      (ranges.map fun range => range.2 - range.1) fun index =>
        content tensor (shifted ranges index)
  sliceAssign : ∀ tensor values, B.shape values = B.shape tensor →
    B.floatDevice values = B.floatDevice tensor →
    Holds B content
      (B.floatSliceAssign tensor ((B.shape tensor).map fun size => (0, size)) values)
      (B.floatDevice tensor) (B.shape tensor) (content values)
  catPlaced : ∀ (parts : List Tensor) (axis : Nat) (shape : List Nat)
    (device : Device), parts ≠ [] →
    axis < shape.length →
    (∀ part ∈ parts, B.floatDevice part = device ∧ ∃ size, B.shape part = shape.set axis size) →
    B.floatDevice (B.floatCat parts axis) = device ∧ B.shape (B.floatCat parts axis) =
        shape.set axis (lengthAlong B axis parts)
  catEntries : ∀ (before : List Tensor) (part : Tensor)
    (after : List Tensor) (axis : Nat) (shape : List Nat)
    (device : Device), axis < shape.length →
    (∀ other ∈ before ++ part :: after, B.floatDevice other = device ∧
      ∃ size, B.shape other = shape.set axis size) →
    ∀ index, Inside (B.shape part) index → content (B.floatCat (before ++ part :: after) axis)
        (Function.update index axis (lengthAlong B axis before + index axis)) = content part index

end Laws

section Sums

variable {Tensor Device Element : Type} {B : Backend Tensor Device}
  {content : Tensor → Index → Element} [AddCommMonoid Element]
  {divide : Element → Nat → Element}

/-- The sum of some tensors at an index. -/
def total (content : Tensor → Index → Element) (tensors : List Tensor)
    (index : Index) : Element :=
  (tensors.map fun tensor => content tensor index).sum

theorem total_append (tensors others : List Tensor) (index : Index) :
    total content (tensors ++ others) index =
      total content tensors index + total content others index := by
  rw [total, List.map_append, List.sum_append]
  rfl

theorem total_cons (tensor : Tensor) (others : List Tensor) (index : Index) :
    total content (tensor :: others) index =
      content tensor index + total content others index := by
  rw [total, List.map_cons, List.sum_cons]
  rfl

theorem total_perm {tensors others : List Tensor}
    (permuted : tensors.Perm others) (index : Index) :
    total content tensors index = total content others index :=
  (permuted.map _).sum_eq

omit [AddCommMonoid Element] in
theorem Holds.congr {tensor : Tensor} {device : Device} {shape : List Nat}
    {entries others : Index → Element}
    (held : Holds B content tensor device shape entries)
    (same : ∀ index, Inside shape index → entries index = others index) :
    Holds B content tensor device shape others :=
  ⟨held.located, held.shaped, fun index inside =>
    (held.filled index inside).trans (same index inside)⟩

theorem Holds.moved (exact : Exact B content divide) {tensor : Tensor}
    {device : Device} {shape : List Nat} {entries : Index → Element}
    (held : Holds B content tensor device shape entries)
    (target : Device) :
    Holds B content (B.floatToDevice tensor target) target shape
      entries := by
  have moved := exact.toDevice tensor target
  rw [held.shaped] at moved
  exact moved.congr held.filled

theorem Holds.add (exact : Exact B content divide) {left right : Tensor}
    {device : Device} {shape : List Nat} {entries others : Index → Element}
    (first : Holds B content left device shape entries)
    (second : Holds B content right device shape others) :
    Holds B content (B.floatAdd left right) device shape
      fun index => entries index + others index := by
  have added := exact.add left right (first.shaped.trans second.shaped.symm)
    (first.located.trans second.located.symm)
  rw [first.located, first.shaped] at added
  refine added.congr fun index inside => ?_
  rw [first.filled index inside, second.filled index inside]

theorem Holds.divided (exact : Exact B content divide) {tensor : Tensor}
    {device : Device} {shape : List Nat} {entries : Index → Element}
    (held : Holds B content tensor device shape entries) {count : Nat}
    (positive : 0 < count) :
    Holds B content (B.floatDivScalar tensor count) device shape
      fun index => divide (entries index) count := by
  have divided := exact.divScalar tensor count positive
  rw [held.located, held.shaped] at divided
  refine divided.congr fun index inside => ?_
  rw [held.filled index inside]

/-- Replacing all of a tensor keeps where it is. -/
theorem Holds.replaced (exact : Exact B content divide)
    {tensor values : Tensor} {device : Device} {shape : List Nat}
    {entries others : Index → Element}
    (held : Holds B content tensor device shape entries)
    (given : Holds B content values device shape others) :
    Holds B content
      (B.floatSliceAssign tensor ((B.shape tensor).map fun size => (0, size)) values)
      device shape others := by
  have assigned := exact.sliceAssign tensor values (given.shaped.trans held.shaped.symm)
    (given.located.trans held.located.symm)
  have same : Holds B content
      (B.floatSliceAssign tensor ((B.shape tensor).map fun size => (0, size)) values)
      device shape (content values) := by
    rw [held.located] at assigned
    exact ⟨assigned.located, assigned.shaped.trans held.shaped,
      fun index inside => assigned.filled index (held.shaped.symm ▸ inside)⟩
  exact same.congr given.filled

/-- Adding tensors to one of them gives their sum, on its device. -/
theorem sumOnto_holds (exact : Exact B content divide) {shape : List Nat}
    (first : Tensor) (others : List Tensor)
    (same : ∀ tensor ∈ first :: others, B.shape tensor = shape) :
    Holds B content (sumOnto B first others) (B.floatDevice first) shape
      (total content (first :: others)) := by
  have each : ∀ tensor ∈ first :: others, Holds B content tensor (B.floatDevice tensor) shape
        (content tensor) := by
    intro tensor among
    exact ⟨rfl, same tensor among, fun _ _ => rfl⟩
  -- the tensors that have been added so far are a front part of the list
  have loop : ∀ (left : List Tensor) (sum : Tensor)
      (entries : Index → Element), (∀ tensor ∈ left, tensor ∈ others) →
      Holds B content sum (B.floatDevice first) shape entries →
      Holds B content
        (left.foldl (fun sum tensor => B.floatAdd sum
          (B.floatToDevice tensor (B.floatDevice first))) sum)
        (B.floatDevice first) shape
        (fun index => entries index + total content left index) := by
    intro left
    induction left with
    | nil =>
        intro sum entries _ held
        refine held.congr fun index _ => ?_
        rw [total, List.map_nil, List.sum_nil, add_zero]
    | cons tensor rest ih =>
        intro sum entries among held
        have next := held.add exact ((each tensor (List.mem_cons_of_mem _
          (among tensor List.mem_cons_self))).moved exact (B.floatDevice first))
        have later := ih _ _ (fun other member => among other (List.mem_cons_of_mem _ member))
          next
        refine later.congr fun index _ => ?_
        rw [total_cons, add_assoc]
  refine (loop others first (content first) (fun _ member => member)
    (each first List.mem_cons_self)).congr fun index _ => ?_
  rw [total_cons]

end Sums

section Dense

variable {Element : Type} [AddCommMonoid Element]

structure DenseTensor (Element : Type) where
  shape : List Nat
  device : Nat
  content : Index → Element

/-- The entries of joined tensors: those of the first part that reaches so far. -/
def joined (axis : Nat) : List (DenseTensor Element) → Index → Element
  | [], _ => 0
  | part :: rest, index =>
      if index axis < part.shape.getD axis 0 then part.content index
      else joined axis rest
        (Function.update index axis (index axis - part.shape.getD axis 0))

def denseBackend (divide : Element → Nat → Element) :
    Backend (DenseTensor Element) Nat where
  shape := DenseTensor.shape
  floatDevice := DenseTensor.device
  deviceId := id
  floatToDevice tensor device := { tensor with device := device }
  floatAdd left right :=
    { left with
      content := fun index => left.content index + right.content index }
  floatDivScalar tensor count :=
    { tensor with
      content := fun index => divide (tensor.content index) count }
  floatSlice tensor ranges :=
    { tensor with
      shape := ranges.map fun range => range.2 - range.1
      content := fun index => tensor.content (shifted ranges index) }
  floatSliceAssign tensor ranges values :=
    { tensor with
      content := fun index =>
        if ranges.zipIdx.all fun (range, dimension) =>
            range.1 ≤ index dimension ∧ index dimension < range.2 then
          values.content fun dimension =>
            index dimension - (ranges.getD dimension (0, 0)).1
        else tensor.content index }
  floatCat parts axis :=
    { shape := (parts.head?.elim [] DenseTensor.shape).set axis
        (parts.map fun part => part.shape.getD axis 0).sum
      device := parts.head?.elim 0 DenseTensor.device
      content := joined axis parts }

theorem joined_append (axis : Nat) (before : List (DenseTensor Element))
    (part : DenseTensor Element) (after : List (DenseTensor Element))
    (index : Index) (inside : index axis < part.shape.getD axis 0) :
    joined axis (before ++ part :: after)
        (Function.update index axis
          ((before.map fun other => other.shape.getD axis 0).sum +
            index axis)) = part.content index := by
  induction before with
  | nil =>
      rw [List.nil_append, joined, List.map_nil, List.sum_nil, zero_add,
        Function.update_eq_self, if_pos inside]
  | cons other rest ih =>
      rw [List.cons_append, joined, Function.update_self, List.map_cons,
        List.sum_cons, if_neg (by omega), Function.update_idem, add_assoc,
        Nat.add_sub_cancel_left]
      exact ih

theorem exact_denseBackend (divide : Element → Nat → Element) :
    Exact (denseBackend divide) DenseTensor.content divide where
  toDevice _ _ := ⟨rfl, rfl, fun _ _ => rfl⟩
  add _ _ _ _ := ⟨rfl, rfl, fun _ _ => rfl⟩
  divScalar _ _ _ := ⟨rfl, rfl, fun _ _ => rfl⟩
  slice _ _ _ := ⟨rfl, rfl, fun _ _ => rfl⟩
  sliceAssign tensor values _ _ := by
    refine ⟨rfl, rfl, fun index inside => ?_⟩
    have all : ((tensor.shape.map fun size => (0, size)).zipIdx.all fun (range, dimension) =>
          range.1 ≤ index dimension ∧ index dimension < range.2) =
        true := by
      rw [List.all_eq_true]
      rintro ⟨range, dimension⟩ among
      have found := List.mem_zipIdx_iff_getElem?.mp among
      rw [List.getElem?_map, Option.map_eq_some_iff] at found
      obtain ⟨size, located, rfl⟩ := found
      exact decide_eq_true ⟨Nat.zero_le _, inside dimension size located⟩
    have start : (fun dimension => index dimension -
        ((tensor.shape.map fun size => (0, size)).getD dimension (0, 0)).1) = index := by
      funext dimension
      rw [List.getD_eq_getElem?_getD, List.getElem?_map]
      cases tensor.shape[dimension]? with
      | none => rfl
      | some size => rfl
    refine (if_pos all).trans ?_
    exact congrArg values.content start
  catPlaced parts axis shape device present _ placed := by
    cases parts with
    | nil => exact absurd rfl present
    | cons part rest =>
        obtain ⟨located, size, shaped⟩ := placed part List.mem_cons_self
        refine ⟨located, ?_⟩
        change (DenseTensor.shape part).set axis _ = _
        have same : DenseTensor.shape part = shape.set axis size := shaped
        rw [same, List.set_set]
        rfl
  catEntries before part after axis shape device within placed index
      inside := by
    obtain ⟨_, size, shaped⟩ := placed part (List.mem_append_right _ List.mem_cons_self)
    have along : part.shape[axis]? = some size := by
      change part.shape = shape.set axis size at shaped
      rw [shaped, List.getElem?_set_self within]
    refine joined_append axis before part after index ?_
    rw [List.getD_eq_getElem?_getD, along]
    exact inside axis size along

end Dense

end RuCCL.Local
