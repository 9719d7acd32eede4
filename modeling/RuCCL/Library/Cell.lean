import RuCCL.Library.Network
import RuCCL.Library.Slice

/-!
# Cells of a memory

A cell is a part of a memory that can be read and written.  Buffers in cells are
merged in spans; merges in separate spans or separate cells commute.
-/

namespace RuCCL.Library

section Cell

variable {σ α η : Type}

/-- A part of a memory. -/
structure Cell (σ α : Type) where
  read : σ → α
  write : α → σ → σ
  read_write : ∀ value memory, read (write value memory) = value
  write_read : ∀ memory, write (read memory) memory = memory
  write_write : ∀ value older memory, write value (write older memory) = write value memory

attribute [simp] Cell.read_write Cell.write_read Cell.write_write

namespace Cell

/-- The whole memory. -/
def whole (α : Type) : Cell α α where
  read := id
  write := fun value _ => value
  read_write := fun _ _ => rfl
  write_read := fun _ => rfl
  write_write := fun _ _ _ => rfl

/-- Two cells of which neither sees the other. -/
structure Independent (cell : Cell σ α) (other : Cell σ η) : Prop where
  unread : ∀ value memory, cell.read (other.write value memory) = cell.read memory
  unseen : ∀ value memory, other.read (cell.write value memory) = other.read memory
  commute : ∀ value written memory, cell.write value (other.write written memory) =
      other.write written (cell.write value memory)

end Cell

section Buffers

variable {T : Type} {length other : Nat}

/-- Values arrive in a buffer of the memory. -/
def Cell.merge (cell : Cell σ (Buffer T length))
    (combine : T → T → T) (offset : Nat) (values : List T) (memory : σ) :
    σ :=
  cell.write (mergeAt combine offset values (cell.read memory)) memory

@[simp]
theorem Cell.read_merge (cell : Cell σ (Buffer T length))
    (combine : T → T → T) (offset : Nat) (values : List T) (memory : σ) :
    cell.read (cell.merge combine offset values memory) =
      mergeAt combine offset values (cell.read memory) :=
  cell.read_write _ _

/-- Values that arrive one after the other. -/
theorem Cell.foldl_merge {ι : Type} (cell : Cell σ (Buffer T length))
    (combine : T → T → T) (offset : Nat) (values : ι → List T)
    (sources : List ι) (memory : σ) :
    sources.foldl (fun memory source =>
        cell.merge combine offset (values source) memory) memory =
      cell.write (sources.foldl (fun buffer source =>
        mergeAt combine offset (values source) buffer) (cell.read memory))
        memory := by
  induction sources generalizing memory with
  | nil => exact (cell.write_read memory).symm
  | cons source rest ih =>
      rw [List.foldl_cons, ih, List.foldl_cons, cell.read_merge, merge, cell.write_write]

theorem Cell.readAt_merge_of_apart (cell : Cell σ (Buffer T length))
    (combine : T → T → T) {span : Span} {offset : Nat} {values : List T}
    (apart : span.Apart ⟨offset, offset + values.length⟩) (memory : σ) :
    readAt span (cell.read (cell.merge combine offset values memory)) =
      readAt span (cell.read memory) := by
  rw [read_merge, readAt_mergeAt_of_apart combine _ apart]

theorem Cell.merge_comm_of_apart (cell : Cell σ (Buffer T length))
    (combine another : T → T → T) {offset place : Nat}
    {values arriving : List T}
    (apart : (⟨offset, offset + values.length⟩ : Span).Apart
      ⟨place, place + arriving.length⟩) (memory : σ) :
    cell.merge another place arriving (cell.merge combine offset values memory) =
      cell.merge combine offset values (cell.merge another place arriving memory) := by
  simp only [merge, read_write, write_write, mergeAt_comm_of_apart combine another _ apart]

variable {cell : Cell σ (Buffer T length)} {written : Cell σ (Buffer T other)}

theorem Cell.Independent.read_merge (independent : Independent cell written) (combine : T → T → T)
    (offset : Nat) (values : List T) (memory : σ) :
    cell.read (written.merge combine offset values memory) =
      cell.read memory :=
  independent.unread _ _

theorem Cell.Independent.merge_comm (independent : Independent cell written)
    (combine another : T → T → T) (offset place : Nat)
    (values arriving : List T) (memory : σ) :
    written.merge another place arriving (cell.merge combine offset values memory) =
      cell.merge combine offset values (written.merge another place arriving memory) := by
  simp only [merge, independent.unread, independent.unseen, independent.commute]

end Buffers

end Cell

end RuCCL.Library
