import RuCCL.Library.Elementwise

/-!
# Cells of concurrent threads

Every thread keeps what it takes in a cell of its own.  Threads that do not read each
other's cells and use different boxes do not get into each other's way.
-/

namespace RuCCL.Library

section ThreadCells

variable {β μ σ ε α ι ν κ η : Type}

section Components

variable [DecidableEq ι] (cell : Cell σ (ι → α))

/-- What a memory holds for one index. -/
def Cell.component (index : ι) : Cell σ α where
  read := fun memory => cell.read memory index
  write := fun value memory =>
    cell.write (Function.update (cell.read memory) index value) memory
  read_write := by
    intro value memory
    simp
  write_read := by
    intro memory
    simp
  write_write := by
    intro value older memory
    simp

theorem Cell.independent_components {index other : ι} (different : index ≠ other) :
    Independent (cell.component index) (cell.component other) where
  unread := by
    intro value memory
    simp [component, different]
  unseen := by
    intro value memory
    simp [component, Ne.symm different]
  commute := by
    intro value written memory
    simp [component, Function.update_comm different]

end Components

/-- Something that is read from a memory, but not from the cell. -/
def Cell.Hidden (cell : Cell σ α) (message : σ → Except ε μ) : Prop :=
  ∀ value memory, message (cell.write value memory) = message memory

/-- A change that checks what has arrived and then changes only what a cell holds. -/
def Cell.Changes (cell : Cell σ α) (accept : ν → σ → Except ε σ)
    (check : ν → σ → Except ε η) (change : η → α → α) : Prop :=
  Updates accept check fun arrived memory =>
    cell.write (change arrived (cell.read memory)) memory

theorem Cell.Changes.commute {cell : Cell σ α} {other : Cell σ κ}
    {accept : ν → σ → Except ε σ} {otherAccept : μ → σ → Except ε σ}
    {ζ : Type} {check : ν → σ → Except ε η}
    {otherCheck : μ → σ → Except ε ζ}
    {change : η → α → α} {otherChange : ζ → κ → κ}
    (independent : Cell.Independent cell other)
    (changes : cell.Changes accept check change)
    (otherChanges : other.Changes otherAccept otherCheck otherChange)
    (hidden : ∀ received, other.Hidden (check received))
    (otherHidden : ∀ received, cell.Hidden (otherCheck received)) :
    Commute accept otherAccept := by
  apply Updates.commute changes otherChanges
  · intro received another arrived memory checked
    apply otherHidden
  · intro received another arrived memory checked
    apply hidden
  · intro received another arrived otherArrived memory checked otherChecked
    simp only [independent.unread, independent.unseen, independent.commute]

theorem Cell.Changes.unseen {cell : Cell σ α}
    {accept : ν → σ → Except ε σ} {check : ν → σ → Except ε η}
    {change : η → α → α} {message : σ → Except ε μ}
    (changes : cell.Changes accept check change)
    (hidden : cell.Hidden message) : Unseen message accept :=
  Updates.unseen changes fun _ _ _ _ => hidden _ _

variable (cells : ι → Cell σ α)

/-- An instruction of the thread that keeps what it takes in the cell of an index. -/
def Keeps (index : ι) (outboxes inboxes : β → Prop) :
    Instruction β μ σ ε → Prop
  | .send box message => outboxes box ∧ ∀ other, other ≠ index → (cells other).Hidden message
  | .receive box accept =>
      inboxes box ∧ ∃ (η : Type) (check : μ → σ → Except ε η)
        (change : η → α → α), (cells index).Changes accept check change ∧
        ∀ other, other ≠ index → ∀ received, (cells other).Hidden (check received)
  | .compute _ => False

theorem Keeps.apart {index other : ι} {outboxes inboxes otherOutboxes otherInboxes : β → Prop}
    {instruction concurrent : Instruction β μ σ ε}
    (independent : Cell.Independent (cells index) (cells other))
    (different : index ≠ other)
    (sent : ∀ box, outboxes box → ¬otherOutboxes box)
    (taken : ∀ box, inboxes box → ¬otherInboxes box)
    (keeps : Keeps cells index outboxes inboxes instruction)
    (otherKeeps :
      Keeps cells other otherOutboxes otherInboxes concurrent) :
    Apart instruction concurrent := by
  cases instruction with
  | send box message =>
      cases concurrent with
      | send otherBox otherMessage =>
          intro same
          exact sent box keeps.1 (same ▸ otherKeeps.1)
      | receive otherBox accept =>
          obtain ⟨_, _, _, changes, _⟩ := otherKeeps.2
          exact changes.unseen (keeps.2 other (Ne.symm different))
      | compute change => exact otherKeeps.elim
  | receive box accept =>
      obtain ⟨_, _, _, changes, hidden⟩ := keeps.2
      cases concurrent with
      | send otherBox message => exact changes.unseen (otherKeeps.2 index different)
      | receive otherBox otherAccept =>
          obtain ⟨_, _, _, otherChanges, otherHidden⟩ := otherKeeps.2
          constructor
          · intro same
            exact taken box keeps.1 (same ▸ otherKeeps.1)
          · exact changes.commute independent otherChanges (hidden other (Ne.symm different))
              (otherHidden index different)
      | compute change => exact otherKeeps.elim
  | compute change => exact keeps.elim

end ThreadCells

end RuCCL.Library
