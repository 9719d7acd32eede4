import Mathlib.Data.Fintype.Basic
import Mathlib.Data.Fintype.Pi

/-!
# Participants that meet at a hub

A dialogue ends with a value or asks something and goes on with the answer.  The
participants of a group meet: when all of them ask, the hub answers them
together.  A participant that asks while another one has already ended waits in
vain and is told so.
-/

namespace RuCCL.Library

/-- What one participant does. -/
inductive Dialogue (Request Response α : Type) where
  | done (value : α)
  | ask (request : Request) (next : Response → Dialogue Request Response α)

namespace Dialogue

variable {Request Response α β : Type}

def bind : Dialogue Request Response α →
    (α → Dialogue Request Response β) → Dialogue Request Response β
  | .done value, next => next value
  | .ask request answered, next => .ask request fun response => (answered response).bind next

/-- Go on with the value of a result, or end with its error. -/
def attempt {ε : Type} (result : Except ε α) (next : α → Dialogue Request Response (Except ε β)) :
    Dialogue Request Response (Except ε β) :=
  match result with
  | .ok value => next value
  | .error failure => .done (.error failure)

/-- The same dialogue in other words. -/
def translate {Other Heard : Type} (say : Request → Other) (hear : Heard → Response) :
    Dialogue Request Response α → Dialogue Other Heard α
  | .done value => .done value
  | .ask request next => .ask (say request) fun heard => (next (hear heard)).translate say hear

def value? : Dialogue Request Response α → Option α
  | .done value => some value
  | .ask _ _ => none

def request? : Dialogue Request Response α → Option Request
  | .done _ => none
  | .ask request _ => some request

/-- Go on with an answer, if there is a question. -/
def resume (response : Response) :
    Dialogue Request Response α → Dialogue Request Response α
  | .done value => .done value
  | .ask _ next => next response

end Dialogue

section Meetings

variable {ρ Request Response α β : Type} [Fintype ρ]

/-- All values of a function that has one everywhere. -/
def everywhere (values : ρ → Option α) : Option (ρ → α) :=
  if all : ∀ rank, (values rank).isSome then
    some fun rank => (values rank).get (all rank)
  else none

variable (hub : (ρ → Request) → ρ → Response) (missed : Response)

/-- What each participant hears when it asks. -/
def answers (dialogues : ρ → Dialogue Request Response α) : ρ → Response :=
  match everywhere fun rank => (dialogues rank).request? with
  | some requests => hub requests
  | none => fun _ => missed

/-- The requests of each meeting and the values at the end. -/
def execute : Nat → (ρ → Dialogue Request Response α) →
    Option (List (ρ → Option Request) × (ρ → α))
  | 0, _ => none
  | fuel + 1, dialogues =>
      match everywhere fun rank => (dialogues rank).value? with
      | some values => some ([], values)
      | none =>
          match execute fuel fun rank =>
            (dialogues rank).resume (answers hub missed dialogues rank) with
          | some (log, values) => some ((fun rank => (dialogues rank).request?) :: log, values)
          | none => none

variable {hub missed}

theorem everywhere_some (values : ρ → α) :
    everywhere (fun rank => some (values rank)) = some values := by
  have all : ∀ rank, (some (values rank)).isSome = true := fun _ => rfl
  rw [everywhere, dif_pos all]
  rfl

theorem everywhere_eq_none {values : ρ → Option α} (rank : ρ) (missing : values rank = none) :
    everywhere values = none := by
  rw [everywhere, dif_neg]
  intro all
  have present := all rank
  rw [missing] at present
  cases present

theorem execute_done (values : ρ → α) (fuel : Nat) :
    execute hub missed (fuel + 1)
      (fun rank => (.done (values rank) : Dialogue Request Response α)) =
      some ([], values) := by
  simp only [execute, Dialogue.value?, everywhere_some]

/-- All participants ask and are answered together. -/
theorem execute_ask [Nonempty ρ] {requests : ρ → Request}
    {next : ρ → Response → Dialogue Request Response α} {fuel : Nat}
    {log : List (ρ → Option Request)} {values : ρ → α}
    (executed : execute hub missed fuel
      (fun rank => next rank (hub requests rank)) = some (log, values)) :
    execute hub missed (fuel + 1) (fun rank => .ask (requests rank) (next rank)) =
      some ((fun rank => some (requests rank)) :: log, values) := by
  obtain ⟨first⟩ := ‹Nonempty ρ›
  have waiting : everywhere (fun rank =>
      (Dialogue.ask (requests rank) (next rank)).value?) = none :=
    everywhere_eq_none first rfl
  have heard : answers hub missed (fun rank =>
      Dialogue.ask (requests rank) (next rank)) = hub requests := by
    simp only [answers, Dialogue.request?, everywhere_some]
  simp only [execute, waiting, heard, Dialogue.resume, executed, Dialogue.request?]

/-- Some participants have ended, and the others are told that they wait in
vain. -/
theorem execute_missed {dialogues : ρ → Dialogue Request Response α}
    {ended waiting : ρ} {value : α} {request : Request}
    {next : Response → Dialogue Request Response α} {fuel : Nat}
    {log : List (ρ → Option Request)} {values : ρ → α}
    (left : dialogues ended = .done value)
    (asks : dialogues waiting = .ask request next)
    (executed : execute hub missed fuel
      (fun rank => (dialogues rank).resume missed) = some (log, values)) :
    execute hub missed (fuel + 1) dialogues =
      some ((fun rank => (dialogues rank).request?) :: log, values) := by
  have unfinished : everywhere (fun rank => (dialogues rank).value?) =
      none :=
    everywhere_eq_none waiting (by rw [asks]; rfl)
  have alone : everywhere (fun rank => (dialogues rank).request?) = none :=
    everywhere_eq_none ended (by rw [left]; rfl)
  have heard : answers hub missed dialogues = fun _ => missed := by
    simp only [answers, alone]
  simp only [execute, unfinished, heard, executed]

/-- A participant has ended, and the others end when they hear nothing. -/
theorem execute_deserted {dialogues : ρ → Dialogue Request Response α}
    {ended : ρ} {values : ρ → α}
    (left : dialogues ended = .done (values ended))
    (heard : ∀ rank, (dialogues rank).resume missed = .done (values rank)) :
    ∃ log, execute hub missed 2 dialogues = some (log, values) ∧ ∀ requests ∈ log,
        requests = fun rank => (dialogues rank).request? := by
  by_cases waits : ∃ waiting request next, dialogues waiting = .ask request next
  · obtain ⟨waiting, request, next, asks⟩ := waits
    refine ⟨[fun rank => (dialogues rank).request?], ?_, ?_⟩
    · refine execute_missed left asks ?_
      rw [funext heard]
      exact execute_done values 0
    · intro requests member
      exact List.mem_singleton.mp member
  · have all : dialogues = fun rank => .done (values rank) := by
      funext rank
      have silent := heard rank
      cases kind : dialogues rank with
      | done value =>
          rw [kind] at silent
          exact silent
      | ask request next => exact absurd ⟨rank, request, next, kind⟩ waits
    refine ⟨[], ?_, nofun⟩
    rw [all]
    exact execute_done values 1

variable (hub) in
/-- The participants ask together until they end together. -/
inductive Lockstep : (ρ → Dialogue Request Response α) → List (ρ → Request) → (ρ → α) → Prop
  | done (values : ρ → α) : Lockstep (fun rank => .done (values rank)) [] values
  | ask {requests : ρ → Request} {next : ρ → Response → Dialogue Request Response α}
      {log : List (ρ → Request)} {values : ρ → α} :
      Lockstep (fun rank => next rank (hub requests rank)) log values →
      Lockstep (fun rank => .ask (requests rank) (next rank)) (requests :: log) values

/-- Participants in lockstep end. -/
theorem Lockstep.executes [Nonempty ρ] {dialogues : ρ → Dialogue Request Response α}
    {log : List (ρ → Request)} {values : ρ → α}
    (lockstep : Lockstep hub dialogues log values) :
    ∃ fuel, execute hub missed fuel dialogues =
      some (log.map fun requests rank => some (requests rank), values) := by
  induction lockstep with
  | done values => exact ⟨1, execute_done values 0⟩
  | ask _ ih =>
      obtain ⟨fuel, executed⟩ := ih
      exact ⟨fuel + 1, execute_ask executed⟩

/-- A part in lockstep, and then any other part. -/
theorem Lockstep.execute_bind [Nonempty ρ] {dialogues : ρ → Dialogue Request Response α}
    {log : List (ρ → Request)} {values : ρ → α}
    {next : ρ → α → Dialogue Request Response β} {fuel : Nat}
    {later : List (ρ → Option Request)} {results : ρ → β}
    (lockstep : Lockstep hub dialogues log values)
    (executed : execute hub missed fuel
      (fun rank => next rank (values rank)) = some (later, results)) :
    ∃ fuel, execute hub missed fuel (fun rank => (dialogues rank).bind (next rank)) =
      some ((log.map fun requests rank => some (requests rank)) ++ later, results) := by
  induction lockstep with
  | done values => exact ⟨fuel, executed⟩
  | ask _ ih =>
      obtain ⟨more, continued⟩ := ih executed
      exact ⟨more + 1, execute_ask continued⟩

omit [Fintype ρ] in
/-- One part after the other. -/
theorem Lockstep.bind {dialogues : ρ → Dialogue Request Response α}
    {log later : List (ρ → Request)} {values : ρ → α}
    {next : ρ → α → Dialogue Request Response β} {results : ρ → β}
    (lockstep : Lockstep hub dialogues log values)
    (rest : Lockstep hub (fun rank => next rank (values rank)) later results) :
    Lockstep hub (fun rank => (dialogues rank).bind (next rank)) (log ++ later) results := by
  induction lockstep with
  | done values => exact rest
  | ask _ ih => exact .ask (ih rest)

omit [Fintype ρ] in
/-- A hub that answers the translated requests alike. -/
theorem Lockstep.translate {Other Heard : Type} {dialogues : ρ → Dialogue Request Response α}
    {log : List (ρ → Request)} {values : ρ → α}
    {say : Request → Other} {hear : Heard → Response}
    {outer : (ρ → Other) → ρ → Heard}
    (lockstep : Lockstep hub dialogues log values)
    (answersAlike : ∀ requests rank, hear (outer (fun member => say (requests member)) rank) =
        hub requests rank) :
    Lockstep outer (fun rank => (dialogues rank).translate say hear)
      (log.map fun requests rank => say (requests rank)) values := by
  induction lockstep with
  | done values => exact .done values
  | @ask requests next log values _ ih =>
      refine .ask ?_
      simp only [answersAlike]
      exact ih

/-- What executes with some fuel executes with more. -/
theorem execute_mono {dialogues : ρ → Dialogue Request Response α}
    {fuel more : Nat} {result : List (ρ → Option Request) × (ρ → α)}
    (executed : execute hub missed fuel dialogues = some result)
    (enough : fuel ≤ more) :
    execute hub missed more dialogues = some result := by
  induction fuel generalizing dialogues more result with
  | zero => cases executed
  | succ fuel ih =>
      obtain ⟨rest, rfl⟩ := Nat.exists_eq_add_of_le' enough
      rw [← Nat.add_assoc]
      rw [execute] at executed ⊢
      split at executed
      case h_1 => exact executed
      case h_2 =>
        split at executed
        case h_2 => cases executed
        case h_1 log values continued =>
          rw [ih continued (Nat.le_add_left fuel rest)]
          exact executed

end Meetings

end RuCCL.Library
