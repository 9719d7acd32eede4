import RuCCL.Library.Cell
import RuCCL.Library.Schedule

/-!
# Gates

Every participant begins with a message to the hub and waits for its answer before
it does anything else but compute.  Nobody gets through before the hub has answered
the messages of all.
-/

namespace RuCCL.Library

section Gate

variable {ρ β μ σ ε : Type}

/-- A thread that computes, posts a message and waits for the answer.  It may fail
before. -/
inductive Gated (request response : β) (posts : μ → Prop) :
    Thread β μ σ ε → Prop
  | asks {message : σ → Except ε μ} {accept : μ → σ → Except ε σ} {rest : Thread β μ σ ε}
      (posted : ∀ memory sent, message memory = .ok sent → posts sent) :
      Gated request response posts (.send request message :: .receive response accept :: rest)
  | computes {change : σ → Except ε σ} {rest : Thread β μ σ ε}
      (gated : Gated request response posts rest) :
      Gated request response posts (.compute change :: rest)
  | fails {failure : ε} {rest : Thread β μ σ ε} :
      Gated request response posts (.compute (fun _ => .error failure) :: rest)

/-- An instruction that knows only what a cell holds. -/
def Instruction.within {α : Type} (cell : Cell σ α) :
    Instruction β μ α ε → Instruction β μ σ ε
  | .send box message => .send box fun memory => message (cell.read memory)
  | .receive box accept => .receive box fun received memory => do
      let value ← accept received (cell.read memory)
      .ok (cell.write value memory)
  | .compute change => .compute fun memory => do
      let value ← change (cell.read memory)
      .ok (cell.write value memory)

def Program.within {α : Type} (cell : Cell σ α) (program : Program β μ α ε) : Program β μ σ ε :=
  program.map fun phase => phase.map fun thread =>
    thread.map (Instruction.within cell)

theorem Gated.within {α : Type} {request response : β} {posts : μ → Prop}
    {thread : Thread β μ α ε} (cell : Cell σ α)
    (gated : Gated request response posts thread) :
    Gated request response posts (thread.map (Instruction.within cell)) := by
  induction gated with
  | asks posted => exact .asks fun memory sent => posted (cell.read memory) sent
  | computes _ ih => exact .computes ih
  | fails => exact .fails

variable (request response : ρ → β) (posts : ρ → μ → Prop)

/-- The participant has not posted its message, or waits for the answer. -/
inductive Outside (rank : ρ) : List μ → Program β μ σ ε → Prop
  | before {thread : Thread β μ σ ε} {later : Program β μ σ ε}
      (gated : Gated (request rank) (response rank) (posts rank) thread) :
      Outside rank [] ([thread] :: later)
  | waits {accept : μ → σ → Except ε σ} {thread : Thread β μ σ ε}
      {later : Program β μ σ ε} {sent : μ} (posted : posts rank sent) :
      Outside rank [sent] ([.receive (response rank) accept :: thread] :: later)

/-- Everyone is outside and nothing is answered. -/
structure Shut (network : Network ρ β μ σ ε) : Prop where
  unanswered : ∀ rank, network.store.queues (response rank) = []
  outside : ∀ rank, Outside request response posts rank
    (network.store.queues (request rank)) (network.rest rank)

/-- The hub has an answer to messages that all participants have posted. -/
def Answered (hub : Hub β μ ε) (ranks : List ρ) : Prop :=
  ∃ messages answers, hub.answer messages = .ok answers ∧
    ∀ rank ∈ ranks, ∃ message ∈ messages, posts rank message

variable [DecidableEq ρ] [DecidableEq β] {hub : Hub β μ ε}
  {ranks : List ρ} {request response posts}
  {network successor : Network ρ β μ σ ε}

omit [DecidableEq ρ] [DecidableEq β] in
theorem Outside.posted {rank : ρ} {queue : List μ} {program : Program β μ σ ε}
    (outside : Outside request response posts rank queue program) {sent : μ}
    (head : queue.head? = some sent) : posts rank sent := by
  cases outside with
  | before => cases head
  | waits posted =>
      cases head
      exact posted

omit [DecidableEq ρ] [DecidableEq β] in
/-- A participant outside has a thread that is not done. -/
theorem Outside.unfinished {rank : ρ} {queue : List μ} {program : Program β μ σ ε}
    (outside : Outside request response posts rank queue program) :
    ∃ phase later, program = phase :: later ∧ phase.all List.isEmpty = false := by
  cases outside with
  | before gated => cases gated <;> exact ⟨_, _, rfl, rfl⟩
  | waits => exact ⟨_, _, rfl, rfl⟩

/-- What a participant does outside keeps it there. -/
theorem Shut.run (separate : ∀ rank other, request rank ≠ response other)
    (distinct : request.Injective)
    (shut : Shut request response posts network) {rank : ρ} {thread : Nat}
    (stepped : networkStep hub network (.run rank thread) = some (.ok successor)) :
    Shut request response posts successor := by
  obtain ⟨phase, later, instruction, rest, store, program, located,
    performed, rfl⟩ := run_eq.mp stepped
  have outside := shut.outside rank
  rw [program] at outside
  generalize queued : network.store.queues (request rank) = queue at outside
  -- What the others have posted and what is answered stays as it is.
  have settled (queue : List μ) (memory : ρ → σ)
      (own : Outside request response posts rank queue (phase.set thread rest :: later)) :
      Shut request response posts
        { rest := Function.update network.rest rank (phase.set thread rest :: later)
          store := ⟨memory, Function.update network.store.queues (request rank) queue⟩ } := by
    constructor
    · intro other
      dsimp only
      rw [Function.update_of_ne (separate rank other).symm]
      exact shut.unanswered other
    · intro other
      dsimp only
      by_cases same : other = rank
      · rw [same, Function.update_self, Function.update_self]
        exact own
      · rw [Function.update_of_ne same, Function.update_of_ne fun equal => same (distinct equal)]
        exact shut.outside other
  cases outside with
  | before gated =>
      cases thread with
      | succ => simp at located
      | zero =>
          cases gated with
          | asks posted =>
              cases located
              obtain ⟨sent, accepted, rfl⟩ := perform_send_eq.mp performed
              rw [queued]
              exact settled _ _ (.waits (posted _ _ accepted))
          | computes gated =>
              cases located
              obtain ⟨memory, _, rfl⟩ := perform_compute_eq.mp performed
              have kept := settled [] (Function.update network.store.memory
                rank memory) (.before gated)
              rwa [← queued, Function.update_eq_self] at kept
          | fails =>
              cases located
              obtain ⟨memory, accepted, _⟩ := perform_compute_eq.mp performed
              cases accepted
  | waits =>
      cases thread with
      | succ => simp at located
      | zero =>
          cases located
          obtain ⟨received, others, memory, answered, _⟩ := perform_receive_eq.mp performed
          rw [shut.unanswered] at answered
          cases answered

/-- The hub answers when all have posted, and nobody's thread is done before. -/
theorem Shut.step (separate : ∀ rank other, request rank ≠ response other)
    (distinct : request.Injective) (inputs : hub.inputs = ranks.map request)
    (shut : Shut request response posts network) {action : NetworkAction ρ}
    (stepped : networkStep hub network action = some (.ok successor)) :
    Shut request response posts successor ∨ Answered posts hub ranks := by
  cases action with
  | run rank thread => exact Or.inl (shut.run separate distinct stepped)
  | join rank =>
      obtain ⟨phase, later, program, finished, _⟩ := join_eq.mp stepped
      obtain ⟨_, _, same, unfinished⟩ := (shut.outside rank).unfinished
      rw [program] at same
      cases same
      rw [finished] at unfinished
      cases unfinished
  | route =>
      obtain ⟨store, routed, _⟩ := route_step_eq.mp stepped
      obtain ⟨messages, answers, heads, answered, _⟩ := route_eq.mp routed
      refine Or.inr ⟨messages, answers, answered, fun rank among => ?_⟩
      have input : request rank ∈ hub.inputs := inputs ▸ List.mem_map_of_mem among
      obtain ⟨index, located⟩ := List.mem_iff_getElem?.mp input
      have found := (getElem?_of_mapM hub.inputs heads).2 index _ located
      cases queue : network.store.queues (request rank) with
      | nil => exact absurd queue (ne_nil_of_heads heads input)
      | cons sent rest =>
          rw [queue, List.head?_cons] at found
          exact ⟨sent, List.mem_of_getElem? found,
            (shut.outside rank).posted (by rw [queue, List.head?_cons])⟩

/-- Nobody gets through a gate without an answer to all. -/
theorem Shut.answered (separate : ∀ rank other, request rank ≠ response other)
    (distinct : request.Injective) (inputs : hub.inputs = ranks.map request)
    {count : Nat} {final : Network ρ β μ σ ε}
    (shut : Shut request response posts network)
    (run : Run (networkStep hub) count network final) {rank : ρ}
    (finished : final.rest rank = []) : Answered posts hub ranks := by
  induction run with
  | none =>
      obtain ⟨_, _, same, _⟩ := (shut.outside rank).unfinished
      rw [finished] at same
      cases same
  | next stepped _ ih =>
      rcases shut.step separate distinct inputs stepped with
        still | answered
      · exact ih still finished
      · exact answered

end Gate

end RuCCL.Library
