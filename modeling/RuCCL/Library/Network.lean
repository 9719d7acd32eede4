import RuCCL.Library.Confluence
import RuCCL.Library.Result
import Mathlib.Data.List.Basic
import Mathlib.Logic.Function.Basic

/-!
# Networks of fork-join programs

Participants exchange messages through boxes, each of them a first-in first-out
queue.  The program of a participant is a list of phases; a phase is a list of
threads that share the participant's memory and are joined before the next phase
begins.  A hub takes one message out of each of its input boxes once all of them
hold one, and puts its answers into its output boxes.

When every box has one sender and one receiver at a time and concurrent threads
stay away from each other's memory, the actions of the network commute.
-/

namespace RuCCL.Library

section Network

variable {ρ β μ σ ε : Type}

/-- One communication of a thread, or a computation on the memory it shares. -/
inductive Instruction (β μ σ ε : Type) where
  | send (box : β) (message : σ → Except ε μ)
  | receive (box : β) (accept : μ → σ → Except ε σ)
  | compute (change : σ → Except ε σ)

abbrev Thread (β μ σ ε : Type) := List (Instruction β μ σ ε)

abbrev Phase (β μ σ ε : Type) := List (Thread β μ σ ε)

abbrev Program (β μ σ ε : Type) := List (Phase β μ σ ε)

structure Hub (β μ ε : Type) where
  inputs : List β
  outputs : List β
  answer : List μ → Except ε (β → List μ)

/-- The memories of the participants and the contents of the boxes. -/
structure Store (ρ β μ σ : Type) where
  memory : ρ → σ
  queues : β → List μ

structure Network (ρ β μ σ ε : Type) where
  rest : ρ → Program β μ σ ε
  store : Store ρ β μ σ

inductive NetworkAction (ρ : Type) where
  | run (rank : ρ) (thread : Nat)
  | join (rank : ρ)
  | route
  deriving DecidableEq

variable [DecidableEq ρ] [DecidableEq β]

/-- What an instruction does to memory and queues. -/
def perform (store : Store ρ β μ σ) (rank : ρ) :
    Instruction β μ σ ε → Option (Except ε (Store ρ β μ σ))
  | .send box message =>
      some do
        let sent ← message (store.memory rank)
        .ok { store with
          queues := Function.update store.queues box (store.queues box ++ [sent]) }
  | .receive box accept =>
      match store.queues box with
      | [] => none
      | received :: rest =>
          some do
            let memory ← accept received (store.memory rank)
            .ok {
              queues := Function.update store.queues box rest
              memory := Function.update store.memory rank memory }
  | .compute change =>
      some do
        let memory ← change (store.memory rank)
        .ok { store with
          memory := Function.update store.memory rank memory }

/-- The boxes after the hub has taken its inputs and put its answers. -/
def routed (hub : Hub β μ ε) (queues : β → List μ) (answers : β → List μ) : β → List μ :=
  fun box =>
    (if box ∈ hub.inputs then (queues box).tail else queues box) ++
      if box ∈ hub.outputs then answers box else []

def route (hub : Hub β μ ε) (store : Store ρ β μ σ) : Option (Except ε (Store ρ β μ σ)) :=
  match hub.inputs.mapM fun box => (store.queues box).head? with
  | none => none
  | some messages =>
      some do
        let answers ← hub.answer messages
        .ok { store with queues := routed hub store.queues answers }

def networkStep (hub : Hub β μ ε) (network : Network ρ β μ σ ε) :
    NetworkAction ρ → Option (Except ε (Network ρ β μ σ ε))
  | .run rank thread =>
      match network.rest rank with
      | [] => none
      | phase :: later =>
          match phase[thread]? with
          | some (instruction :: rest) =>
              (perform network.store rank instruction).map fun result => do
                let store ← result
                .ok {
                  rest := Function.update network.rest rank (phase.set thread rest :: later)
                  store := store }
          | _ => none
  | .join rank =>
      match network.rest rank with
      | [] => none
      | phase :: later =>
          if phase.all List.isEmpty then
            some (.ok { network with
              rest := Function.update network.rest rank later })
          else none
  | .route =>
      (route hub network.store).map fun result => do
        let store ← result
        .ok { network with store := store }

/-- A message does not depend on what the accepting thread changes. -/
def Unseen {ν : Type} (message : σ → Except ε μ) (accept : ν → σ → Except ε σ) : Prop :=
  ∀ received before after, accept received before = .ok after → message after = message before

/-- Accepting one message does not get into the way of accepting another. -/
def Undisturbed {ν κ : Type} (first : ν → σ → Except ε σ) (second : κ → σ → Except ε σ) : Prop :=
  ∀ received other before after, first received before = .ok after →
    (∀ otherAfter, second other before = .ok otherAfter →
      ∃ final, second other after = .ok final ∧
        first received otherAfter = .ok final) ∧
    ∀ failure, second other before = .error failure → ∃ later, second other after = .error later

/-- Both orders of two changes of one memory lead to the same. -/
def Commute {ν κ : Type} (first : ν → σ → Except ε σ) (second : κ → σ → Except ε σ) : Prop :=
  Undisturbed first second ∧ Undisturbed second first

/-- A computation takes no message. -/
def computed (change : σ → Except ε σ) : Unit → σ → Except ε σ := fun _ => change

/-- Instructions that concurrent threads of one participant may hold. -/
def Apart : Instruction β μ σ ε → Instruction β μ σ ε → Prop
  | .send box _, .send other _ => box ≠ other
  | .send _ message, .receive _ accept => Unseen message accept
  | .send _ message, .compute change => Unseen message (computed change)
  | .receive _ accept, .send _ message => Unseen message accept
  | .receive box accept, .receive other otherAccept => box ≠ other ∧ Commute accept otherAccept
  | .receive _ accept, .compute change => Commute accept (computed change)
  | .compute change, .send _ message => Unseen message (computed change)
  | .compute change, .receive _ accept => Commute (computed change) accept
  | .compute change, .compute other => Commute (computed change) (computed other)

/-- A participant uses only its own ends of boxes and leaves the ends of the hub
alone. -/
def Owned (hub : Hub β μ ε) (sender receiver : β → ρ) (rank : ρ) :
    Instruction β μ σ ε → Prop
  | .send box _ => sender box = rank ∧ box ∉ hub.outputs
  | .receive box _ => receiver box = rank ∧ box ∉ hub.inputs
  | .compute _ => True

/-- Concurrent threads of a phase. -/
def ApartThreads (left right : Thread β μ σ ε) : Prop :=
  ∀ instruction ∈ left, ∀ other ∈ right, Apart instruction other

structure SeparatePhase (hub : Hub β μ ε) (sender receiver : β → ρ) (rank : ρ)
    (phase : Phase β μ σ ε) : Prop where
  apart : phase.Pairwise ApartThreads
  owned : ∀ thread ∈ phase, ∀ instruction ∈ thread, Owned hub sender receiver rank instruction

/-! ### Changes of separate parts

A change first checks what has arrived and then only updates the memory.  Two of them
commute when neither update is seen by the other check and the updates commute. -/

section Updates

variable {α ν κ η : Type}

/-- A change that checks what has arrived before it updates the memory. -/
def Updates (accept : ν → σ → Except ε σ) (check : ν → σ → Except ε α)
    (update : α → σ → σ) : Prop :=
  ∀ received memory, accept received memory =
      (check received memory).map fun arrived => update arrived memory

/-- A check does not see what an accepted update changes. -/
def Unaffected (check : ν → σ → Except ε α) (update : α → σ → σ)
    (otherCheck : κ → σ → Except ε η) : Prop :=
  ∀ received other arrived memory, check received memory = .ok arrived →
    otherCheck other (update arrived memory) = otherCheck other memory

theorem Updates.undisturbed {first : ν → σ → Except ε σ} {second : κ → σ → Except ε σ}
    {check : ν → σ → Except ε α} {otherCheck : κ → σ → Except ε η}
    {update : α → σ → σ} {otherUpdate : η → σ → σ}
    (updates : Updates first check update)
    (otherUpdates : Updates second otherCheck otherUpdate)
    (unaffected : Unaffected check update otherCheck)
    (otherUnaffected : Unaffected otherCheck otherUpdate check)
    (commute : ∀ received other arrived otherArrived memory, check received memory = .ok arrived →
      otherCheck other memory = .ok otherArrived →
      otherUpdate otherArrived (update arrived memory) =
        update arrived (otherUpdate otherArrived memory)) :
    Undisturbed first second := by
  intro received other before after accepted
  rw [updates] at accepted
  cases checked : check received before with
  | error failure =>
      rw [checked] at accepted
      cases accepted
  | ok arrived =>
      rw [checked] at accepted
      cases accepted
      have same := unaffected received other arrived before checked
      constructor
      · intro otherAfter otherAccepted
        rw [otherUpdates] at otherAccepted
        cases otherChecked : otherCheck other before with
        | error failure =>
            rw [otherChecked] at otherAccepted
            cases otherAccepted
        | ok otherArrived =>
            rw [otherChecked] at otherAccepted
            cases otherAccepted
            have back := otherUnaffected other received otherArrived before otherChecked
            refine ⟨otherUpdate otherArrived (update arrived before), ?_, ?_⟩
            · rw [otherUpdates, same, otherChecked]
              rfl
            · rw [updates, back, checked, commute received other arrived
                otherArrived before checked otherChecked]
              rfl
      · intro failure refused
        rw [otherUpdates] at refused ⊢
        rw [same]
        cases otherChecked : otherCheck other before with
        | error reason => exact ⟨reason, rfl⟩
        | ok otherArrived =>
            rw [otherChecked] at refused
            cases refused

theorem Updates.commute {first : ν → σ → Except ε σ} {second : κ → σ → Except ε σ}
    {check : ν → σ → Except ε α} {otherCheck : κ → σ → Except ε η}
    {update : α → σ → σ} {otherUpdate : η → σ → σ}
    (updates : Updates first check update)
    (otherUpdates : Updates second otherCheck otherUpdate)
    (unaffected : Unaffected check update otherCheck)
    (otherUnaffected : Unaffected otherCheck otherUpdate check)
    (commute : ∀ received other arrived otherArrived memory, check received memory = .ok arrived →
      otherCheck other memory = .ok otherArrived →
      otherUpdate otherArrived (update arrived memory) =
        update arrived (otherUpdate otherArrived memory)) :
    Commute first second := by
  refine ⟨updates.undisturbed otherUpdates unaffected otherUnaffected commute,
    otherUpdates.undisturbed updates otherUnaffected unaffected ?_⟩
  intro other received otherArrived arrived memory otherChecked checked
  exact (commute received other arrived otherArrived memory checked otherChecked).symm

theorem Updates.unseen {accept : ν → σ → Except ε σ} {check : ν → σ → Except ε α}
    {update : α → σ → σ} {message : σ → Except ε μ}
    (updates : Updates accept check update)
    (same : ∀ received arrived memory, check received memory = .ok arrived →
      message (update arrived memory) = message memory) :
    Unseen message accept := by
  intro received before after accepted
  rw [updates] at accepted
  cases checked : check received before with
  | error failure =>
      rw [checked] at accepted
      cases accepted
  | ok arrived =>
      rw [checked] at accepted
      cases accepted
      exact same received arrived before checked

end Updates

/-- Every phase that is left keeps its threads apart. -/
def Separate (hub : Hub β μ ε) (sender receiver : β → ρ) (network : Network ρ β μ σ ε) : Prop :=
  ∀ rank, ∀ phase ∈ network.rest rank, SeparatePhase hub sender receiver rank phase

omit [DecidableEq ρ] [DecidableEq β] in
/-- A single thread is apart from all others. -/
theorem SeparatePhase.single {hub : Hub β μ ε} {sender receiver : β → ρ} {rank : ρ}
    {thread : Thread β μ σ ε}
    (owned : ∀ instruction ∈ thread, Owned hub sender receiver rank instruction) :
    SeparatePhase hub sender receiver rank [thread] := by
  refine ⟨List.pairwise_singleton _ _, ?_⟩
  intro other member
  rw [List.mem_singleton.mp member]
  exact owned

theorem Commute.symm {ν κ : Type} {first : ν → σ → Except ε σ} {second : κ → σ → Except ε σ}
    (commute : Commute first second) : Commute second first :=
  And.symm commute

omit [DecidableEq ρ] [DecidableEq β] in
theorem Apart.symm {left right : Instruction β μ σ ε} (apart : Apart left right) :
    Apart right left := by
  cases left with
  | send box message =>
      cases right with
      | send other otherMessage => exact Ne.symm apart
      | receive other accept => exact apart
      | compute change => exact apart
  | receive box accept =>
      cases right with
      | send other message => exact apart
      | receive other otherAccept => exact ⟨Ne.symm apart.1, Commute.symm apart.2⟩
      | compute change => exact Commute.symm apart
  | compute change =>
      cases right with
      | send other message => exact apart
      | receive other accept => exact Commute.symm apart
      | compute otherChange => exact Commute.symm apart

/-- Two instructions that may be next at the same time. -/
structure Concurrent (hub : Hub β μ ε) (sender receiver : β → ρ) (rank other : ρ)
    (instruction otherInstruction : Instruction β μ σ ε) : Prop where
  owned : Owned hub sender receiver rank instruction
  otherOwned : Owned hub sender receiver other otherInstruction
  apart : rank = other → Apart instruction otherInstruction

section Store

variable {hub : Hub β μ ε} {sender receiver : β → ρ}
variable {rank other : ρ} {store : Store ρ β μ σ}

theorem perform_send_eq {box : β} {message : σ → Except ε μ} {after : Store ρ β μ σ} :
    perform store rank (.send box message) = some (.ok after) ↔
      ∃ sent, message (store.memory rank) = .ok sent ∧
        after = { store with
          queues := Function.update store.queues box (store.queues box ++ [sent]) } := by
  rw [perform, Option.some.injEq, bind_eq_ok_iff]
  constructor
  · intro ⟨sent, accepted, same⟩
    exact ⟨sent, accepted, (Except.ok.inj same).symm⟩
  · intro ⟨sent, accepted, same⟩
    exact ⟨sent, accepted, by rw [same]⟩

theorem perform_receive_eq {box : β} {accept : μ → σ → Except ε σ} {after : Store ρ β μ σ} :
    perform store rank (.receive box accept) = some (.ok after) ↔
      ∃ received rest memory, store.queues box = received :: rest ∧
        accept received (store.memory rank) = .ok memory ∧
        after = {
          queues := Function.update store.queues box rest
          memory := Function.update store.memory rank memory } := by
  rw [perform]
  cases pending : store.queues box with
  | nil => simp
  | cons received rest =>
      dsimp only
      rw [Option.some.injEq, bind_eq_ok_iff]
      constructor
      · intro ⟨memory, accepted, same⟩
        exact ⟨received, rest, memory, rfl, accepted, (Except.ok.inj same).symm⟩
      · intro ⟨first, tail, memory, same, accepted, result⟩
        cases same
        exact ⟨memory, accepted, by rw [result]⟩

theorem perform_compute_eq {change : σ → Except ε σ} {after : Store ρ β μ σ} :
    perform store rank (.compute change) = some (.ok after) ↔
      ∃ memory, change (store.memory rank) = .ok memory ∧
        after = { store with
          memory := Function.update store.memory rank memory } := by
  rw [perform, Option.some.injEq, bind_eq_ok_iff]
  constructor
  · intro ⟨memory, accepted, same⟩
    exact ⟨memory, accepted, (Except.ok.inj same).symm⟩
  · intro ⟨memory, accepted, same⟩
    exact ⟨memory, accepted, by rw [same]⟩

theorem perform_compute_fails {change : σ → Except ε σ} {failure : ε} :
    perform store rank (.compute change) = some (.error failure) ↔
      change (store.memory rank) = .error failure := by
  rw [perform, Option.some.injEq]
  cases change (store.memory rank) with
  | ok memory => simp
  | error reason => simp

theorem perform_send_fails {box : β} {message : σ → Except ε μ} {failure : ε} :
    perform store rank (.send box message) = some (.error failure) ↔
      message (store.memory rank) = .error failure := by
  rw [perform, Option.some.injEq]
  cases message (store.memory rank) with
  | ok sent => simp
  | error reason => simp

theorem perform_receive_fails {box : β} {accept : μ → σ → Except ε σ} {failure : ε} :
    perform store rank (.receive box accept) = some (.error failure) ↔
      ∃ received rest, store.queues box = received :: rest ∧
        accept received (store.memory rank) = .error failure := by
  rw [perform]
  cases store.queues box with
  | nil => simp
  | cons received rest =>
      dsimp only
      cases outcome : accept received (store.memory rank) with
      | ok memory => simp [outcome]
      | error reason => simp [outcome]

omit [DecidableEq ρ] [DecidableEq β] in
theorem Concurrent.symm {instruction otherInstruction : Instruction β μ σ ε}
    (concurrent : Concurrent hub sender receiver rank other instruction otherInstruction) :
    Concurrent hub sender receiver other rank otherInstruction instruction where
  owned := concurrent.otherOwned
  otherOwned := concurrent.owned
  apart := fun same => (concurrent.apart same.symm).symm

omit [DecidableEq ρ] [DecidableEq β] in
theorem Concurrent.send_ne {box otherBox : β} {message otherMessage : σ → Except ε μ}
    (concurrent : Concurrent hub sender receiver rank other
      (.send box message) (.send otherBox otherMessage)) :
    box ≠ otherBox := by
  rcases Classical.em (rank = other) with same | same
  · exact concurrent.apart same
  · intro equal
    apply same
    rw [← concurrent.owned.1, ← concurrent.otherOwned.1, equal]

omit [DecidableEq ρ] [DecidableEq β] in
theorem Concurrent.receive_ne {box otherBox : β} {accept otherAccept : μ → σ → Except ε σ}
    (concurrent : Concurrent hub sender receiver rank other
      (.receive box accept) (.receive otherBox otherAccept)) :
    box ≠ otherBox := by
  rcases Classical.em (rank = other) with same | same
  · exact (concurrent.apart same).1
  · intro equal
    apply same
    rw [← concurrent.owned.1, ← concurrent.otherOwned.1, equal]

omit [DecidableEq β] in
/-- A message is the same before and after another thread has changed the
memory. -/
theorem message_update_eq {ν : Type} {memories : ρ → σ} {message : σ → Except ε μ}
    {accept : ν → σ → Except ε σ} {received : ν} {memory : σ}
    (unseen : rank = other → Unseen message accept)
    (accepted : accept received (memories other) = .ok memory) :
    message (Function.update memories other memory rank) = message (memories rank) := by
  by_cases same : rank = other
  · subst same
    rw [Function.update_self]
    exact unseen rfl received _ _ accepted
  · rw [Function.update_of_ne same]

omit [DecidableEq β] in
/-- Two changes of memories, of one participant or of two. -/
theorem memory_diamond {ν κ : Type} {memories : ρ → σ} {first : ν → σ → Except ε σ}
    {second : κ → σ → Except ε σ} {received : ν} {otherReceived : κ}
    {memory otherMemory : σ}
    (commute : rank = other → Commute first second)
    (accepted : first received (memories rank) = .ok memory)
    (otherAccepted : second otherReceived (memories other) = .ok otherMemory) :
    ∃ late early, second otherReceived (Function.update memories rank memory other) = .ok late ∧
      first received (Function.update memories other otherMemory rank) = .ok early ∧
      Function.update (Function.update memories rank memory) other late =
        Function.update (Function.update memories other otherMemory) rank
          early := by
  by_cases same : rank = other
  · subst same
    obtain ⟨final, late, early⟩ :=
      ((commute rfl).1 received otherReceived _ _ accepted).1 _ otherAccepted
    refine ⟨final, final, ?_, ?_, ?_⟩
    · rw [Function.update_self]
      exact late
    · rw [Function.update_self]
      exact early
    · rw [Function.update_idem, Function.update_idem]
  · refine ⟨otherMemory, memory, ?_, ?_, ?_⟩
    · rw [Function.update_of_ne (Ne.symm same)]
      exact otherAccepted
    · rw [Function.update_of_ne same]
      exact accepted
    · rw [Function.update_comm same]

omit [DecidableEq β] in
/-- A change that fails does so after another one, too. -/
theorem memory_failing {ν κ : Type} {memories : ρ → σ} {first : ν → σ → Except ε σ}
    {second : κ → σ → Except ε σ} {received : ν} {otherReceived : κ}
    {memory : σ} {failure : ε}
    (commute : rank = other → Commute first second)
    (accepted : first received (memories rank) = .ok memory)
    (refused : second otherReceived (memories other) = .error failure) :
    ∃ later, second otherReceived (Function.update memories rank memory other) =
        .error later := by
  by_cases same : rank = other
  · subst same
    rw [Function.update_self]
    exact ((commute rfl).1 received otherReceived _ _ accepted).2 _ refused
  · rw [Function.update_of_ne (Ne.symm same)]
    exact ⟨failure, refused⟩

theorem send_send_diamond {box otherBox : β} {message otherMessage : σ → Except ε μ}
    {left right : Store ρ β μ σ} (different : box ≠ otherBox)
    (first : perform store rank (.send box message) = some (.ok left))
    (second : perform store other (.send otherBox otherMessage) = some (.ok right)) :
    ∃ final, perform left other (.send otherBox otherMessage) = some (.ok final) ∧
      perform right rank (.send box message) = some (.ok final) := by
  obtain ⟨sent, accepted, rfl⟩ := perform_send_eq.mp first
  obtain ⟨otherSent, otherAccepted, rfl⟩ := perform_send_eq.mp second
  refine ⟨_, perform_send_eq.mpr ⟨otherSent, otherAccepted, rfl⟩,
    perform_send_eq.mpr ⟨sent, accepted, ?_⟩⟩
  simp only [Function.update_of_ne different, Function.update_of_ne (Ne.symm different)]
  rw [Function.update_comm different]

/-- Appending to a queue and taking its first entry commute. -/
theorem send_receive_diamond {box otherBox : β} {message : σ → Except ε μ}
    {accept : μ → σ → Except ε σ} {left right : Store ρ β μ σ}
    (concurrent : Concurrent hub sender receiver rank other
      (.send box message) (.receive otherBox accept))
    (first : perform store rank (.send box message) = some (.ok left))
    (second : perform store other (.receive otherBox accept) = some (.ok right)) :
    ∃ final, perform left other (.receive otherBox accept) = some (.ok final) ∧
      perform right rank (.send box message) = some (.ok final) := by
  obtain ⟨sent, ready, rfl⟩ := perform_send_eq.mp first
  obtain ⟨received, rest, memory, pending, accepted, rfl⟩ := perform_receive_eq.mp second
  have unchanged := message_update_eq concurrent.apart accepted
  by_cases same : otherBox = box
  · subst same
    refine ⟨_, perform_receive_eq.mpr ⟨received, rest ++ [sent], memory, ?_,
      accepted, rfl⟩, perform_send_eq.mpr ⟨sent, unchanged.trans ready, ?_⟩⟩
    · simp [pending]
    · simp
  · refine ⟨_, perform_receive_eq.mpr ⟨received, rest, memory, ?_,
      accepted, rfl⟩, perform_send_eq.mpr ⟨sent, unchanged.trans ready, ?_⟩⟩
    · exact (Function.update_of_ne same ..).trans pending
    · simp only [Function.update_of_ne (Ne.symm same)]
      rw [Function.update_comm same]

theorem receive_receive_diamond {box otherBox : β} {accept otherAccept : μ → σ → Except ε σ}
    {left right : Store ρ β μ σ}
    (concurrent : Concurrent hub sender receiver rank other
      (.receive box accept) (.receive otherBox otherAccept))
    (first : perform store rank (.receive box accept) = some (.ok left))
    (second : perform store other (.receive otherBox otherAccept) = some (.ok right)) :
    ∃ final, perform left other (.receive otherBox otherAccept) = some (.ok final) ∧
      perform right rank (.receive box accept) = some (.ok final) := by
  have different := concurrent.receive_ne
  obtain ⟨received, rest, memory, pending, accepted, rfl⟩ := perform_receive_eq.mp first
  obtain ⟨otherReceived, otherRest, otherMemory, otherPending, otherAccepted,
    rfl⟩ := perform_receive_eq.mp second
  obtain ⟨late, early, isLate, isEarly, joined⟩ := memory_diamond
    (fun same => (concurrent.apart same).2) accepted otherAccepted
  refine ⟨_, perform_receive_eq.mpr ⟨otherReceived, otherRest, late, ?_,
    isLate, rfl⟩, perform_receive_eq.mpr ⟨received, rest, early, ?_, isEarly, ?_⟩⟩
  · exact (Function.update_of_ne (Ne.symm different) ..).trans otherPending
  · exact (Function.update_of_ne different ..).trans pending
  · dsimp only
    rw [Function.update_comm different, joined]

theorem send_compute_diamond {box : β} {message : σ → Except ε μ} {change : σ → Except ε σ}
    {left right : Store ρ β μ σ}
    (concurrent : Concurrent hub sender receiver rank other (.send box message) (.compute change))
    (first : perform store rank (.send box message) = some (.ok left))
    (second : perform store other (.compute change) = some (.ok right)) :
    ∃ final, perform left other (.compute change) = some (.ok final) ∧
      perform right rank (.send box message) = some (.ok final) := by
  obtain ⟨sent, ready, rfl⟩ := perform_send_eq.mp first
  obtain ⟨memory, accepted, rfl⟩ := perform_compute_eq.mp second
  have done : computed change () (store.memory other) = .ok memory := accepted
  have unchanged := message_update_eq concurrent.apart done
  exact ⟨_, perform_compute_eq.mpr ⟨memory, accepted, rfl⟩,
    perform_send_eq.mpr ⟨sent, unchanged.trans ready, rfl⟩⟩

theorem receive_compute_diamond {box : β} {accept : μ → σ → Except ε σ} {change : σ → Except ε σ}
    {left right : Store ρ β μ σ}
    (concurrent : Concurrent hub sender receiver rank other
      (.receive box accept) (.compute change))
    (first : perform store rank (.receive box accept) = some (.ok left))
    (second : perform store other (.compute change) = some (.ok right)) :
    ∃ final, perform left other (.compute change) = some (.ok final) ∧
      perform right rank (.receive box accept) = some (.ok final) := by
  obtain ⟨received, rest, memory, pending, accepted, rfl⟩ := perform_receive_eq.mp first
  obtain ⟨otherMemory, otherAccepted, rfl⟩ := perform_compute_eq.mp second
  have otherDone : computed change () (store.memory other) =
      .ok otherMemory := otherAccepted
  obtain ⟨late, early, isLate, isEarly, joined⟩ :=
    memory_diamond concurrent.apart accepted otherDone
  refine ⟨_, perform_compute_eq.mpr ⟨late, isLate, rfl⟩,
    perform_receive_eq.mpr ⟨received, rest, early, pending, isEarly, ?_⟩⟩
  dsimp only
  rw [joined]

theorem compute_compute_diamond {change otherChange : σ → Except ε σ} {left right : Store ρ β μ σ}
    (concurrent : Concurrent hub sender receiver rank other
      (.compute change) (.compute otherChange))
    (first : perform store rank (.compute change) = some (.ok left))
    (second : perform store other (.compute otherChange) = some (.ok right)) :
    ∃ final, perform left other (.compute otherChange) = some (.ok final) ∧
      perform right rank (.compute change) = some (.ok final) := by
  obtain ⟨memory, accepted, rfl⟩ := perform_compute_eq.mp first
  obtain ⟨otherMemory, otherAccepted, rfl⟩ := perform_compute_eq.mp second
  have done : computed change () (store.memory rank) = .ok memory := accepted
  have otherDone : computed otherChange () (store.memory other) =
      .ok otherMemory := otherAccepted
  obtain ⟨late, early, isLate, isEarly, joined⟩ := memory_diamond concurrent.apart done otherDone
  refine ⟨_, perform_compute_eq.mpr ⟨late, isLate, rfl⟩,
    perform_compute_eq.mpr ⟨early, isEarly, ?_⟩⟩
  dsimp only
  rw [joined]

theorem perform_diamond {instruction otherInstruction : Instruction β μ σ ε}
    {left right : Store ρ β μ σ}
    (concurrent : Concurrent hub sender receiver rank other instruction otherInstruction)
    (first : perform store rank instruction = some (.ok left))
    (second : perform store other otherInstruction = some (.ok right)) :
    ∃ final, perform left other otherInstruction = some (.ok final) ∧
      perform right rank instruction = some (.ok final) := by
  cases instruction with
  | send box message =>
      cases otherInstruction with
      | send otherBox otherMessage => exact send_send_diamond concurrent.send_ne first second
      | receive otherBox accept => exact send_receive_diamond concurrent first second
      | compute change => exact send_compute_diamond concurrent first second
  | receive box accept =>
      cases otherInstruction with
      | send otherBox message =>
          obtain ⟨final, late, early⟩ := send_receive_diamond concurrent.symm second first
          exact ⟨final, early, late⟩
      | receive otherBox otherAccept => exact receive_receive_diamond concurrent first second
      | compute change => exact receive_compute_diamond concurrent first second
  | compute change =>
      cases otherInstruction with
      | send otherBox message =>
          obtain ⟨final, late, early⟩ := send_compute_diamond concurrent.symm second first
          exact ⟨final, early, late⟩
      | receive otherBox accept =>
          obtain ⟨final, late, early⟩ := receive_compute_diamond concurrent.symm second first
          exact ⟨final, early, late⟩
      | compute otherChange => exact compute_compute_diamond concurrent first second

theorem send_failing {box : β} {message : σ → Except ε μ}
    {otherInstruction : Instruction β μ σ ε} {after : Store ρ β μ σ}
    {failure : ε}
    (first : perform store rank (.send box message) = some (.ok after))
    (second : perform store other otherInstruction = some (.error failure)) :
    ∃ later, perform after other otherInstruction = some (.error later) := by
  obtain ⟨sent, _, rfl⟩ := perform_send_eq.mp first
  cases otherInstruction with
  | send otherBox otherMessage =>
      have refused := perform_send_fails.mp second
      exact ⟨failure, perform_send_fails.mpr refused⟩
  | receive otherBox accept =>
      obtain ⟨received, rest, pending, refused⟩ := perform_receive_fails.mp second
      refine ⟨failure, perform_receive_fails.mpr ?_⟩
      by_cases same : otherBox = box
      · subst same
        exact ⟨received, rest ++ [sent], by simp [pending], refused⟩
      · refine ⟨received, rest, ?_, refused⟩
        exact (Function.update_of_ne same ..).trans pending
  | compute change =>
      have refused := perform_compute_fails.mp second
      exact ⟨failure, perform_compute_fails.mpr refused⟩

theorem receive_failing {box : β} {accept : μ → σ → Except ε σ}
    {otherInstruction : Instruction β μ σ ε} {after : Store ρ β μ σ}
    {failure : ε}
    (concurrent : Concurrent hub sender receiver rank other
      (.receive box accept) otherInstruction)
    (first : perform store rank (.receive box accept) = some (.ok after))
    (second : perform store other otherInstruction = some (.error failure)) :
    ∃ later, perform after other otherInstruction = some (.error later) := by
  obtain ⟨received, rest, memory, pending, accepted, rfl⟩ := perform_receive_eq.mp first
  cases otherInstruction with
  | send otherBox message =>
      refine ⟨failure, perform_send_fails.mpr ?_⟩
      dsimp only
      rw [message_update_eq concurrent.symm.apart accepted]
      exact perform_send_fails.mp second
  | receive otherBox otherAccept =>
      have different := concurrent.receive_ne
      obtain ⟨otherReceived, otherRest, otherPending, refused⟩ := perform_receive_fails.mp second
      obtain ⟨later, still⟩ := memory_failing
        (fun same => (concurrent.apart same).2) accepted refused
      refine ⟨later, perform_receive_fails.mpr ⟨otherReceived, otherRest, ?_, still⟩⟩
      exact (Function.update_of_ne (Ne.symm different) ..).trans otherPending
  | compute change =>
      have refused : computed change () (store.memory other) =
          .error failure := perform_compute_fails.mp second
      obtain ⟨later, still⟩ := memory_failing concurrent.apart accepted refused
      exact ⟨later, perform_compute_fails.mpr still⟩

theorem compute_failing {change : σ → Except ε σ} {otherInstruction : Instruction β μ σ ε}
    {after : Store ρ β μ σ} {failure : ε}
    (concurrent : Concurrent hub sender receiver rank other (.compute change) otherInstruction)
    (first : perform store rank (.compute change) = some (.ok after))
    (second : perform store other otherInstruction = some (.error failure)) :
    ∃ later, perform after other otherInstruction = some (.error later) := by
  obtain ⟨memory, accepted, rfl⟩ := perform_compute_eq.mp first
  have done : computed change () (store.memory rank) = .ok memory := accepted
  cases otherInstruction with
  | send otherBox message =>
      refine ⟨failure, perform_send_fails.mpr ?_⟩
      dsimp only
      rw [message_update_eq concurrent.symm.apart done]
      exact perform_send_fails.mp second
  | receive otherBox accept =>
      obtain ⟨received, rest, pending, refused⟩ := perform_receive_fails.mp second
      obtain ⟨later, still⟩ := memory_failing concurrent.apart done refused
      exact ⟨later, perform_receive_fails.mpr ⟨received, rest, pending, still⟩⟩
  | compute otherChange =>
      have refused : computed otherChange () (store.memory other) =
          .error failure := perform_compute_fails.mp second
      obtain ⟨later, still⟩ := memory_failing concurrent.apart done refused
      exact ⟨later, perform_compute_fails.mpr still⟩

theorem perform_failing {instruction otherInstruction : Instruction β μ σ ε}
    {after : Store ρ β μ σ} {failure : ε}
    (concurrent : Concurrent hub sender receiver rank other instruction otherInstruction)
    (first : perform store rank instruction = some (.ok after))
    (second : perform store other otherInstruction = some (.error failure)) :
    ∃ later, perform after other otherInstruction = some (.error later) := by
  cases instruction with
  | send box message => exact send_failing first second
  | receive box accept => exact receive_failing concurrent first second
  | compute change => exact compute_failing concurrent first second

/-! ## The hub -/

omit [DecidableEq ρ] in
theorem route_eq {after : Store ρ β μ σ} :
    route hub store = some (.ok after) ↔ ∃ messages answers,
        (hub.inputs.mapM fun box => (store.queues box).head?) = some messages ∧
        hub.answer messages = .ok answers ∧
        after = { store with
          queues := routed hub store.queues answers } := by
  rw [route]
  cases hub.inputs.mapM fun box => (store.queues box).head? with
  | none => simp
  | some messages =>
      dsimp only
      rw [Option.some.injEq, bind_eq_ok_iff]
      constructor
      · intro ⟨answers, answered, same⟩
        exact ⟨messages, answers, rfl, answered, (Except.ok.inj same).symm⟩
      · intro ⟨others, answers, same, answered, result⟩
        cases same
        exact ⟨answers, answered, by rw [result]⟩

omit [DecidableEq ρ] in
theorem route_fails {failure : ε} :
    route hub store = some (.error failure) ↔ ∃ messages,
        (hub.inputs.mapM fun box => (store.queues box).head?) = some messages ∧
        hub.answer messages = .error failure := by
  rw [route]
  cases hub.inputs.mapM fun box => (store.queues box).head? with
  | none => simp
  | some messages =>
      dsimp only
      cases outcome : hub.answer messages with
      | ok answers => simp [outcome]
      | error reason => simp [outcome]

/-- An instruction keeps the messages that the hub takes. -/
theorem heads_perform {instruction : Instruction β μ σ ε} {after : Store ρ β μ σ}
    {messages : List μ}
    (owned : Owned hub sender receiver rank instruction)
    (performed : perform store rank instruction = some (.ok after))
    (heads : (hub.inputs.mapM fun box => (store.queues box).head?) = some messages) :
    (hub.inputs.mapM fun box => (after.queues box).head?) =
      some messages := by
  apply mapM_of_finds _ heads
  intro box input message head
  cases instruction with
  | send target content =>
      obtain ⟨sent, _, rfl⟩ := perform_send_eq.mp performed
      dsimp only
      by_cases here : box = target
      · subst here
        rw [Function.update_self, List.head?_append, head]
        rfl
      · rw [Function.update_of_ne here]
        exact head
  | receive source accept =>
      obtain ⟨_, _, _, _, _, rfl⟩ := perform_receive_eq.mp performed
      have here : box ≠ source := by
        intro equal
        rw [equal] at input
        exact owned.2 input
      dsimp only
      rw [Function.update_of_ne here]
      exact head
  | compute change =>
      obtain ⟨_, _, rfl⟩ := perform_compute_eq.mp performed
      exact head

omit [DecidableEq ρ] in
/-- The hub does not touch a box that a participant writes and the hub does not,
but for a message it takes from the front. -/
theorem routed_append {queues answers : β → List μ} {box : β} {sent : μ}
    (notOutput : box ∉ hub.outputs)
    (taken : box ∈ hub.inputs → queues box ≠ []) :
    routed hub (Function.update queues box (queues box ++ [sent])) answers =
      Function.update (routed hub queues answers) box
        (routed hub queues answers box ++ [sent]) := by
  funext other
  by_cases here : other = box
  · subst here
    rw [Function.update_self]
    simp only [routed, Function.update_self, if_neg notOutput, List.append_nil]
    by_cases input : other ∈ hub.inputs
    · rw [if_pos input, if_pos input, List.tail_append_of_ne_nil (taken input)]
    · rw [if_neg input, if_neg input]
  · simp [routed, Function.update_of_ne here]

omit [DecidableEq ρ] in
theorem routed_rest {queues answers : β → List μ} {box : β} {received : μ} {rest : List μ}
    (notInput : box ∉ hub.inputs)
    (pending : queues box = received :: rest) :
    ∃ later, routed hub queues answers box = received :: later ∧
      routed hub (Function.update queues box rest) answers =
        Function.update (routed hub queues answers) box later := by
  refine ⟨rest ++ if box ∈ hub.outputs then answers box else [], ?_, ?_⟩
  · simp [routed, notInput, pending]
  · funext other
    by_cases here : other = box
    · subst here
      simp [routed, notInput]
    · simp [routed, Function.update_of_ne here]

omit [DecidableEq ρ] [DecidableEq β] in
theorem ne_nil_of_heads {queues : β → List μ} {messages : List μ} {box : β}
    (heads : (hub.inputs.mapM fun box => (queues box).head?) = some messages)
    (input : box ∈ hub.inputs) : queues box ≠ [] := by
  obtain ⟨index, located⟩ := List.mem_iff_getElem?.mp input
  obtain ⟨lengths, positions⟩ := getElem?_of_mapM hub.inputs heads
  have found := positions index box located
  intro empty
  rw [empty, List.head?_nil, List.getElem?_eq_none_iff, lengths] at found
  have inside := (List.getElem?_eq_some_iff.mp located).1
  omega

theorem perform_route_diamond {instruction : Instruction β μ σ ε} {left right : Store ρ β μ σ}
    (owned : Owned hub sender receiver rank instruction)
    (first : perform store rank instruction = some (.ok left))
    (second : route hub store = some (.ok right)) :
    ∃ final, route hub left = some (.ok final) ∧
      perform right rank instruction = some (.ok final) := by
  obtain ⟨messages, answers, heads, answered, rfl⟩ := route_eq.mp second
  refine ⟨_, route_eq.mpr ⟨messages, answers, heads_perform owned first heads, answered, rfl⟩, ?_⟩
  cases instruction with
  | send box message =>
      obtain ⟨sent, ready, rfl⟩ := perform_send_eq.mp first
      refine perform_send_eq.mpr ⟨sent, ready, ?_⟩
      dsimp only
      rw [routed_append owned.2 (ne_nil_of_heads heads)]
  | receive box accept =>
      obtain ⟨received, rest, memory, pending, accepted, rfl⟩ := perform_receive_eq.mp first
      obtain ⟨later, waiting, same⟩ :=
        @routed_rest _ _ _ _ hub _ answers _ _ _ owned.2 pending
      refine perform_receive_eq.mpr ⟨received, later, memory, waiting, accepted, ?_⟩
      dsimp only
      rw [same]
  | compute change =>
      obtain ⟨memory, accepted, rfl⟩ := perform_compute_eq.mp first
      exact perform_compute_eq.mpr ⟨memory, accepted, rfl⟩

theorem route_failing_after_perform {instruction : Instruction β μ σ ε} {after : Store ρ β μ σ}
    {failure : ε}
    (owned : Owned hub sender receiver rank instruction)
    (first : perform store rank instruction = some (.ok after))
    (second : route hub store = some (.error failure)) :
    route hub after = some (.error failure) := by
  obtain ⟨messages, heads, refused⟩ := route_fails.mp second
  exact route_fails.mpr ⟨messages, heads_perform owned first heads, refused⟩

theorem perform_failing_after_route {instruction : Instruction β μ σ ε} {after : Store ρ β μ σ}
    {failure : ε}
    (owned : Owned hub sender receiver rank instruction)
    (first : route hub store = some (.ok after))
    (second : perform store rank instruction = some (.error failure)) :
    perform after rank instruction = some (.error failure) := by
  obtain ⟨messages, answers, heads, answered, rfl⟩ := route_eq.mp first
  cases instruction with
  | send box message =>
      have refused := perform_send_fails.mp second
      exact perform_send_fails.mpr refused
  | receive box accept =>
      obtain ⟨received, rest, pending, refused⟩ := perform_receive_fails.mp second
      obtain ⟨later, waiting, _⟩ :=
        @routed_rest _ _ _ _ hub _ answers _ _ _ owned.2 pending
      exact perform_receive_fails.mpr ⟨received, later, waiting, refused⟩
  | compute change =>
      have refused := perform_compute_fails.mp second
      exact perform_compute_fails.mpr refused

end Store

section Step

variable {hub : Hub β μ ε} {sender receiver : β → ρ}
variable {network successor : Network ρ β μ σ ε}

theorem run_eq {rank : ρ} {thread : Nat} :
    networkStep hub network (.run rank thread) = some (.ok successor) ↔
      ∃ phase later instruction rest store, network.rest rank = phase :: later ∧
        phase[thread]? = some (instruction :: rest) ∧
        perform network.store rank instruction = some (.ok store) ∧
        successor = {
          rest := Function.update network.rest rank (phase.set thread rest :: later)
          store := store } := by
  rw [networkStep]
  constructor
  · intro stepped
    split at stepped
    case h_1 => cases stepped
    case h_2 phase later program =>
      split at stepped
      case h_1 instruction rest located =>
        obtain ⟨result, performed, same⟩ := Option.map_eq_some_iff.mp stepped
        obtain ⟨store, rfl, final⟩ := (bind_eq_ok_iff _ _ _).mp same
        exact ⟨phase, later, instruction, rest, store, program, located,
          performed, (Except.ok.inj final).symm⟩
      case h_2 => cases stepped
  · intro ⟨phase, later, instruction, rest, store, program, located, performed, same⟩
    simp only [program, located, performed, same]
    rfl

theorem run_fails {rank : ρ} {thread : Nat} {failure : ε} :
    networkStep hub network (.run rank thread) = some (.error failure) ↔
      ∃ phase later instruction rest, network.rest rank = phase :: later ∧
        phase[thread]? = some (instruction :: rest) ∧
        perform network.store rank instruction = some (.error failure) := by
  rw [networkStep]
  constructor
  · intro stepped
    split at stepped
    case h_1 => cases stepped
    case h_2 phase later program =>
      split at stepped
      case h_1 instruction rest located =>
        obtain ⟨result, performed, same⟩ := Option.map_eq_some_iff.mp stepped
        cases result with
        | ok store => cases same
        | error reason =>
            cases same
            exact ⟨phase, later, instruction, rest, program, located, performed⟩
      case h_2 => cases stepped
  · intro ⟨phase, later, instruction, rest, program, located, performed⟩
    simp only [program, located, performed]
    rfl

theorem join_eq {rank : ρ} :
    networkStep hub network (.join rank) = some (.ok successor) ↔
      ∃ phase later, network.rest rank = phase :: later ∧ phase.all List.isEmpty = true ∧
        successor = { network with
          rest := Function.update network.rest rank later } := by
  rw [networkStep]
  cases program : network.rest rank with
  | nil => simp
  | cons phase later =>
      dsimp only
      constructor
      · intro stepped
        split at stepped
        case isTrue finished =>
          exact ⟨phase, later, rfl, finished, (Except.ok.inj (Option.some.inj stepped)).symm⟩
        case isFalse => cases stepped
      · intro ⟨head, tail, same, finished, result⟩
        cases same
        rw [if_pos finished, result]

theorem join_ne_error {rank : ρ} {failure : ε} :
    networkStep hub network (.join rank) ≠ some (.error failure) := by
  rw [networkStep]
  split
  · intro impossible
    cases impossible
  · split
    · intro impossible
      cases impossible
    · intro impossible
      cases impossible

theorem route_step_eq :
    networkStep hub network .route = some (.ok successor) ↔
      ∃ store, route hub network.store = some (.ok store) ∧
        successor = { network with store := store } := by
  rw [networkStep]
  constructor
  · intro stepped
    obtain ⟨result, answered, same⟩ := Option.map_eq_some_iff.mp stepped
    obtain ⟨store, rfl, final⟩ := (bind_eq_ok_iff _ _ _).mp same
    exact ⟨store, answered, (Except.ok.inj final).symm⟩
  · intro ⟨store, answered, same⟩
    rw [answered, same]
    rfl

theorem route_step_fails {failure : ε} :
    networkStep hub network .route = some (.error failure) ↔
      route hub network.store = some (.error failure) := by
  rw [networkStep]
  constructor
  · intro stepped
    obtain ⟨result, answered, same⟩ := Option.map_eq_some_iff.mp stepped
    cases result with
    | ok store => cases same
    | error reason =>
        cases same
        exact answered
  · intro answered
    rw [answered]
    rfl

omit [DecidableEq ρ] [DecidableEq β] in
theorem SeparatePhase.instruction_owned {rank : ρ} {phase : Phase β μ σ ε} {thread : Nat}
    {instruction : Instruction β μ σ ε} {rest : Thread β μ σ ε}
    (separate : SeparatePhase hub sender receiver rank phase)
    (located : phase[thread]? = some (instruction :: rest)) :
    Owned hub sender receiver rank instruction :=
  separate.owned _ (List.mem_of_getElem? located) _ List.mem_cons_self

omit [DecidableEq ρ] [DecidableEq β] in
/-- The next instructions of two threads of a phase. -/
theorem SeparatePhase.next_apart {rank : ρ} {phase : Phase β μ σ ε} {thread other : Nat}
    {instruction otherInstruction : Instruction β μ σ ε}
    {rest otherRest : Thread β μ σ ε}
    (separate : SeparatePhase hub sender receiver rank phase)
    (different : thread ≠ other)
    (located : phase[thread]? = some (instruction :: rest))
    (otherLocated : phase[other]? = some (otherInstruction :: otherRest)) :
    Apart instruction otherInstruction := by
  obtain ⟨inside, found⟩ := List.getElem?_eq_some_iff.mp located
  obtain ⟨otherInside, otherFound⟩ := List.getElem?_eq_some_iff.mp otherLocated
  have pairs := List.pairwise_iff_getElem.mp separate.apart
  rcases Nat.lt_or_gt_of_ne different with before | after
  · have apart := pairs thread other inside otherInside before
    rw [found, otherFound] at apart
    exact apart _ List.mem_cons_self _ List.mem_cons_self
  · have apart := pairs other thread otherInside inside after
    rw [found, otherFound] at apart
    exact (apart _ List.mem_cons_self _ List.mem_cons_self).symm

omit [DecidableEq ρ] [DecidableEq β] in
theorem SeparatePhase.advance {rank : ρ} {phase : Phase β μ σ ε} {thread : Nat}
    {instruction : Instruction β μ σ ε} {rest : Thread β μ σ ε}
    (separate : SeparatePhase hub sender receiver rank phase)
    (located : phase[thread]? = some (instruction :: rest)) :
    SeparatePhase hub sender receiver rank (phase.set thread rest) := by
  obtain ⟨inside, found⟩ := List.getElem?_eq_some_iff.mp located
  -- Whatever thread is looked at, it was at least as long before.
  have subset : ∀ (index : Nat) (bound : index < phase.length)
      (after : index < (phase.set thread rest).length),
      (phase.set thread rest)[index] ⊆ phase[index] := by
    intro index bound after
    rw [List.getElem_set]
    split
    case isTrue same =>
      subst same
      rw [found]
      exact List.subset_cons_self instruction rest
    case isFalse => exact List.Subset.refl _
  constructor
  · rw [List.pairwise_iff_getElem]
    intro left right leftInside rightInside before
    rw [List.length_set] at leftInside rightInside
    have apart := List.pairwise_iff_getElem.mp separate.apart left right
      leftInside rightInside before
    intro item member other otherMember
    exact apart item (subset left leftInside _ member) other
      (subset right rightInside _ otherMember)
  · intro changed member item itemMember
    obtain ⟨index, bound, same⟩ := List.getElem_of_mem member
    have before : index < phase.length := by
      rw [List.length_set] at bound
      exact bound
    rw [← same] at itemMember
    exact separate.owned _ (List.getElem_mem before) item (subset index before bound itemMember)

theorem Separate.step {action : NetworkAction ρ} (separate : Separate hub sender receiver network)
    (stepped : networkStep hub network action = some (.ok successor)) :
    Separate hub sender receiver successor := by
  cases action with
  | run rank thread =>
      obtain ⟨phase, later, instruction, rest, store, program, located, _,
        rfl⟩ := run_eq.mp stepped
      intro other changed member
      by_cases same : other = rank
      · subst same
        dsimp only at member
        rw [Function.update_self] at member
        have before := separate other
        rw [program] at before
        rcases List.mem_cons.mp member with here | later
        · rw [here]
          exact (before phase List.mem_cons_self).advance located
        · exact before changed (List.mem_cons_of_mem phase later)
      · dsimp only at member
        rw [Function.update_of_ne same] at member
        exact separate other changed member
  | join rank =>
      obtain ⟨phase, later, program, _, rfl⟩ := join_eq.mp stepped
      intro other changed member
      by_cases same : other = rank
      · subst same
        dsimp only at member
        rw [Function.update_self] at member
        apply separate other changed
        rw [program]
        exact List.mem_cons_of_mem phase member
      · dsimp only at member
        rw [Function.update_of_ne same] at member
        exact separate other changed member
  | route =>
      obtain ⟨store, _, rfl⟩ := route_step_eq.mp stepped
      exact separate

omit [DecidableEq ρ] [DecidableEq β] in
/-- The next instructions of two different threads may run in any order. -/
theorem Separate.concurrent {rank other : ρ} {thread otherThread : Nat}
    {phase otherPhase : Phase β μ σ ε}
    {later otherLater : Program β μ σ ε}
    {instruction otherInstruction : Instruction β μ σ ε}
    {rest otherRest : Thread β μ σ ε}
    (separate : Separate hub sender receiver network)
    (different : NetworkAction.run rank thread ≠ .run other otherThread)
    (program : network.rest rank = phase :: later)
    (located : phase[thread]? = some (instruction :: rest))
    (otherProgram : network.rest other = otherPhase :: otherLater)
    (otherLocated :
      otherPhase[otherThread]? = some (otherInstruction :: otherRest)) :
    Concurrent hub sender receiver rank other instruction
      otherInstruction := by
  have here := separate rank phase (by rw [program]; exact List.mem_cons_self)
  have there := separate other otherPhase (by rw [otherProgram]; exact List.mem_cons_self)
  refine ⟨here.instruction_owned located, there.instruction_owned otherLocated, ?_⟩
  intro same
  subst same
  rw [program] at otherProgram
  cases otherProgram
  apply here.next_apart _ located otherLocated
  intro equal
  exact different (by rw [equal])

theorem run_run_diamond {rank other : ρ} {thread otherThread : Nat}
    {left right : Network ρ β μ σ ε}
    (separate : Separate hub sender receiver network)
    (different : NetworkAction.run rank thread ≠ .run other otherThread)
    (first : networkStep hub network (.run rank thread) = some (.ok left))
    (second : networkStep hub network (.run other otherThread) = some (.ok right)) :
    ∃ final, networkStep hub left (.run other otherThread) = some (.ok final) ∧
      networkStep hub right (.run rank thread) = some (.ok final) := by
  obtain ⟨phase, later, instruction, rest, store, program, located, performed,
    rfl⟩ := run_eq.mp first
  obtain ⟨otherPhase, otherLater, otherInstruction, otherRest, otherStore,
    otherProgram, otherLocated, otherPerformed, rfl⟩ := run_eq.mp second
  have concurrent := separate.concurrent different program located otherProgram otherLocated
  obtain ⟨final, late, early⟩ := perform_diamond concurrent performed otherPerformed
  by_cases same : rank = other
  · subst same
    rw [program] at otherProgram
    cases otherProgram
    have distinct : thread ≠ otherThread := by
      intro equal
      exact different (by rw [equal])
    refine ⟨_, run_eq.mpr ⟨phase.set thread rest, later, otherInstruction,
      otherRest, final, Function.update_self .., ?_, late, rfl⟩,
      run_eq.mpr ⟨phase.set otherThread otherRest, later, instruction,
        rest, final, Function.update_self .., ?_, early, ?_⟩⟩
    · rw [List.getElem?_set_ne distinct]
      exact otherLocated
    · rw [List.getElem?_set_ne (Ne.symm distinct)]
      exact located
    · dsimp only
      rw [Function.update_idem, Function.update_idem, List.set_comm _ _ distinct]
  · refine ⟨_, run_eq.mpr ⟨otherPhase, otherLater, otherInstruction, otherRest, final,
      (Function.update_of_ne (Ne.symm same) ..).trans otherProgram,
      otherLocated, late, rfl⟩,
      run_eq.mpr ⟨phase, later, instruction, rest, final,
        (Function.update_of_ne same ..).trans program, located, early, ?_⟩⟩
    dsimp only
    rw [Function.update_comm same]

omit [DecidableEq β] in
/-- A participant whose threads have all finished has no instruction left. -/
theorem ne_of_finished {phase : Phase β μ σ ε} {thread : Nat}
    {instruction : Instruction β μ σ ε} {rest : Thread β μ σ ε}
    (finished : phase.all List.isEmpty = true) :
    phase[thread]? ≠ some (instruction :: rest) := by
  intro located
  have empty := List.all_eq_true.mp finished _ (List.mem_of_getElem? located)
  cases empty

theorem run_join_diamond {rank other : ρ} {thread : Nat} {left right : Network ρ β μ σ ε}
    (first : networkStep hub network (.run rank thread) = some (.ok left))
    (second : networkStep hub network (.join other) = some (.ok right)) :
    ∃ final, networkStep hub left (.join other) = some (.ok final) ∧
      networkStep hub right (.run rank thread) = some (.ok final) := by
  obtain ⟨phase, later, instruction, rest, store, program, located, performed,
    rfl⟩ := run_eq.mp first
  obtain ⟨otherPhase, otherLater, otherProgram, finished, rfl⟩ := join_eq.mp second
  have same : rank ≠ other := by
    intro equal
    subst equal
    rw [program] at otherProgram
    cases otherProgram
    exact ne_of_finished finished located
  refine ⟨_, join_eq.mpr ⟨otherPhase, otherLater,
    (Function.update_of_ne (Ne.symm same) ..).trans otherProgram, finished,
    rfl⟩, run_eq.mpr ⟨phase, later, instruction, rest, store,
      (Function.update_of_ne same ..).trans program, located, performed,
      ?_⟩⟩
  dsimp only
  rw [Function.update_comm same]

theorem run_route_diamond {rank : ρ} {thread : Nat} {left right : Network ρ β μ σ ε}
    (separate : Separate hub sender receiver network)
    (first : networkStep hub network (.run rank thread) = some (.ok left))
    (second : networkStep hub network .route = some (.ok right)) :
    ∃ final, networkStep hub left .route = some (.ok final) ∧
      networkStep hub right (.run rank thread) = some (.ok final) := by
  obtain ⟨phase, later, instruction, rest, store, program, located, performed,
    rfl⟩ := run_eq.mp first
  obtain ⟨answered, routing, rfl⟩ := route_step_eq.mp second
  have owned := (separate rank phase
    (by rw [program]; exact List.mem_cons_self)).instruction_owned located
  obtain ⟨final, late, early⟩ := perform_route_diamond owned performed routing
  exact ⟨_, route_step_eq.mpr ⟨final, late, rfl⟩,
    run_eq.mpr ⟨phase, later, instruction, rest, final, program, located, early, rfl⟩⟩

theorem join_join_diamond {rank other : ρ} {left right : Network ρ β μ σ ε}
    (different : rank ≠ other)
    (first : networkStep hub network (.join rank) = some (.ok left))
    (second : networkStep hub network (.join other) = some (.ok right)) :
    ∃ final, networkStep hub left (.join other) = some (.ok final) ∧
      networkStep hub right (.join rank) = some (.ok final) := by
  obtain ⟨phase, later, program, finished, rfl⟩ := join_eq.mp first
  obtain ⟨otherPhase, otherLater, otherProgram, otherFinished, rfl⟩ := join_eq.mp second
  refine ⟨_, join_eq.mpr ⟨otherPhase, otherLater,
    (Function.update_of_ne (Ne.symm different) ..).trans otherProgram,
    otherFinished, rfl⟩, join_eq.mpr ⟨phase, later,
      (Function.update_of_ne different ..).trans program, finished, ?_⟩⟩
  dsimp only
  rw [Function.update_comm different]

theorem join_route_diamond {rank : ρ} {left right : Network ρ β μ σ ε}
    (first : networkStep hub network (.join rank) = some (.ok left))
    (second : networkStep hub network .route = some (.ok right)) :
    ∃ final, networkStep hub left .route = some (.ok final) ∧
      networkStep hub right (.join rank) = some (.ok final) := by
  obtain ⟨phase, later, program, finished, rfl⟩ := join_eq.mp first
  obtain ⟨answered, routing, rfl⟩ := route_step_eq.mp second
  exact ⟨_, route_step_eq.mpr ⟨answered, routing, rfl⟩,
    join_eq.mpr ⟨phase, later, program, finished, rfl⟩⟩

theorem network_diamond {first second : NetworkAction ρ} {left right : Network ρ β μ σ ε}
    (separate : Separate hub sender receiver network)
    (different : first ≠ second)
    (leftStepped : networkStep hub network first = some (.ok left))
    (rightStepped : networkStep hub network second = some (.ok right)) :
    ∃ final, networkStep hub left second = some (.ok final) ∧
      networkStep hub right first = some (.ok final) := by
  cases first with
  | run rank thread =>
      cases second with
      | run other otherThread => exact run_run_diamond separate different leftStepped rightStepped
      | join other => exact run_join_diamond leftStepped rightStepped
      | route => exact run_route_diamond separate leftStepped rightStepped
  | join rank =>
      cases second with
      | run other otherThread =>
          obtain ⟨final, late, early⟩ := run_join_diamond rightStepped leftStepped
          exact ⟨final, early, late⟩
      | join other =>
          apply join_join_diamond _ leftStepped rightStepped
          intro equal
          exact different (by rw [equal])
      | route => exact join_route_diamond leftStepped rightStepped
  | route =>
      cases second with
      | run other otherThread =>
          obtain ⟨final, late, early⟩ := run_route_diamond separate rightStepped leftStepped
          exact ⟨final, early, late⟩
      | join other =>
          obtain ⟨final, late, early⟩ := join_route_diamond rightStepped leftStepped
          exact ⟨final, early, late⟩
      | route => exact absurd rfl different

/-- A thread that fails does so whatever another participant, another thread or
the hub does first. -/
theorem run_failing {action : NetworkAction ρ} {rank : ρ} {thread : Nat} {failure : ε}
    (separate : Separate hub sender receiver network)
    (different : action ≠ .run rank thread)
    (stepped : networkStep hub network action = some (.ok successor))
    (failed : networkStep hub network (.run rank thread) = some (.error failure)) :
    ∃ later, networkStep hub successor (.run rank thread) = some (.error later) := by
  obtain ⟨phase, later, instruction, rest, program, located, refused⟩ := run_fails.mp failed
  have owned := (separate rank phase
    (by rw [program]; exact List.mem_cons_self)).instruction_owned located
  cases action with
  | run other otherThread =>
      obtain ⟨otherPhase, otherLater, otherInstruction, otherRest, store,
        otherProgram, otherLocated, performed, rfl⟩ := run_eq.mp stepped
      have concurrent := separate.concurrent different otherProgram otherLocated program located
      obtain ⟨reason, still⟩ := perform_failing concurrent performed refused
      by_cases same : rank = other
      · subst same
        rw [program] at otherProgram
        cases otherProgram
        have distinct : otherThread ≠ thread := by
          intro equal
          exact different (by rw [equal])
        refine ⟨reason, run_fails.mpr ⟨phase.set otherThread otherRest, later,
          instruction, rest, Function.update_self .., ?_, still⟩⟩
        rw [List.getElem?_set_ne distinct]
        exact located
      · exact ⟨reason, run_fails.mpr ⟨phase, later, instruction, rest,
          (Function.update_of_ne same ..).trans program, located, still⟩⟩
  | join other =>
      obtain ⟨otherPhase, otherLater, otherProgram, finished, rfl⟩ := join_eq.mp stepped
      have same : rank ≠ other := by
        intro equal
        subst equal
        rw [program] at otherProgram
        cases otherProgram
        exact ne_of_finished finished located
      exact ⟨failure, run_fails.mpr ⟨phase, later, instruction, rest,
        (Function.update_of_ne same ..).trans program, located, refused⟩⟩
  | route =>
      obtain ⟨store, routing, rfl⟩ := route_step_eq.mp stepped
      exact ⟨failure, run_fails.mpr ⟨phase, later, instruction, rest, program,
        located, perform_failing_after_route owned routing refused⟩⟩

theorem route_failing {action : NetworkAction ρ} {failure : ε}
    (separate : Separate hub sender receiver network)
    (different : action ≠ .route)
    (stepped : networkStep hub network action = some (.ok successor))
    (failed : networkStep hub network .route = some (.error failure)) :
    networkStep hub successor .route = some (.error failure) := by
  have refused := route_step_fails.mp failed
  cases action with
  | run rank thread =>
      obtain ⟨phase, later, instruction, rest, store, program, located,
        performed, rfl⟩ := run_eq.mp stepped
      have owned := (separate rank phase
        (by rw [program]; exact List.mem_cons_self)).instruction_owned located
      exact route_step_fails.mpr (route_failing_after_perform owned performed refused)
  | join rank =>
      obtain ⟨phase, later, _, _, rfl⟩ := join_eq.mp stepped
      exact route_step_fails.mpr refused
  | route => exact absurd rfl different

/-- The actions of a separate network commute. -/
theorem commuting_networkStep (hub : Hub β μ ε) (sender receiver : β → ρ) :
    Commuting (@networkStep ρ β μ σ ε _ _ hub) (Separate hub sender receiver) where
  kept := Separate.step
  diamond := network_diamond
  failing := by
    intro network successor first second failure separate different stepped failed
    cases second with
    | run rank thread => exact run_failing separate different stepped failed
    | join rank => exact absurd failed join_ne_error
    | route => exact ⟨failure, route_failing separate different stepped failed⟩

end Step

end Network

end RuCCL.Library
