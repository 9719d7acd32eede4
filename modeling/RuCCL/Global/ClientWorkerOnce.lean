import RuCCL.Global.ClientWorker

/-!
# Every request is completed at most once

A callback has one sender, which is in the queue, under an id, or used up.  As long
as ids do not come back, the call under an id is the one that was given it.
-/

namespace RuCCL.Global

open RuCCL.Library

variable {Address : Type}

/-- The senders of callbacks: each is in one place, and is gone once it has been
used. -/
structure Ownership (calls : Nat → CallPhase Address)
    (callbacks : Nat → Option (RemoteResponse Address)) (queue : List Nat)
    (pending : Table RequestId Nat) (assigned : List (Nat × RequestId))
    (answered : List Nat) (deliveries : List (Delivery Address)) :
    Prop where
  distinct : (queue ++ values pending).Nodup
  undelivered : ∀ call ∈ queue ++ values pending, call ∉ deliveries.map Delivery.call
  sent : ∀ call, (calls call).IsUnsent → call ∉ queue ∧
    call ∉ assigned.map Prod.fst ∧ call ∉ deliveries.map Delivery.call
  untaken : ∀ call ∈ queue, call ∉ assigned.map Prod.fst
  deliveredOnce : (deliveries.map Delivery.call).Nodup
  filled : ∀ call content, callbacks call = some content →
    ∃ delivery ∈ deliveries, delivery.call = call ∧ delivery.content = content
  taken : ∀ id call, pending.lookup id = some call → (call, id) ∈ assigned ∧ call ∉ answered
  answeredTaken : ∀ call ∈ answered, call ∈ assigned.map Prod.fst
  idsOnce : (assigned.map Prod.snd).Nodup
  own : ∀ delivery ∈ deliveries, ∀ answers id, delivery.origin = .response answers id →
      answers = some delivery.call ∧ (delivery.call, id) ∈ assigned

namespace Ownership

variable {calls : Nat → CallPhase Address}
  {callbacks : Nat → Option (RemoteResponse Address)} {queue : List Nat}
  {pending : Table RequestId Nat} {assigned : List (Nat × RequestId)}
  {answered : List Nat} {deliveries : List (Delivery Address)}

theorem start : Ownership (fun _ => (.idle : CallPhase Address))
    (fun _ => none) [] ∅ [] [] [] where
  distinct := List.nodup_nil
  undelivered := fun _ member => (by cases member)
  sent := fun _ _ => ⟨List.not_mem_nil, List.not_mem_nil, List.not_mem_nil⟩
  untaken := fun _ member => (by cases member)
  deliveredOnce := List.nodup_nil
  filled := fun _ _ present => (by cases present)
  taken := fun _ _ present => (by cases present)
  answeredTaken := fun _ member => (by cases member)
  idsOnce := List.nodup_nil
  own := fun _ member => (by cases member)

/-- Two calls were not given the same id. -/
theorem call_eq
    (owns : Ownership calls callbacks queue pending assigned answered
      deliveries) {call other : Nat} {id : RequestId}
    (here : (call, id) ∈ assigned) (there : (other, id) ∈ assigned) :
    call = other :=
  congrArg Prod.fst (List.inj_on_of_nodup_map owns.idsOnce here there rfl)

/-- A call moves on. -/
theorem move
    (owns : Ownership calls callbacks queue pending assigned answered
      deliveries) {call : Nat} {phase : CallPhase Address}
    (unsent : phase.IsUnsent → (calls call).IsUnsent) :
    Ownership (Function.update calls call phase) callbacks queue pending
      assigned answered deliveries :=
  { owns with
    sent := by
      intro other early
      by_cases same : other = call
      · rw [same] at early ⊢
        rw [Function.update_self] at early
        exact owns.sent call (unsent early)
      · rw [Function.update_of_ne same] at early
        exact owns.sent other early }

/-- The request of a call gets into the queue. -/
theorem enqueue
    (owns : Ownership calls callbacks queue pending assigned answered
      deliveries) {call : Nat} (unsent : (calls call).IsUnsent) :
    Ownership (Function.update calls call .waiting) callbacks
      (queue ++ [call]) pending assigned answered deliveries := by
  obtain ⟨unqueued, unassigned, undelivered⟩ := owns.sent call unsent
  have unheld : call ∉ values pending := by
    intro held
    obtain ⟨id, found⟩ := mem_values_iff.mp held
    exact unassigned (List.mem_map.mpr ⟨_, (owns.taken id call found).1, rfl⟩)
  have order : (queue ++ [call] ++ values pending).Perm (call :: (queue ++ values pending)) := by
    rw [List.append_assoc]
    exact List.perm_middle
  refine { owns with
    distinct := ?distinct
    undelivered := ?undelivered
    sent := ?sent
    untaken := ?untaken }
  case distinct =>
    rw [order.nodup_iff, List.nodup_cons, List.mem_append]
    exact ⟨fun held => held.elim unqueued unheld, owns.distinct⟩
  case undelivered =>
    intro other member
    rcases List.mem_cons.mp (order.mem_iff.mp member) with rfl | held
    · exact undelivered
    · exact owns.undelivered other held
  case sent =>
    intro other early
    have apart : other ≠ call := by
      rintro rfl
      rw [Function.update_self] at early
      cases early
    rw [Function.update_of_ne apart] at early
    obtain ⟨elsewhere, rest⟩ := owns.sent other early
    refine ⟨?_, rest⟩
    rw [List.mem_append, List.mem_singleton]
    exact fun queued => queued.elim elsewhere apart
  case untaken =>
    intro other member
    rcases List.mem_append.mp member with queued | new
    · exact owns.untaken other queued
    · rw [List.mem_singleton.mp new]
      exact unassigned

/-- Callbacks are let go of. -/
theorem forget
    (owns : Ownership calls callbacks queue pending assigned answered
      deliveries) {fewer : List Nat} {less : Table RequestId Nat}
    (sublist : fewer.Sublist queue)
    (kept : (values less).Sublist (values pending))
    (lookups : ∀ id call, less.lookup id = some call → pending.lookup id = some call) :
    Ownership calls callbacks fewer less assigned answered deliveries :=
  { owns with
    distinct := (sublist.append kept).nodup owns.distinct
    undelivered := fun call member =>
      owns.undelivered call ((sublist.append kept).subset member)
    sent := fun call early =>
      ⟨fun member => (owns.sent call early).1 (sublist.subset member), (owns.sent call early).2⟩
    untaken := fun call member => owns.untaken call (sublist.subset member)
    taken := fun id call found => owns.taken id call (lookups id call found) }

/-- The first request of the queue is given a fresh id. -/
theorem take {call : Nat}
    (owns : Ownership calls callbacks (call :: queue) pending assigned
      answered deliveries) {counter : RequestId}
    (fresh : ∀ entry ∈ assigned, entry.2 ≠ counter) :
    Ownership calls callbacks queue (pending.insert counter call)
      (assigned ++ [(call, counter)]) answered deliveries := by
  have absent : counter ∉ pending := by
    intro present
    obtain ⟨other, found⟩ := exists_lookup_of_mem present
    exact fresh _ (owns.taken counter other found).1 rfl
  have order : (queue ++ values (pending.insert counter call)).Perm
      (call :: queue ++ values pending) := by
    rw [values_insert_of_notMem absent]
    exact List.perm_middle
  have unassigned := owns.untaken call List.mem_cons_self
  have givenCalls : (assigned ++ [(call, counter)]).map Prod.fst =
      assigned.map Prod.fst ++ [call] :=
    List.map_append
  refine { owns with
    distinct := order.nodup_iff.mpr owns.distinct
    undelivered := fun other member =>
      owns.undelivered other (order.mem_iff.mp member)
    sent := ?sent
    untaken := ?untaken
    taken := ?taken
    answeredTaken := ?answeredTaken
    idsOnce := ?idsOnce
    own := ?own }
  case sent =>
    intro other early
    obtain ⟨unqueued, elsewhere, undelivered⟩ := owns.sent other early
    rw [List.mem_cons, not_or] at unqueued
    refine ⟨unqueued.2, ?_, undelivered⟩
    rw [givenCalls, List.mem_append, List.mem_singleton]
    exact fun given => given.elim elsewhere unqueued.1
  case untaken =>
    intro other member
    have apart : other ≠ call := by
      rintro rfl
      have once := owns.distinct
      rw [List.cons_append, List.nodup_cons] at once
      exact once.1 (List.mem_append_left _ member)
    rw [givenCalls, List.mem_append, List.mem_singleton]
    exact fun given => given.elim (owns.untaken other (List.mem_cons_of_mem _ member)) apart
  case taken =>
    intro id other found
    by_cases same : id = counter
    · rw [same, AList.lookup_insert] at found
      cases found
      rw [same]
      exact ⟨List.mem_append_right _ List.mem_cons_self,
        fun before => unassigned (owns.answeredTaken call before)⟩
    · rw [AList.lookup_insert_ne same] at found
      obtain ⟨given, waiting⟩ := owns.taken id other found
      exact ⟨List.mem_append_left _ given, waiting⟩
  case answeredTaken =>
    intro other member
    rw [givenCalls]
    exact List.mem_append_left _ (owns.answeredTaken other member)
  case idsOnce =>
    rw [List.map_append, List.nodup_append]
    refine ⟨owns.idsOnce, List.nodup_singleton _, ?_⟩
    intro id member other new
    obtain ⟨entry, given, rfl⟩ := List.mem_map.mp member
    rw [List.mem_singleton.mp new]
    exact fresh entry given
  case own =>
    intro delivery member answers id origin
    obtain ⟨same, given⟩ := owns.own delivery member answers id origin
    exact ⟨same, List.mem_append_left _ given⟩

/-- The sender under an id is taken out, and is nowhere any more. -/
theorem erase
    (owns : Ownership calls callbacks queue pending assigned answered
      deliveries) {id : RequestId} {call : Nat}
    (found : pending.lookup id = some call) :
    Ownership calls callbacks queue (pending.erase id) assigned answered
      deliveries ∧ call ∉ queue ++ values (pending.erase id) := by
  have order := values_perm_of_lookup found
  have whole : (queue ++ values pending).Perm (call :: (queue ++ values (pending.erase id))) :=
    (order.append_left queue).trans List.perm_middle
  have once := whole.nodup_iff.mp owns.distinct
  rw [List.nodup_cons] at once
  refine ⟨owns.forget (List.Sublist.refl queue) (values_erase_sublist pending id) ?_, once.1⟩
  intro other remaining present
  by_cases same : other = id
  · rw [same, AList.lookup_erase] at present
    cases present
  · rwa [AList.lookup_erase_ne same] at present

/-- A call whose sender has been taken out is answered. -/
theorem answer
    (owns : Ownership calls callbacks queue pending assigned answered
      deliveries) {call : Nat} (unheld : call ∉ queue ++ values pending)
    (given : call ∈ assigned.map Prod.fst) :
    Ownership calls callbacks queue pending assigned (answered ++ [call])
      deliveries := by
  refine { owns with taken := ?taken, answeredTaken := ?answeredTaken }
  case taken =>
    intro other remaining present
    obtain ⟨assignedTo, waiting⟩ := owns.taken other remaining present
    refine ⟨assignedTo, ?_⟩
    rw [List.mem_append, List.mem_singleton]
    rintro (before | rfl)
    · exact waiting before
    · exact unheld (List.mem_append_right _ (mem_values_iff.mpr ⟨other, present⟩))
  case answeredTaken =>
    intro other member
    rcases List.mem_append.mp member with before | new
    · exact owns.answeredTaken other before
    · rw [List.mem_singleton.mp new]
      exact given

/-- Something is put into the callback of a call whose sender is used up. -/
theorem deliver
    (owns : Ownership calls callbacks queue pending assigned answered
      deliveries) {delivery : Delivery Address}
    (unheld : delivery.call ∉ queue ++ values pending)
    (undelivered : delivery.call ∉ deliveries.map Delivery.call)
    (sent : (calls delivery.call).IsUnsent = false)
    (owned : ∀ answers id, delivery.origin = .response answers id →
      answers = some delivery.call ∧ (delivery.call, id) ∈ assigned) :
    Ownership calls (Function.update callbacks delivery.call (some delivery.content)) queue
      pending assigned answered (deliveries ++ [delivery]) := by
  have among (call : Nat) : call ∈ (deliveries ++ [delivery]).map
      Delivery.call ↔ call ∈ deliveries.map Delivery.call ∨ call = delivery.call := by
    rw [List.map_append, List.mem_append, List.map_singleton, List.mem_singleton]
  refine { owns with
    undelivered := ?undelivered
    sent := ?sent
    deliveredOnce := ?deliveredOnce
    filled := ?filled
    own := ?own }
  case undelivered =>
    intro call member
    rw [among]
    rintro (before | rfl)
    · exact owns.undelivered call member before
    · exact unheld member
  case sent =>
    intro call early
    obtain ⟨unqueued, unassigned, before⟩ := owns.sent call early
    refine ⟨unqueued, unassigned, ?_⟩
    rw [among]
    rintro (member | rfl)
    · exact before member
    · rw [sent] at early
      cases early
  case deliveredOnce =>
    rw [List.map_append, List.nodup_append]
    refine ⟨owns.deliveredOnce, List.nodup_singleton _, ?_⟩
    intro call member other new
    rw [List.map_singleton, List.mem_singleton] at new
    rw [new]
    rintro rfl
    exact undelivered member
  case filled =>
    intro call content present
    by_cases same : call = delivery.call
    · rw [same, Function.update_self] at present
      exact ⟨delivery, List.mem_append_right _ List.mem_cons_self, same.symm,
        Option.some.inj present⟩
    · rw [Function.update_of_ne same] at present
      obtain ⟨before, member, fields⟩ := owns.filled call content present
      exact ⟨before, List.mem_append_left _ member, fields⟩
  case own =>
    intro other member
    rcases List.mem_append.mp member with before | new
    · exact owns.own other before
    · rw [List.mem_singleton.mp new]
      exact owned

end Ownership

/-- A call completes once, with an error of its own or with what is in its
callback. -/
structure Completed (calls : Nat → CallPhase Address) (deliveries : List (Delivery Address))
    (completions : List (Nat × RemoteResponse Address)) : Prop where
  once : (completions.map Prod.fst).Nodup
  closed : ∀ call ∈ completions.map Prod.fst, ∃ response, calls call = .completed response
  honest : ∀ completion ∈ completions, completion.2 = .error .communicatorAborted ∨
      completion.2 = .error .operationTimeout ∨
      ∃ delivery ∈ deliveries, delivery.call = completion.1 ∧ delivery.content = completion.2

namespace Completed

variable {calls : Nat → CallPhase Address} {deliveries : List (Delivery Address)}
  {completions : List (Nat × RemoteResponse Address)}

/-- A call that has not completed moves on. -/
theorem move (holds : Completed calls deliveries completions) {call : Nat}
    {phase : CallPhase Address}
    (running : ∀ response, calls call ≠ .completed response) :
    Completed (Function.update calls call phase) deliveries completions :=
  { holds with
    closed := by
      intro other member
      obtain ⟨response, closed⟩ := holds.closed other member
      have apart : other ≠ call := by
        rintro rfl
        exact running response closed
      exact ⟨response, by rw [Function.update_of_ne apart, closed]⟩ }

theorem complete (holds : Completed calls deliveries completions)
    {call : Nat} {response : RemoteResponse Address}
    (running : ∀ response, calls call ≠ .completed response)
    (honest : response = .error .communicatorAborted ∨ response = .error .operationTimeout ∨
      ∃ delivery ∈ deliveries, delivery.call = call ∧ delivery.content = response) :
    Completed (Function.update calls call (.completed response)) deliveries
      (completions ++ [(call, response)]) where
  once := by
    rw [List.map_append, List.nodup_append]
    refine ⟨holds.once, List.nodup_singleton _, ?_⟩
    intro other member again new
    rw [List.map_singleton, List.mem_singleton] at new
    rw [new]
    rintro rfl
    obtain ⟨earlier, closed⟩ := holds.closed other member
    exact running earlier closed
  closed := by
    intro other member
    by_cases same : other = call
    · exact ⟨response, by rw [same, Function.update_self]⟩
    · have before : other ∈ completions.map Prod.fst := by
        rw [List.map_append, List.mem_append, List.map_singleton, List.mem_singleton] at member
        exact member.resolve_right same
      obtain ⟨earlier, closed⟩ := holds.closed other before
      exact ⟨earlier, by rw [Function.update_of_ne same, closed]⟩
  honest := by
    intro completion member
    rcases List.mem_append.mp member with before | new
    · exact holds.honest completion before
    · rw [List.mem_singleton.mp new]
      exact honest

theorem deliver (holds : Completed calls deliveries completions) (delivery : Delivery Address) :
    Completed calls (deliveries ++ [delivery]) completions :=
  { holds with
    honest := by
      intro completion member
      rcases holds.honest completion member with aborted | late | delivered
      · exact Or.inl aborted
      · exact Or.inr (Or.inl late)
      · obtain ⟨before, present, fields⟩ := delivered
        exact Or.inr (Or.inr ⟨before, List.mem_append_left _ present, fields⟩) }

end Completed

/-- The pending callbacks have all been answered. -/
def WorkerPhase.IsEmptied : WorkerPhase → Bool
  | .draining _ => true
  | .closing _ => true
  | .ended _ => true
  | _ => false

/-- What is left when the loop has ended: errors of the end in callbacks, and behind
the last step neither pending nor queued requests. -/
structure Ending (worker : WorkerPhase) (queue : List Nat)
    (pending : Table RequestId Nat) (deliveries : List (Delivery Address)) :
    Prop where
  errors : ∀ delivery ∈ deliveries, ∀ error, delivery.origin = .teardown error →
      delivery.content = .error error ∧
        ∃ result, worker.result = some result ∧ leftError result = error
  emptied : ∀ result, worker = .draining result ∨ worker = .closing result → pending = ∅
  gone : (worker = .killed ∨ ∃ result, worker = .ended result) → queue = [] ∧ pending = ∅

/-- The invariant of the worker and its callers. -/
structure ClientState.WorkerInvariant (state : ClientState Address) :
    Prop where
  owns : Ownership state.calls state.callbacks state.queue state.pending
    state.assigned state.answered state.deliveries
  completes : Completed state.calls state.deliveries state.completions
  ends : Ending state.worker state.queue state.pending state.deliveries

/-- A held callback belongs to a call whose request has been sent. -/
theorem Ownership.sent_of_mem {calls : Nat → CallPhase Address}
    {callbacks : Nat → Option (RemoteResponse Address)} {queue : List Nat}
    {pending : Table RequestId Nat} {assigned : List (Nat × RequestId)}
    {answered : List Nat} {deliveries : List (Delivery Address)}
    (owns : Ownership calls callbacks queue pending assigned answered
      deliveries) {call : Nat} (held : call ∈ queue ++ values pending) :
    (calls call).IsUnsent = false := by
  rw [Bool.eq_false_iff]
  intro early
  obtain ⟨unqueued, unassigned, -⟩ := owns.sent call early
  rcases List.mem_append.mp held with queued | waiting
  · exact unqueued queued
  · obtain ⟨id, found⟩ := mem_values_iff.mp waiting
    exact unassigned (List.mem_map.mpr ⟨_, (owns.taken id call found).1, rfl⟩)

/-- The end goes on with its result. -/
theorem Ending.of_result {worker next : WorkerPhase} {queue other : List Nat}
    {pending less : Table RequestId Nat}
    {deliveries : List (Delivery Address)}
    (ends : Ending worker queue pending deliveries)
    (same : next.result = worker.result)
    (emptied : ∀ result, next = .draining result ∨ next = .closing result → less = ∅)
    (gone : (next = .killed ∨ ∃ result, next = .ended result) → other = [] ∧ less = ∅) :
    Ending next other less deliveries where
  errors := by
    rw [same]
    exact ends.errors
  emptied := emptied
  gone := gone

theorem Ending.of_running {worker : WorkerPhase} {queue other : List Nat}
    {pending less : Table RequestId Nat}
    {deliveries : List (Delivery Address)}
    (ends : Ending worker queue pending deliveries)
    (running : worker.result = none) {next : WorkerPhase}
    (early : next.IsEmptied = false)
    (alive : next = .killed → other = [] ∧ less = ∅) :
    Ending next other less deliveries where
  errors := by
    intro delivery member error origin
    obtain ⟨-, result, present, -⟩ := ends.errors delivery member error origin
    rw [running] at present
    cases present
  emptied := by
    rintro result (rfl | rfl) <;> cases early
  gone := by
    rintro (killed | ⟨result, rfl⟩)
    · exact alive killed
    · cases early

namespace ClientState

variable {state next : ClientState Address}

/-- A step is one of a caller, of the loop, behind the loop or around the worker. -/
theorem step_cases {action : ClientAction Address} (stepped : state.step action = some next) :
    state.callerStep action = some next ∨ state.workerStep action = some next ∨
      state.teardownStep action = some next ∨
      state.outerStep action = some next := by
  cases action with
  | call | enqueue | refuse | receive | hangUp | abort | timeout | drop => exact Or.inl stepped
  | connected | connectFailed | observeCancel | take | requestsClosed
  | submitted | submitFailed | respond | receiveFailed => exact Or.inr (Or.inl stepped)
  | cancelToken | failPending | pendingDone | drainQueued | queueDone
  | finish => exact Or.inr (Or.inr (Or.inl stepped))
  | cancel | release | kill | drawElsewhere => exact Or.inr (Or.inr (Or.inr stepped))

namespace WorkerInvariant

theorem start (counter : RequestId) :
    (ClientState.start counter : ClientState Address).WorkerInvariant where
  owns := Ownership.start
  completes :=
    ⟨List.nodup_nil, fun _ member => (by cases member),
      fun _ member => (by cases member)⟩
  ends :=
    { errors := fun _ member => (by cases member)
      emptied := by
        rintro result (absent | absent) <;> cases absent
      gone := by
        rintro (absent | ⟨result, absent⟩) <;> cases absent }

theorem complete (holds : state.WorkerInvariant) {call : Nat} {response : RemoteResponse Address}
    (running : ∀ response, state.calls call ≠ .completed response)
    (honest : response = .error .communicatorAborted ∨ response = .error .operationTimeout ∨
      ∃ delivery ∈ state.deliveries, delivery.call = call ∧ delivery.content = response) :
    (state.complete call response).WorkerInvariant where
  owns := holds.owns.move fun early => (by cases early)
  completes := holds.completes.complete running honest
  ends := holds.ends

theorem fail (holds : state.WorkerInvariant) {call : Nat} {error : GlobalCollectiveError}
    (running : ∀ response, state.calls call ≠ .completed response)
    (own : error = .communicatorAborted ∨ error = .operationTimeout) :
    (state.fail call error).WorkerInvariant := by
  have completed : (state.complete call (.error error)).WorkerInvariant := by
    apply holds.complete running
    rcases own with rfl | rfl
    · exact Or.inl rfl
    · exact Or.inr (Or.inl rfl)
  exact ⟨completed.owns, completed.completes, completed.ends⟩

theorem trySend (holds : state.WorkerInvariant) {call : Nat}
    {origin : Origin} {content : RemoteResponse Address}
    (unheld : call ∉ state.queue ++ values state.pending)
    (undelivered : call ∉ state.deliveries.map Delivery.call)
    (sent : (state.calls call).IsUnsent = false)
    (owned : ∀ answers id, origin = .response answers id →
      answers = some call ∧ (call, id) ∈ state.assigned)
    (errors : ∀ error, origin = .teardown error → content = .error error ∧
      ∃ result, state.worker.result = some result ∧ leftError result = error) :
    (state.trySend call origin content).WorkerInvariant := by
  unfold ClientState.trySend
  split
  case isFalse => exact holds
  case isTrue =>
    have delivered := @Ownership.deliver _ _ _ _ _ _ _ _ holds.owns
      ⟨call, origin, content⟩ unheld undelivered sent owned
    refine ⟨delivered, holds.completes.deliver _, { holds.ends with errors := ?_ }⟩
    intro delivery member error source
    rcases List.mem_append.mp member with before | new
    · exact holds.ends.errors delivery before error source
    · rw [List.mem_singleton.mp new] at source ⊢
      exact errors error source

theorem not_completed_of_open {call : Nat} (running : (state.calls call).IsOpen = true)
    (response : RemoteResponse Address) :
    state.calls call ≠ .completed response := by
  intro closed
  rw [closed] at running
  cases running

theorem not_completed_of_unsent {call : Nat} (unsent : (state.calls call).IsUnsent = true)
    (response : RemoteResponse Address) :
    state.calls call ≠ .completed response := by
  intro closed
  rw [closed] at unsent
  cases unsent

theorem not_gone_of_receiverAlive (alive : state.receiverAlive = true) :
    ¬(state.worker = .killed ∨ ∃ result, state.worker = .ended result) := by
  unfold ClientState.receiverAlive at alive
  rintro (killed | ⟨result, ended⟩)
  · rw [killed] at alive
    cases alive
  · rw [ended] at alive
    cases alive

/-- What is in a callback has been delivered. -/
theorem honest_receive (holds : state.WorkerInvariant) {call : Nat}
    {content : RemoteResponse Address}
    (present : state.callbacks call = some content) :
    content = .error .communicatorAborted ∨ content = .error .operationTimeout ∨
      ∃ delivery ∈ state.deliveries, delivery.call = call ∧ delivery.content = content :=
  Or.inr (Or.inr (holds.owns.filled call content present))

theorem callerStep (holds : state.WorkerInvariant) {action : ClientAction Address}
    (stepped : state.callerStep action = some next) :
    next.WorkerInvariant := by
  cases action with
  | call call =>
      simp only [ClientState.callerStep] at stepped
      split at stepped
      case h_2 => cases stepped
      case h_1 idle =>
        have unsent : (state.calls call).IsUnsent = true := by
          rw [idle]
          rfl
        have running := not_completed_of_unsent unsent
        split at stepped
        · cases stepped
        split at stepped
        · cases stepped
          exact holds.complete running (Or.inl rfl)
        · cases stepped
          exact ⟨holds.owns.move fun _ => unsent, holds.completes.move running, holds.ends⟩
  | enqueue call =>
      simp only [ClientState.callerStep] at stepped
      split at stepped
      case h_2 => cases stepped
      case h_1 sending =>
        have unsent : (state.calls call).IsUnsent = true := by
          rw [sending]
          rfl
        split at stepped
        case isFalse => cases stepped
        case isTrue room =>
          cases stepped
          refine ⟨holds.owns.enqueue unsent,
            holds.completes.move (not_completed_of_unsent unsent),
            { holds.ends with gone := ?_ }⟩
          intro gone
          exact absurd gone (not_gone_of_receiverAlive room.1)
  | refuse call =>
      simp only [ClientState.callerStep] at stepped
      split at stepped
      case h_2 => cases stepped
      case h_1 sending =>
        have unsent : (state.calls call).IsUnsent = true := by
          rw [sending]
          rfl
        split at stepped
        · cases stepped
        · cases stepped
          exact holds.fail (not_completed_of_unsent unsent) (Or.inl rfl)
  | receive call =>
      simp only [ClientState.callerStep] at stepped
      split at stepped
      case h_2 => cases stepped
      case h_1 content waiting present =>
        cases stepped
        have running : (state.calls call).IsOpen = true := by
          rw [waiting]
          rfl
        exact holds.complete (not_completed_of_open running) (holds.honest_receive present)
  | hangUp call =>
      simp only [ClientState.callerStep] at stepped
      split at stepped
      case h_2 => cases stepped
      case h_1 waiting absent =>
        have running : (state.calls call).IsOpen = true := by
          rw [waiting]
          rfl
        split at stepped
        · cases stepped
        · cases stepped
          exact holds.fail (not_completed_of_open running) (Or.inl rfl)
  | abort call =>
      simp only [ClientState.callerStep] at stepped
      split at stepped
      case isFalse => cases stepped
      case isTrue running =>
        cases stepped
        exact holds.fail (not_completed_of_open running.1) (Or.inl rfl)
  | timeout call =>
      simp only [ClientState.callerStep] at stepped
      split at stepped
      case isFalse => cases stepped
      case isTrue running =>
        cases stepped
        exact holds.fail (not_completed_of_open running) (Or.inr rfl)
  | drop call =>
      simp only [ClientState.callerStep] at stepped
      split at stepped
      case isFalse => cases stepped
      case isTrue running =>
        cases stepped
        exact ⟨holds.owns.move fun early => (by cases early),
          holds.completes.move (not_completed_of_open running), holds.ends⟩
  | _ => cases stepped

/-- The loop goes on, or ends, with nothing else changed. -/
theorem setWorker (holds : state.WorkerInvariant)
    (running : state.worker.result = none) {phase : WorkerPhase}
    (early : phase.IsEmptied = false) (alive : phase ≠ .killed) :
    ({ state with worker := phase } : ClientState Address).WorkerInvariant :=
  ⟨holds.owns, holds.completes,
    holds.ends.of_running running early fun killed => absurd killed alive⟩

theorem setLooping (holds : state.WorkerInvariant) (running : state.worker.result = none) :
    ({ state with worker := .running } : ClientState Address).WorkerInvariant :=
  holds.setWorker running rfl fun absent => (by cases absent)

theorem setEnding (holds : state.WorkerInvariant)
    (running : state.worker.result = none) (result : WorkerResult) :
    ({ state with worker := .ending result } : ClientState Address).WorkerInvariant :=
  holds.setWorker running rfl fun absent => (by cases absent)

theorem take (holds : state.WorkerInvariant)
    (fresh : FreshId state (.take : ClientAction Address))
    (stepped : state.workerStep .take = some next) :
    next.WorkerInvariant := by
  simp only [ClientState.workerStep] at stepped
  split at stepped
  case h_2 => cases stepped
  case h_1 call rest running queued =>
    have looping : state.worker.result = none := by
      rw [running]
      rfl
    have owns := holds.owns
    rw [queued] at owns
    split at stepped
    case isTrue waiting =>
      cases stepped
      have first : call ∈ state.queue.head? := by
        rw [queued]
        rfl
      exact ⟨owns.take (fresh call first waiting), holds.completes,
        holds.ends.of_running looping rfl fun absent => (by cases absent)⟩
    case isFalse =>
      cases stepped
      refine ⟨owns.forget (List.sublist_cons_self call rest)
        (List.Sublist.refl _) fun _ _ found => found, holds.completes,
        holds.ends.of_running looping ?_ ?_⟩
      · rw [running]
        rfl
      · intro killed
        rw [running] at killed
        cases killed

/-- The call under an id is the one that the response answers. -/
theorem answers_eq (holds : state.WorkerInvariant) {answers : Option Nat}
    {id : RequestId} (credible : state.Plausible answers id) {call : Nat}
    (given : (call, id) ∈ state.assigned) : answers = some call := by
  cases answers with
  | none => exact absurd rfl (credible (call, id) given)
  | some other => rw [holds.owns.call_eq credible given]

theorem respond (holds : state.WorkerInvariant) {answers : Option Nat}
    {id : RequestId} {content : RemoteResponse Address}
    (stepped : state.workerStep (.respond answers id content) = some next) :
    next.WorkerInvariant := by
  simp only [ClientState.workerStep] at stepped
  split at stepped
  case h_2 => cases stepped
  case h_1 running =>
    have looping : state.worker.result = none := by
      rw [running]
      rfl
    split at stepped
    case isFalse => cases stepped
    case isTrue credible =>
      split at stepped
      case h_2 =>
        cases stepped
        exact holds.setEnding looping _
      case h_1 call found =>
        cases stepped
        have given := (holds.owns.taken id call found).1
        have held : call ∈ state.queue ++ values state.pending :=
          List.mem_append_right _ (mem_values_iff.mpr ⟨id, found⟩)
        obtain ⟨erased, unheld⟩ := holds.owns.erase found
        have owns := erased.answer unheld (List.mem_map.mpr ⟨_, given, rfl⟩)
        have answered : ({ state with
            pending := state.pending.erase id
            answered := state.answered ++ [call] } : ClientState Address).WorkerInvariant := by
          refine ⟨owns, holds.completes, holds.ends.of_running looping ?_ ?_⟩
          · rw [running]
            rfl
          · intro killed
            rw [running] at killed
            cases killed
        apply answered.trySend unheld (holds.owns.undelivered call held)
          (holds.owns.sent_of_mem held)
        · rintro others other ⟨⟩
          exact ⟨holds.answers_eq credible given, given⟩
        · intro error absent
          cases absent

theorem workerStep (holds : state.WorkerInvariant)
    {action : ClientAction Address} (fresh : FreshId state action)
    (stepped : state.workerStep action = some next) :
    next.WorkerInvariant := by
  cases action with
  | take => exact holds.take fresh stepped
  | respond answers id content => exact holds.respond stepped
  | connected =>
      simp only [ClientState.workerStep] at stepped
      split at stepped
      case h_2 => cases stepped
      case h_1 connecting =>
        cases stepped
        exact holds.setLooping (by rw [connecting]; rfl)
  | connectFailed error =>
      simp only [ClientState.workerStep] at stepped
      split at stepped
      case h_2 => cases stepped
      case h_1 connecting =>
        cases stepped
        exact holds.setEnding (by rw [connecting]; rfl) _
  | observeCancel =>
      simp only [ClientState.workerStep] at stepped
      split at stepped
      case h_2 => cases stepped
      case h_1 running =>
        split at stepped
        · cases stepped
          exact holds.setEnding (by rw [running]; rfl) _
        · cases stepped
  | requestsClosed =>
      simp only [ClientState.workerStep] at stepped
      split at stepped
      case h_2 => cases stepped
      case h_1 running _ =>
        split at stepped
        · cases stepped
          exact holds.setEnding (by rw [running]; rfl) _
        · cases stepped
  | submitted =>
      simp only [ClientState.workerStep] at stepped
      split at stepped
      case h_2 => cases stepped
      case h_1 submitting =>
        cases stepped
        exact holds.setLooping (by rw [submitting]; rfl)
  | submitFailed error =>
      simp only [ClientState.workerStep] at stepped
      split at stepped
      case h_2 => cases stepped
      case h_1 submitting =>
        cases stepped
        exact holds.setEnding (by rw [submitting]; rfl) _
  | receiveFailed error =>
      simp only [ClientState.workerStep] at stepped
      split at stepped
      case h_2 => cases stepped
      case h_1 running =>
        cases stepped
        exact holds.setEnding (by rw [running]; rfl) _
  | _ => cases stepped

/-! ### Behind the loop -/

/-- A callback that is left gets the error of the end. -/
theorem sendLeft (holds : state.WorkerInvariant) {call : Nat}
    (unheld : call ∉ state.queue ++ values state.pending)
    (undelivered : call ∉ state.deliveries.map Delivery.call)
    (sent : (state.calls call).IsUnsent = false) {result : WorkerResult}
    (ending : state.worker.result = some result) :
    (state.trySend call (.teardown (leftError result))
      (.error (leftError result))).WorkerInvariant := by
  apply holds.trySend unheld undelivered sent
  · intro answers id absent
    cases absent
  · rintro error ⟨⟩
    exact ⟨rfl, result, ending, rfl⟩

theorem teardownStep (holds : state.WorkerInvariant) {action : ClientAction Address}
    (stepped : state.teardownStep action = some next) :
    next.WorkerInvariant := by
  cases action with
  | cancelToken =>
      simp only [ClientState.teardownStep] at stepped
      split at stepped
      case h_2 => cases stepped
      case h_1 result ending =>
        cases stepped
        refine ⟨holds.owns, holds.completes, holds.ends.of_result ?_ ?_ ?_⟩
        · rw [ending]
          rfl
        · rintro other (absent | absent) <;> cases absent
        · rintro (absent | ⟨other, absent⟩) <;> cases absent
  | failPending id =>
      simp only [ClientState.teardownStep] at stepped
      split at stepped
      case h_2 => cases stepped
      case h_1 result call failing found =>
        cases stepped
        have held : call ∈ state.queue ++ values state.pending :=
          List.mem_append_right _ (mem_values_iff.mpr ⟨id, found⟩)
        obtain ⟨owns, unheld⟩ := holds.owns.erase found
        have erased : ({ state with pending := state.pending.erase id } :
            ClientState Address).WorkerInvariant := by
          refine ⟨owns, holds.completes, holds.ends.of_result rfl ?_ ?_⟩
          · rw [failing]
            rintro other (absent | absent) <;> cases absent
          · rw [failing]
            rintro (absent | ⟨other, absent⟩) <;> cases absent
        apply erased.sendLeft unheld (holds.owns.undelivered call held)
          (holds.owns.sent_of_mem held)
        rw [failing]
        rfl
  | pendingDone =>
      simp only [ClientState.teardownStep] at stepped
      split at stepped
      case h_2 => cases stepped
      case h_1 result failing =>
        split at stepped
        case isFalse => cases stepped
        case isTrue empty =>
          cases stepped
          refine ⟨holds.owns, holds.completes, holds.ends.of_result ?_ ?_ ?_⟩
          · rw [failing]
            rfl
          · intro _ _
            exact (keys_eq_nil_iff _).mp empty
          · rintro (absent | ⟨other, absent⟩) <;> cases absent
  | drainQueued =>
      simp only [ClientState.teardownStep] at stepped
      split at stepped
      case h_2 => cases stepped
      case h_1 result call rest draining queued =>
        cases stepped
        have held : call ∈ state.queue ++ values state.pending := by
          rw [queued]
          exact List.mem_append_left _ List.mem_cons_self
        have owns := holds.owns
        rw [queued] at owns
        have once := owns.distinct
        rw [List.cons_append, List.nodup_cons] at once
        have shorter : ({ state with queue := rest } : ClientState Address).WorkerInvariant := by
          refine ⟨owns.forget (List.sublist_cons_self call rest)
            (List.Sublist.refl _) fun _ _ found => found, holds.completes,
            holds.ends.of_result rfl holds.ends.emptied ?_⟩
          rw [draining]
          rintro (absent | ⟨other, absent⟩) <;> cases absent
        apply shorter.sendLeft once.1 (holds.owns.undelivered call held)
          (holds.owns.sent_of_mem held)
        rw [draining]
        rfl
  | queueDone =>
      simp only [ClientState.teardownStep] at stepped
      split at stepped
      case h_2 => cases stepped
      case h_1 result draining _ =>
        cases stepped
        refine ⟨holds.owns, holds.completes, holds.ends.of_result ?_ ?_ ?_⟩
        · rw [draining]
          rfl
        · intro _ _
          exact holds.ends.emptied result (Or.inl draining)
        · rintro (absent | ⟨other, absent⟩) <;> cases absent
  | finish =>
      simp only [ClientState.teardownStep] at stepped
      split at stepped
      case h_2 => cases stepped
      case h_1 result closing =>
        cases stepped
        have empty := holds.ends.emptied result (Or.inr closing)
        refine ⟨holds.owns.forget (List.nil_sublist _) (List.Sublist.refl _)
          fun _ _ found => found, holds.completes,
          holds.ends.of_result ?_ ?_ ?_⟩
        · rw [closing]
          rfl
        · rintro other (absent | absent) <;> cases absent
        · intro _
          exact ⟨rfl, empty⟩
  | _ => cases stepped

/-- The task is aborted: queue and callbacks are dropped. -/
theorem outerStep (holds : state.WorkerInvariant) {action : ClientAction Address}
    (stepped : state.outerStep action = some next) :
    next.WorkerInvariant := by
  cases action with
  | cancel | release | drawElsewhere =>
      cases stepped
      exact ⟨holds.owns, holds.completes, holds.ends⟩
  | kill =>
      simp only [ClientState.outerStep] at stepped
      split at stepped
      case isFalse => cases stepped
      case isTrue =>
        have killed (looping : state.worker.result = none) :
            ({ state with queue := [], pending := ∅, worker := .killed } :
              ClientState Address).WorkerInvariant :=
          ⟨holds.owns.forget (List.nil_sublist _) (List.nil_sublist _)
            fun _ _ found => (by cases found), holds.completes,
            holds.ends.of_running looping rfl fun _ => ⟨rfl, rfl⟩⟩
        split at stepped
        case h_4 => cases stepped
        case h_1 phase | h_2 phase | h_3 phase =>
          cases stepped
          exact killed (by rw [phase]; rfl)
  | _ => cases stepped

theorem step (holds : state.WorkerInvariant)
    {action : ClientAction Address} (fresh : FreshId state action)
    (stepped : state.step action = some next) :
    next.WorkerInvariant := by
  rcases ClientState.step_cases stepped with caller | loop | behind | around
  · exact holds.callerStep caller
  · exact holds.workerStep fresh loop
  · exact holds.teardownStep behind
  · exact holds.outerStep around

end WorkerInvariant

end ClientState

end RuCCL.Global
