import RuCCL.Global.ClientWorkerOnce

/-!
# What becomes of a request

Behind the worker's loop callbacks get nothing but the error of its end, and the
worker comes to its last step.  From there on a call that still runs can only
complete, and with an error unless a response was delivered to it before.
-/

namespace RuCCL.Global

open RuCCL.Library

variable {Address : Type}

/-- The loop has ended, or the task has been aborted. -/
def WorkerPhase.IsOver : WorkerPhase → Bool
  | .connecting => false
  | .running => false
  | .submitting => false
  | _ => true

theorem WorkerPhase.result_of_not_isOver {phase : WorkerPhase}
    (looping : phase.IsOver = false) : phase.result = none := by
  cases phase with
  | connecting | running | submitting | killed => rfl
  | _ => cases looping

namespace ClientState

variable {state next : ClientState Address}

/-- Callers neither move the worker nor fill callbacks. -/
theorem callerStep_frame {action : ClientAction Address}
    (stepped : state.callerStep action = some next) :
    next.worker = state.worker ∧ next.deliveries = state.deliveries := by
  cases action with
  | call call =>
      simp only [ClientState.callerStep] at stepped
      split at stepped
      case h_2 => cases stepped
      case h_1 =>
        split at stepped
        · cases stepped
        split at stepped <;> cases stepped <;> exact ⟨rfl, rfl⟩
  | enqueue call | refuse call =>
      simp only [ClientState.callerStep] at stepped
      split at stepped
      case h_2 => cases stepped
      case h_1 =>
        split at stepped <;> cases stepped
        exact ⟨rfl, rfl⟩
  | receive call =>
      simp only [ClientState.callerStep] at stepped
      split at stepped <;> cases stepped
      exact ⟨rfl, rfl⟩
  | hangUp call =>
      simp only [ClientState.callerStep] at stepped
      split at stepped
      case h_2 => cases stepped
      case h_1 =>
        split at stepped <;> cases stepped
        exact ⟨rfl, rfl⟩
  | abort call | timeout call | drop call =>
      simp only [ClientState.callerStep] at stepped
      split at stepped <;> cases stepped
      exact ⟨rfl, rfl⟩
  | _ => cases stepped

theorem trySend_worker (call : Nat) (origin : Origin) (content : RemoteResponse Address) :
    (state.trySend call origin content).worker = state.worker := by
  unfold ClientState.trySend
  split <;> rfl

theorem trySend_queue (call : Nat) (origin : Origin) (content : RemoteResponse Address) :
    (state.trySend call origin content).queue = state.queue := by
  unfold ClientState.trySend
  split <;> rfl

theorem trySend_pending (call : Nat) (origin : Origin) (content : RemoteResponse Address) :
    (state.trySend call origin content).pending = state.pending := by
  unfold ClientState.trySend
  split <;> rfl

theorem mem_trySend_deliveries {call : Nat} {origin : Origin}
    {content : RemoteResponse Address} {delivery : Delivery Address}
    (member : delivery ∈ (state.trySend call origin content).deliveries) :
    delivery ∈ state.deliveries ∨ delivery.origin = origin := by
  unfold ClientState.trySend at member
  split at member
  case isFalse => exact Or.inl member
  case isTrue =>
    rcases List.mem_append.mp member with before | new
    · exact Or.inl before
    · exact Or.inr (by rw [List.mem_singleton.mp new])

/-- The loop takes no step once it has ended. -/
theorem not_isOver_of_workerStep {action : ClientAction Address}
    (stepped : state.workerStep action = some next) :
    state.worker.IsOver = false := by
  cases action with
  | take | requestsClosed =>
      simp only [ClientState.workerStep] at stepped
      split at stepped
      case h_2 => cases stepped
      case h_1 phase _ =>
        rw [phase]
        rfl
  | connected | connectFailed | submitted | submitFailed | receiveFailed
  | observeCancel | respond =>
      simp only [ClientState.workerStep] at stepped
      split at stepped
      case h_2 => cases stepped
      case h_1 phase =>
        rw [phase]
        rfl
  | _ => cases stepped

/-- The step that ends the loop fills no callback. -/
theorem workerStep_deliveries {action : ClientAction Address}
    (stepped : state.workerStep action = some next)
    (stopped : next.worker.IsOver = true) :
    next.deliveries = state.deliveries := by
  cases action with
  | connected | connectFailed | submitted | submitFailed | receiveFailed =>
      simp only [ClientState.workerStep] at stepped
      split at stepped <;> cases stepped
      rfl
  | observeCancel =>
      simp only [ClientState.workerStep] at stepped
      split at stepped
      case h_2 => cases stepped
      case h_1 =>
        split at stepped <;> cases stepped
        rfl
  | take =>
      simp only [ClientState.workerStep] at stepped
      split at stepped
      case h_2 => cases stepped
      case h_1 => split at stepped <;> cases stepped <;> rfl
  | requestsClosed =>
      simp only [ClientState.workerStep] at stepped
      split at stepped
      case h_2 => cases stepped
      case h_1 =>
        split at stepped <;> cases stepped
        rfl
  | respond answers id content =>
      simp only [ClientState.workerStep] at stepped
      split at stepped
      case h_2 => cases stepped
      case h_1 running =>
        split at stepped
        case isFalse => cases stepped
        case isTrue =>
          split at stepped
          case h_2 =>
            cases stepped
            rfl
          case h_1 =>
            -- a response to a pending request leaves the loop running
            cases stepped
            rw [trySend_worker] at stopped
            rw [running] at stopped
            cases stopped
  | _ => cases stepped

/-- Behind the loop its result stays, and callbacks get the error of it. -/
theorem teardownStep_frame {action : ClientAction Address}
    (stepped : state.teardownStep action = some next) :
    ∃ result, state.worker.result = some result ∧ next.worker.result = some result ∧
      ∀ delivery ∈ next.deliveries, delivery ∈ state.deliveries ∨
        delivery.origin = .teardown (leftError result) := by
  cases action with
  | cancelToken =>
      simp only [ClientState.teardownStep] at stepped
      split at stepped
      case h_2 => cases stepped
      case h_1 result ending =>
        cases stepped
        exact ⟨result, by rw [ending]; rfl, rfl, fun _ member => Or.inl member⟩
  | failPending id =>
      simp only [ClientState.teardownStep] at stepped
      split at stepped
      case h_2 => cases stepped
      case h_1 result call failing _ =>
        cases stepped
        refine ⟨result, by rw [failing]; rfl, ?_, ?_⟩
        · rw [trySend_worker]
          exact congrArg WorkerPhase.result failing
        · intro delivery member
          have among := mem_trySend_deliveries member
          exact among
  | pendingDone =>
      simp only [ClientState.teardownStep] at stepped
      split at stepped
      case h_2 => cases stepped
      case h_1 result failing =>
        split at stepped <;> cases stepped
        exact ⟨result, by rw [failing]; rfl, rfl,
          fun _ member => Or.inl member⟩
  | drainQueued =>
      simp only [ClientState.teardownStep] at stepped
      split at stepped
      case h_2 => cases stepped
      case h_1 result call rest draining _ =>
        cases stepped
        refine ⟨result, by rw [draining]; rfl, ?_, ?_⟩
        · rw [trySend_worker]
          exact congrArg WorkerPhase.result draining
        · intro delivery member
          have among := mem_trySend_deliveries member
          exact among
  | queueDone =>
      simp only [ClientState.teardownStep] at stepped
      split at stepped
      case h_2 => cases stepped
      case h_1 result draining _ =>
        cases stepped
        exact ⟨result, by rw [draining]; rfl, rfl,
          fun _ member => Or.inl member⟩
  | finish =>
      simp only [ClientState.teardownStep] at stepped
      split at stepped
      case h_2 => cases stepped
      case h_1 result closing =>
        cases stepped
        exact ⟨result, by rw [closing]; rfl, rfl,
          fun _ member => Or.inl member⟩
  | _ => cases stepped

/-- Around the worker only its loop can be stopped. -/
theorem outerStep_frame {action : ClientAction Address}
    (stepped : state.outerStep action = some next) :
    next.deliveries = state.deliveries ∧
      (state.worker.IsOver = true → next.worker = state.worker) := by
  cases action with
  | cancel | release | drawElsewhere =>
      cases stepped
      exact ⟨rfl, fun _ => rfl⟩
  | kill =>
      simp only [ClientState.outerStep] at stepped
      split at stepped
      case isFalse => cases stepped
      case isTrue =>
        split at stepped
        case h_4 => cases stepped
        case h_1 phase | h_2 phase | h_3 phase =>
          cases stepped
          refine ⟨rfl, fun stopped => ?_⟩
          rw [phase] at stopped
          cases stopped
  | _ => cases stepped

theorem isOver_of_result {result : WorkerResult} (ended : state.worker.result = some result) :
    state.worker.IsOver = true := by
  by_contra looping
  rw [WorkerPhase.result_of_not_isOver (Bool.eq_false_iff.mpr looping)] at ended
  cases ended

theorem isOver_step {action : ClientAction Address} (stepped : state.step action = some next)
    (stopped : state.worker.IsOver = true) : next.worker.IsOver = true := by
  rcases step_cases stepped with caller | loop | behind | around
  · rw [(callerStep_frame caller).1]
    exact stopped
  · rw [not_isOver_of_workerStep loop] at stopped
    cases stopped
  · obtain ⟨result, -, after, -⟩ := teardownStep_frame behind
    exact isOver_of_result after
  · rw [(outerStep_frame around).2 stopped]
    exact stopped

theorem result_step {action : ClientAction Address}
    (stepped : state.step action = some next) {result : WorkerResult}
    (ended : state.worker.result = some result) :
    next.worker.result = some result := by
  have stopped := isOver_of_result ended
  rcases step_cases stepped with caller | loop | behind | around
  · rw [(callerStep_frame caller).1]
    exact ended
  · rw [not_isOver_of_workerStep loop] at stopped
    cases stopped
  · obtain ⟨same, before, after, -⟩ := teardownStep_frame behind
    rw [after, ← before]
    exact ended
  · rw [(outerStep_frame around).2 stopped]
    exact ended

/-- No response is delivered by the step that ends the loop, or behind it. -/
theorem deliveries_step {action : ClientAction Address} (stepped : state.step action = some next)
    (stopped : next.worker.IsOver = true) :
    ∀ delivery ∈ next.deliveries, delivery ∈ state.deliveries ∨
      ∃ error, delivery.origin = .teardown error := by
  intro delivery member
  rcases step_cases stepped with caller | loop | behind | around
  · rw [(callerStep_frame caller).2] at member
    exact Or.inl member
  · rw [workerStep_deliveries loop stopped] at member
    exact Or.inl member
  · obtain ⟨result, -, -, fields⟩ := teardownStep_frame behind
    rcases fields delivery member with before | left
    · exact Or.inl before
    · exact Or.inr ⟨_, left⟩
  · rw [(outerStep_frame around).1] at member
    exact Or.inl member

theorem reaches_ended_of_closing {result : WorkerResult}
    (closing : state.worker = .closing result) :
    ∃ final, Reached step FreshId state final ∧ final.worker = .ended result := by
  have stepped : state.step .finish =
      some { state with queue := [], worker := .ended result } := by
    simp only [ClientState.step, ClientState.teardownStep, closing]
  have permitted : FreshId state .finish := trivial
  exact ⟨_, Reached.start.next permitted stepped, rfl⟩

/-- Queued requests are answered one after the other. -/
theorem reaches_ended_of_draining {result : WorkerResult} {queue : List Nat}
    (draining : state.worker = .draining result)
    (queued : state.queue = queue) :
    ∃ final, Reached step FreshId state final ∧ final.worker = .ended result := by
  induction queue generalizing state with
  | nil =>
      have stepped : state.step .queueDone = some { state with worker := .closing result } := by
        simp only [ClientState.step, ClientState.teardownStep, draining, queued]
      obtain ⟨final, reached, ended⟩ := reaches_ended_of_closing
        (rfl : ({ state with worker := .closing result } :
          ClientState Address).worker = .closing result)
      exact ⟨final, (Reached.start.next trivial stepped).trans reached, ended⟩
  | cons call rest ih =>
      obtain ⟨next, stepped, same, shorter⟩ : ∃ next, state.step .drainQueued = some next ∧
            next.worker = .draining result ∧ next.queue = rest := by
        refine ⟨({ state with queue := rest } :
          ClientState Address).trySend call (.teardown (leftError result))
            (.error (leftError result)), ?_, ?_, ?_⟩
        · simp only [ClientState.step, ClientState.teardownStep, draining, queued]
        · rw [trySend_worker]
          exact draining
        · rw [trySend_queue]
      obtain ⟨final, reached, ended⟩ := ih same shorter
      exact ⟨final, (Reached.start.next trivial stepped).trans reached, ended⟩

/-- Pending callbacks are answered one after the other. -/
theorem reaches_ended_of_failing {result : WorkerResult} {count : Nat}
    (failing : state.worker = .failing result)
    (left : state.pending.keys.length = count) :
    ∃ final, Reached step FreshId state final ∧ final.worker = .ended result := by
  induction count generalizing state with
  | zero =>
      have empty := List.length_eq_zero_iff.mp left
      have stepped : state.step .pendingDone =
          some { state with worker := .draining result } := by
        simp only [ClientState.step, ClientState.teardownStep, failing, empty, if_true]
      obtain ⟨final, reached, ended⟩ := reaches_ended_of_draining
        (rfl : ({ state with worker := .draining result } :
          ClientState Address).worker = .draining result) rfl
      exact ⟨final, (Reached.start.next trivial stepped).trans reached, ended⟩
  | succ count ih =>
      obtain ⟨id, member⟩ := List.exists_mem_of_length_pos
        (by rw [left]; exact Nat.succ_pos count)
      obtain ⟨call, found⟩ := exists_lookup_of_mem (AList.mem_keys.mpr member)
      obtain ⟨next, stepped, same, fewer⟩ : ∃ next, state.step (.failPending id) = some next ∧
            next.worker = .failing result ∧
            next.pending.keys.length = count := by
        refine ⟨({ state with pending := state.pending.erase id } :
          ClientState Address).trySend call (.teardown (leftError result))
            (.error (leftError result)), ?_, ?_, ?_⟩
        · simp only [ClientState.step, ClientState.teardownStep, failing, found]
        · rw [trySend_worker]
          exact failing
        · rw [trySend_pending]
          have before := length_keys_erase_of_lookup found
          rw [left] at before
          exact (Nat.succ.inj before).symm
      obtain ⟨final, reached, ended⟩ := ih same fewer
      exact ⟨final, (Reached.start.next trivial stepped).trans reached, ended⟩

/-- A loop that has ended leads to the end of the worker. -/
theorem reaches_ended {result : WorkerResult} (ended : state.worker.result = some result) :
    ∃ final, Reached step FreshId state final ∧ final.worker = .ended result := by
  cases phase : state.worker with
  | ending reason =>
      rw [phase] at ended
      cases ended
      have stepped : state.step .cancelToken =
          some { state with cancelled := true, worker := .failing result } := by
        simp only [ClientState.step, ClientState.teardownStep, phase]
      obtain ⟨final, reached, stopped⟩ := reaches_ended_of_failing
        (rfl : ({ state with
          cancelled := true
          worker := .failing result } : ClientState Address).worker = .failing result) rfl
      exact ⟨final, (Reached.start.next trivial stepped).trans reached, stopped⟩
  | failing reason =>
      rw [phase] at ended
      cases ended
      exact reaches_ended_of_failing phase rfl
  | draining reason =>
      rw [phase] at ended
      cases ended
      exact reaches_ended_of_draining phase rfl
  | closing reason =>
      rw [phase] at ended
      cases ended
      exact reaches_ended_of_closing phase
  | ended reason =>
      rw [phase] at ended
      cases ended
      exact ⟨state, Reached.start, phase⟩
  | connecting | running | submitting | killed =>
      rw [phase] at ended
      cases ended

/-- A response has been put into the callback of the call. -/
def Responded (state : ClientState Address) (call : Nat) : Prop :=
  ∃ delivery ∈ state.deliveries, delivery.call = call ∧
    ∃ answers id, delivery.origin = .response answers id

theorem not_responded_step {action : ClientAction Address}
    (stepped : state.step action = some next)
    (stopped : next.worker.IsOver = true) {call : Nat}
    (silent : ¬state.Responded call) : ¬next.Responded call := by
  rintro ⟨delivery, member, same, answers, id, origin⟩
  rcases deliveries_step stepped stopped delivery member with before | left
  · exact silent ⟨delivery, before, same, answers, id, origin⟩
  · obtain ⟨error, teardown⟩ := left
    rw [origin] at teardown
    cases teardown

/-- Once the loop has ended nobody gets a response any more. -/
theorem not_responded_run {later : ClientState Address}
    {guard : ClientState Address → ClientAction Address → Prop}
    (reached : Reached step guard state later)
    (stopped : state.worker.IsOver = true) {call : Nat}
    (silent : ¬state.Responded call) :
    later.worker.IsOver = true ∧ ¬later.Responded call := by
  induction reached with
  | start => exact ⟨stopped, silent⟩
  | next _ _ stepped ih =>
      obtain ⟨before, unanswered⟩ := ih
      have after := isOver_step stepped before
      exact ⟨after, not_responded_step stepped after unanswered⟩

theorem result_run {later : ClientState Address}
    {guard : ClientState Address → ClientAction Address → Prop}
    (reached : Reached step guard state later) {result : WorkerResult}
    (ended : state.worker.result = some result) :
    later.worker.result = some result := by
  induction reached with
  | start => exact ended
  | next _ _ stepped ih => exact result_step stepped ih

namespace WorkerInvariant

/-- What has been delivered is a response or an error. -/
theorem error_or_response (holds : state.WorkerInvariant)
    {delivery : Delivery Address} (member : delivery ∈ state.deliveries) :
    (∃ error, delivery.content = .error error) ∨
      ∃ id, delivery.origin = .response (some delivery.call) id := by
  cases source : delivery.origin with
  | response answers id =>
      have own := (holds.owns.own delivery member answers id source).1
      exact Or.inr ⟨id, by rw [own]⟩
  | teardown error => exact Or.inl ⟨error, (holds.ends.errors delivery member error source).1⟩

/-- A call completes with an error or with a response that was delivered to it. -/
theorem completion (holds : state.WorkerInvariant) {call : Nat}
    {response : RemoteResponse Address}
    (member : (call, response) ∈ state.completions) :
    (∃ error, response = .error error) ∨ ∃ delivery ∈ state.deliveries, delivery.call = call ∧
        delivery.content = response ∧
        ∃ id, delivery.origin = .response (some call) id := by
  rcases holds.completes.honest _ member with aborted | late | delivered
  · exact Or.inl ⟨_, aborted⟩
  · exact Or.inl ⟨_, late⟩
  · obtain ⟨delivery, present, same, content⟩ := delivered
    rcases holds.error_or_response present with failed | answered
    · obtain ⟨error, failed⟩ := failed
      exact Or.inl ⟨error, content.symm.trans failed⟩
    · obtain ⟨id, origin⟩ := answered
      rw [same] at origin
      exact Or.inr ⟨delivery, present, same, content, id, origin⟩

theorem error_of_not_responded (holds : state.WorkerInvariant) {call : Nat}
    {response : RemoteResponse Address}
    (member : (call, response) ∈ state.completions)
    (silent : ¬state.Responded call) :
    ∃ error, response = .error error := by
  rcases holds.completion member with failed | answered
  · exact failed
  · obtain ⟨delivery, present, same, -, id, origin⟩ := answered
    exact absurd ⟨delivery, present, same, _, id, origin⟩ silent

/-- Unsent, queued and pending requests have not been answered. -/
theorem not_responded (holds : state.WorkerInvariant) {call : Nat}
    (left : (state.calls call).IsUnsent = true ∨ call ∈ state.queue ++ values state.pending) :
    ¬state.Responded call := by
  rintro ⟨delivery, member, rfl, -⟩
  have delivered : delivery.call ∈ state.deliveries.map Delivery.call :=
    List.mem_map_of_mem member
  rcases left with unsent | held
  · exact (holds.owns.sent delivery.call unsent).2.2 delivered
  · exact holds.owns.undelivered delivery.call held delivered

/-- The receiver of the queue is gone only behind the end of the worker. -/
theorem empty_of_gone (holds : state.WorkerInvariant) (gone : state.receiverAlive = false) :
    state.queue = [] ∧ state.pending = ∅ := by
  apply holds.ends.gone
  unfold ClientState.receiverAlive at gone
  split at gone
  case h_1 result ended => exact Or.inr ⟨result, ended⟩
  case h_2 killed => exact Or.inl killed
  case h_3 => cases gone

/-- When the worker has ended, a call that still runs can complete. -/
theorem completes_of_gone (holds : state.WorkerInvariant)
    (gone : state.receiverAlive = false) {call : Nat}
    (running : (state.calls call).IsOpen = true) :
    ∃ action next response, FreshId state action ∧ state.step action = some next ∧
      next.completions = state.completions ++ [(call, response)] := by
  obtain ⟨unqueued, unpending⟩ := holds.empty_of_gone gone
  cases phase : state.calls call with
  | sending =>
      refine ⟨.refuse call, state.fail call .communicatorAborted, _, trivial, ?_, rfl⟩
      simp only [ClientState.step, ClientState.callerStep, phase, gone,
        Bool.false_eq_true, if_false]
  | waiting =>
      cases callback : state.callbacks call with
      | some content =>
          refine ⟨.receive call, state.complete call content, _, trivial, ?_,
            rfl⟩
          simp only [ClientState.step, ClientState.callerStep, phase, callback]
      | none =>
          have nowhere : ¬(call ∈ state.queue ∨ call ∈ values state.pending) := by
            rw [unqueued, unpending]
            rintro (absent | absent) <;> cases absent
          refine ⟨.hangUp call, state.fail call .communicatorAborted, _,
            trivial, ?_, rfl⟩
          simp only [ClientState.step, ClientState.callerStep, phase, callback, if_neg nowhere]
  | idle | completed | dropped =>
      rw [phase] at running
      cases running

/-- A response to a call that has been answered, or to none, ends the loop. -/
theorem respond_unsolicited (holds : state.WorkerInvariant)
    (running : state.worker = .running) {answers : Option Nat}
    {id : RequestId} (credible : state.Plausible answers id)
    (unsolicited : ∀ call ∈ answers, call ∈ state.answered)
    (content : RemoteResponse Address) :
    state.step (.respond answers id content) =
      some { state with
        worker := .ending (.error .wrongOrchestratorResponse) } := by
  have absent : state.pending.lookup id = none := by
    cases found : state.pending.lookup id with
    | none => rfl
    | some call =>
        obtain ⟨given, waiting⟩ := holds.owns.taken id call found
        have same := holds.answers_eq credible given
        exact absurd (unsolicited call same) waiting
  simp only [ClientState.step, ClientState.workerStep, running, if_pos credible, absent]

end WorkerInvariant

theorem workerInvariant_run {later : ClientState Address}
    (reached : Reached step FreshId state later)
    (holds : state.WorkerInvariant) : later.WorkerInvariant := by
  apply reached.invariant holds
  intro before action after invariant fresh stepped
  exact invariant.step fresh stepped

end ClientState

/-- In every run that does not come back to an id: calls complete at most once and
callbacks are filled at most once; a response is delivered to the call that was given
its id, and a call completes with an error or with its response; a response to an
answered call, or to none, ends the loop and changes nothing else; a loop that has
ended keeps its result and leads to the end of the worker; and what is unsent, queued
or pending when the loop has ended completes with an error. -/
theorem requests_completed_once (counter : RequestId) {state : ClientState Address}
    (reached : Reached ClientState.step FreshId (ClientState.start counter) state) :
    (state.completions.map Prod.fst).Nodup ∧ (state.deliveries.map Delivery.call).Nodup ∧
      (∀ delivery ∈ state.deliveries, ∀ answers id, delivery.origin = .response answers id →
          answers = some delivery.call ∧ (delivery.call, id) ∈ state.assigned) ∧
      (∀ call response, (call, response) ∈ state.completions →
        (∃ error, response = .error error) ∨ ∃ delivery ∈ state.deliveries, delivery.call = call ∧
            delivery.content = response ∧
            ∃ id, delivery.origin = .response (some call) id) ∧
      (∀ answers id content, state.worker = .running → state.Plausible answers id →
        (∀ call ∈ answers, call ∈ state.answered) → state.step (.respond answers id content) =
            some { state with
              worker := .ending (.error .wrongOrchestratorResponse) }) ∧
      (∀ result, state.worker.result = some result →
        (∀ later, Reached ClientState.step FreshId state later →
          later.worker.result = some result) ∧
          ∃ final, Reached ClientState.step FreshId state final ∧ final.worker = .ended result) ∧
      ∀ call, ((state.calls call).IsUnsent ∨ call ∈ state.queue ++ values state.pending) →
        ∀ action next, FreshId state action → state.step action = some next → next.worker.IsOver →
          ∀ later, Reached ClientState.step FreshId next later →
            (∀ response, (call, response) ∈ later.completions →
              ∃ error, response = .error error) ∧
              (later.receiverAlive = false → (later.calls call).IsOpen →
                ∃ last final error, FreshId later last ∧ later.step last = some final ∧
                  final.completions = later.completions ++ [(call, .error error)]) := by
  have holds : state.WorkerInvariant := ClientState.workerInvariant_run reached
      (ClientState.WorkerInvariant.start counter)
  refine ⟨holds.completes.once, holds.owns.deliveredOnce, holds.owns.own,
    fun call response member => holds.completion member,
    fun answers id content running credible unsolicited =>
      holds.respond_unsolicited running credible unsolicited content,
    fun result ended => ⟨fun later further =>
      ClientState.result_run further ended, ClientState.reaches_ended ended⟩,
    ?_⟩
  intro call left action next fresh stepped stopped later further
  have silent := ClientState.not_responded_step stepped stopped (holds.not_responded left)
  obtain ⟨stillOver, unanswered⟩ := ClientState.not_responded_run further stopped silent
  have after : later.WorkerInvariant :=
    ClientState.workerInvariant_run further (holds.step fresh stepped)
  refine ⟨fun response member =>
    after.error_of_not_responded member unanswered, ?_⟩
  intro gone running
  obtain ⟨last, final, response, permitted, completed, appended⟩ :=
    after.completes_of_gone gone running
  have behind : final.WorkerInvariant := after.step permitted completed
  have member : (call, response) ∈ final.completions := by
    rw [appended]
    exact List.mem_append_right _ (List.mem_singleton_self _)
  have never := ClientState.not_responded_step completed
    (ClientState.isOver_step completed stillOver) unanswered
  obtain ⟨error, same⟩ := behind.error_of_not_responded member never
  exact ⟨last, final, error, permitted, completed, same ▸ appended⟩

/-- A first request and its response. -/
def firstRequest (call : Nat) (id : RequestId) : List (ClientAction Nat) :=
  [.call call, .enqueue call, .take, .submitted,
    .respond (some call) id .finishAck, .receive call]

/-- One request is answered, a second one is still pending. -/
theorem requests_completed_once_second :
    let state := (follow ClientState.step FreshId (ClientState.start 4294967295)
      (.connected :: firstRequest 0 4294967295 ++ [.call 1, .enqueue 1, .take, .submitted])).getD
      (ClientState.start 0)
    state.step (.respond (some 0) 4294967295 .finishAck) =
      some { state with
        worker := .ending (.error .wrongOrchestratorResponse) } := by
  have possible : (follow ClientState.step FreshId (ClientState.start 4294967295)
      (.connected :: firstRequest 0 4294967295 ++
        [.call 1, .enqueue 1, .take, .submitted])).isSome = true := by
    decide
  have reached := Reached.of_follow_isSome (ClientState.start 0) possible
  obtain ⟨-, -, -, -, unsolicited, -⟩ := requests_completed_once 4294967295 reached
  exact unsolicited _ _ _ rfl (by decide) (by decide)

/-- After 2^32 draws the duplicate of an old response completes another call. -/
theorem duplicate_response_completes_other :
    (follow ClientState.step (fun _ _ => True) (ClientState.start 0)
      (.connected :: firstRequest 0 0 ++
        [.drawElsewhere 4294967295, .call 1, .enqueue 1, .take, .submitted,
          .respond (some 0) 0 .finishAck, .receive 1])).map
      (fun state => (state.worker, state.answered, state.deliveries.map fun delivery =>
          (delivery.call, delivery.origin))) =
      some (.running, [0, 1], [(0, .response (some 0) 0), (1, .response (some 0) 0)]) := by
  rfl

end RuCCL.Global
