import RuCCL.Rank.CollectiveLoop
import RuCCL.Rank.RoutingCorrect

/-!
# Answers of the collective loop

A call that returns a response should have received the answer to the very
request it wrote.  This holds as long as no session is used again after one of
its calls failed in the read: such a call leaves its sequence in place, and the
late answer to the abandoned request passes every check of the next call.
-/

namespace RuCCL.Rank

open RuCCL.Library

/-- When the last missing requests are accepted, the sequence is done and
nothing stays pending. -/
theorem submitRequests_advances {uniqueId : UniqueId} {sequence : UInt64} {worldSize : Nat}
    (requests : List Frame) (nonempty : requests ≠ []) :
    ∀ {agreement final : CollectiveAgreement} {rank : Nat}, agreement.Consistent →
      rank + requests.length = agreement.worldSize →
      (∀ later ≥ rank, agreement.recorded later = none) →
      (∀ earlier < rank, agreement.recorded earlier ≠ none) →
      submitRequests uniqueId sequence worldSize agreement rank requests = (final, .ok ()) →
      agreement.nextSequence.toNat + 1 < wordSize ∧
        final.nextSequence = agreement.nextSequence + 1 ∧
        final.worldSize = agreement.worldSize ∧
        ∀ pending, final.pending pending = none := by
  induction requests with
  | nil => exact absurd rfl nonempty
  | cons request rest ih =>
      intro agreement final rank consistent covers fresh before submitted
      rw [List.length_cons] at covers
      simp only [submitRequests] at submitted
      split at submitted
      · cases submitted
      split at submitted
      · cases submitted
      have cases_ := CollectiveAgreement.submitCall_cases consistent
        ⟨rank, sequence, requestDescriptor request.header⟩
      have kept := CollectiveAgreement.consistent_submitCall consistent
        ⟨rank, sequence, requestDescriptor request.header⟩
      simp only [CollectiveAgreement.submitCall] at cases_ kept
      rcases cases_ with ⟨failure, _, rejected, _⟩ | ⟨acceptable, outcome⟩
      · rw [rejected] at submitted
        cases submitted
      rcases outcome with
        ⟨others, room, moved⟩ | ⟨_, _, overflow⟩ | ⟨missing, stored⟩
      · rw [moved] at submitted
        -- every other rank is recorded, so this request is the last one
        have last : rest = [] := by
          by_contra more
          have inside : rank + 1 < agreement.worldSize := by
            have := List.length_pos_iff.mpr more
            omega
          exact others (rank + 1) inside (Nat.succ_ne_self rank)
            (fresh (rank + 1) (Nat.le_succ rank))
        rw [last] at submitted
        cases submitted
        exact ⟨room, rfl, rfl, CollectiveAgreement.pending_none_of_cleared consistent⟩
      · rw [overflow] at submitted
        cases submitted
      · rw [stored] at submitted kept
        dsimp only at submitted kept
        have more : rest ≠ [] := by
          intro last
          apply missing
          intro other inside different
          apply before
          rw [last, List.length_nil] at covers
          have : other ≠ rank := different
          omega
        have found := CollectiveAgreement.recorded_stored consistent acceptable.1
        have tail := ih more kept
          (show rank + 1 + rest.length = agreement.worldSize by omega)
          (fun later bound => by
            rw [found, if_neg (by
              change later ≠ rank
              omega)]
            exact fresh later (by omega))
          (fun earlier bound => by
            rw [found]
            split
            · simp
            · rename_i different
              have : earlier ≠ rank := different
              exact before earlier (by omega))
          submitted
        exact tail

/-- A full round on an idle agreement that is routed advances it by one. -/
theorem validateAndRoute_advances
    {checksum : List UInt8 → UInt32} {agreement : CollectiveAgreement}
    {uniqueId : UniqueId} {sequence : UInt64} {requests responses : List Frame}
    (nonempty : requests ≠ [])
    (full : requests.length = agreement.worldSize)
    (idle : ∀ pending, agreement.pending pending = none)
    (routed : (validateAndRoute checksum agreement uniqueId sequence
      requests).2 = .ok responses) :
    let final := (validateAndRoute checksum agreement uniqueId sequence requests).1
    agreement.nextSequence.toNat + 1 < wordSize ∧
      final.nextSequence = agreement.nextSequence + 1 ∧
      final.worldSize = agreement.worldSize ∧
      ∀ pending, final.pending pending = none := by
  cases submitted : submitRequests uniqueId sequence requests.length agreement 0 requests with
  | mk after outcome =>
      cases outcome with
      | error failure => simp [validateAndRoute, submitted] at routed
      | ok _ =>
          have advanced := submitRequests_advances requests nonempty
            (CollectiveAgreement.consistent_of_pending_none idle)
            (by omega)
            (fun later _ => CollectiveAgreement.recorded_of_pending_none (idle _) later)
            (fun earlier bound => absurd bound (Nat.not_lt_zero earlier))
            submitted
          simpa [validateAndRoute, submitted] using advanced

section Loop

variable (checksum : List UInt8 → UInt32) (uniqueId : UniqueId)
variable (worldSize : Nat)

/-- `response` is what routing `round` gave to the rank of `request`, and
`round` holds this very request and one request of every rank, all with its
sequence. -/
structure OwnRound (request : Request) (response : Frame) (round : List Request) :
    Prop where
  own : round[request.rank]? = some request
  ranks : round.map Request.rank = List.range worldSize
  sequences : ∀ other ∈ round, other.frame.header.sequence = request.frame.header.sequence
  routed : ∃ agreement responses,
    (validateAndRoute checksum agreement uniqueId
      request.frame.header.sequence (round.map Request.frame)).2 = .ok responses ∧
    responses[request.rank]? = some response

/-- A call that returned a response got the one of its own round. -/
def AnswersOwnRequest (entry : Returned) : Prop := ∀ response, entry.result = .ok response →
    ∃ round, entry.round = some round ∧
      OwnRound checksum uniqueId worldSize entry.request response round

/-- No session is used again after a call failed in its read. -/
def LeavesFailedSessions (state : CollectiveState) (action : CollectiveAction) : Prop :=
  match action with
  | .call rank _ => (state.clients rank).readFailed = false
  | _ => True

instance (state : CollectiveState) (action : CollectiveAction) :
    Decidable (LeavesFailedSessions state action) :=
  match action with
  | .call rank _ => inferInstanceAs (Decidable ((state.clients rank).readFailed = false))
  | .read _ | .readTorn _ _ | .failRead _ _ _ | .readClosed _ | .forward _
  | .collect _ | .route _ _ | .stop _ => inferInstanceAs (Decidable True)

/-- The requests of a rank that no round has taken, oldest first. -/
def CollectiveState.unrouted (state : CollectiveState) (rank : Nat) :
    List Request :=
  (state.requests rank).toList ++ state.events.filter (fun request => request.rank = rank) ++
    state.submitted rank

/-- An answer of the request's own round that its call will accept. -/
structure Accepted (request : Request) (answer : Answer) : Prop where
  own : ∃ round, answer.round = some round ∧
    OwnRound checksum uniqueId worldSize request answer.frame round
  finishes :
    request.call.finish uniqueId (UInt32.ofNat request.rank)
        (UInt32.ofNat worldSize) request.frame.header.sequence
        answer.frame =
      .ok (request.frame.header.sequence + 1, answer.frame)

/-- A request of `rank` for the round with the given sequence. -/
structure Current (sequence : UInt64) (rank : Nat) (request : Request) :
    Prop where
  rank : request.rank = rank
  sequence : request.frame.header.sequence = sequence
  timeout : ∀ timeoutMs, request.call = .setTimeout timeoutMs →
    request.frame.header.opcode = .setTimeout

/-- A session and a running coordinator agree on the next round. -/
inductive InStep (client : Client) (unrouted : List Request) (answers : List Answer)
    (coordinator : UInt64) (rank : Nat) : Prop
  | idle (free : client.waiting = none) (noRequest : unrouted = []) (noAnswer : answers = [])
      (aligned : client.nextSequence = coordinator)
  | requested (request : Request) (busy : client.waiting = some request)
      (current : Current coordinator rank request)
      (oneRequest : unrouted = [request]) (noAnswer : answers = [])
      (aligned : client.nextSequence = coordinator)
  | answered (request : Request) (answer : Answer) (busy : client.waiting = some request)
      (current : Current client.nextSequence rank request)
      (accepted : Accepted checksum uniqueId worldSize request answer)
      (noRequest : unrouted = []) (oneAnswer : answers = [answer])
      (aligned : client.nextSequence + 1 = coordinator)

/-- What holds of a rank while the coordinator runs. -/
def Live (client : Client) (unrouted : List Request) (answers : List Answer)
    (coordinator : UInt64) (rank : Nat) : Prop :=
  (client.readFailed = true ∧ client.waiting = none ∧
    (unrouted = [] ∨ ∃ request, Current coordinator rank request ∧ unrouted = [request])) ∨
  (client.readFailed = false ∧ client.torn = false ∧
    InStep checksum uniqueId worldSize client unrouted answers coordinator rank)

/-- Only broadcasts of the end are left. -/
def OnlyAborts (answers : List Answer) : Prop :=
  ∀ answer ∈ answers, answer.frame.header.opcode = .abort

/-- What holds of a rank once the coordinator has stopped. -/
def Halted (client : Client) (answers : List Answer) (rank : Nat) : Prop :=
  (client.readFailed = true ∧ client.waiting = none) ∨
  (client.readFailed = false ∧ client.torn = false ∧
    (OnlyAborts answers ∨ ∃ request answer rest, client.waiting = some request ∧
        Current client.nextSequence rank request ∧
        Accepted checksum uniqueId worldSize request answer ∧
        answers = answer :: rest ∧ OnlyAborts rest))

/-- The running coordinator waits for the next round of all ranks. -/
structure Running (state : CollectiveState) : Prop where
  world : state.agreement.worldSize = worldSize
  idle : ∀ pending, state.agreement.pending pending = none
  known : ∀ request ∈ state.events, request.rank < worldSize
  live : ∀ rank < worldSize, Live checksum uniqueId worldSize (state.clients rank)
      (state.unrouted rank) (state.answers rank)
      state.agreement.nextSequence rank

structure LoopInvariant (state : CollectiveState) : Prop where
  answered : ∀ entry ∈ state.returned, AnswersOwnRequest checksum uniqueId worldSize entry
  outside : ∀ rank ≥ worldSize, (state.clients rank).waiting = none
  running : state.stopped = false → Running checksum uniqueId worldSize state
  halted : state.stopped = true → ∀ rank < worldSize,
    Halted checksum uniqueId worldSize (state.clients rank) (state.answers rank) rank

variable {checksum uniqueId worldSize}

theorem current_of_request {rank number : Nat} {world : UInt32} {sequence : UInt64} {call : Call}
    {frame : Frame}
    (built : call.request checksum uniqueId (UInt32.ofNat rank) world sequence = .ok frame) :
    Current sequence rank ⟨rank, number, call, frame⟩ := by
  have meets := Frame.builtFrom_of_new checksum built
  refine ⟨rfl, ?_, ?_⟩
  · rw [meets.sequence]
    cases call <;> rfl
  · intro timeoutMs isTimeout
    dsimp only at isTimeout
    rw [meets.opcode, isTimeout]
    rfl

theorem Call.finish_abort {response : Frame} (call : Call) (uniqueId : UniqueId)
    (rank world : UInt32) (sequence : UInt64)
    (abort : response.header.opcode = .abort) :
    ∃ failure, call.finish uniqueId rank world sequence response =
      .error failure := by
  cases result : call.finish uniqueId rank world sequence response with
  | error failure => exact ⟨failure, rfl⟩
  | ok value =>
      simp [Call.finish, bind_eq_ok_iff, rejectIf_eq_ok_iff, abort] at result

theorem abortFrame_opcode {sequence : UInt64} {destination world : UInt32}
    {message : List UInt8} {frame : Frame}
    (built : abortFrame checksum uniqueId sequence destination world message = .ok frame) :
    frame.header.opcode = .abort :=
  (Frame.builtFrom_of_new checksum built).opcode

/-- A response to a round is accepted by the call that wrote its request. -/
theorem Call.finish_of_responds {requests : List Frame} {sequence : UInt64} {rank : Nat}
    {request : FrameHeader} {response : Frame} {call : Call}
    (responds : Responds checksum uniqueId requests sequence request rank response)
    (opcode : ∀ timeoutMs, call = .setTimeout timeoutMs → request.opcode = .setTimeout)
    (room : sequence.toNat + 1 < wordSize) :
    call.finish uniqueId (UInt32.ofNat rank) (UInt32.ofNat requests.length) sequence response =
      .ok (sequence + 1, response) := by
  have world : response.header.worldSize = UInt32.ofNat requests.length := by
    rw [← responds.world, UInt32.ofNat_toNat]
  have destination : response.header.destinationRank = UInt32.ofNat rank := by
    rw [← responds.destination, UInt32.ofNat_toNat]
  have notAbort : response.header.opcode ≠ .abort := by
    intro abort
    have promised := responds.promised
    rw [responds.opcode] at abort
    simp [Promised, abort] at promised
  have checked : call.checkResponse response = .ok () := by
    cases call with
    | exchange opcode elementType options payload => rfl
    | setTimeout timeoutMs =>
        have setsTimeout := opcode timeoutMs rfl
        have promised := responds.promised
        simp only [Promised, setsTimeout] at promised
        simp [Call.checkResponse, rejectIf_eq_ok_iff, responds.opcode, setsTimeout, promised]
  have next : UInt64.ofNat (sequence.toNat + 1) = sequence + 1 := by
    rw [UInt64.ofNat_add, UInt64.ofNat_toNat]
    rfl
  have added : checkedAdd sequence.toNat 1 = some (sequence.toNat + 1) :=
    (checkedAdd_eq_some_iff _ _ _).mpr ⟨room, rfl⟩
  simp [Call.finish, validateResponse, bind_eq_ok_iff, rejectIf_eq_ok_iff,
    responds.session, world, destination, responds.sequence, notAbort,
    checked, okOr, added, next]

theorem Live.halted {client : Client} {unrouted : List Request} {answers : List Answer}
    {coordinator : UInt64} {rank : Nat}
    (live : Live checksum uniqueId worldSize client unrouted answers coordinator rank) :
    Halted checksum uniqueId worldSize client answers rank := by
  rcases live with ⟨failed, free, _⟩ | ⟨intact, whole, inStep⟩
  · exact Or.inl ⟨failed, free⟩
  · refine Or.inr ⟨intact, whole, ?_⟩
    rcases inStep with
      ⟨_, _, noAnswer, _⟩ | ⟨_, _, _, _, noAnswer, _⟩ |
      ⟨request, answer, busy, current, accepted, _, oneAnswer, _⟩
    · left
      simp [OnlyAborts, noAnswer]
    · left
      simp [OnlyAborts, noAnswer]
    · right
      exact ⟨request, answer, [], busy, current, accepted, oneAnswer,
        by simp [OnlyAborts]⟩

theorem OnlyAborts.append {answers extra : List Answer} (first : OnlyAborts answers)
    (second : OnlyAborts extra) : OnlyAborts (answers ++ extra) := by
  intro answer member
  rcases List.mem_append.mp member with early | late
  · exact first answer early
  · exact second answer late

theorem Halted.append {client : Client} {answers extra : List Answer} {rank : Nat}
    (halted : Halted checksum uniqueId worldSize client answers rank)
    (aborts : OnlyAborts extra) :
    Halted checksum uniqueId worldSize client (answers ++ extra) rank := by
  rcases halted with abandoned | ⟨intact, whole, left⟩
  · exact Or.inl abandoned
  · refine Or.inr ⟨intact, whole, ?_⟩
    rcases left with only | ⟨request, answer, rest, busy, current, accepted, split, only⟩
    · left
      exact only.append aborts
    · right
      refine ⟨request, answer, rest ++ extra, busy, current, accepted, ?_, only.append aborts⟩
      rw [split, List.cons_append]

/-- Leaving the loop appends nothing but the broadcast. -/
theorem leave_answers (state : CollectiveState) (message : Option (List UInt8)) (rank : Nat) :
    ∃ extra, OnlyAborts extra ∧ (state.leave checksum uniqueId worldSize message).answers rank =
        state.answers rank ++ extra := by
  cases message with
  | none => exact ⟨[], by simp [OnlyAborts], by simp [CollectiveState.leave]⟩
  | some text =>
      refine ⟨_, ?_, rfl⟩
      intro answer member
      by_cases inside : rank < worldSize
      · cases built : abortFrame checksum uniqueId state.activeSequence
            (UInt32.ofNat rank) (UInt32.ofNat worldSize) text with
        | error failure => simp [inside, built] at member
        | ok frame =>
            simp only [inside, if_true, built, Option.toList_some, List.mem_singleton] at member
            rw [member]
            exact abortFrame_opcode built
      · simp [inside] at member

/-- A state that leaves the loop keeps the invariant when every rank is ready
for the end. -/
theorem loopInvariant_leave {state : CollectiveState} (message : Option (List UInt8))
    (answered : ∀ entry ∈ state.returned, AnswersOwnRequest checksum uniqueId worldSize entry)
    (outside : ∀ rank ≥ worldSize, (state.clients rank).waiting = none)
    (halted : ∀ rank < worldSize, Halted checksum uniqueId worldSize (state.clients rank)
        (state.answers rank) rank) :
    LoopInvariant checksum uniqueId worldSize
      (state.leave checksum uniqueId worldSize message) := by
  have stopped : (state.leave checksum uniqueId worldSize message).stopped = true := by
    cases message <;> rfl
  have clients : (state.leave checksum uniqueId worldSize message).clients = state.clients := by
    cases message <;> rfl
  have returned : (state.leave checksum uniqueId worldSize
      message).returned = state.returned := by
    cases message <;> rfl
  refine ⟨?_, ?_, ?_, ?_⟩
  · rw [returned]
    exact answered
  · rw [clients]
    exact outside
  · intro running
    rw [stopped] at running
    cases running
  · intro _ rank inside
    obtain ⟨extra, aborts, appended⟩ :=
      @leave_answers checksum uniqueId worldSize state message rank
    rw [clients, appended]
    exact (halted rank inside).append aborts

/-- `next` differs from `state` only in what concerns `rank`. -/
structure ConcernsOnly (rank : Nat) (state next : CollectiveState) : Prop where
  stopped : next.stopped = state.stopped
  agreement : next.agreement = state.agreement
  clients : ∀ other ≠ rank, next.clients other = state.clients other
  unrouted : ∀ other ≠ rank, next.unrouted other = state.unrouted other
  answers : ∀ other ≠ rank, next.answers other = state.answers other

/-- A step that concerns one rank keeps the invariant when it keeps that rank's
part of it. -/
theorem LoopInvariant.of_concernsOnly {state next : CollectiveState} {rank : Nat}
    (invariant : LoopInvariant checksum uniqueId worldSize state)
    (inside : rank < worldSize) (change : ConcernsOnly rank state next)
    (answered : ∀ entry ∈ next.returned, AnswersOwnRequest checksum uniqueId worldSize entry)
    (known : Running checksum uniqueId worldSize state →
      ∀ request ∈ next.events, request.rank < worldSize)
    (live : state.stopped = false → Live checksum uniqueId worldSize (state.clients rank)
        (state.unrouted rank) (state.answers rank)
        state.agreement.nextSequence rank →
      Live checksum uniqueId worldSize (next.clients rank)
        (next.unrouted rank) (next.answers rank)
        state.agreement.nextSequence rank)
    (halted : state.stopped = true → Halted checksum uniqueId worldSize (state.clients rank)
        (state.answers rank) rank →
      Halted checksum uniqueId worldSize (next.clients rank) (next.answers rank) rank) :
    LoopInvariant checksum uniqueId worldSize next := by
  refine ⟨answered, ?_, ?_, ?_⟩
  · intro other beyond
    rw [change.clients other (by omega)]
    exact invariant.outside other beyond
  · intro running
    rw [change.stopped] at running
    have before := invariant.running running
    refine ⟨?_, ?_, known before, ?_⟩
    · rw [change.agreement]
      exact before.world
    · rw [change.agreement]
      exact before.idle
    · intro other bound
      rw [change.agreement]
      by_cases same : other = rank
      · rw [same]
        exact live running (before.live rank inside)
      · rw [change.clients other same, change.unrouted other same, change.answers other same]
        exact before.live other bound
  · intro ended other bound
    rw [change.stopped] at ended
    by_cases same : other = rank
    · rw [same]
      exact halted ended (invariant.halted ended rank inside)
    · rw [change.clients other same, change.answers other same]
      exact invariant.halted ended other bound

/-- A waiting call belongs to a rank of the world. -/
theorem LoopInvariant.inside_of_waiting {state : CollectiveState} {rank : Nat} {request : Request}
    (invariant : LoopInvariant checksum uniqueId worldSize state)
    (busy : (state.clients rank).waiting = some request) :
    rank < worldSize := by
  by_contra beyond
  rw [invariant.outside rank (by omega)] at busy
  cases busy

/-- A waiting call reads from an intact stream. -/
theorem LoopInvariant.intact_of_waiting {state : CollectiveState} {rank : Nat} {request : Request}
    (invariant : LoopInvariant checksum uniqueId worldSize state)
    (busy : (state.clients rank).waiting = some request) :
    (state.clients rank).readFailed = false ∧ (state.clients rank).torn = false := by
  have inside := invariant.inside_of_waiting busy
  have halted : Halted checksum uniqueId worldSize (state.clients rank)
      (state.answers rank) rank := by
    cases ended : state.stopped with
    | true => exact invariant.halted ended rank inside
    | false => exact ((invariant.running ended).live rank inside).halted
  rcases halted with ⟨_, free⟩ | ⟨intact, whole, _⟩
  · rw [free] at busy
    cases busy
  · exact ⟨intact, whole⟩

/-- One more finished call that failed says nothing about responses. -/
theorem answered_append_error {returned : List Returned} {request : Request}
    {round : Option (List Request)} {failure : NetworkError}
    (answered : ∀ entry ∈ returned, AnswersOwnRequest checksum uniqueId worldSize entry) :
    ∀ entry ∈ returned ++ [⟨request, round, .error failure⟩],
      AnswersOwnRequest checksum uniqueId worldSize entry := by
  intro entry member
  rcases List.mem_append.mp member with early | late
  · exact answered entry early
  · rw [List.mem_singleton.mp late]
    intro response impossible
    cases impossible

/-- One more finished call with the answer of its own round. -/
theorem answered_append_ok {returned : List Returned} {request : Request} {answer : Answer}
    (answered : ∀ entry ∈ returned, AnswersOwnRequest checksum uniqueId worldSize entry)
    (accepted : Accepted checksum uniqueId worldSize request answer) :
    ∀ entry ∈ returned ++ [⟨request, answer.round, .ok answer.frame⟩],
      AnswersOwnRequest checksum uniqueId worldSize entry := by
  intro entry member
  rcases List.mem_append.mp member with early | late
  · exact answered entry early
  · rw [List.mem_singleton.mp late]
    intro response returns
    cases returns
    exact accepted.own

/-- A new request of an idle session joins the round under way. -/
theorem loopInvariant_callStep {state next : CollectiveState} {rank : Nat} {call : Call}
    (invariant : LoopInvariant checksum uniqueId worldSize state)
    (intact : (state.clients rank).readFailed = false)
    (stepped : callStep checksum uniqueId worldSize state rank call = some next) :
    LoopInvariant checksum uniqueId worldSize next := by
  unfold callStep at stepped
  dsimp only at stepped
  split at stepped
  case isFalse => cases stepped
  case isTrue entry =>
    obtain ⟨inside, free⟩ := entry
    split at stepped
    case h_1 =>
      cases stepped
      exact invariant
    case h_2 frame built =>
      cases stepped
      have current : Current (state.clients rank).nextSequence rank
          ⟨rank, (state.clients rank).calls, call, frame⟩ :=
        current_of_request built
      refine invariant.of_concernsOnly inside ?_ invariant.answered
        (fun running => running.known) ?_ ?_
      · refine ⟨rfl, rfl, ?_, ?_, fun _ _ => rfl⟩
        · intro other different
          exact Function.update_of_ne different _ _
        · intro other different
          simp [CollectiveState.unrouted, CollectiveState.setClient,
            Function.update_of_ne different]
      · intro _ live
        rcases live with ⟨failed, _⟩ | ⟨_, whole, inStep⟩
        · rw [failed] at intact
          cases intact
        rcases inStep with
          ⟨_, noRequest, noAnswer, aligned⟩ | ⟨_, busy, _⟩ | ⟨_, _, busy, _⟩
        · right
          simp only [CollectiveState.setClient, Function.update_self]
          refine ⟨intact, whole, .requested _ rfl ?_ ?_ noAnswer aligned⟩
          · rw [← aligned]
            exact current
          · simp only [CollectiveState.unrouted, List.append_eq_nil_iff] at noRequest
            simp [CollectiveState.unrouted, noRequest]
        · rw [free] at busy
          cases busy
        · rw [free] at busy
          cases busy
      · intro _ halted
        rcases halted with ⟨failed, _⟩ | ⟨_, whole, left⟩
        · rw [failed] at intact
          cases intact
        right
        simp only [CollectiveState.setClient, Function.update_self]
        refine ⟨intact, whole, ?_⟩
        rcases left with only | ⟨_, _, _, busy, _⟩
        · exact Or.inl only
        · rw [free] at busy
          cases busy

/-- A session that stays behind a read: the frame it took is gone, its own
stream is the only one that changed. -/
theorem concernsOnly_finished (state : CollectiveState) (rank : Nat) (client : Client)
    (rest : List Answer) (request : Request)
    (round : Option (List Request)) (result : Except NetworkError Frame) :
    ConcernsOnly rank state
      (({ state with
          answers := Function.update state.answers rank rest }.setClient
            rank client).finished request round result) := by
  refine ⟨rfl, rfl, ?_, fun _ _ => rfl, ?_⟩
  · intro other different
    exact Function.update_of_ne different _ _
  · intro other different
    exact Function.update_of_ne different _ _

/-- What a waiting call finds at the head of its stream is the accepted answer
of its own round or the broadcast of the end. -/
theorem LoopInvariant.head_answer {state : CollectiveState} {rank : Nat} {request : Request}
    {answer : Answer} {rest : List Answer}
    (invariant : LoopInvariant checksum uniqueId worldSize state)
    (busy : (state.clients rank).waiting = some request)
    (head : state.answers rank = answer :: rest) :
    (Current (state.clients rank).nextSequence rank request ∧
      Accepted checksum uniqueId worldSize request answer) ∨
    (state.stopped = true ∧ answer.frame.header.opcode = .abort) := by
  have inside := invariant.inside_of_waiting busy
  have halted : Halted checksum uniqueId worldSize (state.clients rank)
      (state.answers rank) rank := by
    cases ended : state.stopped with
    | true => exact invariant.halted ended rank inside
    | false => exact ((invariant.running ended).live rank inside).halted
  rcases halted with ⟨_, free⟩ | ⟨_, _, only | accepts⟩
  · rw [free] at busy
    cases busy
  · cases ended : state.stopped with
    | true =>
        right
        exact ⟨rfl, only answer (by rw [head]; exact List.mem_cons_self)⟩
    | false =>
        have live := (invariant.running ended).live rank inside
        rcases live with ⟨_, free, _⟩ | ⟨_, _, inStep⟩
        · rw [free] at busy
          cases busy
        rcases inStep with
          ⟨_, _, noAnswer, _⟩ | ⟨_, _, _, _, noAnswer, _⟩ |
          ⟨own, found, waits, current, accepted, _, oneAnswer, _⟩
        · rw [noAnswer] at head
          cases head
        · rw [noAnswer] at head
          cases head
        · left
          rw [oneAnswer] at head
          rw [waits] at busy
          cases head
          cases busy
          exact ⟨current, accepted⟩
  · left
    obtain ⟨own, found, _, waits, current, accepted, split, _⟩ := accepts
    rw [split] at head
    rw [waits] at busy
    cases head
    cases busy
    exact ⟨current, accepted⟩

/-- Behind the head of a stream come broadcasts only. -/
theorem Halted.rest_onlyAborts
    {client : Client} {answer : Answer} {rest : List Answer} {rank : Nat}
    (intact : client.readFailed = false)
    (halted : Halted checksum uniqueId worldSize client (answer :: rest) rank) :
    OnlyAborts rest := by
  rcases halted with ⟨failed, _⟩ | ⟨_, _, only | accepts⟩
  · rw [failed] at intact
    cases intact
  · intro other member
    exact only other (List.mem_cons_of_mem _ member)
  · obtain ⟨_, _, _, _, _, _, split, only⟩ := accepts
    cases split
    exact only

theorem loopInvariant_readStep {state next : CollectiveState} {rank : Nat}
    (invariant : LoopInvariant checksum uniqueId worldSize state)
    (stepped : readStep uniqueId worldSize state rank = some next) :
    LoopInvariant checksum uniqueId worldSize next := by
  unfold readStep at stepped
  split at stepped
  case h_2 => cases stepped
  case h_1 request answer rest busy head =>
    obtain ⟨intact, whole⟩ := invariant.intact_of_waiting busy
    have inside := invariant.inside_of_waiting busy
    rw [whole] at stepped
    simp only [Bool.false_eq_true, if_false, Option.some.injEq] at stepped
    unfold finishStep at stepped
    dsimp only at stepped
    rcases invariant.head_answer busy head with
      ⟨current, accepted⟩ | ⟨ended, abort⟩
    · -- the call accepts the answer and moves on to the next round
      have finishes := accepted.finishes
      rw [current.rank, current.sequence] at finishes
      rw [finishes] at stepped
      dsimp only at stepped
      rw [← stepped]
      refine invariant.of_concernsOnly inside
        (concernsOnly_finished state rank _ rest request _ _)
        (answered_append_ok invariant.answered accepted)
        (fun running => running.known) ?_ ?_
      · intro _ live
        rcases live with ⟨failed, _⟩ | ⟨_, _, inStep⟩
        · rw [failed] at intact
          cases intact
        rcases inStep with
          ⟨free, _⟩ | ⟨_, _, _, _, noAnswer, _⟩ |
          ⟨_, _, _, _, _, noRequest, oneAnswer, aligned⟩
        · rw [free] at busy
          cases busy
        · rw [noAnswer] at head
          cases head
        · right
          rw [oneAnswer] at head
          cases head
          simp only [CollectiveState.setClient, CollectiveState.finished, Function.update_self]
          exact ⟨intact, whole, .idle rfl noRequest rfl aligned⟩
      · intro _ halted
        rw [head] at halted
        right
        simp only [CollectiveState.setClient, CollectiveState.finished, Function.update_self]
        exact ⟨intact, whole, Or.inl (halted.rest_onlyAborts intact)⟩
    · -- the broadcast fails the call
      obtain ⟨failure, fails⟩ := request.call.finish_abort uniqueId
        (UInt32.ofNat rank) (UInt32.ofNat worldSize)
        (state.clients rank).nextSequence abort
      rw [fails] at stepped
      dsimp only at stepped
      rw [← stepped]
      refine invariant.of_concernsOnly inside
        (concernsOnly_finished state rank _ rest request _ _)
        (answered_append_error invariant.answered)
        (fun running => running.known) ?_ ?_
      · intro running
        rw [running] at ended
        cases ended
      · intro _ halted
        rw [head] at halted
        right
        simp only [CollectiveState.setClient, CollectiveState.finished, Function.update_self]
        exact ⟨intact, whole, Or.inl (halted.rest_onlyAborts intact)⟩

theorem loopInvariant_readTornStep {state next : CollectiveState} {rank : Nat}
    {outcome : Except NetworkError Frame}
    (invariant : LoopInvariant checksum uniqueId worldSize state)
    (stepped : readTornStep uniqueId worldSize state rank outcome = some next) :
    LoopInvariant checksum uniqueId worldSize next := by
  unfold readTornStep at stepped
  split at stepped
  case h_1 request busy =>
    rw [(invariant.intact_of_waiting busy).2] at stepped
    cases stepped
  case h_2 => cases stepped

/-- A failed read takes the session out of the protocol; its request stays under
way for the other ranks. -/
theorem loopInvariant_failReadStep
    {state next : CollectiveState} {rank : Nat} {failure : NetworkError}
    {torn : Bool}
    (invariant : LoopInvariant checksum uniqueId worldSize state)
    (stepped : failReadStep state rank failure torn = some next) :
    LoopInvariant checksum uniqueId worldSize next := by
  unfold failReadStep at stepped
  dsimp only at stepped
  split at stepped
  case h_2 => cases stepped
  case h_1 request busy =>
    cases stepped
    have intact := (invariant.intact_of_waiting busy).1
    refine invariant.of_concernsOnly (invariant.inside_of_waiting busy)
      ?_ (answered_append_error invariant.answered)
      (fun running => running.known) ?_ ?_
    · refine ⟨rfl, rfl, ?_, fun _ _ => rfl, fun _ _ => rfl⟩
      intro other different
      exact Function.update_of_ne different _ _
    · intro _ live
      left
      simp only [CollectiveState.setClient, CollectiveState.finished,
        Client.release, Function.update_self]
      refine ⟨trivial, trivial, ?_⟩
      rcases live with ⟨failed, _⟩ | ⟨_, _, inStep⟩
      · rw [failed] at intact
        cases intact
      rcases inStep with
        ⟨_, noRequest, _⟩ | ⟨own, _, current, oneRequest, _⟩ |
        ⟨_, _, _, _, _, noRequest, _⟩
      · exact Or.inl noRequest
      · exact Or.inr ⟨own, current, oneRequest⟩
      · exact Or.inl noRequest
    · intro _ _
      left
      simp only [CollectiveState.setClient, CollectiveState.finished,
        Client.release, Function.update_self]
      exact ⟨trivial, trivial⟩

theorem loopInvariant_readClosedStep {state next : CollectiveState} {rank : Nat}
    (invariant : LoopInvariant checksum uniqueId worldSize state)
    (stepped : readClosedStep state rank = some next) :
    LoopInvariant checksum uniqueId worldSize next := by
  unfold readClosedStep at stepped
  split at stepped
  case h_2 => cases stepped
  case h_1 request busy =>
    split at stepped
    case isFalse => cases stepped
    case isTrue closed =>
      obtain ⟨ended, empty⟩ := closed
      cases stepped
      refine invariant.of_concernsOnly (invariant.inside_of_waiting busy)
        ?_ (answered_append_error invariant.answered)
        (fun running => running.known) ?_ ?_
      · refine ⟨rfl, rfl, ?_, fun _ _ => rfl, fun _ _ => rfl⟩
        intro other different
        exact Function.update_of_ne different _ _
      · intro running
        rw [running] at ended
        cases ended
      · intro _ _
        obtain ⟨intact, whole⟩ := invariant.intact_of_waiting busy
        right
        simp only [CollectiveState.setClient, CollectiveState.finished,
          Function.update_self, empty]
        exact ⟨intact, whole, Or.inl (by simp [OnlyAborts])⟩

/-! ## The reader threads and the loop -/

/-- While the coordinator runs, a rank has at most one request under way, and
it is for the round being collected. -/
theorem Live.current_of_mem {client : Client} {unrouted : List Request} {answers : List Answer}
    {coordinator : UInt64} {rank : Nat} {request : Request}
    (live : Live checksum uniqueId worldSize client unrouted answers coordinator rank)
    (member : request ∈ unrouted) :
    Current coordinator rank request ∧ unrouted = [request] := by
  have single : unrouted = [] ∨ ∃ own, Current coordinator rank own ∧ unrouted = [own] := by
    rcases live with ⟨_, _, single⟩ | ⟨_, _, inStep⟩
    · exact single
    · rcases inStep with
        ⟨_, noRequest, _⟩ | ⟨own, _, current, oneRequest, _⟩ |
        ⟨_, _, _, _, _, noRequest, _⟩
      · exact Or.inl noRequest
      · exact Or.inr ⟨own, current, oneRequest⟩
      · exact Or.inl noRequest
  rcases single with none_ | ⟨own, current, one⟩
  · rw [none_] at member
    cases member
  · rw [one, List.mem_singleton] at member
    rw [member]
    exact ⟨current, one⟩

theorem loopInvariant_forwardStep {state next : CollectiveState} {rank : Nat}
    (invariant : LoopInvariant checksum uniqueId worldSize state)
    (stepped : forwardStep worldSize state rank = some next) :
    LoopInvariant checksum uniqueId worldSize next := by
  unfold forwardStep at stepped
  split at stepped
  case h_2 => cases stepped
  case h_1 request rest head =>
    split at stepped
    case isFalse => cases stepped
    case isTrue inside =>
      cases stepped
      rcases Bool.eq_false_or_eq_true state.stopped with ended | ended
      · refine ⟨invariant.answered, invariant.outside, ?_, ?_⟩
        · intro running
          rw [show state.stopped = false from running] at ended
          cases ended
        · intro _
          exact invariant.halted ended
      · have running := invariant.running ended
        have member : request ∈ state.unrouted rank := by
          simp [CollectiveState.unrouted, head]
        have current := ((running.live rank inside).current_of_mem member).1
        have moved : ∀ other, CollectiveState.unrouted
              { state with
                submitted := Function.update state.submitted rank rest
                events := state.events ++ [request] } other =
              state.unrouted other := by
          intro other
          by_cases same : other = rank
          · rw [same]
            simp [CollectiveState.unrouted, current.rank, head]
          · have others : ¬rank = other := fun equal => same equal.symm
            simp [CollectiveState.unrouted, current.rank, Function.update_of_ne same, others]
        refine invariant.of_concernsOnly inside
          ⟨rfl, rfl, fun _ _ => rfl, fun other _ => moved other, fun _ _ => rfl⟩
          invariant.answered ?_ ?_ ?_
        · intro _ other event
          rcases List.mem_append.mp event with early | late
          · exact running.known other early
          · rw [List.mem_singleton.mp late, current.rank]
            exact inside
        · intro _ live
          rw [moved]
          exact live
        · intro _ halted
          exact halted

/-- The loop takes over an event; in the protocol no rank has two. -/
theorem loopInvariant_collectStep {state next : CollectiveState} {message : List UInt8}
    (invariant : LoopInvariant checksum uniqueId worldSize state)
    (stepped : collectStep checksum uniqueId worldSize state message = some next) :
    LoopInvariant checksum uniqueId worldSize next := by
  unfold collectStep at stepped
  split at stepped
  case isTrue => cases stepped
  case isFalse collecting =>
    have ended : state.stopped = false := by
      by_contra stopped
      exact collecting (Or.inl (by simpa using stopped))
    have running := invariant.running ended
    split at stepped
    case h_2 => cases stepped
    case h_1 request rest head =>
      have inside : request.rank < worldSize :=
        running.known request (by rw [head]; exact List.mem_cons_self)
      have member : request ∈ state.unrouted request.rank := by
        simp [CollectiveState.unrouted, head]
      have single := ((running.live request.rank inside).current_of_mem member).2
      have absent : state.requests request.rank = none := by
        cases held : state.requests request.rank with
        | none => rfl
        | some first => simp [CollectiveState.unrouted, head, held] at single
      dsimp only at stepped
      rw [if_neg (by simp [absent])] at stepped
      cases stepped
      have moved : ∀ other, CollectiveState.unrouted
            { state with
              events := rest
              requests := Function.update state.requests request.rank (some request) } other =
            state.unrouted other := by
        intro other
        by_cases same : other = request.rank
        · rw [same]
          simp [CollectiveState.unrouted, head, absent]
        · have others : ¬request.rank = other := fun equal => same equal.symm
          simp [CollectiveState.unrouted, head, Function.update_of_ne same, others]
      refine invariant.of_concernsOnly inside
        ⟨rfl, rfl, fun _ _ => rfl, fun other _ => moved other, fun _ _ => rfl⟩
        invariant.answered ?_ ?_ ?_
      · intro _ other event
        exact running.known other (by rw [head]; exact List.mem_cons_of_mem _ event)
      · intro _ live
        rw [moved]
        exact live
      · intro _ halted
        exact halted

/-- A full round holds the request of every rank for the current sequence, and
no other request is under way. -/
theorem Running.round_current {state : CollectiveState} {round : List Request}
    (running : Running checksum uniqueId worldSize state)
    (full : state.round worldSize = some round) :
    round.length = worldSize ∧
    ∀ rank < worldSize, ∃ request, round[rank]? = some request ∧
      Current state.agreement.nextSequence rank request ∧
      state.unrouted rank = [request] ∧
      state.events.filter (fun other => other.rank = rank) = [] ∧
      state.submitted rank = [] := by
  obtain ⟨lengths, positions⟩ := getElem?_of_mapM _ full
  rw [List.length_range] at lengths
  refine ⟨lengths, ?_⟩
  intro rank inside
  have located := positions rank rank (by simp [inside])
  obtain ⟨request, found⟩ : ∃ request, round[rank]? = some request :=
    ⟨_, List.getElem?_eq_getElem (by omega)⟩
  rw [found] at located
  have member : request ∈ state.unrouted rank := by
    simp [CollectiveState.unrouted, ← located]
  obtain ⟨current, single⟩ := (running.live rank inside).current_of_mem member
  have others := single
  simp only [CollectiveState.unrouted, ← located, Option.toList_some,
    List.cons_append, List.nil_append, List.cons.injEq, true_and,
    List.append_eq_nil_iff] at others
  exact ⟨request, found, current, single, others.1, others.2⟩

/-- The ranks of a full round are all ranks in order. -/
theorem Running.round_ranks {state : CollectiveState} {round : List Request}
    (running : Running checksum uniqueId worldSize state)
    (full : state.round worldSize = some round) :
    round.map Request.rank = List.range worldSize := by
  obtain ⟨lengths, each⟩ := running.round_current full
  apply List.ext_getElem?
  intro rank
  by_cases inside : rank < worldSize
  · obtain ⟨request, found, current, _⟩ := each rank inside
    rw [List.getElem?_map, found, List.getElem?_range inside]
    simp [current.rank]
  · rw [List.getElem?_eq_none (by simp; omega),
      List.getElem?_eq_none (by simp; omega)]

theorem Running.round_sequences {state : CollectiveState} {round : List Request}
    (running : Running checksum uniqueId worldSize state)
    (full : state.round worldSize = some round) :
    ∀ request ∈ round, request.frame.header.sequence = state.agreement.nextSequence := by
  obtain ⟨lengths, each⟩ := running.round_current full
  intro request member
  obtain ⟨rank, bound, located⟩ := List.getElem_of_mem member
  obtain ⟨same, found, current, _⟩ := each rank (by omega)
  rw [List.getElem?_eq_getElem bound, located] at found
  cases found
  exact current.sequence

/-- The response of a routed round is accepted by the call that wrote the
request of its rank. -/
theorem Running.accepted_of_routed {state : CollectiveState} {round : List Request}
    {responses : List Frame} {rank : Nat} {request : Request}
    {response : Frame}
    (running : Running checksum uniqueId worldSize state)
    (inside : rank < worldSize)
    (full : state.round worldSize = some round)
    (routed : (validateAndRoute checksum state.agreement uniqueId
      state.agreement.nextSequence (round.map Request.frame)).2 = .ok responses)
    (requestAt : round[rank]? = some request)
    (current : Current state.agreement.nextSequence rank request)
    (responseAt : responses[rank]? = some response) :
    Accepted checksum uniqueId worldSize request { frame := response, round := some round } := by
  have lengths := (running.round_current full).1
  have nonempty : round.map Request.frame ≠ [] := by
    intro empty
    rw [List.map_eq_nil_iff] at empty
    rw [empty, List.length_nil] at lengths
    omega
  have advanced := validateAndRoute_advances nonempty
    (by rw [List.length_map, lengths, running.world]) running.idle routed
  have responds := (responds_of_validateAndRoute nonempty running.idle routed).2 rank
      request.frame response
      (by rw [List.getElem?_map, requestAt]; rfl) responseAt
  constructor
  · refine ⟨round, rfl, ?_, running.round_ranks full, ?_, state.agreement, responses, ?_, ?_⟩
    · rw [current.rank]
      exact requestAt
    · intro other member
      rw [current.sequence]
      exact running.round_sequences full other member
    · rw [current.sequence]
      exact routed
    · rw [current.rank]
      exact responseAt
  · have finishes := Call.finish_of_responds responds current.timeout advanced.1
    rw [List.length_map, lengths] at finishes
    rw [current.rank, current.sequence]
    exact finishes

/-- The answer to the only request under way ends the round for its rank. -/
theorem Live.answer {client : Client} {answers : List Answer} {coordinator : UInt64}
    {rank : Nat} {request : Request} {answer : Answer}
    (live : Live checksum uniqueId worldSize client [request] answers coordinator rank)
    (accepted : Accepted checksum uniqueId worldSize request answer) :
    Live checksum uniqueId worldSize client [] (answers ++ [answer]) (coordinator + 1) rank := by
  rcases live with ⟨failed, free, _⟩ | ⟨intact, whole, inStep⟩
  · exact Or.inl ⟨failed, free, Or.inl rfl⟩
  right
  refine ⟨intact, whole, ?_⟩
  rcases inStep with
    ⟨_, noRequest, _⟩ |
    ⟨own, busy, current, oneRequest, noAnswer, aligned⟩ |
    ⟨_, _, _, _, _, noRequest, _⟩
  · cases noRequest
  · cases oneRequest
    rw [noAnswer, ← aligned]
    rw [← aligned] at current
    exact .answered request answer busy current accepted rfl rfl rfl
  · cases noRequest

/-- Routing a round hands every waiting call its own answer and moves all
sessions to the next round; an error ends the session for everybody. -/
theorem loopInvariant_routeStep {state next : CollectiveState} {written : Nat}
    {message : List UInt8}
    (invariant : LoopInvariant checksum uniqueId worldSize state)
    (nonempty : 0 < worldSize)
    (stepped : routeStep checksum uniqueId worldSize state written message = some next) :
    LoopInvariant checksum uniqueId worldSize next := by
  unfold routeStep at stepped
  split at stepped
  case isTrue => cases stepped
  case isFalse ended =>
    have running := invariant.running (by simpa using ended)
    split at stepped
    case h_1 => cases stepped
    case h_2 round full =>
      dsimp only at stepped
      split at stepped
      case h_1 failure failed =>
        cases stepped
        refine loopInvariant_leave _ invariant.answered invariant.outside ?_
        intro rank inside
        exact (running.live rank inside).halted
      case h_2 responses routed =>
        have lengths := (running.round_current full).1
        have someRequest : round.map Request.frame ≠ [] := by
          intro empty
          rw [List.map_eq_nil_iff] at empty
          rw [empty, List.length_nil] at lengths
          omega
        have answers := (responds_of_validateAndRoute someRequest running.idle routed).1
        rw [List.length_map, lengths] at answers
        split at stepped
        case isTrue partial_ =>
          cases stepped
          refine loopInvariant_leave _ invariant.answered invariant.outside ?_
          intro rank inside
          obtain ⟨request, requestAt, current, single, _⟩ :=
            (running.round_current full).2 rank inside
          have live := running.live rank inside
          by_cases reached : rank < written
          · have responseAt := List.getElem?_eq_getElem (show rank < responses.length by omega)
            have accepted := running.accepted_of_routed inside full routed
              requestAt current responseAt
            rw [single] at live
            simpa [CollectiveState.write, List.getElem?_take, reached,
              responseAt] using (live.answer accepted).halted
          · simpa [CollectiveState.write, List.getElem?_take, reached] using live.halted
        case isFalse complete =>
          cases stepped
          obtain ⟨_, moved, world, idle⟩ := validateAndRoute_advances
            someRequest (by rw [List.length_map, lengths, running.world])
            running.idle routed
          refine ⟨invariant.answered, invariant.outside, ?_, ?_⟩
          · intro _
            refine ⟨world.trans running.world, idle, running.known, ?_⟩
            intro rank inside
            obtain ⟨request, requestAt, current, single, noEvent,
              noSubmission⟩ := (running.round_current full).2 rank inside
            have live := running.live rank inside
            have responseAt := List.getElem?_eq_getElem (show rank < responses.length by omega)
            have accepted := running.accepted_of_routed inside full routed
              requestAt current responseAt
            rw [single] at live
            have reached : rank < written := by omega
            have answered := live.answer accepted
            rw [← moved] at answered
            simpa [CollectiveState.write, CollectiveState.unrouted,
              noEvent, noSubmission, List.getElem?_take, reached,
              responseAt] using answered
          · intro stopped
            exact absurd stopped ended

theorem loopInvariant_start (checksum : List UInt8 → UInt32)
    (uniqueId : UniqueId) (worldSize : Nat) :
    LoopInvariant checksum uniqueId worldSize (collectiveStart worldSize) := by
  refine ⟨by simp [collectiveStart], fun _ _ => rfl, ?_, ?_⟩
  · intro _
    refine ⟨rfl, fun _ => rfl, by simp [collectiveStart], ?_⟩
    intro rank _
    exact Or.inr ⟨rfl, rfl, .idle rfl rfl rfl rfl⟩
  · intro stopped
    cases stopped

/-- Every step keeps the invariant as long as failed sessions rest. -/
theorem loopInvariant_step {state next : CollectiveState} {action : CollectiveAction}
    (nonempty : 0 < worldSize)
    (invariant : LoopInvariant checksum uniqueId worldSize state)
    (leaves : LeavesFailedSessions state action)
    (stepped : collectiveStep checksum uniqueId worldSize state action = some next) :
    LoopInvariant checksum uniqueId worldSize next := by
  cases action with
  | call rank call => exact loopInvariant_callStep invariant leaves stepped
  | read rank => exact loopInvariant_readStep invariant stepped
  | readTorn rank outcome => exact loopInvariant_readTornStep invariant stepped
  | failRead rank failure torn => exact loopInvariant_failReadStep invariant stepped
  | readClosed rank => exact loopInvariant_readClosedStep invariant stepped
  | forward rank => exact loopInvariant_forwardStep invariant stepped
  | collect message => exact loopInvariant_collectStep invariant stepped
  | route written message => exact loopInvariant_routeStep invariant nonempty stepped
  | stop message =>
      simp only [collectiveStep] at stepped
      split at stepped
      case isTrue => cases stepped
      case isFalse ended =>
        cases stepped
        have running := invariant.running (by simpa using ended)
        refine loopInvariant_leave _ invariant.answered invariant.outside ?_
        intro rank inside
        exact (running.live rank inside).halted

/-- In every run that leaves failed sessions alone, a successful call got the
response of the round that routed its own request beside one request of every
other rank with the same sequence. -/
theorem exchange_answers_own_request (checksum : List UInt8 → UInt32) (uniqueId : UniqueId)
    (worldSize : Nat) (nonempty : 0 < worldSize) (state : CollectiveState)
    (reached : Reached (collectiveStep checksum uniqueId worldSize)
      LeavesFailedSessions (collectiveStart worldSize) state) :
    ∀ entry ∈ state.returned,
      AnswersOwnRequest checksum uniqueId worldSize entry := by
  have invariant : LoopInvariant checksum uniqueId worldSize state :=
    reached.invariant (loopInvariant_start checksum uniqueId worldSize)
      fun _ _ _ before leaves stepped =>
        loopInvariant_step nonempty before leaves stepped
  exact invariant.answered

end Loop

/-- A barrier of every rank. -/
def barrierCall : Call := .exchange .barrier .none ⟨anyRank, 0, 0, 0⟩ []

/-- Both ranks enter a barrier and rank 0 reads its answer. -/
def barrierRun : List CollectiveAction :=
  [.call 0 barrierCall, .call 1 barrierCall, .forward 0, .forward 1,
    .collect [], .collect [], .route 2 [], .read 0]

theorem exchange_answers_own_request_pair :
    ∃ state, Reached (collectiveStep byteSum zeroId 2) LeavesFailedSessions
        (collectiveStart 2) state ∧
      (∃ entry ∈ state.returned, entry.result.toBool = true) ∧
      ∀ entry ∈ state.returned,
        AnswersOwnRequest byteSum zeroId 2 entry := by
  have succeeded : (follow (collectiveStep byteSum zeroId 2)
      LeavesFailedSessions (collectiveStart 2) barrierRun).map
        (fun final => final.returned.any fun entry =>
          entry.result.toBool) = some true :=
    rfl
  rw [Option.map_eq_some_iff] at succeeded
  obtain ⟨state, followed, found⟩ := succeeded
  rw [List.any_eq_true] at found
  have reached := Reached.of_follow .start followed
  exact ⟨state, reached, found,
    exchange_answers_own_request byteSum zeroId 2 (by decide) state reached⟩

/-- Rank 0 gives up on a barrier and starts an all-gather while the answer to
the barrier is still to come. -/
def lateAnswerRun : List CollectiveAction :=
  [.call 0 barrierCall, .failRead 0 (.io "timed out") false,
    .call 1 barrierCall, .forward 0, .forward 1, .collect [], .collect [],
    .route 2 [],
    .call 0 (.exchange .allGather .u8 ⟨anyRank, 1, 0, 0⟩ [7]), .read 0]

/-- A response whose round holds another request of the caller. -/
def Returned.stale (entry : Returned) : Bool :=
  match entry.round with
  | some round =>
      entry.result.toBool &&
        decide (round[entry.request.rank]? ≠ some entry.request)
  | none => false

theorem Returned.not_own_of_stale {checksum : List UInt8 → UInt32} {uniqueId : UniqueId}
    {worldSize : Nat} {entry : Returned} (stale : entry.stale = true) :
    ¬AnswersOwnRequest checksum uniqueId worldSize entry := by
  intro own
  unfold Returned.stale at stale
  split at stale
  case h_2 => cases stale
  case h_1 round marked =>
    cases result : entry.result with
    | error failure => simp [result, Except.toBool] at stale
    | ok response =>
        obtain ⟨same, found, ownRound⟩ := own response result
        rw [marked] at found
        cases found
        simp [ownRound.own] at stale

/-- Without the restriction the late answer to the abandoned barrier is
returned for the all-gather. -/
theorem exchange_returns_late_answer :
    ¬∀ state, Reachable (collectiveStep byteSum zeroId 2) (collectiveStart 2) state →
      ∀ entry ∈ state.returned,
        AnswersOwnRequest byteSum zeroId 2 entry := by
  intro always
  have stale : (follow (collectiveStep byteSum zeroId 2)
      (fun _ _ => True) (collectiveStart 2) lateAnswerRun).map
        (fun final => final.returned.any Returned.stale) = some true :=
    rfl
  rw [Option.map_eq_some_iff] at stale
  obtain ⟨state, followed, found⟩ := stale
  rw [List.any_eq_true] at found
  obtain ⟨entry, member, isStale⟩ := found
  exact Returned.not_own_of_stale isStale
    (always state (Reached.of_follow .start followed) entry member)

end RuCCL.Rank
