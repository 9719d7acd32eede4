import RuCCL.Library.Matching
import RuCCL.Rank.PointToPoint
import RuCCL.Rank.RoutingCorrect

/-!
# Point-to-point routing is lossless and keeps the order

The two queues of the loop are a desk: an arriving send takes the earliest
receive that it fits and an arriving receive the earliest send.  Every round
that does not end the loop is one arrival at the desk or leaves it alone.
-/

namespace RuCCL.Rank

open RuCCL.Library

section Route

variable {checksum : List UInt8 → UInt32}
variable {fromUtf8Lossy : List UInt8 → String}
variable {uniqueId : UniqueId} {worldSize : Nat}
variable {outcome : Frame → Except NetworkError Unit}
variable {state next : P2pState} {request send receive : P2pRequest}

theorem orStop_eq_ok_iff {α : Type} {result : Except Fault α} {value : α} :
    orStop result state = .ok value next ↔ result = .ok value ∧ next = state := by
  cases result with
  | error failure =>
      constructor
      · intro ended
        cases ended
      · rintro ⟨absent, _⟩
        cases absent
  | ok found => simp [orStop, pure, EStateM.pure, eq_comm]

theorem writeP2p_eq_ok {rank : Nat} {frame : Frame} {pair : Option (P2pRequest × P2pRequest)}
    (ran : writeP2p outcome rank frame pair state = .ok () next) :
    next = { state with written := state.written ++ [⟨rank, frame, pair⟩] } := by
  unfold writeP2p at ran
  cases written : outcome frame with
  | error failure =>
      rw [written] at ran
      cases ran
  | ok done =>
      rw [written] at ran
      cases ran
      rfl

/-- The answer of a receive: both requests agree on their contract and the
frame goes to the receiver. -/
structure AnswersPair (checksum : List UInt8 → UInt32) (uniqueId : UniqueId)
    (worldSize : Nat) (send receive : P2pRequest) (entry : P2pWritten) :
    Prop where
  rank : entry.rank = receive.frame.header.sourceRank.toNat
  pair : entry.pair = some (send, receive)
  elementType :
    send.frame.header.elementType = receive.frame.header.elementType
  elementCount :
    send.frame.header.elementCount = receive.frame.header.elementCount
  frame : p2pReceiveAnswer checksum uniqueId worldSize send.frame receive.frame = .ok entry.frame

theorem deliverP2pReceive_eq_ok
    (ran : deliverP2pReceive checksum uniqueId worldSize outcome send
      receive state = .ok () next) :
    ∃ entry, AnswersPair checksum uniqueId worldSize send receive entry ∧
      next = { state with written := state.written ++ [entry] } := by
  unfold deliverP2pReceive at ran
  obtain ⟨_, agreed, checked, building⟩ := (estate_bind_eq_ok_iff ..).mp ran
  obtain ⟨contract, rfl⟩ := orStop_eq_ok_iff.mp checked
  have agree := (rejectIf_eq_ok_iff ..).mp contract
  push Not at agree
  obtain ⟨answer, built, made, writing⟩ := (estate_bind_eq_ok_iff ..).mp building
  obtain ⟨new, rfl⟩ := orStop_eq_ok_iff.mp made
  refine ⟨_, ⟨rfl, rfl, agree.1, agree.2, ?_⟩, writeP2p_eq_ok writing⟩
  cases result : p2pReceiveAnswer checksum uniqueId worldSize send.frame receive.frame with
  | error failure =>
      rw [result] at new
      cases new
  | ok frame =>
      rw [result] at new
      cases new
      rfl

/-- What an accepted send does: the acknowledgement is written, then the
earliest fitting receive is answered or the send waits. -/
inductive SendRouted (checksum : List UInt8 → UInt32) (uniqueId : UniqueId)
    (worldSize : Nat) (request : P2pRequest) (state : P2pState) :
    P2pState → Prop
  | paired {acknowledgement entry : P2pWritten} {receive : P2pRequest}
      (found : state.receives.find? (fun receive => p2pMatches request.frame receive.frame) =
          some receive)
      (control : acknowledgement.pair = none)
      (answers : AnswersPair checksum uniqueId worldSize request receive entry) :
      SendRouted checksum uniqueId worldSize request state
        { state with
          receives := state.receives.eraseP
            (fun receive => p2pMatches request.frame receive.frame)
          written := state.written ++ [acknowledgement] ++ [entry] }
  | queued {acknowledgement : P2pWritten}
      (missing : state.receives.find?
        (fun receive => p2pMatches request.frame receive.frame) = none)
      (control : acknowledgement.pair = none) :
      SendRouted checksum uniqueId worldSize request state
        { state with
          sends := state.sends ++ [request]
          written := state.written ++ [acknowledgement] }

/-- What an accepted receive does. -/
inductive ReceiveRouted (checksum : List UInt8 → UInt32) (uniqueId : UniqueId)
    (worldSize : Nat) (request : P2pRequest) (state : P2pState) :
    P2pState → Prop
  | paired {entry : P2pWritten} {send : P2pRequest}
      (found : state.sends.find? (fun send => p2pMatches send.frame request.frame) = some send)
      (answers : AnswersPair checksum uniqueId worldSize send request entry) :
      ReceiveRouted checksum uniqueId worldSize request state
        { state with
          sends := state.sends.eraseP (fun send => p2pMatches send.frame request.frame)
          written := state.written ++ [entry] }
  | queued
      (missing : state.sends.find? (fun send => p2pMatches send.frame request.frame) = none) :
      ReceiveRouted checksum uniqueId worldSize request state
        { state with receives := state.receives ++ [request] }

theorem routeSend_eq_ok
    (ran : routeSend checksum uniqueId worldSize outcome request state = .ok () next) :
    SendRouted checksum uniqueId worldSize request state next := by
  unfold routeSend at ran
  obtain ⟨acknowledgement, same, made, writing⟩ := (estate_bind_eq_ok_iff ..).mp ran
  obtain ⟨_, rfl⟩ := orStop_eq_ok_iff.mp made
  obtain ⟨_, acknowledged, wrote, looking⟩ := (estate_bind_eq_ok_iff ..).mp writing
  have told := writeP2p_eq_ok wrote
  obtain ⟨current, kept, got, matching⟩ := (estate_bind_eq_ok_iff ..).mp looking
  cases got
  cases told
  dsimp only at matching
  cases found : same.receives.find? (fun receive => p2pMatches request.frame receive.frame) with
  | some receive =>
      rw [found] at matching
      obtain ⟨_, removed, replaced, delivering⟩ := (estate_bind_eq_ok_iff ..).mp matching
      cases replaced
      obtain ⟨entry, answers, rfl⟩ := deliverP2pReceive_eq_ok delivering
      exact .paired found rfl answers
  | none =>
      rw [found] at matching
      cases matching
      exact .queued found rfl

theorem routeReceive_eq_ok
    (ran : routeReceive checksum uniqueId worldSize outcome request state = .ok () next) :
    ReceiveRouted checksum uniqueId worldSize request state next := by
  unfold routeReceive at ran
  obtain ⟨current, kept, got, matching⟩ := (estate_bind_eq_ok_iff ..).mp ran
  cases got
  cases found : state.sends.find? (fun send => p2pMatches send.frame request.frame) with
  | some send =>
      rw [found] at matching
      obtain ⟨_, removed, replaced, delivering⟩ := (estate_bind_eq_ok_iff ..).mp matching
      cases replaced
      obtain ⟨entry, answers, rfl⟩ := deliverP2pReceive_eq_ok delivering
      exact .paired found answers
  | none =>
      rw [found] at matching
      cases matching
      exact .queued found

/-- A round that neither queue takes part in. -/
structure Bystanding (state next : P2pState) : Prop where
  sends : next.sends = state.sends
  receives : next.receives = state.receives
  accepted : next.accepted = state.accepted
  events : state.events ≤ next.events
  delivered : next.delivered = state.delivered
  written : ∀ entry ∈ next.written, entry.pair ≠ none → entry ∈ state.written

/-- What `frame` does as the next event of the loop. -/
inductive FrameRouted (checksum : List UInt8 → UInt32) (uniqueId : UniqueId)
    (worldSize : Nat) (state : P2pState) (frame : Frame) :
    P2pState → Prop
  | send {between : P2pState} (opcode : frame.header.opcode = .send)
      (routed : SendRouted checksum uniqueId worldSize
        ⟨state.events, frame⟩ { state with events := state.events + 1 }
        between) :
      FrameRouted checksum uniqueId worldSize state frame
        { between with
          accepted := between.accepted ++ [⟨state.events, frame⟩] }
  | receive {between : P2pState} (opcode : frame.header.opcode = .receive)
      (routed : ReceiveRouted checksum uniqueId worldSize
        ⟨state.events, frame⟩ { state with events := state.events + 1 }
        between) :
      FrameRouted checksum uniqueId worldSize state frame
        { between with
          accepted := between.accepted ++ [⟨state.events, frame⟩] }
  | other {next : P2pState} (notSend : frame.header.opcode ≠ .send)
      (notReceive : frame.header.opcode ≠ .receive)
      (bystanding : Bystanding state next) :
      FrameRouted checksum uniqueId worldSize state frame next

theorem bystanding_written {next : P2pState} {entry : P2pWritten} (control : entry.pair = none)
    (sends : next.sends = state.sends)
    (receives : next.receives = state.receives)
    (accepted : next.accepted = state.accepted)
    (events : state.events ≤ next.events)
    (written : next.written = state.written ++ [entry]) :
    Bystanding state next where
  sends := sends
  receives := receives
  accepted := accepted
  events := events
  delivered := by
    simp [P2pState.delivered, written, control]
  written := by
    intro other member paired
    rw [written] at member
    rcases List.mem_append.mp member with earlier | new
    · exact earlier
    · rw [List.mem_singleton] at new
      rw [new] at paired
      exact absurd control paired

theorem bystanding_unwritten {next : P2pState} (sends : next.sends = state.sends)
    (receives : next.receives = state.receives)
    (accepted : next.accepted = state.accepted)
    (events : state.events ≤ next.events)
    (written : next.written = state.written) :
    Bystanding state next where
  sends := sends
  receives := receives
  accepted := accepted
  events := events
  delivered := by
    rw [P2pState.delivered, written, P2pState.delivered]
  written := by
    intro other member _
    rw [written] at member
    exact member

theorem frameEvent_eq_ok {writes : P2pWrites} {rank : Nat} {frame : Frame}
    (ran : frameEvent checksum fromUtf8Lossy uniqueId worldSize writes rank
      frame state = .ok () next) :
    FrameRouted checksum uniqueId worldSize state frame next := by
  unfold frameEvent at ran
  obtain ⟨current, kept, got, counting⟩ := (estate_bind_eq_ok_iff ..).mp ran
  cases got
  obtain ⟨_, counted, replaced, routing⟩ := (estate_bind_eq_ok_iff ..).mp counting
  cases replaced
  cases departed : state.graceful rank with
  | true =>
      rw [departed, if_pos rfl] at routing
      obtain ⟨impossible, _⟩ := orStop_eq_ok_iff.mp routing
      cases impossible
  | false =>
      rw [departed, if_neg Bool.false_ne_true] at routing
      obtain ⟨_, between, routed, finishing⟩ := (estate_bind_eq_ok_iff ..).mp routing
      cases finishing
      unfold routeP2pRequest at routed
      obtain ⟨_, same, checked, matching⟩ := (estate_bind_eq_ok_iff ..).mp routed
      obtain ⟨valid, rfl⟩ := orStop_eq_ok_iff.mp checked
      cases opcode : frame.header.opcode
      case send =>
        simp only [opcode] at matching
        have done := routeSend_eq_ok matching
        simpa [opcode] using FrameRouted.send opcode done
      case receive =>
        simp only [opcode] at matching
        have done := routeReceive_eq_ok matching
        simpa [opcode] using FrameRouted.receive opcode done
      case heartbeat =>
        simp only [opcode] at matching
        obtain ⟨response, same, made, writing⟩ := (estate_bind_eq_ok_iff ..).mp matching
        obtain ⟨_, rfl⟩ := orStop_eq_ok_iff.mp made
        have wrote := writeP2p_eq_ok writing
        subst wrote
        refine .other (by simp [opcode]) (by simp [opcode]) ?_
        exact bystanding_written rfl rfl rfl (by simp)
          (Nat.le_succ _) rfl
      case leave =>
        simp only [opcode] at matching
        cases matching
        refine .other (by simp [opcode]) (by simp [opcode]) ?_
        exact bystanding_unwritten rfl rfl (by simp)
          (Nat.le_succ _) rfl
      all_goals
        simp only [opcode] at matching
        cases matching

theorem closeEvent_eq_ok {heartbeat : Bool} {rank : Nat} {message : String}
    (ran : closeEvent heartbeat rank message state = .ok () next) :
    Bystanding state next := by
  unfold closeEvent at ran
  obtain ⟨current, kept, got, closing⟩ := (estate_bind_eq_ok_iff ..).mp ran
  cases got
  obtain ⟨_, closed, replaced, checking⟩ := (estate_bind_eq_ok_iff ..).mp closing
  cases replaced
  split at checking
  case isTrue announced =>
    obtain ⟨impossible, _⟩ := orStop_eq_ok_iff.mp checking
    cases impossible
  case isFalse silent =>
    cases checking
    exact bystanding_unwritten rfl rfl rfl (Nat.le_refl _) rfl

end Route

def P2pRequest.fits (send receive : P2pRequest) : Bool := p2pMatches send.frame receive.frame

/-- Accepted requests of one opcode, in their order of arrival. -/
def P2pState.acceptedAs (state : P2pState) (opcode : Opcode) :
    List P2pRequest :=
  state.accepted.filter fun request =>
    request.frame.header.opcode = opcode

def P2pState.desk (state : P2pState) : Desk P2pRequest P2pRequest where
  offers := state.sends
  wants := state.receives
  pairs := state.delivered
  offered := state.acceptedAs .send
  wanted := state.acceptedAs .receive

section Desk

variable {checksum : List UInt8 → UInt32} {uniqueId : UniqueId}
variable {worldSize : Nat} {state next : P2pState} {frame : Frame}

theorem SendRouted.desk_eq {between : P2pState} (opcode : frame.header.opcode = .send)
    (routed : SendRouted checksum uniqueId worldSize ⟨state.events, frame⟩
      { state with events := state.events + 1 } between) :
    P2pState.desk
      { between with
        accepted := between.accepted ++ [⟨state.events, frame⟩] } =
      state.desk.offer P2pRequest.fits ⟨state.events, frame⟩ := by
  unfold Desk.offer
  cases routed with
  | paired found control answers =>
      have searched : state.desk.wants.find? (P2pRequest.fits ⟨state.events, frame⟩) = _ := found
      rw [searched]
      simp [P2pState.desk, P2pState.delivered, P2pState.acceptedAs, control, answers.pair, opcode]
      rfl
  | queued missing control =>
      have searched : state.desk.wants.find?
          (P2pRequest.fits ⟨state.events, frame⟩) = _ := missing
      rw [searched]
      simp [P2pState.desk, P2pState.delivered, P2pState.acceptedAs, control, opcode]

theorem ReceiveRouted.desk_eq {between : P2pState} (opcode : frame.header.opcode = .receive)
    (routed : ReceiveRouted checksum uniqueId worldSize
      ⟨state.events, frame⟩ { state with events := state.events + 1 }
      between) :
    P2pState.desk
      { between with
        accepted := between.accepted ++ [⟨state.events, frame⟩] } =
      state.desk.want P2pRequest.fits ⟨state.events, frame⟩ := by
  unfold Desk.want
  cases routed with
  | paired found answers =>
      have searched : state.desk.offers.find? (fun partner =>
          P2pRequest.fits partner ⟨state.events, frame⟩) = _ := found
      rw [searched]
      simp [P2pState.desk, P2pState.delivered, P2pState.acceptedAs,
        answers.pair, opcode, P2pRequest.fits]
  | queued missing =>
      have searched : state.desk.offers.find? (fun partner =>
          P2pRequest.fits partner ⟨state.events, frame⟩) = _ := missing
      rw [searched]
      simp [P2pState.desk, P2pState.delivered, P2pState.acceptedAs, opcode]

theorem Bystanding.desk_eq (bystanding : Bystanding state next) : next.desk = state.desk := by
  unfold P2pState.desk P2pState.acceptedAs
  rw [bystanding.sends, bystanding.receives, bystanding.accepted, bystanding.delivered]

/-- The desk is fair, requests keep the numbers of their events, and every
answer was built from its pair. -/
structure P2pInvariant (checksum : List UInt8 → UInt32) (uniqueId : UniqueId)
    (worldSize : Nat) (state : P2pState) : Prop where
  fair : Desk.Fair P2pRequest.fits state.desk
  ordered : (state.accepted.map P2pRequest.number).Pairwise (· < ·)
  numbered : ∀ request ∈ state.accepted, request.number < state.events
  answered : ∀ entry ∈ state.written, ∀ send receive, entry.pair = some (send, receive) →
      AnswersPair checksum uniqueId worldSize send receive entry

theorem P2pInvariant.start :
    P2pInvariant checksum uniqueId worldSize p2pStart where
  fair := Desk.Fair.empty
  ordered := List.Pairwise.nil
  numbered := by simp [p2pStart]
  answered := by simp [p2pStart]

/-- A new request is numbered behind all earlier ones. -/
theorem P2pInvariant.ordered_append (invariant : P2pInvariant checksum uniqueId worldSize state) :
    ((state.accepted ++ [(⟨state.events, frame⟩ : P2pRequest)]).map
      P2pRequest.number).Pairwise (· < ·) := by
  rw [List.map_append, List.pairwise_append]
  refine ⟨invariant.ordered, List.pairwise_singleton _ _, ?_⟩
  intro number earlier new isNew
  obtain ⟨request, member, rfl⟩ := List.mem_map.mp earlier
  rw [List.map_singleton, List.mem_singleton] at isNew
  rw [isNew]
  exact invariant.numbered request member

theorem P2pInvariant.numbered_append
    (invariant : P2pInvariant checksum uniqueId worldSize state) :
    ∀ request : P2pRequest, request ∈ state.accepted ++ [⟨state.events, frame⟩] →
      request.number < state.events + 1 := by
  intro request member
  rcases List.mem_append.mp member with earlier | new
  · exact Nat.lt_succ_of_lt (invariant.numbered request earlier)
  · rw [List.mem_singleton.mp new]
    exact Nat.lt_succ_self _

theorem P2pInvariant.answered_append (invariant : P2pInvariant checksum uniqueId worldSize state)
    {entry : P2pWritten} {written : List P2pWritten}
    (controls : ∀ other ∈ written, other ∈ state.written ∨ other.pair = none)
    {send receive : P2pRequest}
    (answers : AnswersPair checksum uniqueId worldSize send receive entry) :
    ∀ other ∈ written ++ [entry], ∀ left right, other.pair = some (left, right) →
        AnswersPair checksum uniqueId worldSize left right other := by
  intro other member left right paired
  rcases List.mem_append.mp member with earlier | new
  · rcases controls other earlier with old | control
    · exact invariant.answered other old left right paired
    · rw [control] at paired
      cases paired
  · rw [List.mem_singleton] at new
    subst new
    have same := answers.pair.symm.trans paired
    cases same
    exact answers

theorem P2pInvariant.bystanding (invariant : P2pInvariant checksum uniqueId worldSize state)
    (bystanding : Bystanding state next) :
    P2pInvariant checksum uniqueId worldSize next where
  fair := by
    rw [bystanding.desk_eq]
    exact invariant.fair
  ordered := by
    rw [bystanding.accepted]
    exact invariant.ordered
  numbered := by
    intro request member
    rw [bystanding.accepted] at member
    exact (invariant.numbered request member).trans_le bystanding.events
  answered := by
    intro entry member send receive paired
    have old := bystanding.written entry member (by simp [paired])
    exact invariant.answered entry old send receive paired

theorem P2pInvariant.routed (invariant : P2pInvariant checksum uniqueId worldSize state)
    (routed : FrameRouted checksum uniqueId worldSize state frame next) :
    P2pInvariant checksum uniqueId worldSize next := by
  cases routed with
  | send opcode sent =>
      have fair := invariant.fair.offer ⟨state.events, frame⟩
      rw [← sent.desk_eq opcode] at fair
      cases sent with
      | paired found control answers =>
          refine ⟨fair, invariant.ordered_append, invariant.numbered_append, ?_⟩
          refine invariant.answered_append ?_ answers
          intro other member
          rcases List.mem_append.mp member with earlier | new
          · exact Or.inl earlier
          · rw [List.mem_singleton.mp new]
            exact Or.inr control
      | queued missing control =>
          refine ⟨fair, invariant.ordered_append, invariant.numbered_append, ?_⟩
          intro other member left right paired
          rcases List.mem_append.mp member with earlier | new
          · exact invariant.answered other earlier left right paired
          · rw [List.mem_singleton.mp new, control] at paired
            cases paired
  | receive opcode received =>
      have fair := invariant.fair.want ⟨state.events, frame⟩
      rw [← received.desk_eq opcode] at fair
      cases received with
      | paired found answers =>
          refine ⟨fair, invariant.ordered_append, invariant.numbered_append, ?_⟩
          exact invariant.answered_append (fun other member => Or.inl member) answers
      | queued missing =>
          exact ⟨fair, invariant.ordered_append, invariant.numbered_append, invariant.answered⟩
  | other notSend notReceive bystanding => exact invariant.bystanding bystanding

end Desk

section Loop

variable {checksum : List UInt8 → UInt32}
variable {fromUtf8Lossy : List UInt8 → String}
variable {uniqueId : UniqueId} {worldSize : Nat} {heartbeat : Bool}
variable {state next : P2pState} {action : P2pAction}

/-- A round that does not end the loop routes a frame or leaves both queues
alone. -/
theorem p2pStep_running
    (stepped : p2pStep checksum fromUtf8Lossy uniqueId worldSize heartbeat
      state action = some next)
    (running : next.stopped = false) :
    state.stopped = false ∧
      ((∃ rank frame writes, action = .event (.frame rank frame) writes ∧
          FrameRouted checksum uniqueId worldSize state frame next) ∨
        ((∀ rank frame writes, action ≠ .event (.frame rank frame) writes) ∧
          Bystanding state next)) := by
  cases action with
  | expire rank writes =>
      rw [p2pStep] at stepped
      split at stepped
      case isFalse => cases stepped
      case isTrue =>
        cases stepped
        cases running
  | event event writes =>
      rw [p2pStep] at stepped
      split at stepped
      case isFalse => cases stepped
      case isTrue enabled =>
        rw [Option.some.injEq] at stepped
        refine ⟨enabled.1, ?_⟩
        cases handled : handleEvent checksum fromUtf8Lossy uniqueId
            worldSize heartbeat writes event state with
        | error failure between =>
            rw [handled] at stepped
            subst stepped
            cases running
        | ok done between =>
            rw [handled, P2pState.finishRound] at stepped
            split at stepped
            case isTrue =>
              subst stepped
              cases running
            case isFalse =>
              subst stepped
              cases event with
              | frame rank frame =>
                  exact Or.inl ⟨rank, frame, writes, rfl, frameEvent_eq_ok handled⟩
              | closed rank => exact Or.inr ⟨by simp, closeEvent_eq_ok handled⟩
              | failed rank message => exact Or.inr ⟨by simp, closeEvent_eq_ok handled⟩

theorem p2pInvariant_of_reached
    (reached : Reachable (p2pStep checksum fromUtf8Lossy uniqueId worldSize
      heartbeat) p2pStart state) :
    state.stopped = false →
      P2pInvariant checksum uniqueId worldSize state := by
  induction reached with
  | start => exact fun _ => P2pInvariant.start
  | next _ _ stepped holds =>
      intro running
      obtain ⟨earlier, routed | bystanding⟩ := p2pStep_running stepped running
      · obtain ⟨rank, frame, writes, _, routed⟩ := routed
        exact (holds earlier).routed routed
      · exact (holds earlier).bystanding bystanding.2

/-- The sends from one rank to another under one tag. -/
def P2pRequest.onChannel (source destination : UInt32) (tag : UInt64) (request : P2pRequest) :
    Bool :=
  request.frame.header.sourceRank = source ∧ request.frame.header.destinationRank = destination ∧
    request.frame.header.tag = tag

theorem onChannel_uniform (source destination : UInt32) (tag : UInt64) :
    Desk.Uniform P2pRequest.fits (P2pRequest.onChannel source destination tag) := by
  intro left right leftChosen rightChosen partner
  simp only [P2pRequest.onChannel, decide_eq_true_eq] at leftChosen rightChosen
  obtain ⟨leftSource, leftDestination, leftTag⟩ := leftChosen
  obtain ⟨rightSource, rightDestination, rightTag⟩ := rightChosen
  simp only [P2pRequest.fits, p2pMatches, leftSource, leftDestination,
    leftTag, rightSource, rightDestination, rightTag]

/-- An entry leaves a queue because it is the earliest one that fits. -/
def EarliestTaken (fits : P2pRequest → Bool) (queue rest : List P2pRequest)
    (taken : P2pRequest) : Prop :=
  ∃ before after, queue = before ++ taken :: after ∧ rest = before ++ after ∧ fits taken = true ∧
    ∀ other ∈ before, fits other = false

theorem earliestTaken_of_find {fits : P2pRequest → Bool} {queue : List P2pRequest}
    {taken : P2pRequest} (found : queue.find? fits = some taken) :
    EarliestTaken fits queue (queue.eraseP fits) taken := by
  obtain ⟨fitting, before, after, rfl, misses⟩ := List.find?_eq_some_iff_append.mp found
  have missed : ∀ other ∈ before, fits other = false := by
    intro other member
    simpa using misses other member
  refine ⟨before, after, rfl, ?_, fitting, missed⟩
  rw [List.eraseP_append_right, List.eraseP_cons_of_pos fitting]
  intro other member
  simp [missed other member]

/-- A new send goes to the earliest receive that it matches, else it waits;
a new receive takes the earliest send that it matches, else it waits. -/
def RoutesInOrder (state next : P2pState) (request : P2pRequest) : Prop :=
  (request.frame.header.opcode = .send →
    (∃ receive, EarliestTaken (fun receive => p2pMatches request.frame receive.frame)
          state.receives next.receives receive ∧
        next.sends = state.sends ∧
        next.delivered = state.delivered ++ [(request, receive)]) ∨
      ((∀ receive ∈ state.receives, p2pMatches request.frame receive.frame = false) ∧
        next.receives = state.receives ∧
        next.sends = state.sends ++ [request] ∧
        next.delivered = state.delivered)) ∧
  (request.frame.header.opcode = .receive →
    (∃ send, EarliestTaken (fun send => p2pMatches send.frame request.frame)
          state.sends next.sends send ∧
        next.receives = state.receives ∧
        next.delivered = state.delivered ++ [(send, request)]) ∨
      ((∀ send ∈ state.sends, p2pMatches send.frame request.frame = false) ∧
        next.sends = state.sends ∧
        next.receives = state.receives ++ [request] ∧
        next.delivered = state.delivered))

theorem FrameRouted.routesInOrder {frame : Frame}
    (routed : FrameRouted checksum uniqueId worldSize state frame next) :
    RoutesInOrder state next ⟨state.events, frame⟩ := by
  cases routed with
  | send opcode sent =>
      refine ⟨fun _ => ?_, by simp [opcode]⟩
      cases sent with
      | paired found control answers =>
          refine Or.inl ⟨_, earliestTaken_of_find found, rfl, ?_⟩
          simp [P2pState.delivered, control, answers.pair]
      | queued missing control =>
          refine Or.inr ⟨?_, rfl, rfl, ?_⟩
          · simpa using missing
          · simp [P2pState.delivered, control]
  | receive opcode received =>
      refine ⟨by simp [opcode], fun _ => ?_⟩
      cases received with
      | paired found answers =>
          refine Or.inl ⟨_, earliestTaken_of_find found, rfl, ?_⟩
          simp [P2pState.delivered, answers.pair]
      | queued missing =>
          refine Or.inr ⟨?_, rfl, rfl, rfl⟩
          simpa using missing
  | other notSend notReceive bystanding =>
      exact ⟨fun opcode => absurd opcode notSend, fun opcode => absurd opcode notReceive⟩

theorem P2pInvariant.nodup (invariant : P2pInvariant checksum uniqueId worldSize state) :
    state.accepted.Nodup := by
  have distinct : state.accepted.Pairwise (fun left right => left.number < right.number) :=
    List.pairwise_map.mp invariant.ordered
  refine distinct.imp ?_
  intro left right before same
  rw [same] at before
  exact absurd before (lt_irrefl _)

/-- Until the loop ends, no queued send matches a queued receive, every
accepted request waits or was handed over once, answers carry the data of their
send to the receiver, and each channel is served in its order of submission.
Each further round takes the earliest partner. -/
theorem p2p_routing_in_order
    (reached : Reachable (p2pStep checksum fromUtf8Lossy uniqueId worldSize
      heartbeat) p2pStart state)
    (running : state.stopped = false) :
    (∀ send ∈ state.sends, ∀ receive ∈ state.receives,
        p2pMatches send.frame receive.frame = false) ∧
      (state.delivered.map Prod.fst).Nodup ∧
      (state.delivered.map Prod.snd).Nodup ∧
      (∀ send, send ∈ state.acceptedAs .send ↔
        send ∈ state.delivered.map Prod.fst ∨ send ∈ state.sends) ∧
      (∀ send ∈ state.delivered.map Prod.fst, send ∉ state.sends) ∧
      (∀ receive, receive ∈ state.acceptedAs .receive ↔ receive ∈ state.delivered.map Prod.snd ∨
          receive ∈ state.receives) ∧
      (∀ receive ∈ state.delivered.map Prod.snd, receive ∉ state.receives) ∧
      (∀ entry ∈ state.written, ∀ send receive, entry.pair = some (send, receive) →
          p2pMatches send.frame receive.frame = true ∧
            AnswersPair checksum uniqueId worldSize send receive entry) ∧
      (state.accepted.map P2pRequest.number).Pairwise (· < ·) ∧
      (∀ source destination tag, (state.acceptedAs .send).filter
            (P2pRequest.onChannel source destination tag) =
          (state.delivered.map Prod.fst).filter (P2pRequest.onChannel source destination tag) ++
            state.sends.filter (P2pRequest.onChannel source destination tag)) ∧
      (∀ rank frame writes next, p2pStep checksum fromUtf8Lossy uniqueId worldSize heartbeat state
            (.event (.frame rank frame) writes) = some next →
          next.stopped = false → RoutesInOrder state next ⟨state.events, frame⟩) := by
  have invariant := p2pInvariant_of_reached reached running
  have fair := invariant.fair
  have sendPerm := fair.offers.perm
  have receivePerm := fair.wants.perm
  obtain ⟨sendsOnce, _, sendsApart⟩ := fair.offers.nodup (invariant.nodup.filter _)
  obtain ⟨receivesOnce, _, receivesApart⟩ := fair.wants.nodup (invariant.nodup.filter _)
  refine ⟨fair.apart, sendsOnce, receivesOnce, ?_, ?_, ?_, ?_, ?_, invariant.ordered, ?_, ?_⟩
  · intro send
    exact sendPerm.mem_iff.trans List.mem_append
  · intro send handed waiting
    exact sendsApart send handed send waiting rfl
  · intro receive
    exact receivePerm.mem_iff.trans List.mem_append
  · intro receive handed waiting
    exact receivesApart receive handed receive waiting rfl
  · intro entry written send receive paired
    refine ⟨fair.fitting (send, receive) ?_, invariant.answered entry written send receive paired⟩
    exact List.mem_filterMap.mpr ⟨entry, written, paired⟩
  · intro source destination tag
    exact fair.offers _ (onChannel_uniform source destination tag)
  · intro rank frame writes next stepped stillRunning
    obtain ⟨_, routed | bystanding⟩ := p2pStep_running stepped stillRunning
    · obtain ⟨_, _, _, same, routed⟩ := routed
      cases same
      exact routed.routesInOrder
    · exact absurd rfl (bystanding.1 rank frame writes)

end Loop

/-- The header of a one-byte request under tag 5 in a world of two. -/
def byteHeader (opcode : Opcode) (source destination : UInt32) (sequence : UInt64) :
    FrameHeader :=
  { FrameHeader.collective byteSum zeroId opcode .u8 source anyRank 2 sequence 1 with
    destinationRank := destination
    tag := 5 }

/-- Streams that take every frame. -/
def openStreams : P2pWrites :=
  { outcome := fun _ => .ok (), message := [], takes := fun _ => true }

/-- Rank 0 sends two bytes to rank 1, which asks for one from any rank. -/
def wildcardRun : List P2pAction :=
  [.event (.frame 0 ⟨byteHeader .send 0 1 0, [7]⟩) openStreams,
    .event (.frame 0 ⟨byteHeader .send 0 1 1, [8]⟩) openStreams,
    .event (.frame 1 ⟨byteHeader .receive 1 anyRank 0, []⟩) openStreams]

theorem p2p_routing_in_order_wildcard :
    ∃ state, Reachable (p2pStep byteSum (fun _ => "") zeroId 2 false) p2pStart state ∧
      state.stopped = false ∧
      state.delivered.map (fun pair => (pair.1.number, pair.2.number)) = [(0, 2)] ∧
      state.sends.map P2pRequest.number = [1] ∧
      (state.delivered.map Prod.fst).Nodup ∧
      ∀ send ∈ state.delivered.map Prod.fst, send ∉ state.sends := by
  have finished : (follow (p2pStep byteSum (fun _ => "") zeroId 2 false)
      (fun _ _ => True) p2pStart wildcardRun).map (fun final =>
        (final.stopped, final.delivered.map (fun pair => (pair.1.number, pair.2.number)),
          final.sends.map P2pRequest.number)) =
      some (false, [(0, 2)], [1]) := by
    decide
  rw [Option.map_eq_some_iff] at finished
  obtain ⟨state, followed, values⟩ := finished
  have reached := Reached.of_follow .start followed
  rw [Prod.mk.injEq, Prod.mk.injEq] at values
  obtain ⟨running, pairs, waiting⟩ := values
  have routed := p2p_routing_in_order reached running
  exact ⟨state, reached, running, pairs, waiting, routed.2.1, routed.2.2.2.2.1⟩

end RuCCL.Rank
