import RuCCL.Rank.PeerMeshCorrect

/-!
# Receiving from the direct peer mesh

An inbox hands out the frames of one rail, source and tag in the order of their
arrival, each once.  `receive_on_rail` looks at the failure slot of its rank
before it looks at the inbox, and a reader that meets the departure of a peer
fills that slot: from then on a frame that was acknowledged and is still queued
cannot be received.
-/

namespace RuCCL.Rank

open RuCCL.Library

section Expectations

variable (worldSize : UInt32) (rails : Nat)

/-- Runs in which no rank aborts, no stream fails and no deadline passes: a
write fails only on a connection that one of its ranks has closed. -/
def OnlyDepartures (state : MeshState) (action : MeshAction) : Prop :=
  match action with
  | .submitFail send _ =>
      match state.sends send with
      | some ⟨call, _, _⟩ => state.departing call.side = true
      | none => True
  | .acknowledgeFail side _ => state.departing side = true
  | .expire _ | .readFail _ _ | .receiveExpire _ | .abort _ _
  | .failControl _ _ => False
  | _ => True

/-- `queued` is the frame of a successful send to `rank`. -/
def AcknowledgedAt (state : MeshState) (rank : UInt32) (queued : QueuedFrame) : Prop :=
  ∃ send, state.sends queued.send = some send ∧
    send.phase = .returned (.ok ()) ∧ send.call.destination = rank ∧
    send.call.rail = queued.rail ∧ send.frame = some queued.frame

/-- A receive that asks for `queued`, which no frame that arrived earlier and
is still there hides from it. -/
structure AsksFor (state : MeshState) (call : ReceiveCall) (queued : QueuedFrame) :
    Prop where
  selects : call.selects queued = true
  agrees : call.agrees queued = true
  first : ∀ front back, state.pushed call.rank = front ++ queued :: back →
    ∀ earlier ∈ front, call.selects earlier = true → earlier ∈ state.taken call.rank

/-- The receive returns the frame. -/
def Returns (state : MeshState) (call : ReceiveCall) (queued : QueuedFrame) :
    Prop :=
  receiveOnRail worldSize rails (state.failure call.rank)
    (state.inbox call.rank) call = .took queued (.ok queued.frame)

/-- An acknowledged frame that was not received yet is returned by every
receive that asks for it. -/
def ReturnsAcknowledged (state : MeshState) : Prop := ∀ call queued,
    AcknowledgedAt state call.rank queued →
    queued ∉ state.taken call.rank → AsksFor state call queued →
    Returns worldSize rails state call queued

/-- Frames of one rail, source and tag. -/
def SameLane (rail : Nat) (source : UInt32) (tag : UInt64) (queued : QueuedFrame) :
    Bool :=
  decide (queued.rail = rail) &&
    decide (queued.frame.header.sourceRank = source) &&
    decide (queued.frame.header.tag = tag)

/-- On every lane the frames are taken in the order of their arrival, and none
is taken twice. -/
def ArrivalOrder (state : MeshState) : Prop := ∀ rank, (state.pushed rank).Nodup ∧
    ∀ rail source tag, (state.taken rank).filter (SameLane rail source tag) ++
          (state.inbox rank).filter (SameLane rail source tag) =
        (state.pushed rank).filter (SameLane rail source tag)

/-- No thread of the rank has run into a departure. -/
def NoDepartureNoticed (state : MeshState) (rank : UInt32) : Prop :=
  ∀ side ∈ state.noticed, side.rank ≠ rank

end Expectations

theorem eraseP_eq_filter_ne {α : Type} [DecidableEq α] {values : List α} {test : α → Bool}
    {value : α} (distinct : values.Nodup)
    (found : values.find? test = some value) :
    values.eraseP test = values.filter (fun other => other ≠ value) := by
  obtain ⟨holds, front, back, split, skipped⟩ := List.find?_eq_some_iff_append.mp found
  rw [split] at distinct ⊢
  have frontTest : ∀ other ∈ front, ¬test other = true := by
    intro other member
    have rejected := skipped other member
    simpa using rejected
  rw [List.eraseP_append_right _ frontTest, List.eraseP_cons_of_pos holds, List.filter_append,
    List.filter_cons_of_neg (by simp)]
  rw [List.nodup_append, List.nodup_cons] at distinct
  obtain ⟨_, ⟨absent, _⟩, apart⟩ := distinct
  congr 1
  · symm
    rw [List.filter_eq_self]
    intro other member
    simpa using apart other member value List.mem_cons_self
  · symm
    rw [List.filter_eq_self]
    intro other member
    have different : other ≠ value := by
      intro equal
      rw [equal] at member
      exact absent member
    simpa using different

/-- The part of the invariant that concerns inboxes. -/
structure InboxInvariant (state : MeshState) : Prop where
  distinct : ∀ rank, (state.pushed rank).Nodup
  remaining : ∀ rank, state.inbox rank = (state.pushed rank).filter fun queued =>
      queued ∉ state.taken rank
  known : ∀ rank, ∀ queued ∈ state.taken rank, queued ∈ state.pushed rank
  lanes : ∀ rank rail source tag, (state.taken rank).filter (SameLane rail source tag) ++
        (state.inbox rank).filter (SameLane rail source tag) =
      (state.pushed rank).filter (SameLane rail source tag)

/-- Queueing a new frame. -/
theorem InboxInvariant.push {state : MeshState} {rank : UInt32} {queued : QueuedFrame}
    (invariant : InboxInvariant state)
    (new : queued ∉ state.pushed rank) :
    InboxInvariant (state.push rank queued) := by
  have untaken : queued ∉ state.taken rank :=
    fun member => new (invariant.known rank queued member)
  refine ⟨?_, ?_, ?_, ?_⟩
  · intro other
    by_cases same : other = rank
    · rw [same]
      simp only [MeshState.push, Function.update_self]
      rw [List.nodup_append]
      refine ⟨invariant.distinct rank, by simp, ?_⟩
      intro left leftMember right rightMember equal
      rw [List.mem_singleton.mp rightMember] at equal
      rw [equal] at leftMember
      exact new leftMember
    · simp only [MeshState.push, Function.update_of_ne same]
      exact invariant.distinct other
  · intro other
    by_cases same : other = rank
    · rw [same]
      simp only [MeshState.push, Function.update_self, List.filter_append,
        invariant.remaining rank]
      congr 1
      simp [untaken]
    · simp only [MeshState.push, Function.update_of_ne same]
      exact invariant.remaining other
  · intro other found member
    exact mem_pushed_push (invariant.known other found member)
  · intro other rail source tag
    by_cases same : other = rank
    · rw [same]
      simp only [MeshState.push, Function.update_self, List.filter_append, ← List.append_assoc]
      rw [invariant.lanes rank rail source tag]
    · simp only [MeshState.push, Function.update_of_ne same]
      exact invariant.lanes other rail source tag

theorem InboxInvariant.congr {state next : MeshState} (invariant : InboxInvariant state)
    (pushed : next.pushed = state.pushed)
    (inbox : next.inbox = state.inbox)
    (taken : next.taken = state.taken) : InboxInvariant next := by
  refine ⟨?_, ?_, ?_, ?_⟩
  · rw [pushed]
    exact invariant.distinct
  · rw [pushed, inbox, taken]
    exact invariant.remaining
  · rw [pushed, taken]
    exact invariant.known
  · rw [pushed, inbox, taken]
    exact invariant.lanes

/-- A frame that a receive skips is of another lane than the one it takes. -/
theorem sameLane_of_selects {call : ReceiveCall} {queued other : QueuedFrame} {rail : Nat}
    {source : UInt32} {tag : UInt64}
    (lane : SameLane rail source tag queued = true)
    (otherLane : SameLane rail source tag other = true)
    (selects : call.selects queued = true) :
    call.selects other = true := by
  simp only [SameLane, Bool.and_eq_true, decide_eq_true_eq] at lane otherLane
  unfold ReceiveCall.selects at selects ⊢
  rw [otherLane.1.1, otherLane.1.2, otherLane.2]
  rw [lane.1.1, lane.1.2, lane.2] at selects
  exact selects

/-- Taking the first frame that a receive selects. -/
theorem InboxInvariant.take {state : MeshState} {call : ReceiveCall} {queued : QueuedFrame}
    (invariant : InboxInvariant state)
    (found : (state.inbox call.rank).find? call.selects = some queued) :
    InboxInvariant
      { state with
        inbox := Function.update state.inbox call.rank
          ((state.inbox call.rank).eraseP call.selects)
        taken := Function.update state.taken call.rank (state.taken call.rank ++ [queued]) } := by
  have distinct : (state.inbox call.rank).Nodup := by
    rw [invariant.remaining]
    exact (invariant.distinct call.rank).filter _
  have erased := eraseP_eq_filter_ne distinct found
  refine ⟨invariant.distinct, ?_, ?_, ?_⟩
  · intro rank
    by_cases same : rank = call.rank
    · rw [same]
      simp only [Function.update_self]
      rw [erased, invariant.remaining, List.filter_filter]
      apply List.filter_congr
      intro other _
      simp [and_comm]
    · simp only [Function.update_of_ne same]
      exact invariant.remaining rank
  · intro rank other member
    by_cases same : rank = call.rank
    · rw [same] at member ⊢
      simp only [Function.update_self, List.mem_append, List.mem_singleton] at member
      rcases member with early | late
      · exact invariant.known call.rank other early
      · rw [late]
        have inside := List.mem_of_find?_eq_some found
        rw [invariant.remaining] at inside
        exact List.mem_of_mem_filter inside
    · simp only [Function.update_of_ne same] at member
      exact invariant.known rank other member
  · intro rank rail source tag
    by_cases same : rank = call.rank
    · rw [same]
      simp only [Function.update_self]
      rw [← invariant.lanes call.rank rail source tag]
      obtain ⟨holds, front, back, split, skipped⟩ := List.find?_eq_some_iff_append.mp found
      have frontTest : ∀ other ∈ front, ¬call.selects other = true := by
        intro other member
        have rejected := skipped other member
        simpa using rejected
      rw [split, List.eraseP_append_right _ frontTest, List.eraseP_cons_of_pos holds]
      by_cases lane : SameLane rail source tag queued = true
      · -- nothing of this lane is in front of the taken frame
        have noFront : front.filter (SameLane rail source tag) = [] := by
          rw [List.filter_eq_nil_iff]
          intro other member otherLane
          exact frontTest other member (sameLane_of_selects lane otherLane holds)
        simp [noFront, lane]
      · simp [lane]
    · simp only [Function.update_of_ne same]
      exact invariant.lanes rank rail source tag

section Graceful

variable (checksum : List UInt8 → UInt32) (uniqueId : UniqueId)
variable (worldSize : UInt32) (rails : Nat)

/-- A packet written by `side` that the reader on the other side accepts. -/
def Readable (side : Endpoint) (packet : Packet) : Prop :=
  let header := packet.frame.header
  validEnvelope uniqueId worldSize side.mirror header = true ∧
    (header.opcode = .leave ∨
      (header.opcode = .send ∧ header.elementType = .none ∧
        packet.frame.payload = [] ∧ header.elementCount = 0) ∨
      (header.opcode = .send ∧ header.elementType ≠ .none ∧
        ∃ acknowledgement, peerSendAcknowledgement checksum uniqueId
          worldSize side.mirror packet.frame = .ok acknowledgement))

variable {checksum uniqueId worldSize rails}

theorem Frame.new_nil_of_valid {header : FrameHeader}
    (valid : header.validate checksum (some []) = .ok ()) :
    Frame.new checksum header [] = .ok ⟨header, []⟩ := by
  simp [Frame.new, valid]

/-- Between ranks of the world an acknowledgement can always be built. -/
theorem exists_peerSendAcknowledgement {side : Endpoint} (rank : side.rank < worldSize)
    (peer : side.peer < worldSize) (send : Frame) :
    ∃ acknowledgement, peerSendAcknowledgement checksum uniqueId worldSize
      side send = .ok acknowledgement := by
  have world : worldSize ≠ 0 := by
    intro empty
    rw [empty] at rank
    exact absurd rank (by simp)
  have valid : FrameHeader.validate checksum
      { FrameHeader.collective checksum uniqueId .send .none side.rank
          anyRank worldSize send.header.sequence 0 with
        destinationRank := side.peer
        tag := send.header.tag }
      (some []) = .ok () := by
    rw [FrameHeader.validate_some_eq_ok_iff]
    refine ⟨?_, rfl, rfl⟩
    simp [FrameHeader.validate, FrameHeader.validateHeader,
      FrameHeader.collective, FrameHeader.validateElementLength,
      validateRank, rejectIf, world, rank, peer, maxFramePayloadBytes]
  exact ⟨_, Frame.new_nil_of_valid valid⟩

theorem source_lt_of_frame {call : SendCall} {sequence : UInt64} {frame : Frame}
    (built : call.frame checksum uniqueId worldSize sequence = .ok frame) :
    call.rank < worldSize := by
  have meets := Frame.builtFrom_of_new checksum built
  have valid := meets.valid
  rw [FrameHeader.validate_some_eq_ok_iff] at valid
  have header := valid.1
  simp only [FrameHeader.validate, FrameHeader.validateHeader,
    bind_eq_ok_iff, rejectIf_eq_ok_iff] at header
  obtain ⟨_, ⟨_, _, _, _, _, _, _, _, _, inside, _⟩, _⟩ := header
  unfold validateRank at inside
  split at inside
  case isTrue holds =>
    rcases holds with ⟨impossible, _⟩ | below
    · cases impossible
    · rw [meets.source, meets.world] at below
      exact below
  case isFalse => cases inside

/-- A typed data frame for a rank of the world. -/
theorem readable_data {call : SendCall} {sequence : UInt64} {frame : Frame} {origin : Origin}
    (typed : call.elementType ≠ .none)
    (inside : call.destination < worldSize)
    (built : call.frame checksum uniqueId worldSize sequence = .ok frame) :
    Readable checksum uniqueId worldSize call.side ⟨frame, origin⟩ := by
  have meets := Frame.builtFrom_of_new checksum built
  constructor
  · simp [validEnvelope, meets.session, meets.world, meets.source,
      meets.destination, meets.root, FrameHeader.collective,
      SendCall.side, Endpoint.mirror]
  · right
    right
    refine ⟨meets.opcode, ?_, ?_⟩
    · rw [meets.elementType]
      exact typed
    · exact exists_peerSendAcknowledgement inside (source_lt_of_frame built) frame

theorem readable_acknowledgement
    {side : Endpoint} {send acknowledgement : Frame} {origin : Origin}
    (built : peerSendAcknowledgement checksum uniqueId worldSize side
      send = .ok acknowledgement) :
    Readable checksum uniqueId worldSize side ⟨acknowledgement, origin⟩ := by
  have meets := Frame.builtFrom_of_new checksum built
  constructor
  · simp [validEnvelope, meets.session, meets.world, meets.source,
      meets.destination, meets.root, FrameHeader.collective,
      Endpoint.mirror]
  · right
    left
    exact ⟨meets.opcode, meets.elementType, meets.payload, meets.count⟩

theorem readable_leave {side : Endpoint} {frame : Frame} {origin : Origin}
    (built : Frame.new checksum
      (noticeHeader checksum uniqueId worldSize side .leave .none 0) [] = .ok frame) :
    Readable checksum uniqueId worldSize side ⟨frame, origin⟩ := by
  have meets := Frame.builtFrom_of_new checksum built
  constructor
  · simp [validEnvelope, meets.session, meets.world, meets.source,
      meets.destination, meets.root, noticeHeader,
      FrameHeader.collective, Endpoint.mirror]
  · exact Or.inl meets.opcode

variable (checksum uniqueId worldSize rails)

structure GracefulInvariant (state : MeshState) : Prop where
  mesh : MeshInvariant checksum uniqueId worldSize state
  accepted : ∀ id send, state.sends id = some send → send.frame ≠ none ∨ send.phase = .checked →
    send.call.rail < rails ∧ send.call.destination < worldSize
  readable : ∀ side packet, packet ∈ state.streams side ∨
      state.readers side = .acknowledging packet →
    Readable checksum uniqueId worldSize side packet
  noticed : ∀ rank, state.failure rank ≠ none ↔ ∃ side ∈ state.noticed, side.rank = rank
  inboxes : InboxInvariant state

/-- What a step that writes and accepts nothing may do to calls, streams and
readers. -/
structure Recedes (state next : MeshState) : Prop where
  record : ∀ id, next.record id = state.record id
  checked : ∀ id call frame, next.sends id = some ⟨call, frame, .checked⟩ →
    state.sends id = some ⟨call, frame, .checked⟩
  streams : ∀ side, next.streams side ⊆ state.streams side
  readers : ∀ side packet, next.readers side = .acknowledging packet →
    state.readers side = .acknowledging packet

variable {checksum uniqueId worldSize rails} {state next : MeshState}

theorem Shrinks.recedes (shrinks : Shrinks state next) :
    Recedes state next :=
  ⟨shrinks.record, shrinks.checked, fun side => (shrinks.streams side).subset, shrinks.readers⟩

theorem Recedes.accepted (recedes : Recedes state next)
    (accepted : ∀ id send, state.sends id = some send →
      send.frame ≠ none ∨ send.phase = .checked →
      send.call.rail < rails ∧ send.call.destination < worldSize) :
    ∀ id send, next.sends id = some send → send.frame ≠ none ∨ send.phase = .checked →
      send.call.rail < rails ∧ send.call.destination < worldSize := by
  intro id send located written
  rcases written with framed | isChecked
  · have recorded := recedes.record id
    rw [MeshState.record, located, MeshState.record] at recorded
    obtain ⟨before, found, same⟩ := Option.map_eq_some_iff.mp recorded.symm
    rw [Prod.mk.injEq] at same
    rw [← same.1]
    rw [← same.2] at framed
    exact accepted id before found (Or.inl framed)
  · obtain ⟨call, frame, phase⟩ := send
    cases isChecked
    exact accepted id _ (recedes.checked id call frame located) (Or.inr rfl)

theorem Recedes.readable (recedes : Recedes state next)
    (readable : ∀ side packet, packet ∈ state.streams side ∨
        state.readers side = .acknowledging packet →
      Readable checksum uniqueId worldSize side packet) :
    ∀ side packet, packet ∈ next.streams side ∨ next.readers side = .acknowledging packet →
      Readable checksum uniqueId worldSize side packet := by
  intro side packet present
  rcases present with member | phase
  · exact readable side packet (Or.inl (recedes.streams side member))
  · exact readable side packet (Or.inr (recedes.readers side packet phase))

/-- A step of a waiting call or a reader that notices nothing. -/
theorem GracefulInvariant.quiet
    (invariant : GracefulInvariant checksum uniqueId worldSize rails state)
    (mesh : MeshInvariant checksum uniqueId worldSize next)
    (recedes : Recedes state next)
    (failure : next.failure = state.failure)
    (noticed : next.noticed = state.noticed)
    (pushed : next.pushed = state.pushed)
    (inbox : next.inbox = state.inbox)
    (taken : next.taken = state.taken) :
    GracefulInvariant checksum uniqueId worldSize rails next where
  mesh := mesh
  accepted := recedes.accepted invariant.accepted
  readable := recedes.readable invariant.readable
  noticed := by
    rw [failure, noticed]
    exact invariant.noticed
  inboxes := invariant.inboxes.congr pushed inbox taken

/-- A step that runs into a departure fills the failure slot of its rank. -/
theorem GracefulInvariant.notices {side : Endpoint} {message : Message}
    (invariant : GracefulInvariant checksum uniqueId worldSize rails state)
    (mesh : MeshInvariant checksum uniqueId worldSize next)
    (recedes : Recedes state next)
    (failure : next.failure = Function.update state.failure side.rank
      (some ((state.failure side.rank).getD message)))
    (noticed : next.noticed = state.noticed ++ [side])
    (pushed : next.pushed = state.pushed)
    (inbox : next.inbox = state.inbox)
    (taken : next.taken = state.taken) :
    GracefulInvariant checksum uniqueId worldSize rails next where
  mesh := mesh
  accepted := recedes.accepted invariant.accepted
  readable := recedes.readable invariant.readable
  noticed := by
    intro rank
    rw [failure, noticed]
    by_cases same : rank = side.rank
    · rw [same, Function.update_self]
      constructor
      · intro _
        exact ⟨side, List.mem_append_right _ List.mem_cons_self, rfl⟩
      · intro _ empty
        cases empty
    · rw [Function.update_of_ne same, invariant.noticed rank]
      constructor
      · intro ⟨other, member, sameRank⟩
        exact ⟨other, List.mem_append_left _ member, sameRank⟩
      · intro ⟨other, member, sameRank⟩
        rcases List.mem_append.mp member with early | late
        · exact ⟨other, early, sameRank⟩
        · rw [List.mem_singleton.mp late] at sameRank
          exact absurd sameRank.symm same
  inboxes := invariant.inboxes.congr pushed inbox taken

/-- A failed write on a connection that a departure closed. -/
theorem GracefulInvariant.noticesDeparture
    {failed : MeshState} {side : Endpoint} {message : Message}
    (invariant : GracefulInvariant checksum uniqueId worldSize rails state)
    (mesh : MeshInvariant checksum uniqueId worldSize (failed.noticeDeparture side))
    (recedes : Recedes state failed)
    (departing : state.departing side = true)
    (closed : failed.closed = state.closed)
    (failure : failed.failure = Function.update state.failure side.rank
      (some ((state.failure side.rank).getD message)))
    (noticed : failed.noticed = state.noticed)
    (pushed : failed.pushed = state.pushed)
    (inbox : failed.inbox = state.inbox)
    (taken : failed.taken = state.taken) :
    GracefulInvariant checksum uniqueId worldSize rails (failed.noticeDeparture side) := by
  have notices : failed.noticeDeparture side = failed.notice side := by
    rw [MeshState.noticeDeparture, if_pos]
    rw [MeshState.departing, closed]
    exact departing
  rw [notices] at mesh ⊢
  refine invariant.notices mesh ⟨recedes.record, recedes.checked,
    recedes.streams, recedes.readers⟩ failure ?_ pushed inbox taken
  rw [MeshState.notice, noticed]

theorem SendCall.check_eq_ok {call : SendCall} {failure : Option Message}
    (checked : call.check worldSize rails failure = .ok ()) :
    call.rail < rails ∧ call.destination < worldSize := by
  simp only [SendCall.check, validateRail, validatePeer, bind_eq_ok_iff,
    rejectIf_eq_ok_iff, not_not] at checked
  obtain ⟨_, rail, _, peer, _⟩ := checked
  exact ⟨rail, peer⟩

/-- A new call that passed the checks or failed in them. -/
theorem GracefulInvariant.addSend {send : Send}
    (invariant : GracefulInvariant checksum uniqueId worldSize rails state)
    (mesh : MeshInvariant checksum uniqueId worldSize (state.addSend send))
    (accepted : send.frame ≠ none ∨ send.phase = .checked →
      send.call.rail < rails ∧ send.call.destination < worldSize) :
    GracefulInvariant checksum uniqueId worldSize rails (state.addSend send) := by
  refine ⟨mesh, ?_, invariant.readable, invariant.noticed, invariant.inboxes.congr rfl rfl rfl⟩
  intro id found located written
  by_cases new : id = state.calls
  · rw [new] at located
    simp only [MeshState.addSend, Function.update_self, Option.some.injEq] at located
    rw [← located] at written ⊢
    exact accepted written
  · simp only [MeshState.addSend, Function.update_of_ne new] at located
    exact invariant.accepted id found located written

theorem gracefulInvariant_startStep {call : SendCall}
    (invariant : GracefulInvariant checksum uniqueId worldSize rails state)
    (typed : call.elementType ≠ .none ∨ call.destination = call.rank)
    (stepped : startStep checksum uniqueId worldSize rails state call = some next) :
    GracefulInvariant checksum uniqueId worldSize rails next := by
  have mesh := meshInvariant_startStep invariant.mesh typed stepped
  unfold startStep at stepped
  split at stepped
  · cases stepped
  split at stepped
  · cases stepped
    exact invariant.addSend mesh (by simp)
  case h_2 checked =>
    have inside := SendCall.check_eq_ok checked
    split at stepped
    case isTrue own =>
      split at stepped
      · cases stepped
        exact invariant.addSend mesh (by simp)
      case h_2 frame built =>
        cases stepped
        refine ⟨mesh, ?_, invariant.readable, invariant.noticed, ?_⟩
        · intro id found located written
          by_cases new : id = state.calls
          · rw [new] at located
            simp only [MeshState.push, MeshState.addSend,
              Function.update_self, Option.some.injEq] at located
            rw [← located]
            exact inside
          · simp only [MeshState.push, MeshState.addSend, Function.update_of_ne new] at located
            exact invariant.accepted id found located written
        · apply InboxInvariant.push
          · exact invariant.inboxes.congr rfl rfl rfl
          · intro member
            obtain ⟨_, recorded, _⟩ := invariant.mesh.pushed call.rank _ member
            exact absurd (invariant.mesh.toMeshCore.id_lt recorded) (lt_irrefl _)
    case isFalse =>
      cases stepped
      exact invariant.addSend mesh (fun _ => inside)

theorem gracefulInvariant_submitStep {send : Nat} {failed : Option String}
    (invariant : GracefulInvariant checksum uniqueId worldSize rails state)
    (departs : ∀ call frame phase, failed ≠ none → state.sends send = some ⟨call, frame, phase⟩ →
      state.departing call.side = true)
    (stepped : submitStep checksum uniqueId worldSize state send failed = some next) :
    GracefulInvariant checksum uniqueId worldSize rails next := by
  have mesh := meshInvariant_submitStep invariant.mesh stepped
  unfold submitStep at stepped
  split at stepped
  case h_2 => cases stepped
  case h_1 call written waiting =>
    obtain ⟨empty, other, typed⟩ := invariant.mesh.checked send call written waiting
    have inside := invariant.accepted send _ waiting (Or.inr rfl)
    dsimp only at stepped inside
    split at stepped
    case h_1 =>
      cases stepped
      exact invariant.quiet mesh
        (shrinks_setPhase state (by simp) (by simp)).recedes rfl rfl rfl
        rfl rfl
    case h_2 sequence added =>
      rw [checkedAdd_eq_some_iff] at added
      have advanced : (state.nextSequence call.side).toNat + 1 =
          (UInt64.ofNat sequence).toNat := by
        rw [added.2]
        exact (UInt64.toNat_ofNat_of_lt' added.1).symm
      split at stepped
      case h_1 =>
        cases stepped
        exact invariant.quiet mesh
          ((shrinks_skipSequence state advanced).trans
            (shrinks_setPhase _ (by simp) (by simp))).recedes rfl rfl rfl
          rfl rfl
      case h_2 frame built =>
        split at stepped
        case h_1 cause =>
          cases stepped
          refine invariant.noticesDeparture mesh ?_
            (departs call written .checked (by simp) waiting) rfl rfl rfl
            rfl rfl rfl
          exact ((shrinks_failedWrite state advanced _ _ _).trans
            (shrinks_setPhase _ (by simp) (by simp))).recedes
        case h_2 =>
          cases stepped
          refine ⟨mesh, ?_, ?_, invariant.noticed, invariant.inboxes.congr rfl rfl rfl⟩
          · intro id found located framed
            by_cases same : id = send
            · rw [same] at located
              simp only [MeshState.write, Function.update_self, Option.some.injEq] at located
              rw [← located]
              exact inside
            · simp only [MeshState.write, Function.update_of_ne same] at located
              exact invariant.accepted id found located framed
          · intro side packet present
            rcases present with member | phase
            · by_cases same : side = call.side
              · rw [same] at member ⊢
                simp only [MeshState.write, Function.update_self,
                  List.mem_append, List.mem_singleton] at member
                rcases member with early | late
                · exact invariant.readable call.side packet (Or.inl early)
                · rw [late]
                  exact readable_data typed inside.2 built
              · simp only [MeshState.write, Function.update_of_ne same] at member
                exact invariant.readable side packet (Or.inl member)
            · exact invariant.readable side packet (Or.inr phase)

theorem gracefulInvariant_pollStep {send : Nat}
    (invariant : GracefulInvariant checksum uniqueId worldSize rails state)
    (stepped : pollStep state send = some next) :
    GracefulInvariant checksum uniqueId worldSize rails next := by
  have shrinks := shrinks_pollStep stepped
  have mesh := invariant.mesh.of_shrinks shrinks
  unfold pollStep at stepped
  split at stepped
  case h_2 => cases stepped
  case h_1 =>
    split at stepped <;> cases stepped <;>
      exact invariant.quiet mesh shrinks.recedes rfl rfl rfl rfl rfl

theorem gracefulInvariant_receiveAckStep {send : Nat}
    (invariant : GracefulInvariant checksum uniqueId worldSize rails state)
    (stepped : receiveAckStep state send = some next) :
    GracefulInvariant checksum uniqueId worldSize rails next := by
  have shrinks := shrinks_receiveAckStep stepped
  have mesh := invariant.mesh.of_shrinks shrinks
  unfold receiveAckStep at stepped
  split at stepped
  case h_2 => cases stepped
  case h_1 =>
    split at stepped
    · cases stepped
      exact invariant.quiet mesh shrinks.recedes rfl rfl rfl rfl rfl
    · cases stepped
      exact invariant.quiet mesh shrinks.recedes rfl rfl rfl rfl rfl
    · split at stepped
      · cases stepped
      · cases stepped
        exact invariant.quiet mesh shrinks.recedes rfl rfl rfl rfl rfl

theorem gracefulInvariant_retryStep {send : Nat}
    (invariant : GracefulInvariant checksum uniqueId worldSize rails state)
    (stepped : retryStep state send = some next) :
    GracefulInvariant checksum uniqueId worldSize rails next := by
  have shrinks := shrinks_retryStep stepped
  have mesh := invariant.mesh.of_shrinks shrinks
  unfold retryStep at stepped
  split at stepped
  case h_2 => cases stepped
  case h_1 =>
    split at stepped
    · cases stepped
      exact invariant.quiet mesh shrinks.recedes rfl rfl rfl rfl rfl
    · cases stepped

theorem GracefulInvariant.write {side : Endpoint} {packet : Packet}
    (invariant : GracefulInvariant checksum uniqueId worldSize rails state)
    (mesh : MeshInvariant checksum uniqueId worldSize (state.write side packet))
    (readable : Readable checksum uniqueId worldSize side packet) :
    GracefulInvariant checksum uniqueId worldSize rails (state.write side packet) := by
  refine ⟨mesh, invariant.accepted, ?_, invariant.noticed, invariant.inboxes.congr rfl rfl rfl⟩
  intro other found present
  rcases present with member | phase
  · by_cases same : other = side
    · rw [same] at member ⊢
      simp only [MeshState.write, Function.update_self, List.mem_append,
        List.mem_singleton] at member
      rcases member with early | late
      · exact invariant.readable side found (Or.inl early)
      · rw [late]
        exact readable
    · simp only [MeshState.write, Function.update_of_ne same] at member
      exact invariant.readable other found (Or.inl member)
  · exact invariant.readable other found (Or.inr phase)

/-- Handing over an acknowledgement touches neither streams nor inboxes. -/
theorem recedes_acknowledgeSend (side : Endpoint) (packet : Packet) (state : MeshState) :
    Recedes state (acknowledgeSend side packet state) ∧
      (acknowledgeSend side packet state).failure = state.failure ∧
      (acknowledgeSend side packet state).noticed = state.noticed ∧
      (acknowledgeSend side packet state).pushed = state.pushed ∧
      (acknowledgeSend side packet state).inbox = state.inbox ∧
      (acknowledgeSend side packet state).taken = state.taken := by
  unfold acknowledgeSend
  dsimp only
  split <;>
    exact ⟨⟨fun _ => rfl, fun _ _ _ found => found,
      fun _ => List.Subset.refl _, fun _ _ phase => phase⟩,
      rfl, rfl, rfl, rfl, rfl⟩

theorem gracefulInvariant_readPeerStep {side : Endpoint}
    (invariant : GracefulInvariant checksum uniqueId worldSize rails state)
    (stepped : readPeerStep checksum uniqueId worldSize state side = some next) :
    GracefulInvariant checksum uniqueId worldSize rails next := by
  have mesh := meshInvariant_readPeerStep invariant.mesh stepped
  unfold readPeerStep at stepped
  split at stepped
  case h_2 => cases stepped
  case h_1 packet rest _ head =>
    have member : packet ∈ state.streams side.mirror := by
      rw [head]
      exact List.mem_cons_self
    have marked := invariant.mesh.streams side.mirror packet member
    obtain ⟨envelope, kinds⟩ := invariant.readable side.mirror packet (Or.inl member)
    rw [Endpoint.mirror_mirror] at envelope kinds
    have popped := (shrinks_pop head).recedes
    simp only [Option.some.injEq] at stepped
    rw [← stepped] at mesh ⊢
    unfold dispatchFrame at mesh ⊢
    dsimp only at mesh ⊢ kinds
    rw [envelope] at mesh ⊢
    simp only [Bool.true_eq_false, if_false] at mesh ⊢
    rcases kinds with
      opcode | ⟨opcode, bare, noPayload, noCount⟩ |
      ⟨opcode, typed, acknowledgement, built⟩
    · -- a departure
      simp only [opcode] at mesh ⊢
      refine invariant.notices mesh ?_ rfl rfl rfl rfl rfl
      exact ((shrinks_pop head).trans ((shrinks_stopReader _ _ _).trans
        (shrinks_notice _ _))).recedes
    · -- an acknowledgement
      simp only [opcode, bare, noPayload, noCount, if_true, ne_eq,
        not_true_eq_false, or_self, if_false] at mesh ⊢
      obtain ⟨recedes, failure, noticed, pushed, inbox, taken⟩ :=
        recedes_acknowledgeSend side packet
          { state with
            streams := Function.update state.streams side.mirror rest }
      refine invariant.quiet mesh ?_ failure noticed pushed inbox taken
      exact ⟨fun id => (recedes.record id).trans (popped.record id), fun id call frame found =>
          popped.checked id call frame (recedes.checked id call frame found),
        fun other => List.Subset.trans (recedes.streams other) (popped.streams other),
        fun other found phase =>
          popped.readers other found (recedes.readers other found phase)⟩
    · -- data
      simp only [opcode, typed, if_false, built] at mesh ⊢
      have unqueued : ⟨packet.origin.send, side.rail, packet.frame⟩ ∉
          state.pushed side.rank := by
        rcases marked with
          ⟨id, origin, _, _, _, absent⟩ | ⟨_, _, _, _, _, bare⟩ |
          ⟨_, different⟩
        · intro present
          apply absent
          rw [List.mem_map]
          refine ⟨_, present, ?_⟩
          rw [origin]
          rfl
        · exact absurd bare typed
        · exact absurd opcode different
      refine ⟨mesh, invariant.accepted, ?_, invariant.noticed, ?_⟩
      · intro other found present
        rcases present with inside | phase
        · exact invariant.readable other found (Or.inl (popped.streams other inside))
        · by_cases same : other = side
          · rw [same] at phase ⊢
            simp only [MeshState.setReader, Function.update_self,
              ReaderPhase.acknowledging.injEq] at phase
            rw [← phase]
            exact readable_acknowledgement built
          · simp only [MeshState.setReader, Function.update_of_ne same] at phase
            exact invariant.readable other found (Or.inr phase)
      · have queued : InboxInvariant (MeshState.push
            { state with
              streams := Function.update state.streams side.mirror rest }
            side.rank ⟨packet.origin.send, side.rail, packet.frame⟩) :=
          InboxInvariant.push (invariant.inboxes.congr rfl rfl rfl) unqueued
        exact queued.congr rfl rfl rfl

theorem gracefulInvariant_acknowledgeStep {side : Endpoint}
    (invariant : GracefulInvariant checksum uniqueId worldSize rails state)
    (stepped : acknowledgeStep state side = some next) :
    GracefulInvariant checksum uniqueId worldSize rails next := by
  have mesh := meshInvariant_acknowledgeStep invariant.mesh stepped
  unfold acknowledgeStep at stepped
  split at stepped
  case h_2 => cases stepped
  case h_1 packet phase =>
    split at stepped
    · cases stepped
    · cases stepped
      refine ⟨mesh, invariant.accepted, ?_, invariant.noticed,
        invariant.inboxes.congr rfl rfl rfl⟩
      intro other found present
      rcases present with member | reading
      · by_cases same : other = side
        · rw [same] at member ⊢
          simp only [MeshState.setReader, MeshState.write, Function.update_self, List.mem_append,
            List.mem_singleton] at member
          rcases member with early | late
          · exact invariant.readable side found (Or.inl early)
          · rw [late]
            exact invariant.readable side packet (Or.inr phase)
        · simp only [MeshState.setReader, MeshState.write, Function.update_of_ne same] at member
          exact invariant.readable other found (Or.inl member)
      · by_cases same : other = side
        · rw [same] at reading
          simp [MeshState.setReader] at reading
        · simp only [MeshState.setReader, MeshState.write, Function.update_of_ne same] at reading
          exact invariant.readable other found (Or.inr reading)

theorem gracefulInvariant_acknowledgeFailStep {side : Endpoint} {cause : String}
    (invariant : GracefulInvariant checksum uniqueId worldSize rails state)
    (departing : state.departing side = true)
    (stepped : acknowledgeFailStep state side cause = some next) :
    GracefulInvariant checksum uniqueId worldSize rails next := by
  have mesh := invariant.mesh.of_shrinks (shrinks_acknowledgeFailStep stepped)
  unfold acknowledgeFailStep at stepped
  split at stepped
  · cases stepped
    exact invariant.noticesDeparture mesh
      (shrinks_stopReader _ _ _).recedes departing rfl rfl rfl rfl rfl rfl
  · cases stepped

theorem gracefulInvariant_readPeerClosedStep {side : Endpoint}
    (invariant : GracefulInvariant checksum uniqueId worldSize rails state)
    (stepped : readPeerClosedStep state side = some next) :
    GracefulInvariant checksum uniqueId worldSize rails next := by
  have shrinks := shrinks_readPeerClosedStep stepped
  have mesh := invariant.mesh.of_shrinks shrinks
  unfold readPeerClosedStep at stepped
  split at stepped
  · split at stepped
    · cases stepped
      exact invariant.notices mesh shrinks.recedes rfl rfl rfl rfl rfl
    · cases stepped
  · cases stepped

/-! ## Receives and departures -/

/-- What a receive that takes a frame has found. -/
theorem receiveOnRail_took {failure : Option Message} {inbox : List QueuedFrame}
    {call : ReceiveCall} {queued : QueuedFrame}
    {result : Except NetworkError Frame}
    (took : receiveOnRail worldSize rails failure inbox call = .took queued result) :
    inbox.find? call.selects = some queued := by
  unfold receiveOnRail at took
  split at took
  · cases took
  split at took
  · cases took
  split at took
  case h_1 found located => split at took <;> cases took <;> exact located
  case h_2 => cases took

theorem gracefulInvariant_receiveStep {call : ReceiveCall}
    (invariant : GracefulInvariant checksum uniqueId worldSize rails state)
    (stepped : receiveStep worldSize rails state call = some next) :
    GracefulInvariant checksum uniqueId worldSize rails next := by
  have shrinks := shrinks_receiveStep stepped
  have mesh := invariant.mesh.of_shrinks shrinks
  unfold receiveStep at stepped
  split at stepped
  · cases stepped
  split at stepped
  · cases stepped
    exact invariant
  case h_2 queued result took =>
    cases stepped
    exact ⟨mesh, invariant.accepted, invariant.readable,
      invariant.noticed, invariant.inboxes.take (receiveOnRail_took took)⟩
  · cases stepped

theorem gracefulInvariant_leaveStep {side : Endpoint}
    (invariant : GracefulInvariant checksum uniqueId worldSize rails state)
    (stepped : leaveStep checksum uniqueId worldSize rails state side = some next) :
    GracefulInvariant checksum uniqueId worldSize rails next := by
  have mesh := meshInvariant_leaveStep invariant.mesh stepped
  unfold leaveStep at stepped
  split at stepped
  · cases stepped
  cases built : Frame.new checksum
      (noticeHeader checksum uniqueId worldSize side .leave .none 0) [] with
  | error failure =>
      rw [built] at stepped
      cases stepped
      exact ⟨mesh, invariant.accepted, invariant.readable,
        invariant.noticed, invariant.inboxes.congr rfl rfl rfl⟩
  | ok frame =>
      have readable : Readable checksum uniqueId worldSize side
          ⟨frame, .notice⟩ := readable_leave built
      have notice : frame.header.opcode ≠ .send := by
        rw [(Frame.builtFrom_of_new checksum built).opcode]
        simp [noticeHeader, FrameHeader.collective]
      have written := invariant.write
        (invariant.mesh.write (Or.inr (Or.inr ⟨rfl, notice⟩))
          (fun id carries => by cases carries))
        readable
      rw [built] at stepped
      cases stepped
      exact ⟨mesh, written.accepted, written.readable, written.noticed,
        written.inboxes.congr rfl rfl rfl⟩

theorem gracefulInvariant_start (checksum : List UInt8 → UInt32) (uniqueId : UniqueId)
    (worldSize : UInt32) (rails : Nat) :
    GracefulInvariant checksum uniqueId worldSize rails meshStart := by
  refine ⟨meshInvariant_start checksum uniqueId worldSize, ?_, ?_, ?_,
    ⟨?_, ?_, ?_, ?_⟩⟩ <;> simp [meshStart]

theorem gracefulInvariant_step {action : MeshAction}
    (invariant : GracefulInvariant checksum uniqueId worldSize rails state)
    (departures : OnlyDepartures state action)
    (typed : TypedSends state action)
    (stepped : meshStep checksum uniqueId worldSize rails state action = some next) :
    GracefulInvariant checksum uniqueId worldSize rails next := by
  cases action with
  | start call => exact gracefulInvariant_startStep invariant typed stepped
  | submit send =>
      simp only [meshStep] at stepped
      exact gracefulInvariant_submitStep invariant (fun _ _ _ failed => absurd rfl failed) stepped
  | submitFail send cause =>
      simp only [meshStep] at stepped
      refine gracefulInvariant_submitStep invariant ?_ stepped
      intro call frame phase _ located
      simpa only [OnlyDepartures, located] using departures
  | poll send => exact gracefulInvariant_pollStep invariant stepped
  | receiveAck send => exact gracefulInvariant_receiveAckStep invariant stepped
  | retry send => exact gracefulInvariant_retryStep invariant stepped
  | read side => exact gracefulInvariant_readPeerStep invariant stepped
  | acknowledge side => exact gracefulInvariant_acknowledgeStep invariant stepped
  | acknowledgeFail side cause =>
      exact gracefulInvariant_acknowledgeFailStep invariant departures stepped
  | readClosed side => exact gracefulInvariant_readPeerClosedStep invariant stepped
  | receive call => exact gracefulInvariant_receiveStep invariant stepped
  | leave side => exact gracefulInvariant_leaveStep invariant stepped
  | expire send => exact departures.elim
  | readFail side cause => exact departures.elim
  | receiveExpire call => exact departures.elim
  | abort side message => exact departures.elim
  | failControl rank message => exact departures.elim

/-- An acknowledged frame arrived at its destination. -/
theorem GracefulInvariant.arrived {rank : UInt32} {queued : QueuedFrame}
    (invariant : GracefulInvariant checksum uniqueId worldSize rails state)
    (acknowledged : AcknowledgedAt state rank queued) :
    queued ∈ state.pushed rank := by
  obtain ⟨send, located, finished, destination, rail, framed⟩ := acknowledged
  obtain ⟨frame, sameFrame, present⟩ := invariant.mesh.returned queued.send send located finished
  rw [framed, Option.some.injEq] at sameFrame
  rw [destination, rail, ← sameFrame] at present
  exact present

/-- The first frame that a receive would take. -/
theorem GracefulInvariant.find_eq {call : ReceiveCall} {queued : QueuedFrame}
    (invariant : GracefulInvariant checksum uniqueId worldSize rails state)
    (arrived : queued ∈ state.pushed call.rank)
    (untaken : queued ∉ state.taken call.rank)
    (asks : AsksFor state call queued) :
    (state.inbox call.rank).find? call.selects = some queued := by
  obtain ⟨front, back, split⟩ := List.append_of_mem arrived
  rw [List.find?_eq_some_iff_append]
  refine ⟨asks.selects, front.filter (fun other => other ∉ state.taken call.rank),
    back.filter (fun other => other ∉ state.taken call.rank), ?_, ?_⟩
  · rw [invariant.inboxes.remaining, split, List.filter_append,
      List.filter_cons_of_pos (by simp [untaken])]
  · intro earlier member
    obtain ⟨inFront, present⟩ := List.mem_filter.mp member
    have rejected : ¬call.selects earlier = true := by
      intro selected
      have taken := asks.first front back split earlier inFront selected
      simp [taken] at present
    simpa using rejected

/-- A receive that asks for an acknowledged frame passes its checks. -/
theorem GracefulInvariant.check_eq_ok {call : ReceiveCall} {queued : QueuedFrame}
    (invariant : GracefulInvariant checksum uniqueId worldSize rails state)
    (acknowledged : AcknowledgedAt state call.rank queued)
    (selects : call.selects queued = true) :
    call.check worldSize rails = .ok () := by
  obtain ⟨send, located, _, _, rail, framed⟩ := acknowledged
  have inside := (invariant.accepted queued.send send located (Or.inl (by simp [framed]))).1
  have recorded : state.record queued.send = some (send.call, some queued.frame) := by
    rw [MeshState.record, located, ← framed]
    rfl
  obtain ⟨sequence, built⟩ := invariant.mesh.built queued.send send.call queued.frame recorded
  have source : queued.frame.header.sourceRank < worldSize := by
    rw [(Frame.builtFrom_of_new checksum built).source]
    exact source_lt_of_frame built
  unfold ReceiveCall.selects at selects
  simp only [Bool.and_eq_true, decide_eq_true_eq] at selects
  obtain ⟨⟨sameRail, _⟩, sameSource⟩ := selects
  rw [rail, sameRail] at inside
  have railChecked : validateRail rails call.rail = .ok () := by
    simp [validateRail, rejectIf, inside]
  unfold ReceiveCall.check
  rw [railChecked]
  cases asked : call.source with
  | none => rfl
  | some peer =>
      rw [asked] at sameSource
      rw [of_decide_eq_true sameSource] at source
      simp [validatePeer, rejectIf, source]

end Graceful

/-- In runs in which ranks only depart, frames of one rail, source and tag are
received in the order of their arrival, each once; and an acknowledged frame is
returned to the receive that asks for it exactly when no thread of the receiver
has run into a departure before. -/
theorem receive_returns_acknowledged_iff (checksum : List UInt8 → UInt32) (uniqueId : UniqueId)
    (worldSize : UInt32) (rails : Nat) (state : MeshState)
    (reached : Reached (meshStep checksum uniqueId worldSize rails)
      (fun state action =>
        OnlyDepartures state action ∧ TypedSends state action)
      meshStart state) :
    ArrivalOrder state ∧
    ∀ call queued, AcknowledgedAt state call.rank queued →
      queued ∉ state.taken call.rank → AsksFor state call queued →
      (Returns worldSize rails state call queued ↔ NoDepartureNoticed state call.rank) := by
  have invariant :
      GracefulInvariant checksum uniqueId worldSize rails state :=
    reached.invariant (gracefulInvariant_start checksum uniqueId worldSize rails)
      fun _ _ _ before permitted stepped =>
        gracefulInvariant_step before permitted.1 permitted.2 stepped
  refine ⟨fun rank => ⟨invariant.inboxes.distinct rank, invariant.inboxes.lanes rank⟩, ?_⟩
  intro call queued acknowledged untaken asks
  have checked := invariant.check_eq_ok acknowledged asks.selects
  have found := invariant.find_eq (invariant.arrived acknowledged) untaken asks
  have noticed := invariant.noticed call.rank
  unfold Returns receiveOnRail
  rw [checked]
  dsimp only
  cases slot : state.failure call.rank with
  | some message =>
      constructor
      · intro impossible
        cases impossible
      · intro nobody
        obtain ⟨side, member, same⟩ := noticed.mp (by simp [slot])
        exact absurd same (nobody side member)
  | none =>
      dsimp only
      rw [found]
      simp only [asks.agrees, if_true, true_iff]
      intro side member same
      exact noticed.mpr ⟨side, member, same⟩ slot

instance (state : MeshState) (action : MeshAction) : Decidable (OnlyDepartures state action) :=
  match action with
  | .submitFail send _ =>
      match located : state.sends send with
      | some ⟨call, _, _⟩ =>
          decidable_of_iff (state.departing call.side = true) (by simp [OnlyDepartures, located])
      | none => isTrue (by simp [OnlyDepartures, located])
  | .acknowledgeFail side _ => inferInstanceAs (Decidable (state.departing side = true))
  | .expire _ | .readFail _ _ | .receiveExpire _ | .abort _ _
  | .failControl _ _ => inferInstanceAs (Decidable False)
  | .start _ | .submit _ | .poll _ | .receiveAck _ | .retry _ | .read _
  | .acknowledge _ | .readClosed _ | .receive _ | .leave _ => inferInstanceAs (Decidable True)

/-- The receive at rank 1 that asks for the byte of rank 0. -/
def byteReceive : ReceiveCall :=
  { rank := 1, rail := 0, source := some 0, tag := 5, elementType := .u8
    elementCount := 1 }

/-- Nothing hides the only frame that ever arrived. -/
theorem asksFor_of_single {state : MeshState} {call : ReceiveCall} {queued : QueuedFrame}
    (single : state.pushed call.rank = [queued])
    (selects : call.selects queued = true)
    (agrees : call.agrees queued = true) :
    AsksFor state call queued := by
  refine ⟨selects, agrees, ?_⟩
  intro front back split earlier member
  rw [single] at split
  cases front with
  | nil => cases member
  | cons head tail =>
      have lengths := congrArg List.length split
      simp at lengths

/-- The byte of rank 0 as it is queued at rank 1. -/
def queuedByte : QueuedFrame where
  send := 0
  rail := 0
  frame :=
    { header :=
        { FrameHeader.collective byteSum zeroId .send .u8 0 anyRank 2 0 1 with
          destinationRank := 1
          tag := 5
          flags := flagPayload
          payloadBytes := 1
          payloadChecksum := byteSum [7] }
      payload := [7] }

/-- Rank 1 has acknowledged the byte and not received it yet. -/
def byteSendState : MeshState :=
  (follow (meshStep byteSum zeroId 2 1)
    (fun state action =>
      OnlyDepartures state action ∧ TypedSends state action)
    meshStart byteSendRun).getD meshStart

theorem receive_returns_acknowledged_iff_byte :
    Reached (meshStep byteSum zeroId 2 1)
      (fun state action =>
        OnlyDepartures state action ∧ TypedSends state action)
      meshStart byteSendState ∧
    AcknowledgedAt byteSendState 1 queuedByte ∧
    queuedByte ∉ byteSendState.taken 1 ∧
    AsksFor byteSendState byteReceive queuedByte ∧
    Returns 2 1 byteSendState byteReceive queuedByte := by
  have reached : Reached (meshStep byteSum zeroId 2 1)
      (fun state action =>
        OnlyDepartures state action ∧ TypedSends state action)
      meshStart byteSendState :=
    Reached.of_follow .start (show follow _ _ meshStart byteSendRun = some byteSendState from rfl)
  have acknowledged : AcknowledgedAt byteSendState 1 queuedByte := ⟨_, rfl, rfl, rfl, rfl, rfl⟩
  have untaken : queuedByte ∉ byteSendState.taken 1 := List.not_mem_nil
  have asks : AsksFor byteSendState byteReceive queuedByte := asksFor_of_single rfl rfl rfl
  have iff_ := (receive_returns_acknowledged_iff byteSum zeroId 2 1
    byteSendState reached).2 byteReceive queuedByte acknowledged untaken asks
  refine ⟨reached, acknowledged, untaken, asks, iff_.mpr ?_⟩
  intro side member
  cases member

/-- Rank 0 leaves behind its acknowledged byte, and rank 1 sees that first. -/
def departureRun : List MeshAction := byteSendRun ++ [.leave ⟨0, 1, 0⟩, .read ⟨1, 0, 0⟩]

def departureState : MeshState :=
  (follow (meshStep byteSum zeroId 2 1) OnlyDepartures meshStart departureRun).getD meshStart

/-- The departure of the sender makes its acknowledged frame unreadable. -/
theorem departure_hides_acknowledged :
    ¬∀ state, Reached (meshStep byteSum zeroId 2 1) OnlyDepartures meshStart state →
      ArrivalOrder state ∧ ReturnsAcknowledged 2 1 state := by
  intro always
  have reached : Reached (meshStep byteSum zeroId 2 1) OnlyDepartures
      meshStart departureState :=
    Reached.of_follow .start
      (show follow _ _ meshStart departureRun = some departureState from rfl)
  have acknowledged : AcknowledgedAt departureState 1 queuedByte := ⟨_, rfl, rfl, rfl, rfl, rfl⟩
  have asks : AsksFor departureState byteReceive queuedByte := asksFor_of_single rfl rfl rfl
  have returns := (always departureState reached).2 byteReceive queuedByte
    acknowledged List.not_mem_nil asks
  have fails : receiveOnRail 2 1 (departureState.failure 1) (departureState.inbox 1) byteReceive =
        .failed (.remoteAbort (.text "direct peer rank 0 left")) := rfl
  unfold Returns at returns
  rw [show byteReceive.rank = 1 from rfl, fails] at returns
  cases returns

end RuCCL.Rank
