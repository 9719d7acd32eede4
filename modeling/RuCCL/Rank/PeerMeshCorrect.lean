import RuCCL.Rank.PeerMesh
import RuCCL.Rank.RoutingCorrect

/-!
# Delivery in the direct peer mesh

Readers tell data frames from acknowledgements by the element type alone, so a
data frame without elements is taken for an acknowledgement.  In runs without
such frames an acknowledged frame has been queued exactly once at its
destination.  A queued frame can be received until the receiver's failure slot
is set, which the departure of any rank does.
-/

namespace RuCCL.Rank

open RuCCL.Library

section Expectations

variable (checksum : List UInt8 → UInt32) (uniqueId : UniqueId)
variable (worldSize : UInt32)

/-- A send that returned successfully has put the frame of its arguments into
its destination's inbox, once and nowhere else. -/
def DeliversOnce (state : MeshState) : Prop := ∀ id send, state.sends id = some send →
    send.phase = .returned (.ok ()) →
    ∃ frame sequence, send.call.frame checksum uniqueId worldSize sequence = .ok frame ∧
      ∀ rank, (state.pushed rank).filter (fun queued => queued.send = id) =
        if rank = send.call.destination then
          [⟨id, send.call.rail, frame⟩]
        else []

/-- Readers take only acknowledgements for acknowledgements. -/
def ConsumesOnlyAcknowledgements (state : MeshState) : Prop :=
  ∀ packet ∈ state.acknowledged, ∃ id, packet.origin = .acknowledgement id

/-- Data for another rank has elements. -/
def TypedSends (_ : MeshState) (action : MeshAction) : Prop :=
  match action with
  | .start call => call.elementType ≠ .none ∨ call.destination = call.rank
  | _ => True

end Expectations

/-- The arguments of a call and the frame it has built. -/
def MeshState.record (state : MeshState) (id : Nat) : Option (SendCall × Option Frame) :=
  (state.sends id).map fun send => (send.call, send.frame)

/-- The call `id` wrote `frame` to the connection of `side`. -/
def Submitted (state : MeshState) (id : Nat) (side : Endpoint) (frame : Frame) :
    Prop :=
  ∃ call, state.record id = some (call, some frame) ∧
    call.side = side ∧ call.destination ≠ call.rank

/-- The call whose data a packet carries. -/
def Packet.dataId (packet : Packet) : Option Nat :=
  match packet.origin with
  | .data id => some id
  | _ => none

/-- The frame of the call `id` is queued at the peer of `side`. -/
def Delivered (state : MeshState) (id : Nat) (side : Endpoint) (frame : Frame) :
    Prop :=
  Submitted state id side frame ∧ ⟨id, side.rail, frame⟩ ∈ state.pushed side.peer

/-- An acknowledgement on its way from `side` answers a delivered frame. -/
def Acknowledges (state : MeshState) (side : Endpoint) (packet : Packet) :
    Prop :=
  ∃ id frame, packet.origin = .acknowledgement id ∧ Delivered state id side.mirror frame ∧
    packet.frame.header.sequence = frame.header.sequence ∧
    packet.frame.header.elementType = .none

/-- Packets under way are data, acknowledgements or notices. -/
def WellMarked (state : MeshState) (side : Endpoint) (packet : Packet) :
    Prop :=
  (∃ id, packet.origin = .data id ∧ Submitted state id side packet.frame ∧
    packet.frame.header.opcode = .send ∧
    packet.frame.header.elementType ≠ .none ∧
    id ∉ (state.pushed side.peer).map QueuedFrame.send) ∨
  Acknowledges state side packet ∨
  (packet.origin = .notice ∧ packet.frame.header.opcode ≠ .send)

section Invariant

variable (checksum : List UInt8 → UInt32) (uniqueId : UniqueId)
variable (worldSize : UInt32)

/-- What is known of calls, of frames under way and of inboxes. -/
structure MeshCore (state : MeshState) : Prop where
  fresh : ∀ id ≥ state.calls, state.record id = none
  checked : ∀ id call frame, state.sends id = some ⟨call, frame, .checked⟩ →
    frame = none ∧ call.destination ≠ call.rank ∧ call.elementType ≠ .none
  built : ∀ id call frame, state.record id = some (call, some frame) → ∃ sequence,
      call.frame checksum uniqueId worldSize sequence = .ok frame
  spent : ∀ id side frame, Submitted state id side frame →
    frame.header.sequence.toNat < (state.nextSequence side).toNat
  distinct : ∀ left right side leftFrame rightFrame, Submitted state left side leftFrame →
    Submitted state right side rightFrame →
    leftFrame.header.sequence = rightFrame.header.sequence → left = right
  streams : ∀ side, ∀ packet ∈ state.streams side, WellMarked state side packet
  once : ∀ side, ((state.streams side).filterMap Packet.dataId).Nodup
  readers : ∀ side packet, state.readers side = .acknowledging packet →
    Acknowledges state side packet
  pushed : ∀ rank, ∀ queued ∈ state.pushed rank, ∃ call,
    state.record queued.send = some (call, some queued.frame) ∧
      call.destination = rank ∧ call.rail = queued.rail
  pushedOnce : ∀ rank, ((state.pushed rank).map QueuedFrame.send).Nodup
  pending : ∀ rank, ∀ entry ∈ state.pendingAcks rank, ∃ side frame,
    Submitted state entry.2 side frame ∧ side.rank = rank ∧
      entry.1 = ⟨side.peer, side.rail, frame.header.sequence⟩
  channels : ∀ id, .ok () ∈ state.channels id → ∃ side frame, Delivered state id side frame
  acknowledged : ConsumesOnlyAcknowledgements state

structure MeshInvariant (state : MeshState) : Prop
    extends MeshCore checksum uniqueId worldSize state where
  returned : ∀ id send, state.sends id = some send → send.phase = .returned (.ok ()) →
    ∃ frame, send.frame = some frame ∧
      ⟨id, send.call.rail, frame⟩ ∈ state.pushed send.call.destination

end Invariant

/-- `next` forgets packets, acknowledgements and messages of `state` at most,
and no call finishes successfully without one. -/
structure Shrinks (state next : MeshState) : Prop where
  calls : next.calls = state.calls
  record : ∀ id, next.record id = state.record id
  checked : ∀ id call frame, next.sends id = some ⟨call, frame, .checked⟩ →
    state.sends id = some ⟨call, frame, .checked⟩
  sequences : ∀ side, (state.nextSequence side).toNat ≤ (next.nextSequence side).toNat
  streams : ∀ side, (next.streams side).Sublist (state.streams side)
  readers : ∀ side packet, next.readers side = .acknowledging packet →
    state.readers side = .acknowledging packet
  pending : ∀ rank, next.pendingAcks rank ⊆ state.pendingAcks rank
  channels : ∀ id, Except.ok () ∈ next.channels id → Except.ok () ∈ state.channels id
  pushed : next.pushed = state.pushed
  returned : ∀ id send, next.sends id = some send → send.phase = .returned (.ok ()) →
    (∃ before, state.sends id = some before ∧ before.phase = .returned (.ok ())) ∨
    Except.ok () ∈ state.channels id
  acknowledged : next.acknowledged = state.acknowledged

section Preservation

variable {checksum : List UInt8 → UInt32} {uniqueId : UniqueId}
variable {worldSize : UInt32} {rails : Nat} {state next : MeshState}

theorem Submitted.of_record {id : Nat} {side : Endpoint} {frame : Frame}
    (submitted : Submitted state id side frame)
    (same : next.record id = state.record id) :
    Submitted next id side frame := by
  obtain ⟨call, found, sameSide, other⟩ := submitted
  exact ⟨call, same.trans found, sameSide, other⟩

theorem submitted_congr (same : ∀ id, next.record id = state.record id)
    (id : Nat) (side : Endpoint) (frame : Frame) :
    Submitted next id side frame ↔ Submitted state id side frame := by
  constructor
  · intro submitted
    exact submitted.of_record (same id).symm
  · intro submitted
    exact submitted.of_record (same id)

/-- What is known of packets depends on the written frames and the inboxes
alone. -/
theorem WellMarked.congr {side : Endpoint} {packet : Packet}
    (same : ∀ id side frame, Submitted next id side frame ↔ Submitted state id side frame)
    (pushed : next.pushed = state.pushed)
    (marked : WellMarked state side packet) :
    WellMarked next side packet := by
  simpa only [WellMarked, Acknowledges, Delivered, same, pushed] using marked

theorem Acknowledges.congr {side : Endpoint} {packet : Packet}
    (same : ∀ id side frame, Submitted next id side frame ↔ Submitted state id side frame)
    (pushed : next.pushed = state.pushed)
    (acknowledges : Acknowledges state side packet) :
    Acknowledges next side packet := by
  simpa only [Acknowledges, Delivered, same, pushed] using acknowledges

/-- Forgetting keeps the invariant. -/
theorem MeshInvariant.of_shrinks (invariant : MeshInvariant checksum uniqueId worldSize state)
    (shrinks : Shrinks state next) :
    MeshInvariant checksum uniqueId worldSize next where
  fresh := by
    intro id bound
    rw [shrinks.record]
    exact invariant.fresh id (by rw [← shrinks.calls]; exact bound)
  checked := fun id call frame found =>
    invariant.checked id call frame (shrinks.checked id call frame found)
  built := by
    intro id call frame found
    rw [shrinks.record] at found
    exact invariant.built id call frame found
  spent := by
    intro id side frame submitted
    rw [submitted_congr shrinks.record] at submitted
    exact lt_of_lt_of_le (invariant.spent id side frame submitted) (shrinks.sequences side)
  distinct := by
    intro left right side leftFrame rightFrame first second
    rw [submitted_congr shrinks.record] at first second
    exact invariant.distinct left right side leftFrame rightFrame first second
  streams := fun side packet member =>
    (invariant.streams side packet ((shrinks.streams side).subset member)).congr
        (submitted_congr shrinks.record) shrinks.pushed
  once := fun side =>
    (invariant.once side).sublist ((shrinks.streams side).filterMap _)
  readers := fun side packet phase =>
    (invariant.readers side packet (shrinks.readers side packet phase)).congr
        (submitted_congr shrinks.record) shrinks.pushed
  pushed := by
    intro rank queued member
    rw [shrinks.pushed] at member
    rw [shrinks.record]
    exact invariant.pushed rank queued member
  pushedOnce := by
    intro rank
    rw [shrinks.pushed]
    exact invariant.pushedOnce rank
  pending := by
    intro rank entry member
    simp only [submitted_congr shrinks.record]
    exact invariant.pending rank entry (shrinks.pending rank member)
  channels := by
    intro id member
    simp only [Delivered, submitted_congr shrinks.record, shrinks.pushed]
    exact invariant.channels id (shrinks.channels id member)
  returned := by
    intro id send found finished
    have recorded : state.record id = some (send.call, send.frame) := by
      rw [← shrinks.record, MeshState.record, found]
      rfl
    rw [shrinks.pushed]
    rcases shrinks.returned id send found finished with
      ⟨before, foundBefore, finishedBefore⟩ | message
    · obtain ⟨frame, sameFrame, queued⟩ := invariant.returned id before foundBefore finishedBefore
      rw [MeshState.record, foundBefore, Option.map_some,
        Option.some.injEq, Prod.mk.injEq] at recorded
      rw [← recorded.1, ← recorded.2]
      exact ⟨frame, sameFrame, queued⟩
    · obtain ⟨side, frame, ⟨call, found, sameSide, _⟩, queued⟩ := invariant.channels id message
      rw [recorded, Option.some.injEq, Prod.mk.injEq] at found
      refine ⟨frame, found.2, ?_⟩
      rw [found.1]
      rw [← sameSide] at queued
      exact queued
  acknowledged := by
    have kept := invariant.acknowledged
    rw [ConsumesOnlyAcknowledgements] at kept ⊢
    rw [shrinks.acknowledged]
    exact kept

theorem Shrinks.refl (state : MeshState) : Shrinks state state where
  calls := rfl
  record := fun _ => rfl
  checked := fun _ _ _ found => found
  sequences := fun _ => le_refl _
  streams := fun _ => List.Sublist.refl _
  readers := fun _ _ phase => phase
  pending := fun _ => List.Subset.refl _
  channels := fun _ member => member
  pushed := rfl
  returned := fun _ send found finished => Or.inl ⟨send, found, finished⟩
  acknowledged := rfl

theorem Shrinks.trans {middle : MeshState} (first : Shrinks state middle)
    (second : Shrinks middle next) : Shrinks state next where
  calls := second.calls.trans first.calls
  record := fun id => (second.record id).trans (first.record id)
  checked := fun id call frame found =>
    first.checked id call frame (second.checked id call frame found)
  sequences := fun side =>
    le_trans (first.sequences side) (second.sequences side)
  streams := fun side => (second.streams side).trans (first.streams side)
  readers := fun side packet phase =>
    first.readers side packet (second.readers side packet phase)
  pending := fun rank =>
    List.Subset.trans (second.pending rank) (first.pending rank)
  channels := fun id member => first.channels id (second.channels id member)
  pushed := second.pushed.trans first.pushed
  returned := by
    intro id send found finished
    rcases second.returned id send found finished with
      ⟨before, foundBefore, finishedBefore⟩ | message
    · exact first.returned id before foundBefore finishedBefore
    · exact Or.inr (first.channels id message)
  acknowledged := second.acknowledged.trans first.acknowledged

/-- What changes neither calls nor anything under way. -/
theorem shrinks_of_eq (calls : next.calls = state.calls) (sends : next.sends = state.sends)
    (sequences : next.nextSequence = state.nextSequence)
    (streams : next.streams = state.streams)
    (readers : next.readers = state.readers)
    (pending : ∀ rank, next.pendingAcks rank ⊆ state.pendingAcks rank)
    (channels : ∀ id, Except.ok () ∈ next.channels id → Except.ok () ∈ state.channels id)
    (pushed : next.pushed = state.pushed)
    (acknowledged : next.acknowledged = state.acknowledged) :
    Shrinks state next where
  calls := calls
  record := fun id => by rw [MeshState.record, MeshState.record, sends]
  checked := fun _ _ _ found => by rw [← sends]; exact found
  sequences := fun side => by rw [sequences]
  streams := fun side => by rw [streams]
  readers := fun _ _ phase => by rw [← readers]; exact phase
  pending := pending
  channels := channels
  pushed := pushed
  returned := fun _ send found finished =>
    Or.inl ⟨send, by rw [← sends]; exact found, finished⟩
  acknowledged := acknowledged

theorem shrinks_setPeerFailure (rank : UInt32) (message : Message) (state : MeshState) :
    Shrinks state (setPeerFailure rank message state) := by
  refine shrinks_of_eq rfl rfl rfl rfl rfl ?_ ?_ rfl rfl
  · intro other entry member
    by_cases same : other = rank
    · rw [same] at member
      simp [setPeerFailure] at member
    · simpa [setPeerFailure, Function.update_of_ne same] using member
  · intro id member
    simp only [setPeerFailure] at member
    split at member
    · simpa using member
    · exact member

theorem shrinks_removePending (rank : UInt32) (key : AckKey) (state : MeshState) :
    Shrinks state (removePending rank key state) := by
  refine shrinks_of_eq rfl rfl rfl rfl rfl ?_ (fun _ member => member)
    rfl rfl
  intro other entry member
  by_cases same : other = rank
  · rw [same] at member ⊢
    simp only [removePending, Function.update_self] at member
    exact List.mem_of_mem_filter member
  · simpa [removePending, Function.update_of_ne same] using member

theorem shrinks_setPhase (state : MeshState) {send : Nat} {phase : SendPhase}
    (later : phase ≠ .checked)
    (acknowledged : phase = .returned (.ok ()) → Except.ok () ∈ state.channels send) :
    Shrinks state (state.setPhase send phase) where
  calls := rfl
  record := by
    intro id
    by_cases same : id = send
    · rw [same]
      simp [MeshState.record, MeshState.setPhase]
      rfl
    · simp [MeshState.record, MeshState.setPhase, Function.update_of_ne same]
  checked := by
    intro id call frame found
    by_cases same : id = send
    · rw [same] at found
      simp only [MeshState.setPhase, Function.update_self,
        Option.map_eq_some_iff, Send.mk.injEq] at found
      obtain ⟨_, _, _, _, isChecked⟩ := found
      exact absurd isChecked later
    · simpa [MeshState.setPhase, Function.update_of_ne same] using found
  sequences := fun _ => le_refl _
  streams := fun _ => List.Sublist.refl _
  readers := fun _ _ found => found
  pending := fun _ => List.Subset.refl _
  channels := fun _ member => member
  pushed := rfl
  returned := by
    intro id found located finished
    by_cases same : id = send
    · rw [same] at located
      simp only [MeshState.setPhase, Function.update_self, Option.map_eq_some_iff] at located
      obtain ⟨_, _, located⟩ := located
      rw [← located] at finished
      rw [same]
      exact Or.inr (acknowledged finished)
    · left
      refine ⟨found, ?_, finished⟩
      simpa [MeshState.setPhase, Function.update_of_ne same] using located
  acknowledged := rfl

theorem shrinks_stopReader (side : Endpoint) (message : Message) (state : MeshState) :
    Shrinks state (stopReader side message state) := by
  refine (shrinks_setPeerFailure side.rank message state).trans ?_
  refine
    { calls := rfl
      record := fun _ => rfl
      checked := fun _ _ _ found => found
      sequences := fun _ => le_refl _
      streams := fun _ => List.Sublist.refl _
      readers := ?_
      pending := fun _ => List.Subset.refl _
      channels := fun _ member => member
      pushed := rfl
      returned := fun _ send found finished =>
        Or.inl ⟨send, found, finished⟩
      acknowledged := rfl }
  intro other packet phase
  by_cases same : other = side
  · rw [same] at phase
    simp [stopReader, MeshState.setReader] at phase
  · simpa [stopReader, MeshState.setReader, Function.update_of_ne same] using phase

theorem shrinks_notice (state : MeshState) (side : Endpoint) :
    Shrinks state (state.notice side) :=
  shrinks_of_eq rfl rfl rfl rfl rfl (fun _ => List.Subset.refl _) (fun _ member => member) rfl rfl

theorem shrinks_noticeDeparture (state : MeshState) (side : Endpoint) :
    Shrinks state (state.noticeDeparture side) := by
  unfold MeshState.noticeDeparture
  split
  · exact shrinks_notice state side
  · exact Shrinks.refl state

theorem shrinks_pop {side : Endpoint} {packet : Packet} {rest : List Packet}
    (head : state.streams side = packet :: rest) :
    Shrinks state
      { state with
        streams := Function.update state.streams side rest } where
  calls := rfl
  record := fun _ => rfl
  checked := fun _ _ _ found => found
  sequences := fun _ => le_refl _
  streams := by
    intro other
    by_cases same : other = side
    · rw [same, head]
      simp
    · simp [Function.update_of_ne same]
  readers := fun _ _ phase => phase
  pending := fun _ => List.Subset.refl _
  channels := fun _ member => member
  pushed := rfl
  returned := fun _ send found finished => Or.inl ⟨send, found, finished⟩
  acknowledged := rfl

/-- Steps of a waiting send. -/
theorem shrinks_pollStep {send : Nat} (stepped : pollStep state send = some next) :
    Shrinks state next := by
  unfold pollStep at stepped
  split at stepped
  case h_2 => cases stepped
  case h_1 call _ key found =>
    split at stepped
    · cases stepped
      exact (shrinks_removePending call.rank key state).trans
        (shrinks_setPhase _ (by simp) (by simp))
    · cases stepped
      exact shrinks_setPhase state (by simp) (by simp)

theorem shrinks_expireStep {send : Nat} (stepped : expireStep state send = some next) :
    Shrinks state next := by
  unfold expireStep at stepped
  split at stepped
  case h_2 => cases stepped
  case h_1 call _ key found =>
    split at stepped
    · cases stepped
    · cases stepped
      exact ((shrinks_removePending call.rank key state).trans
        (shrinks_setPeerFailure _ _ _)).trans
        (shrinks_setPhase _ (by simp) (by simp))

theorem shrinks_receiveAckStep {send : Nat} (stepped : receiveAckStep state send = some next) :
    Shrinks state next := by
  unfold receiveAckStep at stepped
  split at stepped
  case h_2 => cases stepped
  case h_1 call _ key found =>
    split at stepped
    case h_1 rest delivered =>
      cases stepped
      exact shrinks_setPhase state (by simp)
        (fun _ => by rw [delivered]; exact List.mem_cons_self)
    case h_2 =>
      cases stepped
      exact shrinks_setPhase state (by simp) (by simp)
    case h_3 =>
      split at stepped
      · cases stepped
      · cases stepped
        exact shrinks_setPhase state (by simp) (by simp)

theorem shrinks_retryStep {send : Nat} (stepped : retryStep state send = some next) :
    Shrinks state next := by
  unfold retryStep at stepped
  split at stepped
  case h_2 => cases stepped
  case h_1 =>
    split at stepped
    · cases stepped
      exact shrinks_setPhase state (by simp) (by simp)
    · cases stepped

/-- Steps that stop a reader. -/
theorem shrinks_acknowledgeFailStep {side : Endpoint} {cause : String}
    (stepped : acknowledgeFailStep state side cause = some next) :
    Shrinks state next := by
  unfold acknowledgeFailStep at stepped
  split at stepped
  · cases stepped
    exact (shrinks_stopReader _ _ _).trans (shrinks_noticeDeparture _ _)
  · cases stepped

theorem shrinks_readPeerClosedStep {side : Endpoint}
    (stepped : readPeerClosedStep state side = some next) :
    Shrinks state next := by
  unfold readPeerClosedStep at stepped
  split at stepped
  · split at stepped
    · cases stepped
      exact (shrinks_stopReader _ _ _).trans (shrinks_notice _ _)
    · cases stepped
  · cases stepped

theorem shrinks_readPeerFailStep {side : Endpoint} {cause : String}
    (stepped : readPeerFailStep state side cause = some next) :
    Shrinks state next := by
  unfold readPeerFailStep at stepped
  split at stepped
  · cases stepped
    exact shrinks_stopReader _ _ _
  · cases stepped

/-- Receiving only takes frames out of an inbox. -/
theorem shrinks_receiveStep {call : ReceiveCall}
    (stepped : receiveStep worldSize rails state call = some next) :
    Shrinks state next := by
  unfold receiveStep at stepped
  split at stepped
  · cases stepped
  split at stepped
  · cases stepped
    exact Shrinks.refl state
  · cases stepped
    exact shrinks_of_eq rfl rfl rfl rfl rfl (fun _ => List.Subset.refl _)
      (fun _ member => member) rfl rfl
  · cases stepped

theorem shrinks_receiveExpireStep {call : ReceiveCall}
    (stepped : receiveExpireStep worldSize rails state call = some next) :
    Shrinks state next := by
  unfold receiveExpireStep at stepped
  split at stepped
  · cases stepped
  split at stepped
  · cases stepped
    exact shrinks_setPeerFailure _ _ _
  · cases stepped

theorem Packet.dataId_eq_some {packet : Packet} {id : Nat} (carries : packet.dataId = some id) :
    packet.origin = .data id := by
  unfold Packet.dataId at carries
  split at carries
  · rename_i other marked
    cases carries
    exact marked
  · cases carries

/-- A written packet keeps the invariant when it is well marked and its data
is not under way already. -/
theorem MeshInvariant.write {side : Endpoint} {packet : Packet}
    (invariant : MeshInvariant checksum uniqueId worldSize state)
    (marked : WellMarked state side packet)
    (new : ∀ id, packet.dataId = some id → id ∉ (state.streams side).filterMap Packet.dataId) :
    MeshInvariant checksum uniqueId worldSize (state.write side packet) where
  fresh := invariant.fresh
  checked := invariant.checked
  built := invariant.built
  spent := invariant.spent
  distinct := invariant.distinct
  streams := by
    intro other found member
    by_cases same : other = side
    · rw [same] at member ⊢
      simp only [MeshState.write, Function.update_self,
        List.mem_append, List.mem_singleton] at member
      rcases member with early | late
      · exact invariant.streams side found early
      · rw [late]
        exact marked
    · simp only [MeshState.write, Function.update_of_ne same] at member
      exact invariant.streams other found member
  once := by
    intro other
    by_cases same : other = side
    · rw [same]
      simp only [MeshState.write, Function.update_self, List.filterMap_append]
      rw [List.nodup_append]
      refine ⟨invariant.once side, ?_, ?_⟩
      · cases carried : packet.dataId with
        | none => simp [carried]
        | some id => simp [carried]
      · intro left leftMember right rightMember equal
        cases carried : packet.dataId with
        | none => simp [carried] at rightMember
        | some id =>
            simp only [List.filterMap_cons, carried, List.filterMap_nil,
              List.mem_singleton] at rightMember
            rw [equal, rightMember] at leftMember
            exact new id carried leftMember
    · simp only [MeshState.write, Function.update_of_ne same]
      exact invariant.once other
  readers := invariant.readers
  pushed := invariant.pushed
  pushedOnce := invariant.pushedOnce
  pending := invariant.pending
  channels := invariant.channels
  returned := invariant.returned
  acknowledged := invariant.acknowledged

theorem MeshInvariant.writeNotice {side : Endpoint} {header : FrameHeader} {payload : List UInt8}
    (invariant : MeshInvariant checksum uniqueId worldSize state)
    (opcode : header.opcode ≠ .send) :
    MeshInvariant checksum uniqueId worldSize
      (state.writeNotice side (Frame.new checksum header payload)) := by
  unfold MeshState.writeNotice
  split
  case h_1 frame built =>
    apply invariant.write
    · right
      right
      refine ⟨rfl, ?_⟩
      rw [(Frame.builtFrom_of_new checksum built).opcode]
      exact opcode
    · intro id carries
      cases carries
  case h_2 => exact invariant

theorem meshInvariant_abortStep {side : Endpoint} {message : List UInt8}
    (invariant : MeshInvariant checksum uniqueId worldSize state)
    (stepped : abortStep checksum uniqueId worldSize rails state side message = some next) :
    MeshInvariant checksum uniqueId worldSize next := by
  unfold abortStep at stepped
  split at stepped
  · cases stepped
  · cases stepped
    exact (invariant.of_shrinks (shrinks_setPeerFailure _ _ _)).writeNotice
      (by simp [noticeHeader, FrameHeader.collective])

theorem meshInvariant_leaveStep {side : Endpoint}
    (invariant : MeshInvariant checksum uniqueId worldSize state)
    (stepped : leaveStep checksum uniqueId worldSize rails state side = some next) :
    MeshInvariant checksum uniqueId worldSize next := by
  unfold leaveStep at stepped
  split at stepped
  · cases stepped
  · cases stepped
    have written : MeshInvariant checksum uniqueId worldSize
        (state.writeNotice side (Frame.new checksum
          (noticeHeader checksum uniqueId worldSize side .leave .none 0)
          [])) :=
      invariant.writeNotice (by simp [noticeHeader, FrameHeader.collective])
    exact written.of_shrinks (shrinks_of_eq rfl rfl rfl rfl rfl
      (fun _ => List.Subset.refl _) (fun _ member => member) rfl rfl)

/-- The reader hands its acknowledgement to the stream. -/
theorem meshInvariant_acknowledgeStep {side : Endpoint}
    (invariant : MeshInvariant checksum uniqueId worldSize state)
    (stepped : acknowledgeStep state side = some next) :
    MeshInvariant checksum uniqueId worldSize next := by
  unfold acknowledgeStep at stepped
  split at stepped
  case h_2 => cases stepped
  case h_1 packet phase =>
    split at stepped
    · cases stepped
    · cases stepped
      have acknowledges := invariant.readers side packet phase
      have written : MeshInvariant checksum uniqueId worldSize (state.write side packet) := by
        apply invariant.write (Or.inr (Or.inl acknowledges))
        intro id carries
        obtain ⟨_, _, marked, _⟩ := acknowledges
        rw [Packet.dataId_eq_some carries] at marked
        cases marked
      refine written.of_shrinks
        { Shrinks.refl (state.write side packet) with
          readers := ?_ }
      intro other found reading
      by_cases same : other = side
      · rw [same] at reading
        simp [MeshState.setReader] at reading
      · simpa [MeshState.setReader, Function.update_of_ne same] using reading

theorem record_addSend (state : MeshState) (send : Send) (id : Nat) :
    (state.addSend send).record id =
      if id = state.calls then some (send.call, send.frame)
      else state.record id := by
  by_cases same : id = state.calls
  · simp [MeshState.record, MeshState.addSend, same]
  · simp [MeshState.record, MeshState.addSend, same]

theorem MeshCore.id_lt (invariant : MeshCore checksum uniqueId worldSize state)
    {id : Nat} {entry : SendCall × Option Frame}
    (found : state.record id = some entry) : id < state.calls := by
  by_contra beyond
  rw [invariant.fresh id (by omega)] at found
  cases found

/-- A new call has written nothing to another rank. -/
theorem MeshCore.submitted_addSend (invariant : MeshCore checksum uniqueId worldSize state)
    {send : Send}
    (silent : send.frame = none ∨ send.call.destination = send.call.rank)
    (id : Nat) (side : Endpoint) (frame : Frame) :
    Submitted (state.addSend send) id side frame ↔
      Submitted state id side frame := by
  unfold Submitted
  rw [record_addSend]
  by_cases same : id = state.calls
  · rw [if_pos same, same, invariant.fresh state.calls (le_refl _)]
    constructor
    · intro ⟨call, found, _, other⟩
      rw [Option.some.injEq, Prod.mk.injEq] at found
      rcases silent with empty | own
      · rw [empty] at found
        cases found.2
      · rw [found.1] at own
        exact absurd own other
    · intro ⟨_, found, _⟩
      cases found
  · rw [if_neg same]

/-- A new call is checked or has at most a frame for its own rank. -/
theorem MeshCore.addSend (invariant : MeshCore checksum uniqueId worldSize state) {send : Send}
    (silent : send.frame = none ∨ send.call.destination = send.call.rank)
    (built : ∀ frame, send.frame = some frame → ∃ sequence,
      send.call.frame checksum uniqueId worldSize sequence = .ok frame)
    (checked : send.phase = .checked →
      send.frame = none ∧ send.call.destination ≠ send.call.rank ∧
        send.call.elementType ≠ .none) :
    MeshCore checksum uniqueId worldSize (state.addSend send) := by
  have same := invariant.submitted_addSend silent
  refine
    { fresh := ?_, checked := ?_, built := ?_, spent := ?_,
      distinct := ?_, streams := ?_, once := invariant.once,
      readers := ?_, pushed := ?_, pushedOnce := invariant.pushedOnce,
      pending := ?_, channels := ?_,
      acknowledged := invariant.acknowledged }
  · intro id bound
    change id ≥ state.calls + 1 at bound
    rw [record_addSend, if_neg (by omega)]
    exact invariant.fresh id (by omega)
  · intro id call frame found
    by_cases new : id = state.calls
    · rw [new] at found
      simp only [MeshState.addSend, Function.update_self, Option.some.injEq] at found
      rw [found] at checked
      exact checked rfl
    · simp only [MeshState.addSend, Function.update_of_ne new] at found
      exact invariant.checked id call frame found
  · intro id call frame found
    rw [record_addSend] at found
    split at found
    · rw [Option.some.injEq, Prod.mk.injEq] at found
      rw [← found.1]
      exact built frame found.2
    · exact invariant.built id call frame found
  · intro id side frame submitted
    exact invariant.spent id side frame ((same _ _ _).mp submitted)
  · intro left right side leftFrame rightFrame first second
    exact invariant.distinct left right side leftFrame rightFrame
      ((same _ _ _).mp first) ((same _ _ _).mp second)
  · intro side packet member
    exact (invariant.streams side packet member).congr same rfl
  · intro side packet phase
    exact (invariant.readers side packet phase).congr same rfl
  · intro rank queued member
    obtain ⟨call, found, rest⟩ := invariant.pushed rank queued member
    refine ⟨call, ?_, rest⟩
    rw [record_addSend, if_neg (Nat.ne_of_lt (invariant.id_lt found))]
    exact found
  · intro rank entry member
    obtain ⟨side, frame, submitted, rest⟩ := invariant.pending rank entry member
    exact ⟨side, frame, (same _ _ _).mpr submitted, rest⟩
  · intro id member
    obtain ⟨side, frame, submitted, queued⟩ := invariant.channels id member
    exact ⟨side, frame, (same _ _ _).mpr submitted, queued⟩

/-- A queued frame stays queued. -/
theorem Delivered.push {id : Nat} {side : Endpoint} {frame : Frame}
    (delivered : Delivered state id side frame) (rank : UInt32)
    (queued : QueuedFrame) :
    Delivered (state.push rank queued) id side frame := by
  refine ⟨delivered.1, ?_⟩
  by_cases same : side.peer = rank
  · rw [same]
    have present := delivered.2
    rw [same] at present
    simp only [MeshState.push, Function.update_self]
    exact List.mem_append_left _ present
  · simp only [MeshState.push, Function.update_of_ne same]
    exact delivered.2

theorem Acknowledges.push {side : Endpoint} {packet : Packet}
    (acknowledges : Acknowledges state side packet) (rank : UInt32)
    (queued : QueuedFrame) :
    Acknowledges (state.push rank queued) side packet := by
  obtain ⟨id, frame, marked, delivered, rest⟩ := acknowledges
  exact ⟨id, frame, marked, delivered.push rank queued, rest⟩

theorem mem_push {rank other : UInt32} {queued found : QueuedFrame}
    (member : found ∈ (state.push rank queued).pushed other) :
    found ∈ state.pushed other ∨ (other = rank ∧ found = queued) := by
  by_cases same : other = rank
  · rw [same] at member ⊢
    simp only [MeshState.push, Function.update_self, List.mem_append,
      List.mem_singleton] at member
    rcases member with early | late
    · exact Or.inl early
    · exact Or.inr ⟨rfl, late⟩
  · simp only [MeshState.push, Function.update_of_ne same] at member
    exact Or.inl member

/-- Queueing the frame of a call that is queued nowhere and is not under way. -/
theorem MeshCore.push {rank : UInt32} {queued : QueuedFrame} {call : SendCall}
    (invariant : MeshCore checksum uniqueId worldSize state)
    (recorded : state.record queued.send = some (call, some queued.frame))
    (destination : call.destination = rank)
    (rail : call.rail = queued.rail)
    (new : queued.send ∉ (state.pushed rank).map QueuedFrame.send)
    (absent : ∀ side, ∀ packet ∈ state.streams side, packet.origin ≠ .data queued.send) :
    MeshCore checksum uniqueId worldSize (state.push rank queued) := by
  refine
    { fresh := invariant.fresh, checked := invariant.checked,
      built := invariant.built, spent := invariant.spent,
      distinct := invariant.distinct, streams := ?_,
      once := invariant.once, readers := ?_, pushed := ?_,
      pushedOnce := ?_, pending := invariant.pending, channels := ?_,
      acknowledged := invariant.acknowledged }
  · intro side packet member
    rcases invariant.streams side packet member with
      ⟨id, marked, submitted, opcode, typed, unqueued⟩ | acknowledges |
      notice
    · left
      refine ⟨id, marked, submitted, opcode, typed, ?_⟩
      intro found
      rw [List.mem_map] at found
      obtain ⟨other, queuedOther, sameId⟩ := found
      rcases mem_push queuedOther with early | ⟨_, equal⟩
      · exact unqueued (List.mem_map.mpr ⟨other, early, sameId⟩)
      · rw [equal] at sameId
        rw [← sameId] at marked
        exact absent side packet member marked
    · exact Or.inr (Or.inl (acknowledges.push rank queued))
    · exact Or.inr (Or.inr notice)
  · intro side packet phase
    exact (invariant.readers side packet phase).push rank queued
  · intro other found member
    rcases mem_push member with early | ⟨same, equal⟩
    · exact invariant.pushed other found early
    · rw [equal, same]
      exact ⟨call, recorded, destination, rail⟩
  · intro other
    by_cases same : other = rank
    · rw [same]
      simp only [MeshState.push, Function.update_self, List.map_append,
        List.map_cons, List.map_nil]
      rw [List.nodup_append]
      refine ⟨invariant.pushedOnce rank, by simp, ?_⟩
      intro left leftMember right rightMember equal
      rw [List.mem_singleton] at rightMember
      rw [equal, rightMember] at leftMember
      exact new leftMember
    · simp only [MeshState.push, Function.update_of_ne same]
      exact invariant.pushedOnce other
  · intro id member
    obtain ⟨side, frame, delivered⟩ := invariant.channels id member
    exact ⟨side, frame, delivered.push rank queued⟩

/-- A queued frame stays in the history of its inbox. -/
theorem mem_pushed_push {rank other : UInt32} {queued found : QueuedFrame}
    (member : found ∈ state.pushed other) :
    found ∈ (state.push rank queued).pushed other := by
  by_cases same : other = rank
  · rw [same] at member ⊢
    simp only [MeshState.push, Function.update_self]
    exact List.mem_append_left _ member
  · simp only [MeshState.push, Function.update_of_ne same]
    exact member

/-- A call that starts without a frame is no success yet. -/
theorem MeshInvariant.addSend (invariant : MeshInvariant checksum uniqueId worldSize state)
    {send : Send} (empty : send.frame = none)
    (unfinished : send.phase ≠ .returned (.ok ()))
    (typed : send.phase = .checked → send.call.destination ≠ send.call.rank ∧
        send.call.elementType ≠ .none) :
    MeshInvariant checksum uniqueId worldSize (state.addSend send) := by
  refine
    { invariant.toMeshCore.addSend (Or.inl empty) (by simp [empty])
        (fun phase => ⟨empty, typed phase⟩) with
      returned := ?_ }
  intro id found located finished
  by_cases new : id = state.calls
  · rw [new] at located
    simp only [MeshState.addSend, Function.update_self, Option.some.injEq] at located
    rw [← located] at finished
    exact absurd finished unfinished
  · simp only [MeshState.addSend, Function.update_of_ne new] at located
    exact invariant.returned id found located finished

/-- A frame for the own rank is queued at once. -/
theorem MeshInvariant.sendSelf (invariant : MeshInvariant checksum uniqueId worldSize state)
    {call : SendCall} {frame : Frame} {sequence : UInt64}
    (own : call.destination = call.rank)
    (built : call.frame checksum uniqueId worldSize sequence = .ok frame) :
    MeshInvariant checksum uniqueId worldSize
      ((state.addSend ⟨call, some frame, .returned (.ok ())⟩).push
        call.rank ⟨state.calls, call.rail, frame⟩) := by
  have core : MeshCore checksum uniqueId worldSize
      (state.addSend ⟨call, some frame, .returned (.ok ())⟩) := by
    apply invariant.toMeshCore.addSend (Or.inr own)
    · intro found same
      cases same
      exact ⟨sequence, built⟩
    · intro phase
      cases phase
  have unused : ∀ id entry, state.record id = some entry → id ≠ state.calls := by
    intro id entry found
    exact Nat.ne_of_lt (invariant.toMeshCore.id_lt found)
  refine
    { core.push ?_ own rfl ?_ ?_ with
      returned := ?_ }
  · rw [record_addSend, if_pos rfl]
  · intro member
    obtain ⟨queued, found, sameId⟩ := List.mem_map.mp member
    obtain ⟨_, recorded, _⟩ := invariant.pushed call.rank queued found
    exact unused _ _ recorded sameId
  · intro side packet member marked
    rcases invariant.streams side packet member with
      ⟨id, origin, ⟨_, recorded, _⟩, _⟩ | ⟨_, _, origin, _⟩ | ⟨origin, _⟩
    · rw [origin] at marked
      cases marked
      exact unused _ _ recorded rfl
    · rw [origin] at marked
      cases marked
    · rw [origin] at marked
      cases marked
  · intro id found located finished
    by_cases new : id = state.calls
    · rw [new] at located ⊢
      simp only [MeshState.push, MeshState.addSend, Function.update_self,
        Option.some.injEq] at located
      rw [← located]
      refine ⟨frame, rfl, ?_⟩
      simp only [own, MeshState.push, Function.update_self]
      exact List.mem_append_right _ List.mem_cons_self
    · simp only [MeshState.push, MeshState.addSend, Function.update_of_ne new] at located
      obtain ⟨queuedFrame, sameFrame, present⟩ := invariant.returned id found located finished
      exact ⟨queuedFrame, sameFrame, mem_pushed_push present⟩

theorem meshInvariant_startStep {call : SendCall}
    (invariant : MeshInvariant checksum uniqueId worldSize state)
    (typed : call.elementType ≠ .none ∨ call.destination = call.rank)
    (stepped : startStep checksum uniqueId worldSize rails state call = some next) :
    MeshInvariant checksum uniqueId worldSize next := by
  unfold startStep at stepped
  split at stepped
  · cases stepped
  split at stepped
  · cases stepped
    exact invariant.addSend rfl (by simp) (by simp)
  split at stepped
  case isTrue own =>
    split at stepped
    · cases stepped
      exact invariant.addSend rfl (by simp) (by simp)
    case h_2 frame built =>
      cases stepped
      exact invariant.sendSelf own built
  case isFalse other =>
    cases stepped
    refine invariant.addSend rfl (by simp) ?_
    intro _
    rcases typed with typed | own
    · exact ⟨other, typed⟩
    · exact absurd own other

/-! ## Submitted frames -/

theorem WellMarked.mono {side : Endpoint} {packet : Packet}
    (more : ∀ id side frame, Submitted state id side frame → Submitted next id side frame)
    (pushed : next.pushed = state.pushed)
    (marked : WellMarked state side packet) :
    WellMarked next side packet := by
  rcases marked with
    ⟨id, origin, submitted, rest⟩ |
    ⟨id, frame, origin, ⟨submitted, queued⟩, rest⟩ | notice
  · refine Or.inl ⟨id, origin, more _ _ _ submitted, ?_⟩
    rw [pushed]
    exact rest
  · refine Or.inr (Or.inl ⟨id, frame, origin, ⟨more _ _ _ submitted, ?_⟩, rest⟩)
    rw [pushed]
    exact queued
  · exact Or.inr (Or.inr notice)

theorem Acknowledges.mono {side : Endpoint} {packet : Packet}
    (more : ∀ id side frame, Submitted state id side frame → Submitted next id side frame)
    (pushed : next.pushed = state.pushed)
    (acknowledges : Acknowledges state side packet) :
    Acknowledges next side packet := by
  obtain ⟨id, frame, origin, ⟨submitted, queued⟩, rest⟩ := acknowledges
  refine ⟨id, frame, origin, ⟨more _ _ _ submitted, ?_⟩, rest⟩
  rw [pushed]
  exact queued

/-- The state of a submission between the lock and the write. -/
def MeshState.prepare (state : MeshState) (send : Nat) (call : SendCall) (frame : Frame)
    (next : UInt64) : MeshState :=
  let key : AckKey := ⟨call.destination, call.rail, state.nextSequence call.side⟩
  { state with
    nextSequence := Function.update state.nextSequence call.side next
    pendingAcks := Function.update state.pendingAcks call.rank
      ((key, send) :: (state.pendingAcks call.rank).filter fun entry => entry.1 ≠ key)
    sends := Function.update state.sends send (some ⟨call, some frame, .polling key⟩) }

theorem record_prepare (state : MeshState) (send : Nat) (call : SendCall) (frame : Frame)
    (sequence : UInt64) (id : Nat) :
    (state.prepare send call frame sequence).record id =
      if id = send then some (call, some frame) else state.record id := by
  by_cases same : id = send
  · simp [MeshState.record, MeshState.prepare, same]
  · simp [MeshState.record, MeshState.prepare, same]

/-- A submission takes the next sequence of its connection and registers its
key before the frame is written. -/
theorem MeshInvariant.prepare {send : Nat} {call : SendCall} {frame : Frame} {sequence : UInt64}
    (invariant : MeshInvariant checksum uniqueId worldSize state)
    (waiting : state.sends send = some ⟨call, none, .checked⟩)
    (other : call.destination ≠ call.rank)
    (built : call.frame checksum uniqueId worldSize (state.nextSequence call.side) = .ok frame)
    (advanced : (state.nextSequence call.side).toNat + 1 = sequence.toNat) :
    MeshInvariant checksum uniqueId worldSize (state.prepare send call frame sequence) := by
  have meets := Frame.builtFrom_of_new checksum built
  have unwritten : state.record send = some (call, none) := by
    simp [MeshState.record, waiting]
  have older : ∀ id side found, Submitted state id side found → id ≠ send := by
    intro id side found ⟨_, recorded, _⟩ same
    rw [same, unwritten] at recorded
    cases recorded
  have more : ∀ id side found, Submitted state id side found →
      Submitted (state.prepare send call frame sequence) id side found := by
    intro id side found submitted
    apply submitted.of_record
    rw [record_prepare, if_neg (older id side found submitted)]
  have fewer : ∀ id side found, Submitted (state.prepare send call frame sequence) id side found →
      (id = send ∧ side = call.side ∧ found = frame) ∨
        (id ≠ send ∧ Submitted state id side found) := by
    intro id side found ⟨owner, recorded, sameSide, foreign⟩
    rw [record_prepare] at recorded
    split at recorded
    case isTrue same =>
      cases recorded
      exact Or.inl ⟨same, sameSide.symm, rfl⟩
    case isFalse different => exact Or.inr ⟨different, owner, recorded, sameSide, foreign⟩
  have taken : frame.header.sequence = state.nextSequence call.side := meets.sequence
  refine
    { fresh := ?_, checked := ?_, built := ?_, spent := ?_,
      distinct := ?_, streams := ?_, once := invariant.once,
      readers := ?_, pushed := ?_, pushedOnce := invariant.pushedOnce,
      pending := ?_, channels := ?_,
      acknowledged := invariant.acknowledged, returned := ?_ }
  · intro id bound
    have known := invariant.toMeshCore.id_lt unwritten
    rw [record_prepare, if_neg (by
      change id ≥ state.calls at bound
      omega)]
    exact invariant.fresh id bound
  · intro id found foundFrame located
    by_cases same : id = send
    · rw [same] at located
      simp [MeshState.prepare] at located
    · simp only [MeshState.prepare, Function.update_of_ne same] at located
      exact invariant.checked id found foundFrame located
  · intro id found foundFrame recorded
    rw [record_prepare] at recorded
    split at recorded
    · cases recorded
      exact ⟨_, built⟩
    · exact invariant.built id found foundFrame recorded
  · intro id side found submitted
    rcases fewer id side found submitted with
      ⟨_, sameSide, sameFrame⟩ | ⟨_, before⟩
    · rw [sameSide, sameFrame, taken]
      simp only [MeshState.prepare, Function.update_self]
      omega
    · have spent := invariant.spent id side found before
      by_cases sameSide : side = call.side
      · rw [sameSide] at spent ⊢
        simp only [MeshState.prepare, Function.update_self]
        omega
      · simp only [MeshState.prepare, Function.update_of_ne sameSide]
        exact spent
  · intro left right side leftFrame rightFrame first second equal
    rcases fewer left side leftFrame first with
      ⟨leftNew, leftSide, leftSame⟩ | ⟨_, leftOld⟩
    · rcases fewer right side rightFrame second with
        ⟨rightNew, _⟩ | ⟨_, rightOld⟩
      · rw [leftNew, rightNew]
      · have spent := invariant.spent right side rightFrame rightOld
        rw [← equal, leftSame, taken, leftSide] at spent
        exact absurd spent (lt_irrefl _)
    · rcases fewer right side rightFrame second with
        ⟨_, rightSide, rightSame⟩ | ⟨_, rightOld⟩
      · have spent := invariant.spent left side leftFrame leftOld
        rw [equal, rightSame, taken, rightSide] at spent
        exact absurd spent (lt_irrefl _)
      · exact invariant.distinct left right side leftFrame rightFrame leftOld rightOld equal
  · intro side packet member
    exact (invariant.streams side packet member).mono more rfl
  · intro side packet phase
    exact (invariant.readers side packet phase).mono more rfl
  · intro rank queued member
    obtain ⟨owner, recorded, rest⟩ := invariant.pushed rank queued member
    refine ⟨owner, ?_, rest⟩
    rw [record_prepare, if_neg]
    · exact recorded
    · intro same
      rw [same, unwritten] at recorded
      cases recorded
  · intro rank entry member
    by_cases same : rank = call.rank
    · rw [same] at member ⊢
      simp only [MeshState.prepare, Function.update_self, List.mem_cons] at member
      rcases member with new | old
      · refine ⟨call.side, frame, ?_, rfl, ?_⟩
        · rw [new]
          refine ⟨call, ?_, rfl, other⟩
          rw [record_prepare, if_pos rfl]
        · rw [new, taken]
          rfl
      · obtain ⟨side, found, submitted, rest⟩ := invariant.pending
          call.rank entry (List.mem_of_mem_filter old)
        exact ⟨side, found, more _ _ _ submitted, rest⟩
    · simp only [MeshState.prepare, Function.update_of_ne same] at member
      obtain ⟨side, found, submitted, rest⟩ := invariant.pending rank entry member
      exact ⟨side, found, more _ _ _ submitted, rest⟩
  · intro id member
    obtain ⟨side, found, submitted, queued⟩ := invariant.channels id member
    exact ⟨side, found, more _ _ _ submitted, queued⟩
  · intro id found located finished
    by_cases same : id = send
    · rw [same] at located
      simp only [MeshState.prepare, Function.update_self, Option.some.injEq] at located
      rw [← located] at finished
      cases finished
    · simp only [MeshState.prepare, Function.update_of_ne same] at located
      exact invariant.returned id found located finished

/-- A sequence that was taken without a written frame. -/
theorem shrinks_skipSequence (state : MeshState) {side : Endpoint} {sequence : UInt64}
    (advanced : (state.nextSequence side).toNat + 1 = sequence.toNat) :
    Shrinks state
      { state with
        nextSequence := Function.update state.nextSequence side sequence } := by
  refine { Shrinks.refl state with sequences := ?_ }
  intro other
  by_cases same : other = side
  · rw [same]
    simp only [Function.update_self]
    omega
  · simp [Function.update_of_ne same]

/-- A failed write takes every key of its rank with it. -/
theorem shrinks_failedWrite (state : MeshState) {side : Endpoint} {sequence : UInt64}
    (advanced : (state.nextSequence side).toNat + 1 = sequence.toNat)
    (rank : UInt32) (entries : List (AckKey × Nat)) (message : Message) :
    Shrinks state
      (setPeerFailure rank message
        { state with
          nextSequence := Function.update state.nextSequence side sequence
          pendingAcks := Function.update state.pendingAcks rank entries }) := by
  refine
    { shrinks_skipSequence state advanced with
      pending := ?_
      channels := ?_ }
  · intro other entry member
    by_cases same : other = rank
    · rw [same] at member
      simp [setPeerFailure] at member
    · simpa [setPeerFailure, Function.update_of_ne same] using member
  · intro id member
    simp only [setPeerFailure] at member
    split at member
    · simpa using member
    · exact member

theorem meshInvariant_submitStep {send : Nat} {failed : Option String}
    (invariant : MeshInvariant checksum uniqueId worldSize state)
    (stepped : submitStep checksum uniqueId worldSize state send failed = some next) :
    MeshInvariant checksum uniqueId worldSize next := by
  unfold submitStep at stepped
  split at stepped
  case h_2 => cases stepped
  case h_1 call written waiting =>
    obtain ⟨empty, other, typed⟩ := invariant.checked send call written waiting
    rw [empty] at waiting
    dsimp only at stepped
    split at stepped
    case h_1 =>
      cases stepped
      exact invariant.of_shrinks (shrinks_setPhase state (by simp) (by simp))
    case h_2 sequence added =>
      rw [checkedAdd_eq_some_iff] at added
      have advanced : (state.nextSequence call.side).toNat + 1 =
          (UInt64.ofNat sequence).toNat := by
        rw [added.2]
        exact (UInt64.toNat_ofNat_of_lt' added.1).symm
      split at stepped
      case h_1 =>
        cases stepped
        exact invariant.of_shrinks
          ((shrinks_skipSequence state advanced).trans (shrinks_setPhase _ (by simp) (by simp)))
      case h_2 frame built =>
        split at stepped
        case h_1 cause =>
          cases stepped
          exact invariant.of_shrinks
            (((shrinks_failedWrite state advanced _ _ _).trans
              (shrinks_setPhase _ (by simp) (by simp))).trans
                (shrinks_noticeDeparture _ _))
        case h_2 =>
          cases stepped
          have meets := Frame.builtFrom_of_new checksum built
          have prepared := invariant.prepare waiting other built advanced
          have unwritten : state.record send = some (call, none) := by
            simp [MeshState.record, waiting]
          refine MeshInvariant.write prepared ?_ ?_
          · left
            refine ⟨send, rfl, ⟨call, ?_, rfl, other⟩, meets.opcode, ?_, ?_⟩
            · exact (record_prepare state send call frame _ send).trans (if_pos rfl)
            · rw [meets.elementType]
              exact typed
            · intro member
              obtain ⟨queued, found, sameId⟩ := List.mem_map.mp member
              obtain ⟨_, recorded, _⟩ := invariant.pushed _ queued found
              rw [sameId, unwritten] at recorded
              cases recorded
          · intro id carries member
            cases carries
            obtain ⟨packet, found, carried⟩ := List.mem_filterMap.mp member
            rcases invariant.streams call.side packet found with
              ⟨id, origin, ⟨_, recorded, _⟩, _⟩ | ⟨_, _, origin, _⟩ |
              ⟨origin, _⟩
            · rw [Packet.dataId_eq_some carried] at origin
              cases origin
              rw [unwritten] at recorded
              cases recorded
            · rw [Packet.dataId_eq_some carried] at origin
              cases origin
            · rw [Packet.dataId_eq_some carried] at origin
              cases origin

/-- An acknowledgement finds only the call that it answers. -/
theorem MeshInvariant.acknowledgeSend {side : Endpoint} {packet : Packet}
    (invariant : MeshInvariant checksum uniqueId worldSize state)
    (acknowledges : Acknowledges state side.mirror packet) :
    MeshInvariant checksum uniqueId worldSize (acknowledgeSend side packet state) := by
  obtain ⟨id, frame, origin, delivered, sequence, _⟩ := acknowledges
  have logged : MeshInvariant checksum uniqueId worldSize
      { state with acknowledged := state.acknowledged ++ [packet] } := by
    refine { invariant with acknowledged := ?_ }
    intro found member
    rcases List.mem_append.mp member with early | late
    · exact invariant.acknowledged found early
    · rw [List.mem_singleton.mp late]
      exact ⟨id, origin⟩
  unfold RuCCL.Rank.acknowledgeSend
  dsimp only
  split
  case h_2 => exact logged
  case h_1 key waiting located =>
    have member := List.mem_of_find?_eq_some located
    have sameKey := List.find?_some located
    rw [decide_eq_true_eq] at sameKey
    obtain ⟨own, ownFrame, submitted, ownRank, ownKey⟩ := invariant.pending side.rank _ member
    dsimp only at sameKey ownKey submitted
    rw [sameKey, AckKey.mk.injEq] at ownKey
    obtain ⟨samePeer, sameRail, sameSequence⟩ := ownKey
    have sameSide : own = side := by
      cases own
      cases side
      simp_all
    rw [sameSide] at submitted
    have sameId : waiting = id := invariant.distinct waiting id side ownFrame frame submitted
        delivered.1 (sameSequence.symm.trans sequence)
    have removed := logged.of_shrinks
      (shrinks_removePending side.rank ⟨side.peer, side.rail, packet.frame.header.sequence⟩ _)
    refine { removed with channels := ?_ }
    intro other ok
    by_cases same : other = waiting
    · rw [same, sameId]
      exact ⟨side, frame, delivered⟩
    · simp only [Function.update_of_ne same] at ok
      exact invariant.channels other ok

/-- A data frame that leaves its stream is queued and waits for its
acknowledgement to be written. -/
theorem MeshInvariant.queueFrame {side : Endpoint} {packet : Packet} {rest : List Packet}
    {acknowledgement : Frame} {id : Nat}
    (invariant : MeshInvariant checksum uniqueId worldSize state)
    (head : state.streams side.mirror = packet :: rest)
    (origin : packet.origin = .data id)
    (submitted : Submitted state id side.mirror packet.frame)
    (unqueued : id ∉ (state.pushed side.rank).map QueuedFrame.send)
    (acknowledges :
      acknowledgement.header.sequence = packet.frame.header.sequence ∧
      acknowledgement.header.elementType = .none) :
    MeshInvariant checksum uniqueId worldSize
      ((MeshState.push
        { state with
          streams := Function.update state.streams side.mirror rest }
        side.rank ⟨id, side.rail, packet.frame⟩).setReader side
          (.acknowledging ⟨acknowledgement, .acknowledgement id⟩)) := by
  have popped := invariant.of_shrinks (shrinks_pop head)
  obtain ⟨call, recorded, sameSide, other⟩ := submitted
  have destination : call.destination = side.rank := congrArg Endpoint.peer sameSide
  have rail : call.rail = side.rail := congrArg Endpoint.rail sameSide
  -- its data was the only one of this call, so none is left under way
  have absent : ∀ found, ∀ packet ∈ Function.update state.streams side.mirror rest found,
      packet.origin ≠ .data id := by
    intro found another member marked
    by_cases same : found = side.mirror
    · rw [same, Function.update_self] at member
      have once := invariant.once side.mirror
      rw [head] at once
      simp only [List.filterMap_cons, Packet.dataId, origin, List.nodup_cons] at once
      exact once.1 (List.mem_filterMap.mpr ⟨another, member, by rw [Packet.dataId, marked]⟩)
    · rw [Function.update_of_ne same] at member
      rcases invariant.streams found another member with
        ⟨owner, mark, ⟨ownCall, ownRecord, ownSide, _⟩, _⟩ |
        ⟨_, _, mark, _⟩ | ⟨mark, _⟩
      · rw [mark] at marked
        cases marked
        rw [recorded, Option.some.injEq, Prod.mk.injEq] at ownRecord
        rw [← ownRecord.1] at ownSide
        exact same (ownSide.symm.trans sameSide)
      · rw [mark] at marked
        cases marked
      · rw [mark] at marked
        cases marked
  have pushed : MeshCore checksum uniqueId worldSize
      (MeshState.push
        { state with
          streams := Function.update state.streams side.mirror rest }
        side.rank ⟨id, side.rail, packet.frame⟩) :=
    popped.toMeshCore.push recorded destination rail unqueued absent
  refine { pushed with readers := ?_, returned := ?_ }
  · intro found waiting phase
    by_cases same : found = side
    · rw [same] at phase ⊢
      simp only [MeshState.setReader, Function.update_self,
        ReaderPhase.acknowledging.injEq] at phase
      rw [← phase]
      refine ⟨id, packet.frame, rfl, ⟨⟨call, recorded, sameSide, other⟩, ?_⟩, acknowledges⟩
      simp only [MeshState.setReader, MeshState.push, Endpoint.mirror, Function.update_self]
      exact List.mem_append_right _ List.mem_cons_self
    · simp only [MeshState.setReader, Function.update_of_ne same] at phase
      exact (invariant.readers found waiting phase).push _ _
  · intro found send located finished
    obtain ⟨frame, sameFrame, present⟩ := invariant.returned found send located finished
    exact ⟨frame, sameFrame, mem_pushed_push present⟩

theorem meshInvariant_readPeerStep {side : Endpoint}
    (invariant : MeshInvariant checksum uniqueId worldSize state)
    (stepped : readPeerStep checksum uniqueId worldSize state side = some next) :
    MeshInvariant checksum uniqueId worldSize next := by
  unfold readPeerStep at stepped
  split at stepped
  case h_2 => cases stepped
  case h_1 packet rest _ head =>
    cases stepped
    have popped := invariant.of_shrinks (shrinks_pop head)
    have marked := invariant.streams side.mirror packet (by rw [head]; exact List.mem_cons_self)
    unfold dispatchFrame
    dsimp only
    split
    · exact popped.of_shrinks (shrinks_stopReader _ _ _)
    split
    case h_1 opcode =>
      split
      case isTrue bare =>
        split
        · exact popped.of_shrinks (shrinks_stopReader _ _ _)
        · rcases marked with ⟨_, _, _, _, typed, _⟩ | acknowledges | ⟨_, different⟩
          · exact absurd bare typed
          · exact popped.acknowledgeSend acknowledges
          · exact absurd opcode different
      case isFalse typed =>
        rcases marked with
          ⟨id, origin, submitted, _, _, unqueued⟩ | acknowledges |
          ⟨_, different⟩
        · split
          · exact popped.of_shrinks (shrinks_stopReader _ _ _)
          case h_2 acknowledgement built =>
            have meets := Frame.builtFrom_of_new checksum built
            have same : packet.origin.send = id := by
              rw [origin]
              rfl
            rw [same]
            exact invariant.queueFrame head origin submitted unqueued
              ⟨meets.sequence, meets.elementType⟩
        · obtain ⟨_, _, _, _, _, bare⟩ := acknowledges
          exact absurd bare typed
        · exact absurd opcode different
    · exact popped.of_shrinks (shrinks_stopReader _ _ _)
    · exact popped.of_shrinks ((shrinks_stopReader _ _ _).trans (shrinks_notice _ _))
    · exact popped.of_shrinks (shrinks_stopReader _ _ _)

theorem meshInvariant_start (checksum : List UInt8 → UInt32) (uniqueId : UniqueId)
    (worldSize : UInt32) :
    MeshInvariant checksum uniqueId worldSize meshStart := by
  refine
    { fresh := fun _ _ => rfl, checked := ?_, built := ?_, spent := ?_,
      distinct := ?_, streams := ?_, once := ?_, readers := ?_,
      pushed := ?_, pushedOnce := ?_, pending := ?_, channels := ?_,
      acknowledged := ?_, returned := ?_ } <;>
    simp [meshStart, MeshState.record, Submitted, ConsumesOnlyAcknowledgements]

/-- Every step keeps the invariant as long as data for other ranks is typed. -/
theorem meshInvariant_step {action : MeshAction}
    (invariant : MeshInvariant checksum uniqueId worldSize state)
    (typed : TypedSends state action)
    (stepped : meshStep checksum uniqueId worldSize rails state action = some next) :
    MeshInvariant checksum uniqueId worldSize next := by
  cases action with
  | start call => exact meshInvariant_startStep invariant typed stepped
  | submit send =>
      simp only [meshStep] at stepped
      exact meshInvariant_submitStep invariant stepped
  | submitFail send cause =>
      simp only [meshStep] at stepped
      exact meshInvariant_submitStep invariant stepped
  | poll send => exact invariant.of_shrinks (shrinks_pollStep stepped)
  | expire send => exact invariant.of_shrinks (shrinks_expireStep stepped)
  | receiveAck send => exact invariant.of_shrinks (shrinks_receiveAckStep stepped)
  | retry send => exact invariant.of_shrinks (shrinks_retryStep stepped)
  | read side => exact meshInvariant_readPeerStep invariant stepped
  | acknowledge side => exact meshInvariant_acknowledgeStep invariant stepped
  | acknowledgeFail side cause => exact invariant.of_shrinks (shrinks_acknowledgeFailStep stepped)
  | readClosed side => exact invariant.of_shrinks (shrinks_readPeerClosedStep stepped)
  | readFail side cause => exact invariant.of_shrinks (shrinks_readPeerFailStep stepped)
  | receive call => exact invariant.of_shrinks (shrinks_receiveStep stepped)
  | receiveExpire call => exact invariant.of_shrinks (shrinks_receiveExpireStep stepped)
  | abort side message => exact meshInvariant_abortStep invariant stepped
  | leave side => exact meshInvariant_leaveStep invariant stepped
  | failControl rank message =>
      cases stepped
      exact invariant.of_shrinks (shrinks_of_eq rfl rfl rfl rfl rfl
        (fun _ => List.Subset.refl _) (fun _ member => member) rfl rfl)

/-- A frame whose call was queued once is the only one of its call. -/
theorem filter_send_eq_singleton {frames : List QueuedFrame} {queued : QueuedFrame}
    (once : (frames.map QueuedFrame.send).Nodup)
    (member : queued ∈ frames) :
    frames.filter (fun other => other.send = queued.send) = [queued] := by
  induction frames with
  | nil => cases member
  | cons head tail ih =>
      rw [List.map_cons, List.nodup_cons] at once
      rcases List.mem_cons.mp member with same | later
      · rw [same]
        rw [List.filter_cons_of_pos (by simp)]
        congr 1
        rw [List.filter_eq_nil_iff]
        intro other found equal
        exact once.1 (List.mem_map.mpr ⟨other, found, of_decide_eq_true equal⟩)
      · have different : head.send ≠ queued.send := by
          intro equal
          exact once.1 (List.mem_map.mpr ⟨queued, later, equal.symm⟩)
        rw [List.filter_cons_of_neg (by simp [different])]
        exact ih once.2 later

theorem MeshInvariant.deliversOnce (invariant : MeshInvariant checksum uniqueId worldSize state) :
    DeliversOnce checksum uniqueId worldSize state := by
  intro id send located finished
  obtain ⟨frame, sameFrame, present⟩ := invariant.returned id send located finished
  have recorded : state.record id = some (send.call, some frame) := by
    rw [MeshState.record, located, ← sameFrame]
    rfl
  obtain ⟨sequence, built⟩ := invariant.built id send.call frame recorded
  refine ⟨frame, sequence, built, ?_⟩
  intro rank
  split
  case isTrue same =>
    rw [same]
    exact filter_send_eq_singleton (invariant.pushedOnce send.call.destination) present
  case isFalse different =>
    rw [List.filter_eq_nil_iff]
    intro queued found sameId
    obtain ⟨call, ownRecord, destination, _⟩ := invariant.pushed rank queued found
    rw [of_decide_eq_true sameId, recorded, Option.some.injEq, Prod.mk.injEq] at ownRecord
    rw [← ownRecord.1] at destination
    exact different destination.symm

end Preservation

/-- In every run in which all data for other ranks has elements, a successful
send has queued its frame once at its destination, and no data frame was taken
for an acknowledgement. -/
theorem send_delivers_once (checksum : List UInt8 → UInt32) (uniqueId : UniqueId)
    (worldSize : UInt32) (rails : Nat) (state : MeshState)
    (reached : Reached (meshStep checksum uniqueId worldSize rails) TypedSends meshStart state) :
    DeliversOnce checksum uniqueId worldSize state ∧
      ConsumesOnlyAcknowledgements state := by
  have invariant : MeshInvariant checksum uniqueId worldSize state :=
    reached.invariant (meshInvariant_start checksum uniqueId worldSize)
      fun _ _ _ before typed stepped =>
        meshInvariant_step before typed stepped
  exact ⟨invariant.deliversOnce, invariant.acknowledged⟩

instance (state : MeshState) (action : MeshAction) : Decidable (TypedSends state action) :=
  match action with
  | .start call =>
      inferInstanceAs (Decidable (call.elementType ≠ .none ∨ call.destination = call.rank))
  | .submit _ | .submitFail _ _ | .poll _ | .expire _ | .receiveAck _
  | .retry _ | .read _ | .acknowledge _ | .acknowledgeFail _ _
  | .readClosed _ | .readFail _ _ | .receive _ | .receiveExpire _
  | .abort _ _ | .leave _ | .failControl _ _ => inferInstanceAs (Decidable True)

/-- One byte from rank 0 to rank 1. -/
def byteSend : SendCall :=
  { rank := 0, rail := 0, destination := 1, tag := 5, elementType := .u8
    elementCount := 1, payload := [7] }

/-- Rank 0 sends a byte and gets its acknowledgement. -/
def byteSendRun : List MeshAction :=
  [.start byteSend, .submit 0, .read ⟨1, 0, 0⟩, .acknowledge ⟨1, 0, 0⟩,
    .read ⟨0, 1, 0⟩, .poll 0, .receiveAck 0]

/-- The calls that returned successfully. -/
def MeshState.succeeded (state : MeshState) : List Nat :=
  (List.range state.calls).filter fun id =>
    match state.sends id with
    | some ⟨_, _, .returned (.ok ())⟩ => true
    | _ => false

theorem send_delivers_once_byte :
    ∃ state, Reached (meshStep byteSum zeroId 2 1) TypedSends meshStart state ∧
      state.succeeded = [0] ∧
      DeliversOnce byteSum zeroId 2 state ∧
      ConsumesOnlyAcknowledgements state := by
  have finished : (follow (meshStep byteSum zeroId 2 1) TypedSends
      meshStart byteSendRun).map MeshState.succeeded = some [0] :=
    rfl
  rw [Option.map_eq_some_iff] at finished
  obtain ⟨state, followed, succeeded⟩ := finished
  have reached := Reached.of_follow .start followed
  exact ⟨state, reached, succeeded, send_delivers_once byteSum zeroId 2 1 state reached⟩

/-- Rank 0 sends a frame without elements while rank 1 sends a byte; rank 1
takes the frame for the acknowledgement of its byte. -/
def emptySendRun : List MeshAction :=
  [.start { byteSend with
      elementType := .none, elementCount := 0, payload := [] },
    .submit 0, .start { byteSend with rank := 1, destination := 0 },
    .submit 1, .read ⟨1, 0, 0⟩, .poll 1, .receiveAck 1]

/-- A data frame without elements acknowledges a send that was never
delivered. -/
theorem empty_send_acknowledges :
    ¬∀ state, Reachable (meshStep byteSum zeroId 2 1) meshStart state →
      DeliversOnce byteSum zeroId 2 state ∧
        ConsumesOnlyAcknowledgements state := by
  intro always
  have mistaken : (follow (meshStep byteSum zeroId 2 1)
      (fun _ _ => True) meshStart emptySendRun).map
        (fun final =>
          (final.succeeded, final.pushed 0, final.pushed 1,
            final.acknowledged.map Packet.origin)) =
      some ([1], [], [], [.data 0]) :=
    rfl
  rw [Option.map_eq_some_iff] at mistaken
  obtain ⟨state, followed, facts⟩ := mistaken
  obtain ⟨_, consumes⟩ := always state (Reached.of_follow .start followed)
  simp only [Prod.mk.injEq] at facts
  have member : Origin.data 0 ∈ state.acknowledged.map Packet.origin := by
    rw [facts.2.2.2]
    exact List.mem_cons_self
  obtain ⟨packet, found, marked⟩ := List.mem_map.mp member
  obtain ⟨id, origin⟩ := consumes packet found
  rw [origin] at marked
  cases marked

end RuCCL.Rank
