import RuCCL.Rank.RingExchange

/-!
# Passes around a ring

In a pass every member of a ring hands one chunk on in each step.  A pass that reduces
leaves the total of a chunk one place before the place it started from; a pass that
copies takes a chunk to all members.
-/

namespace RuCCL.Rank

open RuCCL.Library
open RankTransport

section Buffers

variable {T : Type} {size length : Nat}

/-- Each element belongs to the span of at most one slot. -/
def Owns (spans : ZMod size → Span) (owner : Fin length → Option (ZMod size)) :
    Prop :=
  ∀ slot (element : Fin length), (spans slot).Covers element ↔ owner element = some slot

variable [NeZero size]

/-- The buffers after `time` steps of a pass that reduces. -/
def collecting (combine : T → T → T) (owner : Fin length → Option (ZMod size)) (lead : ZMod size)
    (values : ZMod size → Buffer T length) (time : Nat) :
    ZMod size → Buffer T length :=
  fun position element =>
    match owner element with
    | none => values position element
    | some slot =>
        reducing combine (fun place => values place element) (slot - lead) time position

/-- The buffers after `time` steps of a pass that copies. -/
def copying (owner : Fin length → Option (ZMod size)) (lead : ZMod size)
    (values : ZMod size → Buffer T length) (time : Nat) :
    ZMod size → Buffer T length :=
  fun position element =>
    match owner element with
    | none => values position element
    | some slot =>
        spreading (fun place => values place element) (slot - lead) time position

variable {spans : ZMod size → Span} {owner : Fin length → Option (ZMod size)} {lead : ZMod size}

theorem collecting_zero (combine : T → T → T)
    (owner : Fin length → Option (ZMod size)) (lead : ZMod size)
    (values : ZMod size → Buffer T length) :
    collecting combine owner lead values 0 = values := by
  funext position element
  rw [collecting]
  split
  · rfl
  · exact reducing_zero ..

theorem copying_zero (owner : Fin length → Option (ZMod size))
    (lead : ZMod size) (values : ZMod size → Buffer T length) :
    copying owner lead values 0 = values := by
  funext position element
  rw [copying]
  split
  · rfl
  · exact spreading_zero ..

omit [NeZero size] in
/-- The slot that arrives at a position is merged there. -/
theorem mergeAt_slot_eq (owns : Owns spans owner) (combine : T → T → T)
    (source target : Buffer T length) (slot : ZMod size) :
    mergeAt combine (spans slot).start (readAt (spans slot) source) target =
      fun element => if owner element = some slot
        then combine (target element) (source element)
        else target element := by
  rw [mergeAt_readAt]
  funext element
  simp only [owns slot element]

theorem collecting_succ (owns : Owns spans owner) (combine : T → T → T)
    (values : ZMod size → Buffer T length) {time : Nat}
    (early : time + 1 < size) (position : ZMod size) :
    collecting combine owner lead values (time + 1) position =
      mergeAt combine (spans (position - 1 + lead - (time : ZMod size))).start
        (readAt (spans (position - 1 + lead - (time : ZMod size)))
          (collecting combine owner lead values time (position - 1)))
        (collecting combine owner lead values time position) := by
  rw [mergeAt_slot_eq owns]
  funext element
  unfold collecting
  cases owner element with
  | none => rfl
  | some slot =>
      simp only [Option.some.injEq]
      rw [reducing_succ _ _ _ _ early]
      simp only [passed_iff]

theorem copying_succ (owns : Owns spans owner) (values : ZMod size → Buffer T length) {time : Nat}
    (early : time + 1 < size) (position : ZMod size) :
    copying owner lead values (time + 1) position = mergeAt overwrite
        (spans (position - 1 + lead - (time : ZMod size))).start
        (readAt (spans (position - 1 + lead - (time : ZMod size)))
          (copying owner lead values time (position - 1)))
        (copying owner lead values time position) := by
  rw [mergeAt_slot_eq owns]
  funext element
  unfold copying
  cases owner element with
  | none => rfl
  | some slot =>
      simp only [Option.some.injEq, overwrite]
      rw [spreading_succ _ _ _ early]
      simp only [passed_iff]

end Buffers

namespace DeviceCollective

section Passes

variable {T : Type} {size length count : Nat} {σ : Type} (collective : DeviceCollective T size)

/-- The steps of one rank in a pass. -/
def ringPass (rank : Fin size) (buffer : Cell σ (Buffer T length))
    (steps : Nat) (destination source : Fin size) (channel : Nat)
    (tag : Nat → UInt64) (sendRange receiveRange : Nat → Span)
    (use : Span → List UInt8 → σ → Except CollectiveFault σ) :
    RankThread size σ :=
  (List.range steps).flatMap fun step =>
    collective.exchangeRingChunkBytes rank buffer (sendRange step)
      (receiveRange step).length destination source channel (tag step)
      (use (receiveRange step))

variable [NeZero count] (ring : RingOrder (Fin size) count)
  (buffer : Cell σ (Buffer T length)) (spans : ZMod count → Span)
  (lead : ZMod count) (channel : Nat) (tag : Nat → UInt64)
  (use : Span → List UInt8 → σ → Except CollectiveFault σ)

/-- The slot that a rank sends in a step. -/
def passed (rank : Fin size) (step : Nat) : ZMod count :=
  ring.place rank + lead - (step : ZMod count)

/-- One step of all members. -/
def passRound (step : Nat) :
    Round (Fin size) (Box size) Frame σ CollectiveFault where
  outbox rank := .rail rank (ring.next rank)
    (collective.collectiveRailForChannel channel) (tag step)
  source := ring.previous
  message rank := collective.dataMessage
    (collective.collectiveRailForChannel channel) rank (ring.next rank)
    (tag step) collective.elementType
    (collective.chunkContent buffer (spans (passed ring lead rank step)))
  accept rank :=
    let range := spans (passed ring lead (ring.previous rank) step)
    collective.chunkAccept range.length (tag step) (use range)

def passStages (steps : Nat) : List (Stage (Fin size) (Box size) Frame σ CollectiveFault) :=
  (List.range steps).map fun step => .exchange
    (collective.passRound ring buffer spans lead channel tag use step)

/-- The members hold the values of their places. -/
def passState (before : Fin size → σ) (values : ZMod count → Buffer T length) : Fin size → σ :=
  fun rank =>
    if rank ∈ ring.members then
      buffer.write (values (ring.place rank)) (before rank)
    else before rank

variable {collective ring buffer spans lead channel tag use}

theorem passed_previous {rank : Fin size} (step : Nat) :
    passed ring lead (ring.previous rank) step =
      ring.place rank - 1 + lead - (step : ZMod count) := by
  rw [passed, RingOrder.previous, RingOrder.place_member]

/-- The instructions of a member are its part of the pass. -/
theorem flatMap_passStages {rank : Fin size} (among : rank ∈ ring.members) (steps : Nat) :
    (collective.passStages ring buffer spans lead channel tag use
        steps).flatMap (Stage.instructions rank) =
      collective.ringPass rank buffer steps (ring.next rank) (ring.previous rank) channel tag
        (fun step => spans (passed ring lead rank step))
        (fun step => spans (passed ring lead (ring.previous rank) step))
        use := by
  rw [passStages, ringPass, List.flatMap_map]
  refine List.flatMap_congr fun step _ => ?_
  simp only [Stage.instructions, Round.instructions, passRound,
    exchangeRingChunkBytes, sendOnRail, ring.next_previous among]

theorem passRound_proper (step : Nat) :
    (collective.passRound ring buffer spans lead channel tag use
      step).Proper ring.members Box.sender Box.receiver where
  sender := fun _ _ => rfl
  receiver := fun _ among => ring.next_previous among
  source := fun rank _ => ring.previous_mem rank
  target := fun rank among =>
    ⟨ring.next rank, ring.next_mem rank, ring.previous_next among⟩

theorem passStages_proper {steps : Nat} :
    ∀ stage ∈ collective.passStages ring buffer spans lead channel tag use
      steps, stage.Proper ring.members Box.sender Box.receiver := by
  intro stage member
  obtain ⟨step, _, rfl⟩ := List.mem_map.mp member
  exact passRound_proper step

omit [NeZero count] in
theorem read_passState {before : Fin size → σ}
    {values : ZMod count → Buffer T length} {rank : Fin size}
    (among : rank ∈ ring.members) :
    buffer.read (passState ring buffer before values rank) = values (ring.place rank) := by
  rw [passState, if_pos among, buffer.read_write]

omit [NeZero count] in
theorem passState_self {before : Fin size → σ} {values : ZMod count → Buffer T length}
    (held : ∀ rank ∈ ring.members, buffer.read (before rank) = values (ring.place rank)) :
    passState ring buffer before values = before := by
  funext rank
  rw [passState]
  split
  case isTrue among => rw [← held rank among, buffer.write_read]
  case isFalse => rfl

/-- In one step every member merges the slot of the member before it. -/
theorem passRound_does {combine : T → T → T} (lawful : collective.execution.Lawful)
    (fits : ∀ slot, collective.FitsFrame (spans slot).length)
    (within : ∀ slot, Within length (spans slot))
    (arrives : ∀ slot, collective.Arrives buffer combine (spans slot) (use (spans slot)))
    (before : Fin size → σ) {values later : ZMod count → Buffer T length}
    {step : Nat}
    (changed : ∀ position, later position = mergeAt combine
        (spans (position - 1 + lead - (step : ZMod count))).start
        (readAt (spans (position - 1 + lead - (step : ZMod count)))
          (values (position - 1))) (values position)) :
    (collective.passRound ring buffer spans lead channel tag use step).Does
      ring.members (passState ring buffer before values)
      (passState ring buffer before later) := by
  refine ⟨fun rank => collective.dataFrame rank (ring.next rank) (tag step)
    collective.elementType (spans (passed ring lead rank step)).length
    (collective.execution.encode
      (readAt (spans (passed ring lead rank step)) (values (ring.place rank)))), ?_, ?_, ?_⟩
  · intro rank among
    have range := within (passed ring lead rank step)
    refine dataMessage_encode lawful ?_ (range.length_readAt _) (fits _)
    simp only [chunkContent, read_passState among,
      RankDevice.copyBytesFromDeviceAt_eq_ok _ range.fits, range.whole,
      ok_bind]
  · intro rank among
    have place : ring.place (ring.previous rank) = ring.place rank - 1 := by
      rw [RingOrder.previous, RingOrder.place_member]
    have range := within (passed ring lead (ring.previous rank) step)
    have taken := chunkAccept_sent lawful (tag step) (arrives _) (fits _)
      (ring.previous rank) (ring.next (ring.previous rank))
      (range.length_readAt (values (ring.place (ring.previous rank))))
      (passState ring buffer before values rank)
    refine (show _ = _ from taken).trans (congrArg Except.ok ?_)
    rw [Cell.merge, read_passState among, passState, passState,
      if_pos among, if_pos among, buffer.write_write, place,
      passed_previous, ← changed (ring.place rank)]
  · intro rank absent
    rw [passState, passState, if_neg absent, if_neg absent]

/-- A pass goes through the values of its steps. -/
theorem passStages_does {combine : T → T → T} (lawful : collective.execution.Lawful)
    (fits : ∀ slot, collective.FitsFrame (spans slot).length)
    (within : ∀ slot, Within length (spans slot))
    (arrives : ∀ slot, collective.Arrives buffer combine (spans slot) (use (spans slot)))
    (before : Fin size → σ)
    (values : Nat → ZMod count → Buffer T length) (steps index : Nat)
    (changed : ∀ step < steps, ∀ position, values (step + 1) position = mergeAt combine
        (spans (position - 1 + lead - (step : ZMod count))).start
        (readAt (spans (position - 1 + lead - (step : ZMod count)))
          (values step (position - 1))) (values step position)) :
    DoesAll ring.members
      ((collective.passStages ring buffer spans lead channel tag use steps).map (Prod.mk index))
      (passState ring buffer before (values 0))
      (passState ring buffer before (values steps)) :=
  @DoesAll.steps _ _ _ _ _ _ _
    (fun step => passState ring buffer before (values step)) index steps
    fun step early => passRound_does lawful fits within arrives before (changed step early)

end Passes

end DeviceCollective

end RuCCL.Rank
