import RuCCL.Rank.ChannelPasses

/-!
# The two passes of an all-reduce

Every channel first reduces each of its chunks around the ring and then copies the
totals around it.
-/

namespace RuCCL.Rank

open RuCCL.Library

inductive ReductionOperation where
  | sum | product | minimum | maximum | bitAnd | bitOr | bitXor
  deriving DecidableEq

/-- The discriminant of the operation. -/
def ReductionOperation.code : ReductionOperation → UInt32
  | sum => 0
  | product => 1
  | minimum => 2
  | maximum => 3
  | bitAnd => 4
  | bitOr => 5
  | bitXor => 6

namespace DeviceCollective

variable {T : Type} {size length count : Nat} {σ : Type} (collective : DeviceCollective T size)

/-- The steps of one rank in both passes, over the chunks of a ring. -/
def allReducePasses (rank : Fin size) (buffer : Cell σ (Buffer T length))
    (count position : Nat) (nextRank previousRank : Fin size)
    (channel : Nat) (chunk : Nat → Span) (reduceTag copyTag : Nat → UInt64)
    (function : T → T → T) : RankThread size σ :=
  collective.ringPass rank buffer (count - 1) nextRank previousRank channel
      reduceTag (fun step => chunk (position + count - step))
      (fun step => chunk (position + count - step - 1))
      (collective.reduceChunk buffer function) ++
    collective.ringPass rank buffer (count - 1) nextRank previousRank channel
      copyTag (fun step => chunk (position + 1 + count - step))
      (fun step => chunk (position + count - step))
      (collective.copyReceivedChunk buffer)

section Stages

variable [NeZero count] (ring : RingOrder (Fin size) count)
  (buffer : Cell σ (Buffer T length)) (spans : ZMod count → Span)
  (channel : Nat) (reduceTag copyTag : Nat → UInt64)
  (function : T → T → T)

/-- Both passes of all members. -/
def allReduceStages : List (Stage (Fin size) (Box size) Frame σ CollectiveFault) :=
  collective.passStages ring buffer spans 0 channel reduceTag
      (collective.reduceChunk buffer function) (count - 1) ++
    collective.passStages ring buffer spans 1 channel copyTag
      (collective.copyReceivedChunk buffer) (count - 1)

variable {collective ring buffer spans channel reduceTag copyTag function}

theorem ringPass_congr {rank destination source : Fin size} {tag : Nat → UInt64} {steps : Nat}
    {sendRange receiveRange otherSend otherReceive : Nat → Span}
    {use : Span → List UInt8 → σ → Except CollectiveFault σ}
    (sent : ∀ step < steps, sendRange step = otherSend step)
    (received : ∀ step < steps, receiveRange step = otherReceive step) :
    collective.ringPass rank buffer steps destination source channel tag
        sendRange receiveRange use =
      collective.ringPass rank buffer steps destination source channel tag
        otherSend otherReceive use := by
  refine List.flatMap_congr fun step member => ?_
  have early := List.mem_range.mp member
  rw [sent step early, received step early]

/-- The instructions of a member are its part of both passes. -/
theorem flatMap_allReduceStages {rank : Fin size}
    (among : rank ∈ ring.members) {chunk : Nat → Span}
    (chunks : ∀ index, chunk index = spans (index : ZMod count)) :
    (collective.allReduceStages ring buffer spans channel reduceTag copyTag
        function).flatMap (Stage.instructions rank) =
      collective.allReducePasses rank buffer count (ring.position rank)
        (ring.next rank) (ring.previous rank) channel chunk reduceTag
        copyTag function := by
  have bounded := ring.position_lt among
  rw [allReduceStages, List.flatMap_append, flatMap_passStages among,
    flatMap_passStages among, allReducePasses]
  congr 1
  · refine ringPass_congr ?_ ?_
    · intro step early
      rw [chunks, Nat.cast_sub (by omega), passed, RingOrder.place]
      congr 1
      push_cast
      simp
    · intro step early
      rw [chunks, Nat.sub_sub, Nat.cast_sub (by omega), passed_previous,
        RingOrder.place]
      congr 1
      push_cast
      simp
      ring
  · refine ringPass_congr ?_ ?_
    · intro step early
      rw [chunks, Nat.cast_sub (by omega), passed, RingOrder.place]
      congr 1
      push_cast
      simp
    · intro step early
      rw [chunks, Nat.cast_sub (by omega), passed_previous, RingOrder.place]
      congr 1
      push_cast
      simp

theorem allReduceStages_proper :
    ∀ stage ∈ collective.allReduceStages ring buffer spans channel reduceTag
      copyTag function, stage.Proper ring.members Box.sender
        Box.receiver := by
  intro stage member
  rcases List.mem_append.mp member with reduces | copies
  · exact passStages_proper stage reduces
  · exact passStages_proper stage copies

/-- What every member holds after both passes. -/
def allReduced (function : T → T → T) (owner : Fin length → Option (ZMod count))
    (values : ZMod count → Buffer T length) :
    ZMod count → Buffer T length :=
  fun position element =>
    match owner element with
    | none => values position element
    | some slot =>
        ringTotal function (fun place => values place element) slot (count - 1)

theorem copying_collecting (function : T → T → T) (owner : Fin length → Option (ZMod count))
    (values : ZMod count → Buffer T length) :
    copying owner 1 (collecting function owner 0 values (count - 1)) (count - 1) =
      allReduced function owner values := by
  funext position element
  unfold copying collecting allReduced
  cases owner element with
  | none => rfl
  | some slot =>
      dsimp only
      rw [spreading_last, sub_zero, reducing_last]

omit [NeZero count] in
theorem passState_passState (before : Fin size → σ)
    (values later : ZMod count → Buffer T length) :
    passState ring buffer (passState ring buffer before values) later =
      passState ring buffer before later := by
  funext rank
  unfold passState
  split
  · rw [buffer.write_write]
  · rfl

theorem allReduceStages_does {owner : Fin length → Option (ZMod count)}
    (lawful : collective.execution.Lawful)
    (addressable : length * collective.execution.elementSize < wordSize)
    (fits : ∀ slot, collective.FitsFrame (spans slot).length)
    (within : ∀ slot, Within length (spans slot))
    (owns : Owns spans owner) (before : Fin size → σ)
    (values : ZMod count → Buffer T length)
    (held : ∀ rank ∈ ring.members,
      buffer.read (before rank) = values (ring.place rank)) (index : Nat) :
    DoesAll ring.members
      ((collective.allReduceStages ring buffer spans channel reduceTag
        copyTag function).map (Prod.mk index))
      before
      (passState ring buffer before (allReduced function owner values)) := by
  have positive := NeZero.pos count
  have reduces := @passStages_does T size length count σ collective _ ring
    buffer spans 0 channel reduceTag (collective.reduceChunk buffer function)
    function lawful fits within
    (fun slot => arrives_reduceChunk lawful buffer function (within slot) addressable) before
    (fun time => collecting function owner 0 values time) (count - 1) index
    fun step early position => collecting_succ owns function values (by omega) position
  have copies := @passStages_does T size length count σ collective _ ring
    buffer spans 1 channel copyTag (collective.copyReceivedChunk buffer)
    overwrite lawful fits within
    (fun slot => arrives_copyReceivedChunk lawful buffer (within slot))
    (passState ring buffer before (collecting function owner 0 values (count - 1)))
    (fun time => copying owner 1
      (collecting function owner 0 values (count - 1)) time) (count - 1)
    index
    fun step early position => copying_succ owns _ (by omega) position
  simp only [passState_passState, collecting_zero, copying_zero,
    copying_collecting, passState_self held] at reduces copies
  rw [allReduceStages, List.map_append]
  exact reduces.append copies

end Stages

section Channels

variable [NeZero count] {channels : Nat} (layout : ChannelLayout length channels count)
  (rings : Nat → RingOrder (Fin size) count)
  (buffer : Cell σ (Buffer T length))
  (reduceTag copyTag : Nat → Nat → UInt64) (function : T → T → T)

/-- Both passes of one channel. -/
def channelStages (channel : Nat) : List (Stage (Fin size) (Box size) Frame σ CollectiveFault) :=
  collective.allReduceStages (rings channel) buffer (layout.span channel)
    channel (reduceTag channel) (copyTag channel) function

/-- Every element is collected around the ring of its channel. -/
def ringTotals (inputs : Fin size → Buffer T length) : Buffer T length := fun element =>
    ringTotal function
      (fun place =>
        inputs ((rings (layout.channelOf element)).member place) element)
      (layout.slotOf element) (count - 1)

variable {collective layout rings buffer reduceTag copyTag function} {ranks : List (Fin size)}

/-- After all channels every rank of the group holds the totals. -/
theorem channelStages_does (lawful : collective.execution.Lawful)
    (addressable : length * collective.execution.elementSize < wordSize)
    (fits : ∀ channel < channels, ∀ slot, collective.FitsFrame (layout.span channel slot).length)
    (same : ∀ channel rank, rank ∈ (rings channel).members ↔ rank ∈ ranks)
    (before : Fin size → σ) :
    DoesAll ranks
      (byChannel (collective.channelStages layout rings buffer reduceTag
        copyTag function) channels) before
      (overlay ranks
        (fun rank => buffer.write
          (ringTotals layout rings function fun other =>
            buffer.read (before other)) (before rank)) before) := by
  have ran := @settled_do T size length count channels σ _ layout rings ranks
    buffer (fun slot values _ => ringTotal function values slot (count - 1))
    (collective.channelStages layout rings buffer reduceTag copyTag function)
    same
    (fun channel inside memory =>
      allReduceStages_does lawful addressable (fits channel inside)
        (layout.within channel inside) (layout.owns inside) memory
        (fun place => buffer.read (memory ((rings channel).member place)))
        (fun rank among => by rw [(rings channel).member_place among])
        channel) before
  have result : elementwise ranks buffer (fun _ => True)
      (settling layout rings fun slot values _ =>
        ringTotal function values slot (count - 1)) before =
      overlay ranks
        (fun rank => buffer.write
          (ringTotals layout rings function fun other =>
            buffer.read (before other)) (before rank)) before := by
    unfold elementwise overlay ringTotals settling
    simp only [if_true]
  rwa [result] at ran

theorem channelStages_proper
    (same : ∀ channel rank, rank ∈ (rings channel).members ↔ rank ∈ ranks) (channel : Nat) :
    ∀ stage ∈ collective.channelStages layout rings buffer reduceTag copyTag
      function channel, stage.Proper ranks Box.sender Box.receiver := by
  intro stage member
  exact (allReduceStages_proper stage member).of_mem_iff (same channel)

/-- Channels may run at once when their tags differ. -/
theorem channelStages_separate (lawful : collective.execution.Lawful)
    (addressable : length * collective.execution.elementSize < wordSize)
    {rank : Fin size}
    (among : ∀ channel, rank ∈ (rings channel).members)
    (distinct : ∀ channel < channels, ∀ other < channels,
      channel ≠ other → ∀ step < count - 1, ∀ another < count - 1,
        reduceTag channel step ≠ reduceTag other another ∧
        reduceTag channel step ≠ copyTag other another ∧
        copyTag channel step ≠ copyTag other another) :
    SeparatePhase collective.controlPath Box.sender Box.receiver rank
      (forkedPhase (collective.channelStages layout rings buffer reduceTag
        copyTag function) channels rank) := by
  have serves (channel : Nat) (inside : channel < channels) (instruction : RankInstruction size σ)
      (member : instruction ∈ (collective.channelStages layout rings buffer
        reduceTag copyTag function channel).flatMap (Stage.instructions rank)) :
      collective.Serves buffer rank (fun range => ∃ slot, range = layout.span channel slot)
        (fun tag => ∃ step < count - 1, tag = reduceTag channel step ∨ tag = copyTag channel step)
        instruction := by
    have within := layout.within channel inside
    rw [channelStages, allReduceStages, List.flatMap_append, List.mem_append] at member
    rcases member with reduces | copies
    · refine (serves_passStages (among channel) within
        (fun slot => arrives_reduceChunk lawful buffer function
          (within slot) addressable) reduces).mono (fun _ range => range) ?_
      intro tag ⟨step, early, equal⟩
      exact ⟨step, early, Or.inl equal⟩
    · refine (serves_passStages (among channel) within
        (fun slot => arrives_copyReceivedChunk lawful buffer (within slot))
        copies).mono (fun _ range => range) ?_
      intro tag ⟨step, early, equal⟩
      exact ⟨step, early, Or.inr equal⟩
  refine SeparatePhase.forked ?_ ?_
  · intro channel inside other otherInside different instruction member concurrent otherMember
    refine (serves channel inside instruction member).apart
      (serves other otherInside concurrent otherMember) ?_ ?_
    · intro range span ⟨slot, here⟩ ⟨another, there⟩
      rw [here, there]
      exact layout.apart channel inside other otherInside different slot another
    · intro tag another ⟨step, early, here⟩ ⟨later, late, there⟩
      have apart := distinct channel inside other otherInside different step early later late
      have back := distinct other otherInside channel inside
        (Ne.symm different) later late step early
      rcases here with rfl | rfl <;> rcases there with rfl | rfl
      · exact apart.1
      · exact apart.2.1
      · exact Ne.symm back.2.1
      · exact apart.2.2
  · intro channel inside instruction member
    exact (serves channel inside instruction member).owned

end Channels

end DeviceCollective

end RuCCL.Rank
