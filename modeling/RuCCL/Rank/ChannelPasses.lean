import RuCCL.Rank.CollectiveRuns

/-!
# Passes of all channels

Every channel passes its own elements around its ring.  What the ranks hold of an element
afterwards follows from what they held of it before.
-/

namespace RuCCL.Rank

open RuCCL.Library
open RankTransport

namespace DeviceCollective

variable {T : Type} {size length count channels : Nat} {σ : Type}

/-- Every element of a channel changes by the slot it belongs to. -/
def settled (final : ZMod count → (ZMod count → T) → ZMod count → T)
    (owner : Fin length → Option (ZMod count))
    (values : ZMod count → Buffer T length) :
    ZMod count → Buffer T length :=
  fun position element =>
    match owner element with
    | none => values position element
    | some slot => final slot (fun place => values place element) position

section Channels

variable [NeZero count] {layout : ChannelLayout length channels count}
  {rings : Nat → RingOrder (Fin size) count} {ranks : List (Fin size)}
  {buffer : Cell σ (Buffer T length)}
  {final : ZMod count → (ZMod count → T) → ZMod count → T}

variable (layout rings final) in
/-- The change of one element, as the members of the ring of its channel see it. -/
def settling (element : Fin length) (values : Fin size → T) (rank : Fin size) : T :=
  final (layout.slotOf element)
    (fun place => values ((rings (layout.channelOf element)).member place))
    ((rings (layout.channelOf element)).place rank)

theorem passState_settled {channel : Nat} (before : Fin size → σ)
    (same : ∀ rank, rank ∈ (rings channel).members ↔ rank ∈ ranks) :
    passState (rings channel) buffer before
        (settled final (layout.owner channel) fun place =>
          buffer.read (before ((rings channel).member place))) =
      elementwise ranks buffer (layout.channelOf · = channel)
        (settling layout rings final) before := by
  funext rank
  unfold passState elementwise
  by_cases among : rank ∈ ranks
  · have member := (same rank).mpr among
    rw [if_pos member, if_pos among]
    refine congrArg (buffer.write · (before rank)) (funext fun element => ?_)
    unfold settled settling ChannelLayout.owner
    by_cases own : layout.channelOf element = channel
    · rw [if_pos own, if_pos own]
      dsimp only
      rw [own]
    · rw [if_neg own, if_neg own]
      dsimp only
      rw [(rings channel).member_place member]
  · rw [if_neg fun member => among ((same rank).mp member), if_neg among]

/-- All channels together settle every element. -/
theorem settled_do
    {stages : Nat → List (Stage (Fin size) (Box size) Frame σ CollectiveFault)}
    (same : ∀ channel rank, rank ∈ (rings channel).members ↔ rank ∈ ranks)
    (each : ∀ channel < channels, ∀ memory, DoesAll (rings channel).members
        ((stages channel).map (Prod.mk channel)) memory
        (passState (rings channel) buffer memory
          (settled final (layout.owner channel) fun place =>
            buffer.read (memory ((rings channel).member place)))))
    (before : Fin size → σ) :
    DoesAll ranks (byChannel stages channels) before
      (elementwise ranks buffer (fun _ => True) (settling layout rings final) before) := by
  refine DoesAll.elements layout.bounded (fun channel inside memory => ?_) before
  have does := each channel inside memory
  rw [passState_settled memory (same channel)] at does
  exact does.of_mem_iff (same channel)

section Passes

variable (collective : DeviceCollective T size) (lead : ZMod count) (tag : Nat → Nat → UInt64)
  (use : Span → List UInt8 → σ → Except CollectiveFault σ)

variable (layout rings buffer) in
/-- One pass of a channel. -/
def channelPass (channel : Nat) : List (Stage (Fin size) (Box size) Frame σ CollectiveFault) :=
  collective.passStages (rings channel) buffer (layout.span channel) lead
    channel (tag channel) use (count - 1)

variable {collective lead tag use} {function : T → T → T}

theorem channelPass_proper
    (same : ∀ channel rank, rank ∈ (rings channel).members ↔ rank ∈ ranks) (channel : Nat) :
    ∀ stage ∈ collective.channelPass layout rings buffer lead tag use
      channel, stage.Proper ranks Box.sender Box.receiver := by
  intro stage member
  exact (passStages_proper stage member).of_mem_iff (same channel)

theorem channelPass_serves {combine : T → T → T} {rank : Fin size}
    {channel : Nat} (inside : channel < channels)
    (among : rank ∈ (rings channel).members)
    (arrives : ∀ slot, collective.Arrives buffer combine
      (layout.span channel slot) (use (layout.span channel slot)))
    {instruction : RankInstruction size σ}
    (member : instruction ∈ (collective.channelPass layout rings buffer lead
      tag use channel).flatMap (Stage.instructions rank)) :
    collective.Serves buffer rank (fun range => ∃ slot, range = layout.span channel slot)
      (fun other => ∃ step < count - 1, other = tag channel step)
      instruction :=
  serves_passStages among (layout.within channel inside) arrives member

/-- Passes of different channels are apart when their tags differ. -/
theorem channelPass_apart {combine : T → T → T} {rank : Fin size}
    {channel other : Nat} (inside : channel < channels)
    (otherInside : other < channels) (different : channel ≠ other)
    (among : ∀ channel, rank ∈ (rings channel).members)
    (arrives : ∀ channel < channels, ∀ slot,
      collective.Arrives buffer combine (layout.span channel slot)
        (use (layout.span channel slot)))
    (distinct : ∀ step < count - 1, ∀ another < count - 1, tag channel step ≠ tag other another) :
    ∀ instruction ∈ (collective.channelPass layout rings buffer lead tag use
      channel).flatMap (Stage.instructions rank),
    ∀ concurrent ∈ (collective.channelPass layout rings buffer lead tag use
      other).flatMap (Stage.instructions rank),
    Apart instruction concurrent := by
  intro instruction member concurrent otherMember
  refine (channelPass_serves inside (among channel) (arrives channel inside)
    member).apart (channelPass_serves otherInside (among other)
      (arrives other otherInside) otherMember) ?_ ?_
  · intro range span ⟨slot, here⟩ ⟨another, there⟩
    rw [here, there]
    exact layout.apart channel inside other otherInside different slot another
  · intro first second ⟨step, early, here⟩ ⟨later, late, there⟩
    rw [here, there]
    exact distinct step early later late

/-- Channels may run their passes at once when their tags differ. -/
theorem channelPass_separate {combine : T → T → T} {rank : Fin size}
    (among : ∀ channel, rank ∈ (rings channel).members)
    (arrives : ∀ channel < channels, ∀ slot,
      collective.Arrives buffer combine (layout.span channel slot)
        (use (layout.span channel slot)))
    (distinct : ∀ channel < channels, ∀ other < channels,
      channel ≠ other → ∀ step < count - 1, ∀ another < count - 1,
        tag channel step ≠ tag other another) :
    SeparatePhase collective.controlPath Box.sender Box.receiver rank
      (forkedPhase (collective.channelPass layout rings buffer lead tag use) channels rank) :=
  SeparatePhase.forked
    (fun channel inside other otherInside different =>
      channelPass_apart inside otherInside different among arrives
        (distinct channel inside other otherInside different))
    fun channel inside _ member => (channelPass_serves inside
      (among channel) (arrives channel inside) member).owned

/-- A pass that reduces. -/
theorem reducePass_does (lawful : collective.execution.Lawful)
    (addressable : length * collective.execution.elementSize < wordSize)
    (fits : ∀ channel < channels, ∀ slot, collective.FitsFrame (layout.span channel slot).length)
    (same : ∀ channel rank, rank ∈ (rings channel).members ↔ rank ∈ ranks)
    (before : Fin size → σ) :
    DoesAll ranks
      (byChannel (collective.channelPass layout rings buffer lead tag
        (collective.reduceChunk buffer function)) channels) before
      (elementwise ranks buffer (fun _ => True)
        (settling layout rings fun slot values =>
          reducing function values (slot - lead) (count - 1)) before) := by
  refine settled_do same (fun channel inside memory => ?_) before
  have within := layout.within channel inside
  have does := @passStages_does T size length count σ collective _
    (rings channel) buffer (layout.span channel) lead channel (tag channel)
    (collective.reduceChunk buffer function) function lawful
    (fits channel inside) within
    (fun slot => arrives_reduceChunk lawful buffer function (within slot) addressable) memory
    (fun time => collecting function (layout.owner channel) lead
      (fun place => buffer.read (memory ((rings channel).member place))) time)
    (count - 1) channel
    fun step early position => collecting_succ (layout.owns inside) function
      _ (by omega) position
  simp only [collecting_zero] at does
  rw [passState_self fun rank among => by
    rw [(rings channel).member_place among]] at does
  exact does

/-- Every element with the reduction that ends where it belongs. -/
def scatterTotals (layout : ChannelLayout length channels count)
    (rings : Nat → RingOrder (Fin size) count) (function : T → T → T)
    (inputs : Fin size → Buffer T length) : Buffer T length :=
  fun element =>
    ringTotal function
      (fun place =>
        inputs ((rings (layout.channelOf element)).member place) element)
      (layout.slotOf element + 1) (count - 1)

/-- Only the members of the rings matter. -/
theorem scatterTotals_congr {function : T → T → T} {inputs others : Fin size → Buffer T length}
    (same : ∀ channel, ∀ rank ∈ (rings channel).members,
      inputs rank = others rank) (element : Fin length) :
    scatterTotals layout rings function inputs element =
      scatterTotals layout rings function others element := by
  have members (place : ZMod count) :=
    same (layout.channelOf element) _ (RingOrder.member_mem _ place)
  simp only [scatterTotals, members]

/-- What starts behind the member that an element belongs to ends there. -/
theorem settling_scatterTotals {element : Fin length} {rank : Fin size}
    (own : (rings (layout.channelOf element)).place rank =
      layout.slotOf element) (inputs : Fin size → Buffer T length) :
    settling layout rings (fun slot values => reducing function values (slot - -1) (count - 1))
        element (fun other => inputs other element) rank =
      scatterTotals layout rings function inputs element := by
  have last := reducing_last function
    (fun place =>
      inputs ((rings (layout.channelOf element)).member place) element)
    (layout.slotOf element + 1)
  rw [add_sub_cancel_right] at last
  unfold settling scatterTotals
  dsimp only
  rw [own, sub_neg_eq_add]
  exact last

/-- A pass that copies. -/
theorem copyPass_does (lawful : collective.execution.Lawful)
    (fits : ∀ channel < channels, ∀ slot, collective.FitsFrame (layout.span channel slot).length)
    (arrives : ∀ channel < channels, ∀ slot,
      collective.Arrives buffer overwrite (layout.span channel slot)
        (use (layout.span channel slot)))
    (same : ∀ channel rank, rank ∈ (rings channel).members ↔ rank ∈ ranks)
    (before : Fin size → σ) :
    DoesAll ranks
      (byChannel (collective.channelPass layout rings buffer lead tag use) channels) before
      (elementwise ranks buffer (fun _ => True)
        (settling layout rings fun slot values _ => values (slot - lead))
        before) := by
  refine settled_do same (fun channel inside memory => ?_) before
  have does := @passStages_does T size length count σ collective _
    (rings channel) buffer (layout.span channel) lead channel (tag channel)
    use overwrite lawful (fits channel inside) (layout.within channel inside)
    (arrives channel inside) memory
    (fun time => copying (layout.owner channel) lead
      (fun place => buffer.read (memory ((rings channel).member place))) time)
    (count - 1) channel
    fun step early position => copying_succ (layout.owns inside) _ (by omega)
      position
  have copied : copying (layout.owner channel) lead
      (fun place => buffer.read (memory ((rings channel).member place)))
      (count - 1) =
      settled (fun slot values _ => values (slot - lead)) (layout.owner channel)
        fun place => buffer.read (memory ((rings channel).member place)) := by
    funext position element
    unfold copying settled
    cases layout.owner channel element with
    | none => rfl
    | some slot => exact spreading_last ..
  simp only [copying_zero, copied] at does
  rw [passState_self fun rank among => by
    rw [(rings channel).member_place among]] at does
  exact does

end Passes

end Channels

section Copies

variable {other : Nat}

/-- A range of one buffer is copied to another one. -/
def Copies (source : Cell σ (Buffer T length))
    (target : Cell σ (Buffer T other)) (range : Span) (offset : Nat)
    (change : σ → Except CollectiveFault σ) : Prop :=
  ∀ memory, change memory =
    .ok (target.merge overwrite offset (readAt range (source.read memory)) memory)

variable {source : Cell σ (Buffer T length)} {target : Cell σ (Buffer T other)}
  {range another : Span} {offset place : Nat}
  {change otherChange : σ → Except CollectiveFault σ}

theorem Copies.updates (copies : Copies source target range offset change) :
    Updates (computed change) (fun _ memory => .ok (readAt range (source.read memory)))
      (target.merge overwrite offset) := by
  intro _ memory
  exact copies memory

/-- What is exchanged elsewhere may be exchanged before or after a copy. -/
theorem Serves.apart_copies {collective : DeviceCollective T size}
    {rank : Fin size} {ranges : Span → Prop} {tags : UInt64 → Prop}
    {instruction : RankInstruction size σ}
    (independent : Cell.Independent source target)
    (serves : collective.Serves source rank ranges tags instruction)
    (copies : Copies source target range offset change)
    (separate : ∀ span, ranges span → range.Apart span) :
    Apart instruction (.compute change) := by
  obtain ⟨exchange, member, _, _, receives⟩ := serves
  rcases List.mem_cons.mp member with rfl | member
  · refine copies.updates.unseen ?_
    intro _ values memory _
    rw [dataMessage, dataMessage, chunkContent, chunkContent, independent.read_merge]
  · rw [List.mem_singleton.mp member]
    obtain ⟨check, updates, sized⟩ := exchange.arrives.updates exchange.tag
    have elsewhere := separate _ receives
    rw [← exchange.receives.whole] at elsewhere
    refine updates.commute copies.updates ?_ (fun _ _ _ _ _ => rfl) ?_
    · intro frame _ values memory accepted
      have apart := elsewhere
      rw [← sized frame values accepted] at apart
      exact congrArg Except.ok (source.readAt_merge_of_apart exchange.combine apart memory)
    · intro _ _ _ _ memory _ _
      exact independent.merge_comm _ _ _ _ _ _ memory

/-- Copies to separate ranges may be made in any order. -/
theorem Copies.apart (independent : Cell.Independent source target)
    (within : Within length range) (otherWithin : Within length another)
    (copies : Copies source target range offset change)
    (copying : Copies source target another place otherChange)
    (separate : (⟨offset, offset + range.length⟩ : Span).Apart ⟨place, place + another.length⟩) :
    Apart (.compute change : RankInstruction size σ) (.compute otherChange) := by
  refine copies.updates.commute copying.updates ?_ ?_ ?_
  · intro _ _ values memory _
    refine congrArg Except.ok ?_
    rw [independent.read_merge]
  · intro _ _ values memory _
    refine congrArg Except.ok ?_
    rw [independent.read_merge]
  · intro _ _ values otherValues memory taken otherTaken
    cases taken
    cases otherTaken
    refine target.merge_comm_of_apart overwrite overwrite ?_ memory
    rw [within.length_readAt, otherWithin.length_readAt]
    exact separate

/-- Every channel copies its part of what lies behind an origin. -/
theorem copies_do {origin : Fin size → Nat} (fits : ∀ rank, origin rank + other ≤ length)
    (positive : 0 < channels) (independent : Cell.Independent source target)
    {changes : Nat → Fin size → σ → Except CollectiveFault σ}
    (copies : ∀ channel rank, channel < channels → Copies source target
        ((channelSpan other channels channel).shift (origin rank))
        (channelSpan other channels channel).start (changes channel rank))
    (before : Fin size → σ) :
    DoesAll (β := Box size) (μ := Frame) (List.finRange size)
      (byChannel (fun channel => [.alone (changes channel)]) channels) before
      (fun rank => target.write (partAt (origin rank) (fits rank) (source.read (before rank)))
        (before rank)) := by
  have each := @DoesAll.channels _ (Box size) Frame σ CollectiveFault
    (List.finRange size) (fun channel => [.alone (changes channel)])
    (fun count rank => target.write
      (fun element =>
        if channelOf other channels element < count then
          partAt (origin rank) (fits rank) (source.read (before rank)) element
        else target.read (before rank) element) (before rank)) channels ?_
  · simp only [channelOf_lt positive, if_true, Nat.not_lt_zero,
      if_false, target.write_read] at each
    exact each
  · intro channel inside
    refine ⟨_, ⟨fun rank _ => ?_, fun rank absent =>
      absurd (List.mem_finRange rank) absent⟩, rfl⟩
    have cut := Cut.balanced other positive
    rw [copies channel rank inside, independent.unread,
      ← readAt_partAt (fits rank) _ (channelSpan_within inside).inside,
      Cell.merge, target.read_write, mergeAt_readAt, target.write_write]
    refine congrArg (fun buffer => Except.ok (target.write buffer _)) (funext fun element => ?_)
    have own := @covers_iff_slotOf _ channels element channel cut.begins
      cut.growing (cut.whole.symm ▸ element.isLt)
    have place : (channelSpan other channels channel).Covers element ↔
        channelOf other channels element = channel := own
    simp only [place, overwrite]
    split_ifs
    · rfl
    · omega
    · rfl
    · omega
    · omega
    · rfl

end Copies

end DeviceCollective

end RuCCL.Rank
