import RuCCL.Rank.PeerStreams
import Mathlib.Data.List.Perm.Subperm
import Mathlib.Data.List.Range

/-!
# Deadlocks of the direct peer mesh

A connection is stuck when both of its streams are full while both readers wait
to write an acknowledgement: neither reader takes bytes out, so neither lock
holder can go on.  Everything in a full stream belongs to an unfinished send
other than the one being acknowledged or acknowledges an unfinished send of the
other side, so a connection whose sends fit its streams never gets there.
-/

namespace RuCCL.Rank

open RuCCL.Library

namespace Link

/-- The side and the phase of a call. -/
def phaseOf (link : Link) (id : Nat) : Option (Side × WirePhase) :=
  link.sends[id]?.map fun send => (send.side, send.phase)

theorem phaseOf_setPhase (link : Link) (id other : Nat) (phase : WirePhase) :
    (link.setPhase id phase).phaseOf other =
      if other = id then
        (link.phaseOf id).map fun entry => (entry.1, phase)
      else link.phaseOf other := by
  unfold phaseOf setPhase
  by_cases same : other = id
  · rw [if_pos same, same]
    dsimp only
    rw [List.getElem?_modify_eq]
    cases link.sends[id]? <;> rfl
  · rw [if_neg same]
    dsimp only
    rw [List.getElem?_modify_ne _ _ (Ne.symm same)]

@[simp]
theorem sizeOf_setPhase (link : Link) (id other : Nat) (phase : WirePhase) :
    (link.setPhase id phase).sizeOf other = link.sizeOf other := by
  unfold sizeOf setPhase
  dsimp only
  by_cases same : other = id
  · rw [same, List.getElem?_modify_eq]
    cases link.sends[id]? <;> rfl
  · rw [List.getElem?_modify_ne _ _ (Ne.symm same)]

theorem phaseOf_start (link : Link) (side : Side) (payload id : Nat) :
    (link.start side payload).phaseOf id =
      if id = link.sends.length then some (side, .waiting)
      else link.phaseOf id := by
  unfold phaseOf start
  dsimp only
  by_cases same : id = link.sends.length
  · rw [if_pos same, same]
    simp
  · rw [if_neg same, List.getElem?_append]
    split
    · rfl
    · rw [List.getElem?_eq_none (by simp; omega),
        List.getElem?_eq_none (by omega)]

theorem lt_of_phaseOf {link : Link} {id : Nat} {entry : Side × WirePhase}
    (found : link.phaseOf id = some entry) : id < link.sends.length := by
  by_contra beyond
  rw [phaseOf, List.getElem?_eq_none (by omega)] at found
  cases found

theorem sizeOf_start {link : Link} {side : Side} {payload id : Nat}
    (known : id < link.sends.length) :
    (link.start side payload).sizeOf id = link.sizeOf id := by
  unfold sizeOf start
  dsimp only
  rw [List.getElem?_append_left known]

theorem mem_unfinished {link : Link} {side : Side} {id : Nat} :
    id ∈ link.unfinished side ↔ ∃ phase, link.phaseOf id = some (side, phase) ∧
        phase ≠ .finished := by
  unfold unfinished
  rw [List.mem_filter, List.mem_range]
  constructor
  · intro ⟨known, kept⟩
    split at kept
    case h_1 send found =>
      obtain ⟨sameSide, open_⟩ := of_decide_eq_true kept
      refine ⟨send.phase, ?_, open_⟩
      rw [phaseOf, found, ← sameSide]
      rfl
    case h_2 => cases kept
  · intro ⟨phase, found, open_⟩
    refine ⟨lt_of_phaseOf found, ?_⟩
    obtain ⟨send, located, same⟩ := Option.map_eq_some_iff.mp found
    rw [Prod.mk.injEq] at same
    rw [located]
    exact decide_eq_true ⟨same.1, by rw [same.2]; exact open_⟩

/-- The bytes that a side has written or is about to write, oldest first. -/
def wire (link : Link) (side : Side) : List WireByte := link.streams side ++
    match link.submission side with
    | some writer => writer.rest
    | none => []

theorem wire_of_free {link : Link} {side : Side} (free : link.submission side = none) :
    link.wire side = link.streams side := by
  simp [wire, free]

theorem wire_of_held {link : Link} {side : Side} {writer : WireWriter}
    (held : link.submission side = some writer) :
    link.wire side = link.streams side ++ writer.rest := by
  simp [wire, held]

/-- The number of bytes of a frame. -/
def frameSize (link : Link) : WireFrame → Nat
  | .data id => link.sizeOf id
  | .acknowledgement _ => frameHeaderBytes

end Link

/-- Bytes of one frame come in their order. -/
def InOrder (earlier later : WireByte) : Prop :=
  earlier.frame = later.frame → earlier.index < later.index

theorem mem_frameBytes {frame : WireFrame} {size : Nat} {byte : WireByte} :
    byte ∈ frameBytes frame size ↔ byte.index < size ∧ byte.frame = frame ∧
        byte.last = decide (byte.index + 1 = size) := by
  unfold frameBytes
  rw [List.mem_map]
  constructor
  · intro ⟨index, inside, same⟩
    rw [← same]
    exact ⟨List.mem_range.mp inside, rfl, rfl⟩
  · intro ⟨inside, sameFrame, sameLast⟩
    refine ⟨byte.index, List.mem_range.mpr inside, ?_⟩
    cases byte
    simp_all

@[simp]
theorem length_frameBytes (frame : WireFrame) (size : Nat) :
    (frameBytes frame size).length = size := by
  simp [frameBytes]

theorem pairwise_frameBytes (frame : WireFrame) (size : Nat) :
    (frameBytes frame size).Pairwise InOrder := by
  unfold frameBytes
  rw [List.pairwise_map]
  apply List.pairwise_lt_range.imp
  intro left right less _
  exact less

/-- A proper rest of a frame ends with its last byte. -/
theorem exists_last_of_drop {frame : WireFrame} {size taken : Nat} (proper : taken < size) :
    ∃ byte ∈ (frameBytes frame size).drop taken, byte.frame = frame ∧ byte.index + 1 = size := by
  refine ⟨⟨frame, size - 1, decide (size - 1 + 1 = size)⟩, ?_, rfl, ?_⟩
  · rw [List.mem_drop_iff_getElem]
    refine ⟨size - 1 - taken, by simp [frameBytes]; omega, ?_⟩
    simp only [frameBytes, List.getElem_map, List.getElem_range]
    have same : taken + (size - 1 - taken) = size - 1 := by omega
    rw [same]
  · dsimp only
    omega

/-- Some byte of the frame is written or about to be written. -/
def Link.Carries (link : Link) (side : Side) (frame : WireFrame) : Prop :=
  ∃ byte ∈ link.wire side, byte.frame = frame

/-- The last byte of the frame is written or about to be written. -/
def Link.Ends (link : Link) (side : Side) (frame : WireFrame) : Prop :=
  ∃ byte ∈ link.wire side, byte.frame = frame ∧ byte.last = true

/-- What a lock holder has left of its frame, and whom it writes for. -/
def Link.Holds (link : Link) (side : Side) (writer : WireWriter) : Prop :=
  (∃ taken < link.frameSize writer.frame, writer.rest =
      (frameBytes writer.frame (link.frameSize writer.frame)).drop taken) ∧
    match writer.frame with
    | .data id => link.phaseOf id = some (side, .writing)
    | .acknowledgement id => link.readers side = .writing id

/-- The reader of a side has read the frame of a send and not acknowledged it
yet. -/
def Link.Answering (link : Link) (side : Side) (id : Nat) : Prop :=
  link.readers side = .acknowledging id ∨ link.readers side = .writing id

/-- A send is in one place at a time: its data frame under way, the reader of the
other side busy with it, or its acknowledgement under way. -/
structure LinkInvariant (link : Link) : Prop where
  ordered : ∀ side, (link.wire side).Pairwise InOrder
  sized : ∀ side, ∀ byte ∈ link.wire side,
    byte ∈ frameBytes byte.frame (link.frameSize byte.frame)
  data : ∀ side id, link.Carries side (.data id) →
    (link.phaseOf id = some (side, .writing) ∨ link.phaseOf id = some (side, .awaiting)) ∧
    ¬link.Answering side.other id ∧
    ¬link.Carries side.other (.acknowledgement id)
  acknowledgements : ∀ side id, link.Carries side (.acknowledgement id) →
    link.phaseOf id = some (side.other, .awaiting) ∧
    link.readers side ≠ .acknowledging id
  answering : ∀ side id, link.Answering side id → link.phaseOf id = some (side.other, .awaiting)
  held : ∀ side writer, link.submission side = some writer → link.Holds side writer
  writing : ∀ side id, link.phaseOf id = some (side, .writing) →
    ∃ rest, link.submission side = some ⟨.data id, rest⟩
  answer : ∀ side id, link.readers side = .writing id →
    ∃ rest, link.submission side = some ⟨.acknowledgement id, rest⟩
  located : ∀ side id, link.phaseOf id = some (side, .awaiting) →
    link.Ends side (.data id) ∨ link.Answering side.other id ∨
      link.Ends side.other (.acknowledgement id)

namespace LinkInvariant

variable {link : Link}

theorem carries_of_ends {side : Side} {frame : WireFrame} (ends : link.Ends side frame) :
    link.Carries side frame := by
  obtain ⟨byte, member, same, _⟩ := ends
  exact ⟨byte, member, same⟩

theorem phaseOf_start_of_some {side : Side} {payload id : Nat} {entry : Side × WirePhase}
    (found : link.phaseOf id = some entry) :
    (link.start side payload).phaseOf id = some entry := by
  rw [Link.phaseOf_start, if_neg (Link.lt_of_phaseOf found).ne, found]

theorem phaseOf_of_start {side : Side} {payload id : Nat} {entry : Side × WirePhase}
    (found : (link.start side payload).phaseOf id = some entry)
    (begun : entry.2 ≠ .waiting) : link.phaseOf id = some entry := by
  rw [Link.phaseOf_start] at found
  split at found
  · cases found
    exact absurd rfl begun
  · exact found

theorem frameSize_start_of_carries {carrier side : Side} {payload : Nat} {frame : WireFrame}
    (invariant : LinkInvariant link)
    (carries : link.Carries carrier frame) :
    (link.start side payload).frameSize frame = link.frameSize frame := by
  cases frame with
  | data id =>
      obtain ⟨phase, _⟩ := invariant.data carrier id carries
      apply Link.sizeOf_start
      rcases phase with writing | awaiting
      · exact Link.lt_of_phaseOf writing
      · exact Link.lt_of_phaseOf awaiting
  | acknowledgement id => rfl

theorem holds_start {side caller : Side} {payload : Nat} {writer : WireWriter}
    (holds : link.Holds side writer) :
    (link.start caller payload).Holds side writer := by
  obtain ⟨left, owner⟩ := holds
  cases kind : writer.frame with
  | data id =>
      simp only [kind] at left owner
      have size : (link.start caller payload).frameSize (.data id) = link.frameSize (.data id) :=
        Link.sizeOf_start (Link.lt_of_phaseOf owner)
      simp only [Link.Holds, kind, size]
      exact ⟨left, phaseOf_start_of_some owner⟩
  | acknowledgement id =>
      simp only [kind] at left owner
      simp only [Link.Holds, kind]
      exact ⟨left, owner⟩

theorem start (invariant : LinkInvariant link) (caller : Side) (payload : Nat) :
    LinkInvariant (link.start caller payload) where
  ordered := invariant.ordered
  sized := by
    intro side byte member
    rw [frameSize_start_of_carries invariant ⟨byte, member, rfl⟩]
    exact invariant.sized side byte member
  data := by
    intro side id carries
    obtain ⟨phase, rest⟩ := invariant.data side id carries
    exact ⟨phase.imp phaseOf_start_of_some phaseOf_start_of_some, rest⟩
  acknowledgements := by
    intro side id carries
    obtain ⟨phase, rest⟩ := invariant.acknowledgements side id carries
    exact ⟨phaseOf_start_of_some phase, rest⟩
  answering := by
    intro side id answering
    exact phaseOf_start_of_some (invariant.answering side id answering)
  held := by
    intro side writer held
    exact holds_start (invariant.held side writer held)
  writing := by
    intro side id writing
    exact invariant.writing side id (phaseOf_of_start writing (by simp))
  answer := invariant.answer
  located := by
    intro side id awaiting
    exact invariant.located side id (phaseOf_of_start awaiting (by simp))

/-- A frame nobody has written any byte of starts in order. -/
theorem ordered_append {bytes : List WireByte} {frame : WireFrame} {size : Nat}
    (ordered : bytes.Pairwise InOrder)
    (fresh : ∀ byte ∈ bytes, byte.frame ≠ frame) :
    (bytes ++ frameBytes frame size).Pairwise InOrder := by
  rw [List.pairwise_append]
  refine ⟨ordered, pairwise_frameBytes frame size, ?_⟩
  intro earlier inside later new same
  rw [(mem_frameBytes.mp new).2.1] at same
  exact absurd same (fresh earlier inside)

theorem wire_lock {side : Side} {frame : WireFrame} {size : Nat}
    (free : link.submission side = none) (reader : Side) :
    (link.lock side frame size).wire reader =
      if reader = side then link.wire side ++ frameBytes frame size
      else link.wire reader := by
  unfold Link.wire Link.lock
  by_cases same : reader = side
  · rw [if_pos same, same]
    simp [free]
  · rw [if_neg same]
    simp [Function.update_of_ne same]

theorem submission_lock {side holder : Side} {frame : WireFrame} {size : Nat}
    {writer : WireWriter}
    (free : link.submission side = none)
    (held : link.submission holder = some writer) :
    (link.lock side frame size).submission holder = some writer := by
  have different : holder ≠ side := by
    intro same
    rw [same, free] at held
    cases held
  exact (Function.update_of_ne different ..).trans held

theorem carries_lock {side carrier : Side} {frame other : WireFrame} {size : Nat}
    (free : link.submission side = none)
    (carries : (link.lock side frame size).Carries carrier other) :
    link.Carries carrier other ∨ carrier = side ∧ other = frame := by
  obtain ⟨byte, member, same⟩ := carries
  rw [wire_lock free] at member
  split at member
  case isTrue here =>
    rcases List.mem_append.mp member with old | new
    · exact .inl ⟨byte, here ▸ old, same⟩
    · rw [(mem_frameBytes.mp new).2.1] at same
      exact .inr ⟨here, same.symm⟩
  case isFalse => exact .inl ⟨byte, member, same⟩

theorem ends_lock {side carrier : Side} {frame other : WireFrame} {size : Nat}
    (free : link.submission side = none)
    (ends : link.Ends carrier other) :
    (link.lock side frame size).Ends carrier other := by
  obtain ⟨byte, member, rest⟩ := ends
  refine ⟨byte, ?_, rest⟩
  rw [wire_lock free]
  split
  case isTrue here => exact List.mem_append_left _ (here ▸ member)
  case isFalse => exact member

theorem ordered_lock {side : Side} {frame : WireFrame} {size : Nat}
    (invariant : LinkInvariant link)
    (free : link.submission side = none)
    (fresh : ¬link.Carries side frame) (reader : Side) :
    ((link.lock side frame size).wire reader).Pairwise InOrder := by
  rw [wire_lock free]
  split
  · apply ordered_append (invariant.ordered side)
    intro byte member same
    exact fresh ⟨byte, member, same⟩
  · exact invariant.ordered reader

theorem sized_lock {side : Side} {frame : WireFrame} (invariant : LinkInvariant link)
    (free : link.submission side = none) (reader : Side) :
    ∀ byte ∈ (link.lock side frame (link.frameSize frame)).wire reader,
      byte ∈ frameBytes byte.frame (link.frameSize byte.frame) := by
  intro byte member
  rw [wire_lock free] at member
  split at member
  · rcases List.mem_append.mp member with old | new
    · exact invariant.sized side byte old
    · rw [(mem_frameBytes.mp new).2.1]
      exact new
  · exact invariant.sized reader byte member

/-- Another phase of one call leaves the calls in other phases as they are. -/
theorem phaseOf_setPhase_of_some {id other : Nat} {before phase : WirePhase} {side : Side}
    {entry : Side × WirePhase}
    (old : link.phaseOf id = some (side, before))
    (found : link.phaseOf other = some entry)
    (different : entry.2 ≠ before) :
    (link.setPhase id phase).phaseOf other = some entry := by
  rw [Link.phaseOf_setPhase, if_neg, found]
  intro same
  rw [same, old] at found
  cases found
  exact different rfl

theorem phaseOf_of_setPhase {id other : Nat} {phase : WirePhase} {entry : Side × WirePhase}
    (found : (link.setPhase id phase).phaseOf other = some entry)
    (different : entry.2 ≠ phase) : link.phaseOf other = some entry := by
  rw [Link.phaseOf_setPhase] at found
  split at found
  · obtain ⟨old, _, same⟩ := Option.map_eq_some_iff.mp found
    rw [← same] at different
    exact absurd rfl different
  · exact found

theorem phaseOf_setPhase_self {id : Nat} {before phase : WirePhase} {side : Side}
    (old : link.phaseOf id = some (side, before)) :
    (link.setPhase id phase).phaseOf id = some (side, phase) := by
  rw [Link.phaseOf_setPhase, if_pos rfl, old]
  rfl

theorem frameSize_setPhase (link : Link) (id : Nat) (phase : WirePhase) (frame : WireFrame) :
    (link.setPhase id phase).frameSize frame = link.frameSize frame := by
  cases frame with
  | data other => exact Link.sizeOf_setPhase link id other phase
  | acknowledgement other => rfl

theorem Side.eq_or_eq_other (side reference : Side) :
    side = reference ∨ side = reference.other := by
  cases side <;> cases reference <;> simp [Side.other]

theorem frameSize_pos (link : Link) {frame : WireFrame}
    (known : ∀ id, frame = .data id → ∃ entry, link.phaseOf id = some entry) :
    0 < link.frameSize frame := by
  cases frame with
  | data id =>
      obtain ⟨entry, found⟩ := known id rfl
      obtain ⟨send, located, _⟩ := Option.map_eq_some_iff.mp found
      simp [Link.frameSize, Link.sizeOf, located, WireSend.size, frameHeaderBytes]
  | acknowledgement id => simp [Link.frameSize, frameHeaderBytes]

/-- The holder of the other lock does not mind. -/
theorem holds_setPhase_lock {id : Nat} {before phase : WirePhase} {side caller : Side}
    {frame : WireFrame} {size : Nat} {writer : WireWriter}
    (old : link.phaseOf id = some (caller, before))
    (different : before ≠ .writing)
    (holds : link.Holds side writer) :
    ((link.setPhase id phase).lock caller frame size).Holds side writer := by
  obtain ⟨left, owner⟩ := holds
  refine ⟨?_, ?_⟩
  · change ∃ taken < (link.setPhase id phase).frameSize writer.frame,
      writer.rest = (frameBytes writer.frame
        ((link.setPhase id phase).frameSize writer.frame)).drop taken
    rw [frameSize_setPhase]
    exact left
  · cases kind : writer.frame with
    | data other =>
        simp only [kind] at owner
        exact phaseOf_setPhase_of_some old owner (Ne.symm different)
    | acknowledgement other =>
        simp only [kind] at owner
        exact owner

theorem lockData {id : Nat} {side : Side} (invariant : LinkInvariant link)
    (waits : link.phaseOf id = some (side, .waiting))
    (free : link.submission side = none) :
    LinkInvariant ((link.setPhase id .writing).lock side (.data id) (link.sizeOf id)) where
  ordered := by
    intro reader
    apply ordered_lock invariant free
    intro carries
    have phase := (invariant.data side id carries).1
    simp [waits] at phase
  sized := by
    intro reader byte member
    have inside := sized_lock invariant free reader byte member
    change byte ∈ frameBytes byte.frame ((link.setPhase id .writing).frameSize byte.frame)
    rw [frameSize_setPhase]
    exact inside
  data := by
    intro carrier other carries
    rcases carries_lock free carries with old | ⟨here, same⟩
    · obtain ⟨phase, idle, none⟩ := invariant.data carrier other old
      refine ⟨phase.imp ?_ ?_, idle, ?_⟩
      · intro writing
        exact phaseOf_setPhase_of_some waits writing (by simp)
      · intro awaiting
        exact phaseOf_setPhase_of_some waits awaiting (by simp)
      · intro answered
        rcases carries_lock free answered with before | ⟨_, impossible⟩
        · exact none before
        · cases impossible
    · cases same
      subst here
      refine ⟨.inl (phaseOf_setPhase_self waits), ?_, ?_⟩
      · intro answering
        have awaiting := invariant.answering _ _ answering
        simp [waits] at awaiting
      · intro answered
        rcases carries_lock free answered with before | ⟨_, impossible⟩
        · have awaiting := (invariant.acknowledgements _ _ before).1
          simp [waits] at awaiting
        · cases impossible
  acknowledgements := by
    intro carrier other carries
    rcases carries_lock free carries with old | ⟨_, impossible⟩
    · obtain ⟨awaiting, rest⟩ := invariant.acknowledgements carrier other old
      exact ⟨phaseOf_setPhase_of_some waits awaiting (by simp), rest⟩
    · cases impossible
  answering := by
    intro reader other answering
    exact phaseOf_setPhase_of_some waits (invariant.answering reader other answering) (by simp)
  held := by
    intro holder writer held
    by_cases here : holder = side
    · subst here
      simp only [Link.lock, Function.update_self, Option.some.injEq] at held
      rw [← held]
      refine ⟨⟨0, ?_, ?_⟩, phaseOf_setPhase_self waits⟩
      · apply frameSize_pos
        intro other same
        cases same
        exact ⟨_, phaseOf_setPhase_self waits⟩
      · change frameBytes (.data id) (link.sizeOf id) =
          frameBytes (.data id) ((link.setPhase id .writing).sizeOf id)
        rw [Link.sizeOf_setPhase]
    · simp only [Link.lock, Function.update_of_ne here] at held
      exact holds_setPhase_lock waits (by simp)
        (invariant.held holder writer held)
  writing := by
    intro writer other writing
    by_cases same : other = id
    · subst same
      cases (phaseOf_setPhase_self waits).symm.trans writing
      exact ⟨_, Function.update_self ..⟩
    · change (link.setPhase id .writing).phaseOf other = _ at writing
      rw [Link.phaseOf_setPhase, if_neg same] at writing
      obtain ⟨rest, held⟩ := invariant.writing writer other writing
      exact ⟨rest, submission_lock free held⟩
  answer := by
    intro reader other writing
    obtain ⟨rest, held⟩ := invariant.answer reader other writing
    exact ⟨rest, submission_lock free held⟩
  located := by
    intro caller other awaiting
    have before := invariant.located caller other (phaseOf_of_setPhase awaiting (by simp))
    rcases before with ends | answering | ends
    · exact .inl (ends_lock free ends)
    · exact .inr (.inl answering)
    · exact .inr (.inr (ends_lock free ends))

theorem readers_setReader_of_ne
    {side reader : Side} {state : WireReader} (different : reader ≠ side) :
    (link.setReader side state).readers reader = link.readers reader :=
  Function.update_of_ne different ..

theorem readers_setReader_self (side : Side) (state : WireReader) :
    (link.setReader side state).readers side = state :=
  Function.update_self ..

/-- A reader that takes the lock keeps what it answers. -/
theorem answering_lockReader {side reader : Side} {id other : Nat}
    (acknowledging : link.readers side = .acknowledging id)
    (answering : (link.setReader side (.writing id)).Answering reader other) :
    link.Answering reader other := by
  by_cases here : reader = side
  · subst here
    rw [Link.Answering, readers_setReader_self] at answering
    simp only [reduceCtorEq, false_or, WireReader.writing.injEq] at answering
    rw [← answering]
    exact .inl acknowledging
  · rw [Link.Answering, readers_setReader_of_ne here] at answering
    exact answering

theorem answering_of_lockReader {side reader : Side} {id other : Nat}
    (acknowledging : link.readers side = .acknowledging id)
    (answering : link.Answering reader other) :
    (link.setReader side (.writing id)).Answering reader other := by
  by_cases here : reader = side
  · subst here
    rw [Link.Answering, acknowledging] at answering
    simp only [reduceCtorEq, or_false, WireReader.acknowledging.injEq] at answering
    rw [← answering]
    exact .inr (readers_setReader_self ..)
  · rw [Link.Answering, readers_setReader_of_ne here]
    exact answering

theorem lockAcknowledgement {id : Nat} {side : Side} (invariant : LinkInvariant link)
    (acknowledging : link.readers side = .acknowledging id)
    (free : link.submission side = none) :
    LinkInvariant ((link.setReader side (.writing id)).lock side
      (.acknowledgement id) frameHeaderBytes) where
  ordered := by
    intro reader
    apply ordered_lock invariant free
    intro carries
    exact (invariant.acknowledgements side id carries).2 acknowledging
  sized := by
    intro reader
    exact sized_lock invariant free reader
  data := by
    intro carrier other carries
    rcases carries_lock free carries with old | ⟨_, impossible⟩
    · obtain ⟨phase, idle, none⟩ := invariant.data carrier other old
      refine ⟨phase, ?_, ?_⟩
      · intro answering
        exact idle (answering_lockReader acknowledging answering)
      · intro answered
        rcases carries_lock free answered with before | ⟨here, same⟩
        · exact none before
        · cases same
          rw [here] at idle
          exact idle (.inl acknowledging)
    · cases impossible
  acknowledgements := by
    intro carrier other carries
    rcases carries_lock free carries with old | ⟨here, same⟩
    · obtain ⟨awaiting, idle⟩ := invariant.acknowledgements carrier other old
      refine ⟨awaiting, ?_⟩
      intro again
      by_cases here : carrier = side
      · rw [here] at again
        have now := again.symm.trans (readers_setReader_self ..)
        cases now
      · exact idle ((readers_setReader_of_ne here).symm.trans again)
    · cases same
      subst here
      refine ⟨invariant.answering _ _ (.inl acknowledging), ?_⟩
      intro again
      have now := again.symm.trans (readers_setReader_self ..)
      cases now
  answering := by
    intro reader other answering
    exact invariant.answering reader other (answering_lockReader acknowledging answering)
  held := by
    intro holder writer held
    by_cases here : holder = side
    · subst here
      simp only [Link.lock, Function.update_self, Option.some.injEq] at held
      rw [← held]
      exact ⟨⟨0, by simp [Link.frameSize, frameHeaderBytes], rfl⟩,
        readers_setReader_self ..⟩
    · simp only [Link.lock, Function.update_of_ne here] at held
      obtain ⟨left, owner⟩ := invariant.held holder writer held
      refine ⟨left, ?_⟩
      cases kind : writer.frame with
      | data other =>
          simp only [kind] at owner
          exact owner
      | acknowledgement other =>
          simp only [kind] at owner
          exact (readers_setReader_of_ne here).trans owner
  writing := by
    intro writer other writing
    obtain ⟨rest, held⟩ := invariant.writing writer other writing
    exact ⟨rest, submission_lock free held⟩
  answer := by
    intro reader other writing
    by_cases here : reader = side
    · subst here
      cases (readers_setReader_self ..).symm.trans writing
      exact ⟨_, Function.update_self ..⟩
    · obtain ⟨rest, held⟩ := invariant.answer reader other
        ((readers_setReader_of_ne here).symm.trans writing)
      exact ⟨rest, submission_lock free held⟩
  located := by
    intro caller other awaiting
    rcases invariant.located caller other awaiting with
      ends | answering | ends
    · exact .inl (ends_lock free ends)
    · exact .inr (.inl (answering_of_lockReader acknowledging answering))
    · exact .inr (.inr (ends_lock free ends))

/-- Written bytes only move from the holder to the stream. -/
theorem wire_part {side : Side} {writer : WireWriter}
    (held : link.submission side = some writer) (count : Nat)
    (reader : Side) :
    Link.wire
      { link with
        streams := Function.update link.streams side (link.streams side ++ writer.rest.take count)
        submission := Function.update link.submission side
          (some { writer with rest := writer.rest.drop count }) } reader =
      link.wire reader := by
  by_cases here : reader = side
  · subst here
    rw [Link.wire_of_held held]
    simp [Link.wire, List.append_assoc]
  · simp [Link.wire, Function.update_of_ne here]

theorem wire_release {side : Side} {writer : WireWriter} {frame : WireFrame}
    (held : link.submission side = some writer) (reader : Side) :
    (Link.release
      { link with
        streams := Function.update link.streams side
          (link.streams side ++ writer.rest) } side frame).wire reader =
      link.wire reader := by
  by_cases here : reader = side
  · subst here
    rw [Link.wire_of_held held]
    cases frame <;>
      simp [Link.release, Link.wire, Link.setPhase, Link.setReader]
  · cases frame <;>
      simp [Link.release, Link.wire, Link.setPhase, Link.setReader, Function.update_of_ne here]

theorem carries_iff_of_wire {changed : Link} (same : ∀ side, changed.wire side = link.wire side)
    (side : Side) (frame : WireFrame) :
    changed.Carries side frame ↔ link.Carries side frame := by
  rw [Link.Carries, same, Link.Carries]

theorem ends_iff_of_wire {changed : Link} (same : ∀ side, changed.wire side = link.wire side)
    (side : Side) (frame : WireFrame) :
    changed.Ends side frame ↔ link.Ends side frame := by
  rw [Link.Ends, same, Link.Ends]

/-- A lock holder still has the end of its frame to write. -/
theorem ends_of_holds {side : Side} {writer : WireWriter}
    (held : link.submission side = some writer)
    (holds : link.Holds side writer) : link.Ends side writer.frame := by
  obtain ⟨⟨taken, proper, rest⟩, _⟩ := holds
  obtain ⟨byte, member, sameFrame, isLast⟩ :=
    @exists_last_of_drop writer.frame _ _ proper
  refine ⟨byte, ?_, sameFrame, ?_⟩
  · rw [Link.wire_of_held held, rest]
    exact List.mem_append_right _ member
  · have inside := List.mem_of_mem_drop member
    rw [(mem_frameBytes.mp inside).2.2]
    exact decide_eq_true isLast

theorem submission_part {side holder : Side} {writer : WireWriter} {count : Nat}
    {frame : WireFrame} {rest : List WireByte}
    (held : link.submission side = some writer)
    (holds : link.submission holder = some ⟨frame, rest⟩) :
    ∃ left, Function.update link.submission side
      (some { writer with rest := writer.rest.drop count }) holder = some ⟨frame, left⟩ := by
  by_cases here : holder = side
  · subst here
    rw [held, Option.some.injEq] at holds
    rw [holds, Function.update_self]
    exact ⟨_, rfl⟩
  · exact ⟨rest, (Function.update_of_ne here ..).trans holds⟩

/-- Another frame is written by the other side. -/
theorem submission_release {side holder : Side} {writer : WireWriter}
    {frame : WireFrame} {rest : List WireByte}
    (held : link.submission side = some writer)
    (holds : link.submission holder = some ⟨frame, rest⟩)
    (different : frame ≠ writer.frame) :
    Function.update link.submission side none holder = some ⟨frame, rest⟩ := by
  apply (Function.update_of_ne _ ..).trans holds
  intro same
  rw [same, held, Option.some.injEq] at holds
  rw [holds] at different
  exact different rfl

theorem wrotePart {side : Side} {writer : WireWriter} {count : Nat}
    (invariant : LinkInvariant link)
    (held : link.submission side = some writer)
    (left : writer.rest.drop count ≠ []) :
    LinkInvariant
      { link with
        streams := Function.update link.streams side (link.streams side ++ writer.rest.take count)
        submission := Function.update link.submission side
          (some { writer with rest := writer.rest.drop count }) } where
  ordered := by
    intro reader
    rw [wire_part held count]
    exact invariant.ordered reader
  sized := by
    intro reader byte member
    rw [wire_part held count] at member
    exact invariant.sized reader byte member
  data := by
    intro carrier id carries
    rw [carries_iff_of_wire (wire_part held count)] at carries
    obtain ⟨phase, idle, none⟩ := invariant.data carrier id carries
    refine ⟨phase, idle, ?_⟩
    rw [carries_iff_of_wire (wire_part held count)]
    exact none
  acknowledgements := by
    intro carrier id carries
    rw [carries_iff_of_wire (wire_part held count)] at carries
    exact invariant.acknowledgements carrier id carries
  answering := invariant.answering
  held := by
    intro holder other holds
    dsimp only at holds
    by_cases here : holder = side
    · subst here
      rw [Function.update_self, Option.some.injEq] at holds
      obtain ⟨⟨taken, proper, rest⟩, owner⟩ := invariant.held holder writer held
      rw [← holds]
      refine ⟨⟨taken + count, ?_, ?_⟩, owner⟩
      · by_contra beyond
        apply left
        rw [rest, List.drop_drop]
        apply List.drop_eq_nil_of_le
        rw [length_frameBytes]
        exact Nat.le_of_not_lt beyond
      · dsimp only
        rw [rest, List.drop_drop]
        rfl
    · rw [Function.update_of_ne here] at holds
      exact invariant.held holder other holds
  writing := by
    intro caller id writing
    obtain ⟨rest, holds⟩ := invariant.writing caller id writing
    exact submission_part held holds
  answer := by
    intro reader id writing
    obtain ⟨rest, holds⟩ := invariant.answer reader id writing
    exact submission_part held holds
  located := by
    intro caller id awaiting
    rw [ends_iff_of_wire (wire_part held count), ends_iff_of_wire (wire_part held count)]
    exact invariant.located caller id awaiting

/-- The last bytes of a data frame. -/
theorem wroteData {side : Side} {writer : WireWriter} {id : Nat} (invariant : LinkInvariant link)
    (held : link.submission side = some writer)
    (kind : writer.frame = .data id) :
    LinkInvariant (Link.release
      { link with
        streams := Function.update link.streams side
          (link.streams side ++ writer.rest) } side (.data id)) := by
  have wire := @wire_release link side writer (.data id) held
  obtain ⟨_, owner⟩ := invariant.held side writer held
  simp only [kind] at owner
  have ends := ends_of_holds held (invariant.held side writer held)
  rw [kind] at ends
  exact {
    ordered := by
      intro reader
      rw [wire]
      exact invariant.ordered reader
    sized := by
      intro reader byte member
      rw [wire] at member
      change byte ∈ frameBytes byte.frame ((link.setPhase id .awaiting).frameSize byte.frame)
      rw [frameSize_setPhase]
      exact invariant.sized reader byte member
    data := by
      intro carrier other carries
      rw [carries_iff_of_wire wire] at carries
      obtain ⟨phase, idle, none⟩ := invariant.data carrier other carries
      refine ⟨?_, idle, ?_⟩
      · by_cases same : other = id
        · subst same
          right
          have sameSide : carrier = side := by
            rcases phase with writing | awaiting
            · rw [owner] at writing
              cases writing
              rfl
            · rw [owner] at awaiting
              cases awaiting
          rw [sameSide]
          exact phaseOf_setPhase_self owner
        · change (link.setPhase id .awaiting).phaseOf other = _ ∨
            (link.setPhase id .awaiting).phaseOf other = _
          rw [Link.phaseOf_setPhase, if_neg same]
          exact phase
      · rw [carries_iff_of_wire wire]
        exact none
    acknowledgements := by
      intro carrier other carries
      rw [carries_iff_of_wire wire] at carries
      obtain ⟨awaiting, rest⟩ := invariant.acknowledgements carrier other carries
      exact ⟨phaseOf_setPhase_of_some owner awaiting (by simp), rest⟩
    answering := by
      intro reader other answering
      exact phaseOf_setPhase_of_some owner (invariant.answering reader other answering) (by simp)
    held := by
      intro holder other holds
      by_cases here : holder = side
      · subst here
        cases (Function.update_self ..).symm.trans holds
      · have before := (Function.update_of_ne here ..).symm.trans holds
        obtain ⟨rest, otherOwner⟩ := invariant.held holder other before
        refine ⟨?_, ?_⟩
        · change ∃ taken < (link.setPhase id .awaiting).frameSize other.frame,
            other.rest = (frameBytes other.frame
              ((link.setPhase id .awaiting).frameSize other.frame)).drop taken
          rw [frameSize_setPhase]
          exact rest
        · cases otherKind : other.frame with
          | data send =>
              simp only [otherKind] at otherOwner
              change (link.setPhase id .awaiting).phaseOf send = _
              rw [Link.phaseOf_setPhase, if_neg, otherOwner]
              intro same
              rw [same, owner] at otherOwner
              cases otherOwner
              exact here rfl
          | acknowledgement send =>
              simp only [otherKind] at otherOwner
              exact otherOwner
    writing := by
      intro caller other writing
      obtain ⟨rest, holds⟩ := invariant.writing caller other
        (phaseOf_of_setPhase writing (by simp))
      refine ⟨rest, submission_release held holds ?_⟩
      rw [kind]
      intro same
      cases same
      cases (phaseOf_setPhase_self owner).symm.trans writing
    answer := by
      intro reader other writing
      obtain ⟨rest, holds⟩ := invariant.answer reader other writing
      exact ⟨rest, submission_release held holds (by simp [kind])⟩
    located := by
      intro caller other awaiting
      rw [ends_iff_of_wire wire, ends_iff_of_wire wire]
      by_cases same : other = id
      · subst same
        have now := (phaseOf_setPhase_self owner).symm.trans awaiting
        cases now
        exact .inl ends
      · change (link.setPhase id .awaiting).phaseOf other = _ at awaiting
        rw [Link.phaseOf_setPhase, if_neg same] at awaiting
        exact invariant.located caller other awaiting }

/-- The last bytes of an acknowledgement. -/
theorem wroteAcknowledgement {side : Side} {writer : WireWriter} {id : Nat}
    (invariant : LinkInvariant link)
    (held : link.submission side = some writer)
    (kind : writer.frame = .acknowledgement id) :
    LinkInvariant (Link.release
      { link with
        streams := Function.update link.streams side (link.streams side ++ writer.rest) } side
      (.acknowledgement id)) := by
  have wire := @wire_release link side writer (.acknowledgement id) held
  obtain ⟨_, owner⟩ := invariant.held side writer held
  simp only [kind] at owner
  have ends := ends_of_holds held (invariant.held side writer held)
  rw [kind] at ends
  have answeringBefore : ∀ reader other, (link.setReader side .reading).Answering reader other →
        link.Answering reader other := by
    intro reader other answering
    by_cases here : reader = side
    · rw [here, Link.Answering, readers_setReader_self] at answering
      simp at answering
    · rw [Link.Answering, readers_setReader_of_ne here] at answering
      exact answering
  exact {
    ordered := by
      intro reader
      rw [wire]
      exact invariant.ordered reader
    sized := by
      intro reader byte member
      rw [wire] at member
      exact invariant.sized reader byte member
    data := by
      intro carrier other carries
      rw [carries_iff_of_wire wire] at carries
      obtain ⟨phase, idle, none⟩ := invariant.data carrier other carries
      refine ⟨phase, ?_, ?_⟩
      · intro answering
        exact idle (answeringBefore _ _ answering)
      · rw [carries_iff_of_wire wire]
        exact none
    acknowledgements := by
      intro carrier other carries
      rw [carries_iff_of_wire wire] at carries
      obtain ⟨awaiting, idle⟩ := invariant.acknowledgements carrier other carries
      refine ⟨awaiting, ?_⟩
      intro again
      by_cases here : carrier = side
      · rw [here] at again
        cases (readers_setReader_self ..).symm.trans again
      · exact idle ((readers_setReader_of_ne here).symm.trans again)
    answering := by
      intro reader other answering
      exact invariant.answering reader other (answeringBefore _ _ answering)
    held := by
      intro holder other holds
      by_cases here : holder = side
      · subst here
        cases (Function.update_self ..).symm.trans holds
      · have before := (Function.update_of_ne here ..).symm.trans holds
        obtain ⟨rest, otherOwner⟩ := invariant.held holder other before
        refine ⟨rest, ?_⟩
        cases otherKind : other.frame with
        | data send =>
            simp only [otherKind] at otherOwner
            exact otherOwner
        | acknowledgement send =>
            simp only [otherKind] at otherOwner
            exact (readers_setReader_of_ne here).trans otherOwner
    writing := by
      intro caller other writing
      obtain ⟨rest, holds⟩ := invariant.writing caller other writing
      exact ⟨rest, submission_release held holds (by simp [kind])⟩
    answer := by
      intro reader other writing
      by_cases here : reader = side
      · rw [here] at writing
        cases (readers_setReader_self ..).symm.trans writing
      · obtain ⟨rest, holds⟩ := invariant.answer reader other
          ((readers_setReader_of_ne here).symm.trans writing)
        exact ⟨rest, (Function.update_of_ne here ..).trans holds⟩
    located := by
      intro caller other awaiting
      rw [ends_iff_of_wire wire, ends_iff_of_wire wire]
      rcases invariant.located caller other awaiting with
        data | answering | acknowledgement
      · exact .inl data
      · by_cases here : caller.other = side
        · -- The acknowledgement this reader has just completed.
          rw [here, Link.Answering, owner] at answering
          simp only [reduceCtorEq, false_or, WireReader.writing.injEq] at answering
          rw [here, ← answering]
          exact .inr (.inr ends)
        · refine .inr (.inl ?_)
          rw [Link.Answering] at answering ⊢
          rw [show (Link.release _ side (.acknowledgement id)).readers
            caller.other = _ from readers_setReader_of_ne here]
          exact answering
      · exact .inr (.inr acknowledgement) }

theorem wrote {side : Side} {writer : WireWriter} {count : Nat} (invariant : LinkInvariant link)
    (held : link.submission side = some writer) :
    LinkInvariant (link.wrote side writer count) := by
  unfold Link.wrote
  split
  case h_1 done =>
    have whole : writer.rest.take count = writer.rest := by
      have split := List.take_append_drop count writer.rest
      rw [done, List.append_nil] at split
      exact split
    rw [whole]
    cases kind : writer.frame with
    | data id => exact wroteData invariant held kind
    | acknowledgement id => exact wroteAcknowledgement invariant held kind
  case h_2 left => exact wrotePart invariant held left

/-! ### Reads -/

/-- The link after the reader took everything but `rest` from a stream. -/
def consumed (link : Link) (carrier : Side) (rest : List WireByte) : Link :=
  { link with streams := Function.update link.streams carrier rest }

section Read

variable {carrier : Side} {skip : Nat} {byte : WireByte} {rest : List WireByte}

theorem wire_consumed (found : (link.streams carrier).drop skip = byte :: rest) :
    link.wire carrier = (link.streams carrier).take skip ++
      byte :: (consumed link carrier rest).wire carrier := by
  have split := List.take_append_drop skip (link.streams carrier)
  rw [found] at split
  simp only [Link.wire, consumed, Function.update_self]
  rw [← List.cons_append, ← List.append_assoc, split]

theorem wire_consumed_of_ne {side : Side} (different : side ≠ carrier) :
    (consumed link carrier rest).wire side = link.wire side := by
  simp [Link.wire, consumed, Function.update_of_ne different]

theorem mem_wire_of_consumed (found : (link.streams carrier).drop skip = byte :: rest)
    {side : Side} {other : WireByte}
    (member : other ∈ (consumed link carrier rest).wire side) :
    other ∈ link.wire side := by
  by_cases here : side = carrier
  · subst here
    rw [wire_consumed found]
    exact List.mem_append_right _ (List.mem_cons_of_mem _ member)
  · rw [wire_consumed_of_ne here] at member
    exact member

theorem carries_of_consumed (found : (link.streams carrier).drop skip = byte :: rest)
    {side : Side} {frame : WireFrame}
    (carries : (consumed link carrier rest).Carries side frame) :
    link.Carries side frame := by
  obtain ⟨other, member, same⟩ := carries
  exact ⟨other, mem_wire_of_consumed found member, same⟩

theorem carries_byte (found : (link.streams carrier).drop skip = byte :: rest) :
    link.Carries carrier byte.frame := by
  refine ⟨byte, ?_, rfl⟩
  rw [wire_consumed found]
  exact List.mem_append_right _ List.mem_cons_self

/-- No frame loses its end but the one the reader has completed. -/
theorem ends_consumed (found : (link.streams carrier).drop skip = byte :: rest)
    (quiet : ¬((link.streams carrier).take skip).any WireByte.last = true)
    {side : Side} {frame : WireFrame} (ends : link.Ends side frame) :
    (consumed link carrier rest).Ends side frame ∨
      side = carrier ∧ frame = byte.frame ∧ byte.last = true := by
  obtain ⟨other, member, same, isLast⟩ := ends
  by_cases here : side = carrier
  · subst here
    rw [wire_consumed found] at member
    rcases List.mem_append.mp member with skipped | kept
    · exact absurd (List.any_eq_true.mpr ⟨other, skipped, isLast⟩) quiet
    · rcases List.mem_cons.mp kept with taken | left
      · rw [← taken]
        exact .inr ⟨rfl, same.symm, isLast⟩
      · exact .inl ⟨other, left, same, isLast⟩
  · rw [← wire_consumed_of_ne here] at member
    exact .inl ⟨other, member, same, isLast⟩

/-- Nothing follows the last byte of a frame. -/
theorem not_carries_consumed (invariant : LinkInvariant link)
    (found : (link.streams carrier).drop skip = byte :: rest)
    (isLast : byte.last = true) :
    ¬(consumed link carrier rest).Carries carrier byte.frame := by
  intro ⟨later, member, same⟩
  have ordered := invariant.ordered carrier
  rw [wire_consumed found] at ordered
  have below := (List.pairwise_cons.mp
    (List.pairwise_append.mp ordered).2.1).1 later member same.symm
  have inside := mem_frameBytes.mp (invariant.sized carrier later
    (mem_wire_of_consumed found member))
  have whole := mem_frameBytes.mp (invariant.sized carrier byte (by
    rw [wire_consumed found]
    exact List.mem_append_right _ List.mem_cons_self))
  rw [isLast] at whole
  have complete := of_decide_eq_true whole.2.2.symm
  rw [same] at inside
  omega

theorem ordered_consumed (invariant : LinkInvariant link)
    (found : (link.streams carrier).drop skip = byte :: rest)
    (side : Side) :
    ((consumed link carrier rest).wire side).Pairwise InOrder := by
  by_cases here : side = carrier
  · subst here
    have ordered := invariant.ordered side
    rw [wire_consumed found] at ordered
    exact (List.pairwise_cons.mp (List.pairwise_append.mp ordered).2.1).2
  · rw [wire_consumed_of_ne here]
    exact invariant.ordered side

theorem readPart (invariant : LinkInvariant link)
    (found : (link.streams carrier).drop skip = byte :: rest)
    (quiet : ¬((link.streams carrier).take skip).any WireByte.last = true)
    (inside : byte.last ≠ true) :
    LinkInvariant (consumed link carrier rest) where
  ordered := ordered_consumed invariant found
  sized := by
    intro side other member
    exact invariant.sized side other (mem_wire_of_consumed found member)
  data := by
    intro side id carries
    obtain ⟨phase, idle, none⟩ := invariant.data side id (carries_of_consumed found carries)
    refine ⟨phase, idle, ?_⟩
    intro answered
    exact none (carries_of_consumed found answered)
  acknowledgements := by
    intro side id carries
    exact invariant.acknowledgements side id (carries_of_consumed found carries)
  answering := invariant.answering
  held := invariant.held
  writing := invariant.writing
  answer := invariant.answer
  located := by
    intro side id awaiting
    have kept : ∀ holder frame, link.Ends holder frame →
        (consumed link carrier rest).Ends holder frame := by
      intro holder frame ends
      rcases ends_consumed found quiet ends with left | ⟨_, _, isLast⟩
      · exact left
      · exact absurd isLast inside
    rcases invariant.located side id awaiting with
      data | answering | acknowledgement
    · exact .inl (kept _ _ data)
    · exact .inr (.inl answering)
    · exact .inr (.inr (kept _ _ acknowledgement))

/-- A whole data frame has been read: its sender waits for the
acknowledgement. -/
theorem awaiting_of_read {id : Nat} (invariant : LinkInvariant link)
    (found : (link.streams carrier).drop skip = byte :: rest)
    (isLast : byte.last = true) (kind : byte.frame = .data id) :
    link.phaseOf id = some (carrier, .awaiting) := by
  have carries := carries_byte found
  rw [kind] at carries
  rcases (invariant.data carrier id carries).1 with writing | awaiting
  · obtain ⟨left, held⟩ := invariant.writing carrier id writing
    have ends := @ends_of_holds (consumed link carrier rest) _ _ held (invariant.held _ _ held)
    have none := not_carries_consumed invariant found isLast
    rw [kind] at none
    exact absurd (carries_of_ends ends) none
  · exact awaiting

theorem readData {side : Side} {id : Nat} (invariant : LinkInvariant link)
    (found : (link.streams side.other).drop skip = byte :: rest)
    (quiet : ¬((link.streams side.other).take skip).any WireByte.last = true)
    (isLast : byte.last = true) (kind : byte.frame = .data id)
    (reading : link.readers side = .reading) :
    LinkInvariant ((consumed link side.other rest).setReader side (.acknowledging id)) := by
  have carried := carries_byte found
  have gone := not_carries_consumed invariant found isLast
  rw [kind] at carried gone
  have sent := awaiting_of_read invariant found isLast kind
  have unanswered := (invariant.data _ _ carried).2.2
  rw [Side.other_other] at unanswered
  have answeringBefore : ∀ reader other,
      (link.setReader side (.acknowledging id)).Answering reader other →
        link.Answering reader other ∨ reader = side ∧ other = id := by
    intro reader other answering
    by_cases here : reader = side
    · rw [here, Link.Answering, readers_setReader_self] at answering
      simp only [reduceCtorEq, or_false, WireReader.acknowledging.injEq] at answering
      exact .inr ⟨here, answering.symm⟩
    · rw [Link.Answering, readers_setReader_of_ne here] at answering
      exact .inl answering
  exact {
    ordered := ordered_consumed invariant found
    sized := by
      intro reader other member
      exact invariant.sized reader other (mem_wire_of_consumed found member)
    data := by
      intro holder other carries
      obtain ⟨phase, idle, none⟩ := invariant.data holder other
        (carries_of_consumed found carries)
      refine ⟨phase, ?_, ?_⟩
      · intro answering
        rcases answeringBefore _ _ answering with before | ⟨here, same⟩
        · exact idle before
        · have carrierIs : holder = side.other := by
            rw [← here, Side.other_other]
          rw [carrierIs, same] at carries
          exact gone carries
      · intro answered
        exact none (carries_of_consumed found answered)
    acknowledgements := by
      intro holder other carries
      have before := carries_of_consumed found carries
      obtain ⟨awaiting, idle⟩ := invariant.acknowledgements holder other before
      refine ⟨awaiting, ?_⟩
      intro again
      rcases answeringBefore _ _ (.inl again) with old | ⟨here, same⟩
      · by_cases here : holder = side
        · rw [here, Link.Answering, reading] at old
          simp at old
        · exact idle ((readers_setReader_of_ne here).symm.trans again)
      · rw [here, same] at before
        exact unanswered before
    answering := by
      intro reader other answering
      rcases answeringBefore _ _ answering with before | ⟨here, same⟩
      · exact invariant.answering reader other before
      · rw [here, same]
        exact sent
    held := by
      intro holder writer held
      obtain ⟨left, owner⟩ := invariant.held holder writer held
      refine ⟨left, ?_⟩
      cases otherKind : writer.frame with
      | data send =>
          simp only [otherKind] at owner
          exact owner
      | acknowledgement send =>
          simp only [otherKind] at owner
          have different : holder ≠ side := by
            intro same
            rw [same, reading] at owner
            cases owner
          exact (readers_setReader_of_ne different).trans owner
    writing := invariant.writing
    answer := by
      intro reader other writing
      by_cases here : reader = side
      · rw [here] at writing
        cases (readers_setReader_self ..).symm.trans writing
      · exact invariant.answer reader other ((readers_setReader_of_ne here).symm.trans writing)
    located := by
      intro caller other awaiting
      rcases invariant.located caller other awaiting with
        data | answering | acknowledgement
      · rcases ends_consumed found quiet data with
          kept | ⟨here, same, _⟩
        · exact .inl kept
        · rw [kind] at same
          cases same
          rw [here, Side.other_other]
          exact .inr (.inl (.inl (readers_setReader_self ..)))
      · have different : caller.other ≠ side := by
          intro same
          rw [same, Link.Answering, reading] at answering
          simp at answering
        refine .inr (.inl ?_)
        rw [Link.Answering, readers_setReader_of_ne different]
        exact answering
      · rcases ends_consumed found quiet acknowledgement with
          kept | ⟨_, same, _⟩
        · exact .inr (.inr kept)
        · rw [kind] at same
          cases same }

theorem readAcknowledgement {id : Nat} (invariant : LinkInvariant link)
    (found : (link.streams carrier).drop skip = byte :: rest)
    (quiet : ¬((link.streams carrier).take skip).any WireByte.last = true)
    (isLast : byte.last = true) (kind : byte.frame = .acknowledgement id) :
    LinkInvariant ((consumed link carrier rest).setPhase id .finished) := by
  have carried := carries_byte found
  have gone := not_carries_consumed invariant found isLast
  rw [kind] at carried gone
  obtain ⟨owner, idle⟩ := invariant.acknowledgements _ _ carried
  have different : ∀ other entry, other ≠ id → link.phaseOf other = some entry →
      ((consumed link carrier rest).setPhase id .finished).phaseOf other =
        some entry := by
    intro other entry distinct was
    rw [Link.phaseOf_setPhase, if_neg distinct]
    exact was
  exact {
    ordered := ordered_consumed invariant found
    sized := by
      intro reader other member
      rw [frameSize_setPhase]
      exact invariant.sized reader other (mem_wire_of_consumed found member)
    data := by
      intro holder other carries
      have before := carries_of_consumed found carries
      obtain ⟨phase, rested, none⟩ := invariant.data holder other before
      have distinct : other ≠ id := by
        intro same
        subst same
        rw [owner] at phase
        simp only [Option.some.injEq, Prod.mk.injEq, reduceCtorEq, and_false,
          and_true, false_or] at phase
        rw [← phase, Side.other_other] at none
        exact none carried
      refine ⟨phase.imp (different _ _ distinct) (different _ _ distinct), rested, ?_⟩
      intro answered
      exact none (carries_of_consumed found answered)
    acknowledgements := by
      intro holder other carries
      have before := carries_of_consumed found carries
      obtain ⟨awaiting, rested⟩ := invariant.acknowledgements holder other before
      refine ⟨different _ _ ?_ awaiting, rested⟩
      intro same
      subst same
      rw [owner] at awaiting
      simp only [Option.some.injEq, Prod.mk.injEq, and_true] at awaiting
      have here : holder = carrier := by
        rw [← Side.other_other holder, ← awaiting, Side.other_other]
      rw [here] at carries
      exact gone carries
    answering := by
      intro reader other answering
      have awaiting := invariant.answering reader other answering
      refine different _ _ ?_ awaiting
      intro same
      subst same
      rw [owner] at awaiting
      simp only [Option.some.injEq, Prod.mk.injEq, and_true] at awaiting
      have here : reader = carrier := by
        rw [← Side.other_other reader, ← awaiting, Side.other_other]
      subst here
      rcases answering with acknowledging | writing
      · exact idle acknowledging
      · obtain ⟨left, held⟩ := invariant.answer _ _ writing
        exact gone (carries_of_ends
          (@ends_of_holds (consumed link reader rest) _ _ held (invariant.held _ _ held)))
    held := by
      intro holder writer held
      obtain ⟨left, author⟩ := invariant.held holder writer held
      refine ⟨?_, ?_⟩
      · rw [frameSize_setPhase]
        exact left
      · cases otherKind : writer.frame with
        | data send =>
            simp only [otherKind] at author
            exact @phaseOf_setPhase_of_some (consumed link carrier rest)
              _ _ _ _ _ _ owner author (by simp)
        | acknowledgement send =>
            simp only [otherKind] at author
            exact author
    writing := by
      intro caller other writing
      exact invariant.writing caller other
        (@phaseOf_of_setPhase (consumed link carrier rest) _ _ _ _ writing (by simp))
    answer := invariant.answer
    located := by
      intro caller other awaiting
      have before := @phaseOf_of_setPhase (consumed link carrier rest)
        _ _ _ _ awaiting (by simp)
      have distinct : other ≠ id := by
        intro same
        rw [same, @phaseOf_setPhase_self (consumed link carrier rest)
          _ _ _ _ owner] at awaiting
        cases awaiting
      rcases invariant.located caller other before with
        data | answering | acknowledgement
      · rcases ends_consumed found quiet data with kept | ⟨_, same, _⟩
        · exact .inl kept
        · rw [kind] at same
          cases same
      · exact .inr (.inl answering)
      · rcases ends_consumed found quiet acknowledgement with
          kept | ⟨_, same, _⟩
        · exact .inr (.inr kept)
        · rw [kind] at same
          cases same
          exact absurd rfl distinct }

end Read

theorem took {side : Side} {skip : Nat} {byte : WireByte} {rest : List WireByte}
    (invariant : LinkInvariant link)
    (found : (link.streams side.other).drop skip = byte :: rest)
    (quiet : ¬((link.streams side.other).take skip).any WireByte.last = true)
    (reading : link.readers side = .reading) :
    LinkInvariant ((consumed link side.other rest).took side byte) := by
  unfold Link.took
  split
  case isTrue isLast =>
    cases kind : byte.frame with
    | data id => exact readData invariant found quiet isLast kind reading
    | acknowledgement id => exact readAcknowledgement invariant found quiet isLast kind
  case isFalse inside => exact readPart invariant found quiet inside

theorem idle : LinkInvariant Link.idle where
  ordered := by
    intro side
    exact List.Pairwise.nil
  sized := by
    intro side byte member
    cases member
  data := by
    intro side id ⟨byte, member, _⟩
    cases member
  acknowledgements := by
    intro side id ⟨byte, member, _⟩
    cases member
  answering := by
    intro side id answering
    simp [Link.Answering, Link.idle] at answering
  held := by
    intro side writer held
    cases held
  writing := by
    intro side id writing
    cases writing
  answer := by
    intro side id writing
    cases writing
  located := by
    intro side id awaiting
    cases awaiting

end LinkInvariant

/-- What each action asks for and does. -/
theorem linkStep_cases {capacity : Side → Nat} {link successor : Link} {action : LinkAction}
    (stepped : linkStep capacity link action = some successor) :
    (∃ side payload, action = .start side payload ∧ successor = link.start side payload) ∨
    (∃ id side, action = .lock id ∧ link.phaseOf id = some (side, .waiting) ∧
      link.submission side = none ∧
      successor = (link.setPhase id .writing).lock side (.data id) (link.sizeOf id)) ∨
    (∃ side count writer, action = .write side count ∧ link.submission side = some writer ∧
      successor = link.wrote side writer count) ∨
    (∃ side skip byte rest, action = .read side skip ∧ link.readers side = .reading ∧
      (link.streams side.other).drop skip = byte :: rest ∧
      ¬((link.streams side.other).take skip).any WireByte.last = true ∧
      successor = (LinkInvariant.consumed link side.other rest).took side byte) ∨
    (∃ side id, action = .lockReader side ∧ link.readers side = .acknowledging id ∧
      link.submission side = none ∧
      successor = (link.setReader side (.writing id)).lock side
        (.acknowledgement id) frameHeaderBytes) := by
  cases action with
  | start side payload => exact .inl ⟨side, payload, rfl, (Option.some.inj stepped).symm⟩
  | lock id =>
      refine .inr (.inl ?_)
      rw [linkStep] at stepped
      split at stepped
      case h_1 send found =>
        split at stepped
        case isTrue ready =>
          refine ⟨id, send.side, rfl, ?_, ready.2, ?_⟩
          · rw [Link.phaseOf, found, ← ready.1]
            rfl
          · rw [Link.sizeOf, found]
            exact (Option.some.inj stepped).symm
        case isFalse => cases stepped
      case h_2 => cases stepped
  | write side count =>
      refine .inr (.inr (.inl ?_))
      rw [linkStep] at stepped
      split at stepped
      case h_1 writer held =>
        split at stepped
        case isTrue =>
          exact ⟨side, count, writer, rfl, held, (Option.some.inj stepped).symm⟩
        case isFalse => cases stepped
      case h_2 => cases stepped
  | read side skip =>
      refine .inr (.inr (.inr (.inl ?_)))
      rw [linkStep] at stepped
      split at stepped
      case h_1 byte rest reading found =>
        split at stepped
        case isTrue => cases stepped
        case isFalse quiet =>
          exact ⟨side, skip, byte, rest, rfl, reading, found, quiet,
            (Option.some.inj stepped).symm⟩
      case h_2 => cases stepped
  | lockReader side =>
      refine .inr (.inr (.inr (.inr ?_)))
      rw [linkStep] at stepped
      split at stepped
      case h_1 id acknowledging =>
        split at stepped
        case isTrue free =>
          exact ⟨side, id, rfl, acknowledging, free, (Option.some.inj stepped).symm⟩
        case isFalse => cases stepped
      case h_2 => cases stepped

theorem LinkInvariant.step {capacity : Side → Nat} {link successor : Link} {action : LinkAction}
    (invariant : LinkInvariant link)
    (stepped : linkStep capacity link action = some successor) :
    LinkInvariant successor := by
  rcases linkStep_cases stepped with
    ⟨side, payload, _, rfl⟩ | ⟨id, side, _, waits, free, rfl⟩ |
    ⟨side, count, writer, _, held, rfl⟩ |
    ⟨side, skip, byte, rest, _, reading, found, quiet, rfl⟩ |
    ⟨side, id, _, acknowledging, free, rfl⟩
  · exact invariant.start side payload
  · exact invariant.lockData waits free
  · exact invariant.wrote held
  · exact invariant.took found quiet reading
  · exact invariant.lockAcknowledgement acknowledging free

end RuCCL.Rank
