import RuCCL.Rank.PeerStreamsCorrect
import Mathlib.Algebra.Order.BigOperators.Group.List

/-!
# Deadlocks of the direct peer mesh

A connection is stuck when both of its streams are full while both readers wait
to write an acknowledgement: neither reader takes bytes out, so neither lock
holder can go on.  Everything in a full stream belongs to an unfinished send
other than the one being acknowledged or acknowledges an unfinished send of the
other side, so a connection whose sends fit its streams never gets there.
-/

namespace RuCCL.Rank

open RuCCL.Library

section Fits

variable {capacity : Side → Nat} {link successor : Link}

/-- No call but a new one is added to the unfinished ones. -/
structure Settles (link successor : Link) : Prop where
  length : successor.sends.length = link.sends.length
  size : ∀ id, successor.sizeOf id = link.sizeOf id
  unfinished : ∀ side, successor.unfinished side ⊆ link.unfinished side

theorem settles_of_sends (same : successor.sends = link.sends) :
    Settles link successor where
  length := by rw [same]
  size := by
    intro id
    rw [Link.sizeOf, same, Link.sizeOf]
  unfinished := by
    intro side
    rw [Link.unfinished, same, Link.unfinished]
    exact List.Subset.refl _

theorem settles_setPhase {id : Nat} {side : Side} {before phase : WirePhase}
    (old : link.phaseOf id = some (side, before))
    (unfinished : before ≠ .finished)
    (same : successor.sends = (link.setPhase id phase).sends) :
    Settles link successor where
  length := by
    rw [same, Link.setPhase, List.length_modify]
  size := by
    intro other
    rw [Link.sizeOf, same]
    exact Link.sizeOf_setPhase link id other phase
  unfinished := by
    intro caller other member
    rw [Link.unfinished, same, ← Link.unfinished, Link.mem_unfinished] at member
    obtain ⟨current, found, running⟩ := member
    rw [Link.phaseOf_setPhase] at found
    split at found
    case isTrue equal =>
      rw [old] at found
      cases found
      rw [equal]
      exact Link.mem_unfinished.mpr ⟨before, old, unfinished⟩
    case isFalse => exact Link.mem_unfinished.mpr ⟨current, found, running⟩

theorem settles_wrote {side : Side} {writer : WireWriter} {count : Nat}
    (invariant : LinkInvariant link)
    (held : link.submission side = some writer) :
    Settles link (link.wrote side writer count) := by
  obtain ⟨_, owner⟩ := invariant.held side writer held
  unfold Link.wrote
  split
  case h_1 =>
    cases kind : writer.frame with
    | data id =>
        simp only [kind] at owner
        exact settles_setPhase owner (by simp) rfl
    | acknowledgement id => exact settles_of_sends rfl
  case h_2 => exact settles_of_sends rfl

theorem settles_took {side : Side} {skip : Nat} {byte : WireByte} {rest : List WireByte}
    (invariant : LinkInvariant link)
    (found : (link.streams side.other).drop skip = byte :: rest) :
    Settles link ((LinkInvariant.consumed link side.other rest).took side byte) := by
  unfold Link.took
  split
  case isTrue =>
    cases kind : byte.frame with
    | data id => exact settles_of_sends rfl
    | acknowledgement id =>
        have carries := LinkInvariant.carries_byte found
        rw [kind] at carries
        have owner := (invariant.acknowledgements _ _ carries).1
        exact settles_setPhase owner (by simp) rfl
  case isFalse => exact settles_of_sends rfl

theorem settles_step {action : LinkAction} (invariant : LinkInvariant link)
    (continues : action.continues = true)
    (stepped : linkStep capacity link action = some successor) :
    Settles link successor := by
  rcases linkStep_cases stepped with
    ⟨side, payload, rfl, _⟩ | ⟨id, side, _, waits, _, rfl⟩ |
    ⟨side, count, writer, _, held, rfl⟩ |
    ⟨side, skip, byte, rest, _, _, found, _, rfl⟩ |
    ⟨side, id, _, _, _, rfl⟩
  · cases continues
  · exact settles_setPhase waits (by simp) rfl
  · exact settles_wrote invariant held
  · exact settles_took invariant found
  · exact settles_of_sends rfl

theorem Settles.unfinished_sublist (settles : Settles link successor) (side : Side) :
    (successor.unfinished side).Sublist (link.unfinished side) := by
  have subset := settles.unfinished side
  have length := settles.length
  unfold Link.unfinished at subset ⊢
  rw [length] at subset ⊢
  apply List.monotone_filter_right
  intro id kept
  have known : id < link.sends.length := by
    by_contra beyond
    rw [List.getElem?_eq_none (by omega)] at kept
    cases kept
  exact (List.mem_filter.mp (subset (List.mem_filter.mpr ⟨List.mem_range.mpr known, kept⟩))).2

theorem Settles.load_le (settles : Settles link successor) (side : Side) (held : Nat)
    (acked : List Nat) :
    successor.load side held acked ≤ link.load side held acked := by
  have sizes : successor.sizeOf = link.sizeOf := funext settles.size
  unfold Link.load
  rw [sizes]
  apply Nat.add_le_add
  · apply List.Sublist.sum_le_sum
    · exact ((settles.unfinished_sublist side).filter _).map _
    · intro size _
      exact Nat.zero_le size
  · apply Nat.mul_le_mul_left
    exact ((settles.unfinished_sublist side.other).filter _).length_le

theorem Settles.fits (settles : Settles link successor) (fits : link.Fits capacity) :
    successor.Fits capacity := by
  intro low lowOpen high highOpen acked member
  rw [settles.length] at member
  rcases fits low (settles.unfinished .low lowOpen) high
      (settles.unfinished .high highOpen) acked member with lowFits | highFits
  · exact .inl ((settles.load_le .low low acked).trans lowFits)
  · exact .inr ((settles.load_le .high high acked).trans highFits)

/-- New sends that fit, and whatever is done about the others, leave sends that
fit. -/
theorem fits_step {action : LinkAction} (invariant : LinkInvariant link)
    (fits : link.Fits capacity)
    (permitted : FittingSend capacity link action)
    (stepped : linkStep capacity link action = some successor) :
    successor.Fits capacity := by
  cases kind : action.continues with
  | true => exact (settles_step invariant kind stepped).fits fits
  | false =>
      cases action with
      | start side payload =>
          cases stepped
          exact permitted
      | lock id => cases kind
      | write side count => cases kind
      | read side skip => cases kind
      | lockReader side => cases kind

end Fits

section Stuck

variable {capacity : Side → Nat} {link : Link}

/-- Neither a caller, nor a lock holder, nor a reader of the connection can go
on. -/
def Stuck (capacity : Side → Nat) (link : Link) : Prop :=
  ∀ action, action.continues = true → linkStep capacity link action = none

/-- A lock holder that is stuck faces a full stream. -/
theorem Stuck.full {side : Side} {writer : WireWriter}
    (stuck : Stuck capacity link) (invariant : LinkInvariant link)
    (held : link.submission side = some writer) :
    capacity side ≤ (link.streams side).length ∧ writer.rest ≠ [] := by
  have left : 1 ≤ writer.rest.length := by
    obtain ⟨⟨taken, proper, rest⟩, _⟩ := invariant.held side writer held
    rw [rest, List.length_drop, length_frameBytes]
    omega
  have blocked := stuck (.write side 1) rfl
  simp only [linkStep, held] at blocked
  split at blocked
  case isTrue => cases blocked
  case isFalse refused =>
    refine ⟨by omega, ?_⟩
    intro empty
    rw [empty] at left
    cases left

/-- A reader that is stuck before a stream with bytes in it has an
acknowledgement to write, and the lock it needs is taken. -/
theorem Stuck.answering {side : Side}
    (stuck : Stuck capacity link) (invariant : LinkInvariant link)
    (pending : link.streams side.other ≠ []) :
    (∃ id, link.Answering side id) ∧ ∃ writer, link.submission side = some writer := by
  cases state : link.readers side with
  | reading =>
      have blocked := stuck (.read side 0) rfl
      cases bytes : link.streams side.other with
      | nil => exact absurd bytes pending
      | cons byte rest => simp [linkStep, state, bytes] at blocked
  | acknowledging id =>
      refine ⟨⟨id, .inl state⟩, ?_⟩
      have blocked := stuck (.lockReader side) rfl
      simp only [linkStep, state] at blocked
      split at blocked
      case isTrue => cases blocked
      case isFalse taken => exact Option.ne_none_iff_exists'.mp taken
  | writing id =>
      obtain ⟨rest, held⟩ := invariant.answer side id state
      exact ⟨⟨id, .inr state⟩, _, held⟩

/-- One lock that is held and stuck takes the other one along. -/
theorem Stuck.spread {side : Side} {writer : WireWriter}
    (stuck : Stuck capacity link) (invariant : LinkInvariant link)
    (positive : ∀ side, 1 ≤ capacity side)
    (held : link.submission side = some writer) :
    (∃ id, link.Answering side.other id) ∧
      ∃ writer, link.submission side.other = some writer := by
  apply stuck.answering invariant
  rw [Side.other_other]
  intro empty
  have full := (stuck.full invariant held).1
  rw [empty] at full
  have room := positive side
  simp only [List.length_nil] at full
  omega

/-- What is under way is in a stream or in the hands of a lock holder. -/
theorem Stuck.held_of_carries {side : Side} {frame : WireFrame}
    (stuck : Stuck capacity link) (invariant : LinkInvariant link)
    (carries : link.Carries side frame) :
    ∃ holder writer, link.submission holder = some writer := by
  cases free : link.submission side with
  | some writer => exact ⟨side, writer, free⟩
  | none =>
      obtain ⟨byte, member, _⟩ := carries
      rw [Link.wire_of_free free] at member
      have pending : link.streams side.other.other ≠ [] := by
        rw [Side.other_other]
        exact List.ne_nil_of_mem member
      obtain ⟨_, held⟩ := stuck.answering invariant pending
      exact ⟨side.other, held⟩

theorem Stuck.held_of_answering {side : Side} {id : Nat}
    (stuck : Stuck capacity link) (invariant : LinkInvariant link)
    (answering : link.Answering side id) :
    ∃ holder writer, link.submission holder = some writer := by
  rcases answering with acknowledging | writing
  · have blocked := stuck (.lockReader side) rfl
    simp only [linkStep, acknowledging] at blocked
    split at blocked
    case isTrue => cases blocked
    case isFalse taken => exact ⟨side, Option.ne_none_iff_exists'.mp taken⟩
  · obtain ⟨rest, held⟩ := invariant.answer side id writing
    exact ⟨side, _, held⟩

/-- An unfinished send that is stuck has a lock before it. -/
theorem Stuck.held_of_unfinished (stuck : Stuck capacity link) (invariant : LinkInvariant link)
    (unfinished : link.Unfinished) :
    ∃ holder writer, link.submission holder = some writer := by
  obtain ⟨side, some_⟩ := unfinished
  obtain ⟨id, member⟩ := List.exists_mem_of_ne_nil _ some_
  obtain ⟨phase, found, running⟩ := Link.mem_unfinished.mp member
  cases phase with
  | waiting =>
      obtain ⟨send, located, same⟩ := Option.map_eq_some_iff.mp found
      rw [Prod.mk.injEq] at same
      have blocked := stuck (.lock id) rfl
      simp only [linkStep, located, same.2, true_and] at blocked
      split at blocked
      case isTrue => cases blocked
      case isFalse taken => exact ⟨send.side, Option.ne_none_iff_exists'.mp taken⟩
  | writing =>
      obtain ⟨rest, held⟩ := invariant.writing side id found
      exact ⟨side, _, held⟩
  | awaiting =>
      rcases invariant.located side id found with data | answering | answer
      · exact stuck.held_of_carries invariant (LinkInvariant.carries_of_ends data)
      · exact stuck.held_of_answering invariant answering
      · exact stuck.held_of_carries invariant (LinkInvariant.carries_of_ends answer)
  | finished => exact absurd rfl running

theorem LinkInvariant.nodup_wire (invariant : LinkInvariant link) (side : Side) :
    (link.wire side).Nodup := by
  apply (invariant.ordered side).imp
  intro earlier later inOrder same
  rw [same] at inOrder
  exact absurd (inOrder rfl) (lt_irrefl _)

/-- The sends whose acknowledgement is under way. -/
def ackedSends (link : Link) : List Nat := (List.range link.sends.length).filter fun id =>
    (link.wire .low ++ link.wire .high).any fun byte =>
      decide (byte.frame = .acknowledgement id)

theorem mem_ackedSends {id : Nat} (invariant : LinkInvariant link) :
    id ∈ ackedSends link ↔ ∃ side, link.Carries side (.acknowledgement id) := by
  unfold ackedSends
  rw [List.mem_filter, List.mem_range, List.any_eq_true]
  constructor
  · intro ⟨_, byte, member, same⟩
    rcases List.mem_append.mp member with low | high
    · exact ⟨.low, byte, low, of_decide_eq_true same⟩
    · exact ⟨.high, byte, high, of_decide_eq_true same⟩
  · intro ⟨side, carries⟩
    have phase := (invariant.acknowledgements side id carries).1
    obtain ⟨byte, member, same⟩ := carries
    refine ⟨Link.lt_of_phaseOf phase, byte, ?_, decide_eq_true same⟩
    cases side with
    | low => exact List.mem_append_left _ member
    | high => exact List.mem_append_right _ member

/-- The bytes counted by the load of a side. -/
def loadBytes (link : Link) (side : Side) (held : Nat) (acked : List Nat) :
    List WireByte :=
  (((link.unfinished side).filter fun id =>
      decide (id ≠ held ∧ id ∉ acked)).flatMap fun id =>
        frameBytes (.data id) (link.sizeOf id)) ++
    ((link.unfinished side.other).filter fun id =>
      decide (id ∈ acked)).flatMap fun id =>
        frameBytes (.acknowledgement id) frameHeaderBytes

theorem length_loadBytes (link : Link) (side : Side) (held : Nat) (acked : List Nat) :
    (loadBytes link side held acked).length = link.load side held acked := by
  simp [loadBytes, Link.load, List.length_flatMap, Nat.mul_comm]

/-- While the reader of the other side holds a frame, all that a side has under
way counts in its load. -/
theorem LinkInvariant.wire_subset {side : Side} {held : Nat} (invariant : LinkInvariant link)
    (answering : link.Answering side.other held) :
    link.wire side ⊆ loadBytes link side held (ackedSends link) := by
  intro byte member
  have inside := invariant.sized side byte member
  unfold loadBytes
  cases kind : byte.frame with
  | data id =>
      rw [kind] at inside
      obtain ⟨phase, idle, none⟩ := invariant.data side id ⟨byte, member, kind⟩
      apply List.mem_append_left
      refine List.mem_flatMap.mpr ⟨id, List.mem_filter.mpr ⟨?_, ?_⟩, inside⟩
      · rcases phase with writing | awaiting
        · exact Link.mem_unfinished.mpr ⟨_, writing, by simp⟩
        · exact Link.mem_unfinished.mpr ⟨_, awaiting, by simp⟩
      · apply decide_eq_true
        constructor
        · intro same
          rw [same] at idle
          exact idle answering
        · intro acked
          obtain ⟨carrier, carries⟩ := (mem_ackedSends invariant).mp acked
          -- The acknowledgement could only be in the other stream.
          have owner := (invariant.acknowledgements carrier id carries).1
          have sameSide : carrier.other = side := by
            rcases phase with writing | awaiting
            · rw [owner] at writing
              cases writing
            · rw [owner, Option.some.injEq, Prod.mk.injEq] at awaiting
              exact awaiting.1
          rw [← sameSide, Side.other_other] at none
          exact none carries
  | acknowledgement id =>
      rw [kind] at inside
      have carries : link.Carries side (.acknowledgement id) := ⟨byte, member, kind⟩
      have owner := (invariant.acknowledgements side id carries).1
      apply List.mem_append_right
      refine List.mem_flatMap.mpr ⟨id, List.mem_filter.mpr ⟨?_, ?_⟩, inside⟩
      · exact Link.mem_unfinished.mpr ⟨_, owner, by simp⟩
      · exact decide_eq_true ((mem_ackedSends invariant).mpr ⟨side, carries⟩)

/-- A full stream and a lock holder with bytes left exceed the capacity. -/
theorem Stuck.overloaded {side : Side} {writer : WireWriter} {held : Nat}
    (stuck : Stuck capacity link) (invariant : LinkInvariant link)
    (holds : link.submission side = some writer)
    (answering : link.Answering side.other held) :
    capacity side < link.load side held (ackedSends link) := by
  have counted := (List.subperm_of_subset (invariant.nodup_wire side)
    (invariant.wire_subset answering)).length_le
  rw [length_loadBytes, Link.wire_of_held holds, List.length_append] at counted
  obtain ⟨full, left⟩ := stuck.full invariant holds
  have more := List.length_pos_of_ne_nil left
  omega

theorem LinkInvariant.unfinished_of_answering {side : Side} {id : Nat}
    (invariant : LinkInvariant link) (answering : link.Answering side id) :
    id ∈ link.unfinished side.other :=
  Link.mem_unfinished.mpr ⟨_, invariant.answering side id answering, by simp⟩

/-- A connection whose sends fit its streams is never stuck. -/
theorem not_stuck_of_fits (invariant : LinkInvariant link) (positive : ∀ side, 1 ≤ capacity side)
    (fits : link.Fits capacity) (unfinished : link.Unfinished) :
    ¬Stuck capacity link := by
  intro stuck
  obtain ⟨side, writer, held⟩ := stuck.held_of_unfinished invariant unfinished
  obtain ⟨there, opposite⟩ := stuck.spread invariant positive held
  obtain ⟨writer', held'⟩ := opposite
  obtain ⟨here, _⟩ := stuck.spread invariant positive held'
  rw [Side.other_other] at here
  -- Both readers answer a send, both locks are held: name them by the sides.
  have both : ∀ side, (∃ id, link.Answering side id) ∧
      ∃ writer, link.submission side = some writer := by
    intro reference
    rcases LinkInvariant.Side.eq_or_eq_other reference side with
      same | same
    · rw [same]
      exact ⟨here, writer, held⟩
    · rw [same]
      exact ⟨there, writer', held'⟩
  obtain ⟨⟨high, answersHigh⟩, lowWriter, lowHeld⟩ := both .low
  obtain ⟨⟨low, answersLow⟩, highWriter, highHeld⟩ := both .high
  have lowOver := stuck.overloaded invariant lowHeld answersLow
  have highOver := stuck.overloaded invariant highHeld answersHigh
  have sublist : ackedSends link ∈ (List.range link.sends.length).sublists :=
    List.mem_sublists.mpr List.filter_sublist
  rcases fits low (invariant.unfinished_of_answering answersLow) high
      (invariant.unfinished_of_answering answersHigh) _ sublist with
    lowFits | highFits
  · omega
  · omega

end Stuck

/-- Every connection keeps its invariant and its sends within its streams. -/
def WireInvariant (capacity : Connection → Side → Nat) (mesh : Connection → Link) :
    Prop :=
  ∀ connection, LinkInvariant (mesh connection) ∧ (mesh connection).Fits (capacity connection)

theorem wireInvariant_start (capacity : Connection → Side → Nat) :
    WireInvariant capacity wireStart := by
  intro connection
  refine ⟨LinkInvariant.idle, ?_⟩
  intro low member
  cases member

theorem WireInvariant.step
    {capacity : Connection → Side → Nat} {mesh successor : Connection → Link}
    {action : Connection × LinkAction}
    (invariant : WireInvariant capacity mesh)
    (permitted : FittingSends capacity mesh action)
    (stepped : wireStep capacity mesh action = some successor) :
    WireInvariant capacity successor := by
  obtain ⟨link, linkStepped, rfl⟩ := Option.map_eq_some_iff.mp stepped
  intro connection
  by_cases same : connection = action.1
  · subst same
    rw [Function.update_self]
    obtain ⟨holds, fits⟩ := invariant action.1
    exact ⟨holds.step linkStepped, fits_step holds fits permitted linkStepped⟩
  · rw [Function.update_of_ne same]
    exact invariant connection

/-- As long as new sends fit the streams of their connection, some writer or
reader can go on while a send is unfinished. -/
theorem mesh_never_deadlocked (capacity : Connection → Side → Nat)
    (positive : ∀ connection side, 1 ≤ capacity connection side)
    (mesh : Connection → Link)
    (reached : Reached (wireStep capacity) (FittingSends capacity) wireStart mesh) :
    ¬Deadlocked capacity mesh := by
  intro ⟨⟨connection, unfinished⟩, blocked⟩
  have invariant : WireInvariant capacity mesh := by
    apply reached.invariant (wireInvariant_start capacity)
    intro state action successor holds permitted stepped
    exact holds.step permitted stepped
  obtain ⟨holds, fits⟩ := invariant connection
  apply not_stuck_of_fits holds (positive connection) fits unfinished
  intro action continues
  exact Option.map_eq_none_iff.mp (blocked connection action continues)

/-- A run of one connection is a run of the mesh. -/
theorem Reached.onConnection (capacity : Connection → Side → Nat)
    (guard : (Side → Nat) → Link → LinkAction → Prop)
    {connection : Connection} {link : Link}
    (reached : Reached (linkStep (capacity connection))
      (guard (capacity connection)) Link.idle link) :
    Reached (wireStep capacity) (OnConnection guard capacity) wireStart
      (Function.update wireStart connection link) := by
  induction reached with
  | start =>
      rw [show Link.idle = wireStart connection from rfl, Function.update_eq_self]
      exact .start
  | @next state successor action _ permitted stepped ih =>
      refine @Reached.next _ _ _ _ _ _ _ (connection, action) ih ?_ ?_
      · rw [OnConnection, Function.update_self]
        exact permitted
      · rw [wireStep, Function.update_self, stepped, Option.map_some, Function.update_idem]

/-- Ranks 0 and 1 on the first rail. -/
def pairConnection : Connection where
  low := 0
  high := 1
  rail := 0

def smallStreams : Side → Nat := fun _ => 100

/-- Both ranks send one frame that is larger than its stream. -/
def exchangeActions : List LinkAction :=
  [.start .low 40, .start .high 40, .lock 0, .lock 1, .write .low 100,
    .write .high 100, .read .low 99, .read .high 99, .write .low 20]

def exchangeLink : Link :=
  (follow (linkStep smallStreams) (FittingSend smallStreams) Link.idle
    exchangeActions).getD Link.idle

theorem mesh_never_deadlocked_exchange :
    exchangeLink.Unfinished ∧ ¬Deadlocked (fun _ => smallStreams)
        (Function.update wireStart pairConnection exchangeLink) := by
  refine ⟨⟨.low, by decide +kernel⟩, ?_⟩
  apply mesh_never_deadlocked
  · intro connection side
    exact (by decide : 1 ≤ 100)
  · apply Reached.onConnection (fun _ => smallStreams) FittingSend
    exact Reached.of_follow_isSome Link.idle (by decide +kernel)

theorem stuck_idle (capacity : Side → Nat) : Stuck capacity Link.idle := by
  intro action continues
  cases action with
  | start side payload => cases continues
  | lock id => rfl
  | write side count => rfl
  | read side skip => simp [linkStep, Link.idle]
  | lockReader side => rfl

/-- Two full streams whose readers both wait for a lock in use. -/
theorem stuck_of_full {capacity : Side → Nat} {link : Link}
    (held : ∀ side, link.submission side ≠ none)
    (full : ∀ side, capacity side ≤ (link.streams side).length)
    (answering : ∀ side, ∃ id, link.readers side = .acknowledging id) :
    Stuck capacity link := by
  intro action continues
  cases action with
  | start side payload => cases continues
  | lock id =>
      rw [linkStep]
      split
      case h_1 send _ =>
        rw [if_neg]
        rintro ⟨_, free⟩
        exact held send.side free
      case h_2 => rfl
  | write side count =>
      rw [linkStep]
      split
      case h_1 =>
        rw [if_neg]
        rintro ⟨some_, _, room⟩
        have nothing := full side
        omega
      case h_2 => rfl
  | read side skip =>
      obtain ⟨id, waits⟩ := answering side
      simp [linkStep, waits]
  | lockReader side =>
      obtain ⟨id, waits⟩ := answering side
      simp only [linkStep, waits]
      rw [if_neg (held side)]

/-- Each rank sends a short frame and then one larger than its stream; both
short frames are read while both long ones hold the locks. -/
def crossedActions : List LinkAction :=
  [.start .low 0, .start .high 0, .lock 0, .lock 1, .write .low 80,
    .write .high 80, .read .low 79, .read .high 79, .start .low 120,
    .start .high 120, .lock 2, .lock 3, .write .low 100, .write .high 100]

def crossedLink : Link :=
  (follow (linkStep smallStreams) (fun _ _ => True) Link.idle crossedActions).getD Link.idle

theorem stuck_crossedLink : Stuck smallStreams crossedLink := by
  apply stuck_of_full
  · intro side
    cases side <;> decide +kernel
  · intro side
    cases side <;> decide +kernel
  · intro side
    cases side
    · exact ⟨1, by decide +kernel⟩
    · exact ⟨0, by decide +kernel⟩

theorem crossed_sends_deadlock :
    Reachable (wireStep fun _ => smallStreams) wireStart
        (Function.update wireStart pairConnection crossedLink) ∧
      Deadlocked (fun _ => smallStreams)
        (Function.update wireStart pairConnection crossedLink) := by
  constructor
  · apply Reached.onConnection (fun _ => smallStreams) (fun _ _ _ => True)
    exact Reached.of_follow_isSome Link.idle (by decide +kernel)
  · refine ⟨⟨pairConnection, ?_⟩, ?_⟩
    · rw [Function.update_self]
      exact ⟨.low, by decide +kernel⟩
    · intro connection action continues
      apply Option.map_eq_none_iff.mpr
      dsimp only
      by_cases same : connection = pairConnection
      · rw [same, Function.update_self]
        exact stuck_crossedLink action continues
      · rw [Function.update_of_ne same]
        exact stuck_idle _ action continues

end RuCCL.Rank
