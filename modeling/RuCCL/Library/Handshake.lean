import Mathlib.Data.List.Nodup
import Mathlib.Logic.Function.Basic

/-!
# Conversations over wires

A conversation is a request and its reply over a wire.  One end opens the wire,
sends the request and hears the reply; the other end takes the wire, reads the
request and answers it.  A wire may carry several conversations, one after the
other.  What a wire carries is determined by how far both ends of its conversations
have come.
-/

namespace RuCCL.Library

/-- How far the end that asks has come. -/
inductive DialStage where
  | absent | dialed | asked | complete
  deriving DecidableEq

/-- How far the end that answers has come. -/
inductive AcceptStage where
  | untouched | taken | read | answered
  deriving DecidableEq

/-- Whether both ends of a conversation can be so far. -/
def Agree : DialStage → AcceptStage → Prop
  | .absent, .untouched => True
  | .dialed, .untouched => True
  | .dialed, .taken => True
  | .asked, _ => True
  | .complete, .answered => True
  | _, _ => False

/-- The request is on the wire. -/
def Requested (dial : DialStage) (accept : AcceptStage) : Prop :=
  (dial = .asked ∨ dial = .complete) ∧ (accept = .untouched ∨ accept = .taken)

/-- The reply is on the wire. -/
def Replied (dial : DialStage) (accept : AcceptStage) : Prop :=
  accept = .answered ∧ dial ≠ .complete

instance (dial : DialStage) (accept : AcceptStage) : Decidable (Requested dial accept) :=
  inferInstanceAs (Decidable (_ ∧ _))

instance (dial : DialStage) (accept : AcceptStage) : Decidable (Replied dial accept) :=
  inferInstanceAs (Decidable (_ ∧ _))

theorem Agree.of_absent {accept : AcceptStage}
    (agree : Agree .absent accept) : accept = .untouched := by
  cases accept with
  | untouched => rfl
  | taken | read | answered => exact agree.elim

theorem Agree.of_dialed {accept : AcceptStage} (agree : Agree .dialed accept) :
    accept = .untouched ∨ accept = .taken := by
  cases accept with
  | untouched => exact Or.inl rfl
  | taken => exact Or.inr rfl
  | read | answered => exact agree.elim

theorem Agree.of_complete {accept : AcceptStage}
    (agree : Agree .complete accept) : accept = .answered := by
  cases accept with
  | answered => rfl
  | untouched | taken | read => exact agree.elim

theorem Agree.of_taken {dial : DialStage} (agree : Agree dial .taken) :
    dial = .dialed ∨ dial = .asked := by
  cases dial with
  | dialed => exact Or.inl rfl
  | asked => exact Or.inr rfl
  | absent | complete => exact agree.elim

theorem Agree.of_read {dial : DialStage} (agree : Agree dial .read) : dial = .asked := by
  cases dial with
  | asked => rfl
  | absent | dialed | complete => exact agree.elim

/-- A wire: where it leads once it is open, whether the other end has taken it, and
the frames under way in both directions. -/
@[ext]
structure Wire (Target Frame : Type) where
  target : Option Target
  taken : Bool
  forward : List Frame
  backward : List Frame

/-- Which wire carries which conversations. -/
structure Wiring (Talk Line Target Frame : Type) where
  line : Talk → Line
  opening : Line → Talk
  carried : Line → List Talk
  target : Line → Target
  request : Talk → Frame
  reply : Talk → Frame
  mem_carried : ∀ talk wire, talk ∈ carried wire ↔ line talk = wire
  nodup : ∀ wire, (carried wire).Nodup
  line_opening : ∀ wire, line (opening wire) = wire

section Wired

variable {Talk Line Target Frame : Type} (wiring : Wiring Talk Line Target Frame)

namespace Wiring

/-- The part of a wire's frames that belongs to a conversation. -/
def requestOf (dials : Talk → DialStage) (accepts : Talk → AcceptStage)
    (talk : Talk) : List Frame :=
  if Requested (dials talk) (accepts talk) then [wiring.request talk]
  else []

def replyOf (dials : Talk → DialStage) (accepts : Talk → AcceptStage)
    (talk : Talk) : List Frame :=
  if Replied (dials talk) (accepts talk) then [wiring.reply talk] else []

/-- What a wire looks like when its conversations have come so far. -/
def expected (dials : Talk → DialStage) (accepts : Talk → AcceptStage)
    (line : Line) : Wire Target Frame where
  target :=
    if dials (wiring.opening line) = .absent then none
    else some (wiring.target line)
  taken := accepts (wiring.opening line) ≠ .untouched
  forward := (wiring.carried line).flatMap (wiring.requestOf dials accepts)
  backward := (wiring.carried line).flatMap (wiring.replyOf dials accepts)

end Wiring

/-- All wires look as they must. -/
structure Wired (dials : Talk → DialStage) (accepts : Talk → AcceptStage)
    (wires : Line → Wire Target Frame) : Prop where
  agree : ∀ talk, Agree (dials talk) (accepts talk)
  wires : ∀ line, wires line = wiring.expected dials accepts line

variable {wiring} {dials later : Talk → DialStage} {accepts answers : Talk → AcceptStage}
  {wires : Line → Wire Target Frame} {talk : Talk}

/-- A list of pieces of which all but one are empty. -/
theorem flatMap_of_alone {pieces : Talk → List Frame} {talks : List Talk}
    (distinct : talks.Nodup) (among : talk ∈ talks)
    (quiet : ∀ other ∈ talks, other ≠ talk → pieces other = []) :
    talks.flatMap pieces = pieces talk := by
  induction talks with
  | nil => cases among
  | cons first rest ih =>
      rw [List.nodup_cons] at distinct
      rw [List.flatMap_cons]
      by_cases same : first = talk
      · subst same
        have none : rest.flatMap pieces = [] := by
          rw [List.flatMap_eq_nil_iff]
          intro other member
          refine quiet other (List.mem_cons_of_mem _ member) ?_
          rintro rfl
          exact distinct.1 member
        rw [none, List.append_nil]
      · have later : talk ∈ rest := (List.mem_cons.mp among).resolve_left fun equal =>
            same equal.symm
        rw [quiet first List.mem_cons_self same, List.nil_append]
        exact ih distinct.2 later fun other member =>
          quiet other (List.mem_cons_of_mem _ member)

/-- Only one conversation moves on. -/
structure Elsewhere (dials later : Talk → DialStage)
    (accepts answers : Talk → AcceptStage) (talk : Talk) : Prop where
  dials : ∀ other, other ≠ talk → later other = dials other
  accepts : ∀ other, other ≠ talk → answers other = accepts other

variable (elsewhere : Elsewhere dials later accepts answers talk)

include elsewhere

theorem Elsewhere.requestOf_eq {other : Talk} (apart : other ≠ talk) :
    wiring.requestOf later answers other =
      wiring.requestOf dials accepts other := by
  rw [Wiring.requestOf, Wiring.requestOf, elsewhere.dials other apart,
    elsewhere.accepts other apart]

theorem Elsewhere.replyOf_eq {other : Talk} (apart : other ≠ talk) :
    wiring.replyOf later answers other =
      wiring.replyOf dials accepts other := by
  rw [Wiring.replyOf, Wiring.replyOf, elsewhere.dials other apart, elsewhere.accepts other apart]

/-- A wire that does not carry the conversation looks as before. -/
theorem Elsewhere.expected_eq {line : Line} (apart : wiring.line talk ≠ line) :
    wiring.expected later answers line =
      wiring.expected dials accepts line := by
  have opens : wiring.opening line ≠ talk := by
    rintro rfl
    exact apart (wiring.line_opening line)
  have others (other : Talk) (among : other ∈ wiring.carried line) : other ≠ talk := by
    rintro rfl
    exact apart ((wiring.mem_carried ..).mp among)
  rw [Wiring.expected, Wiring.expected, elsewhere.dials _ opens, elsewhere.accepts _ opens]
  congr 1
  · exact List.flatMap_congr fun other among =>
      elsewhere.requestOf_eq (others other among)
  · exact List.flatMap_congr fun other among =>
      elsewhere.replyOf_eq (others other among)

/-- All that follows for the wires when one conversation moves on. -/
theorem Wired.moved [DecidableEq Line] {wire : Wire Target Frame}
    (wired : Wired wiring dials accepts wires)
    (agree : Agree (later talk) (answers talk))
    (own : wire = wiring.expected later answers (wiring.line talk)) :
    Wired wiring later answers (Function.update wires (wiring.line talk) wire) := by
  refine ⟨fun other => ?_, fun line => ?_⟩
  · by_cases same : other = talk
    · subst same
      exact agree
    · rw [elsewhere.dials other same, elsewhere.accepts other same]
      exact wired.agree other
  · by_cases same : line = wiring.line talk
    · subst same
      rw [Function.update_self, own]
    · rw [Function.update_of_ne same, wired.wires line, elsewhere.expected_eq (Ne.symm same)]

theorem Elsewhere.requests_kept
    (same : Requested (later talk) (answers talk) ↔
      Requested (dials talk) (accepts talk)) (line : Line) :
    (wiring.expected later answers line).forward =
      (wiring.expected dials accepts line).forward := by
  refine List.flatMap_congr fun other _ => ?_
  by_cases own : other = talk
  · subst own
    rw [Wiring.requestOf, Wiring.requestOf]
    simp only [same]
  · exact elsewhere.requestOf_eq own

theorem Elsewhere.replies_kept
    (same : Replied (later talk) (answers talk) ↔
      Replied (dials talk) (accepts talk)) (line : Line) :
    (wiring.expected later answers line).backward =
      (wiring.expected dials accepts line).backward := by
  refine List.flatMap_congr fun other _ => ?_
  by_cases own : other = talk
  · subst own
    rw [Wiring.replyOf, Wiring.replyOf]
    simp only [same]
  · exact elsewhere.replyOf_eq own

omit elsewhere

/-- No other conversation of the wire has its request under way. -/
def AloneForward (wiring : Wiring Talk Line Target Frame)
    (dials : Talk → DialStage) (accepts : Talk → AcceptStage)
    (talk : Talk) : Prop :=
  ∀ other, other ≠ talk → wiring.line other = wiring.line talk →
    ¬Requested (dials other) (accepts other)

/-- No other conversation of the wire has its reply under way. -/
def AloneBackward (wiring : Wiring Talk Line Target Frame)
    (dials : Talk → DialStage) (accepts : Talk → AcceptStage)
    (talk : Talk) : Prop :=
  ∀ other, other ≠ talk → wiring.line other = wiring.line talk →
    ¬Replied (dials other) (accepts other)

theorem AloneForward.moved (alone : AloneForward wiring dials accepts talk)
    (elsewhere : Elsewhere dials later accepts answers talk) :
    AloneForward wiring later answers talk := by
  intro other apart same
  rw [elsewhere.dials other apart, elsewhere.accepts other apart]
  exact alone other apart same

theorem AloneBackward.moved (alone : AloneBackward wiring dials accepts talk)
    (elsewhere : Elsewhere dials later accepts answers talk) :
    AloneBackward wiring later answers talk := by
  intro other apart same
  rw [elsewhere.dials other apart, elsewhere.accepts other apart]
  exact alone other apart same

theorem AloneForward.forward_eq (alone : AloneForward wiring dials accepts talk) :
    (wiring.expected dials accepts (wiring.line talk)).forward =
      if Requested (dials talk) (accepts talk) then [wiring.request talk]
      else [] := by
  refine flatMap_of_alone (wiring.nodup _) ((wiring.mem_carried ..).mpr rfl)
    fun other among apart => ?_
  rw [Wiring.requestOf, if_neg]
  exact alone other apart ((wiring.mem_carried ..).mp among)

theorem AloneBackward.backward_eq (alone : AloneBackward wiring dials accepts talk) :
    (wiring.expected dials accepts (wiring.line talk)).backward =
      if Replied (dials talk) (accepts talk) then [wiring.reply talk]
      else [] := by
  refine flatMap_of_alone (wiring.nodup _) ((wiring.mem_carried ..).mpr rfl)
    fun other among apart => ?_
  rw [Wiring.replyOf, if_neg]
  exact alone other apart ((wiring.mem_carried ..).mp among)

/-- A conversation is alone on its wire when the others have not begun or are
over. -/
theorem Wired.alone (wired : Wired wiring dials accepts wires)
    (quiet : ∀ other, other ≠ talk → wiring.line other = wiring.line talk →
      dials other = .absent ∨ dials other = .complete) :
    AloneForward wiring dials accepts talk ∧
      AloneBackward wiring dials accepts talk := by
  refine ⟨fun other apart same => ?_, fun other apart same => ?_⟩
  · have agree := wired.agree other
    rcases quiet other apart same with absent | complete
    · simp [Requested, absent]
    · rw [complete] at agree
      simp [Requested, agree.of_complete]
  · have agree := wired.agree other
    rcases quiet other apart same with absent | complete
    · rw [absent] at agree
      simp [Replied, agree.of_absent]
    · simp [Replied, complete]

section Moves

variable [DecidableEq Line] (wired : Wired wiring dials accepts wires)
  (elsewhere : Elsewhere dials later accepts answers talk)

include wired elsewhere

/-- Opening the wire. -/
theorem Wired.dial (opens : wiring.opening (wiring.line talk) = talk)
    (before : dials talk = .absent) (after : later talk = .dialed)
    (kept : answers talk = accepts talk) :
    Wired wiring later answers
      (Function.update wires (wiring.line talk)
        { wires (wiring.line talk) with
          target := some (wiring.target (wiring.line talk)) }) := by
  have agree := wired.agree talk
  rw [before] at agree
  have untouched := agree.of_absent
  refine wired.moved elsewhere ?_ ?_
  · rw [after, kept, untouched]
    trivial
  rw [wired.wires]
  ext1
  · simp only [Wiring.expected, opens, after, reduceCtorEq, if_false]
  · simp only [Wiring.expected, opens, kept]
  · refine (elsewhere.requests_kept ?_ _).symm
    simp [after, before, kept, untouched, Requested]
  · refine (elsewhere.replies_kept ?_ _).symm
    simp [after, before, kept, untouched, Replied]

/-- Sending the request. -/
theorem Wired.ask
    (before : dials talk = .dialed ∨
      dials talk = .absent ∧ wiring.opening (wiring.line talk) ≠ talk)
    (after : later talk = .asked) (kept : answers talk = accepts talk)
    (alone : AloneForward wiring dials accepts talk) :
    Wired wiring later answers
      (Function.update wires (wiring.line talk)
        { wires (wiring.line talk) with
          forward := (wires (wiring.line talk)).forward ++ [wiring.request talk] }) := by
  have agree := wired.agree talk
  have early : accepts talk = .untouched ∨ accepts talk = .taken := by
    rcases before with dialed | ⟨absent, _⟩
    · rw [dialed] at agree
      exact agree.of_dialed
    · rw [absent] at agree
      exact Or.inl agree.of_absent
  have quiet : ¬Requested (dials talk) (accepts talk) := by
    rcases before with dialed | ⟨absent, _⟩
    · simp [Requested, dialed]
    · simp [Requested, absent]
  have silent : ∀ stage, ¬Replied stage (accepts talk) := by
    intro stage
    rcases early with untouched | taken
    · simp [Replied, untouched]
    · simp [Replied, taken]
  refine wired.moved elsewhere ?_ ?_
  · rw [after]
    trivial
  rw [wired.wires]
  ext1
  · by_cases opens : wiring.opening (wiring.line talk) = talk
    · rcases before with dialed | ⟨_, apart⟩
      · simp only [Wiring.expected, opens, after, dialed, reduceCtorEq, if_false]
      · exact absurd opens apart
    · simp only [Wiring.expected, elsewhere.dials _ opens]
  · by_cases opens : wiring.opening (wiring.line talk) = talk
    · simp only [Wiring.expected, opens, kept]
    · simp only [Wiring.expected, elsewhere.accepts _ opens]
  · rw [alone.forward_eq, (alone.moved elsewhere).forward_eq, if_neg quiet, if_pos]
    · rfl
    · rw [after, kept]
      exact ⟨Or.inl rfl, early⟩
  · refine (elsewhere.replies_kept ?_ _).symm
    rw [kept]
    exact iff_of_false (silent _) (silent _)

/-- Hearing the reply. -/
theorem Wired.hear {frame : Frame} {rest : List Frame} (before : dials talk = .asked)
    (waiting : (wires (wiring.line talk)).backward = frame :: rest)
    (after : later talk = .complete) (kept : answers talk = accepts talk)
    (alone : AloneBackward wiring dials accepts talk) :
    accepts talk = .answered ∧ frame = wiring.reply talk ∧
    Wired wiring later answers
      (Function.update wires (wiring.line talk)
        { wires (wiring.line talk) with backward := rest }) := by
  rw [wired.wires, alone.backward_eq] at waiting
  split at waiting
  case isFalse => cases waiting
  case isTrue replied =>
    obtain ⟨rfl, rfl⟩ := List.cons.inj waiting
    have answered := replied.1
    refine ⟨answered, rfl, wired.moved elsewhere ?_ ?_⟩
    · rw [after, kept, answered]
      trivial
    rw [wired.wires]
    ext1
    · by_cases opens : wiring.opening (wiring.line talk) = talk
      · simp only [Wiring.expected, opens, after, before, reduceCtorEq, if_false]
      · simp only [Wiring.expected, elsewhere.dials _ opens]
    · by_cases opens : wiring.opening (wiring.line talk) = talk
      · simp only [Wiring.expected, opens, kept]
      · simp only [Wiring.expected, elsewhere.accepts _ opens]
    · refine (elsewhere.requests_kept ?_ _).symm
      simp [after, kept, answered, Requested]
    · rw [(alone.moved elsewhere).backward_eq, if_neg]
      rw [after]
      exact fun wrong => wrong.2 rfl

/-- Taking the wire. -/
theorem Wired.take (opens : wiring.opening (wiring.line talk) = talk)
    (here : dials talk ≠ .absent) (before : accepts talk = .untouched)
    (after : answers talk = .taken) (kept : later talk = dials talk) :
    Wired wiring later answers
      (Function.update wires (wiring.line talk)
        { wires (wiring.line talk) with taken := true }) := by
  have agree := wired.agree talk
  rw [before] at agree
  refine wired.moved elsewhere ?_ ?_
  · rw [after, kept]
    cases stage : dials talk with
    | absent => exact absurd stage here
    | dialed | asked => trivial
    | complete =>
        rw [stage] at agree
        exact agree.elim
  rw [wired.wires]
  ext1
  · simp only [Wiring.expected, opens, kept]
  · simp only [Wiring.expected, opens, after, ne_eq, reduceCtorEq, not_false_eq_true, decide_true]
  · refine (elsewhere.requests_kept ?_ _).symm
    simp [after, kept, before, Requested]
  · refine (elsewhere.replies_kept ?_ _).symm
    simp [after, before, Replied]

/-- Reading the request. -/
theorem Wired.read {frame : Frame} {rest : List Frame}
    (before : accepts talk = .taken ∨
      accepts talk = .untouched ∧ wiring.opening (wiring.line talk) ≠ talk)
    (waiting : (wires (wiring.line talk)).forward = frame :: rest)
    (after : answers talk = .read) (kept : later talk = dials talk)
    (alone : AloneForward wiring dials accepts talk) :
    dials talk = .asked ∧ frame = wiring.request talk ∧
    Wired wiring later answers
      (Function.update wires (wiring.line talk)
        { wires (wiring.line talk) with forward := rest }) := by
  rw [wired.wires, alone.forward_eq] at waiting
  split at waiting
  case isFalse => cases waiting
  case isTrue requested =>
    obtain ⟨rfl, rfl⟩ := List.cons.inj waiting
    have agree := wired.agree talk
    have asked : dials talk = .asked := by
      rcases requested.1 with asked | complete
      · exact asked
      · rw [complete] at agree
        rw [agree.of_complete] at before
        simp at before
    refine ⟨asked, rfl, wired.moved elsewhere ?_ ?_⟩
    · rw [after, kept, asked]
      trivial
    rw [wired.wires]
    ext1
    · by_cases opens : wiring.opening (wiring.line talk) = talk
      · simp only [Wiring.expected, opens, kept]
      · simp only [Wiring.expected, elsewhere.dials _ opens]
    · by_cases opens : wiring.opening (wiring.line talk) = talk
      · rcases before with taken | ⟨_, apart⟩
        · simp only [Wiring.expected, opens, after, taken, ne_eq, reduceCtorEq, not_false_eq_true]
        · exact absurd opens apart
      · simp only [Wiring.expected, elsewhere.accepts _ opens]
    · rw [(alone.moved elsewhere).forward_eq, if_neg]
      rw [after]
      simp [Requested]
    · refine (elsewhere.replies_kept ?_ _).symm
      rcases before with taken | ⟨untouched, _⟩
      · simp [after, taken, Replied]
      · simp [after, untouched, Replied]

/-- Answering it. -/
theorem Wired.answer (before : accepts talk = .read)
    (after : answers talk = .answered) (kept : later talk = dials talk)
    (alone : AloneBackward wiring dials accepts talk) :
    Wired wiring later answers
      (Function.update wires (wiring.line talk)
        { wires (wiring.line talk) with
          backward := (wires (wiring.line talk)).backward ++ [wiring.reply talk] }) := by
  have agree := wired.agree talk
  rw [before] at agree
  have asked := agree.of_read
  refine wired.moved elsewhere ?_ ?_
  · rw [after, kept, asked]
    trivial
  rw [wired.wires]
  ext1
  · by_cases opens : wiring.opening (wiring.line talk) = talk
    · simp only [Wiring.expected, opens, kept]
    · simp only [Wiring.expected, elsewhere.dials _ opens]
  · by_cases opens : wiring.opening (wiring.line talk) = talk
    · simp only [Wiring.expected, opens, after, before, ne_eq, reduceCtorEq, not_false_eq_true]
    · simp only [Wiring.expected, elsewhere.accepts _ opens]
  · refine (elsewhere.requests_kept ?_ _).symm
    simp [after, before, Requested]
  · rw [alone.backward_eq, (alone.moved elsewhere).backward_eq, if_neg, if_pos]
    · rfl
    · rw [after, kept, asked]
      exact ⟨rfl, DialStage.noConfusion⟩
    · rw [before]
      simp [Replied]

/-- Reading and answering at once. -/
theorem Wired.serve {frame : Frame} {rest : List Frame} (before : accepts talk = .taken)
    (waiting : (wires (wiring.line talk)).forward = frame :: rest)
    (after : answers talk = .answered) (kept : later talk = dials talk)
    (forward : AloneForward wiring dials accepts talk)
    (backward : AloneBackward wiring dials accepts talk) :
    dials talk = .asked ∧ frame = wiring.request talk ∧
    Wired wiring later answers
      (Function.update wires (wiring.line talk)
        { wires (wiring.line talk) with
          forward := rest
          backward := (wires (wiring.line talk)).backward ++ [wiring.reply talk] }) := by
  let between : Talk → AcceptStage := fun other =>
    if answers other = accepts other then answers other else .read
  have own : between talk = .read := by
    simp only [between, after, before, reduceCtorEq, if_false]
  have others (other : Talk) (apart : other ≠ talk) : between other = accepts other := by
    simp only [between, elsewhere.accepts other apart, if_true]
  have reads : Elsewhere dials later accepts between talk := ⟨elsewhere.dials, others⟩
  have replies : Elsewhere later later between answers talk :=
    ⟨fun _ _ => rfl, fun other apart =>
      (elsewhere.accepts other apart).trans (others other apart).symm⟩
  obtain ⟨asked, same, read⟩ := wired.read reads (Or.inl before) waiting own kept forward
  refine ⟨asked, same, ?_⟩
  have answered := read.answer replies own after rfl (backward.moved reads)
  rw [Function.update_self, Function.update_idem] at answered
  exact answered

end Moves

section Waiting

variable (wired : Wired wiring dials accepts wires)

include wired

omit wired in
/-- Before anything has happened all wires are closed. -/
theorem Wired.start (absent : ∀ talk, dials talk = .absent)
    (untouched : ∀ talk, accepts talk = .untouched) :
    Wired wiring dials accepts fun _ => ⟨none, false, [], []⟩ := by
  refine ⟨fun talk => ?_, fun line => ?_⟩
  · rw [absent, untouched]
    trivial
  have requests : (wiring.carried line).flatMap (wiring.requestOf dials accepts) = [] := by
    rw [List.flatMap_eq_nil_iff]
    intro talk _
    simp [Wiring.requestOf, absent, Requested]
  have replies : (wiring.carried line).flatMap (wiring.replyOf dials accepts) = [] := by
    rw [List.flatMap_eq_nil_iff]
    intro talk _
    simp [Wiring.replyOf, untouched, Replied]
  rw [Wiring.expected, requests, replies, absent, untouched, if_pos rfl]
  simp

/-- A request that was sent and not read is on the wire. -/
theorem Wired.forward_of_asked (asked : dials talk = .asked)
    (early : accepts talk = .untouched ∨ accepts talk = .taken)
    (alone : AloneForward wiring dials accepts talk) :
    (wires (wiring.line talk)).forward = [wiring.request talk] := by
  rw [wired.wires, alone.forward_eq, if_pos ⟨Or.inl asked, early⟩]

/-- A reply that was sent and not heard is on the wire. -/
theorem Wired.backward_of_answered (answered : accepts talk = .answered)
    (unheard : dials talk ≠ .complete)
    (alone : AloneBackward wiring dials accepts talk) :
    (wires (wiring.line talk)).backward = [wiring.reply talk] := by
  rw [wired.wires, alone.backward_eq, if_pos ⟨answered, unheard⟩]

/-- A wire that leads somewhere and was not taken belongs to a conversation that
waits for the other end. -/
theorem Wired.pending {line : Line} {target : Target} (leads : (wires line).target = some target)
    (free : (wires line).taken = false) :
    target = wiring.target line ∧ dials (wiring.opening line) ≠ .absent ∧
      accepts (wiring.opening line) = .untouched := by
  rw [wired.wires, Wiring.expected] at leads free
  split at leads
  case isTrue => cases leads
  case isFalse here =>
    cases leads
    exact ⟨rfl, here, by simpa using free⟩

/-- And the other way round. -/
theorem Wired.pending_of {line : Line} (here : dials (wiring.opening line) ≠ .absent)
    (untouched : accepts (wiring.opening line) = .untouched) :
    (wires line).target = some (wiring.target line) ∧ (wires line).taken = false := by
  rw [wired.wires, Wiring.expected]
  exact ⟨if_neg here, by simp [untouched]⟩

end Waiting

end Wired

section Standing

variable {α σ : Type} {items : List α} {item other : α} {index count : Nat}

theorem mem_take_of_getElem? (located : items[index]? = some item)
    (early : index < count) : item ∈ items.take count := by
  rw [← List.getElem?_take_of_lt early] at located
  exact List.mem_of_getElem? located

theorem notMem_take_of_getElem? (distinct : items.Nodup)
    (located : items[index]? = some item) : item ∉ items.take index := by
  intro among
  obtain ⟨earlier, found⟩ := List.getElem?_of_mem among
  rw [List.getElem?_take] at found
  split at found
  case isTrue before =>
    have same := (List.getElem?_inj (Nat.lt_of_lt_of_le before
      (Nat.le_of_lt (List.getElem?_eq_some_iff.mp located).1)) distinct).mp
        (found.trans located.symm)
    exact Nat.ne_of_lt before same
  case isFalse => cases found

theorem mem_take_succ_iff (located : items[index]? = some item) :
    other ∈ items.take (index + 1) ↔ other ∈ items.take index ∨ other = item := by
  rw [List.take_add_one, located]
  simp

variable [DecidableEq α]

/-- How an item stands when a list has been worked through up to `index`. -/
def standing (items : List α) (index : Nat) (before current after : σ) (item : α) : σ :=
  if item ∈ items.take index then after
  else if items[index]? = some item then current
  else before

variable {before current next after : σ}

theorem standing_current (distinct : items.Nodup) (located : items[index]? = some item) :
    standing items index before current after item = current := by
  rw [standing, if_neg (notMem_take_of_getElem? distinct located), if_pos located]

theorem standing_passed (among : item ∈ items.take index) :
    standing items index before current after item = after :=
  if_pos among

/-- Other items do not depend on how the current one stands. -/
theorem standing_of_ne (located : items[index]? = some item) (apart : other ≠ item) :
    standing items index before current after other =
      standing items index before next after other := by
  have elsewhere : items[index]? ≠ some other := by
    rw [located]
    intro same
    exact apart (Option.some.inj same).symm
  rw [standing, standing, if_neg elsewhere, if_neg elsewhere]

theorem standing_succ_of_ne (located : items[index]? = some item) (apart : other ≠ item) :
    standing items (index + 1) before before after other =
      standing items index before current after other := by
  have elsewhere : items[index]? ≠ some other := by
    rw [located]
    intro same
    exact apart (Option.some.inj same).symm
  rw [standing, standing, if_neg elsewhere]
  simp only [mem_take_succ_iff located, apart, or_false, ite_self]

theorem standing_succ_self (located : items[index]? = some item) :
    standing items (index + 1) before current after item = after :=
  standing_passed ((mem_take_succ_iff located).mpr (Or.inr rfl))

/-- An item that does not stand as before was passed or is the current one. -/
theorem standing_ne_before (moved : standing items index before current after item ≠ before) :
    item ∈ items.take index ∨ items[index]? = some item := by
  unfold standing at moved
  split at moved
  case isTrue among => exact Or.inl among
  case isFalse =>
    split at moved
    case isTrue located => exact Or.inr located
    case isFalse => exact absurd rfl moved

end Standing

end RuCCL.Library
