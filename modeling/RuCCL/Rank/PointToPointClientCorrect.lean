import RuCCL.Library.Transition
import RuCCL.Rank.PointToPointClient
import RuCCL.Rank.RoutingCorrect

/-!
# Requests that the reader leaves behind

A caller registers its request some time after it has seen an empty failure
slot.  The reader drains the pending map once, behind the recorded failure.  As
long as no caller stands between its check and its registration when the reader
drains, every request gets a response or the failure.
-/

namespace RuCCL.Rank

open RuCCL.Library

/-- The key of a request that may still be registered under it. -/
def CallerPhase.key : CallerPhase → Option P2pResponseKey
  | .checked _ key => some key
  | .registered _ key => some key
  | .waiting _ key => some key
  | .expired _ key => some key
  | _ => none

/-- The phases under the submission lock. -/
def CallerPhase.locked : CallerPhase → Bool
  | .checked _ _ => true
  | .registered _ _ => true
  | .recording _ _ => true
  | .draining _ _ => true
  | _ => false

/-- The phases in which a caller counts on a reply. -/
def CallerPhase.expects : CallerPhase → Option P2pResponseKey
  | .registered _ key => some key
  | .waiting _ key => some key
  | _ => none

def CallerPhase.isChecked : CallerPhase → Bool
  | .checked _ _ => true
  | _ => false

/-- The counter of the key's opcode has passed its sequence. -/
def Below (submission : P2pSubmission) (key : P2pResponseKey) : Prop :=
  ∃ next, submission.sequence key.opcode = some next ∧ key.sequence.toNat < next.toNat

theorem key_of_expects {phase : CallerPhase} {key : P2pResponseKey}
    (expects : phase.expects = some key) : phase.key = some key := by
  cases phase with
  | registered call own => exact expects
  | waiting call own => exact expects
  | _ => cases expects

theorem sequence_setSequence {submission : P2pSubmission} {opcode other : Opcode}
    {current value : UInt64}
    (known : submission.sequence opcode = some current) :
    (submission.setSequence opcode value).sequence other =
      if other = opcode then some value else submission.sequence other := by
  cases opcode with
  | send => cases other <;> rfl
  | receive => cases other <;> rfl
  | heartbeat => cases other <;> rfl
  | _ => cases known

theorem toNat_of_checkedAdd {current : UInt64} {next : Nat}
    (added : checkedAdd current.toNat 1 = some next) :
    (UInt64.ofNat next).toNat = current.toNat + 1 := by
  unfold checkedAdd at added
  split at added
  case isTrue fits =>
    cases added
    rw [UInt64.toNat_ofNat']
    exact Nat.mod_eq_of_lt fits
  case isFalse => cases added

theorem Below.advance {submission : P2pSubmission} {opcode : Opcode} {current : UInt64}
    {next : Nat} {key : P2pResponseKey} (below : Below submission key)
    (known : submission.sequence opcode = some current)
    (added : checkedAdd current.toNat 1 = some next) :
    Below (submission.setSequence opcode (UInt64.ofNat next)) key := by
  obtain ⟨counter, found, lower⟩ := below
  unfold Below
  rw [sequence_setSequence known]
  by_cases same : key.opcode = opcode
  · rw [same, known] at found
    cases found
    rw [if_pos same]
    refine ⟨_, rfl, ?_⟩
    rw [toNat_of_checkedAdd added]
    omega
  · rw [if_neg same]
    exact ⟨counter, found, lower⟩

theorem below_taken {submission : P2pSubmission} {opcode : Opcode} {current : UInt64}
    {next : Nat} (known : submission.sequence opcode = some current)
    (added : checkedAdd current.toNat 1 = some next) :
    Below (submission.setSequence opcode (UInt64.ofNat next)) ⟨opcode, current⟩ := by
  unfold Below
  rw [sequence_setSequence known, if_pos rfl]
  refine ⟨_, rfl, ?_⟩
  rw [toNat_of_checkedAdd added]
  exact Nat.lt_succ_self _

/-- The sequence of the next request differs from every earlier one. -/
theorem Below.ne_next {submission : P2pSubmission} {opcode : Opcode} {current : UInt64}
    {key : P2pResponseKey} (below : Below submission key)
    (known : submission.sequence opcode = some current) :
    key ≠ ⟨opcode, current⟩ := by
  rintro rfl
  obtain ⟨counter, found, lower⟩ := below
  rw [known] at found
  cases found
  exact absurd lower (lt_irrefl _)

structure ClientInvariant (state : P2pClientState) : Prop where
  distinct : ∀ left right key, (state.callers left).key = some key →
    (state.callers right).key = some key → left = right
  below : ∀ caller key, (state.callers caller).key = some key → Below state.submission key
  unique : ∀ left ∈ state.pending, ∀ right ∈ state.pending, left.1 = right.1 → left = right
  served : ∀ caller key, (state.callers caller).expects = some key →
    (key, caller) ∈ state.pending ∨ state.replies caller ≠ [] ∨ state.reader.answers caller = true
  locked : ∀ caller, (state.callers caller).locked = true → state.holder = some caller
  recorded : (∃ message, state.reader = .draining message) ∨
    state.reader = .exited → state.failure ≠ none
  drained : state.reader = .exited → state.pending = [] ∧
    ∀ caller, (state.callers caller).isChecked = false

theorem ClientInvariant.start : ClientInvariant p2pClientStart where
  distinct := by
    intro left right key leftKey
    cases leftKey
  below := by
    intro caller key hasKey
    cases hasKey
  unique := by
    intro left member
    cases member
  served := by
    intro caller key expects
    cases expects
  locked := by
    intro caller isLocked
    cases isLocked
  recorded := by
    rintro (⟨message, impossible⟩ | impossible) <;> cases impossible
  drained := by
    intro impossible
    cases impossible

section Preserved

variable {state : P2pClientState} {caller : Nat}

theorem setCaller_cases (state : P2pClientState) (caller : Nat) (phase : CallerPhase)
    (other : Nat) :
    (other = caller ∧ (state.setCaller caller phase).callers other = phase) ∨
      (other ≠ caller ∧ (state.setCaller caller phase).callers other = state.callers other) := by
  by_cases same : other = caller
  · subst same
    exact Or.inl ⟨rfl, Function.update_self ..⟩
  · exact Or.inr ⟨same, Function.update_of_ne same ..⟩

/-- A caller whose new key is nobody else's keeps the keys apart. -/
theorem ClientInvariant.distinct_setCaller
    (invariant : ClientInvariant state) {phase : CallerPhase}
    (kept : ∀ key, phase.key = some key → ∀ other, other ≠ caller →
      (state.callers other).key ≠ some key) :
    ∀ left right key, ((state.setCaller caller phase).callers left).key = some key →
      ((state.setCaller caller phase).callers right).key = some key →
      left = right := by
  intro left right key leftKey rightKey
  rcases setCaller_cases state caller phase left with
    ⟨isLeft, leftPhase⟩ | ⟨notLeft, leftPhase⟩
  · rcases setCaller_cases state caller phase right with
      ⟨isRight, rightPhase⟩ | ⟨notRight, rightPhase⟩
    · exact isLeft.trans isRight.symm
    · rw [leftPhase] at leftKey
      rw [rightPhase] at rightKey
      exact absurd rightKey (kept key leftKey right notRight)
  · rcases setCaller_cases state caller phase right with
      ⟨isRight, rightPhase⟩ | ⟨notRight, rightPhase⟩
    · rw [leftPhase] at leftKey
      rw [rightPhase] at rightKey
      exact absurd leftKey (kept key rightKey left notLeft)
    · rw [leftPhase] at leftKey
      rw [rightPhase] at rightKey
      exact invariant.distinct left right key leftKey rightKey

/-- A key that a caller had is nobody else's. -/
theorem ClientInvariant.key_ne (invariant : ClientInvariant state) {key : P2pResponseKey}
    (own : (state.callers caller).key = some key) :
    ∀ other, other ≠ caller → (state.callers other).key ≠ some key := by
  intro other different taken
  exact different (invariant.distinct other caller key taken own)

/-- Removing the entries of a key leaves those of every other caller. -/
theorem ClientInvariant.mem_filter_pending
    (invariant : ClientInvariant state) {key own : P2pResponseKey}
    (ownKey : (state.callers caller).key = some own) {other : Nat}
    (different : other ≠ caller)
    (otherKey : (state.callers other).key = some key)
    (member : (key, other) ∈ state.pending) :
    (key, other) ∈ state.pending.filter fun entry => entry.1 ≠ own := by
  refine List.mem_filter.mpr ⟨member, ?_⟩
  have apart : key ≠ own := by
    rintro rfl
    exact invariant.key_ne ownKey other different otherKey
  simpa using apart

/-- A caller that only moves on, within the keys and the lock it has. -/
theorem ClientInvariant.move (invariant : ClientInvariant state) {phase : CallerPhase}
    (key : phase.key = none ∨ phase.key = (state.callers caller).key)
    (expects : phase.expects = none ∨ phase.expects = (state.callers caller).expects)
    (locked : phase.locked = true → (state.callers caller).locked = true)
    (unchecked : phase.isChecked = false) :
    ClientInvariant (state.setCaller caller phase) where
  distinct := by
    refine invariant.distinct_setCaller ?_
    intro own hasKey
    rcases key with none | same
    · rw [none] at hasKey
      cases hasKey
    · exact invariant.key_ne (same.symm.trans hasKey)
  below := by
    intro other own hasKey
    rcases setCaller_cases state caller phase other with
      ⟨rfl, moved⟩ | ⟨_, moved⟩
    · rw [moved] at hasKey
      rcases key with none | same
      · rw [none] at hasKey
        cases hasKey
      · exact invariant.below other own (same.symm.trans hasKey)
    · rw [moved] at hasKey
      exact invariant.below other own hasKey
  unique := invariant.unique
  served := by
    intro other own expected
    rcases setCaller_cases state caller phase other with
      ⟨rfl, moved⟩ | ⟨_, moved⟩
    · rw [moved] at expected
      rcases expects with none | same
      · rw [none] at expected
        cases expected
      · exact invariant.served other own (same.symm.trans expected)
    · rw [moved] at expected
      exact invariant.served other own expected
  locked := by
    intro other isLocked
    rcases setCaller_cases state caller phase other with
      ⟨rfl, moved⟩ | ⟨_, moved⟩
    · rw [moved] at isLocked
      exact invariant.locked other (locked isLocked)
    · rw [moved] at isLocked
      exact invariant.locked other isLocked
  recorded := invariant.recorded
  drained := by
    intro exited
    refine ⟨(invariant.drained exited).1, ?_⟩
    intro other
    rcases setCaller_cases state caller phase other with
      ⟨rfl, moved⟩ | ⟨_, moved⟩
    · rw [moved]
      exact unchecked
    · rw [moved]
      exact (invariant.drained exited).2 other

theorem ClientInvariant.returned (invariant : ClientInvariant state)
    (result : Except NetworkError Frame) :
    ClientInvariant (state.setCaller caller (.returned result)) :=
  invariant.move (Or.inl rfl) (Or.inl rfl)
    (fun isLocked => absurd isLocked Bool.false_ne_true) rfl

/-- A sequence is taken from a counter. -/
theorem ClientInvariant.advance (invariant : ClientInvariant state) {opcode : Opcode}
    {current : UInt64} {next : Nat}
    (known : state.submission.sequence opcode = some current)
    (added : checkedAdd current.toNat 1 = some next) :
    ClientInvariant
      { state with
        submission := state.submission.setSequence opcode (UInt64.ofNat next) } where
  distinct := invariant.distinct
  below := by
    intro other key hasKey
    exact (invariant.below other key hasKey).advance known added
  unique := invariant.unique
  served := invariant.served
  locked := invariant.locked
  recorded := invariant.recorded
  drained := invariant.drained

theorem ClientInvariant.recordFailure (invariant : ClientInvariant state) (message : Message) :
    ClientInvariant (recordFailure message state) where
  distinct := invariant.distinct
  below := invariant.below
  unique := invariant.unique
  served := invariant.served
  locked := invariant.locked
  recorded := by
    intro _ impossible
    cases impossible
  drained := invariant.drained

theorem ClientInvariant.drainPending (invariant : ClientInvariant state) (message : Message) :
    ClientInvariant (drainPending message state) where
  distinct := invariant.distinct
  below := invariant.below
  unique := by
    intro left member
    cases member
  served := by
    intro other key expects
    rcases invariant.served other key expects with
      member | replied | answered
    · refine Or.inr (Or.inl ?_)
      intro empty
      have none := (List.append_eq_nil_iff.mp empty).2
      rw [List.map_eq_nil_iff, List.filter_eq_nil_iff] at none
      exact none (key, other) member (by simp)
    · refine Or.inr (Or.inl ?_)
      intro empty
      exact replied (List.append_eq_nil_iff.mp empty).1
    · exact Or.inr (Or.inr answered)
  locked := invariant.locked
  recorded := invariant.recorded
  drained := by
    intro exited
    exact ⟨rfl, (invariant.drained exited).2⟩

/-- The lock is given back by the caller that had it. -/
theorem ClientInvariant.release (invariant : ClientInvariant state)
    (held : state.holder = some caller)
    (unlocked : (state.callers caller).locked = false) :
    ClientInvariant { state with holder := none } where
  distinct := invariant.distinct
  below := invariant.below
  unique := invariant.unique
  served := invariant.served
  locked := by
    intro other isLocked
    have holds := invariant.locked other isLocked
    rw [held] at holds
    cases holds
    rw [unlocked] at isLocked
    cases isLocked
  recorded := invariant.recorded
  drained := invariant.drained

/-- The entries of a key that nobody counts on are dropped. -/
theorem ClientInvariant.forget (invariant : ClientInvariant state) {key : P2pResponseKey}
    (unneeded : ∀ other, (state.callers other).expects ≠ some key) :
    ClientInvariant
      { state with
        pending := state.pending.filter fun entry => entry.1 ≠ key } where
  distinct := invariant.distinct
  below := invariant.below
  unique := by
    intro left leftMember right rightMember
    exact invariant.unique left (List.mem_filter.mp leftMember).1 right
      (List.mem_filter.mp rightMember).1
  served := by
    intro other own expects
    rcases invariant.served other own expects with member | later
    · refine Or.inl (List.mem_filter.mpr ⟨member, ?_⟩)
      have apart : own ≠ key := by
        rintro rfl
        exact unneeded other expects
      simpa using apart
    · exact Or.inr later
  locked := invariant.locked
  recorded := invariant.recorded
  drained := by
    intro exited
    have drained := invariant.drained exited
    refine ⟨?_, drained.2⟩
    dsimp only
    rw [drained.1, List.filter_nil]

/-- Behind the failure check nobody else has the lock, and the reader has not
drained. -/
theorem ClientInvariant.check (invariant : ClientInvariant state) {call : P2pCall}
    {key : P2pResponseKey}
    (silent : state.failure = none) (free : state.holder = none)
    (fresh : ∀ other, (state.callers other).key ≠ some key)
    (below : Below state.submission key) :
    ClientInvariant
      { state.setCaller caller (.checked call key) with
        holder := some caller } where
  distinct := by
    refine invariant.distinct_setCaller ?_
    rintro own ⟨⟩ other _
    exact fresh other
  below := by
    intro other own hasKey
    rcases setCaller_cases state caller (.checked call key) other with
      ⟨rfl, moved⟩ | ⟨_, moved⟩
    · rw [moved] at hasKey
      cases hasKey
      exact below
    · rw [moved] at hasKey
      exact invariant.below other own hasKey
  unique := invariant.unique
  served := by
    intro other own expects
    rcases setCaller_cases state caller (.checked call key) other with
      ⟨rfl, moved⟩ | ⟨_, moved⟩
    · rw [moved] at expects
      cases expects
    · rw [moved] at expects
      exact invariant.served other own expects
  locked := by
    intro other isLocked
    rcases setCaller_cases state caller (.checked call key) other with
      ⟨rfl, moved⟩ | ⟨_, moved⟩
    · rfl
    · rw [moved] at isLocked
      have held := invariant.locked other isLocked
      rw [free] at held
      cases held
  recorded := invariant.recorded
  drained := by
    intro exited
    exact absurd silent (invariant.recorded (Or.inr exited))

theorem ClientInvariant.register (invariant : ClientInvariant state) {call : P2pCall}
    {key : P2pResponseKey}
    (phase : state.callers caller = .checked call key) :
    ClientInvariant
      { state.setCaller caller (.registered call key) with
        pending := (key, caller) :: state.pending.filter fun entry => entry.1 ≠ key } where
  distinct := by
    refine invariant.distinct_setCaller ?_
    rintro own ⟨⟩
    exact invariant.key_ne (by rw [phase]; rfl)
  below := by
    intro other own hasKey
    rcases setCaller_cases state caller (.registered call key) other with
      ⟨rfl, moved⟩ | ⟨_, moved⟩
    · rw [moved] at hasKey
      exact invariant.below other own (by rw [phase]; exact hasKey)
    · rw [moved] at hasKey
      exact invariant.below other own hasKey
  unique := by
    intro left leftMember right rightMember same
    rcases List.mem_cons.mp leftMember with rfl | leftOld
    · rcases List.mem_cons.mp rightMember with rfl | rightOld
      · rfl
      · have apart := (List.mem_filter.mp rightOld).2
        simp [← same] at apart
    · rcases List.mem_cons.mp rightMember with rfl | rightOld
      · have apart := (List.mem_filter.mp leftOld).2
        simp [same] at apart
      · exact invariant.unique left (List.mem_filter.mp leftOld).1 right
          (List.mem_filter.mp rightOld).1 same
  served := by
    intro other own expects
    rcases setCaller_cases state caller (.registered call key) other with
      ⟨rfl, moved⟩ | ⟨different, moved⟩
    · rw [moved] at expects
      cases expects
      exact Or.inl (List.mem_cons_self ..)
    · rw [moved] at expects
      rcases invariant.served other own expects with member | later
      · refine Or.inl (List.mem_cons_of_mem _ ?_)
        refine invariant.mem_filter_pending ?_ different (key_of_expects expects) member
        rw [phase]
        rfl
      · exact Or.inr later
  locked := by
    intro other isLocked
    rcases setCaller_cases state caller (.registered call key) other with
      ⟨rfl, moved⟩ | ⟨_, moved⟩
    · exact invariant.locked other (by rw [phase]; rfl)
    · rw [moved] at isLocked
      exact invariant.locked other isLocked
  recorded := invariant.recorded
  drained := by
    intro exited
    have unchecked := (invariant.drained exited).2 caller
    rw [phase] at unchecked
    cases unchecked

end Preserved

section Steps

variable {checksum : List UInt8 → UInt32} {uniqueId : UniqueId}
variable {rank worldSize : UInt32} {state next : P2pClientState}
variable {caller : Nat}

theorem ClientInvariant.checkStep (invariant : ClientInvariant state) {call : P2pCall}
    (stepped : checkStep checksum uniqueId rank worldSize state caller call = some next) :
    ClientInvariant next := by
  unfold RuCCL.Rank.checkStep at stepped
  split at stepped
  case h_2 => cases stepped
  case h_1 idle free =>
    split at stepped
    case h_1 message failed =>
      cases stepped
      exact invariant.returned _
    case h_2 silent =>
      split at stepped
      case h_1 foreign =>
        cases stepped
        exact invariant.returned _
      case h_2 current known =>
        split at stepped
        case h_1 overflow =>
          cases stepped
          exact invariant.returned _
        case h_2 following added =>
          dsimp only at stepped
          split at stepped
          case h_1 failure rejected =>
            cases stepped
            exact (invariant.advance known added).returned _
          case h_2 frame built =>
            cases stepped
            refine (invariant.advance known added).check silent free ?_ (below_taken known added)
            intro other otherKey
            exact (invariant.below other _ otherKey).ne_next known rfl

theorem ClientInvariant.registerStep (invariant : ClientInvariant state)
    (stepped : registerStep state caller = some next) :
    ClientInvariant next := by
  unfold RuCCL.Rank.registerStep at stepped
  split at stepped
  case h_1 call key phase =>
    cases stepped
    exact invariant.register phase
  case h_2 => cases stepped

theorem ClientInvariant.writeStep (invariant : ClientInvariant state)
    {failed : Option (NetworkError × String)}
    (stepped : writeStep state caller failed = some next) :
    ClientInvariant next := by
  unfold RuCCL.Rank.writeStep at stepped
  split at stepped
  case h_2 => cases stepped
  case h_1 call key phase =>
    have held : state.holder = some caller := invariant.locked caller (by rw [phase]; rfl)
    split at stepped
    case h_1 =>
      cases stepped
      have moved : ClientInvariant (state.setCaller caller (.waiting call key)) :=
        invariant.move (Or.inr (by rw [phase]; rfl))
          (Or.inr (by rw [phase]; rfl))
          (fun isLocked => absurd isLocked Bool.false_ne_true) rfl
      refine moved.release held ?_
      simp [P2pClientState.setCaller, CallerPhase.locked]
    case h_2 error text =>
      cases stepped
      exact invariant.move (Or.inl rfl) (Or.inl rfl) (fun _ => by rw [phase]; rfl) rfl

theorem ClientInvariant.failWriteStep (invariant : ClientInvariant state)
    (stepped : failWriteStep state caller = some next) :
    ClientInvariant next := by
  unfold RuCCL.Rank.failWriteStep at stepped
  split at stepped
  case h_1 error message phase =>
    cases stepped
    refine (invariant.recordFailure message).move (Or.inl rfl) (Or.inl rfl) ?_ rfl
    intro _
    change (state.callers caller).locked = true
    rw [phase]
    rfl
  case h_2 error message phase =>
    cases stepped
    have held : state.holder = some caller := invariant.locked caller (by rw [phase]; rfl)
    refine ((invariant.drainPending message).returned _).release held ?_
    simp [P2pClientState.setCaller, CallerPhase.locked]
  case h_3 => cases stepped

theorem ClientInvariant.takeReplyStep (invariant : ClientInvariant state)
    (stepped : takeReplyStep state caller = some next) :
    ClientInvariant next := by
  unfold RuCCL.Rank.takeReplyStep at stepped
  split at stepped
  case h_1 =>
    cases stepped
    exact invariant.returned _
  case h_2 =>
    cases stepped
    exact invariant.returned _
  case h_3 =>
    split at stepped
    case isTrue => cases stepped
    case isFalse =>
      cases stepped
      exact invariant.returned _
  case h_4 => cases stepped

theorem ClientInvariant.expireReplyStep (invariant : ClientInvariant state)
    (stepped : expireReplyStep state caller = some next) :
    ClientInvariant next := by
  unfold RuCCL.Rank.expireReplyStep at stepped
  split at stepped
  case h_1 call key phase silent =>
    cases stepped
    exact invariant.move (Or.inr (by rw [phase]; rfl)) (Or.inl rfl)
      (fun isLocked => absurd isLocked Bool.false_ne_true) rfl
  case h_2 call key phase =>
    cases stepped
    have moved : ClientInvariant (state.setCaller caller (.closing call)) :=
      invariant.move (Or.inl rfl) (Or.inl rfl)
        (fun isLocked => absurd isLocked Bool.false_ne_true) rfl
    refine moved.forget ?_
    intro other expects
    rcases setCaller_cases state caller (.closing call) other with
      ⟨rfl, closed⟩ | ⟨different, kept⟩
    · rw [closed] at expects
      cases expects
    · rw [kept] at expects
      refine invariant.key_ne ?_ other different (key_of_expects expects)
      rw [phase]
      rfl
  case h_3 call phase =>
    split at stepped
    case isTrue =>
      cases stepped
      exact invariant.returned _
    case isFalse => cases stepped
  case h_4 => cases stepped

/-- A reader that has not drained yet may change its phase freely. -/
theorem ClientInvariant.setReader (invariant : ClientInvariant state) {reader : P2pReader}
    (reading : state.reader = .reading)
    (undrained : ∀ message, reader ≠ .draining message)
    (unfinished : reader ≠ .exited) :
    ClientInvariant { state with reader := reader } where
  distinct := invariant.distinct
  below := invariant.below
  unique := invariant.unique
  served := by
    intro other key expects
    rcases invariant.served other key expects with
      member | replied | answered
    · exact Or.inl member
    · exact Or.inr (Or.inl replied)
    · rw [reading] at answered
      cases answered
  locked := invariant.locked
  recorded := by
    rintro (⟨message, drains⟩ | exited)
    · exact absurd drains (undrained message)
    · exact absurd exited unfinished
  drained := by
    intro exited
    exact absurd exited unfinished

/-- The sender of the key's entry is taken out of the map. -/
theorem ClientInvariant.answer (invariant : ClientInvariant state) {key own : P2pResponseKey}
    {answered : Nat} {frame : Frame}
    (reading : state.reader = .reading)
    (found : (state.pending.find? fun entry => entry.1 = key) = some (own, answered)) :
    ClientInvariant
      { state with
        pending := state.pending.filter fun entry => entry.1 ≠ key
        reader := .answering answered frame } where
  distinct := invariant.distinct
  below := invariant.below
  unique := by
    intro left leftMember right rightMember
    exact invariant.unique left (List.mem_filter.mp leftMember).1 right
      (List.mem_filter.mp rightMember).1
  served := by
    intro other expected expects
    have member := List.mem_of_find?_eq_some found
    have ownKey : own = key := by simpa using List.find?_some found
    rcases invariant.served other expected expects with
      waiting | replied | impossible
    · by_cases same : expected = key
      · -- a key has one entry, so it is this caller that is answered
        have entry := invariant.unique _ waiting _ member (same.trans ownKey.symm)
        cases entry
        exact Or.inr (Or.inr (by simp [P2pReader.answers]))
      · refine Or.inl (List.mem_filter.mpr ⟨waiting, ?_⟩)
        simpa using same
    · exact Or.inr (Or.inl replied)
    · rw [reading] at impossible
      cases impossible
  locked := invariant.locked
  recorded := by
    rintro (⟨message, impossible⟩ | impossible) <;> cases impossible
  drained := by
    intro impossible
    cases impossible

theorem ClientInvariant.readResponse (invariant : ClientInvariant state)
    (reading : state.reader = .reading) (frame : Frame) :
    ClientInvariant (readResponse uniqueId rank worldSize frame state) := by
  unfold RuCCL.Rank.readResponse
  dsimp only
  split
  case isTrue => exact invariant.setReader reading (by simp) (by simp)
  case isFalse =>
    split
    case isTrue => exact invariant.setReader reading (by simp) (by simp)
    case isFalse =>
      split
      case isTrue => exact invariant.setReader reading (by simp) (by simp)
      case isFalse =>
        split
        case h_2 => exact invariant
        case h_1 key answered found => exact invariant.answer reading found

theorem ClientInvariant.readResponseStep (invariant : ClientInvariant state) {read : P2pRead}
    (stepped : readResponseStep uniqueId rank worldSize state read = some next) :
    ClientInvariant next := by
  unfold RuCCL.Rank.readResponseStep at stepped
  split at stepped
  case h_1 frame reading =>
    cases stepped
    exact invariant.readResponse reading frame
  case h_2 reading =>
    cases stepped
    exact invariant.setReader reading (by simp) (by simp)
  case h_3 cause reading =>
    cases stepped
    exact invariant.setReader reading (by simp) (by simp)
  case h_4 => cases stepped

/-! ## Runs -/

/-- The lock holder stands between its failure check and its registration. -/
def P2pClientState.checking (state : P2pClientState) : Bool :=
  match state.holder with
  | some caller => (state.callers caller).isChecked
  | none => false

/-- When the reader drains the pending map, no caller that has passed its
failure check is still to register. -/
def DrainsRegistered (state : P2pClientState) (action : P2pClientAction) : Prop :=
  match action, state.reader with
  | .reader, .draining _ => state.checking = false
  | _, _ => True

instance (state : P2pClientState) (action : P2pClientAction) :
    Decidable (DrainsRegistered state action) := by
  unfold DrainsRegistered
  split <;> infer_instance

theorem ClientInvariant.readerStep (invariant : ClientInvariant state)
    (registered : DrainsRegistered state .reader)
    (stepped : readerStep state = some next) :
    ClientInvariant next := by
  unfold RuCCL.Rank.readerStep at stepped
  split at stepped
  case h_1 answered frame answering =>
    cases stepped
    refine ⟨invariant.distinct, invariant.below, invariant.unique, ?_, invariant.locked, ?_, ?_⟩
    · intro other key expects
      by_cases same : other = answered
      · subst same
        exact Or.inr (Or.inl (by simp))
      · rcases invariant.served other key expects with
          member | replied | expected
        · exact Or.inl member
        · refine Or.inr (Or.inl ?_)
          simpa [Function.update_of_ne same] using replied
        · rw [answering, P2pReader.answers, decide_eq_true_eq] at expected
          exact absurd expected.symm same
    · rintro (⟨message, impossible⟩ | impossible) <;> cases impossible
    · intro impossible
      cases impossible
  case h_2 message recording =>
    cases stepped
    have recorded := invariant.recordFailure message
    refine ⟨recorded.distinct, recorded.below, recorded.unique, ?_, recorded.locked, ?_, ?_⟩
    · intro other key expects
      rcases recorded.served other key expects with
        member | replied | answered
      · exact Or.inl member
      · exact Or.inr (Or.inl replied)
      · change state.reader.answers other = true at answered
        rw [recording] at answered
        cases answered
    · intro _ impossible
      cases impossible
    · intro impossible
      cases impossible
  case h_3 message draining =>
    cases stepped
    have drained := invariant.drainPending message
    refine ⟨drained.distinct, drained.below, drained.unique, ?_, drained.locked, ?_, ?_⟩
    · intro other key expects
      rcases drained.served other key expects with
        member | replied | answered
      · exact Or.inl member
      · exact Or.inr (Or.inl replied)
      · change state.reader.answers other = true at answered
        rw [draining] at answered
        cases answered
    · intro _
      exact invariant.recorded (Or.inl ⟨message, draining⟩)
    · intro _
      refine ⟨rfl, ?_⟩
      intro other
      have settled : state.checking = false := by
        simpa [DrainsRegistered, draining] using registered
      change (state.callers other).isChecked = false
      by_contra checked
      rw [Bool.not_eq_false] at checked
      have holds : (state.callers other).locked = true := by
        cases phase : state.callers other with
        | checked call key => rfl
        | _ =>
            rw [phase] at checked
            cases checked
      rw [P2pClientState.checking, invariant.locked other holds] at settled
      exact Bool.noConfusion (checked.symm.trans settled)
  case h_4 => cases stepped

theorem ClientInvariant.step (invariant : ClientInvariant state) {action : P2pClientAction}
    (registered : DrainsRegistered state action)
    (stepped : p2pClientStep checksum uniqueId rank worldSize state action = some next) :
    ClientInvariant next := by
  cases action with
  | check caller call => exact invariant.checkStep stepped
  | register caller => exact invariant.registerStep stepped
  | write caller failed => exact invariant.writeStep stepped
  | failWrite caller => exact invariant.failWriteStep stepped
  | takeReply caller => exact invariant.takeReplyStep stepped
  | expire caller => exact invariant.expireReplyStep stepped
  | read read => exact invariant.readResponseStep stepped
  | reader => exact invariant.readerStep registered stepped
  | abort =>
      rw [p2pClientStep, abortRequestStep] at stepped
      split at stepped
      case isFalse => cases stepped
      case isTrue =>
        split at stepped
        case h_1 following added =>
          cases stepped
          exact invariant.advance rfl added
        case h_2 =>
          cases stepped
          exact invariant
  | failElsewhere message =>
      cases stepped
      exact invariant.recordFailure message

end Steps

/-- Once the reader has gone through `fail_pending`, the failure is recorded,
nothing is pending and every waiting request has its reply. -/
def LeavesNoneStranded (state : P2pClientState) : Prop := state.reader = .exited →
    state.failure ≠ none ∧ state.pending = [] ∧
      ∀ caller call key, state.callers caller = .waiting call key → state.replies caller ≠ []

theorem reader_leaves_none_stranded (checksum : List UInt8 → UInt32) (uniqueId : UniqueId)
    (rank worldSize : UInt32) (state : P2pClientState)
    (reached : Reached (p2pClientStep checksum uniqueId rank worldSize)
      DrainsRegistered p2pClientStart state) :
    LeavesNoneStranded state := by
  have invariant : ClientInvariant state := reached.invariant ClientInvariant.start
      fun _ _ _ before registered stepped => before.step registered stepped
  intro exited
  have drained := invariant.drained exited
  refine ⟨invariant.recorded (Or.inr exited), drained.1, ?_⟩
  intro caller call key phase
  rcases invariant.served caller key (by rw [phase]; rfl) with
    member | replied | answered
  · rw [drained.1] at member
    cases member
  · exact replied
  · rw [exited] at answered
    cases answered

/-- A one-byte send of rank 0 to rank 1. -/
def byteCall : P2pCall :=
  { opcode := .send, peer := 1, tag := 5, elementType := .u8
    elementCount := 1, payload := [7] }

/-- The coordinator's notice to rank 0 that the session is aborted. -/
def abortNotice : Frame :=
  { header :=
      { FrameHeader.collective byteSum zeroId .abort .u8 0 anyRank 2 0 1 with
        destinationRank := 0
        flags := flagPayload
        payloadBytes := 1
        payloadChecksum := byteSum [33] }
    payload := [33] }

/-- The request is registered before the reader drains. -/
def drainedRun : List P2pClientAction :=
  [.check 0 byteCall, .read (.frame abortNotice), .reader, .register 0, .reader, .write 0 none]

theorem reader_leaves_none_stranded_drained :
    ∃ state, Reached (p2pClientStep byteSum zeroId 0 2) DrainsRegistered p2pClientStart state ∧
      state.reader = .exited ∧
      state.replies 0 = [.failure (.received [33])] ∧
      LeavesNoneStranded state := by
  have finished : (follow (p2pClientStep byteSum zeroId 0 2)
      DrainsRegistered p2pClientStart drainedRun).map
        (fun final => (final.reader, final.replies 0)) =
      some (.exited, [.failure (.received [33])]) := by
    decide
  rw [Option.map_eq_some_iff] at finished
  obtain ⟨state, followed, values⟩ := finished
  have reached := Reached.of_follow .start followed
  rw [Prod.mk.injEq] at values
  exact ⟨state, reached, values.1, values.2,
    reader_leaves_none_stranded byteSum zeroId 0 2 state reached⟩

/-- The caller passes its failure check; the reader takes the notice, records
the failure, drains and exits; then the caller registers and writes. -/
def strandedRun : List P2pClientAction :=
  [.check 0 byteCall, .read (.frame abortNotice), .reader, .reader, .register 0, .write 0 none]

/-- A request is pending behind the exit of the reader. -/
def P2pClientState.stranded (state : P2pClientState) : Bool :=
  state.reader = .exited ∧ state.pending ≠ []

/-- Without the restriction a request stays pending behind the reader's exit. -/
theorem late_registration_stranded :
    ¬∀ state, Reachable (p2pClientStep byteSum zeroId 0 2) p2pClientStart state →
        LeavesNoneStranded state := by
  intro always
  have finished : (follow (p2pClientStep byteSum zeroId 0 2)
      (fun _ _ => True) p2pClientStart strandedRun).map P2pClientState.stranded = some true := by
    decide
  rw [Option.map_eq_some_iff] at finished
  obtain ⟨state, followed, left⟩ := finished
  rw [P2pClientState.stranded, decide_eq_true_eq] at left
  have settled := always state (Reached.of_follow .start followed) left.1
  exact left.2 settled.2.1

end RuCCL.Rank
