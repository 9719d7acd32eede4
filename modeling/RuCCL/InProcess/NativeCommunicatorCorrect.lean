import RuCCL.Library.Transition
import RuCCL.InProcess.NativeCommunicator
import Mathlib.Data.List.Nodup
import Mathlib.Data.List.Pairwise

/-!
# Generations of the in-process communicator do not mix

While a generation collects, its members are the calls behind the submitted
inputs; while it is handed out, they are the calls that the last entry of the
log names and that have not taken their output.
-/

namespace RuCCL.InProcess

open RuCCL.Library RuCCL.Rank

variable {DeviceId Tensor Prepared Work Operation : Type}

namespace NativeCommunicator

variable {devices : List DeviceId}
variable
  {communicator next :
    NativeCommunicator DeviceId Tensor Prepared Work Operation}

/-- A logged generation has one submission and one output for each rank, and
each of its calls has taken that output or waits for it. -/
structure Formed [DecidableEq Operation] (devices : List DeviceId)
    (communicator :
      NativeCommunicator DeviceId Tensor Prepared Work Operation)
    (generation :
      Generation DeviceId Tensor Prepared Work Operation) : Prop where
  full : generation.submissions.length = devices.length
  outputs : ∃ first, generation.submissions.head? = some first ∧
    generation.outputs = distribute devices.length
      (runGeneration generation.device devices first.operation generation.submissions)
  members : ∀ (rank : Nat) submission, generation.submissions[rank]? = some submission →
      (communicator.state.ready = true ∧ communicator.calls submission.call = .submitted rank) ∨
        ∃ result, communicator.calls submission.call = .returned rank result ∧
          generation.outputs[rank]? = some result

/-- The shared state while a generation collects its submissions. -/
structure Collecting (devices : List DeviceId)
    (communicator :
      NativeCommunicator DeviceId Tensor Prepared Work Operation) :
    Prop where
  outputs : communicator.state.outputs = List.replicate devices.length none
  departed : communicator.state.departed = 0
  arrived : communicator.state.arrived = communicator.state.inputs.countP Option.isSome
  unfilled : communicator.state.arrived < devices.length
  submitted : ∀ call rank, communicator.calls call = .submitted rank → ∃ submission,
      communicator.state.inputs[rank]? = some (some submission) ∧ submission.call = call

/-- The shared state while the last generation of the log is handed out. -/
structure HandingOut (devices : List DeviceId)
    (communicator :
      NativeCommunicator DeviceId Tensor Prepared Work Operation)
    (generation :
      Generation DeviceId Tensor Prepared Work Operation) : Prop where
  last : communicator.generations.getLast? = some generation
  inputs : communicator.state.inputs = List.replicate devices.length none
  arrived : communicator.state.arrived = devices.length
  departed : communicator.state.departed = communicator.state.outputs.countP Option.isNone
  left : communicator.state.departed < devices.length
  outputs : ∀ (rank : Nat) output, communicator.state.outputs[rank]? = some (some output) →
      generation.outputs[rank]? = some output
  submitted : ∀ call rank, communicator.calls call = .submitted rank →
    (∃ output, communicator.state.outputs[rank]? = some (some output)) ∧
      ∃ submission, generation.submissions[rank]? = some submission ∧ submission.call = call

/-- The calls of all logged generations. -/
def members
    (communicator :
      NativeCommunicator DeviceId Tensor Prepared Work Operation) :
    List Nat :=
  communicator.generations.flatMap fun generation =>
    generation.submissions.map Submission.call

structure Invariant [DecidableEq Operation] (devices : List DeviceId)
    (communicator :
      NativeCommunicator DeviceId Tensor Prepared Work Operation) :
    Prop where
  healthy : communicator.poisoned = false
  calm : ∀ call, communicator.calls call ≠ .panicked
  inputsLength : communicator.state.inputs.length = devices.length
  outputsLength : communicator.state.outputs.length = devices.length
  collecting : communicator.state.ready = false → communicator.Collecting devices
  handingOut : communicator.state.ready = true →
    ∃ generation, communicator.HandingOut devices generation
  owned : ∀ (rank : Nat) submission, communicator.state.inputs[rank]? = some (some submission) →
      communicator.calls submission.call = .submitted rank
  inWorld : ∀ call rank,
    (∃ operation prepared, communicator.calls call = .prepared rank operation prepared) ∨
      communicator.calls call = .submitted rank → rank < devices.length
  formed : ∀ generation ∈ communicator.generations, communicator.Formed devices generation
  distinct : communicator.members.Nodup
  returned : ∀ call rank result, communicator.calls call = .returned rank result →
      rank < devices.length → ∃ generation ∈ communicator.generations, ∃ submission,
          generation.submissions[rank]? = some submission ∧ submission.call = call ∧
            generation.outputs[rank]? = some result

theorem setCall_cases
    (communicator :
      NativeCommunicator DeviceId Tensor Prepared Work Operation)
    (call : Nat) (phase : NativeCall Tensor Prepared Operation)
    (other : Nat) :
    (other = call ∧ (communicator.setCall call phase).calls other = phase) ∨
      (other ≠ call ∧ (communicator.setCall call phase).calls other =
          communicator.calls other) := by
  by_cases same : other = call
  · subst same
    exact Or.inl ⟨rfl, Function.update_self ..⟩
  · exact Or.inr ⟨same, Function.update_of_ne same ..⟩

theorem mem_members_iff
    {communicator :
      NativeCommunicator DeviceId Tensor Prepared Work Operation}
    {call : Nat} :
    call ∈ communicator.members ↔
      ∃ generation ∈ communicator.generations, ∃ rank : Nat, ∃ submission,
        generation.submissions[rank]? = some submission ∧ submission.call = call := by
  simp only [members, List.mem_flatMap, List.mem_map]
  constructor
  · rintro ⟨generation, logged, submission, member, same⟩
    obtain ⟨rank, found⟩ := List.mem_iff_getElem?.mp member
    exact ⟨generation, logged, rank, submission, found, same⟩
  · rintro ⟨generation, logged, rank, submission, found, same⟩
    exact ⟨generation, logged, submission, List.mem_of_getElem? found, same⟩

@[simp]
theorem length_distribute (world : Nat) (result : Except String (List Tensor)) :
    (distribute world result).length = world := by
  unfold distribute
  split
  case h_1 outputs =>
    split
    case isTrue full =>
      rw [List.length_map]
      exact full
    case isFalse => exact List.length_replicate
  case h_2 => exact List.length_replicate

section Invariant

variable [DecidableEq Operation]

/-- A call that moves between phases before its submission. -/
theorem Invariant.prepare (invariant : communicator.Invariant devices) {call : Nat}
    (idle : communicator.calls call = .idle)
    {phase : NativeCall Tensor Prepared Operation}
    (calm : phase ≠ .panicked)
    (unsubmitted : ∀ rank, phase ≠ .submitted rank)
    (prepared : ∀ rank operation input,
      phase = .prepared rank operation input → rank < devices.length)
    (outside : ∀ rank result, phase = .returned rank result → ¬rank < devices.length) :
    (communicator.setCall call phase).Invariant devices := by
  have others : ∀ other, communicator.calls other ≠ .idle →
      (communicator.setCall call phase).calls other =
        communicator.calls other := by
    intro other busy
    refine Function.update_of_ne ?_ _ _
    rintro rfl
    exact busy idle
  have submittedBefore : ∀ other rank,
      (communicator.setCall call phase).calls other = .submitted rank →
        communicator.calls other = .submitted rank := by
    intro other rank waits
    rcases setCall_cases communicator call phase other with
      ⟨_, moved⟩ | ⟨_, kept⟩
    · exact absurd (moved.symm.trans waits) (unsubmitted rank)
    · exact kept.symm.trans waits
  refine ⟨invariant.healthy, ?_, invariant.inputsLength,
    invariant.outputsLength, ?_, ?_, ?_, ?_, ?_, invariant.distinct, ?_⟩
  · intro other
    rcases setCall_cases communicator call phase other with
      ⟨_, moved⟩ | ⟨_, kept⟩
    · rw [moved]
      exact calm
    · rw [kept]
      exact invariant.calm other
  · intro collecting
    have shared := invariant.collecting collecting
    refine ⟨shared.outputs, shared.departed, shared.arrived, shared.unfilled, ?_⟩
    intro other rank waits
    exact shared.submitted other rank (submittedBefore other rank waits)
  · intro ready
    obtain ⟨generation, shared⟩ := invariant.handingOut ready
    refine ⟨generation, shared.last, shared.inputs, shared.arrived,
      shared.departed, shared.left, shared.outputs, ?_⟩
    intro other rank waits
    exact shared.submitted other rank (submittedBefore other rank waits)
  · intro rank submission submitted
    have owned := invariant.owned rank submission submitted
    rw [others _ (by rw [owned]; simp)]
    exact owned
  · rintro other rank (⟨operation, input, waits⟩ | waits)
    · rcases setCall_cases communicator call phase other with
        ⟨_, moved⟩ | ⟨_, kept⟩
      · exact prepared rank operation input (moved.symm.trans waits)
      · exact invariant.inWorld other rank (Or.inl ⟨operation, input, kept.symm.trans waits⟩)
    · exact invariant.inWorld other rank (Or.inr (submittedBefore other rank waits))
  · intro generation logged
    have formed := invariant.formed generation logged
    refine ⟨formed.full, formed.outputs, ?_⟩
    intro rank submission found
    rcases formed.members rank submission found with
      ⟨ready, waits⟩ | ⟨result, done, given⟩
    · refine Or.inl ⟨ready, ?_⟩
      rw [others _ (by rw [waits]; simp)]
      exact waits
    · refine Or.inr ⟨result, ?_, given⟩
      rw [others _ (by rw [done]; simp)]
      exact done
  · intro other rank result done inside
    rcases setCall_cases communicator call phase other with
      ⟨_, moved⟩ | ⟨_, kept⟩
    · exact absurd inside (outside rank result (moved.symm.trans done))
    · exact invariant.returned other rank result (kept.symm.trans done) inside

theorem Invariant.enterStep (invariant : communicator.Invariant devices)
    {device :
      NativeCollectiveDevice DeviceId Tensor Prepared Work Operation}
    {call rank : Nat} {tensor : Tensor} {operation : Operation}
    (stepped : communicator.enterStep devices device call rank tensor operation = some next) :
    next.Invariant devices := by
  unfold NativeCommunicator.enterStep at stepped
  split at stepped
  case h_2 => cases stepped
  case h_1 idle =>
    split at stepped
    case h_1 outside =>
      cases stepped
      refine invariant.prepare idle (by simp) (by simp) (by simp) ?_
      rintro other result ⟨⟩
      exact Nat.not_lt.mpr (List.getElem?_eq_none_iff.mp outside)
    case h_2 deviceId found =>
      cases stepped
      refine invariant.prepare idle (by simp) (by simp) ?_ (by simp)
      rintro other operation input ⟨⟩
      exact (List.getElem?_eq_some_iff.mp found).1

/-- A call belongs to one generation. -/
theorem Invariant.generation_eq (invariant : communicator.Invariant devices)
    {left right : Generation DeviceId Tensor Prepared Work Operation}
    (leftLogged : left ∈ communicator.generations)
    (rightLogged : right ∈ communicator.generations) {call : Nat}
    (leftMember : call ∈ left.submissions.map Submission.call)
    (rightMember : call ∈ right.submissions.map Submission.call) :
    left = right := by
  by_contra different
  have apart := (List.nodup_flatMap.mp invariant.distinct).2
  have symmetric : Std.Symm (Function.onFun List.Disjoint
      fun generation : Generation DeviceId Tensor Prepared Work Operation =>
        generation.submissions.map Submission.call) :=
    ⟨fun _ _ disjoint _ right left => disjoint left right⟩
  exact apart.forall leftLogged rightLogged different leftMember rightMember

/-- How the state looks behind a departure: one output less, and all of it
reset behind the last one. -/
inductive DepartedState (devices : List DeviceId)
    (before : NativeState Tensor Prepared Operation) (rank : Nat) :
    NativeState Tensor Prepared Operation → Prop
  | more (left : before.departed + 1 < devices.length) :
      DepartedState devices before rank
        { before with
          outputs := before.outputs.set rank none
          departed := before.departed + 1 }
  | last (left : before.departed + 1 = devices.length) :
      DepartedState devices before rank
        { before with
          outputs := before.outputs.set rank none
          arrived := 0, departed := 0, ready := false }

omit [DecidableEq Operation] in
theorem depart_eq (call : Nat) {rank : Nat} {output : Except String Tensor}
    (present : communicator.state.outputs[rank]? = some (some output))
    (left : communicator.state.departed < devices.length) :
    ∃ state, DepartedState devices communicator.state rank state ∧
      communicator.depart devices call rank =
        { communicator.setCall call (.returned rank output) with
          state := state } := by
  unfold NativeCommunicator.depart
  simp only [present]
  by_cases last : communicator.state.departed + 1 = devices.length
  · rw [if_pos last]
    exact ⟨_, .last last, rfl⟩
  · rw [if_neg last]
    exact ⟨_, .more (by omega), rfl⟩

omit [DecidableEq Operation] in
/-- A departure does not look at the phase of its call. -/
theorem depart_setCall {call rank : Nat} (phase : NativeCall Tensor Prepared Operation) :
    (communicator.setCall call phase).depart devices call rank =
      communicator.depart devices call rank := by
  unfold NativeCommunicator.depart NativeCommunicator.panic
  simp only [NativeCommunicator.setCall, Function.update_idem]
  rfl

/-- The outputs that others still have to take. -/
theorem getElem?_set_none {outputs : List (Option (Except String Tensor))}
    {rank other : Nat} {output : Except String Tensor} :
    (outputs.set rank none)[other]? = some (some output) ↔
      other ≠ rank ∧ outputs[other]? = some (some output) := by
  rw [List.getElem?_set]
  by_cases same : rank = other
  · subst same
    by_cases inside : rank < outputs.length <;> simp [inside]
  · simp [same, Ne.symm same]

theorem countP_set_none {outputs : List (Option (Except String Tensor))}
    {rank : Nat} {output : Except String Tensor}
    (present : outputs[rank]? = some (some output)) :
    (outputs.set rank none).countP Option.isNone = outputs.countP Option.isNone + 1 := by
  obtain ⟨inside, here⟩ := List.getElem?_eq_some_iff.mp present
  rw [List.countP_set inside, here]
  simp

theorem eq_replicate_of_countP {outputs : List (Option (Except String Tensor))} {world : Nat}
    (length : outputs.length = world)
    (taken : outputs.countP Option.isNone = world) :
    outputs = List.replicate world none := by
  rw [List.eq_replicate_iff]
  refine ⟨length, ?_⟩
  intro output member
  have all := List.countP_eq_length.mp (taken.trans length.symm)
  exact Option.isNone_iff_eq_none.mp (all output member)

/-- A submitted call takes its output and leaves the generation. -/
theorem Invariant.depart (invariant : communicator.Invariant devices)
    (ready : communicator.state.ready = true) {call rank : Nat}
    (waits : communicator.calls call = .submitted rank) :
    (communicator.depart devices call rank).Invariant devices := by
  obtain ⟨generation, shared⟩ := invariant.handingOut ready
  obtain ⟨⟨output, present⟩, submission, member, owner⟩ := shared.submitted call rank waits
  have logged : generation ∈ communicator.generations := List.mem_of_getLast? shared.last
  have given : generation.outputs[rank]? = some output := shared.outputs rank output present
  obtain ⟨state, departed, equal⟩ := depart_eq call present shared.left
  rw [equal]
  -- the other calls of the generation wait at other ranks
  have elsewhere : ∀ other otherRank,
      (communicator.setCall call (.returned rank output)).calls other = .submitted otherRank →
        communicator.calls other = .submitted otherRank ∧ otherRank ≠ rank := by
    intro other otherRank otherWaits
    rcases setCall_cases communicator call (.returned rank output) other
        with ⟨_, moved⟩ | ⟨different, kept⟩
    · cases moved.symm.trans otherWaits
    · have before := kept.symm.trans otherWaits
      refine ⟨before, ?_⟩
      rintro rfl
      obtain ⟨_, otherSubmission, otherMember, otherOwner⟩ :=
        shared.submitted other otherRank before
      rw [member] at otherMember
      cases otherMember
      exact different (otherOwner.symm.trans owner)
  have counted := countP_set_none present
  have length : (communicator.state.outputs.set rank none).length =
      devices.length := by
    rw [List.length_set]
    exact invariant.outputsLength
  refine ⟨invariant.healthy, ?_, ?_, ?_, ?_, ?_, ?_, ?_, ?_, invariant.distinct, ?_⟩
  · intro other
    rcases setCall_cases communicator call (.returned rank output) other
        with ⟨_, moved⟩ | ⟨_, kept⟩
    · exact fun panics => by cases moved.symm.trans panics
    · exact fun panics => invariant.calm other (kept.symm.trans panics)
  · cases departed <;> exact invariant.inputsLength
  · cases departed <;> exact length
  · intro collecting
    cases departed with
    | more left => exact absurd (ready.symm.trans collecting) (by simp)
    | last left =>
        have all := eq_replicate_of_countP length (by rw [counted, ← shared.departed, left])
        refine ⟨all, rfl, ?_, ?_, ?_⟩
        · change 0 = communicator.state.inputs.countP Option.isSome
          rw [shared.inputs, List.countP_replicate]
          simp
        · change 0 < devices.length
          omega
        · intro other otherRank otherWaits
          obtain ⟨before, apart⟩ := elsewhere other otherRank otherWaits
          obtain ⟨⟨untaken, found⟩, _⟩ := shared.submitted other otherRank before
          have kept := getElem?_set_none.mpr ⟨apart, found⟩
          rw [all, List.getElem?_replicate] at kept
          split at kept <;> cases kept
  · intro handing
    cases departed with
    | last left => cases handing
    | more left =>
        refine ⟨generation, shared.last, shared.inputs, shared.arrived, ?_, left, ?_, ?_⟩
        · change communicator.state.departed + 1 = _
          rw [shared.departed]
          exact counted.symm
        · intro otherRank untaken found
          exact shared.outputs otherRank untaken (getElem?_set_none.mp found).2
        · intro other otherRank otherWaits
          obtain ⟨before, apart⟩ := elsewhere other otherRank otherWaits
          obtain ⟨⟨untaken, found⟩, named⟩ := shared.submitted other otherRank before
          exact ⟨⟨untaken, getElem?_set_none.mpr ⟨apart, found⟩⟩, named⟩
  · intro otherRank other found
    have empty : communicator.state.inputs[otherRank]? = some (some other) := by
      cases departed <;> exact found
    rw [shared.inputs, List.getElem?_replicate] at empty
    split at empty <;> cases empty
  · rintro other otherRank (⟨operation, input, before⟩ | before)
    · rcases setCall_cases communicator call (.returned rank output) other
          with ⟨_, moved⟩ | ⟨_, kept⟩
      · cases moved.symm.trans before
      · exact invariant.inWorld other otherRank
          (Or.inl ⟨operation, input, kept.symm.trans before⟩)
    · exact invariant.inWorld other otherRank (Or.inr (elsewhere other otherRank before).1)
  · intro other otherLogged
    have formed := invariant.formed other otherLogged
    refine ⟨formed.full, formed.outputs, ?_⟩
    intro otherRank otherSubmission found
    rcases setCall_cases communicator call (.returned rank output)
        otherSubmission.call with ⟨same, moved⟩ | ⟨different, kept⟩
    · have sameGeneration : other = generation := invariant.generation_eq otherLogged logged
          (List.mem_map.mpr ⟨_, List.mem_of_getElem? found, same⟩)
          (List.mem_map.mpr ⟨_, List.mem_of_getElem? member, owner⟩)
      subst sameGeneration
      rcases formed.members otherRank otherSubmission found with
        ⟨_, before⟩ | ⟨result, before, _⟩
      · rw [same, waits] at before
        cases before
        exact Or.inr ⟨output, moved, given⟩
      · rw [same, waits] at before
        cases before
    · rcases formed.members otherRank otherSubmission found with
        ⟨_, before⟩ | ⟨result, before, taken⟩
      · have still := kept.trans before
        refine Or.inl ⟨?_, still⟩
        obtain ⟨_, apart⟩ := elsewhere _ _ still
        obtain ⟨⟨untaken, there⟩, _⟩ := shared.submitted _ _ before
        cases departed with
        | more left => exact ready
        | last left =>
            -- behind the last departure nothing is left to take
            have all := eq_replicate_of_countP length (by rw [counted, ← shared.departed, left])
            have remaining := getElem?_set_none.mpr ⟨apart, there⟩
            rw [all, List.getElem?_replicate] at remaining
            split at remaining <;> cases remaining
      · exact Or.inr ⟨result, kept.trans before, taken⟩
  · intro other otherRank result done inside
    rcases setCall_cases communicator call (.returned rank output) other
        with ⟨same, moved⟩ | ⟨_, kept⟩
    · cases moved.symm.trans done
      exact ⟨generation, logged, submission, member, owner.trans same.symm, given⟩
    · exact invariant.returned other otherRank result (kept.symm.trans done) inside

/-- The inputs behind a submission belong to the calls that wait. -/
structure Submitted
    (communicator :
      NativeCommunicator DeviceId Tensor Prepared Work Operation)
    (call rank : Nat)
    (inputs : List (Option (Submission Prepared Operation))) : Prop where
  length : inputs.length = communicator.state.inputs.length
  count : inputs.countP Option.isSome = communicator.state.arrived + 1
  owned : ∀ (other : Nat) submission, inputs[other]? = some (some submission) →
      (communicator.setCall call (.submitted rank)).calls submission.call = .submitted other
  waits : ∀ other otherRank, (communicator.setCall call (.submitted rank)).calls other =
        .submitted otherRank →
      ∃ submission, inputs[otherRank]? = some (some submission) ∧ submission.call = other

theorem Invariant.submitted (invariant : communicator.Invariant devices)
    (collecting : communicator.state.ready = false)
    {call rank : Nat} {operation : Operation}
    {input : Except String Prepared}
    (prepared : communicator.calls call = .prepared rank operation input)
    (free : communicator.state.inputs[rank]? = some none) :
    communicator.Submitted call rank
      (communicator.state.inputs.set rank (some ⟨operation, input, call⟩)) := by
  have shared := invariant.collecting collecting
  obtain ⟨inside, here⟩ := List.getElem?_eq_some_iff.mp free
  refine ⟨List.length_set, ?_, ?_, ?_⟩
  · rw [List.countP_set inside, here, shared.arrived]
    simp
  · intro other submission found
    rw [List.getElem?_set] at found
    by_cases same : rank = other
    · subst same
      rw [if_pos rfl, if_pos inside] at found
      cases found
      exact Function.update_self ..
    · rw [if_neg same] at found
      have owned := invariant.owned other submission found
      refine (Function.update_of_ne ?_ _ _).trans owned
      intro isCall
      rw [isCall, prepared] at owned
      cases owned
  · intro other otherRank otherWaits
    rcases setCall_cases communicator call (.submitted rank) other with
      ⟨isCall, moved⟩ | ⟨_, kept⟩
    · cases moved.symm.trans otherWaits
      refine ⟨⟨operation, input, call⟩, ?_, isCall.symm⟩
      rw [List.getElem?_set, if_pos rfl, if_pos inside]
    · obtain ⟨submission, found, owner⟩ :=
        shared.submitted other otherRank (kept.symm.trans otherWaits)
      refine ⟨submission, ?_, owner⟩
      rw [List.getElem?_set, if_neg]
      · exact found
      · rintro rfl
        rw [free] at found
        cases found

/-- Facts that a submission leaves alone, whatever becomes of the state. -/
theorem Invariant.submit_calls (invariant : communicator.Invariant devices)
    {call rank : Nat} {operation : Operation}
    {input : Except String Prepared}
    (prepared : communicator.calls call = .prepared rank operation input) :
    (∀ other, (communicator.setCall call (.submitted rank)).calls other ≠ .panicked) ∧
      (∀ other otherRank,
        (∃ operation input, (communicator.setCall call (.submitted rank)).calls other =
              .prepared otherRank operation input) ∨
          (communicator.setCall call (.submitted rank)).calls other = .submitted otherRank →
          otherRank < devices.length) ∧
      (∀ other otherRank result, (communicator.setCall call (.submitted rank)).calls other =
            .returned otherRank result →
          communicator.calls other = .returned otherRank result) ∧
      (∀ other otherRank result, communicator.calls other = .returned otherRank result →
          (communicator.setCall call (.submitted rank)).calls other =
            .returned otherRank result) := by
  refine ⟨?_, ?_, ?_, ?_⟩
  · intro other panics
    rcases setCall_cases communicator call (.submitted rank) other with
      ⟨_, moved⟩ | ⟨_, kept⟩
    · cases moved.symm.trans panics
    · exact invariant.calm other (kept.symm.trans panics)
  · intro other otherRank phase
    rcases setCall_cases communicator call (.submitted rank) other with
      ⟨isCall, moved⟩ | ⟨_, kept⟩
    · rw [moved] at phase
      rcases phase with ⟨_, _, impossible⟩ | same
      · cases impossible
      · cases same
        exact invariant.inWorld call rank (Or.inl ⟨operation, input, prepared⟩)
    · rw [kept] at phase
      exact invariant.inWorld other otherRank phase
  · intro other otherRank result done
    rcases setCall_cases communicator call (.submitted rank) other with
      ⟨_, moved⟩ | ⟨_, kept⟩
    · cases moved.symm.trans done
    · exact kept.symm.trans done
  · intro other otherRank result done
    refine (Function.update_of_ne ?_ _ _).trans done
    rintro rfl
    rw [prepared] at done
    cases done

/-- Logged calls are done while a generation collects. -/
theorem Invariant.formed_returned (invariant : communicator.Invariant devices)
    (collecting : communicator.state.ready = false)
    {generation : Generation DeviceId Tensor Prepared Work Operation}
    (logged : generation ∈ communicator.generations) {rank : Nat}
    {submission : Submission Prepared Operation}
    (found : generation.submissions[rank]? = some submission) :
    ∃ result, communicator.calls submission.call = .returned rank result ∧
      generation.outputs[rank]? = some result := by
  rcases (invariant.formed generation logged).members rank submission found with ⟨ready, _⟩ | done
  · rw [collecting] at ready
    cases ready
  · exact done

theorem Invariant.submit (invariant : communicator.Invariant devices)
    (collecting : communicator.state.ready = false)
    {call rank : Nat} {operation : Operation}
    {input : Except String Prepared}
    (prepared : communicator.calls call = .prepared rank operation input)
    (free : communicator.state.inputs[rank]? = some none)
    (more : communicator.state.arrived + 1 ≠ devices.length) :
    Invariant devices
      { communicator.setCall call (.submitted rank) with
        state :=
          { communicator.state with
            inputs := communicator.state.inputs.set rank (some ⟨operation, input, call⟩)
            arrived := communicator.state.arrived + 1 } } := by
  have shared := invariant.collecting collecting
  have submitted := invariant.submitted collecting prepared free
  obtain ⟨calm, inWorld, doneBefore, stillDone⟩ := invariant.submit_calls prepared
  refine ⟨invariant.healthy, calm, submitted.length.trans invariant.inputsLength,
    invariant.outputsLength, ?_, ?_, submitted.owned, inWorld, ?_,
    invariant.distinct, ?_⟩
  · intro _
    have unfilled := shared.unfilled
    exact ⟨shared.outputs, shared.departed, submitted.count.symm,
      by change communicator.state.arrived + 1 < _; omega,
      submitted.waits⟩
  · intro ready
    exact absurd (collecting.symm.trans ready) (by simp)
  · intro generation logged
    have formed := invariant.formed generation logged
    refine ⟨formed.full, formed.outputs, ?_⟩
    intro otherRank submission found
    obtain ⟨result, done, given⟩ := invariant.formed_returned collecting logged found
    exact Or.inr ⟨result, stillDone _ _ _ done, given⟩
  · intro other otherRank result done inside
    exact invariant.returned other otherRank result
      (doneBefore other otherRank result done) inside

/-- The last submission of a generation, before its caller takes an output. -/
theorem Invariant.fill (invariant : communicator.Invariant devices)
    (collecting : communicator.state.ready = false)
    {call rank : Nat} {operation : Operation}
    {input : Except String Prepared}
    (prepared : communicator.calls call = .prepared rank operation input)
    (free : communicator.state.inputs[rank]? = some none)
    {device :
      NativeCollectiveDevice DeviceId Tensor Prepared Work Operation}
    {first : Submission Prepared Operation}
    {rest : List (Submission Prepared Operation)}
    (taken : communicator.state.inputs.set rank
        (some ⟨operation, input, call⟩) = (first :: rest).map some)
    {outputs : List (Except String Tensor)}
    (settled : outputs = distribute devices.length
      (runGeneration device devices first.operation (first :: rest))) :
    Invariant devices
      { communicator.setCall call (.submitted rank) with
        state :=
          { inputs := List.replicate devices.length none
            outputs := outputs.map some
            arrived := devices.length
            departed := communicator.state.departed
            ready := true }
        generations := communicator.generations ++ [⟨device, first :: rest, outputs⟩] } := by
  have shared := invariant.collecting collecting
  have submitted := invariant.submitted collecting prepared free
  rw [taken] at submitted
  obtain ⟨calm, inWorld, doneBefore, stillDone⟩ := invariant.submit_calls prepared
  have full : (first :: rest).length = devices.length := by
    have length := submitted.length.trans invariant.inputsLength
    simpa using length
  have positive : 0 < devices.length := by
    rw [← full]
    simp
  have outputsLength : outputs.length = devices.length := by
    rw [settled, length_distribute]
  have owned : ∀ (other : Nat) submission, (first :: rest)[other]? = some submission →
        (communicator.setCall call (.submitted rank)).calls
          submission.call = .submitted other := by
    intro other submission found
    refine submitted.owned other submission ?_
    rw [List.getElem?_map, found]
    rfl
  have waits : ∀ other otherRank, (communicator.setCall call (.submitted rank)).calls other =
          .submitted otherRank →
        ∃ submission, (first :: rest)[otherRank]? = some submission ∧
          submission.call = other := by
    intro other otherRank otherWaits
    obtain ⟨submission, found, owner⟩ := submitted.waits other otherRank otherWaits
    rw [List.getElem?_map, Option.map_eq_some_iff] at found
    obtain ⟨same, found, equal⟩ := found
    rw [Option.some.injEq] at equal
    subst equal
    exact ⟨same, found, owner⟩
  refine ⟨invariant.healthy, calm, List.length_replicate, ?_, ?_, ?_, ?_, inWorld, ?_, ?_, ?_⟩
  · change (outputs.map some).length = _
    rw [List.length_map]
    exact outputsLength
  · intro impossible
    cases impossible
  · intro _
    refine ⟨_, List.getLast?_concat .., rfl, rfl, ?_, ?_, ?_, ?_⟩
    · change communicator.state.departed = _
      rw [shared.departed, eq_comm, List.countP_eq_zero]
      intro output member
      obtain ⟨given, _, rfl⟩ := List.mem_map.mp member
      simp
    · change communicator.state.departed < _
      rw [shared.departed]
      exact positive
    · intro other output found
      rw [List.getElem?_map, Option.map_eq_some_iff] at found
      obtain ⟨same, found, equal⟩ := found
      cases equal
      exact found
    · intro other otherRank otherWaits
      refine ⟨?_, waits other otherRank otherWaits⟩
      have inside := inWorld other otherRank (Or.inr otherWaits)
      rw [← outputsLength] at inside
      refine ⟨outputs[otherRank], ?_⟩
      change (outputs.map some)[otherRank]? = _
      rw [List.getElem?_map, List.getElem?_eq_getElem inside]
      rfl
  · intro other submission found
    rw [List.getElem?_replicate] at found
    split at found <;> cases found
  · intro generation logged
    rcases List.mem_append.mp logged with earlier | new
    · have formed := invariant.formed generation earlier
      refine ⟨formed.full, formed.outputs, ?_⟩
      intro otherRank submission found
      obtain ⟨result, done, given⟩ := invariant.formed_returned collecting earlier found
      exact Or.inr ⟨result, stillDone _ _ _ done, given⟩
    · rw [List.mem_singleton] at new
      subst new
      exact ⟨full, ⟨first, rfl, settled⟩, fun otherRank submission found =>
        Or.inl ⟨rfl, owned otherRank submission found⟩⟩
  · change (List.flatMap _ (_ ++ [_])).Nodup
    rw [List.flatMap_append, List.flatMap_singleton, List.nodup_append]
    refine ⟨invariant.distinct, ?_, ?_⟩
    · -- members of one generation wait at different ranks
      rw [List.nodup_iff_injective_getElem]
      intro left right same
      have leftInside : left.val < (first :: rest).length := by
        simpa using left.isLt
      have rightInside : right.val < (first :: rest).length := by
        simpa using right.isLt
      have leftWaits := owned left _ (List.getElem?_eq_getElem leftInside)
      have rightWaits := owned right _ (List.getElem?_eq_getElem rightInside)
      simp only [List.getElem_map] at same
      rw [same, rightWaits] at leftWaits
      injection leftWaits with sameRank
      exact Fin.ext sameRank.symm
    · intro earlier logged new member same
      subst same
      obtain ⟨generation, listed, otherRank, submission, found, rfl⟩ := mem_members_iff.mp logged
      obtain ⟨result, done, _⟩ := invariant.formed_returned collecting listed found
      obtain ⟨newSubmission, isNew, sameCall⟩ := List.mem_map.mp member
      obtain ⟨newRank, here⟩ := List.mem_iff_getElem?.mp isNew
      have still := stillDone _ _ _ done
      have newWaits := owned newRank newSubmission here
      rw [sameCall, still] at newWaits
      cases newWaits
  · intro other otherRank result done inside
    obtain ⟨generation, logged, found⟩ := invariant.returned other otherRank result
        (doneBefore other otherRank result done) inside
    exact ⟨generation, List.mem_append_left _ logged, found⟩

/-- With every slot filled the submissions are taken out in rank order. -/
theorem mapM_id_eq_some {α : Type} {entries : List (Option α)}
    (all : ∀ entry ∈ entries, entry.isSome = true) :
    ∃ values, entries.mapM id = some values ∧ entries = values.map some := by
  induction entries with
  | nil => exact ⟨[], rfl, rfl⟩
  | cons entry rest ih =>
      obtain ⟨values, taken, same⟩ := ih
        (fun other member => all other (List.mem_cons_of_mem _ member))
      obtain ⟨value, rfl⟩ := Option.isSome_iff_exists.mp (all entry List.mem_cons_self)
      refine ⟨value :: values, ?_, ?_⟩
      · rw [List.mapM_cons, taken]
        rfl
      · rw [List.map_cons, ← same]

theorem Invariant.submitStep (invariant : communicator.Invariant devices)
    {device :
      NativeCollectiveDevice DeviceId Tensor Prepared Work Operation}
    {call : Nat}
    (stepped : communicator.submitStep devices device call = some next) :
    next.Invariant devices := by
  unfold NativeCommunicator.submitStep at stepped
  split at stepped
  case h_2 => cases stepped
  case h_1 rank operation input prepared =>
    have sound : ¬communicator.poisoned = true := by
      simp [invariant.healthy]
    rw [if_neg sound] at stepped
    dsimp only at stepped
    split at stepped
    case h_2 => cases stepped
    case h_1 collecting free =>
      split at stepped
      case isFalse more =>
        cases stepped
        exact invariant.submit collecting prepared free more
      case isTrue last =>
        have submitted := invariant.submitted collecting prepared free
        have all := List.countP_eq_length.mp
          (submitted.count.trans (last.trans
            (submitted.length.trans invariant.inputsLength).symm))
        obtain ⟨submissions, taken, filled⟩ := mapM_id_eq_some all
        rw [taken] at stepped
        cases submissions with
        | nil =>
            have empty := submitted.length
            rw [filled] at empty
            have inside := (List.getElem?_eq_some_iff.mp free).1
            rw [← empty] at inside
            cases inside
        | cons first rest =>
            rw [Option.some.injEq] at stepped
            have ready := invariant.fill collecting prepared free filled
              (rfl : distribute devices.length (runGeneration device devices
                first.operation (first :: rest)) = _)
            have waits :
                (communicator.setCall call (.submitted rank)).calls call =
                  .submitted rank :=
              Function.update_self ..
            have left := ready.depart rfl waits
            rw [← stepped, last, ← depart_setCall (.submitted rank)]
            exact left

theorem Invariant.collectStep (invariant : communicator.Invariant devices) {call : Nat}
    (stepped : communicator.collectStep devices call = some next) :
    next.Invariant devices := by
  unfold NativeCommunicator.collectStep at stepped
  split at stepped
  case h_2 => cases stepped
  case h_1 rank waits =>
    have sound : ¬communicator.poisoned = true := by
      simp [invariant.healthy]
    rw [if_neg sound] at stepped
    split at stepped
    case isFalse => cases stepped
    case isTrue ready =>
      cases stepped
      exact invariant.depart ready waits

theorem Invariant.step (invariant : communicator.Invariant devices)
    {action : NativeAction DeviceId Tensor Prepared Work Operation}
    (stepped : nativeStep devices communicator action = some next) :
    next.Invariant devices := by
  cases action with
  | enter device call rank tensor operation => exact invariant.enterStep stepped
  | submit device call => exact invariant.submitStep stepped
  | collect call => exact invariant.collectStep stepped

/-! ## The guarantee -/

theorem Invariant.new [DecidableEq DeviceId]
    (created : NativeCommunicator.new devices = .ok communicator) :
    communicator.Invariant devices := by
  unfold NativeCommunicator.new at created
  split at created
  case isTrue => cases created
  case isFalse accepted =>
    rw [not_or] at accepted
    cases created
    refine ⟨rfl, by simp, List.length_replicate, List.length_replicate,
      ?_, by simp [NativeState.initial], ?_, by simp, by simp,
      List.nodup_nil, by simp⟩
    · intro _
      refine ⟨rfl, rfl, ?_, List.length_pos_iff.mpr accepted.1, by simp⟩
      simp [NativeState.initial, List.countP_replicate]
    · intro rank submission found
      rw [NativeState.initial, List.getElem?_replicate] at found
      split at found <;> cases found

/-- Nothing of an earlier generation is left when a new one starts. -/
theorem Invariant.state_eq_initial (invariant : communicator.Invariant devices)
    (collecting : communicator.state.ready = false)
    (unused : communicator.state.arrived = 0) :
    communicator.state = .initial devices.length := by
  have shared := invariant.collecting collecting
  have missing := List.countP_eq_zero.mp (shared.arrived.symm.trans unused)
  have empty : communicator.state.inputs =
      List.replicate devices.length none := by
    rw [List.eq_replicate_iff]
    refine ⟨invariant.inputsLength, ?_⟩
    intro entry member
    simpa using missing entry member
  cases state : communicator.state with
  | mk inputs outputs arrived departed ready =>
      rw [state] at collecting unused empty
      have outputsEmpty := shared.outputs
      have noneLeft := shared.departed
      rw [state] at outputsEmpty noneLeft
      cases collecting
      cases unused
      cases empty
      cases outputsEmpty
      cases noneLeft
      rfl

/-- The last departure leaves the state of a new communicator. -/
theorem Invariant.reset (invariant : communicator.Invariant devices)
    {action : NativeAction DeviceId Tensor Prepared Work Operation}
    (stepped : nativeStep devices communicator action = some next)
    (ready : communicator.state.ready = true)
    (ended : next.state.ready = false) :
    next.state = .initial devices.length := by
  refine (invariant.step stepped).state_eq_initial ended ?_
  cases action with
  | enter device call rank tensor operation =>
      rw [nativeStep, NativeCommunicator.enterStep] at stepped
      have kept : next.state = communicator.state := by
        split at stepped
        case h_2 => cases stepped
        case h_1 => split at stepped <;> cases stepped <;> rfl
      rw [kept, ready] at ended
      cases ended
  | submit device call =>
      rw [nativeStep, NativeCommunicator.submitStep] at stepped
      split at stepped
      case h_2 => cases stepped
      case h_1 rank operation input prepared =>
        have sound : ¬communicator.poisoned = true := by
          simp [invariant.healthy]
        rw [if_neg sound] at stepped
        dsimp only at stepped
        split at stepped
        case h_1 collecting _ =>
          rw [ready] at collecting
          cases collecting
        case h_2 => cases stepped
  | collect call =>
      rw [nativeStep, NativeCommunicator.collectStep] at stepped
      split at stepped
      case h_2 => cases stepped
      case h_1 rank waits =>
        have sound : ¬communicator.poisoned = true := by
          simp [invariant.healthy]
        rw [if_neg sound, if_pos ready, Option.some.injEq] at stepped
        obtain ⟨generation, shared⟩ := invariant.handingOut ready
        obtain ⟨⟨output, present⟩, _⟩ := shared.submitted call rank waits
        obtain ⟨state, departed, equal⟩ := depart_eq call present shared.left
        rw [← stepped, equal] at ended ⊢
        cases departed with
        | more left => exact absurd (ready.symm.trans ended) (by simp)
        | last left => rfl

end Invariant

end NativeCommunicator

section Outcome

variable [DecidableEq Operation] {devices : List DeviceId}

/-- The ranks disagree on the operation, a tensor could not be prepared, the
collective fails or panics, or it returns a wrong number of outputs. -/
def Generation.Fails (devices : List DeviceId)
    (generation : Generation DeviceId Tensor Prepared Work Operation) : Prop :=
  (∃ left ∈ generation.submissions, ∃ right ∈ generation.submissions,
      left.operation ≠ right.operation) ∨
    (∃ submission ∈ generation.submissions, ∃ text, submission.prepared = .error text) ∨
    ∃ operation inputs,
      (∀ submission ∈ generation.submissions, submission.operation = operation) ∧
      generation.submissions.map Submission.prepared = inputs.map .ok ∧
      ∀ outputs, ringAllReduce generation.device devices inputs operation =
        .ok outputs → outputs.length ≠ devices.length

/-- Every rank gets its output of the collective over all inputs. -/
def Generation.Succeeds (devices : List DeviceId)
    (generation : Generation DeviceId Tensor Prepared Work Operation) : Prop :=
  ∃ operation inputs outputs,
    (∀ submission ∈ generation.submissions, submission.operation = operation) ∧
    generation.submissions.map Submission.prepared = inputs.map .ok ∧
    ringAllReduce generation.device devices inputs operation = .ok outputs ∧
    outputs.length = devices.length ∧
    generation.outputs = outputs.map .ok

/-- The members all get the same error. -/
def Generation.SharesError (devices : List DeviceId)
    (generation : Generation DeviceId Tensor Prepared Work Operation) : Prop :=
  ∃ text, generation.outputs = List.replicate devices.length (.error text)

theorem NativeCommunicator.Formed.outcome
    {communicator :
      NativeCommunicator DeviceId Tensor Prepared Work Operation}
    {generation : Generation DeviceId Tensor Prepared Work Operation}
    (formed : communicator.Formed devices generation) :
    (generation.Fails devices ∧ generation.SharesError devices) ∨
      (¬generation.Fails devices ∧ generation.Succeeds devices) := by
  obtain ⟨first, head, settled⟩ := formed.outputs
  have firstMember : first ∈ generation.submissions := List.mem_of_mem_head? head
  unfold runGeneration at settled
  split at settled
  case isTrue differs =>
    rw [List.any_eq_true] at differs
    obtain ⟨entry, member, different⟩ := differs
    refine Or.inl ⟨Or.inl ⟨entry, member, first, firstMember, ?_⟩, _, settled⟩
    simpa using different
  case isFalse same =>
    have agreed : ∀ entry ∈ generation.submissions, entry.operation = first.operation := by
      intro entry member
      by_contra different
      exact same (List.any_eq_true.mpr ⟨entry, member, by
        simpa using different⟩)
    cases prepared : generation.submissions.mapM Submission.prepared with
    | error text =>
        rw [prepared] at settled
        obtain ⟨entry, member, failed⟩ := mapM_eq_error prepared
        exact Or.inl ⟨Or.inr (Or.inl ⟨entry, member, text, failed⟩), text, settled⟩
    | ok inputs =>
        rw [prepared, ok_bind] at settled
        have ready := mapM_eq_ok_iff.mp prepared
        cases ran : ringAllReduce generation.device devices inputs first.operation with
        | error fault =>
            rw [ran] at settled
            refine Or.inl ⟨Or.inr (Or.inr ⟨first.operation, inputs, agreed,
              ready, by simp [ran]⟩), ?_⟩
            cases fault with
            | error text => exact ⟨text, settled⟩
            | panic => exact ⟨_, settled⟩
        | ok outputs =>
            rw [ran, orText, distribute] at settled
            by_cases full : outputs.length = devices.length
            · rw [if_pos full] at settled
              refine Or.inr ⟨?_, first.operation, inputs, outputs, agreed,
                ready, ran, full, settled⟩
              rintro (⟨left, leftIn, right, rightIn, different⟩ | ⟨entry, member, text, failed⟩ |
                ⟨operation, others, agree, sameInputs, wrong⟩)
              · exact different ((agreed left leftIn).trans (agreed right rightIn).symm)
              · have mapped : Except.error text ∈
                    generation.submissions.map Submission.prepared :=
                  List.mem_map.mpr ⟨entry, member, failed⟩
                rw [ready] at mapped
                obtain ⟨value, _, impossible⟩ := List.mem_map.mp mapped
                cases impossible
              · have sameOperation := agree first firstMember
                subst sameOperation
                have sameList := ready.symm.trans sameInputs
                have injective : Function.Injective
                    (Except.ok : Prepared → Except String Prepared) :=
                  fun left right equal => Except.ok.inj equal
                have equal := List.map_injective_iff.mpr injective sameList
                subst equal
                exact wrong outputs ran full
            · rw [if_neg full] at settled
              refine Or.inl ⟨Or.inr (Or.inr ⟨first.operation, inputs,
                agreed, ready, ?_⟩), _, settled⟩
              intro others again
              rw [ran] at again
              cases again
              exact full

variable
  {initial communicator :
    NativeCommunicator DeviceId Tensor Prepared Work Operation}

/-- The call at a rank of a generation. -/
def Generation.callAt (generation : Generation DeviceId Tensor Prepared Work Operation)
    (rank : Nat) : Option Nat :=
  generation.submissions[rank]?.map Submission.call

/-- A call stands for a rank once it has submitted. -/
def NativeCall.participates (phase : NativeCall Tensor Prepared Operation) (rank : Nat) : Prop :=
  phase = .submitted rank ∨ ∃ result, phase = .returned rank result

omit [DecidableEq Operation] in
theorem callAt_eq_some_iff {generation : Generation DeviceId Tensor Prepared Work Operation}
    {rank call : Nat} :
    generation.callAt rank = some call ↔
      ∃ submission, generation.submissions[rank]? = some submission ∧ submission.call = call := by
  rw [Generation.callAt, Option.map_eq_some_iff]

theorem native_rendezvous [DecidableEq DeviceId]
    (created : NativeCommunicator.new devices = .ok initial)
    (reached : Reachable (nativeStep devices) initial communicator) :
    communicator.poisoned = false ∧ (∀ call, communicator.calls call ≠ .panicked) ∧
      (communicator.state.ready = false → communicator.state.arrived =
            communicator.state.inputs.countP Option.isSome ∧
          communicator.state.departed = 0) ∧
      (communicator.state.ready = true → communicator.state.departed =
            communicator.state.outputs.countP Option.isNone ∧
          communicator.state.arrived = devices.length) ∧
      (∀ call rank result, communicator.calls call = .returned rank result →
          rank < devices.length → ∃ generation ∈ communicator.generations,
              generation.callAt rank = some call ∧ generation.outputs[rank]? = some result ∧
                ∀ other ∈ communicator.generations, ∀ otherRank,
                  other.callAt otherRank = some call → other = generation ∧ otherRank = rank) ∧
      (∀ generation ∈ communicator.generations,
        (∀ rank, rank < devices.length ↔ ∃ call, generation.callAt rank = some call) ∧
        (∀ rank call, generation.callAt rank = some call →
          (communicator.calls call).participates rank) ∧
        ((generation.Fails devices ∧ generation.SharesError devices) ∨
          (¬generation.Fails devices ∧ generation.Succeeds devices))) ∧
      communicator.members.Nodup ∧
      (communicator.state.ready = false → communicator.state.arrived = 0 →
          communicator.state = .initial devices.length) ∧
      (∀ action next, nativeStep devices communicator action = some next →
          communicator.state.ready = true → next.state.ready = false →
            next.state = .initial devices.length) := by
  have invariant : communicator.Invariant devices :=
    reached.invariant (NativeCommunicator.Invariant.new created)
      fun _ _ _ before _ stepped => before.step stepped
  have participants : ∀ generation ∈ communicator.generations,
      ∀ rank call, generation.callAt rank = some call →
        (communicator.calls call).participates rank := by
    intro generation logged rank call member
    obtain ⟨submission, found, rfl⟩ := callAt_eq_some_iff.mp member
    rcases (invariant.formed generation logged).members rank submission
        found with ⟨_, waits⟩ | ⟨result, done, _⟩
    · exact Or.inl waits
    · exact Or.inr ⟨result, done⟩
  refine ⟨invariant.healthy, invariant.calm, ?_, ?_, ?_, ?_,
    invariant.distinct, invariant.state_eq_initial, ?_⟩
  · intro collecting
    have shared := invariant.collecting collecting
    exact ⟨shared.arrived, shared.departed⟩
  · intro ready
    obtain ⟨generation, shared⟩ := invariant.handingOut ready
    exact ⟨shared.departed, shared.arrived⟩
  · intro call rank result done inside
    obtain ⟨generation, logged, submission, found, owner, given⟩ :=
      invariant.returned call rank result done inside
    refine ⟨generation, logged, callAt_eq_some_iff.mpr ⟨submission, found, owner⟩, given, ?_⟩
    intro other otherLogged otherRank member
    have phase := participants other otherLogged otherRank call member
    obtain ⟨otherSubmission, otherFound, otherOwner⟩ := callAt_eq_some_iff.mp member
    refine ⟨invariant.generation_eq otherLogged logged
      (List.mem_map.mpr ⟨_, List.mem_of_getElem? otherFound, otherOwner⟩)
      (List.mem_map.mpr ⟨_, List.mem_of_getElem? found, owner⟩), ?_⟩
    rw [done] at phase
    rcases phase with impossible | ⟨otherResult, same⟩
    · cases impossible
    · cases same
      rfl
  · intro generation logged
    have formed := invariant.formed generation logged
    refine ⟨?_, participants generation logged, formed.outcome⟩
    intro rank
    rw [← formed.full]
    constructor
    · intro inside
      exact ⟨_, callAt_eq_some_iff.mpr ⟨_, List.getElem?_eq_getElem inside, rfl⟩⟩
    · rintro ⟨call, member⟩
      obtain ⟨submission, found, _⟩ := callAt_eq_some_iff.mp member
      exact (List.getElem?_eq_some_iff.mp found).1
  · intro action next stepped
    exact invariant.reset stepped

end Outcome

/-- A device whose tensors are numbers and whose collective adds them up. -/
def addingDevice : NativeCollectiveDevice Nat Nat Nat (List Nat) Bool where
  prepare := fun tensor _ => .ok tensor
  begin := fun _ inputs => .ok inputs
  elements := fun _ => .ok 1
  exchange := fun work _ _ => .ok work
  finish := fun work _ => .ok (work.map fun _ => work.sum)

/-- Two ranks meet; rank 0 enters again before rank 1 has its output. -/
def reentryRun : List (NativeAction Nat Nat Nat (List Nat) Bool) :=
  [.enter addingDevice 0 0 3 true, .enter addingDevice 1 1 4 true,
    .submit addingDevice 1, .submit addingDevice 0,
    .enter addingDevice 2 0 5 true, .collect 1, .submit addingDevice 2]

/-- Two devices before their first call. -/
def pairCommunicator : NativeCommunicator Nat Nat Nat (List Nat) Bool where
  state := .initial 2
  poisoned := false
  calls := fun _ => .idle
  generations := []

/-- The sum that a call returned. -/
def NativeCall.sum? {Prepared Operation : Type} :
    NativeCall Nat Prepared Operation → Option Nat
  | .returned _ (.ok value) => some value
  | _ => none

theorem native_rendezvous_reentry :
    ∃ communicator, Reachable (nativeStep [10, 11]) pairCommunicator communicator ∧
      (communicator.calls 0).sum? = some 7 ∧
      (communicator.calls 1).sum? = some 7 ∧
      communicator.state.arrived = 1 ∧
      communicator.poisoned = false ∧
      communicator.members.Nodup := by
  have finished : (follow (nativeStep [10, 11]) (fun _ _ => True)
      pairCommunicator reentryRun).map (fun final =>
        ((final.calls 0).sum?, (final.calls 1).sum?,
          final.state.arrived)) = some (some 7, some 7, 1) := by
    decide
  rw [Option.map_eq_some_iff] at finished
  obtain ⟨communicator, followed, values⟩ := finished
  have reached := Reached.of_follow .start followed
  rw [Prod.mk.injEq, Prod.mk.injEq] at values
  have guaranteed := native_rendezvous
    (rfl : NativeCommunicator.new [10, 11] = .ok pairCommunicator) reached
  exact ⟨communicator, reached, values.1, values.2.1, values.2.2,
    guaranteed.1, guaranteed.2.2.2.2.2.2.1⟩

end RuCCL.InProcess
