import RuCCL.Rank.Protocol
import Mathlib.Data.List.GetD
import Mathlib.Data.List.ReduceOption
import Mathlib.Logic.Function.Basic

/-!
# Sequence agreement of the coordinator

The coordinator records one descriptor per rank for the current sequence and
moves on when every rank submitted the same one.  The ordered map of pending
sequences is a partial function here, and a submission returns the new state
beside its result because a rejected call has already touched the map.
-/

namespace RuCCL.Rank

open RuCCL.Library

structure CollectiveAgreement where
  worldSize : Nat
  nextSequence : UInt64
  pending : UInt64 → Option (List (Option OperationDescriptor))

namespace CollectiveAgreement

def new (worldSize : Nat) : Except ProtocolError CollectiveAgreement :=
  if worldSize = 0 then .error .emptyWorld
  else .ok { worldSize := worldSize, nextSequence := 0, pending := fun _ => none }

/-- The entry of `sequence`, created on first use. -/
def entryRanks (agreement : CollectiveAgreement) (sequence : UInt64) :
    List (Option OperationDescriptor) :=
  (agreement.pending sequence).getD (List.replicate agreement.worldSize none)

def setPending (agreement : CollectiveAgreement) (sequence : UInt64)
    (ranks : Option (List (Option OperationDescriptor))) :
    CollectiveAgreement :=
  { agreement with
    pending := Function.update agreement.pending sequence ranks }

/-- The last part of a submission: store the descriptor and move on when no rank
is missing. -/
def record (agreement : CollectiveAgreement) (rank : Nat) (sequence : UInt64)
    (descriptor : OperationDescriptor) :
    CollectiveAgreement × Except ProtocolError Bool :=
  let ranks := (agreement.entryRanks sequence).set rank (some descriptor)
  if ranks.all Option.isSome then
    let removed := agreement.setPending sequence none
    if agreement.nextSequence.toNat + 1 < wordSize then
      ({ removed with nextSequence := agreement.nextSequence + 1 }, .ok true)
    else (removed, .error .sequenceOverflow)
  else (agreement.setPending sequence (some ranks), .ok false)

def submit (agreement : CollectiveAgreement) (rank : Nat) (sequence : UInt64)
    (descriptor : OperationDescriptor) :
    CollectiveAgreement × Except ProtocolError Bool :=
  if rank ≥ agreement.worldSize then
    (agreement, .error (.rankOutOfRange "source" (UInt32.ofNat rank)
      (UInt32.ofNat agreement.worldSize)))
  else if sequence ≠ agreement.nextSequence then
    (agreement, .error (.sequenceMismatch agreement.nextSequence sequence))
  else
    let ranks := agreement.entryRanks sequence
    let entered := agreement.setPending sequence (some ranks)
    if (ranks.getD rank none).isSome then
      (entered, .error (.duplicateSubmission rank sequence))
    else
      match ranks.reduceOption.head? with
      | some expected =>
          if expected ≠ descriptor then
            (entered, .error (.collectiveMismatch sequence expected descriptor))
          else entered.record rank sequence descriptor
      | none => entered.record rank sequence descriptor

end CollectiveAgreement

/-- One call of `submit`. -/
structure Submission where
  rank : Nat
  sequence : UInt64
  descriptor : OperationDescriptor
  deriving DecidableEq

namespace CollectiveAgreement

def submitCall (agreement : CollectiveAgreement) (call : Submission) :
    CollectiveAgreement × Except ProtocolError Bool :=
  agreement.submit call.rank call.sequence call.descriptor

/-- The state after a list of calls and each call with its result. -/
def run (agreement : CollectiveAgreement) :
    List Submission → CollectiveAgreement × List (Submission × Except ProtocolError Bool)
  | [] => (agreement, [])
  | call :: rest =>
      let next := agreement.submitCall call
      let final := next.1.run rest
      (final.1, (call, next.2) :: final.2)

end CollectiveAgreement

/-- The calls of a log that were accepted. -/
def acceptedCalls (log : List (Submission × Except ProtocolError Bool)) :
    List Submission :=
  (log.filter fun entry =>
    match entry.2 with
    | .ok _ => true
    | .error _ => false).map Prod.fst

/-- The sequences that a log reports as ready. -/
def readySequences (log : List (Submission × Except ProtocolError Bool)) :
    List UInt64 :=
  (log.filter fun entry =>
    match entry.2 with
    | .ok ready => ready
    | .error _ => false).map fun entry => entry.1.sequence

/-- `call` is the missing one: its rank submitted nothing for its sequence yet
and every other rank was accepted with the same descriptor. -/
def Completes (worldSize : Nat) (accepted : List Submission) (call : Submission) :
    Prop :=
  call.rank < worldSize ∧
    (∀ earlier ∈ accepted, earlier.sequence = call.sequence → earlier.rank ≠ call.rank) ∧
    ∀ rank < worldSize, rank ≠ call.rank → { call with rank := rank } ∈ accepted

namespace CollectiveAgreement

/-- The descriptor recorded for a rank of the current sequence. -/
def recorded (agreement : CollectiveAgreement) (rank : Nat) :
    Option OperationDescriptor :=
  (agreement.entryRanks agreement.nextSequence).getD rank none

/-- The invariant of every reachable state. -/
structure Consistent (agreement : CollectiveAgreement) : Prop where
  onlyNext : ∀ sequence, agreement.pending sequence ≠ none → sequence = agreement.nextSequence
  width : (agreement.entryRanks agreement.nextSequence).length = agreement.worldSize
  agreed : ∀ left right leftDescriptor rightDescriptor,
    agreement.recorded left = some leftDescriptor →
    agreement.recorded right = some rightDescriptor →
    leftDescriptor = rightDescriptor

theorem mem_reduceOption_iff_getD (ranks : List (Option OperationDescriptor))
    (descriptor : OperationDescriptor) :
    descriptor ∈ ranks.reduceOption ↔ ∃ rank, ranks.getD rank none = some descriptor := by
  rw [List.reduceOption_mem_iff, List.mem_iff_getElem?]
  constructor
  · rintro ⟨rank, found⟩
    exact ⟨rank, by simp [List.getD, found]⟩
  · rintro ⟨rank, found⟩
    refine ⟨rank, ?_⟩
    rw [List.getD_eq_getElem?_getD] at found
    cases stored : ranks[rank]? with
    | none => simp [stored] at found
    | some value => simpa [stored] using found

/-- The first recorded descriptor speaks for all of them. -/
theorem head?_reduceOption_ne_iff
    {agreement : CollectiveAgreement} (consistent : agreement.Consistent)
    (descriptor : OperationDescriptor) :
    (∀ expected,
      (agreement.entryRanks agreement.nextSequence).reduceOption.head? = some expected →
        expected = descriptor) ↔
    ∀ rank stored, agreement.recorded rank = some stored → stored = descriptor := by
  constructor
  · intro heads rank stored found
    have member : stored ∈ (agreement.entryRanks agreement.nextSequence).reduceOption :=
      (mem_reduceOption_iff_getD _ _).mpr ⟨rank, found⟩
    cases entries :
        (agreement.entryRanks agreement.nextSequence).reduceOption with
    | nil =>
        rw [entries] at member
        cases member
    | cons first rest =>
        have firstMember : first ∈
            (agreement.entryRanks agreement.nextSequence).reduceOption := by
          rw [entries]
          exact List.mem_cons_self
        obtain ⟨other, otherFound⟩ := (mem_reduceOption_iff_getD _ _).mp firstMember
        rw [consistent.agreed rank other stored first found otherFound]
        exact heads first (by rw [entries]; rfl)
  · intro all expected head
    have member := List.mem_of_mem_head? head
    obtain ⟨rank, found⟩ := (mem_reduceOption_iff_getD _ _).mp member
    exact all rank expected found

/-- Creating the entry changes nothing once some rank is recorded. -/
theorem setPending_entryRanks_of_recorded {agreement : CollectiveAgreement} {rank : Nat}
    (found : agreement.recorded rank ≠ none) :
    agreement.setPending agreement.nextSequence
        (some (agreement.entryRanks agreement.nextSequence)) =
      agreement := by
  cases stored : agreement.pending agreement.nextSequence with
  | none =>
      exfalso
      apply found
      simp only [recorded, entryRanks, stored, Option.getD_none]
      rw [List.getD_eq_getElem?_getD, List.getElem?_replicate]
      split <;> rfl
  | some ranks =>
      have same : some (agreement.entryRanks agreement.nextSequence) =
          agreement.pending agreement.nextSequence := by
        simp [entryRanks, stored]
      unfold setPending
      rw [same, Function.update_eq_self]

/-- A call that passes every check of `submit`. -/
def Acceptable (agreement : CollectiveAgreement) (call : Submission) :
    Prop :=
  call.rank < agreement.worldSize ∧ call.sequence = agreement.nextSequence ∧
    agreement.recorded call.rank = none ∧
    ∀ rank stored, agreement.recorded rank = some stored → stored = call.descriptor

/-- Every rank but the caller's has recorded a descriptor. -/
def OthersRecorded (agreement : CollectiveAgreement) (rank : Nat) : Prop :=
  ∀ other < agreement.worldSize, other ≠ rank → agreement.recorded other ≠ none

/-- The entry after the caller's descriptor has been stored. -/
def storedRanks (agreement : CollectiveAgreement) (call : Submission) :
    List (Option OperationDescriptor) :=
  (agreement.entryRanks agreement.nextSequence).set call.rank (some call.descriptor)

theorem storedRanks_getD {agreement : CollectiveAgreement} (consistent : agreement.Consistent)
    {call : Submission} (inside : call.rank < agreement.worldSize)
    (rank : Nat) :
    (agreement.storedRanks call).getD rank none =
      if rank = call.rank then some call.descriptor
      else agreement.recorded rank := by
  have bound : call.rank < (agreement.entryRanks agreement.nextSequence).length := by
    rw [consistent.width]
    exact inside
  simp only [storedRanks, recorded, List.getD_eq_getElem?_getD, List.getElem?_set]
  by_cases same : rank = call.rank
  · subst same
    simp [bound]
  · simp [same, Ne.symm same]

theorem storedRanks_all_isSome_iff
    {agreement : CollectiveAgreement} (consistent : agreement.Consistent)
    {call : Submission} (inside : call.rank < agreement.worldSize) :
    (agreement.storedRanks call).all Option.isSome = true ↔
      agreement.OthersRecorded call.rank := by
  have width : (agreement.storedRanks call).length =
      agreement.worldSize := by
    rw [storedRanks, List.length_set, consistent.width]
  have values := storedRanks_getD consistent inside
  rw [List.all_eq_true]
  constructor
  · intro full other otherInside different missing
    have member : (agreement.storedRanks call).getD other none ∈
        agreement.storedRanks call := by
      rw [List.getD_eq_getElem _ _ (by rw [width]; exact otherInside)]
      exact List.getElem_mem _
    have present := full _ member
    rw [values other, if_neg different, missing] at present
    cases present
  · intro others entry member
    obtain ⟨rank, bound, rfl⟩ := List.mem_iff_getElem.mp member
    rw [← List.getD_eq_getElem _ none bound, values rank]
    by_cases same : rank = call.rank
    · simp [same]
    · rw [if_neg same]
      exact Option.isSome_iff_ne_none.mpr (others rank (by rw [← width]; exact bound) same)

/-- The state once the current sequence became ready. -/
def advanced (agreement : CollectiveAgreement) : CollectiveAgreement :=
  { agreement.setPending agreement.nextSequence none with
    nextSequence := agreement.nextSequence + 1 }

theorem record_eq (agreement : CollectiveAgreement) (call : Submission)
    (current : call.sequence = agreement.nextSequence) :
    (agreement.setPending call.sequence (some (agreement.entryRanks call.sequence))).record
          call.rank call.sequence call.descriptor =
      if (agreement.storedRanks call).all Option.isSome then
        if agreement.nextSequence.toNat + 1 < wordSize then
          (agreement.advanced, .ok true)
        else
          (agreement.setPending agreement.nextSequence none, .error .sequenceOverflow)
      else
        (agreement.setPending agreement.nextSequence
          (some (agreement.storedRanks call)), .ok false) := by
  simp [record, entryRanks, setPending, storedRanks, advanced, current]

/-- The outcomes of an accepted call. -/
def AcceptedOutcome (agreement : CollectiveAgreement) (call : Submission)
    (outcome : CollectiveAgreement × Except ProtocolError Bool) : Prop :=
  (agreement.OthersRecorded call.rank ∧ agreement.nextSequence.toNat + 1 < wordSize ∧
    outcome = (agreement.advanced, .ok true)) ∨
  (agreement.OthersRecorded call.rank ∧ ¬agreement.nextSequence.toNat + 1 < wordSize ∧
    outcome = (agreement.setPending agreement.nextSequence none, .error .sequenceOverflow)) ∨
  (¬agreement.OthersRecorded call.rank ∧
    outcome = (agreement.setPending agreement.nextSequence
      (some (agreement.storedRanks call)), .ok false))

theorem record_outcome {agreement : CollectiveAgreement} (consistent : agreement.Consistent)
    {call : Submission} (acceptable : agreement.Acceptable call) :
    agreement.AcceptedOutcome call
      ((agreement.setPending call.sequence (some (agreement.entryRanks call.sequence))).record
          call.rank call.sequence call.descriptor) := by
  obtain ⟨inside, current, _, _⟩ := acceptable
  have full := storedRanks_all_isSome_iff consistent inside
  rw [record_eq agreement call current]
  by_cases others : agreement.OthersRecorded call.rank
  · rw [if_pos (full.mpr others)]
    by_cases room : agreement.nextSequence.toNat + 1 < wordSize
    · rw [if_pos room]
      exact Or.inl ⟨others, room, rfl⟩
    · rw [if_neg room]
      exact Or.inr (Or.inl ⟨others, room, rfl⟩)
  · rw [if_neg (fun allSome => others (full.mp allSome))]
    exact Or.inr (Or.inr ⟨others, rfl⟩)

/-- A submission is either rejected without a trace or recorded. -/
theorem submitCall_cases {agreement : CollectiveAgreement} (consistent : agreement.Consistent)
    (call : Submission) :
    (∃ failure, failure ≠ .sequenceOverflow ∧
      agreement.submitCall call = (agreement, .error failure) ∧
      ¬agreement.Acceptable call) ∨
    (agreement.Acceptable call ∧ agreement.AcceptedOutcome call (agreement.submitCall call)) := by
  unfold submitCall submit
  by_cases outside : call.rank ≥ agreement.worldSize
  · rw [if_pos outside]
    refine Or.inl ⟨_, by simp, rfl, ?_⟩
    rintro ⟨inside, _⟩
    exact absurd inside (not_lt.mpr outside)
  rw [if_neg outside]
  by_cases stale : call.sequence ≠ agreement.nextSequence
  · rw [if_pos stale]
    refine Or.inl ⟨_, by simp, rfl, ?_⟩
    rintro ⟨_, current, _⟩
    exact stale current
  rw [if_neg stale]
  have inside : call.rank < agreement.worldSize := not_le.mp outside
  have current : call.sequence = agreement.nextSequence := not_not.mp stale
  have recordedEq :
      (agreement.entryRanks call.sequence).getD call.rank none =
        agreement.recorded call.rank := by
    rw [current]
    rfl
  simp only [recordedEq]
  by_cases duplicate : (agreement.recorded call.rank).isSome
  · rw [if_pos duplicate]
    have found := Option.isSome_iff_ne_none.mp duplicate
    refine Or.inl ⟨.duplicateSubmission call.rank call.sequence, by simp, ?_, ?_⟩
    · rw [current, setPending_entryRanks_of_recorded found]
    · rintro ⟨_, _, missing, _⟩
      exact found missing
  rw [if_neg duplicate]
  have missing : agreement.recorded call.rank = none := by
    simpa using duplicate
  have heads := head?_reduceOption_ne_iff consistent call.descriptor
  rw [← current] at heads
  cases head : (agreement.entryRanks call.sequence).reduceOption.head? with
  | none =>
      have acceptable : agreement.Acceptable call :=
        ⟨inside, current, missing, heads.mp (by simp [head])⟩
      exact Or.inr ⟨acceptable, record_outcome consistent acceptable⟩
  | some expected =>
      by_cases same : expected = call.descriptor
      · have acceptable : agreement.Acceptable call :=
          ⟨inside, current, missing, heads.mp (by simp [head, same])⟩
        simp only [same, ne_eq, not_true_eq_false, if_false]
        exact Or.inr ⟨acceptable, record_outcome consistent acceptable⟩
      · have member := List.mem_of_mem_head? head
        obtain ⟨rank, found⟩ := (mem_reduceOption_iff_getD _ _).mp member
        rw [current] at found
        simp only [ne_eq, same, not_false_eq_true, if_true]
        refine Or.inl ⟨.collectiveMismatch call.sequence expected
          call.descriptor, by simp, ?_, ?_⟩
        · have present : agreement.recorded rank ≠ none := by
            rw [recorded, found]
            simp
          rw [current, setPending_entryRanks_of_recorded present]
        · rintro ⟨_, _, _, allSame⟩
          exact same (allSame rank expected found)

theorem recorded_of_pending_none {agreement : CollectiveAgreement}
    (empty : agreement.pending agreement.nextSequence = none)
    (rank : Nat) : agreement.recorded rank = none := by
  simp only [recorded, entryRanks, empty, Option.getD_none]
  rw [List.getD_eq_getElem?_getD, List.getElem?_replicate]
  split <;> rfl

/-- A state with nothing pending is consistent. -/
theorem consistent_of_pending_none {agreement : CollectiveAgreement}
    (empty : ∀ sequence, agreement.pending sequence = none) :
    agreement.Consistent where
  onlyNext := fun sequence present => absurd (empty sequence) present
  width := by simp [entryRanks, empty]
  agreed := by
    intro left _ leftDescriptor _ found
    rw [recorded_of_pending_none (empty _)] at found
    cases found

/-- Dropping the current entry leaves nothing pending. -/
theorem pending_none_of_cleared
    {agreement : CollectiveAgreement} (consistent : agreement.Consistent)
    (sequence : UInt64) :
    (agreement.setPending agreement.nextSequence none).pending sequence =
      none := by
  unfold setPending
  by_cases current : sequence = agreement.nextSequence
  · simp [current]
  · simp only [Function.update_of_ne current]
    by_contra present
    exact current (consistent.onlyNext sequence present)

theorem entryRanks_setPending (agreement : CollectiveAgreement) (sequence : UInt64)
    (ranks : List (Option OperationDescriptor)) :
    (agreement.setPending sequence (some ranks)).entryRanks sequence =
      ranks := by
  simp [entryRanks, setPending]

theorem recorded_stored {agreement : CollectiveAgreement} (consistent : agreement.Consistent)
    {call : Submission} (inside : call.rank < agreement.worldSize)
    (rank : Nat) :
    (agreement.setPending agreement.nextSequence
        (some (agreement.storedRanks call))).recorded rank =
      if rank = call.rank then some call.descriptor
      else agreement.recorded rank := by
  rw [← storedRanks_getD consistent inside rank]
  exact congrArg (fun ranks => List.getD ranks rank none)
    (entryRanks_setPending agreement agreement.nextSequence _)

theorem consistent_stored {agreement : CollectiveAgreement} (consistent : agreement.Consistent)
    {call : Submission} (acceptable : agreement.Acceptable call) :
    (agreement.setPending agreement.nextSequence
      (some (agreement.storedRanks call))).Consistent := by
  obtain ⟨inside, _, _, allSame⟩ := acceptable
  have only : ∀ rank stored,
      (agreement.setPending agreement.nextSequence
        (some (agreement.storedRanks call))).recorded rank =
          some stored → stored = call.descriptor := by
    intro rank stored found
    rw [recorded_stored consistent inside] at found
    by_cases same : rank = call.rank
    · rw [if_pos same] at found
      exact (Option.some.inj found).symm
    · rw [if_neg same] at found
      exact allSame rank stored found
  constructor
  · intro sequence present
    change sequence = agreement.nextSequence
    by_contra other
    apply present
    simp only [setPending, Function.update_of_ne other]
    by_contra found
    exact other (consistent.onlyNext sequence found)
  · have ranks := entryRanks_setPending agreement
      agreement.nextSequence (agreement.storedRanks call)
    change ((agreement.setPending agreement.nextSequence
      (some (agreement.storedRanks call))).entryRanks
        agreement.nextSequence).length = agreement.worldSize
    rw [ranks, storedRanks, List.length_set, consistent.width]
  · intro left right leftDescriptor rightDescriptor leftFound rightFound
    rw [only left _ leftFound, only right _ rightFound]

theorem consistent_submitCall
    {agreement : CollectiveAgreement} (consistent : agreement.Consistent)
    (call : Submission) :
    (agreement.submitCall call).1.Consistent := by
  rcases submitCall_cases consistent call with
    ⟨_, _, rejected, _⟩ | ⟨acceptable, outcome⟩
  · rw [rejected]
    exact consistent
  · rcases outcome with
      ⟨_, _, moved⟩ | ⟨_, _, overflow⟩ | ⟨_, stored⟩
    · rw [moved]
      exact consistent_of_pending_none (pending_none_of_cleared consistent)
    · rw [overflow]
      exact consistent_of_pending_none (pending_none_of_cleared consistent)
    · rw [stored]
      exact consistent_stored consistent acceptable

end CollectiveAgreement

@[simp]
theorem acceptedCalls_append (left right : List (Submission × Except ProtocolError Bool)) :
    acceptedCalls (left ++ right) = acceptedCalls left ++ acceptedCalls right := by
  simp [acceptedCalls]

@[simp]
theorem readySequences_append (left right : List (Submission × Except ProtocolError Bool)) :
    readySequences (left ++ right) = readySequences left ++ readySequences right := by
  simp [readySequences]

/-- What a log of calls says about the state it led to.  Once the last sequence
of the word has been reached nothing more is said about the recorded calls: that
sequence is never closed. -/
structure History (worldSize : Nat) (agreement : CollectiveAgreement)
    (log : List (Submission × Except ProtocolError Bool)) : Prop where
  world : agreement.worldSize = worldSize
  consistent : agreement.Consistent
  ready : readySequences log = (List.range agreement.nextSequence.toNat).map UInt64.ofNat
  bounded : ∀ call ∈ acceptedCalls log, call.sequence.toNat ≤ agreement.nextSequence.toNat
  recordedIff : agreement.nextSequence.toNat + 1 < wordSize → ∀ rank descriptor,
      agreement.recorded rank = some descriptor ↔
        ⟨rank, agreement.nextSequence, descriptor⟩ ∈ acceptedCalls log

theorem history_new {worldSize : Nat} {agreement : CollectiveAgreement}
    (created : CollectiveAgreement.new worldSize = .ok agreement) :
    History worldSize agreement [] := by
  unfold CollectiveAgreement.new at created
  split at created
  · cases created
  · cases created
    refine ⟨rfl, CollectiveAgreement.consistent_of_pending_none
      (fun _ => rfl), rfl, by simp [acceptedCalls], ?_⟩
    intro _ rank descriptor
    rw [CollectiveAgreement.recorded_of_pending_none rfl]
    simp [acceptedCalls]

theorem toNat_nextSequence_succ {sequence : UInt64} (room : sequence.toNat + 1 < wordSize) :
    (sequence + 1).toNat = sequence.toNat + 1 := by
  unfold wordSize at room
  rw [UInt64.toNat_add, UInt64.toNat_one]
  exact Nat.mod_eq_of_lt room

/-- A rejected call adds nothing to the history. -/
theorem history_rejected {worldSize : Nat} {agreement : CollectiveAgreement}
    {log : List (Submission × Except ProtocolError Bool)}
    (history : History worldSize agreement log)
    (call : Submission) (failure : ProtocolError) :
    History worldSize agreement (log ++ [(call, .error failure)]) where
  world := history.world
  consistent := history.consistent
  ready := by
    rw [readySequences_append, history.ready]
    simp [readySequences]
  bounded := by
    intro earlier member
    rw [acceptedCalls_append] at member
    exact history.bounded earlier (by simpa [acceptedCalls] using member)
  recordedIff := by
    intro room rank descriptor
    rw [history.recordedIff room, acceptedCalls_append]
    simp [acceptedCalls]

theorem history_advanced {worldSize : Nat} {agreement : CollectiveAgreement}
    {log : List (Submission × Except ProtocolError Bool)}
    (history : History worldSize agreement log) {call : Submission}
    (current : call.sequence = agreement.nextSequence)
    (room : agreement.nextSequence.toNat + 1 < wordSize) :
    History worldSize agreement.advanced (log ++ [(call, .ok true)]) := by
  have next := toNat_nextSequence_succ room
  have empty : ∀ sequence, agreement.advanced.pending sequence = none :=
    CollectiveAgreement.pending_none_of_cleared history.consistent
  have bounds : ∀ earlier ∈ acceptedCalls (log ++ [(call, .ok true)]),
      earlier.sequence.toNat ≤ agreement.nextSequence.toNat := by
    intro earlier member
    rw [acceptedCalls_append, List.mem_append] at member
    rcases member with old | new
    · exact history.bounded earlier old
    · have same : earlier = call := by
        simpa [acceptedCalls] using new
      rw [same, current]
  constructor
  · exact history.world
  · exact CollectiveAgreement.consistent_of_pending_none empty
  · change readySequences (log ++ [(call, .ok true)]) =
      (List.range (agreement.nextSequence + 1).toNat).map UInt64.ofNat
    rw [next, List.range_succ, List.map_append, ← history.ready, readySequences_append]
    simp [readySequences, current]
  · intro earlier member
    change earlier.sequence.toNat ≤ (agreement.nextSequence + 1).toNat
    have bound := bounds earlier member
    omega
  · intro _ rank descriptor
    rw [CollectiveAgreement.recorded_of_pending_none (empty _)]
    constructor
    · intro impossible
      cases impossible
    · intro member
      have bound := bounds _ member
      change (agreement.nextSequence + 1).toNat ≤ _ at bound
      omega

theorem history_overflow {worldSize : Nat} {agreement : CollectiveAgreement}
    {log : List (Submission × Except ProtocolError Bool)}
    (history : History worldSize agreement log) (call : Submission)
    (full : ¬agreement.nextSequence.toNat + 1 < wordSize) :
    History worldSize (agreement.setPending agreement.nextSequence none)
      (log ++ [(call, .error .sequenceOverflow)]) := by
  have rejected := history_rejected history call .sequenceOverflow
  constructor
  · exact rejected.world
  · exact CollectiveAgreement.consistent_of_pending_none
      (CollectiveAgreement.pending_none_of_cleared history.consistent)
  · exact rejected.ready
  · exact rejected.bounded
  · intro room
    exact absurd room full

theorem history_stored {worldSize : Nat} {agreement : CollectiveAgreement}
    {log : List (Submission × Except ProtocolError Bool)}
    (history : History worldSize agreement log) {call : Submission}
    (acceptable : agreement.Acceptable call) :
    History worldSize
      (agreement.setPending agreement.nextSequence (some (agreement.storedRanks call)))
      (log ++ [(call, .ok false)]) := by
  have consistent := CollectiveAgreement.consistent_stored history.consistent acceptable
  obtain ⟨inside, current, missing, _⟩ := acceptable
  have accepted : acceptedCalls (log ++ [(call, .ok false)]) = acceptedCalls log ++ [call] := by
    simp [acceptedCalls]
  constructor
  · exact history.world
  · exact consistent
  · change readySequences (log ++ [(call, .ok false)]) =
      (List.range agreement.nextSequence.toNat).map UInt64.ofNat
    rw [readySequences_append, history.ready]
    simp [readySequences]
  · intro earlier member
    rw [accepted, List.mem_append, List.mem_singleton] at member
    rcases member with old | same
    · exact history.bounded earlier old
    · rw [same, current]
      exact Nat.le_refl _
  · intro room rank descriptor
    change agreement.nextSequence.toNat + 1 < wordSize at room
    have before := history.recordedIff room rank descriptor
    have callEq : call = ⟨call.rank, agreement.nextSequence, call.descriptor⟩ := by
      rw [← current]
    rw [CollectiveAgreement.recorded_stored history.consistent inside,
      accepted, List.mem_append, List.mem_singleton]
    by_cases same : rank = call.rank
    · subst same
      rw [if_pos rfl]
      rw [missing] at before
      constructor
      · intro stored
        cases stored
        exact Or.inr callEq.symm
      · rintro (old | new)
        · exact absurd (before.mpr old) (by simp)
        · exact congrArg (fun entry => some entry.descriptor) new.symm
    · rw [if_neg same, before]
      constructor
      · exact Or.inl
      · rintro (old | new)
        · exact old
        · exact absurd (congrArg Submission.rank new) same

/-- One more call keeps the history. -/
theorem history_submitCall {worldSize : Nat} {agreement : CollectiveAgreement}
    {log : List (Submission × Except ProtocolError Bool)}
    (history : History worldSize agreement log) (call : Submission) :
    History worldSize (agreement.submitCall call).1
      (log ++ [(call, (agreement.submitCall call).2)]) := by
  rcases CollectiveAgreement.submitCall_cases history.consistent call with
    ⟨failure, _, rejected, _⟩ | ⟨acceptable, outcome⟩
  · rw [rejected]
    exact history_rejected history call failure
  · rcases outcome with
      ⟨_, room, moved⟩ | ⟨_, full, overflow⟩ | ⟨_, stored⟩
    · rw [moved]
      exact history_advanced history acceptable.2.1 room
    · rw [overflow]
      exact history_overflow history call full
    · rw [stored]
      exact history_stored history acceptable

/-- Whole runs keep the history. -/
theorem history_run {worldSize : Nat} {agreement : CollectiveAgreement}
    {log : List (Submission × Except ProtocolError Bool)}
    (history : History worldSize agreement log)
    (calls : List Submission) :
    History worldSize (agreement.run calls).1 (log ++ (agreement.run calls).2) := by
  induction calls generalizing agreement log with
  | nil => simpa [CollectiveAgreement.run] using history
  | cons call rest ih =>
      have tail := ih (history_submitCall history call)
      simpa [CollectiveAgreement.run] using tail

/-- In terms of the accepted calls, an acceptable call whose rank is the last
one is exactly a completing call. -/
theorem completes_iff {worldSize : Nat} {agreement : CollectiveAgreement}
    {log : List (Submission × Except ProtocolError Bool)}
    (history : History worldSize agreement log)
    (room : agreement.nextSequence.toNat + 1 < wordSize)
    (call : Submission) :
    (agreement.Acceptable call ∧ agreement.OthersRecorded call.rank) ↔
      call.sequence = agreement.nextSequence ∧ Completes worldSize (acceptedCalls log) call := by
  have recordedIff := history.recordedIff room
  constructor
  · rintro ⟨⟨inside, current, missing, allSame⟩, others⟩
    refine ⟨current, by rw [← history.world]; exact inside, ?_, ?_⟩
    · intro earlier member sameSequence sameRank
      have found : agreement.recorded earlier.rank =
          some earlier.descriptor := by
        rw [recordedIff, ← current, ← sameSequence]
        exact member
      rw [sameRank, missing] at found
      cases found
    · intro rank bound different
      rw [← history.world] at bound
      obtain ⟨stored, found⟩ := Option.ne_none_iff_exists'.mp (others rank bound different)
      have member := (recordedIff rank stored).mp found
      rw [allSame rank stored found, ← current] at member
      exact member
  · rintro ⟨current, inside, fresh, others⟩
    have missing : agreement.recorded call.rank = none := by
      by_contra present
      obtain ⟨stored, found⟩ := Option.ne_none_iff_exists'.mp present
      exact fresh _ ((recordedIff call.rank stored).mp found) current.symm rfl
    have stored : ∀ rank < worldSize, rank ≠ call.rank →
        agreement.recorded rank = some call.descriptor := by
      intro rank bound different
      rw [recordedIff, ← current]
      exact others rank bound different
    refine ⟨⟨by rw [history.world]; exact inside, current, missing, ?_⟩, ?_⟩
    · intro rank descriptor found
      have bound : rank < worldSize := by
        rw [← history.world, ← history.consistent.width]
        by_contra outside
        rw [CollectiveAgreement.recorded, List.getD_eq_default _ _ (not_lt.mp outside)] at found
        cases found
      have different : rank ≠ call.rank := by
        rintro rfl
        rw [missing] at found
        cases found
      rw [stored rank bound different] at found
      exact (Option.some.inj found).symm
    · intro rank bound different
      rw [history.world] at bound
      rw [stored rank bound different]
      simp

/-- The agreement protocol, after any calls by any ranks: only the current
sequence is pending and its descriptors are equal; a call is answered with ready
exactly when it completes the current sequence; the ready sequences are the first
ones, in order; and a rejected call other than the final overflow leaves no
trace. -/
theorem collectiveAgreement_protocol {worldSize : Nat} {initial : CollectiveAgreement}
    (created : CollectiveAgreement.new worldSize = .ok initial)
    (calls : List Submission) (call : Submission) :
    let agreement := (initial.run calls).1
    let log := (initial.run calls).2
    (∀ sequence, agreement.pending sequence ≠ none → sequence = agreement.nextSequence) ∧
    (∀ ranks left right, agreement.pending agreement.nextSequence = some ranks →
      some left ∈ ranks → some right ∈ ranks → left = right) ∧
    (agreement.nextSequence.toNat < 2 ^ 64 - 1 →
      ((agreement.submitCall call).2 = .ok true ↔ call.sequence = agreement.nextSequence ∧
          Completes worldSize (acceptedCalls log) call)) ∧
    readySequences log = (List.range agreement.nextSequence.toNat).map UInt64.ofNat ∧
    (∀ failure, (agreement.submitCall call).2 = .error failure → failure ≠ .sequenceOverflow →
      (agreement.submitCall call).1 = agreement) := by
  intro agreement log
  have history : History worldSize agreement log := by
    have run := history_run (history_new created) calls
    rwa [List.nil_append] at run
  have cases := CollectiveAgreement.submitCall_cases history.consistent call
  refine ⟨history.consistent.onlyNext, ?_, ?_, history.ready, ?_⟩
  · intro ranks left right pending leftMember rightMember
    have entries : agreement.entryRanks agreement.nextSequence = ranks := by
      simp [CollectiveAgreement.entryRanks, pending]
    have position : ∀ descriptor, some descriptor ∈ ranks →
        ∃ rank, agreement.recorded rank = some descriptor := by
      intro descriptor member
      rw [← entries, ← List.reduceOption_mem_iff,
        CollectiveAgreement.mem_reduceOption_iff_getD] at member
      exact member
    obtain ⟨leftRank, leftFound⟩ := position left leftMember
    obtain ⟨rightRank, rightFound⟩ := position right rightMember
    exact history.consistent.agreed _ _ _ _ leftFound rightFound
  · intro below
    have room : agreement.nextSequence.toNat + 1 < wordSize := by
      unfold wordSize
      omega
    rw [← completes_iff history room call]
    rcases cases with
      ⟨failure, _, rejected, notAcceptable⟩ | ⟨acceptable, outcome⟩
    · rw [rejected]
      simp [notAcceptable]
    · rcases outcome with
        ⟨others, _, moved⟩ | ⟨_, full, _⟩ | ⟨others, stored⟩
      · rw [moved]
        simp [acceptable, others]
      · exact absurd room full
      · rw [stored]
        simp [others]
  · intro failure failed notOverflow
    rcases cases with ⟨_, _, rejected, _⟩ | ⟨_, outcome⟩
    · rw [rejected]
    · rcases outcome with
        ⟨_, _, moved⟩ | ⟨_, _, overflow⟩ | ⟨_, stored⟩
      · rw [moved] at failed
        cases failed
      · rw [overflow] at failed
        cases failed
        exact absurd rfl notOverflow
      · rw [stored] at failed
        cases failed

/-- A world of two ranks that has seen nothing. -/
def pairAgreement : CollectiveAgreement :=
  { worldSize := 2, nextSequence := 0, pending := fun _ => none }

/-- Both ranks of the pair submit one barrier. -/
def pairCalls : List Submission :=
  [ ⟨1, 0, ⟨.barrier, .none, anyRank, 0, 0⟩⟩
  , ⟨0, 0, ⟨.barrier, .none, anyRank, 0, 0⟩⟩ ]

theorem collectiveAgreement_protocol_pair :
    CollectiveAgreement.new 2 = .ok pairAgreement ∧
    readySequences (pairAgreement.run pairCalls).2 =
      (List.range (pairAgreement.run pairCalls).1.nextSequence.toNat).map UInt64.ofNat ∧
    (pairAgreement.run pairCalls).1.nextSequence = 1 := by
  refine ⟨rfl, ?_, by decide⟩
  exact (collectiveAgreement_protocol (rfl :
    CollectiveAgreement.new 2 = .ok pairAgreement) pairCalls
      ⟨0, 1, ⟨.barrier, .none, anyRank, 0, 0⟩⟩).2.2.2.1

end RuCCL.Rank
