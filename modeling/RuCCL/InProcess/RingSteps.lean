import RuCCL.InProcess.Collective
import RuCCL.Library.Ring

/-!
# Ring steps of the in-process collectives

Every step is a round of the ring: a reduction sends the chunk before its own
first, the gather behind it starts with the own chunk.
-/

namespace RuCCL.InProcess

open RuCCL.Library
open RuCCL.Tensor (TensorElement)

variable {T : Type} {length scratch : Nat}

theorem checkedRange_eq_ok {total offset count : Nat} (inside : offset + count ≤ total)
    (addressable : total < wordSize) :
    checkedRange total offset count = .ok ⟨offset, offset + count⟩ := by
  have added : checkedAdd offset count = some (offset + count) :=
    (checkedAdd_eq_some_iff ..).mpr ⟨by omega, rfl⟩
  simp only [checkedRange, added, okOr, ok_bind, rejectIf]
  rw [if_neg (by omega)]
  rfl

theorem copyFromDeviceAt_eq_ok (buffer : Buffer T length) {offset count : Nat}
    (inside : offset + count ≤ length) (addressable : length < wordSize) :
    copyFromDeviceAt buffer offset count = .ok (readAt ⟨offset, offset + count⟩ buffer) := by
  rw [copyFromDeviceAt, checkedRange_eq_ok inside addressable]
  rfl

theorem copyFromDevice_eq_ok (buffer : Buffer T length) (addressable : length < wordSize) :
    copyFromDevice buffer = .ok (List.ofFn buffer) := by
  rw [copyFromDevice, copyFromDeviceAt_eq_ok buffer (by omega) addressable,
    Nat.zero_add, readAt_all]

theorem copyToDeviceAt_eq_ok (buffer : Buffer T length) {offset : Nat} {values : List T}
    (inside : offset + values.length ≤ length)
    (addressable : length < wordSize) :
    copyToDeviceAt buffer offset values = .ok (mergeAt overwrite offset values buffer) := by
  rw [copyToDeviceAt, checkedRange_eq_ok inside addressable]
  rfl

theorem copyToDevice_eq_ok (buffer : Buffer T length) {values : List T}
    (same : values.length = length) (addressable : length < wordSize) :
    copyToDevice buffer values = .ok (mergeAt overwrite 0 values buffer) := by
  rw [copyToDevice, rejectIf, if_neg (not_not.mpr same), ok_bind,
    copyToDeviceAt_eq_ok buffer (by omega) addressable]

theorem launchReduction_eq_ok (kernel : T → T → T) {count offset : Nat}
    (source : Buffer T scratch) (destination : Buffer T length)
    (loaded : count ≤ scratch) (inside : offset + count ≤ length)
    (addressable : length < wordSize) (small : scratch < wordSize) :
    launchReduction kernel (prepareReduction count offset) source destination =
      .ok (mergeAt kernel offset (readAt ⟨0, count⟩ source) destination) := by
  have read : checkedRange scratch 0 count = .ok ⟨0, count⟩ := by
    rw [checkedRange_eq_ok (by omega) small, Nat.zero_add]
  have written := checkedRange_eq_ok inside addressable
  simp only [launchReduction, prepareReduction, read, written, ok_bind]
  rfl

theorem Span.start_add_length {span : Span} (ordered : span.start ≤ span.stop) :
    (⟨span.start, span.start + span.length⟩ : Span) = span := by
  cases span
  simp only [Span.length, Span.mk.injEq, true_and] at ordered ⊢
  omega

section Allocation

variable [TensorElement T]

theorem checkedLength_eq_ok (fits : length * TensorElement.elementSize T ≤ isizeMax) :
    checkedLength T length = .ok () := by
  have multiplied : checkedMul length (TensorElement.elementSize T) =
      some (length * TensorElement.elementSize T) := by
    refine (checkedMul_eq_some_iff ..).mpr ⟨?_, rfl⟩
    unfold isizeMax at fits
    unfold wordSize
    omega
  simp only [checkedLength, multiplied, okOr, ok_bind, rejectIf]
  rw [if_neg (by omega)]

theorem alloc_eq_ok (device : TensorDevice T)
    (fits : length * TensorElement.elementSize T ≤ isizeMax) :
    alloc device length = .ok fun index => device.empty index := by
  rw [alloc, checkedLength_eq_ok fits]
  rfl

theorem small_fits (bounded : length < 2 ^ 32) :
    length * TensorElement.elementSize T ≤ isizeMax := by
  have narrow := TensorElement.small (T := T)
  have most : length * TensorElement.elementSize T ≤ length * 8 :=
    Nat.mul_le_mul_left length narrow
  unfold isizeMax
  omega

theorem mapM_alloc (contexts : List (TensorDevice T))
    (fits : length * TensorElement.elementSize T ≤ isizeMax) :
    ∃ buffers : List (Buffer T length),
      (contexts.mapM fun context => alloc context length) = .ok buffers ∧
        buffers.length = contexts.length := by
  refine ⟨contexts.map fun context index => context.empty index, ?_,
    by simp⟩
  rw [mapM_eq_ok_iff, List.map_map]
  refine List.map_congr_left ?_
  intro context _
  exact alloc_eq_ok context fits

end Allocation

theorem stagedBytes_append (elementSize : Nat) (first second : List Transfer) :
    stagedBytes elementSize (first ++ second) =
      stagedBytes elementSize first + stagedBytes elementSize second := by
  simp [stagedBytes]

/-- Some items cause a transfer to a different rank, the others none. -/
theorem stagedBytes_filterMap {Item : Type} (elementSize : Nat) (items : List Item)
    (transfer : Item → Option Transfer) (elements : Item → Nat)
    (caused : ∀ item ∈ items, transfer item = none ∧ elements item = 0 ∨
        ∃ made, transfer item = some made ∧ made.source ≠ made.destination ∧
          made.elements = elements item) :
    stagedBytes elementSize (items.filterMap transfer) =
      (items.map elements).sum * elementSize := by
  induction items with
  | nil => simp [stagedBytes]
  | cons item rest ih =>
      have later := ih fun other member =>
        caused other (List.mem_cons_of_mem item member)
      rw [List.map_cons, List.sum_cons, Nat.add_mul, ← later]
      rcases caused item List.mem_cons_self with
        ⟨absent, empty⟩ | ⟨made, present, different, counted⟩
      · rw [List.filterMap_cons_none absent, empty]
        omega
      · rw [List.filterMap_cons_some present, ← counted]
        simp [stagedBytes, different]

section Steps

variable {size : Nat} [NeZero size]

omit [NeZero size] in
theorem indexAt_ranked {α : Type} (values : ZMod size → α) {rank : Nat} (within : rank < size) :
    indexAt (ranked values) rank = .ok (values (rank : ZMod size)) := by
  rw [indexAt, getElem?_ranked values within]
  rfl

theorem indexAt_ranked_mod {α : Type} (values : ZMod size → α) (place : Nat) :
    indexAt (ranked values) (place % size) = .ok (values (place : ZMod size)) := by
  rw [indexAt_ranked values (Nat.mod_lt _ (NeZero.pos size)), ZMod.natCast_mod]

variable {offset : Nat → Nat}

theorem copyFromDeviceAt_slot (cut : Cut offset size length) (addressable : length < wordSize)
    (buffer : Buffer T length) (slot : ZMod size) :
    copyFromDeviceAt buffer (slotSpan offset slot).start (slotSpan offset slot).length =
      .ok (readAt (slotSpan offset slot) buffer) := by
  have ordered := slotSpan_start_le cut slot
  have inside := slotSpan_stop_le cut slot
  have together := Span.start_add_length ordered
  rw [copyFromDeviceAt_eq_ok buffer _ addressable, together]
  unfold Span.length
  omega

theorem stageChunks_eq_ok (cut : Cut offset size length) (addressable : length < wordSize)
    (back : Nat) (near : back ≤ size)
    (values : ZMod size → Buffer T length) :
    stageChunks (ranked fun slot : ZMod size => slotSpan offset slot) size
      (fun rank => (rank + size - back) % size) (ranked values) =
      .ok (ranked fun position =>
        readAt (slotSpan offset (position - (back : ZMod size))) (values position)) := by
  refine mapM_range_eq_ranked _ ?_
  intro rank within
  rw [indexAt_ranked_mod, ok_bind, indexAt_ranked values within, ok_bind,
    copyFromDeviceAt_slot cut addressable, cast_back (by omega)]

/-- What a position of the ring has after a round with `lead`, reduced from the
scratch buffer. -/
theorem merged_slot (cut : Cut offset size length) (combine : T → T → T)
    (lead : ZMod size) (step : Nat)
    (values : ZMod size → Buffer T length) (position : ZMod size)
    (empty : (slotSpan offset (position - 1 + lead - (step : ZMod size))).length = 0) :
    ringRound combine (slotAt offset) lead step values position =
      values position := by
  rw [← mergeAt_slot cut, readAt_empty empty, mergeAt_nil]

omit [NeZero size] in
theorem val_pred (rank : Nat) (positive : 0 < rank + size) :
    (rank + size - 1) % size = ((rank : ZMod size) - 1).val := by
  have back : ((rank + size - 1 : Nat) : ZMod size) =
      (rank : ZMod size) - ((1 : Nat) : ZMod size) := cast_back (by omega)
  rw [Nat.cast_one] at back
  rw [← back, ZMod.val_natCast]

theorem pred_ne (several : 1 < size) (position : ZMod size) :
    (position - 1).val ≠ position.val := by
  intro same
  have equal := ZMod.val_injective size same
  have zero : (1 : ZMod size) = 0 := by
    rw [← sub_sub_cancel position 1, equal, sub_self]
  have one := congrArg ZMod.val zero
  have fact : Fact (1 < size) := ⟨several⟩
  rw [ZMod.val_one, ZMod.val_zero] at one
  omega

/-- The chunks that all ranks pass on in a step are the whole buffer. -/
theorem sum_passed (cut : Cut offset size length) (shift : ZMod size) :
    (ranked fun position : ZMod size =>
      (slotSpan offset (position - shift)).length).sum = length := by
  rw [(ranked_shift_perm (fun slot => (slotSpan offset slot).length)
    shift).sum_eq, sum_ranked_slotSpan cut]

/-- The bytes of a step, when every rank passes one chunk on to another. -/
theorem stagedBytes_passed {Item : Type} (cut : Cut offset size length) (elementSize : Nat)
    (outcome : ZMod size → Item) (transfer : Item → Option Transfer)
    (shift : ZMod size)
    (caused : ∀ position, transfer (outcome position) = none ∧
        (slotSpan offset (position - shift)).length = 0 ∨
      ∃ made, transfer (outcome position) = some made ∧ made.source ≠ made.destination ∧
        made.elements = (slotSpan offset (position - shift)).length) :
    stagedBytes elementSize ((ranked outcome).filterMap transfer) = length * elementSize := by
  have mapped : ranked outcome = (ranked id).map outcome := (map_ranked id outcome).symm
  rw [mapped, List.filterMap_map, stagedBytes_filterMap elementSize _ (transfer ∘ outcome)
      (fun position => (slotSpan offset (position - shift)).length)
      (fun position _ => caused position),
    map_ranked]
  exact congrArg (· * elementSize) (sum_passed cut shift)

/-- What one rank has after its part of a reduction step. -/
def reducedRank (offset : Nat → Nat) (kernel : T → T → T) (step : Nat)
    (values : ZMod size → Buffer T length)
    (scratches : ZMod size → Buffer T scratch) (position : ZMod size) :
    Buffer T length × Buffer T scratch × Option Transfer :=
  let span := slotSpan offset (position - 1 + -1 - (step : ZMod size))
  let sent := readAt span (values (position - 1))
  if span.length = 0 then (values position, scratches position, none)
  else
    (mergeAt kernel span.start sent (values position),
      mergeAt overwrite 0 sent (scratches position),
      some ⟨(position - 1).val, position.val, span.length⟩)

theorem reducedRank_transfer (several : 1 < size) (offset : Nat → Nat) (kernel : T → T → T)
    (step : Nat) (values : ZMod size → Buffer T length)
    (scratches : ZMod size → Buffer T scratch) (position : ZMod size) :
    let transfer := (reducedRank offset kernel step values scratches position).2.2
    let elements := (slotSpan offset (position - 1 + -1 - (step : ZMod size))).length
    transfer = none ∧ elements = 0 ∨
      ∃ made, transfer = some made ∧ made.source ≠ made.destination ∧
        made.elements = elements := by
  simp only [reducedRank]
  split
  · rename_i empty
    exact Or.inl ⟨rfl, empty⟩
  · exact Or.inr ⟨_, rfl, pred_ne several position, rfl⟩

/-- What the ranks hold after some steps of a reduction. -/
def reducedTo (offset : Nat → Nat) (kernel : T → T → T)
    (values : ZMod size → Buffer T length) (time : Nat)
    (position : ZMod size) : Buffer T length :=
  fun element => reducing kernel (values · element) (slotAt offset element - -1) time position

section Reduction

variable (cut : Cut offset size length) (addressable : length < wordSize)
  (roomy : ∀ slot : ZMod size, (slotSpan offset slot).length ≤ scratch)
  (small : scratch < wordSize)
  {upload : Buffer T scratch → List T → Except CollectiveError (Buffer T scratch)}
  (uploads : ∀ (before : Buffer T scratch) (slot : ZMod size)
    (source : Buffer T length), (slotSpan offset slot).length ≠ 0 →
      upload before (readAt (slotSpan offset slot) source) =
        .ok (mergeAt overwrite 0 (readAt (slotSpan offset slot) source) before))
  (kernel : T → T → T)

include cut addressable roomy small uploads

theorem reduceRank_eq_ok {step : Nat} (early : step + 1 < size)
    {state : RingState T length scratch}
    {values : ZMod size → Buffer T length}
    {scratches : ZMod size → Buffer T scratch}
    (held : state.buffers = ranked values)
    (scratched : state.scratch = ranked scratches)
    (rank : Nat) (within : rank < size) :
    reduceRank upload kernel (ranked fun slot : ZMod size => slotSpan offset slot) size step
      (ranked fun position : ZMod size =>
        readAt (slotSpan offset (position - ((step + 1 : Nat) : ZMod size)))
          (values position)) state rank =
      .ok (reducedRank offset kernel step values scratches (rank : ZMod size)) := by
  have source := @val_pred size rank (by omega)
  have sender : ((rank : ZMod size) - 1).val % size =
      ((rank : ZMod size) - 1).val := Nat.mod_eq_of_lt (ZMod.val_lt _)
  have slot : ((rank + size - step - 2 : Nat) : ZMod size) =
      (rank : ZMod size) - 1 + -1 - (step : ZMod size) := by
    rw [Nat.sub_sub, cast_back (by omega)]
    push_cast
    ring
  have chunk : (rank : ZMod size) - 1 - ((step + 1 : Nat) : ZMod size) =
      (rank : ZMod size) - 1 + -1 - (step : ZMod size) := by
    push_cast
    ring
  have fetched := indexAt_ranked_mod (fun position : ZMod size =>
    readAt (slotSpan offset (position - ((step + 1 : Nat) : ZMod size)))
      (values position)) ((rank : ZMod size) - 1).val
  rw [sender, ZMod.natCast_zmod_val, chunk] at fetched
  rw [reduceRank, scratched, indexAt_ranked _ within, ok_bind, held,
    indexAt_ranked _ within, ok_bind, indexAt_ranked_mod, ok_bind, slot,
    reducedRank]
  simp only [source, fetched, ok_bind]
  split
  · rfl
  · rename_i nonempty
    have inside := slotSpan_stop_le cut ((rank : ZMod size) - 1 + -1 - (step : ZMod size))
    have ordered := slotSpan_start_le cut ((rank : ZMod size) - 1 + -1 - (step : ZMod size))
    have fits := roomy ((rank : ZMod size) - 1 + -1 - (step : ZMod size))
    have sent := @length_readAt _ _ _ (values ((rank : ZMod size) - 1)) inside
    have reloaded := readAt_mergeAt_overwrite (scratches (rank : ZMod size))
      (by rw [Nat.zero_add, sent]; exact fits)
    rw [Nat.zero_add, sent] at reloaded
    rw [uploads _ _ _ nonempty, ok_bind, launchReduction_eq_ok kernel _ _ fits
        (by unfold Span.length; omega) addressable small,
      ok_bind, reloaded, sent, ZMod.val_cast_of_lt within]
    rfl

/-- A reduction step is a round with lead `-1`. -/
theorem reduceStep_spec (elementSize : Nat) {step : Nat} (early : step + 1 < size)
    {state : RingState T length scratch}
    {values : ZMod size → Buffer T length}
    (held : state.buffers = ranked values)
    (scratched : state.scratch.length = size) :
    ∃ after, reduceStep upload kernel
        (ranked fun slot : ZMod size => slotSpan offset slot) size state
        step = .ok after ∧
      after.buffers = ranked (ringRound kernel (slotAt offset) (-1) step values) ∧
      after.scratch.length = size ∧
      stagedBytes elementSize after.transfers =
        stagedBytes elementSize state.transfers + length * elementSize := by
  obtain ⟨scratches, same⟩ := exists_ranked scratched
  have staged := stageChunks_eq_ok cut addressable (step + 1) (by omega)
    values
  have ranks := mapM_range_eq_ranked (reducedRank offset kernel step values scratches)
    (reduceRank_eq_ok cut addressable roomy small uploads kernel early held same)
  have stepped : reduceStep upload kernel
      (ranked fun slot : ZMod size => slotSpan offset slot) size state
      step = .ok {
        buffers := (ranked (reducedRank offset kernel step values
          scratches)).map fun entry => entry.1
        scratch := (ranked (reducedRank offset kernel step values
          scratches)).map fun entry => entry.2.1
        steps := state.steps + 1
        launches := state.launches + UInt32.ofNat
          ((ranked (reducedRank offset kernel step values
            scratches)).filterMap fun entry => entry.2.2).length
        transfers := state.transfers ++
          (ranked (reducedRank offset kernel step values
            scratches)).filterMap fun entry => entry.2.2 } := by
    simp only [reduceStep, Nat.sub_sub]
    rw [held, staged, ok_bind, ranks]
    rfl
  refine ⟨_, stepped, ?_, ?_, ?_⟩
  · refine (map_ranked ..).trans (congrArg ranked (funext fun position => ?_))
    simp only [reducedRank]
    split
    · rename_i empty
      exact (merged_slot cut kernel _ _ _ _ empty).symm
    · exact mergeAt_slot cut kernel _ _ _ _
  · simp
  · rw [stagedBytes_append]
    refine congrArg (stagedBytes elementSize state.transfers + ·) ?_
    exact stagedBytes_passed cut elementSize _ _ (2 + (step : ZMod size)) fun position => by
        have slot : position - (2 + (step : ZMod size)) =
            position - 1 + -1 - (step : ZMod size) := by
          ring
        rw [slot]
        exact reducedRank_transfer (by omega) offset kernel step values
          scratches position

theorem reducePhase_spec (elementSize : Nat) {state : RingState T length scratch}
    {values : ZMod size → Buffer T length}
    (held : state.buffers = ranked values)
    (scratched : state.scratch.length = size) :
    ∃ after,
      (List.range (size - 1)).foldlM (reduceStep upload kernel
        (ranked fun slot : ZMod size => slotSpan offset slot) size) state =
        .ok after ∧
      after.buffers = ranked (reducedTo offset kernel values (size - 1)) ∧
      after.scratch.length = size ∧
      stagedBytes elementSize after.transfers = stagedBytes elementSize state.transfers +
          (size - 1) * (length * elementSize) := by
  refine foldlM_range_invariant
    (fun time (current : RingState T length scratch) =>
      current.buffers = ranked (reducedTo offset kernel values time) ∧
      current.scratch.length = size ∧
      stagedBytes elementSize current.transfers = stagedBytes elementSize state.transfers +
          time * (length * elementSize)) ⟨?_, scratched, by omega⟩ ?_
  · rw [held]
    refine congrArg ranked (funext fun position => funext fun element => ?_)
    exact (reducing_zero kernel (values · element) _ position).symm
  · intro time current early invariant
    obtain ⟨buffers, scratches, bytes⟩ := invariant
    obtain ⟨next, stepped, held, scratched, counted⟩ :=
      reduceStep_spec cut addressable roomy small uploads kernel
        elementSize (by omega : time + 1 < size) buffers scratches
    refine ⟨next, stepped, ?_, scratched, ?_⟩
    · rw [held]
      exact congrArg ranked (ringRound_reducing kernel (slotAt offset) (-1)
        time (by omega) values)
    · rw [counted, bytes, Nat.succ_mul]
      omega

end Reduction

/-- What one rank has after its part of a gather step. -/
def gatheredRank (offset : Nat → Nat) (step : Nat)
    (values : ZMod size → Buffer T length) (position : ZMod size) :
    Buffer T length × Option Transfer :=
  let span := slotSpan offset (position - 1 + 0 - (step : ZMod size))
  let sent := readAt span (values (position - 1))
  if span.length = 0 then (values position, none)
  else
    (mergeAt overwrite span.start sent (values position),
      some ⟨(position - 1).val, position.val, span.length⟩)

theorem gatherRank_eq_ok (cut : Cut offset size length) (addressable : length < wordSize)
    {step : Nat} (early : step + 1 < size)
    (values : ZMod size → Buffer T length)
    (rank : Nat) (within : rank < size) :
    gatherRank (ranked fun slot : ZMod size => slotSpan offset slot) size
      step (ranked fun position : ZMod size =>
        readAt (slotSpan offset (position - (step : ZMod size)))
          (values position)) (ranked values) rank =
      .ok (gatheredRank offset step values (rank : ZMod size)) := by
  have source := @val_pred size rank (by omega)
  have sender : ((rank : ZMod size) - 1).val % size =
      ((rank : ZMod size) - 1).val := Nat.mod_eq_of_lt (ZMod.val_lt _)
  have slot : ((rank + size - step - 1 : Nat) : ZMod size) =
      (rank : ZMod size) - 1 + 0 - (step : ZMod size) := by
    rw [Nat.sub_sub, cast_back (by omega)]
    push_cast
    ring
  have chunk : (rank : ZMod size) - 1 - (step : ZMod size) =
      (rank : ZMod size) - 1 + 0 - (step : ZMod size) := by
    ring
  have fetched := indexAt_ranked_mod (fun position : ZMod size =>
    readAt (slotSpan offset (position - (step : ZMod size)))
      (values position)) ((rank : ZMod size) - 1).val
  rw [sender, ZMod.natCast_zmod_val, chunk] at fetched
  rw [gatherRank, indexAt_ranked _ within, ok_bind, indexAt_ranked_mod,
    ok_bind, slot, gatheredRank]
  simp only [source, fetched, ok_bind]
  split
  · rfl
  · have inside := slotSpan_stop_le cut ((rank : ZMod size) - 1 + 0 - (step : ZMod size))
    have ordered := slotSpan_start_le cut ((rank : ZMod size) - 1 + 0 - (step : ZMod size))
    have sent := @length_readAt _ _ _ (values ((rank : ZMod size) - 1)) inside
    rw [copyToDeviceAt_eq_ok _ (by
        rw [sent]
        unfold Span.length
        omega) addressable, ok_bind, sent, ZMod.val_cast_of_lt within]
    rfl

theorem gatheredRank_transfer (several : 1 < size) (offset : Nat → Nat) (step : Nat)
    (values : ZMod size → Buffer T length) (position : ZMod size) :
    let transfer := (gatheredRank offset step values position).2
    let elements := (slotSpan offset (position - 1 + 0 - (step : ZMod size))).length
    transfer = none ∧ elements = 0 ∨
      ∃ made, transfer = some made ∧ made.source ≠ made.destination ∧
        made.elements = elements := by
  simp only [gatheredRank]
  split
  · rename_i empty
    exact Or.inl ⟨rfl, empty⟩
  · exact Or.inr ⟨_, rfl, pred_ne several position, rfl⟩

/-- A gather step is a round with lead `0`. -/
theorem gatherStep_spec (cut : Cut offset size length) (addressable : length < wordSize)
    (elementSize : Nat) {step : Nat} (early : step + 1 < size)
    {state : RingState T length scratch}
    {values : ZMod size → Buffer T length}
    (held : state.buffers = ranked values) :
    ∃ after, gatherStep (ranked fun slot : ZMod size => slotSpan offset slot) size
        state step = .ok after ∧
      after.buffers = ranked (ringRound overwrite (slotAt offset) 0 step values) ∧
      stagedBytes elementSize after.transfers =
        stagedBytes elementSize state.transfers + length * elementSize := by
  have staged := stageChunks_eq_ok cut addressable step (by omega) values
  have ranks := mapM_range_eq_ranked (gatheredRank offset step values)
    (gatherRank_eq_ok cut addressable early values)
  have stepped : gatherStep (ranked fun slot : ZMod size => slotSpan offset slot) size state
      step = .ok { state with
        buffers := (ranked (gatheredRank offset step values)).map Prod.fst
        steps := state.steps + 1
        transfers := state.transfers ++ (ranked (gatheredRank offset step values)).filterMap
            Prod.snd } := by
    simp only [gatherStep]
    rw [held, staged, ok_bind, ranks]
    rfl
  refine ⟨_, stepped, ?_, ?_⟩
  · refine (map_ranked ..).trans (congrArg ranked (funext fun position => ?_))
    simp only [gatheredRank]
    split
    · rename_i empty
      exact (merged_slot cut overwrite _ _ _ _ empty).symm
    · exact mergeAt_slot cut overwrite _ _ _ _
  · rw [stagedBytes_append]
    refine congrArg (stagedBytes elementSize state.transfers + ·) ?_
    exact stagedBytes_passed cut elementSize _ _ (1 + (step : ZMod size)) fun position => by
        have slot : position - (1 + (step : ZMod size)) =
            position - 1 + 0 - (step : ZMod size) := by
          ring
        rw [slot]
        exact gatheredRank_transfer (by omega) offset step values position

/-- What the ranks hold after some steps of a gather. -/
def gatheredTo (offset : Nat → Nat) (values : ZMod size → Buffer T length) (time : Nat)
    (position : ZMod size) : Buffer T length :=
  fun element => spreading (values · element) (slotAt offset element - 0) time position

theorem gatherPhase_spec (cut : Cut offset size length) (addressable : length < wordSize)
    (elementSize : Nat) {state : RingState T length scratch}
    {values : ZMod size → Buffer T length}
    (held : state.buffers = ranked values) :
    ∃ after,
      (List.range (size - 1)).foldlM (gatherStep
        (ranked fun slot : ZMod size => slotSpan offset slot) size) state =
        .ok after ∧
      after.buffers = ranked (gatheredTo offset values (size - 1)) ∧
      stagedBytes elementSize after.transfers = stagedBytes elementSize state.transfers +
          (size - 1) * (length * elementSize) := by
  refine foldlM_range_invariant
    (fun time (current : RingState T length scratch) =>
      current.buffers = ranked (gatheredTo offset values time) ∧
      stagedBytes elementSize current.transfers = stagedBytes elementSize state.transfers +
          time * (length * elementSize)) ⟨?_, by omega⟩ ?_
  · rw [held]
    refine congrArg ranked (funext fun position => funext fun element => ?_)
    exact (spreading_zero (values · element) _ position).symm
  · intro time current early invariant
    obtain ⟨buffers, bytes⟩ := invariant
    obtain ⟨next, stepped, held, counted⟩ := gatherStep_spec cut addressable elementSize
        (by omega : time + 1 < size) buffers
    refine ⟨next, stepped, ?_, ?_⟩
    · rw [held]
      exact congrArg ranked (ringRound_spreading (slotAt offset) 0 time (by omega) values)
    · rw [counted, bytes, Nat.succ_mul]
      omega

variable {shard : Nat}

omit [NeZero size] in
theorem slotSpan_equal (slot : ZMod size) :
    slotSpan (fun slot => slot * shard) slot = ⟨slot.val * shard, slot.val * shard + shard⟩ := by
  rw [slotSpan, Nat.succ_mul]

theorem stageShards_eq_ok (cut : Cut (fun slot => slot * shard) size length)
    (addressable : length < wordSize) {step : Nat} (near : step ≤ size)
    (values : ZMod size → Buffer T length) :
    ((List.range size).mapM fun rank => do
      let sendRank := (rank + size - step) % size
      let buffer ← indexAt (ranked values) rank
      copyFromDeviceAt buffer (sendRank * shard) shard) =
      .ok (ranked fun position =>
        readAt (slotSpan (fun slot => slot * shard)
          (position - (step : ZMod size))) (values position)) := by
  refine mapM_range_eq_ranked _ ?_
  intro rank within
  have slot : (rank + size - step) % size = ((rank : ZMod size) - (step : ZMod size)).val := by
    rw [← cast_back (by omega), ZMod.val_natCast]
  have inside := slotSpan_stop_le cut ((rank : ZMod size) - (step : ZMod size))
  rw [slotSpan_equal] at inside ⊢
  simp only [slot]
  rw [indexAt_ranked values within, ok_bind, copyFromDeviceAt_eq_ok _ inside addressable]

/-- What one rank has after its part of a step with whole shards. -/
def allGatheredRank (shard step : Nat)
    (values : ZMod size → Buffer T length) (position : ZMod size) :
    Buffer T length × Transfer :=
  let span := slotSpan (fun slot => slot * shard) (position - 1 + 0 - (step : ZMod size))
  (mergeAt overwrite span.start (readAt span (values (position - 1))) (values position),
    ⟨(position - 1).val, position.val, span.length⟩)

theorem allGatherRank_eq_ok (cut : Cut (fun slot => slot * shard) size length)
    (addressable : length < wordSize) {step : Nat}
    (early : step + 1 < size) (values : ZMod size → Buffer T length)
    (rank : Nat) (within : rank < size) :
    InProcessCollective.allGatherRank size shard step
      (ranked fun position : ZMod size =>
        readAt (slotSpan (fun slot => slot * shard)
          (position - (step : ZMod size))) (values position))
      (ranked values) rank =
      .ok (allGatheredRank shard step values (rank : ZMod size)) := by
  have source := @val_pred size rank (by omega)
  have sender : ((rank : ZMod size) - 1).val % size =
      ((rank : ZMod size) - 1).val := Nat.mod_eq_of_lt (ZMod.val_lt _)
  have slot : (rank + size - step - 1) % size =
      ((rank : ZMod size) - 1 + 0 - (step : ZMod size)).val := by
    have back : ((rank + size - (step + 1) : Nat) : ZMod size) =
        (rank : ZMod size) - 1 + 0 - (step : ZMod size) := by
      rw [cast_back (by omega)]
      push_cast
      ring
    rw [← back, ZMod.val_natCast, Nat.sub_sub]
  have chunk : (rank : ZMod size) - 1 - (step : ZMod size) =
      (rank : ZMod size) - 1 + 0 - (step : ZMod size) := by
    ring
  have fetched := indexAt_ranked_mod (fun position : ZMod size =>
    readAt (slotSpan (fun slot => slot * shard)
      (position - (step : ZMod size))) (values position))
    ((rank : ZMod size) - 1).val
  rw [sender, ZMod.natCast_zmod_val, chunk] at fetched
  have inside := slotSpan_stop_le cut ((rank : ZMod size) - 1 + 0 - (step : ZMod size))
  have sent := @length_readAt _ _ _ (values ((rank : ZMod size) - 1)) inside
  have start : (slotSpan (fun slot => slot * shard)
      ((rank : ZMod size) - 1 + 0 - (step : ZMod size))).start =
      ((rank : ZMod size) - 1 + 0 - (step : ZMod size)).val * shard := rfl
  have ordered := slotSpan_start_le cut ((rank : ZMod size) - 1 + 0 - (step : ZMod size))
  rw [allGatheredRank]
  simp only [InProcessCollective.allGatherRank, source, fetched, ok_bind,
    slot, indexAt_ranked values within]
  rw [← start, copyToDeviceAt_eq_ok _ (by
      rw [sent]
      unfold Span.length
      omega) addressable, ok_bind, sent, ZMod.val_cast_of_lt within]
  rfl

/-- A step with whole shards is a round with lead `0`. -/
theorem allGatherStep_spec (cut : Cut (fun slot => slot * shard) size length)
    (addressable : length < wordSize) (elementSize : Nat) {step : Nat}
    (early : step + 1 < size)
    {state : List (Buffer T length) × List Transfer}
    {values : ZMod size → Buffer T length}
    (held : state.1 = ranked values) :
    ∃ after, InProcessCollective.allGatherStep size shard state step = .ok after ∧
      after.1 = ranked (ringRound overwrite (slotAt fun slot => slot * shard) 0 step values) ∧
      stagedBytes elementSize after.2 =
        stagedBytes elementSize state.2 + length * elementSize := by
  have staged := stageShards_eq_ok cut addressable (by omega : step ≤ size) values
  have ranks := mapM_range_eq_ranked (allGatheredRank shard step values)
    (allGatherRank_eq_ok cut addressable early values)
  have stepped : InProcessCollective.allGatherStep size shard state step =
      .ok ((ranked (allGatheredRank shard step values)).map Prod.fst, state.2 ++
          (ranked (allGatheredRank shard step values)).map Prod.snd) := by
    simp only [InProcessCollective.allGatherStep]
    rw [held, staged, ok_bind, ranks]
    rfl
  refine ⟨_, stepped, ?_, ?_⟩
  · refine (map_ranked ..).trans (congrArg ranked (funext fun position => ?_))
    exact mergeAt_slot cut overwrite _ _ _ _
  · rw [stagedBytes_append, ← List.filterMap_eq_map]
    refine congrArg (stagedBytes elementSize state.2 + ·) ?_
    exact stagedBytes_passed cut elementSize _ _ (1 + (step : ZMod size)) fun position => by
        have slot : position - (1 + (step : ZMod size)) =
            position - 1 + 0 - (step : ZMod size) := by
          ring
        rw [slot]
        exact Or.inr ⟨_, rfl, pred_ne (by omega) position, rfl⟩

theorem allGatherPhase_spec (cut : Cut (fun slot => slot * shard) size length)
    (addressable : length < wordSize) (elementSize : Nat)
    {state : List (Buffer T length) × List Transfer}
    {values : ZMod size → Buffer T length}
    (held : state.1 = ranked values) :
    ∃ after, (List.range (size - 1)).foldlM
        (InProcessCollective.allGatherStep size shard) state = .ok after ∧
      after.1 = ranked (gatheredTo (fun slot => slot * shard) values (size - 1)) ∧
      stagedBytes elementSize after.2 = stagedBytes elementSize state.2 +
          (size - 1) * (length * elementSize) := by
  refine foldlM_range_invariant
    (fun time (current : List (Buffer T length) × List Transfer) =>
      current.1 = ranked (gatheredTo (fun slot => slot * shard) values time) ∧
      stagedBytes elementSize current.2 = stagedBytes elementSize state.2 +
          time * (length * elementSize)) ⟨?_, by omega⟩ ?_
  · rw [held]
    refine congrArg ranked (funext fun position => funext fun element => ?_)
    exact (spreading_zero (values · element) _ position).symm
  · intro time current early invariant
    obtain ⟨buffers, bytes⟩ := invariant
    obtain ⟨next, stepped, held, counted⟩ := allGatherStep_spec cut addressable elementSize
        (by omega : time + 1 < size) buffers
    refine ⟨next, stepped, ?_, ?_⟩
    · rw [held]
      exact congrArg ranked (ringRound_spreading
        (slotAt fun slot => slot * shard) 0 time (by omega) values)
    · rw [counted, bytes, Nat.succ_mul]
      omega

end Steps

/-! ## Reference results -/

/-- The values of all ranks. -/
def DistributedBuffer.values (buffer : DistributedBuffer T) : List (List T) :=
  buffer.buffers.map List.ofFn

/-- The reduction of all inputs, element by element. -/
def elementwise (op : T → T → T) (inputs : List (List T)) (length : Nat) : List (Option T) :=
  (List.range length).map fun element =>
    reduceAll op (inputs.filterMap fun input => input[element]?)

theorem map_some_eq_elementwise (op : T → T → T) (inputs : List (Buffer T length))
    (total : Buffer T length)
    (reduced : ∀ element : Fin length, reduceAll op (inputs.map fun input => input element) =
        some (total element)) :
    (List.ofFn total).map some = elementwise op (inputs.map List.ofFn) length := by
  apply List.ext_getElem?
  intro index
  rw [elementwise, List.getElem?_map, List.getElem?_map, List.getElem?_ofFn]
  by_cases inside : index < length
  · rw [dif_pos inside, List.getElem?_range inside, Option.map_some,
      Option.map_some, ← reduced ⟨index, inside⟩, List.filterMap_map]
    congr 2
    rw [← List.filterMap_eq_map]
    refine List.filterMap_congr fun input _ => ?_
    simp [inside]
  · rw [dif_neg inside, List.getElem?_eq_none (by simpa using inside)]
    rfl

/-- The slot of a position after all steps of a reduction: the reduction of all
inputs there. -/
theorem readAt_reducedTo {size : Nat} [NeZero size] {offset : Nat → Nat}
    (cut : Cut offset size length) (kernel : T → T → T)
    [Std.Associative kernel] [Std.Commutative kernel]
    (values : ZMod size → Buffer T length) (position : ZMod size) :
    (readAt (slotSpan offset position)
      (reducedTo offset kernel values (size - 1) position)).map some =
      ((elementwise kernel ((ranked values).map List.ofFn) length).drop
        (slotSpan offset position).start).take
        (slotSpan offset position).length := by
  let total : Buffer T length := fun element =>
    ringTotal kernel (values · element) (slotAt offset element - -1) (size - 1)
  have agree : readAt (slotSpan offset position)
      (reducedTo offset kernel values (size - 1) position) =
      readAt (slotSpan offset position) total := by
    refine readAt_congr fun element covered => ?_
    have slot := (slotSpan_covers_iff cut position element).mp covered
    have last := reducing_last kernel (values · element) (slotAt offset element - -1)
    have owner : (slotAt offset element : ZMod size) - -1 - 1 =
        position := by
      rw [slot]
      ring
    rw [owner] at last
    exact last
  rw [agree, readAt, List.map_take, List.map_drop,
    map_some_eq_elementwise kernel (ranked values) total]
  intro element
  rw [map_ranked]
  exact reduceAll_ranked kernel (values · element) _

end RuCCL.InProcess
