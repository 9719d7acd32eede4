import RuCCL.InProcess.NativeCommunicator
import RuCCL.InProcess.RingSteps

/-!
# The ring of the device group

A device adapter passes ranges from rank to rank; the ring over it starts with
the own chunk, where the host-staged ring starts with the chunk before it.
-/

namespace RuCCL.InProcess

open RuCCL.Library RuCCL.Rank

variable {DeviceId Tensor Prepared Work Operation T : Type} {length : Nat}

/-- Every rank's range goes to its successor.  All of them are sent before any
is written. -/
def passOn (combine : T → T → T) (ranges : List Span)
    (buffers : List (Buffer T length)) : List (Buffer T length) :=
  buffers.mapIdx fun rank buffer =>
    let source := (rank + buffers.length - 1) % buffers.length
    match ranges[source]?, buffers[source]? with
    | some range, some sent => mergeAt combine range.start (readAt range sent) buffer
    | _, _ => buffer

/-- What the trait asks of a device during one collective; `contents` is what
the ranks hold, `held` what they bring. -/
structure NativeContract (device : NativeCollectiveDevice DeviceId Tensor Prepared Work Operation)
    (op : T → T → T) (devices : List DeviceId) (inputs : List Prepared)
    (held : List (Buffer T length))
    (contents : Work → List (Buffer T length)) : Prop where
  one_each : held.length = devices.length
  begins : ∃ work, device.begin devices inputs = .ok work ∧ contents work = held
  elements : ∀ work, device.elements work = .ok length
  exchanges : ∀ work ranges reduce, ranges.length = (contents work).length →
    (∀ range ∈ ranges, range.start ≤ range.stop ∧ range.stop ≤ length) →
    ∃ next, device.exchange work ranges reduce = .ok next ∧ contents next =
        passOn (if reduce then op else overwrite) ranges (contents work)

section Ring

variable {size : Nat} [NeZero size]

theorem stepRanges_eq_ranked (offset : Nat → Nat) {step lead : Nat} (early : step ≤ size) :
    stepRanges (ranked fun slot : ZMod size => slotSpan offset slot) size step lead =
      ranked fun position : ZMod size =>
        slotSpan offset (position + (lead : ZMod size) - (step : ZMod size)) := by
  refine List.map_congr_left ?_
  intro rank member
  have within : (rank + lead + size - step) % size < size := Nat.mod_lt _ (NeZero.pos size)
  rw [getElem?_ranked _ within, Option.getD_some, ZMod.natCast_mod, cast_back (by omega)]
  push_cast
  rfl

/-- Passing slots on is a round of the ring. -/
theorem passOn_ranked {offset : Nat → Nat} (cut : Cut offset size length)
    (combine : T → T → T) (lead : ZMod size) (step : Nat)
    (values : ZMod size → Buffer T length) :
    passOn combine
      (ranked fun position : ZMod size =>
        slotSpan offset (position + lead - (step : ZMod size)))
      (ranked values) =
      ranked (ringRound combine (slotAt offset) lead step values) := by
  apply List.ext_getElem?
  intro rank
  rw [passOn, List.getElem?_mapIdx]
  by_cases within : rank < size
  · have source := @val_pred size rank (by omega)
    have sender : ((rank : ZMod size) - 1).val < size := ZMod.val_lt _
    rw [getElem?_ranked values within, getElem?_ranked _ within, Option.map_some]
    simp only [length_ranked, source, getElem?_ranked _ sender, ZMod.natCast_zmod_val]
    exact congrArg some (mergeAt_slot cut combine lead step values _)
  · rw [List.getElem?_eq_none (by simpa using within),
      List.getElem?_eq_none (by simpa using within)]
    rfl

/-- One phase of the ring, from what a round does to the invariant. -/
theorem exchangePhase_spec
    {device : NativeCollectiveDevice DeviceId Tensor Prepared Work Operation}
    {op : T → T → T} {devices : List DeviceId} {inputs : List Prepared}
    {held : List (Buffer T length)}
    {contents : Work → List (Buffer T length)}
    (contract : NativeContract device op devices inputs held contents)
    {offset : Nat → Nat} (cut : Cut offset size length)
    (lead : Nat) (reduce : Bool)
    (states : Nat → ZMod size → Buffer T length)
    (rounds : ∀ time, time + 1 < size →
      ringRound (if reduce then op else overwrite) (slotAt offset)
        (lead : ZMod size) time (states time) = states (time + 1))
    {work : Work} (begun : contents work = ranked (states 0)) :
    ∃ final, (List.range (size - 1)).foldlM (fun work step =>
        device.exchange work
          (stepRanges (ranked fun slot : ZMod size => slotSpan offset slot)
            size step lead) reduce) work = .ok final ∧
      contents final = ranked (states (size - 1)) := by
  refine foldlM_range_invariant (fun time work => contents work = ranked (states time)) begun ?_
  intro time current early has
  rw [stepRanges_eq_ranked offset (by omega)]
  obtain ⟨next, exchanged, after⟩ := contract.exchanges current
    (ranked fun position : ZMod size =>
      slotSpan offset (position + (lead : ZMod size) - (time : ZMod size)))
    reduce (by rw [has, length_ranked, length_ranked])
    (by
      intro range member
      obtain ⟨rank, -, same⟩ := List.mem_map.mp member
      rw [← same]
      exact ⟨slotSpan_start_le cut _, slotSpan_stop_le cut _⟩)
  refine ⟨next, exchanged, ?_⟩
  rw [after, has, passOn_ranked cut, rounds time (by omega)]

end Ring

/-- Before `finish` every rank holds the reduction of all inputs. -/
theorem ringAllReduce_spec
    {device : NativeCollectiveDevice DeviceId Tensor Prepared Work Operation}
    {op : T → T → T} [Std.Associative op] [Std.Commutative op]
    {devices : List DeviceId} {inputs : List Prepared}
    {held : List (Buffer T length)}
    {contents : Work → List (Buffer T length)}
    (contract : NativeContract device op devices inputs held contents)
    (positive : 0 < devices.length) (operation : Operation) :
    ∃ work, ringAllReduce device devices inputs operation = device.finish work operation ∧
      (contents work).length = devices.length ∧
      ∀ buffer ∈ contents work, (List.ofFn buffer).map some =
        elementwise op (held.map List.ofFn) length := by
  have present : NeZero devices.length := ⟨by omega⟩
  obtain ⟨begun, started, brought⟩ := contract.begins
  obtain ⟨values, same⟩ := exists_ranked contract.one_each
  have cut := Cut.balanced length positive
  obtain ⟨reduced, reducePhase, partly⟩ := exchangePhase_spec contract cut 0
    true (fun time position element => reducing op (values · element)
      (slotAt (balancedOffset length devices.length) element - ((0 : Nat) : ZMod devices.length))
      time position)
    (fun time early => ringRound_reducing op _ _ time early values)
    (by
      rw [brought, same]
      refine congrArg ranked (funext fun position =>
        funext fun element => ?_)
      exact (reducing_zero op (values · element) _ position).symm)
  obtain ⟨gathered, gatherPhase, complete⟩ := exchangePhase_spec contract
    cut 1 false (fun time position element => spreading
      (fun position => reducing op (values · element)
        (slotAt (balancedOffset length devices.length) element -
        ((0 : Nat) : ZMod devices.length))
        (devices.length - 1) position)
      (slotAt (balancedOffset length devices.length) element - ((1 : Nat) : ZMod devices.length))
      time position)
    (fun time early => ringRound_spreading _ _ time early _)
    (by
      rw [partly]
      refine congrArg ranked (funext fun position =>
        funext fun element => ?_)
      exact (spreading_zero _ _ position).symm)
  refine ⟨gathered, ?_, by rw [complete, length_ranked], ?_⟩
  · simp only [ringAllReduce, started, ok_bind, contract.elements,
      balancedRanges_eq_ranked, reducePhase, gatherPhase]
  · intro buffer member
    rw [complete] at member
    obtain ⟨rank, -, rfl⟩ := List.mem_map.mp member
    refine map_some_eq_elementwise op held _ ?_
    intro element
    rw [same, map_ranked]
    have total := spreading_reducing op (values · element)
      (slotAt (balancedOffset length devices.length) element)
      ((0 : Nat) : ZMod devices.length) (rank : ZMod devices.length)
    rw [Nat.cast_zero, zero_add] at total
    rw [reduceAll_ranked op (values · element) (slotAt
      (balancedOffset length devices.length) element - 0), ← total]
    simp only [Nat.cast_zero, Nat.cast_one]

end RuCCL.InProcess
