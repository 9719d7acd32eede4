import Mathlib.Tactic.NormNum
import RuCCL.Local.RingExact

/-!
# All strategies of an all-reduce agree

With exact elements every strategy gives each peer the sum of all tensors, or that
sum divided by the number of peers, on the device of its own tensor.
-/

namespace RuCCL.Local

open RuCCL.Library RuCCL.Global

variable {Tensor Device Element : Type} {B : Backend Tensor Device}
  {content : Tensor → Index → Element} [AddCommMonoid Element]
  {divide : Element → Nat → Element} {shape : List Nat}

/-- A strategy can be run on so many tensors of a shape. -/
def StrategyFits (shape : List Nat) (count : Nat) :
    AllReduceStrategy → Prop
  | .centralized => True
  | .tree arity => 1 ≤ arity.toNat
  | .ring => RingSliceable shape count

/-- What an operation makes of the sum of `count` elements. -/
def finished (divide : Element → Nat → Element) (op : ReduceOperation)
    (count : Nat) (sum : Element) : Element :=
  match op with
  | .sum => sum
  | .mean => divide sum count

section Exact

variable (exact : Exact B content divide) {tensors : CollectiveTensorMap Tensor}

include exact

theorem allReduceSum_serves {strategy : AllReduceStrategy} (present : tensors.keys ≠ [])
    (same : ∀ tensor ∈ values tensors, B.shape tensor = shape)
    (fits : StrategyFits shape tensors.keys.length strategy) :
    ∃ output, allReduceSum B strategy tensors = .ok output ∧
      Served B content (getPeerDevices B tensors) shape
        (total content (values tensors)) output := by
  cases strategy with
  | centralized => exact allReduceSumCentralized_serves exact present same
  | tree arity => exact allReduceSumTree_serves exact fits same
  | ring => exact allReduceSumRing_serves exact present same fits

/-- Dividing every tensor of a map. -/
theorem Served.divided {devices : PeerDeviceMap Device}
    {entries : Index → Element} {output : CollectiveTensorMap Tensor}
    (served : Served B content devices shape entries output) {count : Nat}
    (positive : 0 < count) :
    Served B content devices shape (fun index => divide (entries index) count)
      (collect ((pairs output).map fun pair =>
        (pair.1, B.floatDivScalar pair.2 count))) := by
  have names : ((pairs output).map fun pair =>
      (pair.1, B.floatDivScalar pair.2 count)).map Prod.fst =
      output.keys := by
    rw [List.map_map, ← map_fst_pairs]
    rfl
  have distinct : (((pairs output).map fun pair =>
      (pair.1, B.floatDivScalar pair.2 count)).map Prod.fst).Nodup := by
    rw [names]
    exact AList.keys_nodup output
  refine ⟨?_, ?_⟩
  · have permuted := keys_collect_perm distinct
    rw [names] at permuted
    exact permuted.trans served.peers
  · intro peer device located
    obtain ⟨result, found, held⟩ := served.each peer device located
    refine ⟨B.floatDivScalar result count,
      lookup_collect_of_mem distinct ?_, held.divided exact positive⟩
    exact List.mem_map.mpr ⟨(peer, result), mem_pairs_iff.mpr found, rfl⟩

theorem allReduceLocalOnly_serves {strategy : AllReduceStrategy} (present : tensors.keys ≠ [])
    (same : ∀ tensor ∈ values tensors, B.shape tensor = shape)
    (fits : StrategyFits shape tensors.keys.length strategy)
    (op : ReduceOperation) :
    ∃ output, allReduceLocalOnly B tensors op strategy = .ok output ∧
      Served B content (getPeerDevices B tensors) shape
        (fun index => finished divide op tensors.keys.length
          (total content (values tensors) index)) output := by
  obtain ⟨reduced, computed, served⟩ := allReduceSum_serves exact present same fits
  rw [allReduceLocalOnly, computed, ok_bind]
  cases op with
  | sum => exact ⟨reduced, rfl, served⟩
  | mean =>
      have count : reduced.keys.length = tensors.keys.length :=
        (served.peers.trans (keys_getPeerDevices tensors)).length_eq
      refine ⟨_, rfl, ?_⟩
      rw [count]
      exact served.divided exact (List.length_pos_iff.mpr present)

end Exact

def rationalMean (sum : ℚ) (count : Nat) : ℚ := sum / count

/-- Three peers on two devices. -/
def threeTensors : CollectiveTensorMap (DenseTensor ℚ) :=
  collect [(7, ⟨[6, 2], 0, fun index => index 0 + 10 * index 1⟩),
    (3, ⟨[6, 2], 1, fun index => 5 * index 0⟩),
    (5, ⟨[6, 2], 0, fun _ => -1⟩)]

theorem ringSliceable_three : RingSliceable [6, 2] 3 := by
  have inside : (3 - 1) * sliceSize 6 3 < 6 := by decide
  exact ⟨0, 6, rfl, rfl, Or.inr ⟨_,
    getRingReduceSliceRanges_eq_offsets (by decide) inside,
    PartitionsAxis.offsets (by decide) inside⟩⟩

end RuCCL.Local
