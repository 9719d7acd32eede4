import RuCCL.Local.Strategies
import RuCCL.Library.Exposure
import Mathlib.Data.List.Sort

/-!
# Collectives between nodes

What one node does in a collective is a program over the tensor data service: it
exposes tensors for so many downloads under a transfer id and downloads those of
other nodes.  A tensor travels as data and is put on the device of whoever gets
it.  Each program ends at the barrier that all nodes wait at.
-/

namespace RuCCL.Global

open RuCCL.Library RuCCL.Local

/-- The places where the code of a node panics. -/
inductive NodePanic where
  | noNodes | arityZero | nodeNotInRing | noDimension | sliceRanges
  | indexOutOfRange
  deriving DecidableEq

inductive NodeFailure where
  | error (error : GlobalCollectiveError)
  | panic (site : NodePanic)
  deriving DecidableEq

/-- What a node does on the tensor data service; a transfer id is a number. -/
abbrev NodeProgram (Tensor Result : Type) := Routine NodeId Nat Tensor (Except NodeFailure Result)

/-- What a node knows after its registration. -/
structure RegisteredNode (Address : Type) where
  nodeId : NodeId
  nodes : Table NodeId Address
  numGlobalDevices : UInt32

/-- Sort node ids. -/
def sortNodes (nodes : List NodeId) : List NodeId := nodes.insertionSort (· ≤ ·)

def fail {Tensor Result : Type} (error : GlobalCollectiveError) :
    NodeProgram Tensor Result :=
  .done (.error (.error error))

def panic {Tensor Result : Type} (site : NodePanic) :
    NodeProgram Tensor Result :=
  .done (.error (.panic site))

/-- Go on with a result that is no failure. -/
def andThen {Tensor Result Other : Type} (program : NodeProgram Tensor Result)
    (further : Result → NodeProgram Tensor Other) :
    NodeProgram Tensor Other :=
  program.bind fun
    | .ok result => further result
    | .error failure => .done (.error failure)

variable {Tensor Device Address : Type}

section AllReduce

variable (B : Backend Tensor Device)

/-- Add the tensors of some nodes to a sum, in the order in which they arrive. -/
def sumDownloads {Result : Type} (shape : List Nat) (device : Device)
    (id : Nat) (next : Tensor → NodeProgram Tensor Result) :
    Nat → List NodeId → Tensor → NodeProgram Tensor Result
  | 0, _, sum => next sum
  | count + 1, sources, sum =>
      .await sources id fun source data =>
        let res := B.floatToDevice data device
        if shape ≠ B.shape res then fail .peerSentIncoherentTensor
        else
          sumDownloads shape device id next count (sources.erase source) (B.floatAdd sum res)

def getCentralNode (nodes : List NodeId) : Option NodeId := (sortNodes nodes).head?

def centralizedAllReduceSum (node : NodeId) (nodes : Table NodeId Address)
    (tensor : Tensor) : NodeProgram Tensor Tensor :=
  let ids := nodes.keys
  let shape := B.shape tensor
  let device := B.floatDevice tensor
  match getCentralNode ids with
  | none => panic .noNodes
  | some central =>
      if central = node then
        let others := ids.filter fun id => id ≠ central
        sumDownloads B shape device 0
          (fun sum => .expose sum (ids.length - 1) 1 (.done (.ok sum)))
          others.length others tensor
      else
        .expose tensor 1 0 <| .await [central] 1 fun _ data =>
          let res := B.floatToDevice data device
          if shape ≠ B.shape res then fail .peerSentIncoherentTensor
          else .done (.ok res)

structure TreeTopology where
  parents : Table NodeId NodeId
  children : Table NodeId (List NodeId)

/-- The nodes behind a position of a tree. -/
def childWindow (nodes : List NodeId) (arity position : Nat) :
    List NodeId :=
  let first := position * arity + 1
  if first < nodes.length then
    (nodes.drop first).take (min (first + arity) nodes.length - first)
  else []

/-- One parent with its children. -/
def addParent (nodes : List NodeId) (arity : Nat) (topology : TreeTopology)
    (entry : NodeId × Nat) : TreeTopology :=
  let children := childWindow nodes arity entry.2
  { parents := children.foldl (fun parents child => parents.insert child entry.1) topology.parents
    children := topology.children.insert entry.1 children }

def getTreeTopology (nodes : List NodeId) (arity : UInt32) :
    Option TreeTopology :=
  if arity = 0 then none
  else
    let sorted := sortNodes nodes
    some (sorted.zipIdx.foldl (addParent sorted arity.toNat) ⟨∅, ∅⟩)

/-- The way down: what a node has goes to its children. -/
def exposeToChildren (children : Option (List NodeId)) (result : Tensor) :
    NodeProgram Tensor Tensor :=
  match children with
  | some (child :: rest) => .expose result (child :: rest).length 1 (.done (.ok result))
  | _ => .done (.ok result)

def treeAllReduceSum (node : NodeId) (nodes : Table NodeId Address)
    (tensor : Tensor) (arity : UInt32) : NodeProgram Tensor Tensor :=
  let shape := B.shape tensor
  let device := B.floatDevice tensor
  match getTreeTopology nodes.keys arity with
  | none => panic .arityZero
  | some strategy =>
      let children := strategy.children.lookup node
      let below := children.getD []
      sumDownloads B shape device 0
        (fun result =>
          match strategy.parents.lookup node with
          | some parent =>
              .expose result 1 0 <| .await [parent] 1 fun _ data =>
                let parentTensor := B.floatToDevice data device
                if B.shape parentTensor ≠ shape then
                  fail .peerSentIncoherentTensor
                else exposeToChildren children parentTensor
          | none => exposeToChildren children result)
        below.length below tensor

def getRingTopology (nodes : List NodeId) : List NodeId := sortNodes nodes

/-- Cut a tensor into slices along a dimension. -/
def sliceTensor (tensor : Tensor) (sliceDim : Nat)
    (sliceRanges : List (Nat × Nat)) : List Tensor :=
  let fullRange := (B.shape tensor).map fun dim => (0, dim)
  sliceRanges.map fun range =>
    B.floatSlice tensor (fullRange.set sliceDim range)

/-- The slices of a node, its transfer counter and the slice it sends next. -/
structure RingState (Tensor : Type) where
  slices : List Tensor
  transferCounter : Nat
  sendSliceIdx : Nat

/-- Some cycles of a ring: one slice goes to the next node, one comes from the
previous one. -/
def doCycles (isPhaseOne : Bool) (prevNode : NodeId) (device : Device) :
    Nat → RingState Tensor → NodeProgram Tensor (RingState Tensor)
  | 0, state => .done (.ok state)
  | cycles + 1, state =>
      let sliceCount := state.slices.length
      let recvSliceIdx := (state.sendSliceIdx + sliceCount - 1) % sliceCount
      match state.slices[state.sendSliceIdx]?, state.slices[recvSliceIdx]? with
      | some sliceSend, some old =>
          .exchange sliceSend 1 state.transferCounter prevNode fun data =>
            let tensor := B.floatToDevice data device
            let received : RingState Tensor := {
              slices := state.slices.set recvSliceIdx
                (if isPhaseOne then B.floatAdd old tensor else tensor)
              transferCounter := state.transferCounter + 1
              sendSliceIdx := recvSliceIdx }
            if ¬isPhaseOne ∧ B.shape old ≠ B.shape tensor then
              fail .peerSentIncoherentTensor
            else doCycles isPhaseOne prevNode device cycles received
      | _, _ => panic .indexOutOfRange

/-- The ring behind its checks. -/
def ringCyclesOf (ring : List NodeId) (position : Nat) (prevNode : NodeId)
    (device : Device) (slices : List Tensor) (sliceDim : Nat) :
    NodeProgram Tensor Tensor :=
  andThen (doCycles B true prevNode device (ring.length - 1) ⟨slices, 0, position⟩) fun reduced =>
      andThen (doCycles B false prevNode device (ring.length - 1) reduced)
        fun gathered => .done (.ok (B.floatCat gathered.slices sliceDim))

def ringAllReduceSum (node : NodeId) (nodes : Table NodeId Address)
    (tensor : Tensor) : NodeProgram Tensor Tensor :=
  let shape := B.shape tensor
  let device := B.floatDevice tensor
  match getSliceDim shape with
  | none => panic .noDimension
  | some sliceDim =>
      let sliceDimSize := shape.getD sliceDim 0
      if sliceDimSize < nodes.keys.length then fail .ringReduceImpossible
      else
        let ring := getRingTopology nodes.keys
        match getRingReduceSliceRanges sliceDimSize ring.length, ring.idxOf? node with
        | .ok ranges, some position =>
            match ring[(position + ring.length - 1) % ring.length]? with
            | some prevNode =>
                ringCyclesOf B ring position prevNode device
                  (sliceTensor B tensor sliceDim ranges) sliceDim
            | none => panic .indexOutOfRange
        | .error _, _ => panic .sliceRanges
        | _, none => panic .nodeNotInRing

/-- The all-reduce of one node, behind the agreement with the others. -/
def allReduceInner (state : RegisteredNode Address) (tensor : Tensor)
    (strategy : AllReduceStrategy) (op : ReduceOperation) :
    NodeProgram Tensor Tensor :=
  andThen
    (match strategy with
      | .centralized => centralizedAllReduceSum B state.nodeId state.nodes tensor
      | .tree arity => treeAllReduceSum B state.nodeId state.nodes tensor arity
      | .ring => ringAllReduceSum B state.nodeId state.nodes tensor)
    fun result =>
      match op with
      | .mean => .done (.ok (B.floatDivScalar result state.numGlobalDevices.toNat))
      | .sum => .done (.ok result)

end AllReduce

section Rooted

/-- The parent and the children of a node in the tree below a root. -/
def neighbors (node root : NodeId) (nodes : Table NodeId Address) (arity : Option UInt32) :
    Except GlobalCollectiveError (Option NodeId × List NodeId) := do
  rejectIf (arity = some 0) .invalidTreeArity
  rejectIf (root ∉ nodes) .collectiveParamsMismatch
  let ids := root :: sortNodes (nodes.keys.filter fun id => id ≠ root)
  let i ← okOr (ids.idxOf? node) .collectiveBeforeRegister
  let k := max ((arity.map UInt32.toNat).getD ids.length) 1
  let parent := if i ≠ 0 then ids[(i - 1) / k]? else none
  let first := min (i * k + 1) ids.length
  let last := min (first + k) ids.length
  .ok (parent, (ids.drop first).take (last - first))

end Rooted

end RuCCL.Global
