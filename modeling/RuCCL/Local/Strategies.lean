import RuCCL.Global.Orchestrator

/-!
# Local collective strategies

The tensors of one node are a map from its peers to tensors.  Devices and tensors
belong to the backend, whose operations are taken as they are; everything the
strategies do with the maps, the groups of a tree and the slices of a ring is
written out.  An `expect`, an `unwrap`, an `assert` or an index that fails is a
`Stop`, and so is a recursion that does not end.

The order in which a hash map is walked is that of its entries.
-/

namespace RuCCL.Local

open RuCCL.Library RuCCL.Global

/-- The operations on tensors that the strategies use. -/
structure Backend (Tensor Device : Type) where
  shape : Tensor → List Nat
  floatDevice : Tensor → Device
  deviceId : Device → Nat
  floatToDevice : Tensor → Device → Tensor
  floatAdd : Tensor → Tensor → Tensor
  floatDivScalar : Tensor → Nat → Tensor
  floatSlice : Tensor → List (Nat × Nat) → Tensor
  floatSliceAssign : Tensor → List (Nat × Nat) → Tensor → Tensor
  floatCat : List Tensor → Nat → Tensor

/-- The places where the code panics. -/
inductive PanicSite where
  | tensorPeerMismatch | tensorsLeft | sourceNotInMap | rootNotInMap
  | centralNotInDevices | differentSizes | noDimension | divideByZero
  | indexOutOfRange | noTensors | noCalls | configUndefined
  | deviceUndefined | globalClientUndefined | globalStrategyUndefined
  deriving DecidableEq

inductive Stop where
  | panic (site : PanicSite)
  | endless
  deriving DecidableEq

abbrev CollectiveTensorMap (Tensor : Type) := Table PeerId Tensor
abbrev PeerDeviceMap (Device : Type) := Table PeerId Device

/-- Collect pairs into a map; a later pair replaces an earlier one. -/
def collect {Value : Type} (pairs : List (PeerId × Value)) :
    Table PeerId Value :=
  pairs.foldl (fun table pair => table.insert pair.1 pair.2) ∅

/-- The pairs of a map. -/
def pairs {Value : Type} (table : Table PeerId Value) : List (PeerId × Value) :=
  table.entries.map fun entry => (entry.1, entry.2)

/-- Walk over the first list and take the next entry of the second one each
time. -/
def pairUp {α β : Type} : List α → List β → Except Stop (List (α × β))
  | [], _ => .ok []
  | _ :: _, [] => .error (.panic .indexOutOfRange)
  | left :: lefts, right :: rights => do
      let later ← pairUp lefts rights
      .ok ((left, right) :: later)

/-- A parent takes the next `arity` entries as its children. -/
def groups {α : Type} (arity : Nat) : Nat → List α → List (α × List α)
  | 0, _ => []
  | _, [] => []
  | fuel + 1, parent :: rest => (parent, rest.take arity) :: groups arity fuel (rest.drop arity)

/-- The groups of a whole list. -/
def grouped {α : Type} (arity : Nat) (items : List α) : List (α × List α) :=
  groups arity items.length items

section Strategies

variable {Tensor Device : Type} (B : Backend Tensor Device)

def getCommonShape (tensors : CollectiveTensorMap Tensor) : Option (List Nat) :=
  match values tensors with
  | [] => none
  | first :: rest =>
      if rest.all fun tensor => B.shape tensor = B.shape first then
        some (B.shape first)
      else none

def getPeerDevices (tensors : CollectiveTensorMap Tensor) :
    PeerDeviceMap Device :=
  collect ((pairs tensors).map fun pair => (pair.1, B.floatDevice pair.2))

/-- Add tensors to one of them, on its device. -/
def sumOnto (first : Tensor) (others : List Tensor) : Tensor := others.foldl
    (fun sum tensor =>
      B.floatAdd sum (B.floatToDevice tensor (B.floatDevice first)))
    first

def reduceSumCentralized (tensors : CollectiveTensorMap Tensor)
    (central : PeerId) : Except Stop Tensor := do
  let centralTensor ← okOr (tensors.lookup central) (.panic .sourceNotInMap)
  .ok (sumOnto B centralTensor (values (tensors.erase central)))

def reduceSumTreeInner (arity : Nat) :
    Nat → List Tensor → Except Stop Tensor
  | 0, _ => .error .endless
  | fuel + 1, tensors =>
      match (grouped arity tensors).map fun group =>
        sumOnto B group.1 group.2 with
      | [] => .error (.panic .indexOutOfRange)
      | [root] => .ok root
      | parents => reduceSumTreeInner arity fuel parents

/-- Sort by the devices, those of the same type together. -/
def sortByDevice {α : Type} (device : α → Device) (items : List α) :
    List α :=
  items.mergeSort fun left right =>
    decide (B.deviceId (device left) ≤ B.deviceId (device right))

def reduceSumTree (tensors : CollectiveTensorMap Tensor) (root : PeerId)
    (arity : UInt32) : Except Stop Tensor := do
  let rootTensor ← okOr (tensors.lookup root) (.panic .rootNotInMap)
  let input := rootTensor :: sortByDevice B B.floatDevice (values (tensors.erase root))
  reduceSumTreeInner B arity.toNat input.length input

def broadcastCentralized (devices : PeerDeviceMap Device) (central : PeerId) (tensor : Tensor) :
    Except Stop (CollectiveTensorMap Tensor) := do
  let _ ← okOr (devices.lookup central) (.panic .centralNotInDevices)
  let output := collect ((pairs (devices.erase central)).map fun pair =>
    (pair.1, B.floatToDevice tensor pair.2))
  .ok (output.insert central tensor)

/-- What a parent has goes to its children; the parent comes last. -/
def redistribute (parent : PeerId × Tensor)
    (children : List (PeerId × Device)) : List (PeerId × Tensor) :=
  children.map (fun child =>
    (child.1, B.floatToDevice parent.2 child.2)) ++ [parent]

def broadcastTreeInner (tensor : Tensor) (arity : Nat) :
    Nat → List (PeerId × Device) → Except Stop (List (PeerId × Tensor))
  | 0, _ => .error .endless
  | fuel + 1, devices =>
      let parentsAndChildren := grouped arity devices
      let upper : Except Stop (List (PeerId × Tensor)) :=
        match parentsAndChildren with
        | [] => .error (.panic .indexOutOfRange)
        | [(root, _)] => .ok [(root.1, tensor)]
        | _ =>
            broadcastTreeInner tensor arity fuel (parentsAndChildren.map Prod.fst)
      do
        let parents ← upper
        let matched ← pairUp (parentsAndChildren.map Prod.snd) parents
        .ok (matched.flatMap fun pair => redistribute B pair.2 pair.1)

def broadcastTree (devices : PeerDeviceMap Device) (root : PeerId)
    (tensor : Tensor) (arity : UInt32) :
    Except Stop (CollectiveTensorMap Tensor) := do
  let rootDevice ← okOr (devices.lookup root) (.panic .rootNotInMap)
  let ordered := (root, rootDevice) :: sortByDevice B Prod.snd (pairs (devices.erase root))
  let output ← broadcastTreeInner B tensor arity.toNat ordered.length ordered
  .ok (collect output)

def allReduceSumTreeInner (arity : Nat) :
    Nat → List (PeerId × Tensor) → Except Stop (List (PeerId × Tensor))
  | 0, _ => .error .endless
  | fuel + 1, tensors =>
      let parentsAndChildren := grouped arity tensors
      let summed := parentsAndChildren.map fun group =>
        (group.1.1, sumOnto B group.1.2 (group.2.map Prod.snd))
      let children := parentsAndChildren.map fun group =>
        group.2.map fun child => (child.1, B.floatDevice child.2)
      let upper : Except Stop (List (PeerId × Tensor)) :=
        if 1 < summed.length then allReduceSumTreeInner arity fuel summed
        else .ok summed
      do
        let parents ← upper
        let matched ← pairUp parents children
        .ok (matched.flatMap fun pair => redistribute B pair.1 pair.2)

def allReduceSumTree (tensors : CollectiveTensorMap Tensor)
    (arity : UInt32) : Except Stop (CollectiveTensorMap Tensor) := do
  let input := sortByDevice B (fun pair => B.floatDevice pair.2) (pairs tensors)
  let output ← allReduceSumTreeInner B arity.toNat (input.length + 1) input
  .ok (collect output)

def allReduceSumCentralized (tensors : CollectiveTensorMap Tensor) :
    Except Stop (CollectiveTensorMap Tensor) := do
  let centralDevice ← okOr tensors.keys.head? (.panic .noTensors)
  let centralTensor ← reduceSumCentralized B tensors centralDevice
  broadcastCentralized B (getPeerDevices B tensors) centralDevice centralTensor

/-- The dimension with the greatest size, the last one of several. -/
def getSliceDim (shape : List Nat) : Option Nat :=
  (shape.zipIdx.foldl
    (fun (greatest : Option (Nat × Nat)) dimension =>
      match greatest with
      | none => some dimension
      | some best => some (if best.1 ≤ dimension.1 then dimension else best))
    none).map Prod.snd

def getRingReduceSliceRanges (sliceDimSize sliceCount : Nat) : Except Stop (List (Nat × Nat)) :=
  if sliceCount = 0 then .error (.panic .divideByZero)
  else
    let sliceSize := (sliceDimSize + sliceCount - 1) / sliceCount
    .ok ((List.range sliceCount).map fun index =>
      (index * sliceSize,
        if index + 1 = sliceCount then sliceDimSize
        else index * sliceSize + sliceSize))

def sliceTensors (tensors : CollectiveTensorMap Tensor)
    (shape : List Nat) (sliceDim sliceDimSize : Nat) :
    Except Stop (List (PeerId × List Tensor)) := do
  let ranges ← getRingReduceSliceRanges sliceDimSize tensors.keys.length
  .ok ((pairs tensors).map fun pair =>
    (pair.1, ranges.map fun range =>
      B.floatSlice pair.2 (shape.zipIdx.map fun dimension =>
        if dimension.2 = sliceDim then range else (0, dimension.1))))

/-- One slice goes to the next tensor of the ring. -/
def ringCycle (isPhaseOne : Bool) (tensorCount cycle source : Nat)
    (slicedTensors : List (PeerId × List Tensor)) :
    Except Stop (List (PeerId × List Tensor)) := do
  let destination := (source + 1) % tensorCount
  let sliceIndex :=
    if isPhaseOne then (source + (tensorCount - 1) * cycle) % tensorCount
    else (source + 1 + (tensorCount - 1) * cycle) % tensorCount
  let sending ← okOr slicedTensors[source]? (.panic .indexOutOfRange)
  let sourceSlice ← okOr sending.2[sliceIndex]? (.panic .indexOutOfRange)
  let receiving ← okOr slicedTensors[destination]? (.panic .indexOutOfRange)
  let destSlice ← okOr receiving.2[sliceIndex]? (.panic .indexOutOfRange)
  let moved := B.floatToDevice sourceSlice (B.floatDevice destSlice)
  let updated :=
    if isPhaseOne then B.floatAdd destSlice moved
    else B.floatSliceAssign destSlice ((B.shape destSlice).map fun size => (0, size)) moved
  .ok (slicedTensors.set destination (receiving.1, receiving.2.set sliceIndex updated))

def ringCycles (isPhaseOne : Bool) (slicedTensors : List (PeerId × List Tensor)) :
    Except Stop (List (PeerId × List Tensor)) :=
  let tensorCount := slicedTensors.length
  (List.range (tensorCount - 1)).foldlM
    (fun sliced cycle => (List.range tensorCount).foldlM
      (fun sliced source =>
        ringCycle B isPhaseOne tensorCount cycle source sliced) sliced)
    slicedTensors

def allReduceSumRing (tensors : CollectiveTensorMap Tensor) :
    Except Stop (CollectiveTensorMap Tensor) := do
  let shape ← okOr (getCommonShape B tensors) (.panic .differentSizes)
  let sliceDim ← okOr (getSliceDim shape) (.panic .noDimension)
  let sliceDimSize ← okOr shape[sliceDim]? (.panic .indexOutOfRange)
  if sliceDimSize < tensors.keys.length then allReduceSumTree B tensors 2
  else
    let sliced ← sliceTensors B tensors shape sliceDim sliceDimSize
    let reduced ← ringCycles B true sliced
    let gathered ← ringCycles B false reduced
    .ok (collect (gathered.map fun pair =>
      (pair.1, B.floatCat pair.2 sliceDim)))

/-- The sum of all tensors for each peer, by the chosen strategy. -/
def allReduceSum (strategy : AllReduceStrategy) (tensors : CollectiveTensorMap Tensor) :
    Except Stop (CollectiveTensorMap Tensor) :=
  match strategy with
  | .centralized => allReduceSumCentralized B tensors
  | .tree arity => allReduceSumTree B tensors arity
  | .ring => allReduceSumRing B tensors

def allReduceLocalOnly (tensors : CollectiveTensorMap Tensor)
    (op : ReduceOperation) (strategy : AllReduceStrategy) :
    Except Stop (CollectiveTensorMap Tensor) := do
  let reduced ← allReduceSum B strategy tensors
  match op with
  | .sum => .ok reduced
  | .mean =>
      .ok (collect ((pairs reduced).map fun pair =>
        (pair.1, B.floatDivScalar pair.2 reduced.keys.length)))

/-- The local part of an all-reduce with other nodes. -/
def mainSum (strategy : AllReduceStrategy)
    (tensors : CollectiveTensorMap Tensor) (mainDevice : PeerId) :
    Except Stop Tensor :=
  match strategy with
  | .centralized => reduceSumCentralized B tensors mainDevice
  | .tree arity => reduceSumTree B tensors mainDevice arity
  | .ring => do
      let reduced ← allReduceSumRing B tensors
      okOr (reduced.lookup mainDevice) (.panic .rootNotInMap)

/-- The way back of an all-reduce with other nodes. -/
def mainBroadcast (strategy : AllReduceStrategy)
    (devices : PeerDeviceMap Device) (mainDevice : PeerId)
    (tensor : Tensor) : Except Stop (CollectiveTensorMap Tensor) :=
  match strategy with
  | .tree arity => broadcastTree B devices mainDevice tensor arity
  | _ => broadcastCentralized B devices mainDevice tensor

/-- With other nodes the local sum goes through a global all-reduce, whose answer
is `allReduceGlobally`. -/
def allReduceWithGlobal (tensors : CollectiveTensorMap Tensor)
    (op : ReduceOperation) (strategy : AllReduceStrategy)
    (globalStrategy : Option AllReduceStrategy)
    (allReduceGlobally : Tensor → AllReduceStrategy → ReduceOperation →
      Except GlobalCollectiveError Tensor) :
    Except Stop (Except GlobalCollectiveError (CollectiveTensorMap Tensor)) := do
  let mainDevice ← okOr tensors.keys.head? (.panic .noTensors)
  let mainTensor ← mainSum B strategy tensors mainDevice
  let chosen ← okOr globalStrategy (.panic .globalStrategyUndefined)
  match allReduceGlobally mainTensor chosen op with
  | .error error => .ok (.error error)
  | .ok result => do
      let output ← mainBroadcast B strategy (getPeerDevices B tensors) mainDevice result
      .ok (.ok output)

end Strategies

end RuCCL.Local
