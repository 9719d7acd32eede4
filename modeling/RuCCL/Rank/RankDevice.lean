import RuCCL.Library.Cell
import RuCCL.Library.Ring
import RuCCL.Library.Segment
import RuCCL.Rank.Layout
import RuCCL.Rank.Routing

/-!
# Devices of ranks

A device stores elements in buffers.  Payloads between ranks are the encoded bytes of
its elements.
-/

namespace RuCCL.Rank

open RuCCL.Library

/-- How a device collective can fail. -/
inductive CollectiveFault where
  | rank (error : RankError)
  | network (error : NetworkError)
  | invalidHierarchy (message : String)
  | device
  | panic
  deriving DecidableEq

/-- The element format of a device, and what its fresh buffers hold. -/
structure RankDevice (T : Type) where
  elementSize : Nat
  encode : List T → List UInt8
  decode : List UInt8 → Except CollectiveFault (List T)
  fresh : (length : Nat) → Buffer T length

namespace RankDevice

variable {T : Type}

/-- Encoding and decoding are inverse, and every element has the same size. -/
structure Lawful (device : RankDevice T) : Prop where
  positive : 0 < device.elementSize
  length_encode : ∀ values, (device.encode values).length = values.length * device.elementSize
  decode_encode : ∀ values, device.decode (device.encode values) = .ok values
  length_of_decode : ∀ bytes values, device.decode bytes = .ok values →
    bytes.length = values.length * device.elementSize

/-- Elements are encoded one behind the other. -/
def Concatenates (device : RankDevice T) : Prop := ∀ first second,
    device.encode (first ++ second) = device.encode first ++ device.encode second

section Operations

variable (device : RankDevice T) {length scratch : Nat}

def copyFromDevice (buffer : Buffer T length) : List T := List.ofFn buffer

def copyFromDeviceAt (buffer : Buffer T length) (offset count : Nat) :
    Except CollectiveFault (List T) := do
  rejectIf (length < offset + count) .device
  .ok (readAt ⟨offset, offset + count⟩ buffer)

def copyToDevice (buffer : Buffer T length) (values : List T) :
    Except CollectiveFault (Buffer T length) := do
  rejectIf (values.length ≠ length) .device
  .ok (mergeAt overwrite 0 values buffer)

def copyBytesFromDeviceAt (buffer : Buffer T length) (offset count : Nat) :
    Except CollectiveFault (List UInt8) := do
  let values ← copyFromDeviceAt buffer offset count
  .ok (device.encode values)

/-- The elements of a payload that has room behind `offset`. -/
def fitting (length offset : Nat) (bytes : List UInt8) :
    Except CollectiveFault (List T) := do
  let values ← device.decode bytes
  rejectIf (length < offset + values.length) .device
  .ok values

def copyBytesToDeviceAt (buffer : Buffer T length) (offset : Nat)
    (bytes : List UInt8) : Except CollectiveFault (Buffer T length) := do
  let values ← device.fitting length offset bytes
  .ok (mergeAt overwrite offset values buffer)

/-- `prepare_reduction` and `launch_reduction`: the first elements of a source are
combined into the destination from `offset` on. -/
def launchReduction (function : T → T → T) (count offset : Nat)
    (source : Buffer T scratch) (destination : Buffer T length) :
    Except CollectiveFault (Buffer T length) := do
  rejectIf (scratch < count) .device
  rejectIf (length < offset + count) .device
  .ok (mergeAt function offset (readAt ⟨0, count⟩ source) destination)

def decodeExact (payload : List UInt8) (expectedElements : Nat) :
    Except CollectiveFault (List T) := do
  let expected ← okOr (checkedMul expectedElements device.elementSize)
    (.rank (.overflow "TCP decoded payload bytes"))
  let actual := payload.length
  rejectIf (actual ≠ expected) (.network (.invalidConfiguration
    s!"TCP response has {actual} bytes, expected {expected}"))
  device.decode payload

def reduceBytesInto (destination : Buffer T length)
    (destinationOffset elementCount : Nat) (values : List UInt8)
    (function : T → T → T) : Except CollectiveFault (Buffer T length) := do
  let expected ← okOr (checkedMul elementCount device.elementSize)
    (.rank (.overflow "reduction input byte length"))
  rejectIf (values.length ≠ expected) (.rank (.invalidLength
    "reduction input does not match its element count"))
  if elementCount = 0 then .ok destination
  else do
    let stop ← okOr (checkedAdd destinationOffset elementCount)
      (.rank (.overflow "hierarchical reduction destination range"))
    rejectIf (length < stop) (.rank (.invalidLength
      "hierarchical reduction destination range is out of bounds"))
    let scratch ← device.copyBytesToDeviceAt (device.fresh elementCount) 0 values
    launchReduction function elementCount destinationOffset scratch destination

def reduceValuesInto (destination : Buffer T length)
    (destinationOffset : Nat) (values : List T) (function : T → T → T) :
    Except CollectiveFault (Buffer T length) :=
  device.reduceBytesInto destination destinationOffset values.length
    (device.encode values) function

/-- The concatenated payloads of all ranks: the first one is copied, the others are
reduced into it, one after the other. -/
def reduceConcatenated (worldSize : Nat) (payload : List UInt8)
    (output : Buffer T length) (function : T → T → T) :
    Except CollectiveFault (Buffer T length) := do
  let rankBytes ← okOr (checkedMul length device.elementSize)
    (.rank (.overflow "TCP reduction rank bytes"))
  let expected ← okOr (checkedMul rankBytes worldSize)
    (.rank (.overflow "TCP reduction response bytes"))
  let actual := payload.length
  rejectIf (actual ≠ expected) (.network (.invalidConfiguration
    s!"TCP reduction response has {actual} bytes, expected {expected}"))
  let first ← device.decode (payload.take rankBytes)
  let output ← copyToDevice output first
  if length = 0 ∨ worldSize = 1 then .ok output
  else
    (List.range (worldSize - 1)).foldlM (fun output earlier => do
      let source := earlier + 1
      let values ← device.decode ((payload.drop (source * rankBytes)).take rankBytes)
      let scratch ← copyToDevice (device.fresh length) values
      launchReduction function length 0 scratch output) output

end Operations

section Results

variable {device : RankDevice T} {length : Nat}

theorem copyFromDeviceAt_eq_ok (buffer : Buffer T length) {offset count : Nat}
    (inside : offset + count ≤ length) :
    copyFromDeviceAt buffer offset count = .ok (readAt ⟨offset, offset + count⟩ buffer) := by
  rw [copyFromDeviceAt, rejectIf, if_neg (Nat.not_lt.mpr inside)]
  rfl

theorem copyBytesFromDeviceAt_eq_ok (buffer : Buffer T length) {offset count : Nat}
    (inside : offset + count ≤ length) :
    device.copyBytesFromDeviceAt buffer offset count =
      .ok (device.encode (readAt ⟨offset, offset + count⟩ buffer)) := by
  rw [copyBytesFromDeviceAt, copyFromDeviceAt_eq_ok buffer inside]
  rfl

theorem copyToDevice_eq_ok (buffer : Buffer T length) {values : List T}
    (same : values.length = length) :
    copyToDevice buffer values = .ok (mergeAt overwrite 0 values buffer) := by
  rw [copyToDevice, rejectIf, if_neg (not_not.mpr same)]
  rfl

theorem copyToDevice_ofFn (source target : Buffer T length) :
    copyToDevice target (List.ofFn source) = .ok source := by
  rw [copyToDevice_eq_ok target List.length_ofFn, mergeAt_overwrite_ofFn source target]

theorem fitting_encode (lawful : device.Lawful) {offset : Nat}
    {values : List T} (inside : offset + values.length ≤ length) :
    device.fitting length offset (device.encode values) = .ok values := by
  rw [fitting, lawful.decode_encode, ok_bind, rejectIf, if_neg (Nat.not_lt.mpr inside)]
  rfl

theorem length_of_fitting (lawful : device.Lawful) {offset count : Nat}
    {bytes : List UInt8} {values : List T}
    (fits : device.fitting length offset bytes = .ok values)
    (sized : bytes.length = count * device.elementSize) :
    values.length = count := by
  obtain ⟨decoded, decodes, rest⟩ := of_bind fits
  obtain ⟨_, _, same⟩ := of_bind rest
  cases same
  have length := lawful.length_of_decode _ _ decodes
  rw [sized] at length
  exact (Nat.eq_of_mul_eq_mul_right lawful.positive length).symm

/-- What arrives in a reduction, whatever the destination holds. -/
def reductionInput (device : RankDevice T) (length destinationOffset
    elementCount : Nat) (values : List UInt8) :
    Except CollectiveFault (List T) := do
  let expected ← okOr (checkedMul elementCount device.elementSize)
    (.rank (.overflow "reduction input byte length"))
  rejectIf (values.length ≠ expected) (.rank (.invalidLength
    "reduction input does not match its element count"))
  if elementCount = 0 then .ok []
  else do
    let stop ← okOr (checkedAdd destinationOffset elementCount)
      (.rank (.overflow "hierarchical reduction destination range"))
    rejectIf (length < stop) (.rank (.invalidLength
      "hierarchical reduction destination range is out of bounds"))
    let scratch ← device.copyBytesToDeviceAt (device.fresh elementCount) 0 values
    rejectIf (length < destinationOffset + elementCount) .device
    .ok (readAt ⟨0, elementCount⟩ scratch)

theorem reduceBytesInto_eq (destination : Buffer T length)
    (offset count : Nat) (values : List UInt8) (function : T → T → T) :
    device.reduceBytesInto destination offset count values function =
      (device.reductionInput length offset count values).map
        fun arrived => mergeAt function offset arrived destination := by
  have room : rejectIf (count < count) CollectiveFault.device = .ok () :=
    if_neg (Nat.lt_irrefl count)
  simp only [reduceBytesInto, reductionInput, launchReduction, room, ok_bind]
  cases okOr (checkedMul count device.elementSize)
      (CollectiveFault.rank (.overflow "reduction input byte length")) with
  | error failure => rfl
  | ok expected =>
      simp only [ok_bind]
      cases rejectIf (values.length ≠ expected) (CollectiveFault.rank
          (.invalidLength "reduction input does not match its element count")) with
      | error failure => rfl
      | ok _ =>
          simp only [ok_bind]
          split
          · simp only [Except.map, mergeAt_nil]
          · cases okOr (checkedAdd offset count) (CollectiveFault.rank
                (.overflow "hierarchical reduction destination range")) with
            | error failure => rfl
            | ok stop =>
                simp only [ok_bind]
                cases rejectIf (length < stop) (CollectiveFault.rank
                    (.invalidLength
                      "hierarchical reduction destination range is out of bounds")) with
                | error failure => rfl
                | ok _ =>
                    simp only [ok_bind]
                    cases device.copyBytesToDeviceAt (device.fresh count) 0 values with
                    | error failure => rfl
                    | ok scratch =>
                        simp only [ok_bind]
                        cases rejectIf (length < offset + count) CollectiveFault.device with
                        | error failure => rfl
                        | ok _ => rfl

theorem length_of_reductionInput {offset count : Nat} {values : List UInt8} {arrived : List T}
    (input : device.reductionInput length offset count values = .ok arrived) :
    arrived.length = count := by
  obtain ⟨_, _, afterSize⟩ := of_bind input
  obtain ⟨_, _, afterLength⟩ := of_bind afterSize
  split at afterLength
  case isTrue empty =>
    cases afterLength
    exact empty.symm
  case isFalse =>
    obtain ⟨_, _, afterStop⟩ := of_bind afterLength
    obtain ⟨_, _, afterRange⟩ := of_bind afterStop
    obtain ⟨_, _, afterScratch⟩ := of_bind afterRange
    obtain ⟨_, _, same⟩ := of_bind afterScratch
    cases same
    exact length_readAt (Nat.le_refl count)

/-- Encoded elements that fit are reduced. -/
theorem reductionInput_encode (lawful : device.Lawful) {offset : Nat}
    {values : List T} (inside : offset + values.length ≤ length)
    (addressable : length * device.elementSize < wordSize) :
    device.reductionInput length offset values.length (device.encode values) = .ok values := by
  have bytes : values.length * device.elementSize < wordSize :=
    lt_of_le_of_lt (Nat.mul_le_mul_right _ (by omega)) addressable
  have elements : offset + values.length < wordSize :=
    lt_of_le_of_lt (inside.trans (Nat.le_mul_of_pos_right _ lawful.positive)) addressable
  have multiplied := (checkedMul_eq_some_iff values.length device.elementSize _).mpr ⟨bytes, rfl⟩
  have added := (checkedAdd_eq_some_iff offset values.length _).mpr ⟨elements, rfl⟩
  have loaded := fitting_encode lawful (show 0 + values.length ≤ values.length by omega)
  have sized := lawful.length_encode values
  simp only [reductionInput, multiplied, okOr_some, ok_bind, rejectIf, if_neg (not_not.mpr sized)]
  split
  case isTrue empty => rw [List.length_eq_zero_iff.mp empty]
  case isFalse =>
    simp only [added, okOr_some, ok_bind, if_neg (Nat.not_lt.mpr inside),
      copyBytesToDeviceAt, loaded]
    rw [readAt_all, ofFn_mergeAt_overwrite _ rfl]

theorem reduceBytesInto_encode (lawful : device.Lawful) {offset : Nat}
    {values : List T} (inside : offset + values.length ≤ length)
    (addressable : length * device.elementSize < wordSize)
    (destination : Buffer T length) (function : T → T → T) :
    device.reduceBytesInto destination offset values.length (device.encode values) function =
      .ok (mergeAt function offset values destination) := by
  rw [reduceBytesInto_eq, reductionInput_encode lawful inside addressable]
  rfl

/-- The bytes of some elements are their encoding. -/
theorem segment_encode (lawful : device.Lawful)
    (concatenates : device.Concatenates) {values : List T}
    {start count : Nat} (inside : start + count ≤ values.length) :
    Library.segment (device.encode values) (start * device.elementSize)
        (count * device.elementSize) =
      device.encode (Library.segment values start count) := by
  have parts : values = values.take start ++
      (Library.segment values start count ++ (values.drop start).drop count) := by
    rw [Library.segment, List.take_append_drop, List.take_append_drop]
  have front : (device.encode (values.take start)).length = start * device.elementSize := by
    rw [lawful.length_encode, List.length_take, Nat.min_eq_left (by omega)]
  have middle : (device.encode (Library.segment values start count)).length =
      count * device.elementSize := by
    rw [lawful.length_encode, length_segment inside]
  conv_lhs => rw [parts]
  rw [concatenates, concatenates, Library.segment, ← front,
    List.drop_left, ← middle, List.take_left]

theorem decodeExact_encode (lawful : device.Lawful) {values : List T}
    {count : Nat} (same : values.length = count)
    (addressable : count * device.elementSize < wordSize) :
    device.decodeExact (device.encode values) count = .ok values := by
  have multiplied := (checkedMul_eq_some_iff count device.elementSize _).mpr ⟨addressable, rfl⟩
  have sized : (device.encode values).length = count * device.elementSize := by
    rw [lawful.length_encode, same]
  simp only [decodeExact, multiplied, okOr_some, ok_bind, rejectIf,
    if_neg (not_not.mpr sized), lawful.decode_encode]

theorem launchReduction_eq_ok (source destination : Buffer T length) (function : T → T → T) :
    launchReduction function length 0 source destination =
      .ok fun element => function (destination element) (source element) := by
  have inside : ¬length < 0 + length := by
    rw [Nat.zero_add]
    exact Nat.lt_irrefl length
  simp only [launchReduction, rejectIf, if_neg (Nat.lt_irrefl length), if_neg inside, ok_bind]
  rw [show (0 : Nat) = (⟨0, length⟩ : Span).start from rfl, mergeAt_readAt]
  congr 1
  funext element
  exact if_pos ⟨Nat.zero_le _, element.isLt⟩

/-- The encoded buffers of several sources are reduced one after the other. -/
theorem reduceConcatenated_encode (lawful : device.Lawful) {ι : Type}
    (values : ι → Buffer T length) (first : ι) (others : List ι)
    (addressable :
      length * device.elementSize * (others.length + 1) < wordSize)
    (output : Buffer T length) (function : T → T → T) :
    device.reduceConcatenated (others.length + 1)
        ((first :: others).flatMap fun source =>
          device.encode (copyFromDevice (values source)))
        output function =
      .ok (reduceBuffers function values first others) := by
  unfold copyFromDevice
  have bytes : length * device.elementSize < wordSize :=
    lt_of_le_of_lt (Nat.le_mul_of_pos_right _ (Nat.succ_pos _)) addressable
  have rankBytes := (checkedMul_eq_some_iff length device.elementSize _).mpr ⟨bytes, rfl⟩
  have expected := (checkedMul_eq_some_iff (length * device.elementSize)
    (others.length + 1) _).mpr ⟨addressable, rfl⟩
  have sized (source : ι) :
      (device.encode (List.ofFn (values source))).length = length * device.elementSize := by
    rw [lawful.length_encode, List.length_ofFn]
  have uniform : ∀ block ∈ (first :: others).map fun source =>
      device.encode (List.ofFn (values source)),
      block.length = length * device.elementSize := by
    intro block member
    obtain ⟨source, _, rfl⟩ := List.mem_map.mp member
    exact sized source
  have whole : ((first :: others).flatMap fun source =>
      device.encode (List.ofFn (values source))).length =
      length * device.elementSize * (others.length + 1) := by
    rw [List.length_flatMap, List.map_congr_left fun source _ =>
      sized source, List.map_const', List.sum_replicate, List.length_cons]
    exact Nat.mul_comm _ _
  have part {index : Nat} {source : ι} (located : (first :: others)[index]? = some source) :
      Library.segment ((first :: others).flatMap fun source =>
          device.encode (List.ofFn (values source)))
        (index * (length * device.elementSize))
        (length * device.elementSize) =
        device.encode (List.ofFn (values source)) := by
    rw [List.flatMap_def]
    apply segment_flatten_of_length uniform
    rw [List.getElem?_map, located]
    rfl
  have head := part (show (first :: others)[0]? = some first from rfl)
  rw [Nat.zero_mul, Library.segment, List.drop_zero] at head
  simp only [reduceConcatenated, rankBytes, okOr_some, ok_bind, expected,
    rejectIf, if_neg (not_not.mpr whole), head, lawful.decode_encode,
    copyToDevice_ofFn]
  split
  case isTrue done =>
    congr 1
    rcases done with empty | alone
    · subst empty
      funext element
      exact element.elim0
    · rw [List.length_eq_zero_iff.mp (Nat.succ.inj alone)]
      rfl
  case isFalse =>
    have advance : ∀ time total, time < others.length →
        total = reduceBuffers function values first (others.take time) →
        ∃ next, (do
          let arrived ← device.decode (((first :: others).flatMap
            fun source => device.encode (List.ofFn (values source))).drop
              ((time + 1) * (length * device.elementSize)) |>.take
              (length * device.elementSize))
          let scratch ← copyToDevice (device.fresh length) arrived
          launchReduction function length 0 scratch total) = .ok next ∧
          next = reduceBuffers function values first (others.take (time + 1)) := by
      intro time total early held
      have located : (first :: others)[time + 1]? = some others[time] := by
        rw [List.getElem?_cons_succ, List.getElem?_eq_getElem early]
      have next := part located
      rw [Library.segment] at next
      refine ⟨_, ?_, rfl⟩
      rw [List.take_succ_eq_append_getElem early, held]
      simp only [next, lawful.decode_encode, ok_bind, copyToDevice_ofFn, launchReduction_eq_ok]
      congr 1
      funext element
      rw [reduceBuffers, reduceBuffers, List.foldl_append]
      rfl
    obtain ⟨final, computed, reduced⟩ := foldlM_range_invariant
      (fun time total => total = reduceBuffers function values first (others.take time))
      (show values first = reduceBuffers function values first (others.take 0) from rfl) advance
    rw [List.take_length] at reduced
    rw [← reduced]
    exact computed

end Results

/-- Bytes are their own encoding. -/
def bytes : RankDevice UInt8 where
  elementSize := 1
  encode := id
  decode := .ok
  fresh := fun _ _ => 0

theorem lawful_bytes : bytes.Lawful where
  positive := Nat.one_pos
  length_encode := fun values => (Nat.mul_one values.length).symm
  decode_encode := fun _ => rfl
  length_of_decode := by
    intro payload values decoded
    cases decoded
    exact (Nat.mul_one payload.length).symm

theorem concatenates_bytes : bytes.Concatenates := fun _ _ => rfl

end RankDevice

end RuCCL.Rank
