import RuCCL.Library.Bytes
import RuCCL.Library.Columns
import RuCCL.Library.Result
import RuCCL.Rank.AllReducePasses

/-!
# Reductions on the host

The gathered blocks of the ranks are decoded, combined one after the other and
encoded again.  Integers wrap around and booleans are combined as bits, so the
order of the blocks does not matter.
-/

namespace RuCCL.Rank

open RuCCL.Library

class HostReductionElement (T : Type) where
  size : Nat
  decode : List UInt8 → Except String (List T)
  encode : List T → List UInt8
  combine : T → T → ReductionOperation → Except String T

/-- An integer of `width` bytes. -/
structure HostInteger (signed : Bool) (width : Nat) where
  bits : BitVec (8 * width)
  deriving DecidableEq

namespace HostInteger

variable {signed : Bool} {width : Nat}

/-- The number that the bits stand for. -/
def value (integer : HostInteger signed width) : Int :=
  if signed then integer.bits.toInt else integer.bits.toNat

def fromLeBytes (chunk : List UInt8) : HostInteger signed width :=
  ⟨BitVec.ofNat _ (leValue chunk)⟩

def toLeBytes (integer : HostInteger signed width) : List UInt8 :=
  leBytes width integer.bits.toNat

def decode (bytes : List UInt8) :
    Except String (List (HostInteger signed width)) := do
  let length := bytes.length
  rejectIf (length % width ≠ 0)
    s!"host reduction byte length {length} is not divisible by {width}"
  return (exactSegments width bytes).map fromLeBytes

def encode (values : List (HostInteger signed width)) : List UInt8 := values.flatMap toLeBytes

/-- What `combine` gives, wrapping around. -/
def combined (operation : ReductionOperation)
    (self source : HostInteger signed width) : HostInteger signed width :=
  match operation with
  | .sum => ⟨self.bits + source.bits⟩
  | .product => ⟨self.bits * source.bits⟩
  | .minimum => if source.value < self.value then source else self
  | .maximum => if source.value < self.value then self else source
  | .bitAnd => ⟨self.bits &&& source.bits⟩
  | .bitOr => ⟨self.bits ||| source.bits⟩
  | .bitXor => ⟨self.bits ^^^ source.bits⟩

end HostInteger

instance (signed : Bool) (width : Nat) :
    HostReductionElement (HostInteger signed width) where
  size := width
  decode := HostInteger.decode
  encode := HostInteger.encode
  combine := fun self source operation =>
    .ok (HostInteger.combined operation self source)

def decodeBool (value : UInt8) : Except String Bool :=
  if value = 0 then .ok false
  else if value = 1 then .ok true
  else .error s!"invalid boolean reduction byte {value}"

def encodeBool (value : Bool) : UInt8 :=
  if value then 1 else 0

def combinedBool (operation : ReductionOperation) (self source : Bool) : Bool :=
  match operation with
  | .sum | .maximum | .bitOr => self || source
  | .product | .minimum | .bitAnd => self && source
  | .bitXor => self ^^ source

instance : HostReductionElement Bool where
  size := 1
  decode := fun bytes => bytes.mapM decodeBool
  encode := fun values => values.map encodeBool
  combine := fun self source operation =>
    .ok (combinedBool operation self source)

open HostReductionElement in
/-- Combine every value with the one that is zipped with it. -/
def combineInto {T : Type} [HostReductionElement T]
    (operation : ReductionOperation) : List T → List T → Except String (List T)
  | destination :: rest, value :: values => do
      let combined ← combine destination value operation
      let others ← combineInto operation rest values
      return combined :: others
  | output, _ => return output

open HostReductionElement in
def reduceHostValues (T : Type) [HostReductionElement T]
    (payload : List UInt8) (elementsPerRank worldSize : Nat)
    (operation : ReductionOperation) : Except String (List UInt8) := do
  let expectedElements ← okOr (checkedMul elementsPerRank worldSize)
    "host reduction element count overflow"
  let expectedBytes ← okOr (checkedMul expectedElements (size T))
    "host reduction byte count overflow"
  let received := payload.length
  rejectIf (received ≠ expectedBytes)
    s!"host reduction received {received} bytes, expected {expectedBytes}"
  if elementsPerRank = 0 then
    return []
  else
    let values : List T ← decode payload
    let output ← (List.range' 1 (worldSize - 1)).foldlM
      (fun output source =>
        combineInto operation output (segment values (source * elementsPerRank) elementsPerRank))
      (values.take elementsPerRank)
    return encode output

/-- Elements whose operations are total and order-free, and whose bytes are told
apart. -/
class ExactReductionElement (T : Type) extends HostReductionElement T where
  combined : ReductionOperation → T → T → T
  valid : UInt8 → Prop
  sized : 0 < size
  combine_eq : ∀ self source operation,
    combine self source operation = .ok (combined operation self source)
  commutative : ∀ operation first second,
    combined operation first second = combined operation second first
  associative : ∀ operation first second third,
    combined operation (combined operation first second) third =
      combined operation first (combined operation second third)
  length_encode : ∀ values, (encode values).length = values.length * size
  encode_append : ∀ values others, encode (values ++ others) = encode values ++ encode others
  decode_encode : ∀ values, decode (encode values) = .ok values
  decode_valid : ∀ bytes, bytes.length % size = 0 → (∀ byte ∈ bytes, valid byte) →
      ∃ values, decode bytes = .ok values ∧ encode values = bytes
  decode_invalid : ∀ bytes, (∃ byte ∈ bytes, ¬valid byte) →
    ∃ message, decode bytes = .error message

namespace HostInteger

variable {signed : Bool} {width : Nat}

theorem value_injective : Function.Injective (value : HostInteger signed width → Int) := by
  rintro ⟨bits⟩ ⟨others⟩ same
  cases signed with
  | false =>
      have naturals : (bits.toNat : Int) = others.toNat := same
      rw [BitVec.toNat_inj.mp (Int.ofNat_inj.mp naturals)]
  | true =>
      have integers : bits.toInt = others.toInt := same
      rw [BitVec.toInt_inj.mp integers]

/-- The greater value has the smaller opposite. -/
theorem combined_maximum :
    combined .maximum = fun self source : HostInteger signed width =>
      leastBy (fun integer => -integer.value) source self := by
  funext self source
  simp only [combined, leastBy, neg_lt_neg_iff]

theorem opposite_injective : Function.Injective
    fun integer : HostInteger signed width => -integer.value :=
  neg_injective.comp value_injective

theorem combined_comm (operation : ReductionOperation) (first second : HostInteger signed width) :
    combined operation first second = combined operation second first := by
  cases operation with
  | sum => exact congrArg mk (BitVec.add_comm _ _)
  | product => exact congrArg mk (BitVec.mul_comm _ _)
  | minimum => exact leastBy_comm value_injective first second
  | maximum =>
      rw [combined_maximum]
      exact leastBy_comm opposite_injective second first
  | bitAnd => exact congrArg mk (BitVec.and_comm _ _)
  | bitOr => exact congrArg mk (BitVec.or_comm _ _)
  | bitXor => exact congrArg mk (BitVec.xor_comm _ _)

theorem combined_assoc (operation : ReductionOperation)
    (first second third : HostInteger signed width) :
    combined operation (combined operation first second) third =
      combined operation first (combined operation second third) := by
  cases operation with
  | sum => exact congrArg mk (BitVec.add_assoc _ _ _)
  | product => exact congrArg mk (BitVec.mul_assoc _ _ _)
  | minimum => exact leastBy_assoc value first second third
  | maximum =>
      rw [combined_maximum]
      exact (leastBy_assoc _ third second first).symm
  | bitAnd => exact congrArg mk (BitVec.and_assoc _ _ _)
  | bitOr => exact congrArg mk (BitVec.or_assoc _ _ _)
  | bitXor => exact congrArg mk (BitVec.xor_assoc _ _ _)

theorem pow_bytes : 256 ^ width = 2 ^ (8 * width) := by
  rw [pow_mul]
  rfl

theorem fromLeBytes_toLeBytes (integer : HostInteger signed width) :
    fromLeBytes integer.toLeBytes = integer := by
  have fits : integer.bits.toNat < 256 ^ width := by
    rw [pow_bytes]
    exact integer.bits.isLt
  rw [fromLeBytes, toLeBytes, leValue_leBytes fits, BitVec.ofNat_toNat, BitVec.setWidth_eq]

theorem toLeBytes_fromLeBytes {chunk : List UInt8} (exact : chunk.length = width) :
    (fromLeBytes chunk : HostInteger signed width).toLeBytes = chunk := by
  have fits : leValue chunk < 2 ^ (8 * width) := by
    rw [← pow_bytes, ← exact]
    exact leValue_lt chunk
  rw [toLeBytes, fromLeBytes, BitVec.toNat_ofNat, Nat.mod_eq_of_lt fits, ← exact, leBytes_leValue]

theorem length_toLeBytes (integer : HostInteger signed width) :
    integer.toLeBytes.length = width :=
  leBytes_length _ _

theorem length_encode (values : List (HostInteger signed width)) :
    (encode values).length = values.length * width := by
  rw [encode, List.length_flatMap]
  simp [length_toLeBytes]

theorem decode_of_divisible {bytes : List UInt8} (divisible : bytes.length % width = 0) :
    (decode bytes : Except String (List (HostInteger signed width))) =
      .ok ((exactSegments width bytes).map fromLeBytes) := by
  simp only [decode, rejectIf, divisible, ne_eq, not_true_eq_false, if_false]
  rfl

theorem decode_encode (positive : 0 < width) (values : List (HostInteger signed width)) :
    decode (encode values) = .ok values := by
  have divisible : (encode values).length % width = 0 := by
    rw [length_encode, Nat.mul_mod_left]
  have chunks : exactSegments width (encode values) =
      values.map toLeBytes := by
    apply exactSegments_flatten positive
    intro part member
    obtain ⟨integer, -, rfl⟩ := List.mem_map.mp member
    exact length_toLeBytes integer
  have restored : (values.map toLeBytes).map fromLeBytes = values := by
    rw [List.map_map]
    exact (List.map_congr_left fun integer _ =>
      fromLeBytes_toLeBytes integer).trans (List.map_id values)
  rw [decode_of_divisible divisible, chunks, restored]

theorem encode_decode (positive : 0 < width) {bytes : List UInt8}
    (divisible : bytes.length % width = 0) :
    encode ((exactSegments width bytes).map
      (fromLeBytes : List UInt8 → HostInteger signed width)) = bytes := by
  obtain ⟨whole, exact⟩ := flatten_exactSegments positive divisible
  rw [encode, List.flatMap_map, List.flatMap_def,
    List.map_congr_left (fun chunk member =>
      toLeBytes_fromLeBytes (exact chunk member)), List.map_id', whole]

end HostInteger

instance (signed : Bool) (width : Nat) [NeZero width] :
    ExactReductionElement (HostInteger signed width) where
  combined := HostInteger.combined
  valid := fun _ => True
  sized := NeZero.pos width
  combine_eq := fun _ _ _ => rfl
  commutative := HostInteger.combined_comm
  associative := HostInteger.combined_assoc
  length_encode := HostInteger.length_encode
  encode_append := fun _ _ => List.flatMap_append
  decode_encode := HostInteger.decode_encode (NeZero.pos width)
  decode_valid := fun _ divisible _ =>
    ⟨_, HostInteger.decode_of_divisible divisible,
      HostInteger.encode_decode (NeZero.pos width) divisible⟩
  decode_invalid := fun _ ⟨_, _, invalid⟩ => absurd trivial invalid

theorem decodeBool_encodeBool (value : Bool) : decodeBool (encodeBool value) = .ok value := by
  cases value <;> rfl

theorem decodeBool_valid {byte : UInt8} (valid : byte = 0 ∨ byte = 1) :
    ∃ value, decodeBool byte = .ok value ∧ encodeBool value = byte := by
  rcases valid with rfl | rfl
  · exact ⟨false, rfl, rfl⟩
  · exact ⟨true, rfl, rfl⟩

theorem mapM_decodeBool_encode (values : List Bool) :
    (values.map encodeBool).mapM decodeBool = .ok values := by
  induction values with
  | nil => rfl
  | cons value rest ih =>
      rw [List.map_cons, List.mapM_cons, decodeBool_encodeBool, ih]
      rfl

theorem mapM_decodeBool_valid {bytes : List UInt8} (valid : ∀ byte ∈ bytes, byte = 0 ∨ byte = 1) :
    ∃ values, bytes.mapM decodeBool = .ok values ∧ values.map encodeBool = bytes := by
  induction bytes with
  | nil => exact ⟨[], rfl, rfl⟩
  | cons byte rest ih =>
      obtain ⟨value, decoded, encoded⟩ := decodeBool_valid (valid byte List.mem_cons_self)
      obtain ⟨values, others, behind⟩ := ih
        fun other member => valid other (List.mem_cons_of_mem _ member)
      refine ⟨value :: values, ?_, ?_⟩
      · rw [List.mapM_cons, decoded, others]
        rfl
      · rw [List.map_cons, encoded, behind]

theorem mapM_decodeBool_invalid {bytes : List UInt8}
    (invalid : ∃ byte ∈ bytes, ¬(byte = 0 ∨ byte = 1)) :
    ∃ message, bytes.mapM decodeBool = .error message := by
  induction bytes with
  | nil =>
      obtain ⟨byte, member, -⟩ := invalid
      cases member
  | cons byte rest ih =>
      rw [List.mapM_cons]
      by_cases here : byte = 0 ∨ byte = 1
      · obtain ⟨value, decoded, -⟩ := decodeBool_valid here
        obtain ⟨other, member, bad⟩ := invalid
        have later : other ∈ rest := by
          rcases List.mem_cons.mp member with rfl | behind
          · exact absurd here bad
          · exact behind
        obtain ⟨message, failed⟩ := ih ⟨other, later, bad⟩
        refine ⟨message, ?_⟩
        rw [decoded, failed]
        rfl
      · rw [not_or] at here
        refine ⟨s!"invalid boolean reduction byte {byte}", ?_⟩
        rw [decodeBool, if_neg here.1, if_neg here.2]
        rfl

theorem combinedBool_comm (operation : ReductionOperation) (first second : Bool) :
    combinedBool operation first second =
      combinedBool operation second first := by
  cases operation <;> decide +revert

theorem combinedBool_assoc (operation : ReductionOperation) (first second third : Bool) :
    combinedBool operation (combinedBool operation first second) third =
      combinedBool operation first (combinedBool operation second third) := by
  cases operation <;> decide +revert

instance : ExactReductionElement Bool where
  combined := combinedBool
  valid := fun byte => byte = 0 ∨ byte = 1
  sized := Nat.one_pos
  combine_eq := fun _ _ _ => rfl
  commutative := combinedBool_comm
  associative := combinedBool_assoc
  length_encode := fun _ =>
    (List.length_map encodeBool).trans (Nat.mul_one _).symm
  encode_append := fun _ _ => List.map_append
  decode_encode := mapM_decodeBool_encode
  decode_valid := fun _ _ valid => mapM_decodeBool_valid valid
  decode_invalid := fun _ invalid => mapM_decodeBool_invalid invalid

section Exact

open HostReductionElement ExactReductionElement

variable {T : Type} [ExactReductionElement T]
  {operation : ReductionOperation} {elements worldSize : Nat}

theorem combineInto_eq (output values : List T) (lengths : values.length = output.length) :
    combineInto operation output values =
      .ok (List.zipWith (combined operation) output values) := by
  induction output generalizing values with
  | nil =>
      cases values with
      | nil => rfl
      | cons value rest => cases lengths
  | cons destination rest ih =>
      cases values with
      | nil => cases lengths
      | cons value others =>
          rw [combineInto, combine_eq, ih others (Nat.succ.inj lengths)]
          rfl

theorem foldlM_combineInto (rows : List (List T)) (first : List T)
    (lengths : ∀ row ∈ rows, row.length = first.length) :
    rows.foldlM (combineInto operation) first =
      .ok (rows.foldl (List.zipWith (combined operation)) first) := by
  induction rows generalizing first with
  | nil => rfl
  | cons row rows ih =>
      have head := lengths row List.mem_cons_self
      rw [List.foldlM_cons, combineInto_eq first row head]
      apply ih
      intro other member
      rw [List.length_zipWith, head, Nat.min_self]
      exact lengths other (List.mem_cons_of_mem _ member)

theorem encode_flatten (rows : List (List T)) :
    encode rows.flatten = (rows.map encode).flatten := by
  induction rows with
  | nil =>
      have empty := length_encode ([] : List T)
      rw [List.length_nil, Nat.zero_mul, List.length_eq_zero_iff] at empty
      exact empty
  | cons row rows ih =>
      rw [List.flatten_cons, encode_append, ih]
      rfl

/-- The payloads that are reduced. -/
structure Reducible (T : Type) [ExactReductionElement T]
    (payload : List UInt8) (elements worldSize : Nat) : Prop where
  fits : elements * worldSize * size T < wordSize
  whole : payload.length = elements * worldSize * size T
  readable : elements ≠ 0 → ∀ byte ∈ payload, valid T byte

/-- The checks in front of the reduction. -/
theorem reduceHostValues_checked {payload : List UInt8}
    (fits : elements * worldSize * size T < wordSize)
    (whole : payload.length = elements * worldSize * size T) :
    reduceHostValues T payload elements worldSize operation =
      if elements = 0 then .ok []
      else do
        let values : List T ← decode payload
        let output ← (List.range' 1 (worldSize - 1)).foldlM
          (fun output source => combineInto operation output
            (segment values (source * elements) elements))
          (values.take elements)
        return encode output := by
  have counted : elements * worldSize < wordSize :=
    (Nat.le_mul_of_pos_right _ sized).trans_lt fits
  simp only [reduceHostValues, checkedMul, if_pos counted, okOr]
  simp only [ok_bind, if_pos fits, rejectIf, whole, ne_eq, not_true_eq_false, if_false]
  rfl

theorem reduceHostValues_error {payload : List UInt8}
    (refused : ¬Reducible T payload elements worldSize) :
    ∃ message, reduceHostValues T payload elements worldSize operation =
      .error message := by
  by_cases counted : elements * worldSize < wordSize
  · by_cases fits : elements * worldSize * size T < wordSize
    · by_cases whole : payload.length = elements * worldSize * size T
      · have unreadable : ¬(elements ≠ 0 → ∀ byte ∈ payload, valid T byte) :=
          fun readable => refused ⟨fits, whole, readable⟩
        simp only [not_forall] at unreadable
        obtain ⟨some, byte, member, invalid⟩ := unreadable
        obtain ⟨message, failed⟩ : ∃ message,
            (decode payload : Except String (List T)) = .error message :=
          decode_invalid payload ⟨byte, member, invalid⟩
        refine ⟨message, ?_⟩
        rw [reduceHostValues_checked fits whole, if_neg some, failed]
        rfl
      · simp only [reduceHostValues, checkedMul, if_pos counted, okOr]
        simp only [ok_bind, if_pos fits, rejectIf, whole, ne_eq, not_false_eq_true, if_true]
        exact ⟨_, rfl⟩
    · refine ⟨"host reduction byte count overflow", ?_⟩
      simp only [reduceHostValues, checkedMul, if_pos counted, okOr]
      simp only [ok_bind, if_neg fits]
      rfl
  · refine ⟨"host reduction element count overflow", ?_⟩
    simp only [reduceHostValues, checkedMul, if_neg counted, okOr]
    rfl

/-- The encodings of rows are reduced row by row. -/
theorem reduceHostValues_rows {first : List T} {rows : List (List T)}
    (lengths : ∀ row ∈ first :: rows, row.length = elements)
    (fits : elements * (first :: rows).length * size T < wordSize)
    (some : elements ≠ 0) :
    reduceHostValues T (encode (first :: rows).flatten) elements
        (first :: rows).length operation =
      .ok (encode (rows.foldl (List.zipWith (combined operation)) first)) := by
  have head := lengths first List.mem_cons_self
  have whole : (encode (first :: rows).flatten).length =
      elements * (first :: rows).length * size T := by
    rw [length_encode, length_flatten_rows lengths]
  have front : (first :: rows).flatten.take elements = first := by
    rw [List.flatten_cons, ← head, List.take_left']
    rfl
  have others : ∀ row ∈ rows, row.length = first.length := by
    intro row member
    rw [head]
    exact lengths row (List.mem_cons_of_mem _ member)
  have folded := @foldlM_combineInto T _ operation rows first others
  conv at folded =>
    lhs
    rw [← map_segment_rows lengths]
  rw [List.foldlM_map] at folded
  rw [reduceHostValues_checked fits whole, if_neg some, decode_encode,
    ok_bind, front, List.length_cons, Nat.add_sub_cancel, folded]
  rfl

theorem encode_nil : encode ([] : List T) = [] := by
  have empty := length_encode ([] : List T)
  rwa [List.length_nil, Nat.zero_mul, List.length_eq_zero_iff] at empty

/-- Readable blocks are the encodings of rows. -/
theorem decode_blocks {blocks : List (List UInt8)}
    (lengths : ∀ block ∈ blocks, block.length = elements * size T)
    (readable : ∀ block ∈ blocks, ∀ byte ∈ block, valid T byte) :
    ∃ rows : List (List T), blocks.mapM decode = .ok rows ∧
      rows.map encode = blocks ∧ ∀ row ∈ rows, row.length = elements := by
  induction blocks with
  | nil => exact ⟨[], rfl, rfl, fun row member => (by cases member)⟩
  | cons block blocks ih =>
      have length := lengths block List.mem_cons_self
      obtain ⟨row, decoded, encoded⟩ : ∃ row : List T,
          decode block = .ok row ∧ encode row = block :=
        decode_valid block (by rw [length, Nat.mul_mod_left])
          (readable block List.mem_cons_self)
      have elementsOf : row.length = elements := by
        apply Nat.eq_of_mul_eq_mul_right (@sized T _)
        rw [← length_encode, encoded, length]
      obtain ⟨rows, others, behind, exact⟩ := ih
        (fun other member => lengths other (List.mem_cons_of_mem _ member))
        (fun other member => readable other (List.mem_cons_of_mem _ member))
      refine ⟨row :: rows, ?_, ?_, ?_⟩
      · rw [List.mapM_cons, decoded, others]
        rfl
      · rw [List.map_cons, encoded, behind]
      · intro other member
        rcases List.mem_cons.mp member with rfl | later
        · exact elementsOf
        · exact exact other later

theorem Reducible.readable_all {payload : List UInt8}
    (reducible : Reducible T payload elements worldSize) :
    ∀ byte ∈ payload, valid T byte := by
  by_cases empty : elements = 0
  · have whole := reducible.whole
    rw [empty, Nat.zero_mul, Nat.zero_mul, List.length_eq_zero_iff] at whole
    rw [whole]
    intro byte member
    cases member
  · exact reducible.readable empty

/-- The result holds at every position the fold of the blocks' values there. -/
structure FoldsBlocks (operation : ReductionOperation) (elements : Nat)
    (blocks : List (List UInt8)) (totals : List T) : Prop where
  length : totals.length = elements
  folds : ∃ rows : List (List T), blocks.mapM decode = .ok rows ∧ ∀ position < elements,
      totals[position]? = reduceAll (combined operation) (column rows position)

theorem reduceHostValues_blocks {blocks : List (List UInt8)} (positive : 1 ≤ blocks.length)
    (lengths : ∀ block ∈ blocks, block.length = elements * size T)
    (reducible : Reducible T blocks.flatten elements blocks.length) :
    ∃ totals : List T, FoldsBlocks operation elements blocks totals ∧
      reduceHostValues T blocks.flatten elements blocks.length operation =
        .ok (encode totals) := by
  have readable : ∀ block ∈ blocks, ∀ byte ∈ block, valid T byte :=
    fun block member byte among => reducible.readable_all byte
      (List.mem_flatten_of_mem member among)
  obtain ⟨rows, decoded, encoded, exact⟩ := decode_blocks lengths readable
  have payload : blocks.flatten = encode rows.flatten := by
    rw [encode_flatten, encoded]
  have count : blocks.length = rows.length := by
    rw [← encoded, List.length_map]
  by_cases empty : elements = 0
  · refine ⟨[], ⟨empty.symm, rows, decoded, ?_⟩, ?_⟩
    · intro position inside
      omega
    · rw [reduceHostValues_checked reducible.fits reducible.whole, if_pos empty, encode_nil]
  · cases rows with
    | nil =>
        rw [count] at positive
        cases positive
    | cons first rows =>
        have head := exact first List.mem_cons_self
        have others : ∀ row ∈ rows, row.length = first.length := by
          intro row member
          rw [head]
          exact exact row (List.mem_cons_of_mem _ member)
        refine ⟨rows.foldl (List.zipWith (combined operation)) first,
          ⟨?_, first :: rows, decoded, ?_⟩, ?_⟩
        · rw [length_foldl_zipWith _ others, head]
        · intro position inside
          exact getElem?_foldl_zipWith _ others (by rw [head]; exact inside)
        · have fits := reducible.fits
          rw [count] at fits
          rw [payload, count]
          exact reduceHostValues_rows exact fits empty

theorem reduceHostValues_ok {payload : List UInt8} (positive : 1 ≤ worldSize)
    (reducible : Reducible T payload elements worldSize) :
    ∃ result, reduceHostValues T payload elements worldSize operation =
      .ok result := by
  by_cases empty : elements = 0
  · refine ⟨[], ?_⟩
    rw [reduceHostValues_checked reducible.fits reducible.whole, if_pos empty]
  · have width : 0 < elements * size T := Nat.mul_pos (Nat.pos_of_ne_zero empty) sized
    have total : payload.length = worldSize * (elements * size T) := by
      rw [reducible.whole, Nat.mul_comm elements, Nat.mul_assoc]
    have divisible : payload.length % (elements * size T) = 0 := by
      rw [total, Nat.mul_mod_left]
    obtain ⟨whole, exact⟩ := flatten_exactSegments width divisible
    have count : (exactSegments (elements * size T) payload).length =
        worldSize := by
      rw [exactSegments, List.length_map, List.length_range, total, Nat.mul_div_cancel _ width]
    obtain ⟨totals, -, result⟩ := @reduceHostValues_blocks T _ operation _ _
      (by rw [count]; exact positive) exact
      (by rw [whole, count]; exact reducible)
    rw [whole, count] at result
    exact ⟨_, result⟩

theorem reduceHostValues_error_iff {payload : List UInt8} (positive : 1 ≤ worldSize) :
    (∃ message, reduceHostValues T payload elements worldSize operation =
      .error message) ↔ ¬Reducible T payload elements worldSize := by
  constructor
  · rintro ⟨message, failed⟩ reducible
    obtain ⟨result, succeeded⟩ :=
      @reduceHostValues_ok T _ operation _ _ _ positive reducible
    rw [failed] at succeeded
    cases succeeded
  · exact reduceHostValues_error

theorem Reducible.perm {payload other : List UInt8} (permuted : payload.Perm other)
    (reducible : Reducible T payload elements worldSize) :
    Reducible T other elements worldSize where
  fits := reducible.fits
  whole := by
    rw [← permuted.length_eq]
    exact reducible.whole
  readable := fun some byte member =>
    reducible.readable some byte (permuted.mem_iff.mpr member)

instance (operation : ReductionOperation) : Std.Commutative (combined operation : T → T → T) :=
  ⟨commutative operation⟩

instance (operation : ReductionOperation) : Std.Associative (combined operation : T → T → T) :=
  ⟨associative operation⟩

/-- Reordered blocks have the same totals. -/
theorem FoldsBlocks.perm {blocks others : List (List UInt8)}
    {totals otherTotals : List T} (permuted : blocks.Perm others)
    (folds : FoldsBlocks operation elements blocks totals)
    (otherFolds : FoldsBlocks operation elements others otherTotals) :
    totals = otherTotals := by
  obtain ⟨rows, decoded, here⟩ := folds.folds
  obtain ⟨otherRows, otherDecoded, there⟩ := otherFolds.folds
  have rowsPermuted : rows.Perm otherRows := by
    have images := permuted.map (decode : List UInt8 → Except String (List T))
    rw [mapM_eq_ok_iff.mp decoded, mapM_eq_ok_iff.mp otherDecoded] at images
    exact (List.map_perm_map_iff fun _ _ same => Except.ok.inj same).mp images
  apply List.ext_getElem?
  intro position
  by_cases inside : position < elements
  · rw [here position inside, there position inside]
    exact reduceAll_perm _ (column_perm rowsPermuted position)
  · rw [List.getElem?_eq_none (by rw [folds.length]; omega),
      List.getElem?_eq_none (by rw [otherFolds.length]; omega)]

theorem reduceHostValues_perm {blocks others : List (List UInt8)} (positive : 1 ≤ blocks.length)
    (lengths : ∀ block ∈ blocks, block.length = elements * size T)
    (permuted : blocks.Perm others) :
    (reduceHostValues T blocks.flatten elements blocks.length operation).toOption =
      (reduceHostValues T others.flatten elements blocks.length operation).toOption := by
  have payloads := permuted.flatten
  by_cases reducible : Reducible T blocks.flatten elements blocks.length
  · obtain ⟨totals, folds, result⟩ := @reduceHostValues_blocks T _ operation
      _ _ positive lengths reducible
    have otherReducible := reducible.perm payloads
    rw [permuted.length_eq] at otherReducible positive
    obtain ⟨otherTotals, otherFolds, otherResult⟩ :=
      @reduceHostValues_blocks T _ operation _ _ positive
        (fun block member => lengths block (permuted.mem_iff.mpr member))
        otherReducible
    rw [result, permuted.length_eq, otherResult, folds.perm permuted otherFolds]
  · obtain ⟨message, failed⟩ :=
      @reduceHostValues_error T _ operation _ _ _ reducible
    obtain ⟨otherMessage, otherFailed⟩ :=
      @reduceHostValues_error T _ operation _ blocks.length _
        fun again => reducible (again.perm payloads.symm)
    rw [failed, otherFailed]
    rfl

end Exact

/-- The element types that are reduced exactly on the host. -/
inductive ExactElement where
  | u8 | i8 | u16 | i16 | u32 | u64 | i64 | bool
  deriving DecidableEq

/-- The values of an element type. -/
abbrev ExactElement.Value : ExactElement → Type
  | u8 => HostInteger false 1
  | i8 => HostInteger true 1
  | u16 => HostInteger false 2
  | i16 => HostInteger true 2
  | u32 => HostInteger false 4
  | u64 => HostInteger false 8
  | i64 => HostInteger true 8
  | bool => Bool

instance (kind : ExactElement) : ExactReductionElement kind.Value :=
  match kind with
  | .u8 => inferInstanceAs (ExactReductionElement (HostInteger false 1))
  | .i8 => inferInstanceAs (ExactReductionElement (HostInteger true 1))
  | .u16 => inferInstanceAs (ExactReductionElement (HostInteger false 2))
  | .i16 => inferInstanceAs (ExactReductionElement (HostInteger true 2))
  | .u32 => inferInstanceAs (ExactReductionElement (HostInteger false 4))
  | .u64 => inferInstanceAs (ExactReductionElement (HostInteger false 8))
  | .i64 => inferInstanceAs (ExactReductionElement (HostInteger true 8))
  | .bool => inferInstanceAs (ExactReductionElement Bool)

/-- Only the bytes of booleans can be unreadable. -/
theorem ExactElement.valid_iff (kind : ExactElement) (byte : UInt8) :
    ExactReductionElement.valid kind.Value byte ↔ (kind = .bool → byte = 0 ∨ byte = 1) := by
  cases kind with
  | bool => exact ⟨fun valid _ => valid, fun valid => valid rfl⟩
  | u8 | i8 | u16 | i16 | u32 | u64 | i64 =>
      exact ⟨fun _ same => (by cases same), fun _ => trivial⟩

theorem not_reducible_iff {kind : ExactElement} {payload : List UInt8}
    {elements worldSize : Nat} :
    ¬Reducible kind.Value payload elements worldSize ↔ wordSize ≤
          elements * worldSize * HostReductionElement.size kind.Value ∨
        payload.length ≠ elements * worldSize * HostReductionElement.size kind.Value ∨
        elements ≠ 0 ∧ kind = .bool ∧ ∃ byte ∈ payload, byte ≠ 0 ∧ byte ≠ 1 := by
  constructor
  · intro refused
    by_contra fine
    simp only [not_or, not_and, not_exists, not_le, not_not] at fine
    obtain ⟨fits, whole, bytes⟩ := fine
    refine refused ⟨fits, whole, ?_⟩
    intro some byte member
    rw [ExactElement.valid_iff]
    intro boolean
    by_cases zero : byte = 0
    · exact Or.inl zero
    · exact Or.inr (bytes some boolean byte member zero)
  · rintro (large | other | ⟨some, boolean, byte, member, zero, one⟩) reducible
    · exact absurd reducible.fits (Nat.not_lt.mpr large)
    · exact other reducible.whole
    · have valid := reducible.readable some byte member
      rw [ExactElement.valid_iff] at valid
      rcases valid boolean with same | same
      · exact zero same
      · exact one same

/-- The reduction of integers and booleans is an order-free fold. -/
theorem reduce_host_values_order_free (kind : ExactElement)
    (operation : ReductionOperation) (elements worldSize : Nat)
    (positive : 1 ≤ worldSize) :
    (∀ payload : List UInt8,
      (∃ message, reduceHostValues kind.Value payload elements worldSize
          operation = .error message) ↔
        wordSize ≤ elements * worldSize * HostReductionElement.size kind.Value ∨ payload.length ≠
            elements * worldSize * HostReductionElement.size kind.Value ∨
          elements ≠ 0 ∧ kind = .bool ∧ ∃ byte ∈ payload, byte ≠ 0 ∧ byte ≠ 1) ∧
    (∀ blocks : List (List UInt8), blocks.length = worldSize →
      (∀ block ∈ blocks, block.length = elements * HostReductionElement.size kind.Value) →
      ∀ result, reduceHostValues kind.Value blocks.flatten elements worldSize
          operation = .ok result →
        ∃ totals : List kind.Value, FoldsBlocks operation elements blocks totals ∧
            result = HostReductionElement.encode totals) ∧
    (∀ blocks others : List (List UInt8), blocks.length = worldSize →
      (∀ block ∈ blocks, block.length = elements * HostReductionElement.size kind.Value) →
      blocks.Perm others →
      (reduceHostValues kind.Value blocks.flatten elements worldSize operation).toOption =
        (reduceHostValues kind.Value others.flatten elements worldSize operation).toOption) ∧
    ∀ values : List kind.Value, HostReductionElement.decode (HostReductionElement.encode values) =
        .ok values := by
  refine ⟨?fails, ?folds, ?permuted, ?restored⟩
  case fails =>
    intro payload
    rw [reduceHostValues_error_iff positive, not_reducible_iff]
  case folds =>
    rintro blocks rfl lengths result succeeded
    have reducible : Reducible kind.Value blocks.flatten elements
        blocks.length := by
      by_contra refused
      obtain ⟨message, failed⟩ :=
        @reduceHostValues_error kind.Value _ operation _ _ _ refused
      rw [failed] at succeeded
      cases succeeded
    obtain ⟨totals, folds, found⟩ := @reduceHostValues_blocks kind.Value _
      operation _ _ positive lengths reducible
    rw [found] at succeeded
    exact ⟨totals, folds, (Except.ok.inj succeeded).symm⟩
  case permuted =>
    rintro blocks others rfl lengths permuted
    exact reduceHostValues_perm positive lengths permuted
  case restored => exact ExactReductionElement.decode_encode

/-- Two blocks of one signed byte, exchanged. -/
theorem reduce_host_values_order_free_bytes :
    (reduceHostValues (ExactElement.Value .i8) [100, 29] 1 2 .sum).toOption =
      (reduceHostValues (ExactElement.Value .i8) [29, 100] 1 2 .sum).toOption :=
  (reduce_host_values_order_free .i8 .sum 1 2 (by decide)).2.2.1
    [[100], [29]] [[29], [100]] rfl (by decide) (List.Perm.swap _ _ _)

end RuCCL.Rank
