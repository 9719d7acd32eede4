import RuCCL.Rank.AllGatherRuns
import RuCCL.Rank.AllToAllV
import RuCCL.Rank.DeviceAllToAllV

/-!
# An all-to-all with counts through the control path

The requests carry the elements for all ranks, and the control path answers every rank
with the elements that all ranks have for it.
-/

namespace RuCCL.Rank

open RuCCL.Library
open RankTransport

section ControlPath

variable {size : Nat}

/-- The counts of all sources for one rank. -/
def columnOf (counts : Fin size → Fin size → Nat) (rank : Fin size) :
    List Nat :=
  List.ofFn fun source => counts source rank

/-- Every rank gets the counts and the shards that are addressed to it when they fit
into a frame. -/
theorem routes_counted {checksum : List UInt8 → UInt32}
    {uniqueId : UniqueId} {worldSize : UInt32} {elementType : ElementType}
    {requests : Fin worldSize.toNat → Frame}
    {counts : Fin worldSize.toNat → Fin worldSize.toNat → Nat}
    {shards : Fin worldSize.toNat → Fin worldSize.toNat → List UInt8}
    (positive : 0 < worldSize.toNat) (concrete : elementType ≠ .none)
    (carries : ∀ source, Carries elementType.byteWidth (requests source)
      (counts source) (shards source))
    (submits : ∀ rank : Fin worldSize.toNat, Submits uniqueId
      worldSize.toNat ⟨.allToAllV, elementType, anyRank, 0, 0⟩ rank
      (requests rank))
    (small : ∀ rank, worldSize.toNat * 8 + (columnOf counts rank).sum * elementType.byteWidth ≤
        maxFramePayloadBytes) :
    ∃ answers : Fin worldSize.toNat → Frame,
      (validateAndRoute checksum ⟨worldSize.toNat, 0, fun _ => none⟩
        uniqueId 0 (List.ofFn requests)).2 = .ok (List.ofFn answers) ∧
      ∀ rank, Counted worldSize.toNat elementType.byteWidth (answers rank) (columnOf counts rank)
        (List.ofFn fun source => shards source rank).flatten := by
  have limit : maxFramePayloadBytes < wordSize := by decide
  have width : 0 < elementType.byteWidth := by
    cases elementType <;> first | decide | exact absurd rfl concrete
  have total (rank : Fin worldSize.toNat) : (columnOf counts rank).sum < wordSize := by
    have less := Nat.le_mul_of_pos_right (columnOf counts rank).sum width
    have few := small rank
    omega
  have filled (rank : Fin worldSize.toNat) :
      (List.ofFn fun source => shards source rank).flatten.length =
        (columnOf counts rank).sum * elementType.byteWidth :=
    length_flatten_shards fun source => (carries source).sized rank
  have world : (UInt32.ofNat worldSize.toNat).toNat = worldSize.toNat := by
    rw [UInt32.ofNat_toNat]
  have built (rank : Fin worldSize.toNat) : ∃ answer,
      columnFrame checksum uniqueId 0 elementType rank.val (fun source => counts source rank)
          (fun source => shards source rank) = .ok answer ∧
        Counted worldSize.toNat elementType.byteWidth answer (columnOf counts rank)
          (List.ofFn fun source => shards source rank).flatten := by
    obtain ⟨answer, made, counted⟩ := @CountedHeader.exists_frame checksum _
      (@counted_columnHeader worldSize.toNat checksum uniqueId 0 elementType
        concrete rank (columnOf counts rank).sum rank.isLt worldSize.toNat_lt)
      (columnOf counts rank)
      (List.ofFn fun source => shards source rank).flatten
      (List.length_ofFn.trans world.symm)
      (UInt64.toNat_ofNat_of_lt' (total rank)) (filled rank)
      (by
        rw [filled, columnOf, List.length_ofFn]
        exact small rank)
    change Counted (UInt32.ofNat worldSize.toNat).toNat _ _ _ _ at counted
    rw [world] at counted
    exact ⟨answer, made, counted⟩
  choose answers columns counted using built
  refine ⟨answers, ?_, counted⟩
  have first : (List.ofFn requests)[0]? = some (requests ⟨0, positive⟩) := by
    rw [List.getElem?_ofFn, dif_pos positive]
  have described := (submits ⟨0, positive⟩).described
  have opcode : (requests ⟨0, positive⟩).header.opcode = .allToAllV :=
    congrArg OperationDescriptor.opcode described
  have typed : (requests ⟨0, positive⟩).header.elementType = elementType :=
    congrArg OperationDescriptor.elementType described
  have declared := (carries ⟨0, positive⟩).counted.declared
  have fits := (carries ⟨0, positive⟩).counted.dataFits
  have routed := (routeAllToAllV_eq_ok_iff concrete (Nat.ne_of_gt width)
    carries (List.ofFn answers)).mpr ⟨answers, rfl, fun rank =>
      ⟨total rank, lt_of_le_of_lt (Nat.le_of_add_left_le (small rank)) limit, columns rank⟩⟩
  have submitted : ∀ index request, (List.ofFn requests)[index]? = some request →
      Submits uniqueId worldSize.toNat
        ⟨.allToAllV, elementType, anyRank, 0, 0⟩ index request := by
    intro index request located
    obtain ⟨inside, rfl⟩ := getElem?_ofFn_eq located
    exact submits ⟨index, inside⟩
  rw [validateAndRoute_routes List.length_ofFn submitted]
  unfold routeRequests
  simpa only [indexAt, first, okOr_some, ok_bind, typed, declared,
    orInvalid, checkedMul, if_pos fits, opcode] using routed

end ControlPath

section Values

variable {T : Type} {size : Nat} (counts : Fin size → Fin size → Nat)
  (inputs : Fin size → SizedBuffer T)

/-- What a rank has for another one. -/
def countedValues (rank destination : Fin size) : List T :=
  Library.segment (List.ofFn (inputs rank).elements)
    (before (List.ofFn (counts rank)) destination) (counts rank destination)

/-- What all ranks have for a rank. -/
def gatheredValues (rank : Fin size) : List T := (List.finRange size).flatMap fun source =>
    countedValues counts inputs source rank

/-- The counts of a rank are those of its input. -/
def Whole : Prop := ∀ rank, (List.ofFn (counts rank)).sum = (inputs rank).length

variable {counts inputs}

theorem length_countedValues (whole : Whole counts inputs) (rank destination : Fin size) :
    (countedValues counts inputs rank destination).length =
      counts rank destination := by
  have located := Carries.getElem?_counts (counts rank) destination
  have inside := before_add_le_sum located
  rw [whole rank] at inside
  apply length_segment
  rw [List.length_ofFn]
  exact inside

theorem flatMap_countedValues (whole : Whole counts inputs) (rank : Fin size) :
    (List.finRange size).flatMap (countedValues counts inputs rank) =
      List.ofFn (inputs rank).elements :=
  flatMap_segment (counts rank) (by rw [whole rank, List.length_ofFn])

theorem length_gatheredValues (whole : Whole counts inputs) (rank : Fin size) :
    (gatheredValues counts inputs rank).length = (columnOf counts rank).sum := by
  rw [gatheredValues, List.length_flatMap, columnOf, List.ofFn_eq_map]
  exact congrArg List.sum (List.map_congr_left fun source _ =>
    length_countedValues whole source rank)

end Values

/-- What a buffer holds that may be missing. -/
def contentsOf {T : Type} : Option (SizedBuffer T) → List T
  | some buffer => List.ofFn buffer.elements
  | none => []

/-- A buffer is there only when it holds something. -/
def sized {T : Type} {total : Nat} (buffer : Buffer T total) : Option (SizedBuffer T) :=
  if total = 0 then none else some ⟨total, buffer⟩

theorem contentsOf_sized {T : Type} {total : Nat} (buffer : Buffer T total) :
    contentsOf (sized buffer) = List.ofFn buffer := by
  unfold sized
  split
  case isTrue empty =>
    subst empty
    rw [List.ofFn_zero]
    rfl
  case isFalse => rfl

/-- Every rank has what all ranks had for it, and how much each of them had. -/
def Exchanged {T : Type} {size : Nat} (counts : Fin size → Fin size → Nat)
    (inputs : Fin size → SizedBuffer T)
    (memory : Fin size → AllToAllVMemory T) : Prop :=
  ∀ rank, (memory rank).counts = columnOf counts rank ∧
    contentsOf (memory rank).buffer = gatheredValues counts inputs rank ∧
    ((memory rank).buffer = none ↔ gatheredValues counts inputs rank = [])

theorem exchanged_of_sized {T : Type} {size : Nat}
    {counts : Fin size → Fin size → Nat} {inputs : Fin size → SizedBuffer T}
    {memory : Fin size → AllToAllVMemory T} (whole : Whole counts inputs)
    (counted : ∀ rank, (memory rank).counts = columnOf counts rank)
    (held : ∀ rank, ∃ buffer : Buffer T (columnOf counts rank).sum,
      (memory rank).buffer = sized buffer ∧
      List.ofFn buffer = gatheredValues counts inputs rank) :
    Exchanged counts inputs memory := by
  intro rank
  obtain ⟨buffer, same, filled⟩ := held rank
  refine ⟨counted rank, ?_, ?_⟩
  · rw [same, contentsOf_sized, filled]
  · have long := length_gatheredValues whole rank
    rw [same, sized, ← List.length_eq_zero_iff, long]
    split
    case isTrue empty => exact iff_of_true rfl empty
    case isFalse some => exact iff_of_false (Option.some_ne_none _) some

namespace DeviceCollective

variable {T : Type} {size : Nat} [NeZero size] {collective : DeviceCollective T size}
  {counts : Fin size → Fin size → Nat} {inputs : Fin size → SizedBuffer T}

/-- Every rank sends its counts with its elements in a frame, and gets the counts and
elements for it in another one. -/
def CountsFit (collective : DeviceCollective T size)
    (counts : Fin size → Fin size → Nat) (inputs : Fin size → SizedBuffer T) :
    Prop :=
  ∀ rank, size * 8 + (inputs rank).length * collective.execution.elementSize ≤
        maxFramePayloadBytes ∧
      size * 8 + (columnOf counts rank).sum * collective.execution.elementSize ≤
        maxFramePayloadBytes

omit [NeZero size] in
/-- What a rank is answered makes up its output. -/
theorem takeCounted_eq_ok (lawful : collective.execution.Lawful)
    (whole : Whole counts inputs) {rank : Fin size} {response : Frame}
    (awaited : (columnOf counts rank).sum * collective.execution.elementSize < wordSize)
    (counted : Counted size collective.execution.elementSize response (columnOf counts rank)
      (collective.execution.encode (gatheredValues counts inputs rank)))
    (memory : AllToAllVMemory T) :
    collective.takeCounted response memory =
      .ok { memory with
        buffer := sized (mergeAt overwrite 0 (gatheredValues counts inputs rank)
          (collective.execution.fresh (columnOf counts rank).sum))
        counts := columnOf counts rank } := by
  have long := length_gatheredValues whole rank
  have small : (columnOf counts rank).sum < wordSize :=
    lt_of_le_of_lt (Nat.le_mul_of_pos_right _ lawful.positive) awaited
  have summed := checkedSum_eq_some_iff.mpr ⟨small, rfl⟩
  have decoded := (decodeCountsResponse_eq_ok_iff ..).mpr counted
  rw [takeCounted, decoded]
  dsimp only [fromCounts]
  rw [ok_bind]
  dsimp only
  rw [summed, okOr_some, ok_bind]
  by_cases empty : (columnOf counts rank).sum = 0
  · have nothing : collective.execution.encode (gatheredValues counts inputs rank) = [] := by
      apply List.eq_nil_of_length_eq_zero
      rw [lawful.length_encode, long, empty, Nat.zero_mul]
    rw [if_pos empty, nothing, rejectIf, if_neg (not_not.mpr rfl), ok_bind, sized, if_pos empty]
  · have values := RankDevice.decodeExact_encode lawful long awaited
    rw [if_neg empty, values, ok_bind,
      RankDevice.copyToDevice_eq_ok _ long, ok_bind, sized, if_neg empty]

/-- Every rank gets from the control path what all ranks have for it. -/
theorem reaches_allToAllVDirect (lawful : collective.execution.Lawful)
    (concatenates : collective.execution.Concatenates)
    (whole : Whole counts inputs)
    (fits : collective.CountsFit counts inputs)
    (before : Fin size → AllToAllVMemory T) :
    ∃ after : Fin size → AllToAllVMemory T, Reaches collective.deviceStep
        (quiet (fun rank => [[collective.allToAllVDirect rank (inputs rank)
          (List.ofFn (counts rank))]]) before)
        (quiet (fun _ => []) after) ∧
      Exchanged counts inputs after := by
  obtain ⟨worldSize, rfl⟩ := collective.exists_worldSize
  have limit : maxFramePayloadBytes < wordSize := by decide
  have concrete := elementType_ne_none lawful
  let shards (source destination : Fin worldSize.toNat) : List UInt8 :=
    collective.execution.encode (countedValues counts inputs source destination)
  let options (rank : Fin worldSize.toNat) : ExchangeOptions :=
    ⟨anyRank, UInt64.ofNat (inputs rank).length, flagCountsPrefix, 0⟩
  let payload (rank : Fin worldSize.toNat) : List UInt8 :=
    encodeCounts (List.ofFn (counts rank)) ++ collective.execution.encode
        (RankDevice.copyFromDevice (inputs rank).elements)
  let header (rank : Fin worldSize.toNat) : FrameHeader :=
    (Call.exchange .allToAllV collective.elementType (options rank)
      (payload rank)).header collective.checksum collective.uniqueId
        (UInt32.ofNat rank) worldSize 0
  have joined (values : Fin worldSize.toNat → List T) :
      (List.ofFn fun source =>
        collective.execution.encode (values source)).flatten =
        collective.execution.encode ((List.finRange worldSize.toNat).flatMap values) := by
    rw [← encode_flatMap lawful concatenates, List.ofFn_eq_map, List.flatMap_def]
  have announces (rank : Fin worldSize.toNat) : CountedHeader (header rank) :=
    { flags := (by decide :
        (0 : UInt16) ||| flagCountsPrefix = flagCountsPrefix)
      opcode := rfl
      concrete := concrete
      source := by
        have among := rank_lt_world collective.world rank
        rwa [UInt32.ofNat_toNat] at among
      destination := Or.inl rfl
      root := rfl }
  have elements (rank : Fin worldSize.toNat) : (inputs rank).length < wordSize := by
    have less := Nat.le_mul_of_pos_right (inputs rank).length lawful.positive
    have few := (fits rank).1
    omega
  have sent (rank : Fin worldSize.toNat) :
      (collective.execution.encode (RankDevice.copyFromDevice (inputs rank).elements)).length =
        (inputs rank).length * collective.execution.elementSize := by
    rw [lawful.length_encode, RankDevice.copyFromDevice, List.length_ofFn]
  have framed (rank : Fin worldSize.toNat) :=
    @CountedHeader.exists_frame collective.checksum _ (announces rank)
      (List.ofFn (counts rank)) (collective.execution.encode
        (RankDevice.copyFromDevice (inputs rank).elements))
      List.length_ofFn
      ((UInt64.toNat_ofNat_of_lt' (elements rank)).trans (whole rank).symm)
      (by
        rw [sent, whole rank]
        exact congrArg _ collective.typed.symm)
      (by
        rw [sent, List.length_ofFn]
        exact (fits rank).1)
  choose requests built counted using framed
  have meets (rank : Fin worldSize.toNat) :=
    Frame.builtFrom_of_new collective.checksum (built rank)
  have carries (source : Fin worldSize.toNat) :
      Carries collective.elementType.byteWidth (requests source)
        (counts source) (shards source) := by
    have rowed := joined (countedValues counts inputs source)
    rw [flatMap_countedValues whole source] at rowed
    refine ⟨?_, fun destination => ?_⟩
    · rw [rowed]
      exact counted source
    · rw [lawful.length_encode, length_countedValues whole, collective.typed]
  have submits (rank : Fin worldSize.toNat) : Submits collective.uniqueId
      worldSize.toNat ⟨.allToAllV, collective.elementType, anyRank, 0, 0⟩
      rank (requests rank) := by
    have opcode : (requests rank).header.opcode = .allToAllV := (meets rank).opcode
    refine ⟨(meets rank).session, ?_, congrArg UInt32.toNat (meets rank).world, ?_⟩
    · rw [(meets rank).source]
      exact toNat_rank collective.world rank
    · rw [requestDescriptor, opcode, if_pos rfl, if_pos rfl,
        (meets rank).elementType, (meets rank).root]
      rfl
  obtain ⟨answers, routed, columns⟩ := @routes_counted collective.checksum
    collective.uniqueId worldSize _ requests counts shards (NeZero.pos _)
    concrete carries submits fun rank => by
      rw [collective.typed]
      exact (fits rank).2
  have exchanged := @reaches_exchanges T worldSize.toNat _ collective _
    .allToAllV collective.elementType options
    (fun rank _ => .ok (payload rank)) (fun _ => collective.takeCounted)
    (fun _ => []) (fun _ => []) before _ payload requests _ (fun _ => rfl)
    (fun rank => by
      rw [request, UInt32.ofNat_toNat]
      exact congrArg (fun result => fromRouting (fromProtocol result)) (built rank))
    (fun rank => by
      rw [(meets rank).opcode]
      exact (by decide : Opcode.allToAllV ≠ .abort))
    routed
    (fun rank response located _ => by
      have among : rank.val < worldSize.toNat := rank.isLt
      rw [List.getElem?_ofFn, dif_pos among, Option.some.injEq] at located
      have column := columns rank
      rw [joined fun source => countedValues counts inputs source rank,
        collective.typed, located] at column
      exact takeCounted_eq_ok lawful whole
        (lt_of_le_of_lt (Nat.le_of_add_left_le (fits rank).2) limit) column
        (before rank))
  simp only [List.append_nil] at exchanged
  refine ⟨_, exchanged.trans reaches_join,
    exchanged_of_sized whole (fun _ => rfl) fun rank => ⟨_, rfl, ?_⟩⟩
  exact ofFn_mergeAt_overwrite _ (length_gatheredValues whole rank)

end DeviceCollective

end RuCCL.Rank
