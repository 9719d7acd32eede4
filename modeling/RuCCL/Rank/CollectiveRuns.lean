import RuCCL.Library.Elementwise
import RuCCL.Rank.ChunkRanges

/-!
# Runs of device collectives

All ranks meet on the control path, join their threads and fork their channels.  When
concurrent threads serve separate ranges under separate tags, one run to the end stands
for all of them.
-/

namespace RuCCL.Rank

open RuCCL.Library
open RankTransport

variable {T : Type} {size length : Nat} {σ : Type}

/-- The ranks of a collective with their programs and memories. -/
abbrev RankNetwork (size : Nat) (σ : Type) :=
  Network (Fin size) (Box size) Frame σ CollectiveFault

/-- One step of a rank or of the control path. -/
abbrev deviceStep (checksum : List UInt8 → UInt32) (uniqueId : UniqueId) :
    RankNetwork size σ → NetworkAction (Fin size) →
      Option (Except CollectiveFault (RankNetwork size σ)) :=
  networkStep (controlPath checksum uniqueId size)

namespace DeviceCollective

variable (collective : DeviceCollective T size)

/-- The control path of the session of a collective. -/
abbrev controlPath : Hub (Box size) Frame CollectiveFault :=
  Rank.controlPath collective.checksum collective.uniqueId size

abbrev deviceStep : RankNetwork size σ → NetworkAction (Fin size) →
    Option (Except CollectiveFault (RankNetwork size σ)) :=
  Rank.deviceStep collective.checksum collective.uniqueId

/-- Every rank keeps to its own ends of the boxes. -/
abbrev OwnedBy (rank : Fin size) (instruction : RankInstruction size σ) :
    Prop :=
  Owned collective.controlPath Box.sender Box.receiver rank instruction

theorem exists_worldSize (collective : DeviceCollective T size) :
    ∃ worldSize : UInt32, size = worldSize.toNat :=
  ⟨UInt32.ofNat size, (UInt32.toNat_ofNat_of_lt' collective.world).symm⟩

end DeviceCollective

section Routes

variable {checksum : List UInt8 → UInt32} {uniqueId : UniqueId}
  {worldSize : UInt32} {requests : List Frame} {elementType : ElementType}
  {count tag : UInt64}

/-- Barriers of all ranks are answered. -/
theorem barrier_routes (world : requests.length = worldSize.toNat)
    (positive : 0 < worldSize.toNat)
    (submits : ∀ index request, requests[index]? = some request →
      Submits uniqueId worldSize.toNat ⟨.barrier, .none, anyRank, 0, tag⟩ index request)
    (empty : ∀ request ∈ requests, request.payload = []) :
    Succeeds (routeRequests checksum requests uniqueId 0) := by
  obtain ⟨first, firstAt, coded, typed, _, counted⟩ :=
    exists_first (world ▸ positive) submits nofun
  have quiet : (requests.any fun request => !request.payload.isEmpty) =
      false := by
    rw [List.any_eq_false]
    intro request member
    simp [empty request member]
  have answered : Succeeds (routeEmpty checksum requests uniqueId 0 .barrier) := by
    rw [routeEmpty, quiet]
    refine (@Ends.mapM _ _ _ _ (fun _ _ => True) _ _
      fun rank member => ?_).mono fun _ _ => trivial
    rw [List.mem_range, world] at member
    have plain := @responseHeader_plain checksum uniqueId worldSize .none
      .barrier 0 rank 0 (fun _ => rfl) member
    rw [world, plain.new_nil]
    trivial
  unfold routeRequests
  simpa only [indexAt, firstAt, okOr_some, ok_bind, typed, counted,
    orInvalid, checkedMul, ElementType.byteWidth, Nat.mul_zero,
    if_pos (show 0 < wordSize by decide), coded] using answered

theorem length_equalPart {parts index : Nat} {payload : List UInt8} (inside : index < parts) :
    (equalPart parts index payload).length = payload.length / parts := by
  have fits := Nat.mul_le_mul_right (payload.length / parts) (Nat.succ_le_of_lt inside)
  have whole := Nat.mul_div_le payload.length parts
  rw [Nat.succ_mul] at fits
  rw [equalPart, List.length_take, List.length_drop]
  omega

/-- The requests of a reduce-scatter or an all-to-all: all ranks bring an equal part
for each rank. -/
structure TransposedRequests (uniqueId : UniqueId) (worldSize : UInt32)
    (opcode : Opcode) (elementType : ElementType) (count tag : UInt64)
    (requests : List Frame) : Prop where
  transposes : opcode = .reduceScatter ∨ opcode = .allToAll
  world : requests.length = worldSize.toNat
  positive : 0 < worldSize.toNat
  submits : ∀ index request, requests[index]? = some request → Submits uniqueId worldSize.toNat
      ⟨opcode, elementType, anyRank, count, tag⟩ index request
  sized : ∀ request ∈ requests, request.payload.length = count.toNat * elementType.byteWidth
  typed : elementType ≠ .none
  divides : count.toNat % requests.length = 0
  small : count.toNat * elementType.byteWidth ≤ maxFramePayloadBytes

namespace TransposedRequests

variable {opcode : Opcode}
  (transposed : TransposedRequests uniqueId worldSize opcode elementType count tag requests)

include transposed

theorem splits : Splits requests.length count.toNat elementType.byteWidth where
  positive := by
    rw [transposed.world]
    exact transposed.positive
  divides := transposed.divides
  bounded := lt_of_le_of_lt transposed.small (by decide)

theorem answered {message : String}
    {responseCount : Nat → Nat → Except Fault Nat} {first : FrameHeader}
    (typed : first.elementType = elementType)
    (counts : responseCount (count.toNat / requests.length)
      (count.toNat / requests.length * elementType.byteWidth) = .ok count.toNat) :
    Succeeds (routeTransposed checksum requests uniqueId 0 first count.toNat
      elementType.byteWidth message responseCount) := by
  have splits := transposed.splits
  have whole := splits.shard_eq
  unfold routeTransposed
  simp only [invalidIf, rejectIf, ne_eq, transposed.divides,
    not_true_eq_false, if_false, ok_bind, typed]
  refine Ends.bind (ends_uncheckedMul splits.shard_bounded) ?_
  rintro _ rfl
  refine (@Ends.mapM _ _ _ _ (fun _ _ => True) _ _ fun rank member => ?_).mono fun _ _ => trivial
  have inside := List.mem_range.mp member
  refine Ends.bind (Ends.mapM fun request among =>
    ends_equalShard splits inside (transposed.sized request among)) ?_
  intro shards parted
  have length : shards.flatten.length = count.toNat * elementType.byteWidth := by
    have each : ∀ request ∈ requests, (equalPart requests.length rank request.payload).length =
          count.toNat / requests.length * elementType.byteWidth := by
      intro request among
      rw [length_equalPart inside, transposed.sized request among, ← whole]
      exact Nat.mul_div_cancel_left _ splits.positive
    rw [forall₂_eq_map parted, ← List.flatMap_def, List.length_flatMap,
      List.map_congr_left each, List.map_const', List.sum_replicate,
      ← whole]
    rfl
  rw [counts, ok_bind]
  rw [transposed.world] at inside
  exact dataResponse_succeeds transposed.typed transposed.world inside
    (length.trans_le transposed.small) length.symm

theorem routes : Succeeds (routeRequests checksum requests uniqueId 0) := by
  have splits := transposed.splits
  have plain : opcode ≠ .allToAllV := by
    rcases transposed.transposes with rfl | rfl <;> exact nofun
  obtain ⟨first, firstAt, coded, typed, _, counted⟩ :=
    exists_first splits.positive transposed.submits plain
  have shards : count.toNat / requests.length * requests.length =
      count.toNat :=
    Nat.div_mul_cancel (Nat.dvd_of_mod_eq_zero splits.divides)
  have whole := splits.shard_eq
  rw [Nat.mul_comm] at whole
  unfold routeRequests
  rcases transposed.transposes with rfl | rfl
  · simp only [indexAt, firstAt, okOr_some, ok_bind, typed, counted,
      orInvalid, checkedMul, if_pos splits.bounded, coded,
      requireAllPayloads_succeeds transposed.sized, routeReduceScatter]
    refine transposed.answered typed ?_
    simp only [uncheckedMul, checkedMul, whole, shards, if_pos splits.bounded, okOr_some, ok_bind,
      if_pos (show count.toNat < wordSize from count.toNat_lt)]
  · simp only [indexAt, firstAt, okOr_some, ok_bind, typed, counted,
      orInvalid, checkedMul, if_pos splits.bounded, coded,
      requireAllPayloads_succeeds transposed.sized, routeAllToAll]
    exact transposed.answered typed rfl

end TransposedRequests

end Routes

section Runs

variable {collective : DeviceCollective T size}

theorem meets_controlPath (checksum : List UInt8 → UInt32) (uniqueId : UniqueId) :
    Meets (controlPath checksum uniqueId size) (List.finRange size) Box.sender Box.receiver
      Box.request Box.response where
  inputs := rfl
  outputs := rfl
  sender := fun _ _ => rfl
  receiver := fun _ _ => rfl

/-- An answer that the coordinator promises passes the checks of its rank. -/
theorem checked_eq_ok {requests : List Frame} {request : FrameHeader}
    {response : Frame} {rank : Fin size} {opcode : Opcode}
    {elementType : ElementType} {options : ExchangeOptions}
    (world : requests.length = size)
    (responds : Responds collective.checksum collective.uniqueId requests 0
      request rank response) (serves : request.opcode ≠ .abort) :
    collective.checked rank opcode elementType options response =
      .ok response := by
  obtain ⟨worldSize, rfl⟩ := collective.exists_worldSize
  have concludes := @concluded_ok _ _ _ opcode elementType options _ _ [] _
    rank world responds serves
  change Except.map Prod.snd ((Call.exchange opcode elementType options
    []).finish _ _ worldSize 0 response) = _ at concludes
  rw [DeviceCollective.checked, UInt32.ofNat_toNat]
  cases finishes : (Call.exchange opcode elementType options []).finish
      collective.uniqueId (UInt32.ofNat rank) worldSize 0 response with
  | error failure =>
      rw [finishes] at concludes
      cases concludes
  | ok finished =>
      rw [finishes] at concludes
      rw [← Except.ok.inj concludes]
      rfl

/-- All ranks ask, each with its own options, the coordinator answers and all take
their answers. -/
theorem reaches_exchanges [NeZero size] {opcode : Opcode}
    {elementType : ElementType} {options : Fin size → ExchangeOptions}
    {content : Fin size → σ → Except CollectiveFault (List UInt8)}
    {use : Fin size → Frame → σ → Except CollectiveFault σ}
    {rest : Fin size → RankThread size σ}
    {later : Fin size → RankProgram size σ} {before after : Fin size → σ}
    {payloads : Fin size → List UInt8} {requests : Fin size → Frame}
    {answers : List Frame}
    (ready : ∀ rank, content rank (before rank) = .ok (payloads rank))
    (built : ∀ rank, collective.request rank (.exchange opcode elementType
      (options rank) (payloads rank)) = .ok (requests rank))
    (serves : ∀ rank, (requests rank).header.opcode ≠ .abort)
    (routed : (validateAndRoute collective.checksum ⟨size, 0, fun _ => none⟩ collective.uniqueId 0
      (List.ofFn requests)).2 = .ok answers)
    (used : ∀ rank response, answers[rank.val]? = some response →
      Responds collective.checksum collective.uniqueId (List.ofFn requests) 0
        (requests rank).header rank response →
      use rank response (before rank) = .ok (after rank)) :
    Reaches collective.deviceStep
      (quiet (fun rank =>
        [collective.exchangeWithOptions rank opcode elementType
          (options rank) (content rank) (use rank) ++ rest rank] :: later rank) before)
      (quiet (fun rank => [rest rank] :: later rank) after) := by
  have nonempty : List.ofFn requests ≠ [] := by
    apply List.ne_nil_of_length_pos
    rw [List.length_ofFn]
    exact NeZero.pos size
  obtain ⟨lengths, responds⟩ := responds_of_validateAndRoute nonempty (fun _ => rfl) routed
  rw [List.length_ofFn] at lengths
  let responses : Fin size → Frame := fun rank => answers.get (rank.cast lengths.symm)
  have located (rank : Fin size) : answers[rank.val]? = some (responses rank) :=
    List.getElem?_eq_getElem (lengths.symm ▸ rank.isLt)
  have promised (rank : Fin size) := responds rank.val (requests rank)
    (responses rank) (by rw [List.getElem?_ofFn, dif_pos rank.isLt])
    (located rank)
  have ran := @Run.meeting _ _ _ _ _ _ _ collective.controlPath Box.sender
    Box.receiver (List.finRange size) Box.request Box.response
    (fun rank memory => do
      let payload ← content rank memory
      collective.request rank (.exchange opcode elementType (options rank) payload))
    (fun rank response memory => do
      let response ← collective.checked rank opcode elementType (options rank) response
      use rank response memory)
    requests responses (answerBoxes answers) before after 0
    (fun rank =>
      [collective.exchangeWithOptions rank opcode elementType (options rank)
        (content rank) (use rank) ++ rest rank] :: later rank)
    (fun rank => [.receive (.response rank) (fun response memory => do
        let response ← collective.checked rank opcode elementType (options rank) response
        use rank response memory) :: rest rank] :: later rank)
    (fun rank => [rest rank] :: later rank)
    (List.nodup_finRange size) List.mem_finRange (meets_controlPath _ _)
    (fun rank => by rw [ready, ok_bind, built])
    (by
      dsimp only [DeviceCollective.controlPath, controlPath]
      rw [← List.ofFn_eq_map, routed]
      rfl)
    (fun rank => by
      rw [answerBoxes, located]
      rfl)
    (fun rank => by
      rw [checked_eq_ok List.length_ofFn (promised rank) (serves rank), ok_bind]
      exact used rank _ (located rank) (promised rank))
    (fun rank => ⟨_, _, _, rfl, rfl, rfl⟩)
    (fun rank => ⟨_, _, _, rfl, rfl, rfl⟩)
  exact ran.reaches

section Requests

variable {checksum : List UInt8 → UInt32} {uniqueId : UniqueId}
  {worldSize : UInt32} {opcode : Opcode} {elementType : ElementType}
  {options : ExchangeOptions} {payloads : Fin worldSize.toNat → List UInt8}

/-- What holds of all payloads holds in all requests. -/
theorem payload_of_requestFrames (holds : List UInt8 → Prop)
    (each : ∀ rank, holds (payloads rank)) :
    ∀ request ∈ List.ofFn (requestFrames checksum uniqueId opcode elementType
      options payloads), holds request.payload := by
  intro request member
  obtain ⟨rank, rfl⟩ := (List.mem_ofFn ..).mp member
  rw [requestFrames, requestFrame_payload]
  exact each rank

theorem flatMap_requestFrames (part : List UInt8 → List UInt8) :
    (List.ofFn (requestFrames checksum uniqueId opcode elementType options
        payloads)).flatMap (fun request => part request.payload) =
      (List.finRange worldSize.toNat).flatMap fun rank => part (payloads rank) := by
  rw [List.ofFn_eq_map, List.flatMap_map]
  simp only [requestFrames, requestFrame_payload]

end Requests

/-- All ranks ask for the same, and each uses what it is promised. -/
theorem reaches_exchange {worldSize : UInt32} {collective : DeviceCollective T worldSize.toNat}
    [NeZero worldSize.toNat] {opcode : Opcode} {elementType : ElementType}
    {count tag : UInt64}
    {content : Fin worldSize.toNat → σ → Except CollectiveFault (List UInt8)}
    {use : Fin worldSize.toNat → Frame → σ → Except CollectiveFault σ}
    {rest : Fin worldSize.toNat → RankThread worldSize.toNat σ}
    {later : Fin worldSize.toNat → RankProgram worldSize.toNat σ}
    {before after : Fin worldSize.toNat → σ}
    {payloads : Fin worldSize.toNat → List UInt8}
    {requests : Fin worldSize.toNat → Frame}
    (framed : requests = requestFrames collective.checksum
      collective.uniqueId opcode elementType ⟨anyRank, count, 0, tag⟩
      payloads)
    (ready : ∀ rank, content rank (before rank) = .ok (payloads rank))
    (typed : elementType = .none → count = 0)
    (small : ∀ rank, (payloads rank).length ≤ maxFramePayloadBytes)
    (sized : ∀ rank, payloads rank ≠ [] →
      count.toNat * elementType.byteWidth = (payloads rank).length)
    (plain : opcode ≠ .allToAllV ∧ opcode ≠ .abort)
    (routes : (∀ index request, (List.ofFn requests)[index]? = some request →
        Submits collective.uniqueId worldSize.toNat
          ⟨opcode, elementType, anyRank, count, tag⟩ index request) →
      Succeeds (routeRequests collective.checksum (List.ofFn requests) collective.uniqueId 0))
    (used : ∀ rank response, (requests rank).header.opcode = opcode →
      Responds collective.checksum collective.uniqueId (List.ofFn requests)
        0 (requests rank).header rank response →
      use rank response (before rank) = .ok (after rank)) :
    Reaches collective.deviceStep
      (quiet (fun rank =>
        [collective.exchangeWithOptions rank opcode elementType
          ⟨anyRank, count, 0, tag⟩ (content rank) (use rank) ++ rest rank] :: later rank) before)
      (quiet (fun rank => [rest rank] :: later rank) after) := by
  have submits : ∀ index request, (List.ofFn requests)[index]? = some request →
      Submits collective.uniqueId worldSize.toNat
        ⟨opcode, elementType, anyRank, count, tag⟩ index request := by
    intro index request located
    obtain ⟨inside, rfl⟩ := getElem?_ofFn_eq located
    rw [framed]
    exact requestFrame_submits ⟨index, inside⟩ plain.1
  have opcodes (rank : Fin worldSize.toNat) : (requests rank).header.opcode = opcode := by
    rw [framed]
    exact requestFrames_opcode rank
  obtain ⟨answers, routed⟩ := validateAndRoute_accepts List.length_ofFn submits (routes submits)
  refine reaches_exchanges ready (fun rank => ?_) (fun rank => ?_) routed
    fun rank response _ => used rank response (opcodes rank)
  · rw [framed, DeviceCollective.request, UInt32.ofNat_toNat,
      requestFrames_built typed (Or.inl rfl) small sized]
    rfl
  · rw [opcodes]
    exact plain.2

/-- What fits into a frame is counted without wrapping. -/
theorem toNat_ofNat_of_fits (lawful : collective.execution.Lawful)
    {count : Nat} (fits : collective.FitsFrame count) :
    (UInt64.ofNat count).toNat = count := by
  apply UInt64.toNat_ofNat_of_lt'
  exact lt_of_le_of_lt (Nat.le_mul_of_pos_right _ lawful.positive) (fits.addressable)

/-- All ranks agree and start their next phases together. -/
theorem reaches_agreement [NeZero size] (tag : UInt64) (message : String)
    (rest : Fin size → RankThread size σ)
    (later : Fin size → RankProgram size σ) (memory : Fin size → σ) :
    Reaches collective.deviceStep
      (quiet (fun rank =>
        [collective.agreement rank tag message ++ rest rank] :: later rank) memory)
      (quiet (fun rank => [rest rank] :: later rank) memory) := by
  obtain ⟨worldSize, rfl⟩ := collective.exists_worldSize
  refine @reaches_exchange T σ worldSize collective _ _ _ _ _ _ _ _ _ _ _
    (fun _ => []) _ rfl (fun _ => rfl) (fun _ => rfl) (fun _ => Nat.zero_le _) (fun _ filled => absurd rfl filled)
    ⟨nofun, nofun⟩ (fun submits => ?_) fun rank response coded responds => ?_
  · exact barrier_routes List.length_ofFn (NeZero.pos _) submits
      (payload_of_requestFrames (· = []) fun _ => rfl)
  · have promised := responds.promised
    simp only [Promised, coded] at promised
    rw [rejectIf, if_neg]
    · rfl
    · rw [responds.opcode, coded]
      exact fun wrong => wrong.elim (fun other => other rfl) fun filled => filled promised

section Elements

variable [NeZero size] (lawful : collective.execution.Lawful) {opcode : Opcode} {tag : UInt64}
  {content : Fin size → σ → Except CollectiveFault (List UInt8)}
  {use : Fin size → Frame → σ → Except CollectiveFault σ}
  {rest : Fin size → RankThread size σ}
  {later : Fin size → RankProgram size σ} {before after : Fin size → σ}
  {payloads : Fin size → List UInt8} {count : Nat}
  (ready : ∀ rank, content rank (before rank) = .ok (payloads rank))
  (sized : ∀ rank, (payloads rank).length = count * collective.execution.elementSize)

include lawful ready sized

/-- Every rank gets the payloads of all ranks. -/
theorem reaches_gathered (gathers : opcode = .allGather ∨ opcode = .allReduce)
    (fits : collective.FitsFrame (count * size))
    (used : ∀ rank response, response.payload = (List.finRange size).flatMap payloads →
      use rank response (before rank) = .ok (after rank)) :
    Reaches collective.deviceStep
      (quiet (fun rank =>
        [collective.exchangeWithOptions rank opcode collective.elementType
          ⟨anyRank, UInt64.ofNat count, 0, tag⟩ (content rank) (use rank) ++
            rest rank] :: later rank) before)
      (quiet (fun rank => [rest rank] :: later rank) after) := by
  have own : collective.FitsFrame count := fits.mono (Nat.le_mul_of_pos_right _ (NeZero.pos size))
  have counted := toNat_ofNat_of_fits lawful own
  have typed := DeviceCollective.elementType_ne_none lawful
  obtain ⟨worldSize, rfl⟩ := collective.exists_worldSize
  unfold DeviceCollective.FitsFrame at fits own
  rw [← collective.typed] at sized fits own
  refine reaches_exchange rfl ready (fun none => absurd none typed)
    (fun rank => (sized rank).trans_le own)
    (fun rank _ => by rw [counted, sized])
    (by rcases gathers with rfl | rfl <;> exact ⟨nofun, nofun⟩)
    (fun submits => GatherRequests.routes {
      gathers := gathers
      world := List.length_ofFn
      positive := NeZero.pos _
      submits := submits
      sized := payload_of_requestFrames (fun payload => payload.length = _)
        fun rank => by rw [counted, sized]
      typed := typed
      small := by
        rw [List.length_ofFn, counted, ← Nat.mul_assoc, Nat.mul_comm _ count]
        exact fits })
    fun rank response coded responds => used rank response ?_
  have promised := responds.promised
  rcases gathers with rfl | rfl
  · simp only [Promised, coded] at promised
    exact promised.trans (flatMap_requestFrames id)
  · simp only [Promised, coded] at promised
    exact promised.trans (flatMap_requestFrames id)

/-- Every rank gets its equal part of the payloads of all ranks. -/
theorem reaches_transposed (transposes : opcode = .reduceScatter ∨ opcode = .allToAll)
    (divides : count % size = 0) (fits : collective.FitsFrame count)
    (used : ∀ (rank : Fin size) response,
      response.payload = (List.finRange size).flatMap (fun source =>
        equalPart size rank (payloads source)) →
      use rank response (before rank) = .ok (after rank)) :
    Reaches collective.deviceStep
      (quiet (fun rank =>
        [collective.exchangeWithOptions rank opcode collective.elementType
          ⟨anyRank, UInt64.ofNat count, 0, tag⟩ (content rank) (use rank) ++
            rest rank] :: later rank) before)
      (quiet (fun rank => [rest rank] :: later rank) after) := by
  have counted := toNat_ofNat_of_fits lawful fits
  have typed := DeviceCollective.elementType_ne_none lawful
  obtain ⟨worldSize, rfl⟩ := collective.exists_worldSize
  unfold DeviceCollective.FitsFrame at fits
  rw [← collective.typed] at sized fits
  refine reaches_exchange rfl ready (fun none => absurd none typed)
    (fun rank => (sized rank).trans_le fits)
    (fun rank _ => by rw [counted, sized])
    (by rcases transposes with rfl | rfl <;> exact ⟨nofun, nofun⟩)
    (fun submits => TransposedRequests.routes {
      transposes := transposes
      world := List.length_ofFn
      positive := NeZero.pos _
      submits := submits
      sized := payload_of_requestFrames (fun payload => payload.length = _)
        fun rank => by rw [counted, sized]
      typed := typed
      divides := by rw [List.length_ofFn, counted, divides]
      small := by
        rw [counted]
        exact fits })
    fun rank response coded responds => used rank response ?_
  have promised := responds.promised
  rcases transposes with rfl | rfl
  · simp only [Promised, coded, List.length_ofFn] at promised
    exact promised.2.trans (flatMap_requestFrames _)
  · simp only [Promised, coded, List.length_ofFn] at promised
    exact promised.2.trans (flatMap_requestFrames _)

end Elements

/-- New values for all ranks. -/
theorem overlay_finRange {α : Type} (new old : Fin size → α) :
    overlay (List.finRange size) new old = new := by
  funext rank
  exact overlay_of_mem (List.mem_finRange rank)

/-- Completed threads are joined. -/
theorem reaches_join {later : Fin size → RankProgram size σ} {memory : Fin size → σ} :
    Reaches collective.deviceStep (quiet (fun rank => [[]] :: later rank) memory)
      (quiet later memory) := by
  have ran := @Run.joins _ _ _ _ _ _ _ collective.controlPath
    (List.finRange size) (fun rank => [[]] :: later rank) later memory
    (List.nodup_finRange size) fun rank _ => ⟨_, rfl, rfl⟩
  rw [overlay_finRange] at ran
  exact ran.reaches

/-- Some ranks compute. -/
theorem reaches_computes (acts : Fin size → Prop) [DecidablePred acts]
    {change : Fin size → σ → Except CollectiveFault σ}
    {rest : Fin size → RankThread size σ}
    {later : Fin size → RankProgram size σ} {before after : Fin size → σ}
    (changed : ∀ rank, acts rank →
      change rank (before rank) = .ok (after rank)) :
    Reaches collective.deviceStep
      (quiet (fun rank =>
        [(if acts rank then [.compute (change rank)] else []) ++ rest rank] :: later rank) before)
      (quiet (fun rank => [rest rank] :: later rank)
        fun rank => if acts rank then after rank else before rank) := by
  have active (rank : Fin size) :
      rank ∈ (List.finRange size).filter (fun rank => decide (acts rank)) ↔
        acts rank := by
    simp [List.mem_finRange]
  have ran := @Run.computes _ _ _ _ _ _ _ collective.controlPath
    ((List.finRange size).filter fun rank => decide (acts rank)) 0
    (fun rank =>
      [(if acts rank then [.compute (change rank)] else []) ++ rest rank] :: later rank)
    (fun rank => [rest rank] :: later rank) before after change
    ((List.nodup_finRange size).filter _)
    (by
      intro rank member
      rw [if_pos ((active rank).mp member)]
      exact ⟨_, _, _, rfl, rfl, rfl⟩)
    (fun rank member => changed rank ((active rank).mp member))
  have resting : overlay ((List.finRange size).filter fun rank => decide (acts rank))
      (fun rank => [rest rank] :: later rank)
      (fun rank =>
        [(if acts rank then [.compute (change rank)] else []) ++ rest rank] :: later rank) =
      fun rank => [rest rank] :: later rank := by
    refine overlay_of_agree fun rank absent => ?_
    rw [if_neg fun acting => absent ((active rank).mpr acting)]
    rfl
  have changing : overlay ((List.finRange size).filter fun rank => decide (acts rank)) after
      before = fun rank => if acts rank then after rank else before rank := by
    funext rank
    unfold overlay
    simp only [active]
  rw [resting, changing] at ran
  exact ran.reaches

/-- All ranks run their channels and join them. -/
theorem reaches_channels
    {stages : Nat → List (Stage (Fin size) (Box size) Frame σ CollectiveFault)}
    {channels : Nat} {later : Fin size → RankProgram size σ}
    {before after : Fin size → σ}
    (proper : ∀ channel < channels, ∀ stage ∈ stages channel,
      stage.Proper (List.finRange size) Box.sender Box.receiver)
    (does : DoesAll (List.finRange size) (byChannel stages channels) before after) :
    Reaches collective.deviceStep
      (quiet (fun rank => forkedPhase stages channels rank :: later rank) before)
      (quiet later after) := by
  have ran := @Run.forked _ _ _ _ _ _ _ collective.controlPath Box.sender
    Box.receiver (List.finRange size) channels later later stages before
    after (List.nodup_finRange size) proper does
  rwa [overlay_finRange, overlay_finRange] at ran

/-- All channels may come to their second stages together. -/
theorem reaches_channelsTwice
    {first second : Nat → List (Stage (Fin size) (Box size) Frame σ CollectiveFault)}
    {channels : Nat} {later : Fin size → RankProgram size σ}
    {before middle after : Fin size → σ}
    (firstProper : ∀ channel < channels, ∀ stage ∈ first channel,
      stage.Proper (List.finRange size) Box.sender Box.receiver)
    (secondProper : ∀ channel < channels, ∀ stage ∈ second channel,
      stage.Proper (List.finRange size) Box.sender Box.receiver)
    (does : DoesAll (List.finRange size) (byChannel first channels) before middle)
    (doesThen : DoesAll (List.finRange size) (byChannel second channels) middle after) :
    Reaches collective.deviceStep
      (quiet (fun rank => forkedPhase
        (fun channel => first channel ++ second channel) channels rank :: later rank) before)
      (quiet later after) := by
  have ran := @Run.forkedTwice _ _ _ _ _ _ _ collective.controlPath Box.sender
    Box.receiver (List.finRange size) channels later later first second
    before middle after (List.nodup_finRange size) firstProper secondProper
    does doesThen
  rwa [overlay_finRange, overlay_finRange] at ran

theorem exists_finRange_cons [NeZero size] :
    ∃ others : List (Fin size), List.finRange size = 0 :: others := by
  cases listed : List.finRange size with
  | nil =>
      have count := congrArg List.length listed
      rw [List.length_finRange] at count
      exact absurd count (NeZero.ne size)
  | cons first others =>
      have located : (List.finRange size)[0]? = some 0 := by
        rw [List.getElem?_eq_getElem (by
          rw [List.length_finRange]
          exact NeZero.pos size), List.getElem_finRange]
        rfl
      rw [listed] at located
      cases located
      exact ⟨others, rfl⟩

/-- Encoded elements are cut where the elements are. -/
theorem equalPart_encode {device : RankDevice T} (lawful : device.Lawful)
    (concatenates : device.Concatenates) {values : List T}
    {parts count index : Nat} (sized : values.length = parts * count)
    (inside : index < parts) :
    equalPart parts index (device.encode values) =
      device.encode (Library.segment values (index * count) count) := by
  have width : (device.encode values).length / parts = count * device.elementSize := by
    rw [lawful.length_encode, sized, Nat.mul_assoc, Nat.mul_div_cancel_left _ (by omega)]
  have fits : index * count + count ≤ values.length := by
    rw [sized, ← Nat.succ_mul]
    exact Nat.mul_le_mul_right count inside
  rw [equalPart, width, ← Nat.mul_assoc]
  exact RankDevice.segment_encode lawful concatenates fits

/-- Every rank has finished, with the given memory. -/
def Completed (post : (Fin size → σ) → Prop) (network : RankNetwork size σ) : Prop :=
  (∀ rank, network.rest rank = []) ∧ post network.store.memory

theorem ended_quiet [NeZero size] (memory : Fin size → σ) :
    Ended collective.deviceStep (quiet (fun _ => []) memory) := by
  intro action
  cases action with
  | run rank thread => rfl
  | join rank => rfl
  | route =>
      obtain ⟨others, listed⟩ := @exists_finRange_cons size _
      have inputs : collective.controlPath.inputs.mapM
          (fun _ : Box size => ([] : List Frame).head?) = none := by
        dsimp only [DeviceCollective.controlPath, controlPath]
        rw [listed]
        rfl
      simp only [DeviceCollective.deviceStep, deviceStep, networkStep, route, quiet, inputs]
      rfl

/-- A run to the end from separate programs settles them. -/
theorem settles_of_reaches [NeZero size]
    {programs : Fin size → RankProgram size σ} {before after : Fin size → σ}
    {post : (Fin size → σ) → Prop}
    (separate : ∀ rank, ∀ phase ∈ programs rank,
      SeparatePhase collective.controlPath Box.sender Box.receiver rank phase)
    (reaches : Reaches collective.deviceStep (quiet programs before) (quiet (fun _ => []) after))
    (required : post after) :
    Library.Settles collective.deviceStep (quiet programs before) (Completed post) :=
  reaches.settles (commuting_networkStep _ Box.sender Box.receiver) separate
    (ended_quiet after) ⟨fun _ => rfl, required⟩

/-- A rank fails at its first step when no frame carries its payload. -/
theorem unsettled_exchange {programs : Fin size → RankProgram size σ}
    {memory : Fin size → σ} {post : RankNetwork size σ → Prop}
    {rank : Fin size} {opcode : Opcode} {elementType : ElementType}
    {options : ExchangeOptions}
    {content : σ → Except CollectiveFault (List UInt8)}
    {use : Frame → σ → Except CollectiveFault σ}
    {rest : RankThread size σ} {later : RankProgram size σ}
    {payload : List UInt8}
    (starts : programs rank = [collective.exchangeWithOptions rank opcode
      elementType options content use ++ rest] :: later)
    (ready : content (memory rank) = .ok payload)
    (large : maxFramePayloadBytes < payload.length) :
    ¬ Library.Settles collective.deviceStep (quiet programs memory) post := by
  intro ⟨bound, settles⟩
  obtain ⟨_, safe, _⟩ := settles 0 _ .none
  refine safe (.run rank 0) (.network (.protocol (.payloadTooLarge payload.length)))
    (run_fails.mpr ⟨_, _, _, _, starts, rfl, ?_⟩)
  refine perform_send_fails.mpr ?_
  change (content (memory rank) >>= _) = _
  rw [ready, ok_bind, DeviceCollective.request, Call.request, Call.payload, new_too_large _ large]
  rfl

theorem owned_exchange (rank : Fin size) {opcode : Opcode}
    {elementType : ElementType} {options : ExchangeOptions}
    {content : σ → Except CollectiveFault (List UInt8)}
    {use : Frame → σ → Except CollectiveFault σ} :
    ∀ instruction ∈ collective.exchangeWithOptions rank opcode elementType
      options content use, collective.OwnedBy rank instruction := by
  intro instruction member
  rcases List.mem_cons.mp member with rfl | member
  · refine ⟨rfl, ?_⟩
    intro among
    obtain ⟨_, _, same⟩ := List.mem_map.mp among
    cases same
  · rw [List.mem_singleton.mp member]
    refine ⟨rfl, ?_⟩
    intro among
    obtain ⟨_, _, same⟩ := List.mem_map.mp among
    cases same

theorem owned_send {rank destination : Fin size} {rail : Nat}
    {tag : UInt64} {message : σ → Except CollectiveFault Frame} :
    collective.OwnedBy rank (.send (.rail rank destination rail tag) message) := by
  refine ⟨rfl, ?_⟩
  intro among
  obtain ⟨_, _, same⟩ := List.mem_map.mp among
  cases same

theorem owned_receive {source rank : Fin size} {rail : Nat}
    {tag : UInt64} {accept : Frame → σ → Except CollectiveFault σ} :
    collective.OwnedBy rank (.receive (.rail source rank rail tag) accept) := by
  refine ⟨rfl, ?_⟩
  intro among
  obtain ⟨_, _, same⟩ := List.mem_map.mp among
  cases same

/-- What some ranks compute is owned by every rank. -/
theorem owned_if {rank : Fin size} {acts : Prop} [Decidable acts]
    {change : σ → Except CollectiveFault σ}
    {instruction : RankInstruction size σ}
    (listed : instruction ∈ if acts then [.compute change] else []) :
    collective.OwnedBy rank instruction := by
  split at listed
  · rw [List.mem_singleton.mp listed]
    trivial
  · cases listed

end Runs

namespace DeviceCollective

variable (collective : DeviceCollective T size) (buffer : Cell σ (Buffer T length))

/-- The part of every channel fits into a frame. -/
def ChannelsFit (length channels : Nat) : Prop := ∀ channel < channels,
    collective.FitsFrame (channelSpan length channels channel).length

/-- The instruction belongs to an exchange of such ranges under such tags. -/
def Serves (rank : Fin size) (ranges : Span → Prop) (tags : UInt64 → Prop)
    (instruction : RankInstruction size σ) : Prop :=
  ∃ exchange : ChunkExchange collective buffer,
    instruction ∈ exchange.thread rank ∧ tags exchange.tag ∧
      ranges exchange.sendRange ∧ ranges exchange.receiveRange

variable {collective buffer} {rank : Fin size}
  {ranges otherRanges : Span → Prop} {tags otherTags : UInt64 → Prop}
  {instruction concurrent : RankInstruction size σ}

theorem ChannelsFit.of_whole {channels : Nat} (fits : collective.FitsFrame length) :
    collective.ChannelsFit length channels :=
  fun _ inside => fits.mono ((Nat.sub_le ..).trans (channelSpan_within inside).inside)

theorem Serves.owned (serves : collective.Serves buffer rank ranges tags
    instruction) : collective.OwnedBy rank instruction := by
  obtain ⟨exchange, member, _⟩ := serves
  rcases List.mem_cons.mp member with rfl | member
  · exact owned_send
  · rw [List.mem_singleton.mp member]
    exact owned_receive

theorem Serves.apart (serves : collective.Serves buffer rank ranges tags instruction)
    (other : collective.Serves buffer rank otherRanges otherTags concurrent)
    (separate : ∀ range span, ranges range → otherRanges span → range.Apart span)
    (distinct : ∀ tag another, tags tag → otherTags another →
      tag ≠ another) : Apart instruction concurrent := by
  obtain ⟨exchange, member, tag, sends, receives⟩ := serves
  obtain ⟨opposite, otherMember, otherTag, otherSends, otherReceives⟩ := other
  exact ChunkExchange.Distinct.apart
    ⟨distinct _ _ tag otherTag, separate _ _ sends otherReceives,
      separate _ _ receives otherSends,
      separate _ _ receives otherReceives⟩
    rank instruction member concurrent otherMember

theorem Serves.mono {wider : Span → Prop} {more : UInt64 → Prop}
    (serves : collective.Serves buffer rank ranges tags instruction)
    (widens : ∀ range, ranges range → wider range)
    (grows : ∀ tag, tags tag → more tag) :
    collective.Serves buffer rank wider more instruction := by
  obtain ⟨exchange, member, tag, sends, receives⟩ := serves
  exact ⟨exchange, member, grows _ tag, widens _ sends, widens _ receives⟩

/-- A pass serves its spans under its tags. -/
theorem serves_passStages {count : Nat} [NeZero count]
    {ring : RingOrder (Fin size) count} {spans : ZMod count → Span}
    {lead : ZMod count} {channel steps : Nat} {tag : Nat → UInt64}
    {use : Span → List UInt8 → σ → Except CollectiveFault σ}
    {combine : T → T → T} (among : rank ∈ ring.members)
    (within : ∀ slot, Within length (spans slot))
    (arrives : ∀ slot, collective.Arrives buffer combine (spans slot) (use (spans slot)))
    (member : instruction ∈ (collective.passStages ring buffer spans lead
      channel tag use steps).flatMap (Stage.instructions rank)) :
    collective.Serves buffer rank (fun range => ∃ slot, range = spans slot)
      (fun other => ∃ step < steps, other = tag step) instruction := by
  rw [flatMap_passStages among] at member
  obtain ⟨step, listed, inside⟩ := List.mem_flatMap.mp member
  exact ⟨{
    sendRange := spans (passed ring lead rank step)
    receiveRange := spans (passed ring lead (ring.previous rank) step)
    destination := ring.next rank
    source := ring.previous rank
    railHint := channel
    tag := tag step
    combine := combine
    use := use (spans (passed ring lead (ring.previous rank) step))
    sends := within _
    receives := within _
    arrives := arrives _ }, inside,
    ⟨step, List.mem_range.mp listed, rfl⟩, ⟨_, rfl⟩, ⟨_, rfl⟩⟩

end DeviceCollective

end RuCCL.Rank
