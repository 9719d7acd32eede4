import RuCCL.Library.Gate
import RuCCL.Rank.AgreementStreams
import RuCCL.Rank.DeviceAllReduceCorrect
import RuCCL.Rank.DeviceAllGather
import RuCCL.Rank.DeviceAllToAll
import RuCCL.Rank.DeviceReduceScatter

/-!
# Calls that do not match

Every call of a device collective begins on the control path: with its payload, or with
an agreement on all that the ranks have to know.  Where the calls do not match, none of
them returns.
-/

namespace RuCCL.Rank

open RuCCL.Library
open RankTransport

variable {T : Type} {size : Nat} {σ : Type}

/-- A request tells what is called. -/
theorem requestDescriptor_of_request {collective : DeviceCollective T size}
    {rank : Fin size} {opcode : Opcode} {elementType : ElementType}
    {options : ExchangeOptions} {payload : List UInt8} {sent : Frame}
    (plain : opcode ≠ .allToAllV)
    (posted : collective.request rank (.exchange opcode elementType options payload) = .ok sent) :
    requestDescriptor sent.header =
      ⟨opcode, elementType, options.rootRank, options.elementCount, options.tag⟩ := by
  have built : (Call.exchange opcode elementType options payload).request
      collective.checksum collective.uniqueId (UInt32.ofNat rank)
        (UInt32.ofNat size) 0 = .ok sent := by
    exact fromProtocol_eq_ok_iff.mp (fromRouting_eq_ok_iff.mp posted)
  have header := Frame.builtFrom_of_new _ built
  have opcodes : sent.header.opcode = opcode := header.opcode
  rw [requestDescriptor, opcodes, if_neg plain, if_neg plain,
    header.elementType, header.root, header.count, header.tag]
  rfl

/-- What an agreement is about, with a rail for each channel. -/
abbrev CountedInput := { input : AgreementInput // input.channelRails.length = input.channels }

/-- What a call first tells the control path. -/
inductive Opening where
  | direct (opcode : Opcode) (elementType : ElementType) (length : Nat)
      (tag : UInt64) (fits : length < wordSize)
      (plain : opcode ≠ .barrier ∧ opcode ≠ .allToAllV)
  | agreed (input : CountedInput)

namespace Opening

def descriptor : Opening → OperationDescriptor
  | direct opcode elementType length tag .. =>
      ⟨opcode, elementType, anyRank, UInt64.ofNat length, tag⟩
  | agreed input => ⟨.barrier, .none, anyRank, 0, hashBytes hashStart input.val.stream⟩

def length : Opening → Nat
  | direct _ _ length .. => length
  | agreed input => input.val.length

/-- The collective and the code of its reduction. -/
def purpose : Opening → UInt32
  | direct .allReduce _ _ tag .. => 0x100 + (tag - 1).toUInt32
  | direct .allGather .. => 0x200
  | direct .reduceScatter _ _ tag .. => 0x300 + (tag - 1).toUInt32
  | direct .. => 0x400
  | agreed input => input.val.discriminator % 0x500

/-- It tells what is called, and the program of a rank begins so. -/
structure Begins (opening : Opening) (purpose : UInt32) (length : Nat)
    (rank : Fin size) (program : RankProgram size σ) : Prop where
  purpose : opening.purpose = purpose
  length : opening.length = length
  gated : ∃ thread later, program = [thread] :: later ∧ Gated (.request rank) (.response rank)
      (fun frame => requestDescriptor frame.header = opening.descriptor)
      thread

variable {collective : DeviceCollective T size} {opening : Opening}
  {purpose : UInt32} {tag : UInt64} {length : Nat} {rank : Fin size}

theorem Begins.within {α : Type} {program : RankProgram size α}
    (begins : opening.Begins purpose length rank program)
    (cell : Cell σ α) :
    opening.Begins purpose length rank (program.within cell) := by
  obtain ⟨tells, counts, thread, later, rfl, gated⟩ := begins
  exact ⟨tells, counts, _, _, rfl, gated.within cell⟩

theorem Begins.fails {program : RankProgram size σ}
    (begins : opening.Begins purpose length rank program)
    {failure : CollectiveFault} : opening.Begins purpose length rank
      ([[[.compute fun _ => .error failure]]] : RankProgram size σ) :=
  ⟨begins.purpose, begins.length, _, _, rfl, .fails⟩

theorem Begins.fails_if {program : RankProgram size σ}
    (begins : opening.Begins purpose length rank program)
    {failure : CollectiveFault} {rejected : Prop} [Decidable rejected] :
    opening.Begins purpose length rank
      (if rejected then [[[.compute fun _ => .error failure]]]
      else program) := by
  split
  · exact begins.fails
  · exact begins

theorem begins_direct {opcode : Opcode} {elementType : ElementType} (fits : length < wordSize)
    (plain : opcode ≠ .barrier ∧ opcode ≠ .allToAllV)
    (tells : (direct opcode elementType length tag fits plain).purpose =
      purpose) {content : σ → Except CollectiveFault (List UInt8)}
    {use : Frame → σ → Except CollectiveFault σ} :
    (direct opcode elementType length tag fits plain).Begins purpose length
      rank [[collective.exchangeWithOptions rank opcode elementType
        ⟨anyRank, UInt64.ofNat length, 0, tag⟩ content use]] := by
  refine ⟨tells, rfl, _, _, rfl, .asks fun memory sent posted => ?_⟩
  obtain ⟨payload, _, built⟩ := (bind_eq_ok_iff _ _ _).mp posted
  exact requestDescriptor_of_request plain.2 built

theorem gated_agreement (input : CountedInput) (message : String) (rest : RankThread size σ) :
    Gated (.request rank) (.response rank)
      (fun frame => requestDescriptor frame.header = (agreed input).descriptor)
      (collective.agreement rank (hashBytes hashStart input.val.stream) message ++ rest) := by
  refine .asks fun memory sent posted => ?_
  obtain ⟨_, _, built⟩ := (bind_eq_ok_iff _ _ _).mp posted
  have plain : Opcode.barrier ≠ .allToAllV := by decide
  rw [requestDescriptor_of_request plain built, descriptor]

theorem eq_of_descriptor {opening other : Opening} (same : opening.descriptor = other.descriptor)
    (apart : ∀ input another, opening = agreed input → other = agreed another →
      hashBytes hashStart input.val.stream = hashBytes hashStart another.val.stream →
      input.val.stream = another.val.stream) : opening = other := by
  cases opening with
  | direct opcode elementType length tag fits plain =>
      cases other with
      | direct otherOpcode otherType otherLength otherTag otherFits =>
          simp only [descriptor, OperationDescriptor.mk.injEq] at same
          obtain ⟨rfl, rfl, _, counts, rfl⟩ := same
          have lengths := congrArg UInt64.toNat counts
          rw [UInt64.toNat_ofNat_of_lt' fits, UInt64.toNat_ofNat_of_lt' otherFits] at lengths
          simp only [lengths]
      | agreed => exact absurd (congrArg OperationDescriptor.opcode same) plain.1
  | agreed input =>
      cases other with
      | direct otherOpcode otherType otherLength otherTag otherFits plain =>
          exact absurd (congrArg OperationDescriptor.opcode same).symm plain.1
      | agreed another =>
          congr 1
          apply Subtype.ext
          apply AgreementInput.stream_injective input.property another.property
          simp only [descriptor, OperationDescriptor.mk.injEq, true_and] at same
          exact apart _ _ rfl rfl same

end Opening

/-- A collective in machine words. -/
structure Caller (T : Type) (size : Nat) extends DeviceCollective T size where
  railsFit : ∀ rail ∈ collectiveRailOrder, rail < wordSize

namespace Caller

variable (caller : Caller T size)

/-- What an agreement is about.  Plans have few channels. -/
def input {length channels : Nat} (fits : length < wordSize)
    (few : channels ≤ maxRingChannels) (discriminator : UInt32)
    (groups : List (List UInt32))
    (small : ∀ group ∈ groups, group.length ≤ size) : CountedInput where
  val := {
    operation := caller.operation
    length := length
    groups := groups
    discriminator := discriminator
    channels := channels
    channelRails := (List.range channels).map caller.collectiveRailForChannel
    lengthFits := fits
    groupsFit := fun group among =>
      lt_of_le_of_lt (small group among) (caller.world.trans (by decide))
    channelsFit := lt_of_le_of_lt few (by decide)
    railsFit := by
      intro rail among
      obtain ⟨channel, _, rfl⟩ := List.mem_map.mp among
      exact caller.railsFit _ (List.get_mem ..) }
  property := by simp

def planFor (kind : CollectiveKind) (length : Nat) : CollectivePlan :=
  caller.plan kind (length * caller.execution.elementSize)

/-- What `ringAgreement` is about. -/
def ringInput (kind : CollectiveKind) {length : Nat}
    (fits : length < wordSize) (elementsPerRank : Nat)
    (discriminator : UInt32) : CountedInput :=
  let channels := DeviceCollective.effectiveRingChannels
    (caller.planFor kind length).ringChannels elementsPerRank
  @input T size caller _ channels fits
    ((min_le_left _ _).trans (caller.channeled _ _).2) discriminator
    ((List.range channels).map fun channel => DeviceCollective.rankNumbers
      (caller.ringOrderForChannel channel).members) (by
    intro group among
    obtain ⟨channel, _, rfl⟩ := List.mem_map.mp among
    simp [DeviceCollective.rankNumbers, RingOrder.length_members])

/-- What `hierarchyAgreement` is about. -/
def hierarchyInput (kind : CollectiveKind) {length : Nat}
    (fits : length < wordSize) (discriminator : UInt32)
    (hierarchy : Hierarchy size) : CountedInput :=
  caller.input fits (caller.channeled kind
    (length * caller.execution.elementSize)).2 discriminator
    (hierarchy.groups.map fun group =>
      DeviceCollective.rankNumbers group.members) (by
    intro group among
    obtain ⟨members, listed, rfl⟩ := List.mem_map.mp among
    have within := (List.sublist_flatten_of_mem
      (List.mem_map_of_mem (f := RankGroup.members) listed)).length_le
    rw [← List.flatMap_def, hierarchy.partition.length_eq, List.length_finRange] at within
    simpa [DeviceCollective.rankNumbers] using within)

/-- The opening of a collective that may go round rings or within groups. -/
def opening (kind : CollectiveKind) {length : Nat} (fits : length < wordSize)
    (elementsPerRank : Nat) (direct : Opening) (ring groups : UInt32) :
    Opening :=
  if 1 < size then
    match (caller.planFor kind length).algorithm with
    | .hierarchical =>
        match caller.hierarchyGroups with
        | some hierarchy => .agreed (caller.hierarchyInput kind fits groups hierarchy)
        | none => direct
    | .ring => .agreed (caller.ringInput kind fits elementsPerRank ring)
    | .direct | .pairwise => direct
  else direct

theorem opening_begins {kind : CollectiveKind} {length elementsPerRank : Nat}
    {fits : length < wordSize} {direct : Opening} {ring groups : UInt32}
    {purpose : UInt32} {rank : Fin size}
    {directly around : RankProgram size σ}
    {grouped : Hierarchy size → RankProgram size σ}
    (begins : direct.Begins purpose length rank directly)
    (ringBegins : (Opening.agreed (caller.ringInput kind fits
      elementsPerRank ring)).Begins purpose length rank around)
    (groupsBegin : ∀ hierarchy, (Opening.agreed (caller.hierarchyInput kind
      fits groups hierarchy)).Begins purpose length rank (grouped hierarchy)) :
    (caller.opening kind fits elementsPerRank direct ring groups).Begins purpose length rank
      (if 1 < size then
        match (caller.planFor kind length).algorithm with
        | .hierarchical =>
            match caller.hierarchyGroups with
            | some hierarchy => grouped hierarchy
            | none => [[[.compute fun _ => .error (.invalidHierarchy
                "hierarchical collective selected without topology groups")]]]
        | .ring => around
        | .direct | .pairwise => directly
      else directly) := by
  unfold opening
  split
  · split
    · split
      · exact groupsBegin _
      · exact begins.fails
    · exact ringBegins
    · exact begins
    · exact begins
  · exact begins

end Caller

/-- A call on some part of a memory. -/
inductive DeviceCall (T : Type) (size : Nat) (σ : Type) where
  | allReduce (length : Nat) (buffer : Cell σ (Buffer T length))
      (operation : ReductionOperation) (function : T → T → T)
  | allGather (length : Nat) (memory : Cell σ (AllGatherMemory T size length))
  | reduceScatter (length : Nat) (memory : Cell σ (ReduceScatterMemory T length (length / size)))
      (operation : ReductionOperation) (function : T → T → T)
  | allToAll (length : Nat) (ring : RingOrder (Fin size) size)
      (memory : Cell σ (AllToAllMemory T length))

namespace DeviceCall

def length : DeviceCall T size σ → Nat
  | allReduce length .. => length
  | allGather length _ => length
  | reduceScatter length .. => length
  | allToAll length .. => length

/-- The collective and the code of its reduction. -/
def purpose : DeviceCall T size σ → UInt32
  | allReduce _ _ operation _ => 0x100 + operation.code
  | allGather .. => 0x200
  | reduceScatter _ _ operation _ => 0x300 + operation.code
  | allToAll .. => 0x400

def program [NeZero size] (caller : Caller T size) (rank : Fin size) :
    DeviceCall T size σ → RankProgram size σ
  | allReduce _ buffer operation function => caller.allReduce rank buffer operation function
  | allGather _ memory => (caller.allGather rank).within memory
  | reduceScatter _ memory operation function =>
      (caller.reduceScatter rank operation function).within memory
  | allToAll _ ring memory => (caller.allToAll ring rank).within memory

def opening (caller : Caller T size) (call : DeviceCall T size σ)
    (fits : call.length < wordSize) : Opening :=
  match call with
  | allReduce length _ operation _ =>
      caller.opening .allReduce fits length
        (.direct .allReduce caller.elementType length
          (operation.code.toUInt64 + 1) fits (by decide))
        (0x100 + operation.code) (0x600 + operation.code)
  | allGather length _ =>
      caller.opening .allGather fits length
        (.direct .allGather caller.elementType length 0 fits (by decide)) 0x200 0x700
  | reduceScatter length _ operation _ =>
      caller.opening .reduceScatter fits (length / size)
        (.direct .reduceScatter caller.elementType length
          (operation.code.toUInt64 + 1) fits (by decide))
        (0x300 + operation.code) (0x800 + operation.code)
  | allToAll length .. =>
      if (caller.planFor .allToAll length).algorithm = .pairwise ∧ 1 < size then
        .agreed (caller.ringInput .allToAll fits (length / size) 0x400)
      else .direct .allToAll caller.elementType length 0 fits (by decide)

theorem code_wraps (operation : ReductionOperation) :
    (0x600 + operation.code) % 0x500 = 0x100 + operation.code ∧
      (0x800 + operation.code) % 0x500 = 0x300 + operation.code := by
  cases operation <;> decide

theorem opening_begins [NeZero size] (caller : Caller T size)
    (rank : Fin size) (call : DeviceCall T size σ)
    (fits : call.length < wordSize) :
    (call.opening caller fits).Begins call.purpose call.length rank
      (call.program caller rank) := by
  cases call with
  | allReduce length buffer operation function =>
      apply caller.opening_begins
      · apply Opening.begins_direct fits (by decide)
        cases operation <;> rfl
      · refine ⟨?_, rfl, _, _, rfl, Opening.gated_agreement _ _ []⟩
        cases operation <;> rfl
      · intro hierarchy
        unfold DeviceCollective.allReduceHierarchical
        dsimp only
        split <;> exact ⟨(code_wraps operation).1, rfl, _, _, rfl, Opening.gated_agreement ..⟩
  | allGather length memory =>
      apply Opening.Begins.within
      apply caller.opening_begins
      · exact Opening.begins_direct fits (by decide) rfl
      · exact ⟨rfl, rfl, _, _, rfl, .computes (Opening.gated_agreement _ _ [])⟩
      · intro hierarchy
        unfold DeviceCollective.allGatherHierarchical
        dsimp only
        have tells : (0x700 : UInt32) % 0x500 = 0x200 := by decide
        split <;> exact ⟨tells, rfl, _, _, rfl, Opening.gated_agreement ..⟩
  | reduceScatter length memory operation function =>
      apply Opening.Begins.within
      apply Opening.Begins.fails_if
      apply caller.opening_begins
      · apply Opening.begins_direct fits (by decide)
        cases operation <;> rfl
      · refine ⟨?_, rfl, _, _, rfl, .computes (Opening.gated_agreement _ _ [])⟩
        cases operation <;> rfl
      · intro hierarchy
        unfold DeviceCollective.reduceScatterHierarchical
        dsimp only
        split <;> exact ⟨(code_wraps operation).2, rfl, _, _, rfl, Opening.gated_agreement ..⟩
  | allToAll length ring memory =>
      apply Opening.Begins.within
      apply Opening.Begins.fails_if
      unfold opening
      dsimp only
      change Opening.Begins _ _ _ _ (if (caller.planFor .allToAll
        length).algorithm = .pairwise ∧ 1 < size then _ else _)
      split
      · exact ⟨rfl, rfl, _, _, rfl, .computes (Opening.gated_agreement _ _ [])⟩
      · exact Opening.begins_direct fits (by decide) rfl

end DeviceCall

/-- Requests that are answered have one descriptor. -/
theorem alike_of_answered {checksum : List UInt8 → UInt32}
    {uniqueId : UniqueId} {messages : List Frame}
    {answers : Box size → List Frame}
    (answered : (controlPath checksum uniqueId size).answer messages = .ok answers) :
    ∃ descriptor, ∀ request ∈ messages, requestDescriptor request.header = descriptor := by
  obtain ⟨_, routed, _⟩ := (bind_eq_ok_iff _ _ _).mp answered
  cases messages with
  | nil => exact ⟨⟨.barrier, .none, 0, 0, 0⟩, by simp⟩
  | cons first others =>
      refine ⟨requestDescriptor first.header, ?_⟩
      have ends := @ends_validateAndRoute ⟨size, 0, fun _ => none⟩ checksum
        uniqueId 0 first others fun _ => rfl
      rw [fromRouting_eq_ok_iff.mp routed] at ends
      exact ends.1

/-- If one call returns, all ranks make the same call: the same collective and
reduction on equally many elements, with the same opening.  The hash of no agreement
may stand for another one. -/
theorem calls_agree [NeZero size] {checksum : List UInt8 → UInt32}
    {uniqueId : UniqueId} {callers : Fin size → Caller T size}
    {calls : Fin size → DeviceCall T size σ}
    (fits : ∀ rank, (calls rank).length < wordSize)
    (apart : ∀ rank other input another,
      (calls rank).opening (callers rank) (fits rank) = .agreed input →
      (calls other).opening (callers other) (fits other) = .agreed another →
      hashBytes hashStart input.val.stream = hashBytes hashStart another.val.stream →
      input.val.stream = another.val.stream)
    {memory : Fin size → σ} {count : Nat} {final : RankNetwork size σ}
    (run : Run (deviceStep checksum uniqueId) count
      (quiet (fun rank => (calls rank).program (callers rank) rank) memory)
      final)
    {returned : Fin size} (returns : final.rest returned = [])
    (rank other : Fin size) :
    (calls rank).purpose = (calls other).purpose ∧ (calls rank).length = (calls other).length ∧
      (calls rank).opening (callers rank) (fits rank) =
        (calls other).opening (callers other) (fits other) := by
  have begins (rank : Fin size) := (calls rank).opening_begins (callers rank) rank (fits rank)
  have shut : Shut Box.request Box.response
      (fun rank (frame : Frame) => requestDescriptor frame.header =
        ((calls rank).opening (callers rank) (fits rank)).descriptor)
      (quiet (fun rank => (calls rank).program (callers rank) rank) memory) := by
    refine ⟨fun _ => rfl, fun rank => ?_⟩
    obtain ⟨thread, later, program, gated⟩ := (begins rank).gated
    simp only [quiet, program]
    exact .before gated
  obtain ⟨requests, answers, answered, posted⟩ := shut.answered
    (by simp) (by intro _ _ same; cases same; rfl) rfl run returns
  obtain ⟨descriptor, alike⟩ := alike_of_answered answered
  have described (rank : Fin size) :
      ((calls rank).opening (callers rank) (fits rank)).descriptor =
        descriptor := by
    obtain ⟨request, among, own⟩ := posted rank (List.mem_finRange rank)
    rw [← own]
    exact alike request among
  have same := Opening.eq_of_descriptor ((described rank).trans (described other).symm)
    (apart rank other)
  have here := begins rank
  rw [same] at here
  exact ⟨here.purpose.symm.trans (begins other).purpose,
    here.length.symm.trans (begins other).length, same⟩

theorem calls_agree_bytes :
    let caller : Fin 3 → Caller UInt8 3 := fun _ =>
      ⟨DeviceCollective.ofBytes .direct, by decide⟩
    let call : Fin 3 → DeviceCall UInt8 3 (Buffer UInt8 5) := fun _ =>
      .allReduce 5 (Cell.whole _) .sum (· + ·)
    (call 1).opening (caller 1) (by decide) =
      (call 2).opening (caller 2) (by decide) := by
  intro caller call
  obtain ⟨_, run⟩ := @DeviceCollective.reaches_allReduceDirect UInt8 3 5 _ _
    (DeviceCollective.ofBytes .direct) (Cell.whole (Buffer UInt8 5))
    (· + ·) RankDevice.lawful_bytes
    (by unfold DeviceCollective.FitsFrame; decide) .sum fun _ _ => 1
  refine (@calls_agree UInt8 3 _ _ _ _ caller call (fun _ => by decide) ?_ _
    _ _ run 0 rfl 1 2).2.2
  intro _ _ _ _ here there _
  cases here.symm.trans there
  rfl

end RuCCL.Rank
