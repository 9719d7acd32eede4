import RuCCL.Rank.AllGatherRuns

/-!
# Pieces of bundles

The bundle of a group goes round the leaders in pieces, one for each channel.  Every
leader joins the pieces of all bundles to the values of all ranks.
-/

namespace RuCCL.Rank

open RuCCL.Library
open RankTransport

variable {T : Type} {size length : Nat}

namespace Hierarchy

variable (hierarchy : Hierarchy size)

/-- The inputs of a group, one behind the other. -/
def bundleOf (inputs : Fin size → Buffer T length) (group : Nat) : List T :=
  match hierarchy.groups[group]? with
  | some group => group.members.flatMap fun member => List.ofFn (inputs member)
  | none => []

theorem length_bundleOf (inputs : Fin size → Buffer T length) (group : Nat) :
    (hierarchy.bundleOf inputs group).length = hierarchy.memberCounts.getD group 0 * length := by
  rw [bundleOf, List.getD_eq_getElem?_getD, memberCounts, List.getElem?_map]
  cases hierarchy.groups[group]? with
  | none => exact (Nat.zero_mul length).symm
  | some group => simp [List.length_flatMap]

theorem bundleOf_groupIndex (inputs : Fin size → Buffer T length) (rank : Fin size) :
    hierarchy.bundleOf inputs (hierarchy.groupIndex rank) =
      (hierarchy.groupOf rank).members.flatMap fun member =>
        List.ofFn (inputs member) := by
  rw [bundleOf, hierarchy.getElem?_groups]

end Hierarchy

namespace DeviceCollective

variable {collective : DeviceCollective T size} {hierarchy : Hierarchy size}
  {channels channel : Nat}

/-- What a channel has of the bundles, at a place of the ring of the leaders. -/
def heldPieces (hierarchy : Hierarchy size) (bundles : Nat → List T)
    (channels channel time : Nat) (place : ZMod hierarchy.groups.length)
    (group : Nat) : Option (List T) :=
  if channel < channels ∧ group < hierarchy.groups.length then
    relayed (fun slot => pieceOf channels channel (bundles slot.val)) time place group
  else none

theorem heldPieces_mod (inside : channel < channels) (bundles : Nat → List T) (time : Nat)
    (place : ZMod hierarchy.groups.length) (index : Nat) :
    heldPieces hierarchy bundles channels channel time place (index % hierarchy.groups.length) =
      relayed (fun slot => pieceOf channels channel (bundles slot.val)) time
        place (index : ZMod hierarchy.groups.length) := by
  rw [heldPieces, if_pos ⟨inside, Nat.mod_lt _ (NeZero.pos _)⟩, ZMod.natCast_mod]

/-- What arrives is kept. -/
theorem heldPieces_succ (inside : channel < channels) (bundles : Nat → List T) {time index : Nat}
    (early : time + 1 < hierarchy.groups.length)
    (place : ZMod hierarchy.groups.length)
    (arrives : (index : ZMod hierarchy.groups.length) =
      place - 1 - (time : ZMod hierarchy.groups.length)) :
    heldPieces hierarchy bundles channels channel (time + 1) place = Function.update
        (heldPieces hierarchy bundles channels channel time place)
        (index % hierarchy.groups.length)
        (some (pieceOf channels channel (bundles (index % hierarchy.groups.length)))) := by
  funext group
  have wraps := Nat.mod_lt index (NeZero.pos hierarchy.groups.length)
  by_cases among : group < hierarchy.groups.length
  · have same : (group : ZMod hierarchy.groups.length) =
        place - 1 - (time : ZMod hierarchy.groups.length) ↔
        group = index % hierarchy.groups.length := by
      rw [← arrives, ZMod.natCast_eq_natCast_iff, Nat.ModEq, Nat.mod_eq_of_lt among]
    have both : channel < channels ∧ group < hierarchy.groups.length := ⟨inside, among⟩
    rw [Function.update_apply, heldPieces, heldPieces, if_pos both,
      if_pos both, relayed_succ _ early]
    by_cases arrived : group = index % hierarchy.groups.length
    · rw [if_pos (same.mpr arrived), if_pos arrived, ZMod.val_natCast_of_lt among, arrived]
    · rw [if_neg fun now => arrived (same.mp now), if_neg arrived]
  · have outside : group ≠ index % hierarchy.groups.length := by omega
    rw [Function.update_apply, if_neg outside, heldPieces, heldPieces,
      if_neg fun both => among both.2, if_neg fun both => among both.2]

/-- The leaders after so many rounds of each channel. -/
def piecesHeld (hierarchy : Hierarchy size) (bundles : Nat → List T)
    (channels : Nat) (times : Nat → Nat)
    (before : Fin size → AllGatherMemory T size length)
    (rank : Fin size) : AllGatherMemory T size length :=
  if hierarchy.Leads rank then
    { before rank with
      pieces := fun channel =>
        heldPieces hierarchy bundles channels channel (times channel)
          (hierarchy.leaders.place rank) }
  else before rank

/-- The group whose piece a leader sends in a step. -/
def sendGroup (hierarchy : Hierarchy size) (rank : Fin size) (step : Nat) :
    Nat :=
  (hierarchy.groupIndex rank + hierarchy.groups.length - step) % hierarchy.groups.length

/-- The group whose piece a leader gets in a step. -/
def receiveGroup (hierarchy : Hierarchy size) (rank : Fin size) (step : Nat) : Nat :=
  (hierarchy.groupIndex rank + hierarchy.groups.length - step - 1) % hierarchy.groups.length

/-- The bytes that a leader gets in a step. -/
def receiveBytes (collective : DeviceCollective T size)
    (hierarchy : Hierarchy size) (inputLength channels channel : Nat)
    (rank : Fin size) (step : Nat) : Nat :=
  pieceLength hierarchy inputLength channels channel
    (receiveGroup hierarchy rank step) * collective.execution.elementSize

/-- One step of all leaders. -/
def pieceRound (collective : DeviceCollective T size)
    (hierarchy : Hierarchy size) (length channels channel step : Nat) :
    Round (Fin size) (Box size) Frame (AllGatherMemory T size length)
      CollectiveFault :=
  let tag := hierarchyRingDataTag collective.operation 5 channel step
  collective.shiftRound hierarchy.leaders 1 channel tag collective.elementType
    (fun rank => hostContent collective.elementType
      (collective.receiveBytes hierarchy length channels channel rank step)
      (collective.pieceContent hierarchy channel
        (sendGroup hierarchy rank step) (receiveGroup hierarchy rank step)
        length channels))
    fun rank frame memory => do
      let received ← hostPayload collective.elementType
        (collective.receiveBytes hierarchy length channels channel rank step) tag frame
      collective.keepPiece channel (receiveGroup hierarchy rank step)
        (pieceLength hierarchy length channels channel
          (receiveGroup hierarchy rank step)) received memory

/-- The rounds of a channel. -/
def pieceStages (collective : DeviceCollective T size)
    (hierarchy : Hierarchy size) (length channels channel : Nat) :
    List (Stage (Fin size) (Box size) Frame (AllGatherMemory T size length) CollectiveFault) :=
  (List.range (hierarchy.groups.length - 1)).map fun step =>
    .exchange (collective.pieceRound hierarchy length channels channel step)

theorem leaderAllGatherRingChannel_eq {rank : Fin size} (leads : hierarchy.Leads rank) :
    (collective.leaderAllGatherRingChannel hierarchy rank
        (hierarchy.groupIndex rank) length channel channels :
          RankThread size (AllGatherMemory T size length)) =
      (collective.pieceStages hierarchy length channels channel).flatMap
        (Stage.instructions rank) := by
  have among := (hierarchy.mem_leaders rank).mpr leads
  have ahead : hierarchy.leaders.memberAt (hierarchy.groupIndex rank + 1) =
      hierarchy.leaders.ahead 1 rank := by
    rw [← hierarchy.position_leader leads]
    exact RingOrder.memberAt_ahead _ rank
  have behind : hierarchy.leaders.memberAt
      (hierarchy.groupIndex rank + hierarchy.groups.length - 1) =
      hierarchy.leaders.behind 1 rank := by
    rw [← hierarchy.position_leader leads]
    exact RingOrder.memberAt_behind _ rank
  rw [leaderAllGatherRingChannel, pieceStages, List.flatMap_map]
  dsimp only
  rw [ahead, behind]
  refine List.flatMap_congr fun step _ => ?_
  simp only [Stage.instructions, pieceRound, instructions_shiftRound among]
  rfl

theorem pieceStages_proper (channel : Nat) :
    ∀ stage ∈ collective.pieceStages hierarchy length channels channel,
      stage.Proper hierarchy.leaders.members Box.sender Box.receiver := by
  intro stage member
  obtain ⟨step, _, rfl⟩ := List.mem_map.mp member
  exact shiftRound_proper

/-- The place whose piece a leader sends. -/
theorem cast_sendGroup {rank : Fin size} (leads : hierarchy.Leads rank)
    {step : Nat} (early : step + 1 < hierarchy.groups.length) :
    ((hierarchy.groupIndex rank + hierarchy.groups.length - step : Nat) :
        ZMod hierarchy.groups.length) =
      hierarchy.leaders.place rank - (step : ZMod hierarchy.groups.length) := by
  rw [RingOrder.place, hierarchy.position_leader leads, Nat.cast_sub (by omega)]
  push_cast
  simp

/-- The place whose piece a leader gets. -/
theorem cast_receiveGroup {rank : Fin size} (leads : hierarchy.Leads rank)
    {step : Nat} (early : step + 1 < hierarchy.groups.length) :
    ((hierarchy.groupIndex rank + hierarchy.groups.length - step - 1 :
        Nat) : ZMod hierarchy.groups.length) =
      hierarchy.leaders.place rank - 1 - (step : ZMod hierarchy.groups.length) := by
  rw [RingOrder.place, hierarchy.position_leader leads, Nat.sub_sub, Nat.cast_sub (by omega)]
  push_cast
  simp
  ring

theorem pieceLength_eq (inside : channel < channels)
    (inputs : Fin size → Buffer T length) (group : Nat) :
    pieceLength hierarchy length channels channel group =
      (pieceOf channels channel (hierarchy.bundleOf inputs group)).length := by
  rw [length_pieceOf inside, hierarchy.length_bundleOf, pieceLength,
    rangeAt_balancedRanges inside]

theorem memberCount_le (hierarchy : Hierarchy size) (group : Nat) :
    hierarchy.memberCounts.getD group 0 ≤ size := by
  rw [List.getD_eq_getElem?_getD]
  cases located : hierarchy.memberCounts[group]? with
  | none => exact Nat.zero_le size
  | some count =>
      have among := List.mem_of_getElem? located
      have most := List.le_sum_of_mem among
      rwa [hierarchy.sum_memberCounts] at most

theorem length_pieceOf_le (inside : channel < channels)
    (inputs : Fin size → Buffer T length) (group : Nat) :
    (pieceOf channels channel (hierarchy.bundleOf inputs group)).length ≤ length * size := by
  have fits := (@channelSpan_within
    (hierarchy.bundleOf inputs group).length channels channel inside).fits
  have sized := hierarchy.length_bundleOf inputs group
  have most := Nat.mul_le_mul_right length (memberCount_le hierarchy group)
  rw [length_pieceOf inside, Nat.mul_comm length size]
  omega

/-- A channel has a frame for its piece of each bundle. -/
theorem GroupsFit.piece (fits : collective.GroupsFit hierarchy length channels)
    (inside : channel < channels) (inputs : Fin size → Buffer T length)
    {group : Nat} (among : group < hierarchy.groups.length) :
    collective.FitsFrame (pieceOf channels channel (hierarchy.bundleOf inputs group)).length := by
  have located := List.getElem?_eq_getElem among
  have part := fits _ (List.getElem_mem among) channel inside
  have count : hierarchy.memberCounts.getD group 0 = hierarchy.groups[group].members.length := by
    rw [List.getD_eq_getElem?_getD, Hierarchy.memberCounts, List.getElem?_map, located]
    rfl
  rwa [length_pieceOf inside, hierarchy.length_bundleOf, count]

/-- A leader gets what the leader before it sends. -/
theorem sendGroup_behind {rank : Fin size} (leads : hierarchy.Leads rank)
    {step : Nat} (early : step + 1 < hierarchy.groups.length) :
    sendGroup hierarchy (hierarchy.leaders.behind 1 rank) step =
      receiveGroup hierarchy rank step := by
  have behind := (hierarchy.mem_leaders _).mp (hierarchy.leaders.behind_mem 1 rank)
  refine (ZMod.natCast_eq_natCast_iff' _ _ _).mp ?_
  rw [cast_sendGroup behind early, cast_receiveGroup leads early, RingOrder.place_behind]

section Rounds

variable (lawful : collective.execution.Lawful)
  (addressable :
    length * size * collective.execution.elementSize < wordSize)
  (fits : collective.GroupsFit hierarchy length channels)

include lawful addressable

theorem pieceContent_eq_ok (inside : channel < channels)
    (inputs : Fin size → Buffer T length) {sent received : Nat}
    {memory : AllGatherMemory T size length} {piece : List T}
    (held : memory.pieces channel sent = some piece) :
    collective.pieceContent hierarchy channel sent received length channels
      memory = .ok (collective.execution.encode piece) := by
  have most := Nat.mul_le_mul_right length (memberCount_le hierarchy received)
  have small := @length_pieceOf_le T size length hierarchy channels channel inside inputs received
  rw [← pieceLength_eq inside inputs] at small
  have whole : length * size < wordSize :=
    lt_of_le_of_lt (Nat.le_mul_of_pos_right _ lawful.positive) addressable
  have members := (checkedMul_eq_some_iff (hierarchy.memberCounts.getD received 0) length _).mpr
      ⟨lt_of_le_of_lt most (Nat.mul_comm length size ▸ whole), rfl⟩
  have bytes := (checkedMul_eq_some_iff (pieceLength hierarchy length channels channel received)
    collective.execution.elementSize _).mpr
      ⟨lt_of_le_of_lt (Nat.mul_le_mul_right _ small) addressable, rfl⟩
  rw [pieceContent, held, okOr_some, ok_bind]
  dsimp only
  rw [members, okOr_some, ok_bind, bytes, okOr_some, ok_bind]

theorem keepPiece_eq_ok {group : Nat} (inside : channel < channels)
    (inputs : Fin size → Buffer T length)
    (memory : AllGatherMemory T size length) :
    collective.keepPiece channel group (pieceLength hierarchy length channels channel group)
        (collective.execution.encode (pieceOf channels channel (hierarchy.bundleOf inputs group)))
        memory =
      .ok { memory with
        pieces := Function.update memory.pieces channel
          (Function.update (memory.pieces channel) group
            (some (pieceOf channels channel (hierarchy.bundleOf inputs group)))) } := by
  have small := @length_pieceOf_le T size length hierarchy channels channel inside inputs group
  have decoded := RankDevice.decodeExact_encode lawful (pieceLength_eq inside inputs group).symm
    (lt_of_le_of_lt (Nat.mul_le_mul_right _
      ((pieceLength_eq inside inputs group).le.trans small)) addressable)
  rw [keepPiece, decoded, ok_bind]

include fits

/-- In one round every leader gets one more piece. -/
theorem pieceRound_does (inside : channel < channels) (inputs : Fin size → Buffer T length)
    (before : Fin size → AllGatherMemory T size length)
    (times : Nat → Nat) {step : Nat}
    (early : step + 1 < hierarchy.groups.length)
    (now : times channel = step) :
    (collective.pieceRound hierarchy length channels channel step).Does hierarchy.leaders.members
      (piecesHeld hierarchy (hierarchy.bundleOf inputs) channels times before)
      (piecesHeld hierarchy (hierarchy.bundleOf inputs) channels
        (Function.update times channel (step + 1)) before) := by
  let piece (group : Nat) : List T := pieceOf channels channel (hierarchy.bundleOf inputs group)
  have divides (values : List T) :
      collective.elementType.byteWidth ∣ (collective.execution.encode values).length := by
    rw [lawful.length_encode, collective.typed]
    exact Nat.dvd_mul_left _ _
  have wide : 0 < collective.elementType.byteWidth := by
    rw [collective.typed]
    exact lawful.positive
  refine @shiftRound_does T size _ _ _ _ _ _ _ _ _ _ _ _ _
    (fun rank =>
      ((collective.execution.encode (piece (sendGroup hierarchy rank
          step))).length / collective.elementType.byteWidth,
        collective.execution.encode (piece (sendGroup hierarchy rank step))))
    (elementType_ne_none lawful) ?_ ?_ ?_ ?_ ?_
  · intro rank among
    have leads := (hierarchy.mem_leaders rank).mp among
    apply hostContent_eq_ok wide _ (divides _)
    · rw [receiveBytes, collective.typed]
      exact Nat.dvd_mul_left _ _
    · apply pieceContent_eq_ok lawful addressable inside inputs
      rw [piecesHeld, if_pos leads]
      dsimp only
      rw [sendGroup, heldPieces_mod inside, now, cast_sendGroup leads early,
        relayed_sent _ (Nat.lt_of_succ_lt early), ← cast_sendGroup leads early,
        ZMod.val_natCast]
  · intro rank _
    exact (Nat.div_mul_cancel (divides _)).symm
  · intro rank _
    rw [lawful.length_encode]
    exact fits.piece inside inputs (Nat.mod_lt _ (NeZero.pos _))
  · intro rank among
    have leads := (hierarchy.mem_leaders rank).mp among
    have bytes : (collective.execution.encode (piece (receiveGroup hierarchy rank step))).length =
        collective.receiveBytes hierarchy length channels channel rank
          step := by
      rw [lawful.length_encode, receiveBytes, pieceLength_eq inside inputs]
    have taken := @hostPayload_dataFrame T size collective
      collective.elementType (hierarchy.leaders.behind 1 rank) rank
      (hierarchyRingDataTag collective.operation 5 channel step) _ _ bytes
    dsimp only
    rw [sendGroup_behind leads early, taken, ok_bind,
      keepPiece_eq_ok lawful addressable inside inputs]
    refine congrArg Except.ok ?_
    rw [piecesHeld, piecesHeld, if_pos leads, if_pos leads]
    refine congrArg (fun pieces => { before rank with pieces := pieces }) (funext fun other => ?_)
    have arrived := heldPieces_succ inside (hierarchy.bundleOf inputs) early
      (hierarchy.leaders.place rank) (cast_receiveGroup leads early)
    by_cases same : other = channel
    · rw [same, Function.update_self, Function.update_self, arrived]
      dsimp only
      rw [now]
      rfl
    · rw [Function.update_of_ne same, Function.update_of_ne same]
  · intro rank outside
    have follows := fun leads =>
      outside ((hierarchy.mem_leaders rank).mpr leads)
    rw [piecesHeld, piecesHeld, if_neg follows, if_neg follows]

/-- After its rounds a channel has its pieces of all bundles. -/
theorem pieceStages_does (inside : channel < channels) (inputs : Fin size → Buffer T length)
    (before : Fin size → AllGatherMemory T size length)
    {times : Nat → Nat} (start : times channel = 0) :
    DoesAll hierarchy.leaders.members
      ((collective.pieceStages hierarchy length channels channel).map (Prod.mk channel))
      (piecesHeld hierarchy (hierarchy.bundleOf inputs) channels times before)
      (piecesHeld hierarchy (hierarchy.bundleOf inputs) channels
        (Function.update times channel (hierarchy.groups.length - 1))
        before) := by
  have rounds := @DoesAll.steps (Fin size) (Box size) Frame
    (AllGatherMemory T size length) CollectiveFault hierarchy.leaders.members
    (fun step => .exchange (collective.pieceRound hierarchy length channels channel step))
    (fun time => piecesHeld hierarchy (hierarchy.bundleOf inputs) channels
      (Function.update times channel time) before) channel
    (hierarchy.groups.length - 1)
    (fun step early => by
      have does := @pieceRound_does T size length collective hierarchy
        channels channel lawful addressable fits inside inputs before
        (Function.update times channel step) step (by omega)
        (Function.update_self ..)
      rw [Function.update_idem] at does
      exact does)
  have untouched : Function.update times channel 0 = times := by
    rw [← start, Function.update_eq_self]
  rw [untouched] at rounds
  exact rounds

/-- All channels together have all bundles. -/
theorem allPieces_do (inputs : Fin size → Buffer T length)
    (before : Fin size → AllGatherMemory T size length) :
    DoesAll hierarchy.leaders.members
      (byChannel (collective.pieceStages hierarchy length channels) channels)
      (piecesHeld hierarchy (hierarchy.bundleOf inputs) channels (fun _ => 0) before)
      (piecesHeld hierarchy (hierarchy.bundleOf inputs) channels
        (fun channel =>
          if channel < channels then hierarchy.groups.length - 1 else 0)
        before) := by
  have all := @DoesAll.channels (Fin size) (Box size) Frame
    (AllGatherMemory T size length) CollectiveFault hierarchy.leaders.members
    (collective.pieceStages hierarchy length channels)
    (fun done => piecesHeld hierarchy (hierarchy.bundleOf inputs) channels
      (fun channel =>
        if channel < done then hierarchy.groups.length - 1 else 0) before)
    channels
    (fun channel inside => by
      have does := @pieceStages_does T size length collective hierarchy
        channels channel lawful addressable fits inside inputs before
        (fun other =>
          if other < channel then hierarchy.groups.length - 1 else 0)
        (if_neg (Nat.lt_irrefl channel))
      refine cast (congrArg (fun times => DoesAll _ _ _ (piecesHeld hierarchy
        (hierarchy.bundleOf inputs) channels times before)) (funext fun other => ?_)) does
      rw [Function.update_apply]
      simp only [Nat.lt_succ_iff_lt_or_eq]
      by_cases same : other = channel
      · simp [same]
      · simp [same])
  simpa only [Nat.not_lt_zero, if_false] using all

end Rounds

theorem zipIdx_map_range {α : Type} (count : Nat) (part : Nat → α) :
    ((List.range count).map part).zipIdx =
      (List.range count).map fun index => (part index, index) := by
  apply List.ext_getElem
  · simp
  · intro index _ _
    simp

theorem appendPieces_eq_ok {pieces : Nat → Nat → Option (List T)}
    {count : Nat} {bundle piece : Nat → List T}
    (held : ∀ group < count, pieces channel group = some (piece group)) :
    appendPieces pieces ((List.range count).map bundle) channel =
      .ok ((List.range count).map fun group =>
        bundle group ++ piece group) := by
  rw [appendPieces, zipIdx_map_range, mapM_eq_ok_iff, List.map_map, List.map_map]
  refine List.map_congr_left fun group member => ?_
  simp only [Function.comp_apply, held group (List.mem_range.mp member), okOr_some, ok_bind]

/-- The pieces of all channels make up the bundles. -/
theorem joinPieces_eq_ok {bundles : Nat → List T} {inputLength : Nat} (positive : 0 < channels)
    (sized : ∀ group, (bundles group).length = hierarchy.memberCounts.getD group 0 * inputLength)
    (bounded : inputLength * size < wordSize)
    {pieces : Nat → Nat → Option (List T)}
    (held : ∀ channel < channels, ∀ group < hierarchy.groups.length, pieces channel group =
        some (pieceOf channels channel (bundles group))) :
    joinPieces hierarchy channels inputLength pieces =
      .ok ((List.range hierarchy.groups.length).map bundles) := by
  let joined (done group : Nat) : List T := (List.range done).flatMap fun channel =>
      pieceOf channels channel (bundles group)
  obtain ⟨final, ran, all⟩ := @foldlM_range_invariant _ _ (appendPieces pieces) channels
    (fun done state => state = (List.range hierarchy.groups.length).map (joined done))
    (List.replicate hierarchy.groups.length []) (by simp [joined])
    (by
      intro channel state inside same
      refine ⟨_, by rw [same, appendPieces_eq_ok (held channel inside)], ?_⟩
      simp only [joined, List.range_succ, List.flatMap_append, List.flatMap_singleton])
  have whole : final = (List.range hierarchy.groups.length).map bundles := by
    rw [all]
    exact List.map_congr_left fun group _ =>
      flatMap_pieceOf positive (bundles group)
  have checks : (hierarchy.groups.zip final).forM (checkBundle inputLength) = .ok () := by
    rw [forM_eq_ok_iff]
    intro entry listed
    obtain ⟨index, located⟩ := List.mem_iff_getElem?.mp listed
    rw [List.getElem?_zip_eq_some] at located
    obtain ⟨group, bundle⟩ := located
    have count : entry.1.members.length =
        hierarchy.memberCounts.getD index 0 := by
      rw [List.getD_eq_getElem?_getD, Hierarchy.memberCounts, List.getElem?_map, group]
      rfl
    have same : entry.2 = bundles index := by
      rw [whole, List.getElem?_map, Option.map_eq_some_iff] at bundle
      obtain ⟨place, listed, same⟩ := bundle
      obtain ⟨_, rfl⟩ := List.getElem?_eq_some_iff.mp listed
      rw [← same, List.getElem_range]
    have most := Nat.mul_le_mul_right inputLength (memberCount_le hierarchy index)
    rw [Nat.mul_comm size] at most
    have expected := (checkedMul_eq_some_iff
      (hierarchy.memberCounts.getD index 0) inputLength _).mpr ⟨lt_of_le_of_lt most bounded, rfl⟩
    rw [checkBundle, count, expected, okOr_some, ok_bind, same, sized,
      rejectIf, if_neg (not_not.mpr rfl)]
  rw [joinPieces, ran, ok_bind, checks, ok_bind, whole]

/-- Some ranks have got their values. -/
def valuesTaken (inputs : Fin size → Buffer T length)
    (ranks : List (Fin size)) (rankValues : Fin size → List T) :
    Fin size → List T :=
  overlay ranks (fun rank => rankValues rank ++ List.ofFn (inputs rank)) rankValues

theorem valuesTaken_append (inputs : Fin size → Buffer T length)
    {ranks others : List (Fin size)} (apart : ranks.Disjoint others)
    (rankValues : Fin size → List T) :
    valuesTaken inputs others (valuesTaken inputs ranks rankValues) =
      valuesTaken inputs (ranks ++ others) rankValues := by
  funext rank
  unfold valuesTaken overlay
  by_cases among : rank ∈ ranks
  · have absent : rank ∉ others := apart among
    simp [among, absent]
  · simp [among]

theorem valuesTaken_singleton (inputs : Fin size → Buffer T length)
    (member : Fin size) (rankValues : Fin size → List T) :
    valuesTaken inputs [member] rankValues = Function.update rankValues member
        (rankValues member ++ List.ofFn (inputs member)) := by
  rw [valuesTaken, overlay_cons, overlay_nil]

theorem takeMembers_eq_ok (inputs : Fin size → Buffer T length)
    {bundle : List T} (addressable : bundle.length < wordSize)
    {members : List (Fin size)} (distinct : members.Nodup) {offset : Nat}
    (inside : offset ≤ bundle.length)
    (left : bundle.drop offset = members.flatMap fun member => List.ofFn (inputs member))
    (rankValues : Fin size → List T) :
    members.foldlM (takeMember length bundle) (rankValues, offset) =
      .ok (valuesTaken inputs members rankValues, bundle.length) := by
  induction members generalizing offset rankValues with
  | nil =>
      have done := List.drop_eq_nil_iff.mp left
      have same : offset = bundle.length := by omega
      have untouched : valuesTaken inputs [] rankValues = rankValues := overlay_nil _ _
      rw [untouched, ← same]
      rfl
  | cons member rest ih =>
      have distinct' := List.nodup_cons.mp distinct
      have sized := congrArg List.length left
      rw [List.flatMap_cons, List.length_append, List.length_ofFn, List.length_drop] at sized
      have added := (checkedAdd_eq_some_iff offset length _).mpr ⟨by omega, rfl⟩
      have ordered : ¬(offset + length < offset ∨ bundle.length < offset + length) := by omega
      have values : Library.segment bundle offset length = List.ofFn (inputs member) := by
        rw [Library.segment, left, List.flatMap_cons]
        exact List.take_left' List.length_ofFn
      have behind : bundle.drop (offset + length) =
          rest.flatMap fun member => List.ofFn (inputs member) := by
        rw [← List.drop_drop, left, List.flatMap_cons]
        exact List.drop_left' List.length_ofFn
      have taken : takeMember length bundle (rankValues, offset) member =
          .ok (valuesTaken inputs [member] rankValues, offset + length) := by
        rw [valuesTaken_singleton, takeMember, added, okOr_some, ok_bind,
          sliceOf, rejectIf, if_neg ordered, ok_bind,
          Nat.add_sub_cancel_left, values, ok_bind]
      rw [List.foldlM_cons, taken, ok_bind,
        ih distinct'.2 (by omega) behind,
        valuesTaken_append inputs (List.singleton_disjoint.mpr distinct'.1),
        List.singleton_append]

/-- The values of a bundle go to the members of its group. -/
theorem unbundle_eq_ok (inputs : Fin size → Buffer T length)
    {group : RankGroup size} (distinct : group.members.Nodup)
    (addressable : group.members.length * length < wordSize)
    (rankValues : Fin size → List T) :
    unbundle length rankValues
        (group, group.members.flatMap fun member =>
          List.ofFn (inputs member)) =
      .ok (valuesTaken inputs group.members rankValues) := by
  have sized : (group.members.flatMap fun member =>
      List.ofFn (inputs member)).length < wordSize := by
    simpa [List.length_flatMap] using addressable
  rw [unbundle]
  dsimp only
  rw [takeMembers_eq_ok inputs sized distinct (Nat.zero_le _) List.drop_zero, ok_bind]

/-- The values of all bundles go to all ranks. -/
theorem unbundleAll_eq_ok (inputs : Fin size → Buffer T length) {groups : List (RankGroup size)}
    (distinct : (groups.flatMap RankGroup.members).Nodup)
    (addressable : ∀ group ∈ groups, group.members.length * length < wordSize)
    (rankValues : Fin size → List T) :
    (groups.map fun group => (group, group.members.flatMap fun member =>
        List.ofFn (inputs member))).foldlM (unbundle length) rankValues =
      .ok (valuesTaken inputs (groups.flatMap RankGroup.members) rankValues) := by
  induction groups generalizing rankValues with
  | nil =>
      have untouched : valuesTaken inputs [] rankValues = rankValues := overlay_nil _ _
      rw [List.flatMap_nil, untouched]
      rfl
  | cons group rest ih =>
      rw [List.flatMap_cons] at distinct ⊢
      obtain ⟨own, others, apart⟩ := List.nodup_append'.mp distinct
      rw [List.map_cons, List.foldlM_cons,
        unbundle_eq_ok inputs own (addressable group List.mem_cons_self),
        ok_bind, ih others fun other listed =>
          addressable other (List.mem_cons_of_mem _ listed),
        valuesTaken_append inputs apart]

/-- A leader puts the values of all ranks together. -/
theorem joinBundles_eq_ok (positive : 0 < channels) (bounded : length * size < wordSize)
    (inputs : Fin size → Buffer T length)
    {memory : AllGatherMemory T size length}
    (held : ∀ channel < channels, ∀ group < hierarchy.groups.length, memory.pieces channel group =
        some (pieceOf channels channel (hierarchy.bundleOf inputs group))) :
    joinBundles hierarchy channels memory =
      .ok { memory with
        outputValues := (List.finRange size).flatMap fun rank =>
          List.ofFn (inputs rank) } := by
  have joined := joinPieces_eq_ok positive (hierarchy.length_bundleOf inputs) bounded held
  have zipped : hierarchy.groups.zip
      ((List.range hierarchy.groups.length).map (hierarchy.bundleOf inputs)) =
      hierarchy.groups.map fun group =>
        (group, group.members.flatMap fun member =>
          List.ofFn (inputs member)) := by
    apply List.ext_getElem
    · simp
    · intro index _ early
      rw [List.length_map] at early
      have located : hierarchy.groups[index]? = some hierarchy.groups[index] :=
        List.getElem?_eq_getElem early
      simp [Hierarchy.bundleOf, located]
  have everyone : valuesTaken inputs (hierarchy.groups.flatMap RankGroup.members) (fun _ => []) =
      fun rank => List.ofFn (inputs rank) := by
    funext rank
    have among : rank ∈ hierarchy.groups.flatMap RankGroup.members := hierarchy.mem_packed rank
    rw [valuesTaken, overlay_of_mem among, List.nil_append]
  have values := unbundleAll_eq_ok inputs hierarchy.nodup_members
    (by
      intro group listed
      have small := Nat.mul_le_mul_right length (hierarchy.length_members_le listed)
      rw [Nat.mul_comm size] at small
      exact lt_of_le_of_lt small bounded) fun _ => []
  have sized : ((List.finRange size).flatMap fun rank =>
      List.ofFn (inputs rank)).length = length * size := by
    simp [List.length_flatMap, Nat.mul_comm]
  rw [joinBundles, joined, ok_bind, zipped, values, ok_bind, everyone]
  dsimp only
  rw [sized, rejectIf, if_neg (not_not.mpr rfl), ok_bind]

end DeviceCollective

end RuCCL.Rank
