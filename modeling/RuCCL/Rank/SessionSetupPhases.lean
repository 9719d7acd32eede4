import RuCCL.Rank.SessionSetupSteps

/-!
# Every step of the coordinator keeps the invariant

The coordinator is in one phase with all ranks.  A rank can be ahead of it only as far
as the coordinator has answered, so a connection that arrives belongs to the phase.
-/

namespace RuCCL.Rank

open RuCCL.Library

variable {Addr Ip : Type} {config : SetupConfig Addr Ip}
variable {state : SetupState config.world Addr}

section Moves

variable {own next : CoordinatorSetup config.world Addr} {phase : Phase}
  {rank : Fin config.world} {stage : CoordinatorStage config.world Addr}

theorem phaseAccept_current (located : config.phases[own.index]? = some phase) :
    phaseAccept config own rank phase = own.stage.accept rank :=
  standing_current (phases_nodup config) located

theorem phaseAccept_passed (passed : phase ∈ config.phases.take own.index) :
    phaseAccept config own rank phase = .answered :=
  standing_passed passed

/-- Only one conversation of the phase sees a new stage. -/
theorem phaseAccept_withStage (located : config.phases[own.index]? = some phase)
    (same : ∀ owner, owner ≠ rank → stage.accept owner = own.stage.accept owner)
    (owner : Fin config.world) (other : Phase)
    (apart : ¬(owner = rank ∧ other = phase)) :
    phaseAccept config { own with stage := stage } owner other =
      phaseAccept config own owner other := by
  by_cases current : other = phase
  · subst current
    have different : owner ≠ rank := fun equal => apart ⟨equal, rfl⟩
    have after : phaseAccept config { own with stage := stage } owner
        other = stage.accept owner := phaseAccept_current located
    rw [after, same owner different, phaseAccept_current located]
  · exact standing_of_ne located current

/-- The coordinator moves in one conversation. -/
theorem elsewhere_of_coordinator
    (others : ∀ owner other, ¬(owner = rank ∧ other = phase) →
      phaseAccept config next owner other = phaseAccept config state.coordinator owner other) :
    Elsewhere (dials config state)
      (dials config (state.setCoordinator next)) (accepts config state)
      (accepts config (state.setCoordinator next))
      ⟨rank, .phase phase⟩ := by
  constructor
  · intro talk _
    rfl
  · rintro ⟨owner, conversation⟩ apart
    cases conversation with
    | phase other =>
        refine others owner other ?_
        rintro ⟨rfl, rfl⟩
        exact apart rfl
    | peerJoin lower rail => rfl

theorem accepts_advance (located : config.phases[state.coordinator.index]? = some phase) :
    accepts config (state.advance (.ok stage)) ⟨rank, .phase phase⟩ =
      stage.accept rank := by
  have after : phaseAccept config { state.coordinator with stage := stage }
      rank phase = stage.accept rank := phaseAccept_current located
  exact after

/-- A new stage of the coordinator that one rank of the phase sees. -/
theorem elsewhere_of_advance (located : config.phases[state.coordinator.index]? = some phase)
    (same : ∀ owner, owner ≠ rank → stage.accept owner = state.coordinator.stage.accept owner) :
    Elsewhere (dials config state)
      (dials config (state.advance (.ok stage))) (accepts config state)
      (accepts config (state.advance (.ok stage)))
      ⟨rank, .phase phase⟩ :=
  elsewhere_of_coordinator (phaseAccept_withStage located same)

theorem endpoints_late (located : config.phases[own.index]? =
    some .endpoints) : 0 < own.index := by
  rw [Nat.pos_iff_ne_zero]
  intro zero
  rw [zero, SetupConfig.phases] at located
  cases located

theorem channelStreams_getElem? (p2p : Bool) (rail : Nat)
    (index : Nat) (line : Line config.world) :
    (channelStreams config p2p rail)[index]? = some line ↔
      ∃ rank : Fin config.world, rank.val = index ∧ line = ⟨rank, .coordinator p2p rail⟩ := by
  rw [channelStreams, List.getElem?_ofFn]
  constructor
  · intro found
    split at found
    case isTrue inside =>
      cases found
      exact ⟨⟨index, inside⟩, rfl, rfl⟩
    case isFalse => cases found
  · rintro ⟨rank, rfl, rfl⟩
    rw [dif_pos rank.isLt]

variable [DecidableEq Addr]

theorem CoordinatorSound.withStage (sound : CoordinatorSound config own)
    (here : stage.Sound config config.phases[own.index]?) :
    CoordinatorSound config { own with stage := stage } :=
  ⟨here, sound.within, sound.streams⟩

/-- The coordinator goes on to its next phase. -/
theorem CoordinatorSound.succ (sound : CoordinatorSound config own)
    (located : config.phases[own.index]? = some phase)
    (index : next.index = own.index + 1) (stage : next.stage = .starting)
    (streams : next.streams = own.streams ++ (phase.streams config).toList) :
    CoordinatorSound config next where
  stage := by
    rw [stage]
    trivial
  within := by
    rw [index]
    exact (List.getElem?_eq_some_iff.mp located).1
  streams := by
    have one : [phase].filterMap (Phase.streams config) = (phase.streams config).toList := by
      cases found : phase.streams config with
      | none => simp [found]
      | some line => simp [found]
    rw [streams, sound.streams, index, List.take_add_one, located,
      List.filterMap_append, Option.toList_some, one]

/-- The collective streams are those of the first phase. -/
theorem CoordinatorSound.collective (sound : CoordinatorSound config own)
    (later : 0 < own.index) :
    own.streams.headD [] = channelStreams config false 0 := by
  obtain ⟨before, same⟩ : ∃ before, own.index = before + 1 :=
    ⟨own.index - 1, (Nat.succ_pred_eq_of_pos later).symm⟩
  rw [sound.streams, same, SetupConfig.phases, List.take_succ_cons,
    List.filterMap_cons_some (rfl : Phase.streams config (.channel false 0) =
      some (channelStreams config false 0))]
  rfl

/-- The coordinator moves in no conversation. -/
theorem SetupSound.setCoordinator (sound : SetupSound config state)
    (after : CoordinatorSound config next)
    (view : ∀ owner other, phaseAccept config next owner other =
      phaseAccept config state.coordinator owner other) :
    SetupSound config (state.setCoordinator next) where
  ranks := sound.ranks
  coordinator := after
  wired := by
    have accepted : accepts config (state.setCoordinator next) =
        accepts config state := by
      funext talk
      obtain ⟨owner, conversation⟩ := talk
      cases conversation with
      | phase other => exact view owner other
      | peerJoin lower rail => rfl
    rw [accepted]
    exact sound.wired

/-- The coordinator moves to a stage that looks the same to all ranks. -/
theorem SetupSound.advance (sound : SetupSound config state)
    (here : stage.Sound config config.phases[state.coordinator.index]?)
    (same : ∀ owner, stage.accept owner = state.coordinator.stage.accept owner) :
    SetupSound config (state.advance (.ok stage)) := by
  refine sound.setCoordinator (sound.coordinator.withStage here) fun owner other => ?_
  rw [phaseAccept, phaseAccept, same owner]

end Moves

section Joined

variable {p2p : Bool} {rail : Nat} {joined : Finset (Fin config.world)} {rank : Fin config.world}

theorem joinedStreams_getElem?_eq_none_iff :
    (joinedStreams config p2p rail joined)[rank.val]? = some none ↔ rank ∉ joined := by
  rw [joinedStreams, List.getElem?_ofFn, dif_pos rank.isLt]
  simp

theorem joinedStreams_empty :
    joinedStreams config p2p rail ∅ = List.replicate config.world none := by
  rw [joinedStreams, ← List.ofFn_const]
  simp

theorem joinedStreams_insert :
    (joinedStreams config p2p rail joined).set rank.val (some ⟨rank, .coordinator p2p rail⟩) =
      joinedStreams config p2p rail (insert rank joined) := by
  refine List.ext_getElem (by simp [joinedStreams]) ?_
  intro index inside _
  rw [List.getElem_set]
  split
  case isTrue same =>
    subst same
    simp [joinedStreams]
  case isFalse apart =>
    have different : ∀ bound : index < config.world,
        (⟨index, bound⟩ : Fin config.world) ≠ rank := by
      rintro bound rfl
      exact apart rfl
    simp [joinedStreams, different]

theorem allJoined_eq (all : joined = Finset.univ) :
    allJoined (joinedStreams config p2p rail joined) = .ok (channelStreams config p2p rail) := by
  rw [allJoined, mapM_eq_ok_iff, joinedStreams, channelStreams, all, List.map_ofFn, List.map_ofFn]
  congr 1
  funext rank
  simp [okOr]

/-- Some rank is missing as long as the loop goes on. -/
theorem joined_eq_univ {remaining : Nat} (counted : remaining + joined.card = config.world)
    (done : remaining = 0) : joined = Finset.univ := by
  rw [← Finset.card_eq_iff_eq_univ, Fintype.card_fin]
  omega

theorem remaining_pos {remaining : Nat} (counted : remaining + joined.card = config.world)
    (missing : rank ∉ joined) : 0 < remaining := by
  have fewer := Finset.card_lt_univ_of_notMem missing
  rw [Fintype.card_fin] at fewer
  omega

variable [DecidableEq Addr]

/-- The coordinator keeps the stream of a rank that has not joined. -/
theorem keepRank_eq (missing : rank ∉ joined) :
    keepRank config p2p rail (joinedStreams config p2p rail joined) ⟨rank, .coordinator p2p rail⟩
        (requestText config rank (.phase (.channel p2p rail))) =
      .ok (joinedStreams config p2p rail (insert rank joined)) := by
  have free : (joinedStreams config p2p rail joined)[rank.val]? =
      some none := joinedStreams_getElem?_eq_none_iff.mpr missing
  rw [keepRank, validateJoin_request, ok_bind]
  dsimp only
  rw [sourceRank_request, free, okOr_some, ok_bind, rejectIf, if_neg (by simp),
    ok_bind, joinedStreams_insert]

end Joined

section Channels

variable {p2p : Bool} {rail : Nat}

theorem phases_getElem?_of_plan {rank : Fin config.world} {index : Nat} {phase : Phase}
    (located : (config.plan rank)[index]? = some (.converse (.phase phase))) :
    config.phases[index]? = some phase := by
  by_cases early : index < config.phases.length
  · have found := List.getElem?_eq_getElem early
    rw [plan_getElem?_phase config rank found] at located
    cases located
    exact found
  · exfalso
    have late : config.phases.length ≤ index := Nat.le_of_not_lt early
    by_cases direct : config.transport = .tcpPeer
    · rw [plan_of_direct config direct, List.getElem?_append_right
        (by simpa using late)] at located
      have among := List.mem_of_getElem? located
      simp [phase_notMem_peerTargets] at among
    · rw [plan_of_not_direct config direct, List.getElem?_map,
        List.getElem?_eq_none_iff.mpr late] at located
      cases located

variable [DecidableEq Addr] (sound : SetupSound config state)

include sound

/-- A connection to the coordinator that waits belongs to the current phase. -/
theorem SetupSound.phase_of_pending {rank : Fin config.world} {current phase : Phase}
    (located : config.phases[state.coordinator.index]? = some current)
    (unanswered : state.coordinator.stage.accept rank ≠ .answered)
    (begun : dials config state ⟨rank, .phase phase⟩ ≠ .absent)
    (untouched : accepts config state ⟨rank, .phase phase⟩ = .untouched) :
    phase = current := by
  have agree := sound.wired.agree ⟨rank, .phase phase⟩
  have unfinished : dials config state ⟨rank, .phase phase⟩ ≠
      .complete := by
    intro complete
    rw [complete] at agree
    rw [agree.of_complete] at untouched
    cases untouched
  have own := phases_getElem?_of_plan (current_of_dialOf begun unfinished)
  rcases Nat.lt_trichotomy (state.ranks rank).index
    state.coordinator.index with behind | same | ahead
  · -- the coordinator has answered all ranks in this phase
    have answered : accepts config state ⟨rank, .phase phase⟩ = .answered :=
      phaseAccept_passed (mem_take_of_getElem? own behind)
    rw [untouched] at answered
    cases answered
  · rw [same, located] at own
    cases own
    rfl
  · -- the rank has heard the answer of the current phase
    have complete : dials config state ⟨rank, .phase current⟩ =
        .complete :=
      dialOf_passed (mem_take_of_getElem? (plan_getElem?_phase config rank located) ahead)
    have answered := sound.wired.agree ⟨rank, .phase current⟩
    rw [complete] at answered
    have stage : accepts config state ⟨rank, .phase current⟩ =
        state.coordinator.stage.accept rank := phaseAccept_current located
    rw [stage] at answered
    exact absurd answered.of_complete unanswered

/-- The coordinator takes a connection. -/
theorem SetupSound.coordinatorAccept {line : Line config.world}
    {after : SetupState config.world Addr}
    (stepped : coordinatorAccept config state line = some after) :
    SetupSound config after := by
  unfold Rank.coordinatorAccept at stepped
  dsimp only at stepped
  split at stepped
  case h_2 => cases stepped
  case h_1 p2p rail ranks remaining stage =>
    split at stepped
    case isFalse => cases stepped
    case isTrue allowed =>
      obtain ⟨_, leads, free⟩ := allowed
      cases stepped
      have here := sound.coordinator.stage
      rw [stage] at here
      obtain ⟨located, joined, rfl, counted⟩ := here
      obtain ⟨target, begun, untouched⟩ := sound.wired.pending leads (by simpa using free)
      obtain ⟨rank, channel⟩ := line
      cases channel with
      | peer lower other => cases target
      | coordinator own other =>
          have unanswered : state.coordinator.stage.accept rank ≠
              .answered := by
            rw [stage, CoordinatorStage.accept]
            split
            case isTrue => exact AcceptStage.noConfusion
            case isFalse => exact AcceptStage.noConfusion
          obtain ⟨rfl, rfl⟩ : own = p2p ∧ other = rail := by
            have same := sound.phase_of_pending located unanswered begun untouched
            cases same
            exact ⟨rfl, rfl⟩
          have view : accepts config state ⟨rank, .phase (.channel own other)⟩ =
                state.coordinator.stage.accept rank :=
            phaseAccept_current located
          have missing : rank ∉ joined := by
            intro member
            have wrong := view.symm.trans untouched
            rw [stage, CoordinatorStage.accept, if_neg] at wrong
            · cases wrong
            · rw [joinedStreams_getElem?_eq_none_iff, not_not]
              exact member
          have reading : CoordinatorStage.Sound config config.phases[state.coordinator.index]?
              (.reading own other (joinedStreams config own other joined)
                remaining ⟨rank, .coordinator own other⟩) :=
            ⟨located, joined, rank, rfl, counted, missing, rfl⟩
          refine ⟨sound.ranks, sound.coordinator.withStage reading, ?_⟩
          refine sound.wired.take (elsewhere_of_advance located ?_) rfl begun untouched ?_ rfl
          · intro owner apart
            rw [stage, CoordinatorStage.accept, CoordinatorStage.accept, if_neg (Ne.symm apart)]
          · rw [accepts_advance located, CoordinatorStage.accept, if_pos
              (joinedStreams_getElem?_eq_none_iff.mpr missing), if_pos rfl]

/-- The coordinator reads a JOIN. -/
theorem SetupSound.kept {ranks : List (Option (Line config.world))}
    {remaining : Nat} {line : Line config.world} {frame : Frame}
    {rest : List Frame}
    (stage : state.coordinator.stage = .reading p2p rail ranks remaining line)
    (waiting : (state.wires line).forward = frame :: rest) :
    SetupSound config ((state.advance do
      let kept ← keepRank config p2p rail ranks line frame
      .ok (.accepting p2p rail kept (remaining - 1))).setWire line
        { state.wires line with forward := rest }) := by
  have here := sound.coordinator.stage
  rw [stage] at here
  obtain ⟨located, joined, rank, rfl, counted, missing, rfl⟩ := here
  have free : (joinedStreams config p2p rail joined)[rank.val]? =
      some none := joinedStreams_getElem?_eq_none_iff.mpr missing
  have taken : accepts config state ⟨rank, .phase (.channel p2p rail)⟩ =
      .taken := by
    refine (phaseAccept_current located).trans ?_
    rw [stage, CoordinatorStage.accept, if_pos free, if_pos rfl]
  have slot (owner : Fin config.world) (apart : owner ≠ rank) :
      (joinedStreams config p2p rail (insert rank joined))[owner.val]? = some none ↔
        (joinedStreams config p2p rail joined)[owner.val]? = some none := by
    rw [joinedStreams_getElem?_eq_none_iff,
      joinedStreams_getElem?_eq_none_iff, Finset.mem_insert, not_or]
    exact and_iff_right apart
  let next : CoordinatorStage config.world Addr :=
    .accepting p2p rail (joinedStreams config p2p rail (insert rank joined)) (remaining - 1)
  have same (owner : Fin config.world) (apart : owner ≠ rank) :
      next.accept owner = state.coordinator.stage.accept owner := by
    rw [stage, CoordinatorStage.accept, CoordinatorStage.accept, if_neg (Ne.symm apart)]
    simp only [slot owner apart]
  have read : accepts config (state.advance (.ok next))
      ⟨rank, .phase (.channel p2p rail)⟩ = .read := by
    rw [accepts_advance located, CoordinatorStage.accept, if_neg]
    rw [joinedStreams_getElem?_eq_none_iff, not_not]
    exact Finset.mem_insert_self ..
  have current := sound.current_of_accepts (Or.inl taken)
  obtain ⟨_, rfl, wired⟩ := sound.wired.read
    (elsewhere_of_advance located same) (Or.inl taken) waiting read rfl (sound.alone current).1
  have counts : remaining - 1 + (insert rank joined).card =
      config.world := by
    have some := remaining_pos counted missing
    rw [Finset.card_insert_of_notMem missing]
    omega
  rw [show (setupWiring config).request ⟨rank, .phase (.channel p2p rail)⟩ =
    requestText config rank (.phase (.channel p2p rail)) from rfl,
    keepRank_eq missing]
  exact ⟨sound.ranks, sound.coordinator.withStage
    ⟨located, insert rank joined, rfl, counts⟩, wired⟩

/-- The coordinator answers a rank. -/
theorem SetupSound.written {phase : Phase} {rank : Fin config.world}
    {stage : CoordinatorStage config.world Addr}
    {frame : Except SetupError Frame}
    (located : config.phases[state.coordinator.index]? = some phase)
    (framed : frame = .ok (replyText config rank (.phase phase)))
    (before : state.coordinator.stage.accept rank = .read)
    (after : stage.accept rank = .answered)
    (same : ∀ owner, owner ≠ rank → stage.accept owner = state.coordinator.stage.accept owner)
    (here : stage.Sound config config.phases[state.coordinator.index]?) :
    SetupSound config (coordinatorWrite state
      ⟨rank, (Conversation.phase phase).channel⟩ frame stage) := by
  have read : accepts config state ⟨rank, .phase phase⟩ = .read :=
    (phaseAccept_current located).trans before
  have answered : accepts config (state.advance (.ok stage)) ⟨rank, .phase phase⟩ = .answered :=
    (accepts_advance located).trans after
  have current := sound.current_of_accepts (Or.inr read)
  rw [framed]
  exact ⟨sound.ranks, sound.coordinator.withStage here,
    sound.wired.answer (elsewhere_of_advance located same) read answered rfl
      (sound.alone current).2⟩

/-- The coordinator has answered all ranks. -/
theorem SetupSound.nextPhase {phase : Phase} {next : CoordinatorSetup config.world Addr}
    (located : config.phases[state.coordinator.index]? = some phase)
    (all : ∀ owner, state.coordinator.stage.accept owner = .answered)
    (index : next.index = state.coordinator.index + 1)
    (stage : next.stage = .starting)
    (streams : next.streams = state.coordinator.streams ++ (phase.streams config).toList) :
    SetupSound config (state.setCoordinator next) := by
  refine sound.setCoordinator
    (sound.coordinator.succ located index stage streams) fun owner other => ?_
  rw [phaseAccept, index, stage]
  by_cases same : other = phase
  · subst same
    rw [phaseAccept_current located, all owner]
    exact standing_succ_self located
  · exact standing_succ_of_ne located same

/-- The coordinator writes the READY of a rank, or goes on behind the last one. -/
theorem SetupSound.readied {streams : List (Line config.world)} {next : Nat}
    (stage : state.coordinator.stage = .readying p2p rail streams next) :
    (∀ line, streams[next]? = some line →
      SetupSound config (coordinatorWrite state line (writtenReady config next p2p rail)
        (.readying p2p rail streams (next + 1)))) ∧
    (streams[next]? = none →
      SetupSound config (state.setCoordinator
        { stage := .starting
          index := state.coordinator.index + 1
          streams := state.coordinator.streams ++ [streams] })) := by
  have here := sound.coordinator.stage
  rw [stage] at here
  obtain ⟨located, rfl, bound⟩ := here
  constructor
  · intro line found
    obtain ⟨rank, rfl, rfl⟩ := (channelStreams_getElem? ..).mp found
    refine sound.written located (writtenReady_eq rank p2p rail) ?_ ?_ ?_
      ⟨located, rfl, rank.isLt⟩
    · rw [stage, CoordinatorStage.accept, if_neg (lt_irrefl _)]
    · rw [CoordinatorStage.accept, if_pos (Nat.lt_succ_self _)]
    · intro owner apart
      have different : owner.val ≠ rank.val := fun same =>
        apart (Fin.ext same)
      rw [stage, CoordinatorStage.accept, CoordinatorStage.accept]
      congr 1
      rw [eq_iff_iff]
      omega
  · intro ended
    have last : config.world ≤ next := by
      rw [List.getElem?_eq_none_iff, channelStreams, List.length_ofFn] at ended
      exact ended
    refine sound.nextPhase located (fun owner => ?_) rfl rfl rfl
    rw [stage, CoordinatorStage.accept, if_pos (lt_of_lt_of_le owner.isLt last)]

end Channels

section Endpoints

variable [DecidableEq Addr]

/-- The endpoints of a rank are the only request on its collective channel. -/
theorem alone_endpoints {rank : Fin config.world} (late : 0 < state.coordinator.index) :
    AloneForward (setupWiring config) (dials config state)
      (accepts config state) ⟨rank, .phase .endpoints⟩ := by
  rintro ⟨owner, conversation⟩ apart same
  obtain rfl : owner = rank := congrArg Line.rank same
  have channel : conversation.channel = .coordinator false 0 := congrArg Line.channel same
  rcases conversation with phase | ⟨peer, rail⟩
  · rcases phase with ⟨p2p, rail⟩ | _
    · cases channel
      have first : config.phases[0]? = some (.channel false 0) := rfl
      have answered : accepts config state ⟨owner, .phase (.channel false 0)⟩ = .answered :=
        phaseAccept_passed (mem_take_of_getElem? first late)
      simp [Requested, answered]
    · exact absurd rfl apart
  · cases channel

variable (well : WellConfigured config)

include well

theorem readEndpoints_eq (direct : config.transport = .tcpPeer) (rank : Fin config.world) :
    readEndpoints config.addrs config.uniqueId config.worldSize config.rails
        rank.val ⟨.ok (some (requestText config rank (.phase .endpoints))), config.peerIp rank⟩ =
      .ok (readFrom config.addrs config.published config.peerIp rank) := by
  have peers := well.peers direct
  have publishes := peers.publishes rank
  have request : endpointRequest config.addrs config.checksum
      config.uniqueId config.worldSize config.rails (UInt32.ofNat rank) (config.published rank) =
          .ok (requestText config rank (.phase .endpoints)) :=
    (endpointRequest_eq_ok_iff peers.textual well.rails.1 rank _ _).mpr
      ⟨publishes.sized, publishes.fits, rfl⟩
  have read := (@readEndpoints_eq_ok_iff _ _ config.addrs config.checksum
    config.uniqueId config.worldSize config.rails _ config.published
    config.peerIp peers.textual well.rails.1 rank _).mpr ⟨publishes, rfl⟩
  rw [publishingStream, request] at read
  exact read

variable (sound : SetupSound config state)

include sound

/-- The coordinator reads the endpoints of a rank. -/
theorem SetupSound.collected {rows : List (Bool × List Addr)}
    {line : Line config.world} {frame : Frame} {rest : List Frame}
    (stage : state.coordinator.stage = .collecting rows)
    (found : (state.coordinator.streams.headD [])[rows.length]? = some line)
    (waiting : (state.wires line).forward = frame :: rest) :
    SetupSound config ((state.advance do
      let row ← setupEndpoints (readEndpoints config.addrs config.uniqueId
        config.worldSize config.rails rows.length
        ⟨.ok (some frame), config.peerIp line.rank⟩)
      .ok (.collecting (rows ++ [row]))).setWire line
        { state.wires line with forward := rest }) := by
  have here := sound.coordinator.stage
  rw [stage] at here
  obtain ⟨located, _, read⟩ := here
  have late := endpoints_late located
  have direct := direct_of_endpoints (List.mem_of_getElem? located)
  rw [sound.coordinator.collective late] at found
  obtain ⟨rank, position, rfl⟩ := (channelStreams_getElem? ..).mp found
  let next : CoordinatorStage config.world Addr := .collecting (rows ++
    [readFrom config.addrs config.published config.peerIp rank])
  have same (owner : Fin config.world) (apart : owner ≠ rank) :
      next.accept owner = state.coordinator.stage.accept owner := by
    have different : owner.val ≠ rank.val := fun equal =>
      apart (Fin.ext equal)
    rw [stage, CoordinatorStage.accept, CoordinatorStage.accept,
      List.length_append, List.length_singleton]
    congr 1
    rw [eq_iff_iff]
    omega
  have before : accepts config state ⟨rank, .phase .endpoints⟩ =
      .untouched := by
    refine (phaseAccept_current located).trans ?_
    rw [stage, CoordinatorStage.accept, position, if_neg (lt_irrefl _)]
  have after : accepts config (state.advance (.ok next)) ⟨rank, .phase .endpoints⟩ = .read := by
    rw [accepts_advance located, CoordinatorStage.accept, List.length_append, position]
    exact if_pos (Nat.lt_succ_self _)
  have second : (setupWiring config).opening ((setupWiring config).line
      ⟨rank, .phase .endpoints⟩) ≠ ⟨rank, .phase .endpoints⟩ := by
    intro equal
    cases equal
  obtain ⟨_, rfl, wired⟩ := sound.wired.read
    (elsewhere_of_advance located same) (Or.inr ⟨before, second⟩) waiting
      after rfl (alone_endpoints late)
  rw [show (setupWiring config).request ⟨rank, .phase .endpoints⟩ =
    requestText config rank (.phase .endpoints) from rfl, ← position,
    readEndpoints_eq well direct rank]
  refine ⟨sound.ranks, sound.coordinator.withStage ⟨located, ?_, ?_⟩, wired⟩
  · rw [List.length_append, ← position]
    exact rank.isLt
  · rw [List.length_append, List.length_singleton, List.take_add_one,
      ← read, ← position, List.getElem?_ofFn, dif_pos rank.isLt]
    rfl

omit well in
/-- The coordinator has the endpoints of all ranks. -/
theorem SetupSound.tabled {rows : List (Bool × List Addr)}
    (stage : state.coordinator.stage = .collecting rows)
    (ended : (state.coordinator.streams.headD [])[rows.length]? = none) :
    SetupSound config (state.advance (.ok (.answering
      (endpointPayload config.addrs (flatTable rows)) 0))) := by
  have here := sound.coordinator.stage
  rw [stage] at here
  obtain ⟨located, bound, read⟩ := here
  rw [sound.coordinator.collective (endpoints_late located),
    List.getElem?_eq_none_iff, channelStreams, List.length_ofFn] at ended
  have all : rows = List.ofFn (readFrom config.addrs config.published config.peerIp) := by
    rw [read, List.take_of_length_le]
    rw [List.length_ofFn]
    exact ended
  refine sound.advance ⟨located, Nat.zero_le _, by rw [all]; rfl⟩ ?_
  intro owner
  rw [stage, CoordinatorStage.accept, CoordinatorStage.accept,
    if_pos (lt_of_lt_of_le owner.isLt ended), if_neg (Nat.not_lt_zero _)]

/-- The coordinator sends the table to a rank, or goes on behind the last one. -/
theorem SetupSound.tableSent {table : List UInt8} {next : Nat}
    (stage : state.coordinator.stage = .answering table next) :
    (∀ line, (state.coordinator.streams.headD [])[next]? = some line →
      SetupSound config (coordinatorWrite state line
        (writtenTable config next table) (.answering table (next + 1)))) ∧
    ((state.coordinator.streams.headD [])[next]? = none →
      SetupSound config (state.setCoordinator
        { state.coordinator with
          stage := .starting
          index := state.coordinator.index + 1 })) := by
  have here := sound.coordinator.stage
  rw [stage] at here
  obtain ⟨located, bound, rfl⟩ := here
  have direct := direct_of_endpoints (List.mem_of_getElem? located)
  rw [sound.coordinator.collective (endpoints_late located)]
  constructor
  · intro line found
    obtain ⟨rank, rfl, rfl⟩ := (channelStreams_getElem? ..).mp found
    refine sound.written located (writtenTable_eq (well.peers direct)
      well.rails.1 rank) ?_ ?_ ?_ ⟨located, rank.isLt, rfl⟩
    · rw [stage, CoordinatorStage.accept, if_neg (lt_irrefl _)]
    · rw [CoordinatorStage.accept, if_pos (Nat.lt_succ_self _)]
    · intro owner apart
      have different : owner.val ≠ rank.val := fun same =>
        apart (Fin.ext same)
      rw [stage, CoordinatorStage.accept, CoordinatorStage.accept]
      congr 1
      rw [eq_iff_iff]
      omega
  · intro ended
    have last : config.world ≤ next := by
      rw [List.getElem?_eq_none_iff, channelStreams, List.length_ofFn] at ended
      exact ended
    refine sound.nextPhase located (fun owner => ?_) rfl rfl (List.append_nil _).symm
    rw [stage, CoordinatorStage.accept, if_pos (lt_of_lt_of_le owner.isLt last)]

end Endpoints

section Steps

variable [DecidableEq Addr] (well : WellConfigured config)

section Coordinator

variable (sound : SetupSound config state)

include sound

/-- The coordinator begins a phase, or is done. -/
theorem SetupSound.begun (stage : state.coordinator.stage = .starting) :
    (∀ p2p rail, config.phases[state.coordinator.index]? = some (.channel p2p rail) →
      SetupSound config (state.advance (.ok (.accepting p2p rail
        (List.replicate config.world none) config.world)))) ∧
    (config.phases[state.coordinator.index]? = some .endpoints →
      SetupSound config (state.advance (.ok (.collecting [])))) ∧
    (config.phases[state.coordinator.index]? = none →
      SetupSound config (state.advance (.ok .finished))) := by
  refine ⟨?_, ?_, ?_⟩
  · intro p2p rail located
    rw [← joinedStreams_empty]
    refine sound.advance ⟨located, ∅, rfl, rfl⟩ ?_
    intro owner
    rw [stage, CoordinatorStage.accept, if_pos
      (joinedStreams_getElem?_eq_none_iff.mpr (Finset.notMem_empty owner))]
    rfl
  · intro located
    refine sound.advance ⟨located, Nat.zero_le _, rfl⟩ ?_
    intro owner
    rw [stage, CoordinatorStage.accept, List.length_nil, if_neg (Nat.not_lt_zero _)]
    rfl
  · intro ended
    refine sound.advance ended ?_
    intro owner
    rw [stage]
    rfl

/-- The coordinator has accepted all ranks. -/
theorem SetupSound.joined {p2p : Bool} {rail remaining : Nat}
    {ranks : List (Option (Line config.world))}
    (stage : state.coordinator.stage =
      .accepting p2p rail ranks remaining) (done : remaining = 0) :
    SetupSound config (state.advance do
      let streams ← allJoined ranks
      .ok (.readying p2p rail streams 0)) := by
  have here := sound.coordinator.stage
  rw [stage] at here
  obtain ⟨located, joined, rfl, counted⟩ := here
  have all := joined_eq_univ counted done
  rw [allJoined_eq all]
  refine sound.advance ⟨located, rfl, Nat.zero_le _⟩ ?_
  intro owner
  rw [stage, CoordinatorStage.accept, CoordinatorStage.accept, if_neg (Nat.not_lt_zero _), if_neg]
  rw [joinedStreams_getElem?_eq_none_iff, all, not_not]
  exact Finset.mem_univ owner

include well

theorem SetupSound.coordinatorStep {after : SetupState config.world Addr}
    (stepped : coordinatorStep config state = some after) :
    SetupSound config after := by
  unfold Rank.coordinatorStep at stepped
  dsimp only at stepped
  cases stage : state.coordinator.stage with
  | starting =>
      rw [stage] at stepped
      dsimp only at stepped
      obtain ⟨channel, endpoints, done⟩ := sound.begun stage
      split at stepped
      case h_1 ended =>
        have tcp : validateTcpTransport config.transport = .ok () := by
          rw [validateTcpTransport, rejectIf_eq_ok_iff]
          rintro ⟨staged, direct⟩
          exact well.transport.elim staged direct
        rw [tcp] at stepped
        cases stepped
        exact done ended
      case h_2 p2p rail located =>
        cases stepped
        exact channel p2p rail located
      case h_3 located =>
        cases stepped
        exact endpoints located
  | accepting p2p rail ranks remaining =>
      rw [stage] at stepped
      dsimp only at stepped
      split at stepped
      case isTrue done =>
        cases stepped
        exact sound.joined stage done
      case isFalse => cases stepped
  | reading p2p rail ranks remaining line =>
      rw [stage] at stepped
      dsimp only at stepped
      split at stepped
      case h_1 => cases stepped
      case h_2 frame rest waiting =>
        cases stepped
        exact sound.kept stage waiting
  | readying p2p rail streams next =>
      rw [stage] at stepped
      dsimp only at stepped
      obtain ⟨written, done⟩ := sound.readied stage
      split at stepped
      case h_1 line found =>
        cases stepped
        exact written line found
      case h_2 ended =>
        cases stepped
        exact done ended
  | collecting rows =>
      rw [stage] at stepped
      dsimp only at stepped
      split at stepped
      case h_1 line found =>
        split at stepped
        case h_1 => cases stepped
        case h_2 frame rest waiting =>
          cases stepped
          exact sound.collected well stage found waiting
      case h_2 ended =>
        cases stepped
        exact sound.tabled stage ended
  | answering table next =>
      rw [stage] at stepped
      dsimp only at stepped
      obtain ⟨written, done⟩ := sound.tableSent well stage
      split at stepped
      case h_1 line found =>
        cases stepped
        exact written line found
      case h_2 ended =>
        cases stepped
        exact done ended
  | finished =>
      rw [stage] at stepped
      cases stepped
  | failed error =>
      rw [stage] at stepped
      cases stepped

end Coordinator

theorem setupSound_start : SetupSound config (setupStart config) where
  ranks rank :=
    { stage := rfl
      within := Nat.zero_le _
      table passed := by simp [setupStart] at passed
      streams := rfl
      connected peer rail passed := by simp [setupStart] at passed
      filed peer rail line held := by simp [setupStart] at held
      counted := by simp [setupStart, acceptedPairs] }
  coordinator := ⟨trivial, Nat.zero_le _, rfl⟩
  wired := by
    refine Wired.start (fun talk => ?_) (fun talk => ?_)
    · simp only [dials, dialOf, setupStart, standing, List.take_zero,
        List.not_mem_nil, if_false, RankStage.dial]
      exact ite_self _
    · obtain ⟨rank, conversation⟩ := talk
      cases conversation with
      | phase phase =>
          simp only [accepts, phaseAccept, setupStart, standing,
            List.take_zero, List.not_mem_nil, if_false,
            CoordinatorStage.accept]
          exact ite_self _
      | peerJoin peer rail => simp [accepts, peerAccept, setupStart]

include well

/-- The invariant holds in every state of every run. -/
theorem setupSound_of_reachable
    (reachable : Reachable (setupStep config) (setupStart config) state) :
    SetupSound config state := by
  refine Reached.invariant setupSound_start ?_ reachable
  intro before move after sound _ stepped
  cases move with
  | rank rank => exact sound.rankStep well stepped
  | rankAccept rank line => exact sound.rankAccept stepped
  | coordinator => exact sound.coordinatorStep well stepped
  | coordinatorAccept line => exact sound.coordinatorAccept stepped

end Steps

end RuCCL.Rank
