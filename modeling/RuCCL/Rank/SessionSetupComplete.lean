import RuCCL.Rank.SessionSetupPhases

/-!
# A session setup completes

Some party can always go on.  A rank that is not beyond the phase of the coordinator
has its answer or can send its request.  Among ranks with direct peers the lowest one
that is not done waits for nobody: all lower ranks have answered it, and a higher rank
that it waits for is itself answered by lower ranks only.
-/

namespace RuCCL.Rank

open RuCCL.Library

variable {Addr Ip : Type} {config : SetupConfig Addr Ip}
variable {state : SetupState config.world Addr}

section Order

/-- Peers come in the order of their ranks. -/
def InPeerOrder {world : Nat} (first second : SetupAction world) : Prop :=
  ∀ lower rail higher other, first = .converse (.peerJoin lower rail) →
    second = .converse (.peerJoin higher other) → lower ≤ higher

theorem plan_inPeerOrder (rank : Fin config.world) : (config.plan rank).Pairwise InPeerOrder := by
  have phases : (config.phases.map fun phase => SetupAction.converse
      (.phase phase : Conversation config.world)).Pairwise InPeerOrder := by
    rw [List.pairwise_map]
    refine List.pairwise_of_forall ?_
    intro first second lower rail higher other wrong
    cases wrong
  by_cases direct : config.transport = .tcpPeer
  · rw [plan_of_direct config direct, List.pairwise_append]
    refine ⟨phases, ?_, ?_⟩
    · rw [List.pairwise_cons]
      refine ⟨?_, ?_⟩
      · intro second _ lower rail higher other wrong
        cases wrong
      rw [List.pairwise_map, SetupConfig.peerTargets, List.pairwise_flatMap]
      constructor
      · intro peer _
        rw [List.pairwise_map]
        refine List.pairwise_of_forall ?_
        intro _ _ lower _ higher _ first second
        cases first
        cases second
        exact le_rfl
      · refine ((List.pairwise_lt_finRange _).filter _).imp ?_
        intro peer later ordered first among second follows lower rail higher other same equal
        obtain ⟨_, _, rfl⟩ := List.mem_map.mp among
        obtain ⟨_, _, rfl⟩ := List.mem_map.mp follows
        cases same
        cases equal
        exact le_of_lt ordered
    · intro first early second _ lower rail higher other same
      obtain ⟨phase, _, rfl⟩ := List.mem_map.mp early
      cases same
  · rw [plan_of_not_direct config direct]
    exact phases

/-- What a rank does before it connects to a peer concerns no higher peer. -/
theorem peer_le_of_not_passed {rank lower higher : Fin config.world} {rail other index : Nat}
    (current : (config.plan rank)[index]? = some (.converse (.peerJoin lower rail)))
    (planned : .converse (.peerJoin higher other) ∈ config.plan rank)
    (ahead : .converse (.peerJoin higher other) ∉
      (config.plan rank).take index) : lower ≤ higher := by
  obtain ⟨position, located⟩ := List.getElem?_of_mem planned
  rcases Nat.lt_trichotomy index position with before | same | behind
  · obtain ⟨inside, found⟩ := List.getElem?_eq_some_iff.mp located
    obtain ⟨early, here⟩ := List.getElem?_eq_some_iff.mp current
    have ordered := List.pairwise_iff_getElem.mp (plan_inPeerOrder rank)
      index position early inside before
    exact ordered lower rail higher other here found
  · subst same
    rw [current] at located
    cases located
    exact le_rfl
  · exact absurd (mem_take_of_getElem? located behind) ahead

end Order

section Progress

variable {rank peer : Fin config.world} {rail : Nat} {conversation : Conversation config.world}

/-- The stage of a rank whose request is not sent yet. -/
theorem stage_of_dialed (dialed : dials config state ⟨rank, conversation⟩ = .dialed) :
    (state.ranks rank).stage = .joining := by
  have current : (config.plan rank)[(state.ranks rank).index]? =
      some (.converse conversation) := by
    refine current_of_dialOf ?_ ?_
    · intro absent
      cases dialed.symm.trans absent
    · intro complete
      cases dialed.symm.trans complete
  have stage : (state.ranks rank).stage.dial = .dialed :=
    (dialOf_current current).symm.trans dialed
  cases found : (state.ranks rank).stage with
  | joining => rfl
  | checking | starting | awaiting | accepting | reading | finished
  | failed =>
      rw [found] at stage
      cases stage

variable [DecidableEq Addr]

/-- Some party can take a step. -/
def CanGoOn (config : SetupConfig Addr Ip) (state : SetupState config.world Addr) : Prop :=
  ∃ move, (setupStep config state move).isSome

theorem canGoOn_of_starting
    (stage : (state.ranks rank).stage = .checking ∨
      (state.ranks rank).stage = .starting) : CanGoOn config state := by
  refine ⟨.rank rank, ?_⟩
  rw [setupStep, Rank.rankStep]
  dsimp only
  rcases stage with checking | starting
  · rw [checking]
    rfl
  · rw [starting]
    dsimp only
    split
    case h_1 => rfl
    case h_2 => rfl
    case h_3 => rfl
    case h_4 =>
      split
      case h_1 => rfl
      case h_2 => rfl

variable (sound : SetupSound config state)

include sound

theorem SetupSound.canGoOn_of_joining (stage : (state.ranks rank).stage = .joining) :
    CanGoOn config state := by
  have here := (sound.ranks rank).stage
  rw [stage] at here
  obtain ⟨conversation, current, _⟩ := here
  refine ⟨.rank rank, ?_⟩
  rw [setupStep, Rank.rankStep]
  dsimp only
  rw [stage]
  dsimp only
  rw [current]
  rfl

/-- A rank that was answered hears the reply. -/
theorem SetupSound.canGoOn_of_answered (stage : (state.ranks rank).stage = .awaiting)
    (current : (config.plan rank)[(state.ranks rank).index]? = some (.converse conversation))
    (answered : accepts config state ⟨rank, conversation⟩ = .answered) :
    CanGoOn config state := by
  have asked : dials config state ⟨rank, conversation⟩ = .asked :=
    (dialOf_current current).trans (by rw [stage]; rfl)
  have waiting : (state.wires ⟨rank, conversation.channel⟩).backward =
      [replyText config rank conversation] :=
    sound.wired.backward_of_answered answered
      (by rw [asked]; exact DialStage.noConfusion) (sound.alone current).2
  refine ⟨.rank rank, ?_⟩
  rw [setupStep, Rank.rankStep]
  dsimp only
  rw [stage]
  dsimp only
  rw [current]
  dsimp only
  rw [waiting]
  rfl

/-- A conversation that the other end has taken goes on. -/
theorem SetupSound.canGoOn_of_taken (taken : accepts config state ⟨rank, conversation⟩ = .taken)
    (reads : (state.wires ⟨rank, conversation.channel⟩).forward =
      [requestText config rank conversation] → CanGoOn config state) :
    CanGoOn config state := by
  have agree := sound.wired.agree ⟨rank, conversation⟩
  rw [taken] at agree
  rcases agree.of_taken with dialed | asked
  · exact sound.canGoOn_of_joining (stage_of_dialed dialed)
  · have current := sound.current_of_accepts (Or.inl taken)
    exact reads (sound.wired.forward_of_asked asked (Or.inr taken) (sound.alone current).1)

theorem SetupSound.canGoOn_of_reading {line : Line config.world} {listener : Nat}
    (stage : (state.ranks rank).stage = .reading line listener) :
    CanGoOn config state := by
  have here := (sound.ranks rank).stage
  rw [stage] at here
  obtain ⟨_, _, peer, rail, rfl, _, _, _, free⟩ := here
  have taken : accepts config state ⟨peer, .peerJoin rank rail⟩ =
      .taken := by
    simp only [accepts]
    rw [peerAccept, if_neg (by simp [free]), stage]
    exact if_pos rfl
  refine sound.canGoOn_of_taken taken fun waiting => ⟨.rank rank, ?_⟩
  have found : (state.wires ⟨peer, .peer rank rail⟩).forward = _ := waiting
  rw [setupStep, Rank.rankStep]
  dsimp only
  rw [stage]
  dsimp only
  rw [found]
  dsimp only
  split
  case h_1 => rfl
  case h_2 => rfl

/-- A connection that waits at a rank in its loop is accepted. -/
theorem SetupSound.canGoOn_of_pending (well : WellConfigured config)
    (stage : (state.ranks rank).stage = .accepting)
    (inside : rail < config.rails)
    (begun : dials config state ⟨peer, .peerJoin rank rail⟩ ≠ .absent)
    (untouched : accepts config state ⟨peer, .peerJoin rank rail⟩ =
      .untouched) : CanGoOn config state := by
  have here := (sound.ranks rank).stage
  rw [stage] at here
  have listener : config.listenerFor rank rail < config.listeners rank := by
    unfold SetupConfig.listenerFor
    split
    case isTrue one =>
      rw [one]
      exact Nat.one_pos
    case isFalse several =>
      rw [((well.peers here.2).listeners rank).resolve_left several]
      exact inside
  have pending : (state.wires ⟨peer, .peer rank rail⟩).target =
      some (.listener rank (config.listenerFor rank rail)) ∧ _ :=
    sound.wired.pending_of begun untouched
  refine ⟨.rankAccept rank ⟨peer, .peer rank rail⟩, ?_⟩
  rw [setupStep, Rank.rankAccept, stage, pending.1]
  dsimp only
  rw [if_pos ⟨rfl, listener, by simp [pending.2]⟩]
  rfl

/-- A rank that is still in the phases can go on when it has its answers. -/
theorem SetupSound.canGoOn_of_early (early : (state.ranks rank).index < config.phases.length)
    (answered : ∀ phase, config.phases[(state.ranks rank).index]? = some phase →
      (state.ranks rank).stage = .awaiting →
        accepts config state ⟨rank, .phase phase⟩ = .answered) :
    CanGoOn config state := by
  have located := List.getElem?_eq_getElem early
  have current := plan_getElem?_phase config rank located
  have inside := (List.getElem?_eq_some_iff.mp current).1
  have here := (sound.ranks rank).stage
  cases stage : (state.ranks rank).stage with
  | checking => exact canGoOn_of_starting (Or.inl stage)
  | starting => exact canGoOn_of_starting (Or.inr stage)
  | joining => exact sound.canGoOn_of_joining stage
  | awaiting =>
      exact sound.canGoOn_of_answered stage current (answered _ located stage)
  | accepting =>
      rw [stage] at here
      exact absurd here.1 (Nat.ne_of_lt inside)
  | reading line listener =>
      rw [stage] at here
      exact absurd here.1 (Nat.ne_of_lt inside)
  | finished =>
      rw [stage] at here
      exact absurd here.1 (Nat.ne_of_lt inside)
  | failed error =>
      rw [stage] at here
      exact here.elim

/-- A rank that has not begun the phase of the coordinator can go on. -/
theorem SetupSound.canGoOn_of_behind {phase : Phase}
    (located : config.phases[state.coordinator.index]? = some phase)
    (absent : dials config state ⟨rank, .phase phase⟩ = .absent) :
    CanGoOn config state := by
  have inside := (List.getElem?_eq_some_iff.mp located).1
  have planned := plan_getElem?_phase config rank located
  have behind : (state.ranks rank).index ≤ state.coordinator.index := by
    by_contra ahead
    have complete : dials config state ⟨rank, .phase phase⟩ = .complete :=
      dialOf_passed (mem_take_of_getElem? planned (Nat.lt_of_not_le ahead))
    cases absent.symm.trans complete
  refine sound.canGoOn_of_early (lt_of_le_of_lt behind inside) ?_
  intro own current awaiting
  rcases Nat.lt_or_eq_of_le behind with before | same
  · exact phaseAccept_passed (mem_take_of_getElem? current before)
  · -- it would have sent its request
    rw [← same] at planned
    have asked : dials config state ⟨rank, .phase phase⟩ = .asked :=
      (dialOf_current planned).trans (by rw [awaiting]; rfl)
    cases absent.symm.trans asked

theorem SetupSound.canGoOn_of_collecting {rows : List (Bool × List Addr)}
    (stage : state.coordinator.stage = .collecting rows) :
    CanGoOn config state := by
  have here := sound.coordinator.stage
  rw [stage] at here
  obtain ⟨located, _, _⟩ := here
  have late := endpoints_late located
  cases found : (state.coordinator.streams.headD [])[rows.length]? with
  | none =>
      refine ⟨.coordinator, ?_⟩
      rw [setupStep, Rank.coordinatorStep, stage]
      dsimp only
      rw [found]
      rfl
  | some line =>
      have streams := found
      rw [sound.coordinator.collective late] at streams
      obtain ⟨rank, position, rfl⟩ := (channelStreams_getElem? ..).mp streams
      have untouched : accepts config state ⟨rank, .phase .endpoints⟩ =
          .untouched := by
        refine (phaseAccept_current located).trans ?_
        rw [stage, CoordinatorStage.accept, position, if_neg (lt_irrefl _)]
      have agree := sound.wired.agree ⟨rank, .phase .endpoints⟩
      rw [untouched] at agree
      cases dial : dials config state ⟨rank, .phase .endpoints⟩ with
      | absent => exact sound.canGoOn_of_behind located dial
      | dialed => exact sound.canGoOn_of_joining (stage_of_dialed dial)
      | asked =>
          have waiting : (state.wires ⟨rank, .coordinator false 0⟩).forward =
              [requestText config rank (.phase .endpoints)] :=
            sound.wired.forward_of_asked dial (Or.inl untouched) (alone_endpoints late)
          refine ⟨.coordinator, ?_⟩
          rw [setupStep, Rank.coordinatorStep, stage]
          dsimp only
          rw [found]
          dsimp only
          rw [waiting]
          rfl
      | complete =>
          rw [dial] at agree
          exact agree.elim

theorem SetupSound.canGoOn_of_accepting {p2p : Bool} {remaining : Nat}
    {ranks : List (Option (Line config.world))}
    (stage : state.coordinator.stage =
      .accepting p2p rail ranks remaining) : CanGoOn config state := by
  have here := sound.coordinator.stage
  rw [stage] at here
  obtain ⟨located, joined, rfl, counted⟩ := here
  by_cases done : remaining = 0
  · refine ⟨.coordinator, ?_⟩
    rw [setupStep, Rank.coordinatorStep, stage]
    dsimp only
    rw [if_pos done]
    rfl
  · obtain ⟨rank, missing⟩ : ∃ rank, rank ∉ joined := by
      by_contra all
      have full : joined = Finset.univ := Finset.eq_univ_iff_forall.mpr fun rank => by
          by_contra missing
          exact all ⟨rank, missing⟩
      rw [full, Finset.card_univ, Fintype.card_fin] at counted
      omega
    have untouched : accepts config state ⟨rank, .phase (.channel p2p rail)⟩ = .untouched := by
      refine (phaseAccept_current located).trans ?_
      rw [stage, CoordinatorStage.accept, if_pos (joinedStreams_getElem?_eq_none_iff.mpr missing)]
    by_cases absent : dials config state ⟨rank, .phase (.channel p2p rail)⟩ = .absent
    · exact sound.canGoOn_of_behind located absent
    · have pending : (state.wires ⟨rank, .coordinator p2p rail⟩).target =
          some .coordinator ∧ _ := sound.wired.pending_of absent untouched
      refine ⟨.coordinatorAccept ⟨rank, .coordinator p2p rail⟩, ?_⟩
      rw [setupStep, Rank.coordinatorAccept, stage]
      dsimp only
      rw [if_pos ⟨done, pending.1, by simp [pending.2]⟩]
      rfl

/-- The coordinator is done or somebody can go on. -/
theorem SetupSound.coordinator_finished :
    state.coordinator.stage = .finished ∨ CanGoOn config state := by
  have here := sound.coordinator.stage
  cases stage : state.coordinator.stage with
  | starting =>
      refine Or.inr ⟨.coordinator, ?_⟩
      rw [setupStep, Rank.coordinatorStep, stage]
      dsimp only
      split
      case h_1 => rfl
      case h_2 => rfl
      case h_3 => rfl
  | accepting p2p rail ranks remaining => exact Or.inr (sound.canGoOn_of_accepting stage)
  | reading p2p rail ranks remaining line =>
      rw [stage] at here
      obtain ⟨located, joined, rank, rfl, _, missing, rfl⟩ := here
      have taken : accepts config state ⟨rank, .phase (.channel p2p rail)⟩ = .taken := by
        refine (phaseAccept_current located).trans ?_
        rw [stage, CoordinatorStage.accept, if_pos
          (joinedStreams_getElem?_eq_none_iff.mpr missing), if_pos rfl]
      refine Or.inr (sound.canGoOn_of_taken taken fun waiting =>
        ⟨.coordinator, ?_⟩)
      have found : (state.wires ⟨rank, .coordinator p2p rail⟩).forward =
          _ := waiting
      rw [setupStep, Rank.coordinatorStep, stage]
      dsimp only
      rw [found]
      rfl
  | readying p2p rail streams next =>
      refine Or.inr ⟨.coordinator, ?_⟩
      rw [setupStep, Rank.coordinatorStep, stage]
      dsimp only
      split
      case h_1 => rfl
      case h_2 => rfl
  | collecting rows => exact Or.inr (sound.canGoOn_of_collecting stage)
  | answering table next =>
      refine Or.inr ⟨.coordinator, ?_⟩
      rw [setupStep, Rank.coordinatorStep, stage]
      dsimp only
      split
      case h_1 => rfl
      case h_2 => rfl
  | finished => exact Or.inl rfl
  | failed error =>
      rw [stage] at here
      exact here.elim

end Progress

section Finished

variable {rank peer : Fin config.world} {rail : Nat} {own : RankSetup config.world Addr}

/-- The connection of a higher rank is filed as what it is. -/
theorem RankSound.connection_of_isSome (sound : RankSound config rank own)
    (higher : rank < peer) (held : (own.connections rail peer).isSome) :
    own.connections rail peer = some ⟨peer, .peer rank rail⟩ := by
  obtain ⟨line, found⟩ := Option.isSome_iff_exists.mp held
  rcases sound.filed peer rail line found with ⟨passed, _⟩ | ⟨_, _, rfl⟩
  · have planned := List.mem_of_mem_take passed
    rw [mem_plan_peerJoin] at planned
    exact absurd planned.2.1 (lt_asymm higher)
  · exact found

theorem expectedIncoming_eq :
    expectedIncoming config rank =
      (Finset.Ioi rank ×ˢ (Finset.univ : Finset (Fin config.rails))).card := by
  rw [expectedIncoming, Finset.card_product, Fin.card_Ioi, Finset.card_univ,
    Fintype.card_fin, Nat.sub_right_comm]

/-- A rank with as many connections as it expects has those of all higher ranks. -/
theorem RankSound.accepted_all (sound : RankSound config rank own)
    (enough : expectedIncoming config rank ≤ own.accepted)
    (higher : rank < peer) (inside : rail < config.rails) :
    own.connections rail peer = some ⟨peer, .peer rank rail⟩ := by
  have full : acceptedPairs config rank own = Finset.Ioi rank ×ˢ Finset.univ := by
    refine Finset.eq_of_subset_of_card_le (Finset.filter_subset ..) ?_
    rw [← expectedIncoming_eq, ← sound.counted]
    exact enough
  have member : (peer, (⟨rail, inside⟩ : Fin config.rails)) ∈
      acceptedPairs config rank own := by
    rw [full, Finset.mem_product]
    exact ⟨Finset.mem_Ioi.mpr higher, Finset.mem_univ _⟩
  rw [acceptedPairs, Finset.mem_filter] at member
  exact sound.connection_of_isSome higher member.2

/-- A rank that waits for more has not got the connection of some higher rank. -/
theorem RankSound.exists_missing (sound : RankSound config rank own)
    (short : own.accepted < expectedIncoming config rank) :
    ∃ peer rail, rank < peer ∧ rail < config.rails ∧ own.connections rail peer = none := by
  by_contra all
  have full : acceptedPairs config rank own = Finset.Ioi rank ×ˢ Finset.univ := by
    refine Finset.filter_true_of_mem ?_
    rintro ⟨peer, rail⟩ among
    have higher := Finset.mem_Ioi.mp (Finset.mem_product.mp among).1
    rw [Option.isSome_iff_ne_none]
    intro missing
    exact all ⟨peer, rail.val, higher, rail.isLt, missing⟩
  rw [sound.counted, full, ← expectedIncoming_eq] at short
  exact lt_irrefl _ short

/-- A rank beyond the phases is in conversations with lower peers only. -/
theorem exists_peerJoin {index : Nat} {conversation : Conversation config.world}
    (late : config.phases.length ≤ index)
    (current : (config.plan rank)[index]? = some (.converse conversation)) :
    config.transport = .tcpPeer ∧ ∃ peer rail, conversation = .peerJoin peer rail ∧ peer < rank ∧
        rail < config.rails := by
  cases conversation with
  | phase phase =>
      have located := phases_getElem?_of_plan current
      have inside := (List.getElem?_eq_some_iff.mp located).1
      exact absurd inside (Nat.not_lt_of_le late)
  | peerJoin peer rail =>
      have planned := List.mem_of_getElem? current
      rw [mem_plan_peerJoin] at planned
      exact ⟨planned.1, peer, rail, rfl, planned.2⟩

variable [DecidableEq Addr] (well : WellConfigured config) (sound : SetupSound config state)

include well sound

/-- A rank whose lower peers are done can go on while it is in a conversation. -/
theorem SetupSound.canGoOn_of_awaiting (stage : (state.ranks rank).stage = .awaiting)
    (late : config.phases.length ≤ (state.ranks rank).index)
    (answered : ∀ peer rail, peer < rank → rail < config.rails →
      (config.plan rank)[(state.ranks rank).index]? = some (.converse (.peerJoin peer rail)) →
      (state.ranks peer).stage = .finished ∨ (state.ranks peer).stage = .accepting) :
    CanGoOn config state := by
  have here := (sound.ranks rank).stage
  rw [stage] at here
  obtain ⟨conversation, current⟩ := here
  obtain ⟨direct, peer, rail, rfl, lower, inside⟩ := exists_peerJoin late current
  by_cases filed : (state.ranks peer).connections rail rank = some ⟨rank, .peer peer rail⟩
  · have done : accepts config state ⟨rank, .peerJoin peer rail⟩ =
        .answered := if_pos filed
    exact sound.canGoOn_of_answered stage current done
  · rcases answered peer rail lower inside current with finished | accepting
    · have end_ := (sound.ranks peer).stage
      rw [finished] at end_
      exact absurd ((sound.ranks peer).accepted_all (end_.2 direct) lower inside) filed
    · have untouched : accepts config state ⟨rank, .peerJoin peer rail⟩ =
          .untouched := by
        simp only [accepts]
        rw [peerAccept_quiet (by simp [accepting]), if_neg filed]
      have asked : dials config state ⟨rank, .peerJoin peer rail⟩ =
          .asked := (dialOf_current current).trans (by rw [stage]; rfl)
      exact sound.canGoOn_of_pending well accepting inside
        (by rw [asked]; exact DialStage.noConfusion) untouched

/-- A rank in its loop, all lower ranks being done: somebody can go on. -/
theorem SetupSound.canGoOn_of_loop (stage : (state.ranks rank).stage = .accepting)
    (late : ∀ rank, config.phases.length ≤ (state.ranks rank).index)
    (lower : ∀ peer, peer < rank → (state.ranks peer).stage = .finished) :
    CanGoOn config state := by
  have here := (sound.ranks rank).stage
  rw [stage] at here
  by_cases enough : expectedIncoming config rank ≤ (state.ranks rank).accepted
  · refine ⟨.rank rank, ?_⟩
    rw [setupStep, Rank.rankStep]
    dsimp only
    rw [stage]
    dsimp only
    rw [if_pos enough]
    rfl
  · obtain ⟨peer, rail, higher, inside, missing⟩ :=
      (sound.ranks rank).exists_missing (Nat.lt_of_not_le enough)
    have planned : .converse (.peerJoin rank rail) ∈ config.plan peer :=
      (mem_plan_peerJoin ..).mpr ⟨here.2, higher, inside⟩
    have untouched : accepts config state ⟨peer, .peerJoin rank rail⟩ =
        .untouched := by
      simp only [accepts]
      rw [peerAccept_quiet (by simp [stage]), if_neg (by simp [missing])]
    by_cases absent : dials config state ⟨peer, .peerJoin rank rail⟩ = .absent
    · -- the higher rank is still with peers that are not above this one
      have ahead : .converse (.peerJoin rank rail) ∉
          (config.plan peer).take (state.ranks peer).index := by
        intro passed
        have complete : dials config state ⟨peer, .peerJoin rank rail⟩ =
            .complete := dialOf_passed passed
        cases absent.symm.trans complete
      have short : (state.ranks peer).index ≠ (config.plan peer).length := by
        intro last
        rw [last, List.take_length] at ahead
        exact ahead planned
      have there := (sound.ranks peer).stage
      cases position : (state.ranks peer).stage with
      | checking => exact canGoOn_of_starting (Or.inl position)
      | starting => exact canGoOn_of_starting (Or.inr position)
      | joining => exact sound.canGoOn_of_joining position
      | awaiting =>
          refine sound.canGoOn_of_awaiting well position (late peer) ?_
          intro other otherRail _ _ current
          rcases lt_or_eq_of_le (peer_le_of_not_passed current planned ahead) with before | rfl
          · exact Or.inl (lower other before)
          · exact Or.inr stage
      | accepting =>
          rw [position] at there
          exact absurd there.1 short
      | reading line listener =>
          rw [position] at there
          exact absurd there.1 short
      | finished =>
          rw [position] at there
          exact absurd there.1 short
      | failed error =>
          rw [position] at there
          exact there.elim
    · exact sound.canGoOn_of_pending well stage inside absent untouched

/-- When the coordinator is done, all ranks are, or somebody can go on. -/
theorem SetupSound.ranks_finished (done : state.coordinator.stage = .finished)
    (stuck : ¬CanGoOn config state) (rank : Fin config.world) :
    (state.ranks rank).stage = .finished := by
  have ended := sound.coordinator.stage
  rw [done] at ended
  have last : config.phases.length ≤ state.coordinator.index := List.getElem?_eq_none_iff.mp ended
  have late (rank : Fin config.world) : config.phases.length ≤ (state.ranks rank).index := by
    by_contra early
    refine stuck (sound.canGoOn_of_early (Nat.lt_of_not_le early) ?_)
    intro phase located _
    refine phaseAccept_passed (mem_take_of_getElem? located ?_)
    exact lt_of_lt_of_le (Nat.lt_of_not_le early) last
  -- the lowest rank that is not done waits for nobody
  induction rank using WellFoundedLT.induction with
  | _ rank lower =>
      have here := (sound.ranks rank).stage
      cases stage : (state.ranks rank).stage with
      | checking => exact absurd (canGoOn_of_starting (Or.inl stage)) stuck
      | starting => exact absurd (canGoOn_of_starting (Or.inr stage)) stuck
      | joining => exact absurd (sound.canGoOn_of_joining stage) stuck
      | awaiting =>
          refine absurd (sound.canGoOn_of_awaiting well stage (late rank) ?_) stuck
          intro peer rail below _ _
          exact Or.inl (lower peer below)
      | accepting => exact absurd (sound.canGoOn_of_loop well stage late lower) stuck
      | reading line listener => exact absurd (sound.canGoOn_of_reading stage) stuck
      | finished => rfl
      | failed error =>
          rw [stage] at here
          exact here.elim

end Finished

section Complete

/-- The channels between a rank and the coordinator. -/
def SetupConfig.channels (config : SetupConfig Addr Ip) : List (Bool × Nat) := (false, 0) ::
    match config.transport with
    | .tcpHostStaged => (List.range config.rails).map fun rail => (true, rail)
    | .tcpPeer => [(true, 0)]
    | _ => []

theorem filterMap_phases {α : Type} (channel : Bool → Nat → α)
    (stream : Phase → Option α) (endpoints : stream .endpoints = none)
    (channels : ∀ p2p rail, stream (.channel p2p rail) = some (channel p2p rail)) :
    config.phases.filterMap stream = config.channels.map fun kind => channel kind.1 kind.2 := by
  have rails : stream ∘ (Phase.channel true ·) = some ∘ fun rail => channel true rail :=
    funext (channels true)
  rw [SetupConfig.phases, SetupConfig.channels]
  cases config.transport with
  | tcpHostStaged =>
      rw [List.filterMap_cons_some (channels false 0), List.filterMap_map,
        rails, List.filterMap_eq_map, List.map_cons, List.map_map]
      rfl
  | tcpPeer => simp [channels, endpoints]
  | hostStaged | pciePeer | rdma | gxLink => simp [channels]

theorem filterMap_plan (rank : Fin config.world) :
    (config.plan rank).filterMap (SetupAction.stream rank) = config.channels.map fun kind =>
        ⟨rank, .coordinator kind.1 kind.2⟩ := by
  have phases : (config.phases.map fun phase =>
      SetupAction.converse (.phase phase : Conversation
        config.world)).filterMap (SetupAction.stream rank) = _ :=
    (List.filterMap_map ..).trans (filterMap_phases _ _ rfl fun _ _ => rfl)
  by_cases direct : config.transport = .tcpPeer
  · have targets : (SetupAction.prepareMesh :: (config.peerTargets rank).map .converse).filterMap
          (SetupAction.stream rank) = [] := by
      rw [List.filterMap_eq_nil_iff]
      intro action among
      rcases List.mem_cons.mp among with rfl | target
      · rfl
      · obtain ⟨conversation, member, rfl⟩ := List.mem_map.mp target
        cases conversation with
        | phase phase => exact absurd member (phase_notMem_peerTargets config rank phase)
        | peerJoin peer rail => rfl
    rw [plan_of_direct config direct, List.filterMap_append, targets, List.append_nil, phases]
  · rw [plan_of_not_direct config direct, phases]

/-- All parties are done. -/
structure SetupCompleted (state : SetupState config.world Addr) : Prop where
  ranks : ∀ rank, (state.ranks rank).stage = .finished
  coordinator : state.coordinator.stage = .finished

/-- No party has refused anything. -/
structure NothingRefused (state : SetupState config.world Addr) : Prop where
  ranks : ∀ rank error, (state.ranks rank).stage ≠ .failed error
  coordinator : ∀ error, state.coordinator.stage ≠ .failed error

/-- Each stream of the coordinator is the one of its rank. -/
structure StreamsMatch (state : SetupState config.world Addr) : Prop where
  coordinator : state.coordinator.streams = config.channels.map fun kind =>
      List.ofFn fun rank => ⟨rank, .coordinator kind.1 kind.2⟩
  ranks : ∀ rank, (state.ranks rank).streams =
    config.channels.map fun kind => ⟨rank, .coordinator kind.1 kind.2⟩

/-- Every pair of ranks has one connection on each rail, filed by both. -/
structure PeersMatch (state : SetupState config.world Addr) : Prop where
  opened : ∀ rank peer rail, (state.wires ⟨rank, .peer peer rail⟩).target ≠ none ↔
      peer < rank ∧ rail < config.rails
  filed : ∀ rank peer rail, (state.ranks rank).connections rail peer =
    if peer ≠ rank ∧ rail < config.rails then
      some ⟨max rank peer, .peer (min rank peer) rail⟩
    else none

variable [DecidableEq Addr] (sound : SetupSound config state)

include sound

theorem SetupSound.nothingRefused : NothingRefused state where
  ranks rank error failed := by
    have here := (sound.ranks rank).stage
    rw [failed] at here
    exact here
  coordinator error failed := by
    have here := sound.coordinator.stage
    rw [failed] at here
    exact here

theorem SetupSound.streamsMatch (completed : SetupCompleted state) :
    StreamsMatch state where
  coordinator := by
    have ended := sound.coordinator.stage
    rw [completed.coordinator] at ended
    rw [sound.coordinator.streams, List.take_of_length_le (List.getElem?_eq_none_iff.mp ended)]
    exact filterMap_phases (channelStreams config) (Phase.streams config) rfl fun _ _ => rfl
  ranks rank := by
    have here := (sound.ranks rank).stage
    rw [completed.ranks rank] at here
    rw [(sound.ranks rank).streams, here.1, List.take_length, filterMap_plan]

/-- A rank that is done has passed all its peers. -/
theorem SetupSound.passed_of_finished {rank : Fin config.world}
    (finished : (state.ranks rank).stage = .finished) :
    (config.plan rank).take (state.ranks rank).index =
      config.plan rank := by
  have here := (sound.ranks rank).stage
  rw [finished] at here
  rw [here.1, List.take_length]

theorem SetupSound.peersMatch (completed : SetupCompleted state)
    (direct : config.transport = .tcpPeer) : PeersMatch state where
  opened rank peer rail := by
    have passed := sound.passed_of_finished (completed.ranks rank)
    have planned : .converse (.peerJoin peer rail) ∈ config.plan rank ↔
        peer < rank ∧ rail < config.rails :=
      (mem_plan_peerJoin ..).trans (and_iff_right direct)
    rw [sound.wired.wires, ← planned]
    constructor
    · intro opened
      by_contra absent
      rw [← passed] at absent
      have ended : (config.plan rank)[(state.ranks rank).index]? = none := by
        rw [List.getElem?_eq_none_iff, ← List.take_eq_self_iff]
        exact passed
      have still : dials config state ⟨rank, .peerJoin peer rail⟩ =
          .absent := by
        rw [dials, dialOf, standing, if_neg absent, ended, if_neg]
        exact (Option.some_ne_none _).symm
      exact opened (if_pos still)
    · intro among opened
      rw [← passed] at among
      have complete : dials config state ⟨rank, .peerJoin peer rail⟩ =
          .complete := dialOf_passed among
      refine absurd opened ?_
      refine (if_neg ?_).trans_ne (Option.some_ne_none _)
      intro absent
      cases complete.symm.trans absent
  filed rank peer rail := by
    have passed := sound.passed_of_finished (completed.ranks rank)
    have here := (sound.ranks rank).stage
    rw [completed.ranks rank] at here
    rcases lt_trichotomy peer rank with lower | rfl | higher
    · by_cases inside : rail < config.rails
      · rw [if_pos ⟨ne_of_lt lower, inside⟩, max_eq_left (le_of_lt lower),
          min_eq_right (le_of_lt lower)]
        refine (sound.ranks rank).connected peer rail ?_
        rw [passed, mem_plan_peerJoin]
        exact ⟨direct, lower, inside⟩
      · rw [if_neg fun both => inside both.2]
        cases held : (state.ranks rank).connections rail peer with
        | none => rfl
        | some line =>
            rcases (sound.ranks rank).filed peer rail line held with
              ⟨among, _⟩ | ⟨_, within, _⟩
            · rw [passed, mem_plan_peerJoin] at among
              exact absurd among.2.2 inside
            · exact absurd within inside
    · rw [if_neg fun both => both.1 rfl]
      cases held : (state.ranks peer).connections rail peer with
      | none => rfl
      | some line =>
          rcases (sound.ranks peer).filed peer rail line held with
            ⟨among, _⟩ | ⟨wrong, _⟩
          · rw [passed, mem_plan_peerJoin] at among
            exact absurd among.2.1 (lt_irrefl _)
          · exact absurd wrong (lt_irrefl _)
    · by_cases inside : rail < config.rails
      · rw [if_pos ⟨ne_of_gt higher, inside⟩, max_eq_right (le_of_lt higher),
          min_eq_left (le_of_lt higher)]
        exact (sound.ranks rank).accepted_all (here.2 direct) higher inside
      · rw [if_neg fun both => inside both.2]
        cases held : (state.ranks rank).connections rail peer with
        | none => rfl
        | some line =>
            rcases (sound.ranks rank).filed peer rail line held with
              ⟨among, _⟩ | ⟨_, within, _⟩
            · rw [passed, mem_plan_peerJoin] at among
              exact absurd among.2.2 inside
            · exact absurd within inside

omit sound

/-- Whatever the order in which connections and frames arrive, no party refuses
anything and some party can go on until all are done.  Then the streams of the
coordinator are those of the ranks, and every pair of ranks has one direct connection
on each rail.

With direct peers the table of endpoints must fit one frame (`DirectPeers.fits`).  The
coordinator builds no frame of a longer table (`server_eq_ok_iff`): its setup ends with
the error of the frame, and no rank gets a table. -/
theorem session_setup_completes (config : SetupConfig Addr Ip)
    (well : WellConfigured config) (state : SetupState config.world Addr)
    (reachable : Reachable (setupStep config) (setupStart config) state) :
    NothingRefused state ∧
      ((∃ move, (setupStep config state move).isSome) ∨ SetupCompleted state) ∧
      (SetupCompleted state → StreamsMatch state ∧
        (config.transport = .tcpPeer → PeersMatch state)) := by
  have sound := setupSound_of_reachable well reachable
  refine ⟨sound.nothingRefused, ?_, fun completed =>
    ⟨sound.streamsMatch completed, sound.peersMatch completed⟩⟩
  by_cases moves : CanGoOn config state
  · exact Or.inl moves
  · have done := sound.coordinator_finished.resolve_right moves
    exact Or.inr ⟨sound.ranks_finished well done moves, done⟩

/-- Two ranks of one machine with a listener each and two rails. -/
def localSetup : SetupConfig LocalAddr Unit where
  addrs := localAddrs
  checksum _ := 0
  uniqueId := ⟨List.replicate 16 7, rfl⟩
  worldSize := 2
  rails := 2
  transport := .tcpPeer
  published rank :=
    if rank.val = 0 then [.anyAt9000, .anyAt9000]
    else [.loopbackAt9001, .loopbackAt9001]
  peerIp _ := ()
  listeners _ := 1
  route
    | .loopbackAt9000 => some (⟨0, by decide⟩, 0)
    | .loopbackAt9001 => some (⟨1, by decide⟩, 0)
    | .anyAt9000 => none

def lowerRank : Fin localSetup.world := ⟨0, by decide⟩
def upperRank : Fin localSetup.world := ⟨1, by decide⟩

theorem eq_lowerRank_or_upperRank :
    ∀ rank : Fin localSetup.world, rank = lowerRank ∨ rank = upperRank := by
  decide

theorem localSetup_wellConfigured : WellConfigured localSetup where
  rails := by decide
  transport := Or.inr rfl
  peers _ :=
    { textual := localAddrs_textual
      publishes rank := by
        have usable : ∀ rank, (localSetup.published rank).length = 2 ∧
            (endpointPayload localAddrs (endpointLines 2
              (localSetup.published rank))).length ≤ maxFramePayloadBytes ∧
            ∀ endpoint ∈ localSetup.published rank, localAddrs.port endpoint ≠ 0 := by
          decide
        obtain ⟨sized, fits, ports⟩ := usable rank
        exact ⟨sized, fits, ports⟩
      fits := by decide
      listeners _ := Or.inl rfl
      routed rank rail endpoint located := by
        have routes : ∀ rank, ∀ endpoint ∈ seenEndpoints localSetup.addrs
            localSetup.published localSetup.peerIp rank,
              localSetup.route endpoint = some (rank, 0) := by
          decide
        exact routes rank endpoint (List.mem_of_getElem? located) }

/-- All ranks join a channel; the upper rank is the first to arrive. -/
def localJoin (p2p : Bool) : List (SetupMove localSetup.world) :=
  [.rank lowerRank, .rank upperRank, .rank upperRank, .rank lowerRank,
    .coordinator, .coordinatorAccept ⟨upperRank, .coordinator p2p 0⟩,
    .coordinator, .coordinatorAccept ⟨lowerRank, .coordinator p2p 0⟩,
    .coordinator, .coordinator, .coordinator, .coordinator, .coordinator,
    .rank lowerRank, .rank upperRank]

/-- The upper rank connects to the lower one on a rail. -/
def localConnect (rail : Nat) : List (SetupMove localSetup.world) :=
  [.rank upperRank, .rank upperRank, .rankAccept lowerRank ⟨upperRank, .peer lowerRank rail⟩,
    .rank lowerRank, .rank upperRank]

def localRun : List (SetupMove localSetup.world) :=
  [.rank lowerRank, .rank upperRank] ++ localJoin false ++
    [.rank lowerRank, .rank upperRank] ++ List.replicate 7 .coordinator ++
    [.rank lowerRank, .rank upperRank] ++ localJoin true ++
    [.coordinator, .rank lowerRank, .rank upperRank, .rank lowerRank] ++
    localConnect 0 ++ localConnect 1 ++
    [.rank lowerRank, .rank upperRank, .rank upperRank]

def localEnd : SetupState localSetup.world LocalAddr :=
  (follow (setupStep localSetup) (fun _ _ => True) (setupStart localSetup)
    localRun).getD (setupStart localSetup)

theorem session_setup_completes_two :
    SetupCompleted localEnd ∧ StreamsMatch localEnd ∧ PeersMatch localEnd := by
  have reachable : Reachable (setupStep localSetup) (setupStart localSetup)
      localEnd := Reached.of_follow_isSome _ (by decide)
  have completed : SetupCompleted localEnd := by
    refine ⟨fun rank => ?_, ?_⟩
    · rcases eq_lowerRank_or_upperRank rank with rfl | rfl
      · decide
      · decide
    · rfl
  obtain ⟨streams, peers⟩ := (session_setup_completes localSetup
    localSetup_wellConfigured localEnd reachable).2.2 completed
  exact ⟨completed, streams, peers rfl⟩

end Complete

end RuCCL.Rank
