import RuCCL.Rank.SessionSetupInvariant

/-!
# Every step of a setup keeps the invariant

A step moves one party and at most one conversation.  The lemmas of this module say so
for each kind of step; none of them ends in a failure.
-/

namespace RuCCL.Rank

open RuCCL.Library

variable {Addr Ip : Type} {config : SetupConfig Addr Ip}
variable {state : SetupState config.world Addr}

section Parties

variable {rank : Fin config.world} {own next : RankSetup config.world Addr}
  {conversation : Conversation config.world}

theorem dialOf_current
    (current : (config.plan rank)[own.index]? = some (.converse conversation)) :
    dialOf config rank own conversation = own.stage.dial :=
  standing_current (plan_nodup config rank) current

theorem dialOf_passed
    (passed : .converse conversation ∈ (config.plan rank).take own.index) :
    dialOf config rank own conversation = .complete :=
  standing_passed passed

/-- A conversation in progress is the current one. -/
theorem current_of_dialOf (begun : dialOf config rank own conversation ≠ .absent)
    (unfinished : dialOf config rank own conversation ≠ .complete) :
    (config.plan rank)[own.index]? = some (.converse conversation) := by
  rcases standing_ne_before begun with passed | current
  · exact absurd (dialOf_passed passed) unfinished
  · exact current

/-- What a rank has accepted of its peers is all that others see of it. -/
theorem accepts_setRank
    (view : ∀ peer rail, peerAccept rank next peer rail =
      peerAccept rank (state.ranks rank) peer rail) :
    accepts config (state.setRank rank next) = accepts config state := by
  funext talk
  obtain ⟨owner, other⟩ := talk
  cases other with
  | phase phase => rfl
  | peerJoin lower rail =>
      by_cases same : lower = rank
      · subst same
        simp only [accepts, SetupState.ranks_setRank_self]
        exact view owner rail
      · simp only [accepts, SetupState.ranks_setRank_of_ne _ _ _ same]

theorem dials_setRank_of_ne {owner : Fin config.world}
    (apart : owner ≠ rank) (other : Conversation config.world) :
    dials config (state.setRank rank next) ⟨owner, other⟩ =
      dials config state ⟨owner, other⟩ := by
  simp only [dials, SetupState.ranks_setRank_of_ne _ _ _ apart]

theorem dials_setRank_self (other : Conversation config.world) :
    dials config (state.setRank rank next) ⟨rank, other⟩ =
      dialOf config rank next other := by
  simp only [dials, SetupState.ranks_setRank_self]

/-- A rank moves in one conversation that it has begun. -/
theorem elsewhere_of_rank
    (others : ∀ other, other ≠ conversation → dialOf config rank next other =
        dialOf config rank (state.ranks rank) other)
    (view : ∀ peer rail, peerAccept rank next peer rail =
      peerAccept rank (state.ranks rank) peer rail) :
    Elsewhere (dials config state) (dials config (state.setRank rank next))
      (accepts config state) (accepts config (state.setRank rank next))
      ⟨rank, conversation⟩ := by
  constructor
  · rintro ⟨owner, other⟩ apart
    by_cases same : owner = rank
    · subst same
      have different : other ≠ conversation := by
        rintro rfl
        exact apart rfl
      rw [dials_setRank_self]
      exact others other different
    · exact dials_setRank_of_ne same other
  · intro talk _
    rw [accepts_setRank view]

variable [DecidableEq Addr]

/-- The current conversation is alone on its connection. -/
theorem SetupSound.alone (sound : SetupSound config state)
    (current : (config.plan rank)[(state.ranks rank).index]? = some (.converse conversation)) :
    AloneForward (setupWiring config) (dials config state)
        (accepts config state) ⟨rank, conversation⟩ ∧
      AloneBackward (setupWiring config) (dials config state)
        (accepts config state) ⟨rank, conversation⟩ := by
  refine sound.wired.alone ?_
  rintro ⟨owner, other⟩ apart same
  obtain rfl : owner = rank := congrArg Line.rank same
  by_contra busy
  obtain ⟨begun, unfinished⟩ := not_or.mp busy
  have located : (config.plan owner)[(state.ranks owner).index]? =
      some (.converse other) := current_of_dialOf begun unfinished
  rw [current] at located
  cases located
  exact apart rfl

theorem ranks_setRank (sound : SetupSound config state)
    (after : RankSound config rank next) (other : Fin config.world) :
    RankSound config other ((state.setRank rank next).ranks other) := by
  by_cases same : other = rank
  · subst same
    rw [SetupState.ranks_setRank_self]
    exact after
  · rw [SetupState.ranks_setRank_of_ne _ _ _ same]
    exact sound.ranks other

/-- A rank moves in no conversation. -/
theorem SetupSound.setRank (sound : SetupSound config state) (after : RankSound config rank next)
    (others : ∀ other, dialOf config rank next other =
      dialOf config rank (state.ranks rank) other)
    (view : ∀ peer rail, peerAccept rank next peer rail =
      peerAccept rank (state.ranks rank) peer rail) :
    SetupSound config (state.setRank rank next) where
  ranks := ranks_setRank sound after
  coordinator := sound.coordinator
  wired := by
    have dialed : dials config (state.setRank rank next) =
        dials config state := by
      funext talk
      obtain ⟨owner, other⟩ := talk
      by_cases same : owner = rank
      · subst same
        rw [dials_setRank_self]
        exact others other
      · exact dials_setRank_of_ne same other
    rw [dialed, accepts_setRank view]
    exact sound.wired

end Parties

section Ranks

variable {rank : Fin config.world} {own next : RankSetup config.world Addr}
  {action : SetupAction config.world}

theorem RankSound.withStage (sound : RankSound config rank own)
    {stage : RankStage config.world} (here : stage.Sound config rank own) :
    RankSound config rank { own with stage := stage } where
  stage := by
    cases stage with
    | checking | starting | joining | awaiting | accepting | reading
    | finished | failed => exact here
  within := sound.within
  table := sound.table
  streams := sound.streams
  connected := sound.connected
  filed := sound.filed
  counted := sound.counted

/-- A rank goes on to its next action. -/
theorem RankSound.succ (sound : RankSound config rank own)
    (located : (config.plan rank)[own.index]? = some action)
    (index : next.index = own.index + 1) (stage : next.stage = .starting)
    (table : next.table = peerTable config.addrs config.published config.peerIp ∨
      action ≠ .converse (.phase .endpoints) ∧ next.table = own.table)
    (streams : next.streams = own.streams ++ (action.stream rank).toList)
    (connections : ∀ peer rail, next.connections rail peer =
      if action = .converse (.peerJoin peer rail) then
        some ⟨rank, .peer peer rail⟩
      else own.connections rail peer)
    (accepted : next.accepted = own.accepted) :
    RankSound config rank next where
  stage := by
    rw [stage]
    trivial
  within := by
    rw [index]
    exact (List.getElem?_eq_some_iff.mp located).1
  table passed := by
    rw [index, mem_take_succ_iff located] at passed
    rcases table with known | ⟨other, kept⟩
    · exact known
    · rcases passed with before | rfl
      · rw [kept]
        exact sound.table before
      · exact absurd rfl other
  streams := by
    rw [streams, sound.streams, index, List.take_add_one, located, List.filterMap_append]
    have one : [action].filterMap (SetupAction.stream rank) = (action.stream rank).toList := by
      cases found : action.stream rank with
      | none => simp [found]
      | some line => simp [found]
    rw [Option.toList_some, one]
  connected peer rail passed := by
    rw [index, mem_take_succ_iff located] at passed
    rw [connections]
    split
    case isTrue => rfl
    case isFalse other =>
      rcases passed with before | rfl
      · exact sound.connected peer rail before
      · exact absurd rfl other
  filed peer rail line held := by
    rw [index, mem_take_succ_iff located]
    rw [connections] at held
    split at held
    case isTrue same =>
      cases held
      exact Or.inl ⟨Or.inr same.symm, rfl⟩
    case isFalse =>
      rcases sound.filed peer rail line held with ⟨before, same⟩ | higher
      · exact Or.inl ⟨Or.inl before, same⟩
      · exact Or.inr higher
  counted := by
    rw [accepted, sound.counted]
    congr 1
    refine Finset.filter_congr fun pair among => ?_
    have higher := Finset.mem_Ioi.mp (Finset.mem_product.mp among).1
    rw [connections, if_neg]
    rintro rfl
    have planned := List.mem_of_getElem? located
    rw [mem_plan_peerJoin] at planned
    exact absurd planned.2.1 (not_lt.mpr (le_of_lt higher))

/-- Without a connection in hand a rank has accepted what it has filed. -/
theorem peerAccept_quiet (quiet : ∀ line listener, own.stage ≠ .reading line listener)
    (peer : Fin config.world) (rail : Nat) :
    peerAccept rank own peer rail =
      if own.connections rail peer = some ⟨peer, .peer rank rail⟩ then
        .answered
      else .untouched := by
  unfold peerAccept
  cases stage : own.stage with
  | reading line listener => exact absurd stage (quiet line listener)
  | checking | starting | joining | awaiting | accepting | finished
  | failed => rfl

theorem peerAccept_withStage {stage : RankStage config.world}
    (before : ∀ line listener, own.stage ≠ .reading line listener)
    (after : ∀ line listener, stage ≠ .reading line listener)
    (peer : Fin config.world) (rail : Nat) :
    peerAccept rank { own with stage := stage } peer rail =
      peerAccept rank own peer rail := by
  rw [peerAccept_quiet before, peerAccept_quiet after]

end Ranks

section Dialing

variable {rank : Fin config.world} {conversation : Conversation config.world}

theorem opening_channel (opens : conversation ≠ .phase .endpoints) :
    conversation.channel.opening = conversation := by
  rcases conversation with phase | ⟨peer, rail⟩
  · rcases phase with ⟨p2p, rail⟩ | _
    · rfl
    · exact absurd rfl opens
  · rfl

theorem direct_of_endpoints (planned : .endpoints ∈ config.phases) :
    config.transport = .tcpPeer := by
  cases transport : config.transport with
  | tcpPeer => rfl
  | hostStaged | tcpHostStaged | pciePeer | rdma | gxLink =>
      simp [SetupConfig.phases, transport] at planned

/-- Only its own conversation sees where a rank stands. -/
theorem dialOf_withStage {own : RankSetup config.world Addr} {stage : RankStage config.world}
    (current : (config.plan rank)[own.index]? = some (.converse conversation))
    (other : Conversation config.world) (apart : other ≠ conversation) :
    dialOf config rank { own with stage := stage } other =
      dialOf config rank own other :=
  standing_of_ne current fun same => apart (converse_injective same)

variable [DecidableEq Addr] (well : WellConfigured config) (sound : SetupSound config state)
  (current : (config.plan rank)[(state.ranks rank).index]? = some (.converse conversation))

include sound current

/-- A rank connects. -/
theorem SetupSound.dialed (opens : conversation ≠ .phase .endpoints)
    (stage : (state.ranks rank).stage = .starting) :
    SetupSound config ((state.setRank rank { state.ranks rank with stage := .joining }).setWire
        ⟨rank, conversation.channel⟩
        { state.wires ⟨rank, conversation.channel⟩ with
          target := some (placeOf config conversation.channel) }) := by
  have view : ∀ peer rail, peerAccept rank { state.ranks rank with stage := .joining } peer rail =
        peerAccept rank (state.ranks rank) peer rail :=
    peerAccept_withStage (by simp [stage]) (by simp)
  have elsewhere := elsewhere_of_rank (dialOf_withStage current) view
  refine ⟨ranks_setRank sound ((sound.ranks rank).withStage
    ⟨conversation, current, opens⟩), sound.coordinator, ?_⟩
  refine sound.wired.dial elsewhere ?_ ?_ ?_ ?_
  · exact congrArg (Talk.mk rank) (opening_channel opens)
  · exact (dialOf_current current).trans (by rw [stage]; rfl)
  · rw [dials_setRank_self]
    exact dialOf_current current
  · rw [accepts_setRank view]

include well

omit sound in
theorem requestFrameOf_planned :
    requestFrameOf config rank conversation = .ok (requestText config rank conversation) := by
  have planned := List.mem_of_getElem? current
  rcases conversation with phase | ⟨peer, rail⟩
  · rcases phase with ⟨p2p, rail⟩ | _
    · exact requestFrameOf_join rank p2p rail
    · rw [mem_plan_phase] at planned
      exact requestFrameOf_endpoints (well.peers (direct_of_endpoints planned)) well.rails.1 rank
  · exact requestFrameOf_peerJoin rank peer rail

/-- A rank writes its request. -/
theorem SetupSound.requested
    (stage : (state.ranks rank).stage = .joining ∨ (state.ranks rank).stage = .starting ∧
        conversation = .phase .endpoints) :
    SetupSound config (writeRequest config state rank conversation) := by
  have quiet : ∀ line listener, (state.ranks rank).stage ≠ .reading line listener := by
    rcases stage with joining | ⟨starting, _⟩
    · simp [joining]
    · simp [starting]
  have view : ∀ peer rail, peerAccept rank
      { state.ranks rank with stage := .awaiting } peer rail =
        peerAccept rank (state.ranks rank) peer rail :=
    peerAccept_withStage quiet (by simp)
  have elsewhere := elsewhere_of_rank (dialOf_withStage current) view
  have before : dials config state ⟨rank, conversation⟩ =
      (state.ranks rank).stage.dial := dialOf_current current
  rw [writeRequest, requestFrameOf_planned well current]
  refine ⟨ranks_setRank sound ((sound.ranks rank).withStage
    ⟨conversation, current⟩), sound.coordinator, ?_⟩
  refine sound.wired.ask elsewhere ?_ ?_ ?_ (sound.alone current).1
  · rcases stage with joining | ⟨starting, rfl⟩
    · exact Or.inl (before.trans (by rw [joining]; rfl))
    · refine Or.inr ⟨before.trans (by rw [starting]; rfl), ?_⟩
      intro same
      cases same
  · rw [dials_setRank_self]
    exact dialOf_current current
  · rw [accepts_setRank view]

end Dialing

section Hearing

variable {rank : Fin config.world} {conversation : Conversation config.world}
  {own : RankSetup config.world Addr}

/-- What a rank keeps of a reply. -/
def heard (config : SetupConfig Addr Ip) (rank : Fin config.world)
    (own : RankSetup config.world Addr) :
    Conversation config.world → RankSetup config.world Addr
  | .phase (.channel p2p rail) =>
      { own with streams := own.streams ++ [⟨rank, .coordinator p2p rail⟩] }
  | .phase .endpoints =>
      { own with
        table := peerTable config.addrs config.published config.peerIp }
  | .peerJoin peer rail => own.connect rail peer ⟨rank, .peer peer rail⟩

/-- It then goes on. -/
def heardNext (config : SetupConfig Addr Ip) (rank : Fin config.world)
    (own : RankSetup config.world Addr)
    (conversation : Conversation config.world) :
    RankSetup config.world Addr :=
  { heard config rank own conversation with
    stage := .starting
    index := own.index + 1 }

theorem connections_connect (rail other : Nat) (peer : Fin config.world)
    (owner : Fin config.world) (line : Line config.world) :
    (own.connect rail peer line).connections other owner =
      if other = rail ∧ owner = peer then some line
      else own.connections other owner := by
  rw [RankSetup.connect]
  by_cases sameRail : other = rail
  · subst sameRail
    by_cases samePeer : owner = peer
    · subst samePeer
      simp
    · simp [samePeer]
  · simp [sameRail]

theorem connections_heard (peer : Fin config.world) (rail : Nat) :
    (heard config rank own conversation).connections rail peer =
      if SetupAction.converse conversation = .converse (.peerJoin peer rail)
      then some ⟨rank, .peer peer rail⟩
      else own.connections rail peer := by
  rcases conversation with phase | ⟨lower, other⟩
  · rcases phase with ⟨p2p, other⟩ | _
    · simp [heard]
    · simp [heard]
  · rw [heard, connections_connect]
    by_cases same : rail = other ∧ peer = lower
    · obtain ⟨rfl, rfl⟩ := same
      simp
    · rw [if_neg same, if_neg]
      rintro equal
      cases equal
      exact same ⟨rfl, rfl⟩

theorem RankSound.heardNext (sound : RankSound config rank own)
    (current : (config.plan rank)[own.index]? = some (.converse conversation)) :
    RankSound config rank (heardNext config rank own conversation) := by
  refine sound.succ current rfl rfl ?_ ?_ connections_heard ?_
  · rcases conversation with phase | ⟨lower, rail⟩
    · rcases phase with ⟨p2p, rail⟩ | _
      · exact Or.inr ⟨by simp, rfl⟩
      · exact Or.inl rfl
    · exact Or.inr ⟨by simp, rfl⟩
  · rcases conversation with phase | ⟨lower, rail⟩
    · rcases phase with ⟨p2p, rail⟩ | _
      · rfl
      · exact (List.append_nil _).symm
    · exact (List.append_nil _).symm
  · rcases conversation with phase | ⟨lower, rail⟩
    · rcases phase with ⟨p2p, rail⟩ | _
      · rfl
      · rfl
    · rfl

/-- A reply changes nothing in what a rank has accepted. -/
theorem peerAccept_heardNext
    (current : (config.plan rank)[own.index]? = some (.converse conversation))
    (quiet : ∀ line listener, own.stage ≠ .reading line listener)
    (sound : RankSound config rank own)
    (peer : Fin config.world) (rail : Nat) :
    peerAccept rank (heardNext config rank own conversation) peer rail =
      peerAccept rank own peer rail := by
  have connections : (heardNext config rank own conversation).connections
      rail peer = _ := connections_heard peer rail
  rw [peerAccept_quiet quiet, peerAccept_quiet (by simp [Rank.heardNext]),
    connections]
  split
  case isTrue same =>
    -- the rank has opened this connection itself
    have planned := List.mem_of_getElem? current
    rw [same, mem_plan_peerJoin] at planned
    have lower := planned.2.1
    rw [if_neg, if_neg]
    · intro filed
      rcases sound.filed peer rail _ filed with ⟨_, wrong⟩ | ⟨higher, _⟩
      · cases wrong
        exact lt_irrefl _ lower
      · exact lt_asymm lower higher
    · intro wrong
      cases wrong
      exact lt_irrefl _ lower
  case isFalse => rfl

variable [DecidableEq Addr] (well : WellConfigured config) (sound : SetupSound config state)
  (current : (config.plan rank)[(state.ranks rank).index]? = some (.converse conversation))

include well current

omit sound in
theorem receiveReply_planned :
    receiveReply config rank (state.ranks rank) conversation
        (replyText config rank conversation) =
      .ok (heard config rank (state.ranks rank) conversation) := by
  have planned := List.mem_of_getElem? current
  rcases conversation with phase | ⟨peer, rail⟩
  · rcases phase with ⟨p2p, rail⟩ | _
    · exact receiveReply_channel p2p
    · rw [mem_plan_phase] at planned
      exact receiveReply_endpoints well (direct_of_endpoints planned)
  · exact receiveReply_peerJoin

include sound

/-- A rank hears a reply. -/
theorem SetupSound.heard {reply : Frame} {rest : List Frame}
    (stage : (state.ranks rank).stage = .awaiting)
    (waiting : (state.wires ⟨rank, conversation.channel⟩).backward = reply :: rest) :
    SetupSound config ((state.settle rank (state.ranks rank) do
      let next ← receiveReply config rank (state.ranks rank) conversation reply
      .ok { next with
        stage := .starting
        index := (state.ranks rank).index + 1 }).setWire ⟨rank, conversation.channel⟩
          { state.wires ⟨rank, conversation.channel⟩ with
            backward := rest }) := by
  have view : ∀ peer rail, peerAccept rank
      (heardNext config rank (state.ranks rank) conversation) peer rail =
        peerAccept rank (state.ranks rank) peer rail :=
    peerAccept_heardNext current (by simp [stage]) (sound.ranks rank)
  have others (other : Conversation config.world) (apart : other ≠ conversation) :
      dialOf config rank (heardNext config rank (state.ranks rank) conversation) other =
          dialOf config rank (state.ranks rank) other :=
    standing_succ_of_ne current fun same => apart (converse_injective same)
  have elsewhere := elsewhere_of_rank others view
  have before : dials config state ⟨rank, conversation⟩ = .asked :=
    (dialOf_current current).trans (by rw [stage]; rfl)
  have after : dials config (state.setRank rank
      (heardNext config rank (state.ranks rank) conversation))
        ⟨rank, conversation⟩ = .complete := by
    rw [dials_setRank_self]
    exact standing_succ_self current
  obtain ⟨_, rfl, wired⟩ := sound.wired.hear elsewhere before waiting after
    (by rw [accepts_setRank view]) (sound.alone current).2
  have received := receiveReply_planned well current
  rw [show (setupWiring config).reply ⟨rank, conversation⟩ =
    replyText config rank conversation from rfl, received]
  exact ⟨ranks_setRank sound ((sound.ranks rank).heardNext current), sound.coordinator, wired⟩

end Hearing

section Silent

variable {rank : Fin config.world} [DecidableEq Addr] (sound : SetupSound config state)

include sound

/-- A rank moves between stages in which it is in no conversation. -/
theorem SetupSound.restaged {stage : RankStage config.world}
    (here : stage.Sound config rank (state.ranks rank))
    (before : (state.ranks rank).stage.dial = .absent)
    (after : stage.dial = .absent)
    (quiet : ∀ line listener, (state.ranks rank).stage ≠ .reading line listener)
    (still : ∀ line listener, stage ≠ .reading line listener) :
    SetupSound config (state.setRank rank { state.ranks rank with stage := stage }) := by
  refine sound.setRank ((sound.ranks rank).withStage here) (fun other => ?_)
    (peerAccept_withStage quiet still)
  rw [dialOf, dialOf, before, after]

/-- A rank at the end of its plan. -/
theorem SetupSound.planned (ended : (config.plan rank)[(state.ranks rank).index]? = none)
    (stage : (state.ranks rank).stage = .starting) :
    SetupSound config (state.setRank rank
      { state.ranks rank with
        stage := if config.transport = .tcpPeer then .accepting
          else .finished }) := by
  have last : (state.ranks rank).index = (config.plan rank).length :=
    le_antisymm (sound.ranks rank).within (List.getElem?_eq_none_iff.mp ended)
  split
  case isTrue direct =>
    exact sound.restaged ⟨last, direct⟩ (by rw [stage]; rfl) rfl
      (by simp [stage]) (by simp)
  case isFalse staged =>
    exact sound.restaged ⟨last, fun direct => absurd direct staged⟩
      (by rw [stage]; rfl) rfl (by simp [stage]) (by simp)

/-- A rank that has enough connections. -/
theorem SetupSound.completed (enough : expectedIncoming config rank ≤ (state.ranks rank).accepted)
    (stage : (state.ranks rank).stage = .accepting) :
    SetupSound config (state.setRank rank { state.ranks rank with stage := .finished }) := by
  have here := (sound.ranks rank).stage
  rw [stage] at here
  exact sound.restaged ⟨here.1, fun _ => enough⟩ (by rw [stage]; rfl) rfl
    (by simp [stage]) (by simp)

variable (well : WellConfigured config)

include well

/-- A rank passes the first checks. -/
theorem SetupSound.checked (stage : (state.ranks rank).stage = .checking) :
    SetupSound config (state.settle rank (state.ranks rank) do
      connectChecks config (UInt32.ofNat rank)
      .ok { state.ranks rank with stage := .starting }) := by
  rw [connectChecks_eq well rank]
  exact sound.restaged trivial (by rw [stage]; rfl) rfl (by simp [stage])
    (by simp)

/-- A rank passes the checks of its mesh. -/
theorem SetupSound.prepared
    (current : (config.plan rank)[(state.ranks rank).index]? = some .prepareMesh)
    (stage : (state.ranks rank).stage = .starting) :
    SetupSound config (state.settle rank (state.ranks rank) do
      meshChecks config rank (state.ranks rank).table
      .ok { state.ranks rank with
        stage := .starting
        index := (state.ranks rank).index + 1 }) := by
  have direct : config.transport = .tcpPeer := by
    by_contra staged
    have planned := List.mem_of_getElem? current
    rw [plan_of_not_direct config staged] at planned
    simp at planned
  have late := late_of_not_phase config rank current (by simp)
  have table := (sound.ranks rank).table (endpoints_passed config rank direct late)
  rw [table, meshChecks_eq (well.peers direct) rank]
  refine sound.setRank ?_ (fun other => ?_) (fun peer rail => ?_)
  · exact (sound.ranks rank).succ current rfl rfl (Or.inr ⟨by simp, rfl⟩)
      (List.append_nil _).symm (by simp) rfl
  · rw [dialOf, dialOf, stage]
    exact standing_succ_of_ne current (by simp)
  · rw [peerAccept_quiet (by simp), peerAccept_quiet (by simp [stage])]

end Silent

section Accepting

variable {rank peer : Fin config.world} {rail : Nat} {next : RankSetup config.world Addr}

/-- A rank moves with the connection of a peer. -/
theorem elsewhere_of_acceptor
    (dialed : ∀ conversation, dialOf config rank next conversation =
      dialOf config rank (state.ranks rank) conversation)
    (others : ∀ owner other, ¬(owner = peer ∧ other = rail) → peerAccept rank next owner other =
        peerAccept rank (state.ranks rank) owner other) :
    Elsewhere (dials config state) (dials config (state.setRank rank next))
      (accepts config state) (accepts config (state.setRank rank next))
      ⟨peer, .peerJoin rank rail⟩ := by
  constructor
  · rintro ⟨owner, conversation⟩ _
    by_cases same : owner = rank
    · subst same
      rw [dials_setRank_self]
      exact dialed conversation
    · exact dials_setRank_of_ne same conversation
  · rintro ⟨owner, conversation⟩ apart
    cases conversation with
    | phase phase => rfl
    | peerJoin lower other =>
        by_cases same : lower = rank
        · subst same
          simp only [accepts, SetupState.ranks_setRank_self]
          refine others owner other ?_
          rintro ⟨rfl, rfl⟩
          exact apart rfl
        · simp only [accepts, SetupState.ranks_setRank_of_ne _ _ _ same]

theorem placeOf_eq_listener {channel : Channel config.world} {index : Nat}
    (arrives : placeOf config channel = .listener rank index) :
    ∃ rail, channel = .peer rank rail ∧ index = config.listenerFor rank rail := by
  cases channel with
  | coordinator p2p rail => cases arrives
  | peer lower rail =>
      cases arrives
      exact ⟨rail, rfl, rfl⟩

/-- A rank has not filed the connection of a higher rank that it has not answered. -/
theorem RankSound.connections_eq_none {own : RankSetup config.world Addr}
    (sound : RankSound config rank own) (higher : rank < peer)
    (open_ : peerAccept rank own peer rail ≠ .answered) :
    own.connections rail peer = none := by
  cases held : own.connections rail peer with
  | none => rfl
  | some line =>
      rcases sound.filed peer rail line held with ⟨passed, _⟩ | ⟨_, _, rfl⟩
      · have planned := List.mem_of_mem_take passed
        rw [mem_plan_peerJoin] at planned
        exact absurd planned.2.1 (lt_asymm higher)
      · exact absurd (if_pos held) open_

/-- A rank with the connection of one more peer. -/
def acceptedNext (own : RankSetup config.world Addr) (rank peer : Fin config.world) (rail : Nat) :
    RankSetup config.world Addr :=
  { own.connect rail peer ⟨peer, .peer rank rail⟩ with
    accepted := own.accepted + 1
    stage := .accepting }

theorem acceptedPairs_acceptedNext {own : RankSetup config.world Addr}
    (higher : rank < peer) (inside : rail < config.rails) :
    acceptedPairs config rank (acceptedNext own rank peer rail) =
      insert (peer, ⟨rail, inside⟩) (acceptedPairs config rank own) := by
  ext ⟨owner, other⟩
  rw [Finset.mem_insert, acceptedPairs, acceptedPairs, Finset.mem_filter, Finset.mem_filter]
  have held : (acceptedNext own rank peer rail).connections other owner =
      _ := connections_connect rail other peer owner _
  rw [held]
  by_cases same : other.val = rail ∧ owner = peer
  · obtain ⟨rfl, rfl⟩ := same
    simp [higher]
  · have apart : (owner, other) ≠ (peer, ⟨rail, inside⟩) := by
      intro equal
      cases equal
      exact same ⟨rfl, rfl⟩
    rw [if_neg same]
    exact ⟨Or.inr, fun either => either.resolve_left apart⟩

theorem RankSound.acceptedNext {own : RankSetup config.world Addr}
    (sound : RankSound config rank own) (higher : rank < peer)
    (inside : rail < config.rails)
    (free : own.connections rail peer = none)
    (last : own.index = (config.plan rank).length)
    (direct : config.transport = .tcpPeer) :
    RankSound config rank (acceptedNext own rank peer rail) where
  stage := ⟨last, direct⟩
  within := sound.within
  table := sound.table
  streams := sound.streams
  connected lower other passed := by
    have planned := List.mem_of_mem_take passed
    rw [mem_plan_peerJoin] at planned
    have held : (Rank.acceptedNext own rank peer rail).connections other
        lower = _ := connections_connect rail other peer lower _
    rw [held, if_neg]
    · exact sound.connected lower other passed
    · rintro ⟨_, rfl⟩
      exact lt_asymm higher planned.2.1
  filed owner other line held := by
    have found : (Rank.acceptedNext own rank peer rail).connections other
        owner = _ := connections_connect rail other peer owner _
    rw [found] at held
    split at held
    case isTrue same =>
      obtain ⟨rfl, rfl⟩ := same
      cases held
      exact Or.inr ⟨higher, inside, rfl⟩
    case isFalse => exact sound.filed owner other line held
  counted := by
    have fresh : (peer, ⟨rail, inside⟩) ∉ acceptedPairs config rank own := by
      rw [acceptedPairs, Finset.mem_filter]
      simp [free]
    rw [acceptedPairs_acceptedNext higher inside,
      Finset.card_insert_of_notMem fresh, ← sound.counted]
    rfl

variable [DecidableEq Addr] (sound : SetupSound config state)

include sound

/-- A conversation that was begun at the other end is the current one. -/
theorem SetupSound.current_of_accepts {talk : Talk config.world}
    (begun : accepts config state talk = .taken ∨ accepts config state talk = .read) :
    (config.plan talk.rank)[(state.ranks talk.rank).index]? =
      some (.converse talk.conversation) := by
  have agree := sound.wired.agree talk
  have busy : dials config state talk = .dialed ∨ dials config state talk = .asked := by
    rcases begun with taken | read
    · rw [taken] at agree
      exact agree.of_taken
    · rw [read] at agree
      exact Or.inr agree.of_read
  refine current_of_dialOf ?_ ?_
  · intro absent
    have same : dials config state talk = .absent := absent
    rcases busy with dialed | asked
    · rw [dialed] at same
      cases same
    · rw [asked] at same
      cases same
  · intro complete
    have same : dials config state talk = .complete := complete
    rcases busy with dialed | asked
    · rw [dialed] at same
      cases same
    · rw [asked] at same
      cases same

/-- A rank takes a connection. -/
theorem SetupSound.rankAccept {line : Line config.world} {after : SetupState config.world Addr}
    (stepped : rankAccept config state rank line = some after) :
    SetupSound config after := by
  unfold Rank.rankAccept at stepped
  dsimp only at stepped
  split at stepped
  case h_2 => cases stepped
  case h_1 place index stage leads =>
    split at stepped
    case isFalse => cases stepped
    case isTrue allowed =>
      obtain ⟨rfl, _, free⟩ := allowed
      cases stepped
      obtain ⟨target, here, untouched⟩ := sound.wired.pending leads (by simpa using free)
      obtain ⟨peer, channel⟩ := line
      obtain ⟨rail, rfl, rfl⟩ := placeOf_eq_listener target.symm
      have planned : .converse (.peerJoin place rail) ∈ config.plan peer := by
        rcases standing_ne_before here with passed | current
        · exact List.mem_of_mem_take passed
        · exact List.mem_of_getElem? current
      rw [mem_plan_peerJoin] at planned
      obtain ⟨direct, higher, inside⟩ := planned
      have view : peerAccept place (state.ranks place) peer rail =
          .untouched := untouched
      have unfiled := (sound.ranks place).connections_eq_none higher
        (by rw [view]; exact AcceptStage.noConfusion)
      have quiet : ∀ other listener, (state.ranks place).stage ≠ .reading other listener := by
        simp [stage]
      have reading := (sound.ranks place).stage
      rw [stage] at reading
      refine ⟨ranks_setRank sound ((sound.ranks place).withStage
        ⟨reading.1, direct, peer, rail, rfl, higher, inside, rfl, unfiled⟩),
        sound.coordinator, ?_⟩
      refine sound.wired.take (elsewhere_of_acceptor ?_ ?_) rfl here untouched ?_ ?_
      · intro conversation
        rw [dialOf, dialOf, stage]
        rfl
      · intro owner other apart
        rw [peerAccept_quiet quiet, peerAccept]
        split
        case isTrue => rfl
        case isFalse =>
          refine if_neg ?_
          intro same
          cases same
          exact apart ⟨rfl, rfl⟩
      · simp only [accepts, SetupState.ranks_setRank_self]
        rw [peerAccept, if_neg (by simp [unfiled])]
        exact if_pos rfl
      · have apart : peer ≠ place := ne_of_gt higher
        exact dials_setRank_of_ne apart _

/-- A rank reads a JOIN and answers it. -/
theorem SetupSound.served (well : WellConfigured config)
    {line : Line config.world} {listener : Nat} {join : Frame}
    {rest : List Frame}
    (stage : (state.ranks rank).stage = .reading line listener)
    (waiting : (state.wires line).forward = join :: rest) :
    ∃ next ready, acceptPeer config rank (state.ranks rank) line listener
        join = .ok (next, ready) ∧
      SetupSound config ((state.setRank rank next).setWire line
        { state.wires line with
          forward := rest
          backward := (state.wires line).backward ++ [ready] }) := by
  have here := (sound.ranks rank).stage
  rw [stage] at here
  obtain ⟨last, direct, peer, rail, rfl, higher, inside, rfl, free⟩ := here
  have unfiled : (state.ranks rank).connections rail peer ≠ some ⟨peer, .peer rank rail⟩ := by
    simp [free]
  have taken : accepts config state ⟨peer, .peerJoin rank rail⟩ =
      .taken := by
    simp only [accepts]
    rw [peerAccept, if_neg unfiled, stage]
    exact if_pos rfl
  have held (owner : Fin config.world) (other : Nat) :
      (acceptedNext (state.ranks rank) rank peer rail).connections other
        owner = _ := connections_connect rail other peer owner _
  have elsewhere : Elsewhere (dials config state)
      (dials config (state.setRank rank (acceptedNext (state.ranks rank) rank peer rail)))
      (accepts config state) (accepts config (state.setRank rank
        (acceptedNext (state.ranks rank) rank peer rail)))
      ⟨peer, .peerJoin rank rail⟩ := by
    refine elsewhere_of_acceptor ?_ ?_
    · intro conversation
      rw [dialOf, dialOf, stage]
      rfl
    · intro owner other apart
      have outside : ¬(other = rail ∧ owner = peer) := fun same =>
        apart ⟨same.2, same.1⟩
      rw [peerAccept, peerAccept, held, if_neg outside, stage]
      split
      case isTrue => rfl
      case isFalse =>
        refine (if_neg ?_).symm
        intro same
        cases same
        exact apart ⟨rfl, rfl⟩
  have answered : accepts config (state.setRank rank
      (acceptedNext (state.ranks rank) rank peer rail))
        ⟨peer, .peerJoin rank rail⟩ = .answered := by
    have filed := held peer rail
    rw [if_pos ⟨rfl, rfl⟩] at filed
    simp only [accepts, SetupState.ranks_setRank_self]
    exact if_pos filed
  obtain ⟨forward, backward⟩ := sound.alone (sound.current_of_accepts (Or.inl taken))
  obtain ⟨_, rfl, wired⟩ := sound.wired.serve elsewhere taken waiting
    answered (dials_setRank_of_ne (ne_of_gt higher) _) forward backward
  refine ⟨_, _, acceptPeer_eq well higher inside free _, ?_⟩
  exact ⟨ranks_setRank sound ((sound.ranks rank).acceptedNext higher inside
    free last direct), sound.coordinator, wired⟩

end Accepting

/-! ## All steps of a rank -/

section RankSteps

variable {rank : Fin config.world} [DecidableEq Addr]
  (well : WellConfigured config) (sound : SetupSound config state)

include well sound

theorem connectTo_planned {conversation : Conversation config.world}
    (current : (config.plan rank)[(state.ranks rank).index]? = some (.converse conversation)) :
    connectTo config (state.ranks rank) conversation =
      .ok (placeOf config conversation.channel) := by
  rcases conversation with phase | ⟨peer, rail⟩
  · rcases phase with ⟨p2p, rail⟩ | _
    · rfl
    · rfl
  · have planned := List.mem_of_getElem? current
    rw [mem_plan_peerJoin] at planned
    obtain ⟨direct, _, inside⟩ := planned
    have late := late_of_not_phase config rank current (by simp)
    have table := (sound.ranks rank).table (endpoints_passed config rank direct late)
    exact connectTo_peerJoin (well.peers direct) table inside

theorem SetupSound.rankStep {after : SetupState config.world Addr}
    (stepped : rankStep config state rank = some after) :
    SetupSound config after := by
  unfold Rank.rankStep at stepped
  dsimp only at stepped
  cases stage : (state.ranks rank).stage with
  | checking =>
      rw [stage] at stepped
      cases stepped
      exact sound.checked well stage
  | starting =>
      rw [stage] at stepped
      dsimp only at stepped
      split at stepped
      case h_1 ended =>
        cases stepped
        exact sound.planned ended stage
      case h_2 current =>
        cases stepped
        exact sound.prepared well current stage
      case h_3 current =>
        cases stepped
        exact sound.requested well current (Or.inr ⟨stage, rfl⟩)
      case h_4 conversation opens current =>
        rw [connectTo_planned well sound current] at stepped
        cases stepped
        refine sound.dialed current ?_ stage
        rintro rfl
        exact opens rfl
  | joining =>
      rw [stage] at stepped
      dsimp only at stepped
      split at stepped
      case h_1 conversation current =>
        cases stepped
        exact sound.requested well current (Or.inl stage)
      case h_2 => cases stepped
  | awaiting =>
      rw [stage] at stepped
      dsimp only at stepped
      split at stepped
      case h_1 conversation current =>
        split at stepped
        case h_1 => cases stepped
        case h_2 reply rest waiting =>
          cases stepped
          exact sound.heard well current stage waiting
      case h_2 => cases stepped
  | accepting =>
      rw [stage] at stepped
      dsimp only at stepped
      split at stepped
      case isTrue enough =>
        cases stepped
        exact sound.completed enough stage
      case isFalse => cases stepped
  | reading line listener =>
      rw [stage] at stepped
      dsimp only at stepped
      split at stepped
      case h_1 => cases stepped
      case h_2 join rest waiting =>
        obtain ⟨next, ready, accepted, served⟩ := sound.served well stage waiting
        rw [accepted] at stepped
        cases stepped
        exact served
  | finished =>
      rw [stage] at stepped
      cases stepped
  | failed error =>
      rw [stage] at stepped
      cases stepped

end RankSteps

end RuCCL.Rank
