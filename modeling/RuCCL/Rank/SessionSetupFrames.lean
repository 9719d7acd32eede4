import RuCCL.Rank.PeerEndpointsCorrect
import RuCCL.Rank.PeerMeshReceive
import RuCCL.Rank.SessionSetup
import RuCCL.Rank.StreamFraming

/-!
# The frames of a session setup

Every frame that a party of a setup writes is valid, and the party that reads it
accepts it.
-/

namespace RuCCL.Rank

open RuCCL.Library

section Writing

variable {checksum : List UInt8 → UInt32}

theorem setupProtocol_ok {α : Type} (value : α) : setupProtocol (.ok value) = .ok value :=
  rfl

/-- A new frame passes the checks that a write makes. -/
theorem encodeTransportHeader_of_new {header : FrameHeader} {payload : List UInt8} {frame : Frame}
    (built : Frame.new checksum header payload = .ok frame) :
    ∃ bytes, frame.encodeTransportHeader checksum = .ok bytes := by
  rw [Frame.new] at built
  split at built
  case isTrue empty =>
    obtain ⟨_, valid, same⟩ := of_bind built
    cases same
    have sendable : Frame.Valid checksum ⟨header, payload⟩ := valid
    exact ⟨_, sendable.encodeTransportHeader⟩
  case isFalse =>
    obtain ⟨declared, declares, same⟩ := of_bind built
    cases same
    obtain ⟨_, small, checked⟩ := of_bind declares
    obtain ⟨_, bare, same⟩ := of_bind checked
    cases same
    have bound : payload.length < 2 ^ 64 := by
      have fits := (rejectIf_eq_ok_iff ..).mp small
      unfold maxFramePayloadBytes at fits
      omega
    refine ⟨(declaredHeader checksum header payload).headerBytes, ?_⟩
    rw [Frame.encodeTransportHeader, FrameHeader.encode, bare, rejectIf, if_neg]
    · rfl
    · rw [not_not]
      exact (UInt64.toNat_ofNat_of_lt' bound).symm

variable {Addr Ip : Type} {config : SetupConfig Addr Ip}

theorem transmitted_of_encodes {frame : Frame}
    (encodes : ∃ bytes, frame.encodeTransportHeader config.checksum = .ok bytes) :
    transmitted config frame = .ok frame := by
  obtain ⟨bytes, encoded⟩ := encodes
  rw [transmitted, encoded]
  rfl

/-- A header of a JOIN or a READY is valid when its ranks are. -/
theorem validate_control {header : FrameHeader}
    (opcode : header.opcode = .join ∨ header.opcode = .ready)
    (elementType : header.elementType = .none)
    (flags : header.flags = 0 ∨ header.flags = flagP2pChannel)
    (source : header.sourceRank < header.worldSize)
    (destination : header.destinationRank = anyRank ∨ header.destinationRank < header.worldSize)
    (root : header.rootRank = anyRank)
    (elementCount : header.elementCount = 0)
    (payloadBytes : header.payloadBytes = 0)
    (payloadChecksum : header.payloadChecksum = checksum []) :
    header.validate checksum (some []) = .ok () := by
  have world : header.worldSize ≠ 0 := by
    intro empty
    rw [empty] at source
    exact UInt32.not_lt_zero source
  have unknown : header.flags &&&
      ~~~(flagPayload ||| flagCountsPrefix ||| flagP2pChannel) = 0 := by
    rcases flags with zero | p2p
    · rw [zero]
      rfl
    · rw [p2p]
      rfl
  have counts : header.flags &&& flagCountsPrefix = 0 := by
    rcases flags with zero | p2p
    · rw [zero]
      rfl
    · rw [p2p]
      rfl
  have bare : header.flags &&& flagPayload = 0 := by
    rcases flags with zero | p2p
    · rw [zero]
      rfl
    · rw [p2p]
      rfl
  simp [FrameHeader.validate, FrameHeader.validateHeader,
    FrameHeader.validatePayload, FrameHeader.validateElementLength,
    validateRank, rejectIf, world, unknown, counts, bare, opcode,
    elementType, source, destination, root, elementCount, payloadBytes,
    payloadChecksum]

end Writing

section Frames

variable {Addr Ip : Type} [DecidableEq Addr] (config : SetupConfig Addr Ip)

/-- The header of the READY to a rank. -/
def readyHeader (rank : UInt32) (p2p : Bool) (rail : Nat) : FrameHeader :=
  { FrameHeader.collective config.checksum config.uniqueId .ready .none 0
      anyRank config.worldSize 0 0 with
    destinationRank := rank
    flags := if p2p then flagP2pChannel else 0
    tag := if p2p then UInt64.ofNat rail else 0 }

/-- What the ranks say in a conversation. -/
def requestText (rank : Fin config.world) :
    Conversation config.world → Frame
  | .phase (.channel p2p rail) => ⟨joinHeader config (UInt32.ofNat rank) p2p rail, []⟩
  | .phase .endpoints =>
      publishedFrame config.addrs config.checksum config.uniqueId
        config.worldSize config.rails rank (config.published rank)
  | .peerJoin peer rail =>
      ⟨peerHeader config .join (UInt32.ofNat rank) (UInt32.ofNat peer) rail, []⟩

/-- What they hear. -/
def replyText (rank : Fin config.world) : Conversation config.world → Frame
  | .phase (.channel p2p rail) => ⟨readyHeader config (UInt32.ofNat rank) p2p rail, []⟩
  | .phase .endpoints =>
      tableFrame config.addrs config.checksum config.uniqueId config.worldSize config.rails
        (tableLines config.addrs config.published config.peerIp) rank
  | .peerJoin peer rail =>
      ⟨peerHeader config .ready (UInt32.ofNat peer) (UInt32.ofNat rank) rail, []⟩

variable {config}

theorem zero_or_p2pChannel : 0 ||| flagP2pChannel = flagP2pChannel := by
  decide

omit [DecidableEq Addr] in
theorem joinHeader_new (rank : Fin config.world) (p2p : Bool) (rail : Nat) :
    Frame.new config.checksum (joinHeader config (UInt32.ofNat rank) p2p rail) [] =
      .ok ⟨joinHeader config (UInt32.ofNat rank) p2p rail, []⟩ := by
  apply Frame.new_nil_of_valid
  cases p2p with
  | false =>
      exact validate_control (Or.inl rfl) rfl (Or.inl rfl)
        (ofNat_rank_lt rank) (Or.inl rfl) rfl rfl rfl rfl
  | true =>
      exact validate_control (Or.inl rfl) rfl
        (Or.inr zero_or_p2pChannel) (ofNat_rank_lt rank) (Or.inl rfl) rfl rfl rfl rfl

omit [DecidableEq Addr] in
theorem peerHeader_new {opcode : Opcode} (control : opcode = .join ∨ opcode = .ready)
    (rank peer : Fin config.world) (rail : Nat) :
    Frame.new config.checksum (peerHeader config opcode (UInt32.ofNat rank)
        (UInt32.ofNat peer) rail) [] =
      .ok ⟨peerHeader config opcode (UInt32.ofNat rank) (UInt32.ofNat peer) rail, []⟩ := by
  apply Frame.new_nil_of_valid
  exact validate_control control rfl (Or.inr zero_or_p2pChannel)
    (ofNat_rank_lt rank) (Or.inr (ofNat_rank_lt peer)) rfl rfl rfl rfl

/-- The listener of a rank that a rail arrives at. -/
def SetupConfig.listenerFor (config : SetupConfig Addr Ip)
    (rank : Fin config.world) (rail : Nat) : Nat :=
  if config.listeners rank = 1 then 0 else rail

/-- What ranks with direct peers must have: endpoints the coordinator can use, a table
that fits into a frame, one listener or one for each rail, and endpoints behind which
the listener of the rail stands. -/
structure DirectPeers (config : SetupConfig Addr Ip) : Prop where
  textual : config.addrs.Textual
  publishes : ∀ rank, Publishes config.addrs config.rails (config.published rank)
  fits : (endpointPayload config.addrs (tableLines config.addrs
    config.published config.peerIp)).length ≤ maxFramePayloadBytes
  listeners : ∀ rank, config.listeners rank = 1 ∨ config.listeners rank = config.rails
  routed : ∀ rank rail endpoint,
    (seenEndpoints config.addrs config.published config.peerIp rank)[rail]? = some endpoint →
    config.route endpoint = some (rank, config.listenerFor rank rail)

/-- A configuration that all parties share. -/
structure WellConfigured (config : SetupConfig Addr Ip) : Prop where
  rails : 1 ≤ config.rails ∧ config.rails ≤ maxP2pRails
  transport : config.transport = .tcpHostStaged ∨ config.transport = .tcpPeer
  peers : config.transport = .tcpPeer → DirectPeers config

theorem requestFrameOf_join (rank : Fin config.world) (p2p : Bool) (rail : Nat) :
    requestFrameOf config rank (.phase (.channel p2p rail)) =
      .ok (requestText config rank (.phase (.channel p2p rail))) := by
  have built := joinHeader_new rank p2p rail
  rw [requestFrameOf, built, setupProtocol_ok, ok_bind]
  exact transmitted_of_encodes (encodeTransportHeader_of_new built)

theorem requestFrameOf_endpoints (peers : DirectPeers config)
    (positive : 0 < config.rails) (rank : Fin config.world) :
    requestFrameOf config rank (.phase .endpoints) =
      .ok (requestText config rank (.phase .endpoints)) := by
  have publishes := peers.publishes rank
  have request : endpointRequest config.addrs config.checksum
      config.uniqueId config.worldSize config.rails (UInt32.ofNat rank)
        (config.published rank) = .ok _ :=
    (endpointRequest_eq_ok_iff peers.textual positive rank _ _).mpr
      ⟨publishes.sized, publishes.fits, rfl⟩
  obtain ⟨_, _, built⟩ := of_bind request
  rw [requestFrameOf, request]
  exact transmitted_of_encodes (encodeTransportHeader_of_new
    ((endpointProtocol_eq_ok_iff ..).mp built))

theorem requestFrameOf_peerJoin (rank peer : Fin config.world) (rail : Nat) :
    requestFrameOf config rank (.peerJoin peer rail) =
      .ok (requestText config rank (.peerJoin peer rail)) := by
  have built := @peerHeader_new _ _ config _ (Or.inl rfl) rank peer rail
  rw [requestFrameOf, built, setupProtocol_ok, ok_bind]
  exact transmitted_of_encodes (encodeTransportHeader_of_new built)

omit [DecidableEq Addr] in
theorem worldSize_pos (rank : Fin config.world) : (0 : UInt32) < config.worldSize := by
  rw [UInt32.lt_iff_toNat_lt]
  exact lt_of_le_of_lt (Nat.zero_le _) rank.isLt

theorem writtenReady_eq (rank : Fin config.world) (p2p : Bool) (rail : Nat) :
    writtenReady config rank p2p rail =
      .ok (replyText config rank (.phase (.channel p2p rail))) := by
  have valid (flags : UInt16) (tag : UInt64) (known : flags = 0 ∨ flags = flagP2pChannel) :
      FrameHeader.validate config.checksum
        { FrameHeader.collective config.checksum config.uniqueId .ready .none
            0 anyRank config.worldSize 0 0 with
          destinationRank := UInt32.ofNat rank
          flags := flags
          tag := tag } (some []) = .ok () :=
    validate_control (Or.inr rfl) rfl known (worldSize_pos rank)
      (Or.inr (ofNat_rank_lt rank)) rfl rfl rfl rfl
  have control : controlFrame config .ready 0 (UInt32.ofNat rank) =
      .ok ⟨readyHeader config (UInt32.ofNat rank) false rail, []⟩ := by
    have built := Frame.new_nil_of_valid (valid 0 0 (Or.inl rfl))
    exact congrArg setupProtocol built
  have known : (if p2p then flagP2pChannel else 0) = 0 ∨
      (if p2p then flagP2pChannel else 0) = flagP2pChannel := by
    cases p2p with
    | false => exact Or.inl rfl
    | true => exact Or.inr rfl
  have sendable : Frame.Valid config.checksum
      (replyText config rank (.phase (.channel p2p rail))) :=
    valid _ _ known
  have sent : transmitted config (replyText config rank (.phase (.channel p2p rail))) = .ok _ :=
    transmitted_of_encodes ⟨_, sendable.encodeTransportHeader⟩
  rw [writtenReady, readyFrame, control, ok_bind]
  cases p2p with
  | false => exact sent
  | true =>
      change transmitted config
        ⟨{ readyHeader config (UInt32.ofNat rank) true rail with
          flags := 0 ||| flagP2pChannel }, []⟩ = _
      rw [zero_or_p2pChannel]
      exact sent

theorem writtenTable_eq (peers : DirectPeers config)
    (positive : 0 < config.rails) (rank : Fin config.world) :
    writtenTable config rank (endpointPayload config.addrs
        (tableLines config.addrs config.published config.peerIp)) =
      .ok (replyText config rank (.phase .endpoints)) := by
  have lines : tableLines config.addrs config.published config.peerIp ≠ [] :=
    tableLines_ne_nil positive (fun rank => (peers.publishes rank).sized) rank
  have built := (@new_bytes_eq_ok_iff config.checksum
    (tableHeader config.checksum config.uniqueId config.worldSize config.rails
      rank (endpointPayload config.addrs (tableLines config.addrs
        config.published config.peerIp)).length) (tableHeader_plain rank _) _
    rfl rfl (endpointPayload_ne_nil peers.textual lines) _).mpr ⟨peers.fits, rfl⟩
  rw [writtenTable, built]
  exact transmitted_of_encodes (encodeTransportHeader_of_new
    ((endpointProtocol_eq_ok_iff ..).mp built))

theorem p2pChannel_ne_zero : flagP2pChannel ≠ 0 := by
  decide

/-- The coordinator accepts the JOIN of a rank. -/
theorem validateJoin_request (rank : Fin config.world) (p2p : Bool) (rail : Nat) :
    validateJoin config (requestText config rank (.phase (.channel p2p rail)))
      p2p rail = .ok () := by
  have set := p2pChannel_ne_zero
  cases p2p with
  | false =>
      simp [validateJoin, requestText, joinHeader, FrameHeader.collective, rejectIf]
  | true =>
      simp [validateJoin, requestText, joinHeader, FrameHeader.collective, rejectIf, set]

theorem sourceRank_request (rank : Fin config.world) (p2p : Bool) (rail : Nat) :
    (requestText config rank
      (.phase (.channel p2p rail))).header.sourceRank.toNat = rank.val := by
  cases p2p with
  | false => exact toNat_ofNat_rank rank
  | true => exact toNat_ofNat_rank rank

/-- A rank accepts the READY of the coordinator. -/
theorem checkReady_reply (rank : Fin config.world) (p2p : Bool) (rail : Nat) :
    checkReady config (UInt32.ofNat rank) p2p rail
      (replyText config rank (.phase (.channel p2p rail))) = .ok () := by
  have set := p2pChannel_ne_zero
  cases p2p with
  | false =>
      simp [checkReady, replyText, readyHeader, FrameHeader.collective,
        rejectIf, validateResponse, setupNetwork]
  | true =>
      simp [checkReady, replyText, readyHeader, FrameHeader.collective,
        rejectIf, validateResponse, setupNetwork, set]

/-- A rank accepts the READY of a peer. -/
theorem checkPeerReady_reply (rank peer : Fin config.world) (rail : Nat) :
    checkPeerReady config (UInt32.ofNat rank) (UInt32.ofNat peer) rail
      (replyText config rank (.peerJoin peer rail)) = .ok () := by
  have set := p2pChannel_ne_zero
  simp [checkPeerReady, replyText, peerHeader, FrameHeader.collective, rejectIf, set]

/-- A rank accepts the JOIN of a peer. -/
theorem validatePeerJoin_request (small : config.rails ≤ maxP2pRails)
    (rank peer : Fin config.world) {rail : Nat} (inside : rail < config.rails) :
    validatePeerJoin config (UInt32.ofNat peer) (requestText config rank (.peerJoin peer rail)) =
      .ok (UInt32.ofNat rank, rail) := by
  have set := p2pChannel_ne_zero
  have tag : rail % 18446744073709551616 = rail := by
    unfold maxP2pRails at small
    omega
  have range : ¬config.rails ≤ rail := Nat.not_le_of_lt inside
  simp [validatePeerJoin, requestText, peerHeader, FrameHeader.collective,
    rejectIf, set, tag, range]

omit [DecidableEq Addr] in
theorem rankOf_ofNat (rank : Fin config.world) :
    rankOf config (UInt32.ofNat rank) = some rank := by
  have same := toNat_ofNat_rank rank
  rw [rankOf, dif_pos (by rw [same]; exact rank.isLt)]
  exact congrArg some (Fin.ext same)

omit [DecidableEq Addr] in
theorem ofNat_rank_lt_iff {lower higher : Fin config.world} :
    UInt32.ofNat lower < UInt32.ofNat higher ↔ lower < higher := by
  rw [UInt32.lt_iff_toNat_lt, toNat_ofNat_rank, toNat_ofNat_rank]
  exact Iff.rfl

section Checks

variable {rank peer : Fin config.world} {rail : Nat} {own : RankSetup config.world Addr}

theorem connectChecks_eq (well : WellConfigured config) (rank : Fin config.world) :
    connectChecks config (UInt32.ofNat rank) = .ok () := by
  have inside := ofNat_rank_lt rank
  have world : config.worldSize ≠ 0 := (UInt32.ne_of_lt (worldSize_pos rank)).symm
  have outside : ¬config.worldSize ≤ UInt32.ofNat rank := UInt32.not_le.mpr inside
  have tcp : ¬(config.transport ≠ .tcpHostStaged ∧ config.transport ≠ .tcpPeer) := by
    rcases well.transport with staged | direct
    · exact fun wrong => wrong.1 staged
    · exact fun wrong => wrong.2 direct
  rw [connectChecks, rejectIf, if_neg (by simp [world, outside]), ok_bind,
    rejectIf, if_neg (not_not.mpr well.rails), ok_bind,
    validateTcpTransport, rejectIf, if_neg tcp]

theorem meshChecks_eq (peers : DirectPeers config) (rank : Fin config.world) :
    meshChecks config rank (peerTable config.addrs config.published config.peerIp) = .ok () := by
  have rows : (peerTable config.addrs config.published
      config.peerIp).length = config.world := List.length_ofFn
  have sized : (peerTable config.addrs config.published config.peerIp).zipIdx.find? (fun row =>
        decide (row.1.length ≠ config.rails)) = none := by
    rw [List.find?_eq_none]
    rintro ⟨row, index⟩ among
    have member := (List.mem_zipIdx among).2.2
    have located : row ∈ peerTable config.addrs config.published
        config.peerIp := by
      rw [member]
      exact List.getElem_mem _
    obtain ⟨source, rfl⟩ := List.mem_ofFn.mp located
    have length := @length_seenEndpoints _ _ config.addrs _ _ _ config.peerIp
      (fun rank => (peers.publishes rank).sized) source
    simpa using length
  have listeners : ¬(config.listeners rank ≠ 1 ∧ config.listeners rank ≠ config.rails) := by
    rcases peers.listeners rank with one | each
    · exact fun wrong => wrong.1 one
    · exact fun wrong => wrong.2 each
  rw [meshChecks, rejectIf, if_neg (not_not.mpr rows), ok_bind, sized]
  simp only [ok_bind, rejectIf, if_neg listeners]

theorem connectTo_peerJoin (peers : DirectPeers config)
    (table : own.table = peerTable config.addrs config.published config.peerIp)
    (inside : rail < config.rails) :
    connectTo config own (.peerJoin peer rail) =
      .ok (.listener peer (config.listenerFor peer rail)) := by
  have row : own.table[peer.val]? = some (seenEndpoints config.addrs
      config.published config.peerIp peer) := by
    rw [table, peerTable, List.getElem?_ofFn, dif_pos peer.isLt]
  have length : (seenEndpoints config.addrs config.published config.peerIp
      peer).length = config.rails :=
    length_seenEndpoints (fun rank => (peers.publishes rank).sized) peer
  have endpoint : (seenEndpoints config.addrs config.published config.peerIp
      peer)[rail]? = some _ :=
    List.getElem?_eq_getElem (lt_of_lt_of_eq inside length.symm)
  rw [connectTo, row, okOr_some, ok_bind, endpoint, okOr_some, ok_bind,
    peers.routed peer rail _ endpoint]
  rfl

theorem receiveReply_channel (p2p : Bool) :
    receiveReply config rank own (.phase (.channel p2p rail))
        (replyText config rank (.phase (.channel p2p rail))) =
      .ok { own with
        streams := own.streams ++ [⟨rank, .coordinator p2p rail⟩] } := by
  rw [receiveReply, checkReady_reply]
  rfl

theorem receiveReply_endpoints (well : WellConfigured config)
    (direct : config.transport = .tcpPeer) :
    receiveReply config rank own (.phase .endpoints) (replyText config rank (.phase .endpoints)) =
      .ok { own with
        table := peerTable config.addrs config.published config.peerIp } := by
  have peers := well.peers direct
  have read : receiveTable config.addrs config.uniqueId config.worldSize
      config.rails (UInt32.ofNat rank)
        (some (replyText config rank (.phase .endpoints))) = .ok _ :=
    receiveTable_tableFrame peers.textual well.rails.1
      (fun rank => (peers.publishes rank).sized) rank
  rw [receiveReply, read]
  rfl

theorem receiveReply_peerJoin :
    receiveReply config rank own (.peerJoin peer rail)
        (replyText config rank (.peerJoin peer rail)) =
      .ok (own.connect rail peer ⟨rank, .peer peer rail⟩) := by
  rw [receiveReply, checkPeerReady_reply]
  rfl

/-- A rank accepts the connection of a higher rank that it does not have yet. -/
theorem acceptPeer_eq (well : WellConfigured config) (higher : rank < peer)
    (inside : rail < config.rails) (free : own.connections rail peer = none)
    (line : Line config.world) :
    acceptPeer config rank own line (config.listenerFor rank rail)
        (requestText config peer (.peerJoin rank rail)) =
      .ok ({ own.connect rail peer line with
          accepted := own.accepted + 1
          stage := .accepting },
        replyText config peer (.peerJoin rank rail)) := by
  have listener : ¬(config.listeners rank = config.rails ∧
      rail ≠ config.listenerFor rank rail) := by
    rintro ⟨each, wrong⟩
    unfold SetupConfig.listenerFor at wrong
    split at wrong
    case isTrue one => omega
    case isFalse => exact wrong rfl
  have lower : ¬UInt32.ofNat peer ≤ UInt32.ofNat rank :=
    UInt32.not_le.mpr (ofNat_rank_lt_iff.mpr higher)
  have built := @peerHeader_new _ _ config _ (Or.inr rfl) rank peer rail
  have sent : transmitted config (replyText config peer (.peerJoin rank rail)) = .ok _ :=
    transmitted_of_encodes (encodeTransportHeader_of_new built)
  have ready : peerReadyFrame config (UInt32.ofNat rank) (UInt32.ofNat peer)
      rail = .ok (replyText config peer (.peerJoin rank rail)) := by
    rw [peerReadyFrame, built]
    rfl
  rw [acceptPeer, validatePeerJoin_request well.rails.2 peer rank inside, ok_bind]
  simp only [rejectIf, if_neg listener, if_neg lower, ok_bind,
    rankOf_ofNat, okOr_some, free, ne_eq, not_true_eq_false, if_false,
    ready, sent]

end Checks

end Frames

end RuCCL.Rank
