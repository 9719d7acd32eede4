import RuCCL.Rank.PeerEndpoints

/-!
# All ranks have the same endpoints

A payload is cut into the lines it was joined from, so a published list comes back as
it was.  The two layouts differ in length as soon as there is more than one rail, and
with one rail they are the same.
-/

namespace RuCCL.Rank

open RuCCL.Library

variable {Addr Ip : Type} {addrs : SocketAddrs Addr Ip}
variable {checksum : List UInt8 → UInt32} {uniqueId : UniqueId}
variable {worldSize : UInt32} {rails : Nat}

section Payloads

theorem textOfBytes_endpointPayload (endpoints : List Addr) :
    textOfBytes (endpointPayload addrs endpoints) =
      some (joinLines (endpoints.map addrs.toText)) :=
  textOfBytes_textBytes _

variable (textual : addrs.Textual)

include textual

theorem oneLine_toText (endpoints : List Addr) :
    ∀ entry ∈ endpoints.map addrs.toText, OneLine entry := by
  intro entry among
  obtain ⟨endpoint, _, rfl⟩ := List.mem_map.mp among
  exact textual.oneLine endpoint

theorem endpointPayload_ne_nil {endpoints : List Addr}
    (some : endpoints ≠ []) : endpointPayload addrs endpoints ≠ [] := by
  have present : endpoints.map addrs.toText ≠ [] := by
    rw [Ne, List.map_eq_nil_iff]
    exact some
  exact textBytes_ne_nil (joinLines_ne_nil present (oneLine_toText textual endpoints))

theorem publishedEntry_eq_ok_iff (rank : Nat) (peerIp : Ip)
    (endpoint result : Addr) (rail : Nat) :
    publishedEntry addrs rank peerIp (addrs.toText endpoint) rail = .ok result ↔
      addrs.port endpoint ≠ 0 ∧ result = seenFrom addrs peerIp endpoint := by
  rw [publishedEntry, textual.parse_toText, okOr_some, ok_bind, bind_eq_ok_iff]
  simp only [rejectIf_eq_ok_iff, Except.ok.injEq, exists_const]
  exact and_congr_right fun _ => eq_comm

/-- All lines of a list are read, or none. -/
theorem mapM_publishedEntry (rank : Nat) (peerIp : Ip)
    (endpoints values : List Addr) (first : Nat) :
    (((endpoints.map addrs.toText).zipIdx first).mapM fun (entry, rail) =>
        publishedEntry addrs rank peerIp entry rail) = .ok values ↔
      (∀ endpoint ∈ endpoints, addrs.port endpoint ≠ 0) ∧
        values = endpoints.map (seenFrom addrs peerIp) := by
  induction endpoints generalizing values first with
  | nil => simp [eq_comm]
  | cons endpoint rest ih =>
      rw [List.map_cons, List.zipIdx_cons, List.mapM_cons, bind_eq_ok_iff]
      simp only [publishedEntry_eq_ok_iff textual]
      constructor
      · rintro ⟨value, ⟨own, rfl⟩, later⟩
        obtain ⟨others, read, same⟩ := of_bind later
        obtain ⟨ports, rfl⟩ := (ih others _).mp read
        cases same
        refine ⟨?_, rfl⟩
        intro other among
        rcases List.mem_cons.mp among with rfl | behind
        · exact own
        · exact ports other behind
      · rintro ⟨ports, rfl⟩
        have own := ports endpoint List.mem_cons_self
        have read := (ih (rest.map (seenFrom addrs peerIp)) (first + 1)).mpr ⟨fun other behind =>
            ports other (List.mem_cons_of_mem _ behind), rfl⟩
        refine ⟨_, ⟨own, rfl⟩, ?_⟩
        rw [read]
        rfl

theorem mapM_parse (endpoints : List Addr) :
    ((endpoints.map addrs.toText).mapM fun entry =>
      okOr (addrs.parse entry) (EndpointError.invalidTableEntry entry)) =
        .ok endpoints := by
  rw [mapM_eq_ok_iff, List.map_map]
  refine List.map_congr_left fun endpoint _ => ?_
  rw [Function.comp_apply, textual.parse_toText]
  rfl

end Payloads

section Shared

variable [DecidableEq Addr]

theorem sharedEndpoint_cons_iff (first : Addr) (rest : List Addr) :
    sharedEndpoint (first :: rest) = true ↔ rest = List.replicate rest.length first := by
  induction rest generalizing first with
  | nil => simp [sharedEndpoint]
  | cons second rest ih =>
      have peel : sharedEndpoint (first :: second :: rest) = true ↔
          first = second ∧ sharedEndpoint (second :: rest) = true := by
        simp [sharedEndpoint]
      rw [peel, ih, List.length_cons, List.replicate_succ, List.cons.injEq]
      constructor
      · rintro ⟨rfl, same⟩
        exact ⟨rfl, same⟩
      · rintro ⟨rfl, same⟩
        exact ⟨rfl, same⟩

/-- A rank writes one line exactly when all its endpoints are equal. -/
theorem length_endpointLines {endpoints : List Addr} (positive : 0 < rails)
    (sized : endpoints.length = rails) :
    (endpointLines rails endpoints).length = 1 ↔ sharedEndpoint endpoints = true := by
  rw [endpointLines, List.length_take, sized]
  by_cases shared : sharedEndpoint endpoints = true
  · simp only [shared, if_true, iff_true]
    omega
  · simp only [shared, Bool.false_eq_true, if_false, iff_false, Nat.min_self]
    rintro rfl
    obtain ⟨only, rfl⟩ := List.length_eq_one_iff.mp sized
    exact shared rfl

theorem length_endpointLines_cases (endpoints : List Addr)
    (positive : 0 < rails) (sized : endpoints.length = rails) :
    (endpointLines rails endpoints).length = 1 ∨
      (endpointLines rails endpoints).length = rails := by
  rw [endpointLines, List.length_take, sized]
  split
  · left
    omega
  · exact Or.inr (Nat.min_self _)

theorem eq_replicate_of_shared {endpoints : List Addr} {first : Addr}
    (shared : sharedEndpoint endpoints = true)
    (one : endpoints.take 1 = [first]) :
    endpoints = List.replicate endpoints.length first := by
  cases endpoints with
  | nil => cases one
  | cons head rest =>
      obtain rfl : head = first := by simpa using one
      rw [List.length_cons, List.replicate_succ, ← (sharedEndpoint_cons_iff head rest).mp shared]

/-- What a rank wrote comes back as its whole list. -/
theorem restored_of_shared {endpoints : List Addr} (positive : 0 < rails)
    (sized : endpoints.length = rails)
    (shared : sharedEndpoint endpoints = true) :
    ∃ first, endpointLines rails endpoints = [first] ∧
      endpoints = List.replicate rails first := by
  have one := (length_endpointLines positive sized).mpr shared
  obtain ⟨first, lines⟩ := List.length_eq_one_iff.mp one
  refine ⟨first, lines, ?_⟩
  rw [endpointLines, if_pos shared] at lines
  rw [← sized]
  exact eq_replicate_of_shared shared lines

theorem endpointLines_of_not_shared {endpoints : List Addr} (sized : endpoints.length = rails)
    (apart : sharedEndpoint endpoints ≠ true) :
    endpointLines rails endpoints = endpoints := by
  rw [endpointLines, if_neg apart, ← sized, List.take_length]

theorem resizeShared_of_ne_one {Addr : Type} {endpoints : List Addr}
    (several : endpoints.length ≠ 1) :
    resizeShared rails endpoints = endpoints := by
  match endpoints with
  | [] => rfl
  | [_] => exact absurd rfl several
  | _ :: _ :: _ => rfl

end Shared

section Coordinator

variable [DecidableEq Addr] (textual : addrs.Textual)

include textual

theorem publishedEndpoints_eq_ok_iff {endpoints : List Addr}
    (positive : 0 < rails) (sized : endpoints.length = rails)
    (rank : Nat) (peerIp : Ip) (result : Bool × List Addr) :
    publishedEndpoints addrs rails rank peerIp
        (endpointPayload addrs (endpointLines rails endpoints)) = .ok result ↔
      (∀ endpoint ∈ endpoints, addrs.port endpoint ≠ 0) ∧
        result = (sharedEndpoint endpoints, endpoints.map (seenFrom addrs peerIp)) := by
  have found := lines_joinLines (oneLine_toText textual (endpointLines rails endpoints))
  have counted : ¬((endpointLines rails endpoints).length ≠ 1 ∧
      (endpointLines rails endpoints).length ≠ rails) := by
    rcases length_endpointLines_cases endpoints positive sized with
      one | all
    · exact fun wrong => wrong.1 one
    · exact fun wrong => wrong.2 all
  rw [publishedEndpoints, textOfBytes_endpointPayload, okOr_some, ok_bind]
  simp only [found, List.length_map, rejectIf, if_neg counted, ok_bind,
    bind_eq_ok_iff, mapM_publishedEntry textual, Except.ok.injEq]
  by_cases shared : sharedEndpoint endpoints = true
  · -- one line stands for all rails
    obtain ⟨first, lines, same⟩ := restored_of_shared positive sized shared
    have ports : (∀ endpoint ∈ endpoints, addrs.port endpoint ≠ 0) ↔ addrs.port first ≠ 0 := by
      rw [same]
      simp only [List.mem_replicate]
      constructor
      · intro each
        exact each first ⟨Nat.ne_of_gt positive, rfl⟩
      · rintro own _ ⟨_, rfl⟩
        exact own
    rw [ports, lines, shared]
    have all : endpoints.map (seenFrom addrs peerIp) =
        List.replicate rails (seenFrom addrs peerIp first) := by
      rw [same, List.map_replicate]
    rw [all]
    simp [resizeShared, eq_comm]
  · have apart : (endpointLines rails endpoints).length ≠ 1 := fun one =>
      shared ((length_endpointLines positive sized).mp one)
    rw [endpointLines_of_not_shared sized shared] at apart ⊢
    constructor
    · rintro ⟨values, ⟨ports, rfl⟩, rfl⟩
      refine ⟨ports, ?_⟩
      rw [resizeShared_of_ne_one (by rwa [List.length_map])]
      simp [apart, shared]
    · rintro ⟨ports, rfl⟩
      refine ⟨_, ⟨ports, rfl⟩, ?_⟩
      rw [resizeShared_of_ne_one (by rwa [List.length_map])]
      simp [apart, shared]

end Coordinator

section Frames

theorem endpointProtocol_eq_ok_iff {α : Type} (result : Except ProtocolError α) (value : α) :
    endpointProtocol result = .ok value ↔ result = .ok value := by
  cases result <;>
    simp [endpointProtocol, endpointNetwork, Except.mapError]

/-- A frame of bytes is built exactly when its payload is not too long. -/
theorem new_bytes_eq_ok_iff {header : FrameHeader}
    (plain : PlainHeader checksum header) {payload : List UInt8}
    (bytes : header.elementType = .u8)
    (counted : header.elementCount = UInt64.ofNat payload.length)
    (present : payload ≠ []) (frame : Frame) :
    endpointProtocol (Frame.new checksum header payload) = .ok frame ↔
      payload.length ≤ maxFramePayloadBytes ∧
        frame = ⟨declaredHeader checksum header payload, payload⟩ := by
  rw [endpointProtocol_eq_ok_iff]
  rcases Nat.lt_or_ge maxFramePayloadBytes payload.length with large | small
  · rw [new_too_large header large]
    simp [Nat.not_le_of_lt large]
  · have sized : header.elementCount.toNat * header.elementType.byteWidth =
        payload.length := by
      have bound : payload.length < 2 ^ 64 := by
        unfold maxFramePayloadBytes at small
        omega
      rw [counted, bytes, UInt64.toNat_ofNat_of_lt' bound, ElementType.byteWidth, Nat.mul_one]
    rw [plain.new_payload present small sized, Except.ok.injEq, eq_comm]
    exact (and_iff_right small).symm

variable {rank : Fin worldSize.toNat}

theorem toNat_ofNat_rank (rank : Fin worldSize.toNat) :
    (UInt32.ofNat rank.val).toNat = rank.val :=
  UInt32.toNat_ofNat_of_lt' (lt_trans rank.isLt worldSize.toNat_lt)

theorem ofNat_rank_lt (rank : Fin worldSize.toNat) : UInt32.ofNat rank.val < worldSize := by
  rw [UInt32.lt_iff_toNat_lt, toNat_ofNat_rank]
  exact rank.isLt

theorem endpointHeader_plain (rank : Fin worldSize.toNat) (bytes : Nat) :
    PlainHeader checksum (endpointHeader checksum uniqueId worldSize rails
      (UInt32.ofNat rank) bytes) where
  flags := rfl
  payloadBytes := rfl
  payloadChecksum := rfl
  typed := nofun
  source := ofNat_rank_lt rank
  destination := Or.inl rfl
  root := Or.inl rfl

theorem tableHeader_plain (rank : Fin worldSize.toNat) (bytes : Nat) :
    PlainHeader checksum (tableHeader checksum uniqueId worldSize rails rank bytes) where
  flags := rfl
  payloadBytes := rfl
  payloadChecksum := rfl
  typed := nofun
  source := by
    rw [UInt32.lt_iff_toNat_lt]
    exact lt_of_le_of_lt (Nat.zero_le _) rank.isLt
  destination := Or.inr (ofNat_rank_lt rank)
  root := Or.inl rfl

end Frames

section Requests

variable [DecidableEq Addr] (textual : addrs.Textual)

/-- The frame that publishes a list of endpoints. -/
def publishedFrame (addrs : SocketAddrs Addr Ip)
    (checksum : List UInt8 → UInt32) (uniqueId : UniqueId)
    (worldSize : UInt32) (rails : Nat) (rank : Fin worldSize.toNat)
    (endpoints : List Addr) : Frame :=
  let payload := endpointPayload addrs (endpointLines rails endpoints)
  ⟨declaredHeader checksum (endpointHeader checksum uniqueId worldSize rails
    (UInt32.ofNat rank) payload.length) payload, payload⟩

theorem endpointLines_ne_nil {endpoints : List Addr} (positive : 0 < rails)
    (sized : endpoints.length = rails) :
    endpointLines rails endpoints ≠ [] := by
  intro none
  have length := length_endpointLines_cases endpoints positive sized
  rw [none, List.length_nil] at length
  omega

include textual

/-- A rank publishes its endpoints when they are as many as the rails and their text
fits into a frame. -/
theorem endpointRequest_eq_ok_iff (positive : 0 < rails)
    (rank : Fin worldSize.toNat) (endpoints : List Addr) (frame : Frame) :
    endpointRequest addrs checksum uniqueId worldSize rails
        (UInt32.ofNat rank) endpoints = .ok frame ↔
      endpoints.length = rails ∧ (endpointPayload addrs (endpointLines rails endpoints)).length ≤
          maxFramePayloadBytes ∧
        frame = publishedFrame addrs checksum uniqueId worldSize rails rank
          endpoints := by
  rw [endpointRequest, bind_eq_ok_iff]
  simp only [rejectIf_eq_ok_iff, not_not, exists_const]
  refine and_congr_right fun sized => ?_
  have present := endpointPayload_ne_nil textual (endpointLines_ne_nil positive sized)
  exact new_bytes_eq_ok_iff (endpointHeader_plain rank _) rfl rfl present frame

/-- The coordinator takes what a rank has published. -/
theorem not_invalid_publishedFrame (positive : 0 < rails)
    (rank : Fin worldSize.toNat) {endpoints : List Addr}
    (sized : endpoints.length = rails) :
    ¬InvalidEndpointFrame uniqueId worldSize rails rank.val
      (publishedFrame addrs checksum uniqueId worldSize rails rank endpoints) := by
  have present := endpointPayload_ne_nil textual (endpointLines_ne_nil positive sized)
  have flag : (0 : UInt16) ||| flagPayload = flagPayload := by decide
  have small : rank.val < 2 ^ 32 := lt_trans rank.isLt worldSize.toNat_lt
  simp [InvalidEndpointFrame, publishedFrame, declaredHeader,
    endpointHeader, FrameHeader.collective, flag, present]
  exact small

end Requests

section Answers

variable [DecidableEq Addr] (textual : addrs.Textual)
variable {published : Fin worldSize.toNat → List Addr}
variable {peerIp : Fin worldSize.toNat → Ip}

/-- A rank publishes a list the coordinator can use. -/
structure Publishes (addrs : SocketAddrs Addr Ip) (rails : Nat)
    (endpoints : List Addr) : Prop where
  sized : endpoints.length = rails
  fits : (endpointPayload addrs (endpointLines rails endpoints)).length ≤ maxFramePayloadBytes
  ports : ∀ endpoint ∈ endpoints, addrs.port endpoint ≠ 0

/-- The endpoints of a rank as its peers must use them. -/
def seenEndpoints (addrs : SocketAddrs Addr Ip) (published : Fin worldSize.toNat → List Addr)
    (peerIp : Fin worldSize.toNat → Ip) (rank : Fin worldSize.toNat) :
    List Addr :=
  (published rank).map (seenFrom addrs (peerIp rank))

/-- What the coordinator reads from a rank. -/
def readFrom (addrs : SocketAddrs Addr Ip) (published : Fin worldSize.toNat → List Addr)
    (peerIp : Fin worldSize.toNat → Ip) (rank : Fin worldSize.toNat) :
    Bool × List Addr :=
  (sharedEndpoint (published rank), seenEndpoints addrs published peerIp rank)

theorem readEndpoints_eq_ok_iff (textual : addrs.Textual)
    (positive : 0 < rails) (rank : Fin worldSize.toNat)
    (result : Bool × List Addr) :
    readEndpoints addrs uniqueId worldSize rails rank.val
        (publishingStream addrs checksum uniqueId worldSize rails published
          peerIp rank) = .ok result ↔
      Publishes addrs rails (published rank) ∧ result = readFrom addrs published peerIp rank := by
  have asked (frame : Frame) : endpointRequest addrs checksum uniqueId
      worldSize rails (UInt32.ofNat rank) (published rank) = .ok frame ↔ _ :=
    endpointRequest_eq_ok_iff textual positive rank (published rank) frame
  rw [readEndpoints, publishingStream, endpointNetwork, ok_bind]
  cases request : endpointRequest addrs checksum uniqueId worldSize rails
    (UInt32.ofNat rank) (published rank) with
  | error failure =>
      rw [request] at asked
      have refused : ¬Publishes addrs rails (published rank) := by
        intro publishes
        cases (asked _).mpr ⟨publishes.sized, publishes.fits, rfl⟩
      simp [Except.toOption, okOr, refused]
  | ok frame =>
      obtain ⟨sized, fits, rfl⟩ := (asked frame).mp request
      have valid : ¬InvalidEndpointFrame uniqueId worldSize rails rank.val
          (publishedFrame addrs checksum uniqueId worldSize rails rank (published rank)) :=
        not_invalid_publishedFrame textual positive rank sized
      have read := publishedEndpoints_eq_ok_iff textual positive sized
        rank.val (peerIp rank) result
      simp only [Except.toOption, okOr_some, ok_bind, rejectIf, if_neg valid]
      refine read.trans (and_congr_left fun _ => ?_)
      exact ⟨fun ports => ⟨sized, fits, ports⟩, fun all => all.ports⟩

/-- The frame that brings the table to a rank. -/
def tableFrame (addrs : SocketAddrs Addr Ip)
    (checksum : List UInt8 → UInt32) (uniqueId : UniqueId)
    (worldSize : UInt32) (rails : Nat) (table : List Addr)
    (rank : Fin worldSize.toNat) : Frame :=
  let payload := endpointPayload addrs table
  ⟨declaredHeader checksum (tableHeader checksum uniqueId worldSize rails
    rank payload.length) payload, payload⟩

/-- The endpoints that the coordinator writes down. -/
def tableLines (addrs : SocketAddrs Addr Ip) (published : Fin worldSize.toNat → List Addr)
    (peerIp : Fin worldSize.toNat → Ip) : List Addr :=
  flatTable (List.ofFn (readFrom addrs published peerIp))

theorem all_shared_iff :
    (List.ofFn (readFrom addrs published peerIp)).all Prod.fst = true ↔
      ∀ rank, sharedEndpoint (published rank) = true := by
  rw [List.all_eq_true]
  constructor
  · intro all rank
    exact all _ (List.mem_ofFn.mpr ⟨rank, rfl⟩)
  · intro all row among
    obtain ⟨rank, rfl⟩ := List.mem_ofFn.mp among
    exact all rank

/-- The table of ranks that all have one endpoint has one line for each. -/
theorem tableLines_shared (positive : 0 < rails) (sized : ∀ rank, (published rank).length = rails)
    (shared : ∀ rank, sharedEndpoint (published rank) = true) :
    ∃ first : Fin worldSize.toNat → Addr, tableLines addrs published peerIp = List.ofFn first ∧
        ∀ rank, seenEndpoints addrs published peerIp rank =
          List.replicate rails (first rank) := by
  have same (rank : Fin worldSize.toNat) : ∃ first,
      published rank = List.replicate rails first := by
    obtain ⟨first, _, all⟩ := restored_of_shared positive (sized rank) (shared rank)
    exact ⟨first, all⟩
  choose own all using same
  have seen (rank : Fin worldSize.toNat) :
      seenEndpoints addrs published peerIp rank =
        List.replicate rails (seenFrom addrs (peerIp rank) (own rank)) := by
    rw [seenEndpoints, all rank, List.map_replicate]
  refine ⟨_, ?_, seen⟩
  have one (rank : Fin worldSize.toNat) :
      (seenEndpoints addrs published peerIp rank).take 1 =
        [seenFrom addrs (peerIp rank) (own rank)] := by
    rw [seen, List.take_replicate, Nat.min_eq_left positive]
    rfl
  rw [tableLines, flatTable, all_shared_iff.mpr shared]
  simp only [if_true, List.flatMap, List.map_ofFn]
  have rows : ((fun row : Bool × List Addr => row.2.take 1) ∘ readFrom addrs published peerIp) =
        (fun endpoint => [endpoint]) ∘ fun rank => seenFrom addrs (peerIp rank) (own rank) :=
    funext one
  rw [rows, ← List.map_ofFn, ← List.flatMap_def, List.flatMap_singleton']

/-- Otherwise it has all lists one after the other. -/
theorem tableLines_apart (apart : ¬∀ rank, sharedEndpoint (published rank) = true) :
    tableLines addrs published peerIp =
      (List.ofFn (seenEndpoints addrs published peerIp)).flatten := by
  have split : (List.ofFn (readFrom addrs published peerIp)).all Prod.fst =
      false := by
    rw [Bool.eq_false_iff, Ne, all_shared_iff]
    exact apart
  rw [tableLines, flatTable, split]
  simp only [Bool.false_eq_true, if_false, List.flatMap, List.map_ofFn]
  rfl

/-- The table that all ranks should have. -/
def peerTable (addrs : SocketAddrs Addr Ip) (published : Fin worldSize.toNat → List Addr)
    (peerIp : Fin worldSize.toNat → Ip) : List (List Addr) :=
  List.ofFn (seenEndpoints addrs published peerIp)

omit [DecidableEq Addr] in
theorem length_seenEndpoints (sized : ∀ rank, (published rank).length = rails)
    (rank : Fin worldSize.toNat) :
    (seenEndpoints addrs published peerIp rank).length = rails := by
  rw [seenEndpoints, List.length_map, sized]

omit [DecidableEq Addr] in
theorem length_flatten_peerTable (sized : ∀ rank, (published rank).length = rails) :
    (peerTable addrs published peerIp).flatten.length = worldSize.toNat * rails := by
  have rows : (peerTable addrs published peerIp).map List.length =
      List.replicate worldSize.toNat rails := by
    rw [peerTable, List.map_ofFn, ← List.ofFn_const]
    exact congrArg List.ofFn (funext (length_seenEndpoints sized))
  rw [List.length_flatten, rows, List.sum_replicate, smul_eq_mul]

/-- A rank that reads the table in either layout has the lists of all ranks. -/
theorem endpointTable_tableLines (textual : addrs.Textual)
    (positive : 0 < rails) (sized : ∀ rank, (published rank).length = rails)
    (rank : Fin worldSize.toNat) :
    endpointTable addrs worldSize rails (endpointPayload addrs
        (tableLines addrs published peerIp)) =
      .ok (peerTable addrs published peerIp) := by
  have found := lines_joinLines (oneLine_toText textual (tableLines addrs published peerIp))
  rw [endpointTable, textOfBytes_endpointPayload, okOr_some,
    ok_bind, found, mapM_parse textual, ok_bind]
  by_cases shared : ∀ rank, sharedEndpoint (published rank) = true
  · obtain ⟨first, flat, seen⟩ := tableLines_shared positive sized shared
    have rows : (fun endpoint => List.replicate rails endpoint) ∘ first =
        seenEndpoints addrs published peerIp :=
      funext fun rank => (seen rank).symm
    rw [flat, if_pos List.length_ofFn, List.map_ofFn, rows, peerTable]
  · -- there is more than one rail, so this layout has another length
    have several : rails ≠ 1 := by
      rintro rfl
      refine shared fun rank => ?_
      obtain ⟨only, same⟩ := List.length_eq_one_iff.mp (sized rank)
      rw [same]
      rfl
    have flat : tableLines addrs published peerIp = _ := tableLines_apart shared
    have length : (peerTable addrs published peerIp).flatten.length = _ :=
      length_flatten_peerTable sized
    rw [peerTable] at length
    have world : 0 < worldSize.toNat := lt_of_le_of_lt (Nat.zero_le _) rank.isLt
    have longer : ¬worldSize.toNat * rails = worldSize.toNat := by
      intro same
      have one : worldSize.toNat * rails = worldSize.toNat * 1 := by
        rw [same, Nat.mul_one]
      exact several (Nat.eq_of_mul_eq_mul_left world one)
    have rows : ∀ row ∈ List.ofFn (seenEndpoints addrs published peerIp), row.length = rails := by
      intro row among
      obtain ⟨rank, rfl⟩ := List.mem_ofFn.mp among
      exact length_seenEndpoints sized rank
    rw [flat, length, if_neg longer, rejectIf, if_neg (not_not.mpr rfl),
      ok_bind, exactSegments_flatten positive rows, peerTable]

theorem tableLines_ne_nil (positive : 0 < rails) (sized : ∀ rank, (published rank).length = rails)
    (rank : Fin worldSize.toNat) :
    tableLines addrs published peerIp ≠ [] := by
  have world : 0 < worldSize.toNat := lt_of_le_of_lt (Nat.zero_le _) rank.isLt
  rw [← List.length_pos_iff]
  by_cases shared : ∀ rank, sharedEndpoint (published rank) = true
  · obtain ⟨first, flat, _⟩ := tableLines_shared positive sized shared
    rw [flat, List.length_ofFn]
    exact world
  · rw [tableLines_apart shared]
    exact lt_of_lt_of_eq (Nat.mul_pos world positive) (length_flatten_peerTable sized).symm

/-- The frames of a table are built when it fits into one. -/
theorem tableFrames_eq_ok_iff (textual : addrs.Textual) (positive : 0 < rails)
    (all : ∀ rank, Publishes addrs rails (published rank))
    (some : 0 < worldSize.toNat) (responses : List Frame) :
    ((List.range worldSize.toNat).mapM fun rank =>
        endpointProtocol (Frame.new checksum
          (tableHeader checksum uniqueId worldSize rails rank
            (endpointPayload addrs (tableLines addrs published peerIp)).length)
          (endpointPayload addrs (tableLines addrs published peerIp)))) = .ok responses ↔
      (endpointPayload addrs (tableLines addrs published peerIp)).length ≤ maxFramePayloadBytes ∧
      responses = List.ofFn (tableFrame addrs checksum uniqueId worldSize
        rails (tableLines addrs published peerIp)) := by
  have lines : tableLines addrs published peerIp ≠ [] :=
    tableLines_ne_nil positive (fun rank => (all rank).sized) ⟨0, some⟩
  have present := endpointPayload_ne_nil textual lines
  rw [range_eq_ofFn]
  refine (mapM_ofFn_eq_ok_iff ?_ responses).trans
    (and_congr_left fun _ => ⟨fun fits => fits ⟨0, some⟩, fun fits _ => fits⟩)
  intro index frame
  exact new_bytes_eq_ok_iff (tableHeader_plain index _) rfl rfl present frame

/-- The coordinator answers when all lists are usable and the table fits into a
frame. -/
theorem server_eq_ok_iff (textual : addrs.Textual) (positive : 0 < rails)
    (some : 0 < worldSize.toNat) (responses : List Frame) :
    exchangePeerEndpointsServer addrs checksum uniqueId worldSize rails
        (List.ofFn (publishingStream addrs checksum uniqueId worldSize rails
          published peerIp)) = .ok responses ↔
      (∀ rank, Publishes addrs rails (published rank)) ∧
        (endpointPayload addrs (tableLines addrs published
          peerIp)).length ≤ maxFramePayloadBytes ∧
        responses = List.ofFn (tableFrame addrs checksum uniqueId worldSize
          rails (tableLines addrs published peerIp)) := by
  have read (rows : List (Bool × List Addr)) :
      ((List.ofFn fun index => (publishingStream addrs checksum uniqueId
        worldSize rails published peerIp index, index.val)).mapM
          fun entry => readEndpoints addrs uniqueId worldSize rails entry.2 entry.1) = .ok rows ↔
        (∀ rank, Publishes addrs rails (published rank)) ∧
          rows = List.ofFn (readFrom addrs published peerIp) := by
    refine mapM_ofFn_eq_ok_iff ?_ rows
    intro index result
    exact readEndpoints_eq_ok_iff textual positive index result
  rw [exchangePeerEndpointsServer, zipIdx_ofFn, List.length_ofFn, bind_eq_ok_iff]
  constructor
  · rintro ⟨rows, ran, answered⟩
    obtain ⟨all, rfl⟩ := (read rows).mp ran
    exact ⟨all, (tableFrames_eq_ok_iff textual positive all some responses).mp answered⟩
  · rintro ⟨all, answered⟩
    exact ⟨_, (read _).mpr ⟨all, rfl⟩, (tableFrames_eq_ok_iff textual
      positive all some responses).mpr answered⟩

theorem receiveTable_tableFrame (textual : addrs.Textual)
    (positive : 0 < rails) (sized : ∀ rank, (published rank).length = rails)
    (rank : Fin worldSize.toNat) :
    receiveTable addrs uniqueId worldSize rails (UInt32.ofNat rank)
        (some (tableFrame addrs checksum uniqueId worldSize rails
          (tableLines addrs published peerIp) rank)) =
      .ok (peerTable addrs published peerIp) := by
  have table : endpointTable addrs worldSize rails (endpointPayload addrs
      (tableLines addrs published peerIp)) = _ :=
    endpointTable_tableLines textual positive sized rank
  simpa [receiveTable, tableFrame, validateResponse, rejectIf,
    endpointNetwork, declaredHeader, tableHeader, FrameHeader.collective,
    okOr] using table

/-- The exchange ends with the table for a rank exactly when all lists are usable and
the table fits into a frame. -/
theorem exchangedTable_eq_ok_iff (textual : addrs.Textual)
    (positive : 0 < rails) (rank : Fin worldSize.toNat)
    (table : List (List Addr)) :
    exchangedTable addrs checksum uniqueId worldSize rails published peerIp rank = .ok table ↔
      ((∀ rank, Publishes addrs rails (published rank)) ∧
        (endpointPayload addrs (tableLines addrs published
          peerIp)).length ≤ maxFramePayloadBytes) ∧
        table = peerTable addrs published peerIp := by
  have world : 0 < worldSize.toNat := lt_of_le_of_lt (Nat.zero_le _) rank.isLt
  have served (responses : List Frame) :
      exchangePeerEndpointsServer addrs checksum uniqueId worldSize rails
        (List.ofFn (publishingStream addrs checksum uniqueId worldSize rails
          published peerIp)) = .ok responses ↔ _ :=
    server_eq_ok_iff textual positive world responses
  rw [exchangedTable, exchangePeerEndpointsClient, answerTo]
  cases result : exchangePeerEndpointsServer addrs checksum uniqueId worldSize
    rails (List.ofFn (publishingStream addrs checksum uniqueId worldSize rails
      published peerIp)) with
  | error failure =>
      rw [result] at served
      constructor
      · intro done
        obtain ⟨_, _, received⟩ := of_bind done
        cases received
      · rintro ⟨⟨all, fits⟩, _⟩
        cases (served _).mpr ⟨all, fits, rfl⟩
  | ok responses =>
      obtain ⟨all, fits, rfl⟩ := (served responses).mp result
      have request : endpointRequest addrs checksum uniqueId worldSize rails
          (UInt32.ofNat rank) (published rank) = .ok _ :=
        (endpointRequest_eq_ok_iff textual positive rank _ _).mpr
          ⟨(all rank).sized, (all rank).fits, rfl⟩
      have own : (List.ofFn (tableFrame addrs checksum uniqueId worldSize
          rails (tableLines addrs published peerIp)))[rank.val]? =
            some (tableFrame addrs checksum uniqueId worldSize rails
              (tableLines addrs published peerIp) rank) := by
        rw [List.getElem?_ofFn, dif_pos rank.isLt]
      simp only [request, ok_bind, endpointNetwork, own,
        receiveTable_tableFrame textual positive fun rank =>
          (all rank).sized, Except.ok.injEq]
      constructor
      · rintro rfl
        exact ⟨⟨all, fits⟩, rfl⟩
      · rintro ⟨_, rfl⟩
        rfl

end Answers

section Malformed

/-- A payload that is not text, has a wrong number of lines or a line that is no
address. -/
def MalformedPayload (addrs : SocketAddrs Addr Ip) (counts : List Nat)
    (payload : List UInt8) : Prop :=
  ∀ text, textOfBytes payload = some text → (lines text).length ∉ counts ∨
      ∃ entry ∈ lines text, addrs.parse entry = none

theorem publishedEndpoints_malformed {payload : List UInt8}
    (malformed : MalformedPayload addrs [1, rails] payload) {rank : Nat}
    {peerIp : Ip} {result : Bool × List Addr} :
    publishedEndpoints addrs rails rank peerIp payload ≠ .ok result := by
  intro read
  obtain ⟨text, decoded, read⟩ := of_bind read
  obtain ⟨_, counted, read⟩ := of_bind read
  obtain ⟨endpoints, parsed, _⟩ := of_bind read
  rw [okOr_eq_ok_iff] at decoded
  rw [rejectIf_eq_ok_iff] at counted
  rcases malformed text decoded with wrong | ⟨entry, among, unparsable⟩
  · simp only [List.mem_cons, List.not_mem_nil, or_false, not_or] at wrong
    exact counted wrong
  · obtain ⟨rail, located⟩ := List.getElem?_of_mem among
    have indexed : (entry, rail) ∈ (lines text).zipIdx :=
      List.mk_mem_zipIdx_iff_getElem?.mpr located
    obtain ⟨value, accepted⟩ := exists_ok_of_mapM_ok parsed indexed
    dsimp only at accepted
    rw [publishedEntry, unparsable] at accepted
    cases accepted

/-- The coordinator takes no table from a malformed payload. -/
theorem server_malformed {streams : List (RankStream Ip)} {rank : Nat}
    {stream : RankStream Ip} {frame : Frame}
    (located : streams[rank]? = some stream)
    (sent : stream.frame = .ok (some frame))
    (malformed : MalformedPayload addrs [1, rails] frame.payload)
    (responses : List Frame) :
    exchangePeerEndpointsServer addrs checksum uniqueId worldSize rails
      streams ≠ .ok responses := by
  intro answered
  obtain ⟨rows, ran, _⟩ := of_bind answered
  have indexed : (stream, rank) ∈ streams.zipIdx := List.mk_mem_zipIdx_iff_getElem?.mpr located
  obtain ⟨row, read⟩ := exists_ok_of_mapM_ok ran indexed
  dsimp only at read
  rw [readEndpoints, sent] at read
  obtain ⟨_, received, read⟩ := of_bind read
  cases received
  rw [okOr_some, ok_bind] at read
  obtain ⟨_, _, read⟩ := of_bind read
  exact publishedEndpoints_malformed malformed read

/-- Nor does a rank. -/
theorem receiveTable_malformed {response : Frame}
    (malformed : MalformedPayload addrs
      [worldSize.toNat, worldSize.toNat * rails] response.payload)
    (rank : UInt32) (table : List (List Addr)) :
    receiveTable addrs uniqueId worldSize rails rank (some response) ≠
      .ok table := by
  intro received
  rw [receiveTable, okOr_some, ok_bind] at received
  obtain ⟨_, _, received⟩ := of_bind received
  obtain ⟨_, _, received⟩ := of_bind received
  obtain ⟨text, decoded, received⟩ := of_bind received
  obtain ⟨flat, parsed, received⟩ := of_bind received
  rw [okOr_eq_ok_iff] at decoded
  have length : flat.length = (lines text).length := by
    have lengths := congrArg List.length (mapM_eq_ok_iff.mp parsed)
    rw [List.length_map, List.length_map] at lengths
    exact lengths.symm
  rcases malformed text decoded with wrong | ⟨entry, among, unparsable⟩
  · simp only [List.mem_cons, List.not_mem_nil, or_false, not_or, ← length] at wrong
    rw [if_neg wrong.1] at received
    obtain ⟨_, counted, _⟩ := of_bind received
    exact (rejectIf_eq_ok_iff ..).mp counted wrong.2
  · obtain ⟨value, accepted⟩ := exists_ok_of_mapM_ok parsed among
    rw [unparsable] at accepted
    cases accepted

end Malformed

section Agreement

variable [DecidableEq Addr]

/-- After the exchange every rank has the same table: the endpoint that rank `r`
published for rail `k` stands at row `r`, column `k`, with the address that the
coordinator saw in place of an unspecified one.  The exchange succeeds for all ranks
when their lists are usable and fit into a frame, and otherwise for none; malformed
payloads are errors. -/
theorem peer_endpoint_tables_agree (addrs : SocketAddrs Addr Ip)
    (textual : addrs.Textual) (checksum : List UInt8 → UInt32)
    (uniqueId : UniqueId) (worldSize : UInt32) (rails : Nat)
    (positive : 0 < rails) (published : Fin worldSize.toNat → List Addr)
    (peerIp : Fin worldSize.toNat → Ip) :
    (∀ rank table, exchangedTable addrs checksum uniqueId worldSize rails
        published peerIp rank = .ok table ↔
      ((∀ rank, Publishes addrs rails (published rank)) ∧
        (endpointPayload addrs (tableLines addrs published
          peerIp)).length ≤ maxFramePayloadBytes) ∧
        table = List.ofFn fun source =>
          (published source).map fun endpoint =>
            if addrs.isUnspecified endpoint then
              addrs.setIp endpoint (peerIp source)
            else endpoint) ∧
    (∀ (streams : List (RankStream Ip)) (rank : Nat) (stream : RankStream Ip) (frame : Frame),
      streams[rank]? = some stream → stream.frame = .ok (some frame) →
        MalformedPayload addrs [1, rails] frame.payload →
          ∃ error, exchangePeerEndpointsServer addrs checksum uniqueId
            worldSize rails streams = .error error) ∧
    (∀ (rank : UInt32) (response : Frame), MalformedPayload addrs
          [worldSize.toNat, worldSize.toNat * rails] response.payload →
        ∃ error, receiveTable addrs uniqueId worldSize rails rank
          (some response) = .error error) := by
  refine ⟨?_, ?_, ?_⟩
  · intro rank table
    exact exchangedTable_eq_ok_iff textual positive rank table
  · intro streams rank stream frame located sent malformed
    cases result : exchangePeerEndpointsServer addrs checksum uniqueId
      worldSize rails streams with
    | error failure => exact ⟨failure, rfl⟩
    | ok responses => exact absurd result (server_malformed located sent malformed _)
  · intro rank response malformed
    cases result : receiveTable addrs uniqueId worldSize rails rank (some response) with
    | error failure => exact ⟨failure, rfl⟩
    | ok table => exact absurd result (receiveTable_malformed malformed rank _)

/-- Three addresses of the loopback interface. -/
inductive LocalAddr where
  | anyAt9000 | loopbackAt9000 | loopbackAt9001
  deriving DecidableEq

/-- Their texts; the only other end of a stream is the loopback address. -/
def localAddrs : SocketAddrs LocalAddr Unit where
  port
    | .loopbackAt9001 => 9001
    | _ => 9000
  isUnspecified endpoint := endpoint = .anyAt9000
  setIp endpoint _ :=
    match endpoint with
    | .loopbackAt9001 => .loopbackAt9001
    | _ => .loopbackAt9000
  toText
    | .anyAt9000 => "0.0.0.0:9000".toList
    | .loopbackAt9000 => "127.0.0.1:9000".toList
    | .loopbackAt9001 => "127.0.0.1:9001".toList
  parse text :=
    if text = "0.0.0.0:9000".toList then some .anyAt9000
    else if text = "127.0.0.1:9000".toList then some .loopbackAt9000
    else if text = "127.0.0.1:9001".toList then some .loopbackAt9001
    else none

theorem localAddrs_textual : localAddrs.Textual where
  oneLine endpoint := by
    cases endpoint <;> exact ⟨by decide, by decide, by decide⟩
  parse_toText endpoint := by
    cases endpoint <;> decide

/-- Rank 0 listens on one address for both rails, rank 1 on one for each. -/
def localPublished : Fin (2 : UInt32).toNat → List LocalAddr := fun rank =>
    if rank.val = 0 then [.anyAt9000, .anyAt9000]
    else [.loopbackAt9000, .loopbackAt9001]

theorem peer_endpoint_tables_agree_two :
    exchangedTable localAddrs (fun _ => 0) ⟨List.replicate 16 7, rfl⟩ 2 2
        localPublished (fun _ => ()) ⟨1, by decide⟩ =
      .ok [[.loopbackAt9000, .loopbackAt9000], [.loopbackAt9000, .loopbackAt9001]] := by
  refine ((peer_endpoint_tables_agree localAddrs localAddrs_textual
    (fun _ => 0) ⟨List.replicate 16 7, rfl⟩ 2 2 (by decide) localPublished
      (fun _ => ())).1 _ _).mpr ⟨⟨?_, by decide⟩, by decide⟩
  have usable : ∀ rank, (localPublished rank).length = 2 ∧
      (endpointPayload localAddrs (endpointLines 2 (localPublished rank))).length ≤
          maxFramePayloadBytes ∧
      ∀ endpoint ∈ localPublished rank, localAddrs.port endpoint ≠ 0 := by
    decide
  intro rank
  obtain ⟨sized, fits, ports⟩ := usable rank
  exact ⟨sized, fits, ports⟩

end Agreement

end RuCCL.Rank
