import RuCCL.Library.Segment
import RuCCL.Library.Text
import RuCCL.Rank.Session

/-!
# The table of direct peer endpoints

Every rank publishes the addresses it listens on, one for all rails or one for each
rail, as lines of text.  The coordinator puts them together and sends the table back
to all ranks, again in one of two layouts.  Socket addresses are a parameter, with
their text and their parser.
-/

namespace RuCCL.Rank

open RuCCL.Library

/-- What the exchange uses of socket addresses. -/
structure SocketAddrs (Addr Ip : Type) where
  port : Addr → Nat
  isUnspecified : Addr → Bool
  setIp : Addr → Ip → Addr
  toText : Addr → List Char
  parse : List Char → Option Addr

/-- The text of an address is one line, and parsing it gives the address back. -/
structure SocketAddrs.Textual {Addr Ip : Type} (addrs : SocketAddrs Addr Ip) :
    Prop where
  oneLine : ∀ endpoint, OneLine (addrs.toText endpoint)
  parse_toText : ∀ endpoint, addrs.parse (addrs.toText endpoint) = some endpoint

/-- The messages of the exchange, each with the values that it prints. -/
inductive EndpointError where
  | network (error : NetworkError)
  | closedBeforePublishing (rank : Nat)
  | invalidFrame (rank : Nat) (header : FrameHeader) (payloadBytes : Nat)
  | notUtf8 (rank : Nat)
  | wrongEntries (rank entries rails : Nat)
  | invalidEntry (rank : Nat) (entry : List Char) (rail : Nat)
  | portZero (rank rail : Nat)
  | wrongEndpoints (rank endpoints rails : Nat)
  | closedBeforeTable
  | invalidTable
  | tableNotUtf8
  | invalidTableEntry (entry : List Char)
  | wrongTable (entries worldSize expected : Nat)
  deriving DecidableEq

/-- An error of the session or of the protocol. -/
def endpointNetwork {α : Type} : Except NetworkError α → Except EndpointError α
  | .ok value => .ok value
  | .error error => .error (.network error)

def endpointProtocol {α : Type} (result : Except ProtocolError α) :
    Except EndpointError α :=
  endpointNetwork (result.mapError NetworkError.protocol)

section Exchange

variable {Addr Ip : Type} (addrs : SocketAddrs Addr Ip)
variable (checksum : List UInt8 → UInt32) (uniqueId : UniqueId)
variable (worldSize : UInt32) (rails : Nat)

/-- Addresses as a payload, one in a line. -/
def endpointPayload (endpoints : List Addr) : List UInt8 :=
  textBytes (joinLines (endpoints.map addrs.toText))

/-- The stream of a rank: what reading a frame from it returns, and the address
that the coordinator sees at its other end. -/
structure RankStream (Ip : Type) where
  frame : Except NetworkError (Option Frame)
  peerIp : Ip

/-- Whether a frame is not one that publishes the endpoints of `rank`. -/
def InvalidEndpointFrame (rank : Nat) (frame : Frame) : Prop :=
  frame.header.opcode ≠ .peerEndpoint ∨ frame.header.elementType ≠ .u8 ∨
    frame.header.uniqueId ≠ uniqueId ∨
    frame.header.sourceRank.toNat ≠ rank ∨
    frame.header.destinationRank ≠ anyRank ∨
    frame.header.rootRank ≠ anyRank ∨
    frame.header.worldSize ≠ worldSize ∨
    frame.header.sequence ≠ 0 ∨
    frame.header.tag ≠ UInt64.ofNat rails ∨
    frame.header.flags ≠ flagPayload ∨
    frame.header.elementCount ≠ UInt64.ofNat frame.payload.length ∨
    frame.payload = []

instance (rank : Nat) (frame : Frame) :
    Decidable (InvalidEndpointFrame uniqueId worldSize rails rank frame) :=
  inferInstanceAs (Decidable (_ ∨ _))

/-- An unspecified address becomes the one at the other end of the stream. -/
def seenFrom (peerIp : Ip) (endpoint : Addr) : Addr :=
  if addrs.isUnspecified endpoint then addrs.setIp endpoint peerIp
  else endpoint

/-- One line of a published payload. -/
def publishedEntry (rank : Nat) (peerIp : Ip) (entry : List Char)
    (rail : Nat) : Except EndpointError Addr := do
  let endpoint ← okOr (addrs.parse entry) (.invalidEntry rank entry rail)
  rejectIf (addrs.port endpoint = 0) (.portZero rank rail)
  .ok (seenFrom addrs peerIp endpoint)

/-- A single endpoint is the one of every rail. -/
def resizeShared : List Addr → List Addr
  | [endpoint] => List.replicate rails endpoint
  | endpoints => endpoints

/-- The endpoints behind a published payload, and whether it had one line only. -/
def publishedEndpoints (rank : Nat) (peerIp : Ip) (payload : List UInt8) :
    Except EndpointError (Bool × List Addr) := do
  let text ← okOr (textOfBytes payload) (.notUtf8 rank)
  let entries := lines text
  rejectIf (entries.length ≠ 1 ∧ entries.length ≠ rails) (.wrongEntries rank entries.length rails)
  let endpoints ← entries.zipIdx.mapM fun (entry, rail) =>
    publishedEntry addrs rank peerIp entry rail
  .ok (entries.length = 1, resizeShared rails endpoints)

/-- Read what a rank publishes. -/
def readEndpoints (rank : Nat) (stream : RankStream Ip) :
    Except EndpointError (Bool × List Addr) := do
  let received ← endpointNetwork stream.frame
  let frame ← okOr received (.closedBeforePublishing rank)
  rejectIf (InvalidEndpointFrame uniqueId worldSize rails rank frame)
    (.invalidFrame rank frame.header frame.payload.length)
  publishedEndpoints addrs rails rank stream.peerIp frame.payload

/-- The endpoints of the table, one for each rank when all ranks have published one
line. -/
def flatTable (published : List (Bool × List Addr)) : List Addr :=
  let shared := published.all Prod.fst
  published.flatMap fun (_, endpoints) =>
    if shared then endpoints.take 1 else endpoints

/-- The header of the response to `rank`. -/
def tableHeader (rank bytes : Nat) : FrameHeader :=
  { FrameHeader.collective checksum uniqueId .peerEndpoint .u8 0 anyRank
      worldSize 0 (UInt64.ofNat bytes) with
    destinationRank := UInt32.ofNat rank
    tag := UInt64.ofNat rails }

/-- The responses to all ranks. -/
def exchangePeerEndpointsServer (streams : List (RankStream Ip)) :
    Except EndpointError (List Frame) := do
  let published ← streams.zipIdx.mapM fun (stream, rank) =>
    readEndpoints addrs uniqueId worldSize rails rank stream
  let table := endpointPayload addrs (flatTable published)
  (List.range streams.length).mapM fun rank =>
    endpointProtocol (Frame.new checksum
      (tableHeader checksum uniqueId worldSize rails rank table.length) table)

variable [DecidableEq Addr]

/-- All neighbours in a list are equal. -/
def sharedEndpoint (endpoints : List Addr) : Bool :=
  (endpoints.zip endpoints.tail).all fun (first, second) => first = second

/-- The endpoints that a rank writes down. -/
def endpointLines (endpoints : List Addr) : List Addr :=
  endpoints.take (if sharedEndpoint endpoints then 1 else rails)

/-- The header of the request of `rank`. -/
def endpointHeader (rank : UInt32) (bytes : Nat) : FrameHeader :=
  { FrameHeader.collective checksum uniqueId .peerEndpoint .u8 rank anyRank
      worldSize 0 (UInt64.ofNat bytes) with
    tag := UInt64.ofNat rails }

/-- The frame that a rank sends. -/
def endpointRequest (rank : UInt32) (endpoints : List Addr) :
    Except EndpointError Frame := do
  rejectIf (endpoints.length ≠ rails) (.wrongEndpoints rank.toNat endpoints.length rails)
  let payload := endpointPayload addrs (endpointLines rails endpoints)
  endpointProtocol (Frame.new checksum
    (endpointHeader checksum uniqueId worldSize rails rank payload.length)
    payload)

/-- The table behind the payload of a response. -/
def endpointTable (payload : List UInt8) :
    Except EndpointError (List (List Addr)) := do
  let text ← okOr (textOfBytes payload) .tableNotUtf8
  let flat ← (lines text).mapM fun entry =>
    okOr (addrs.parse entry) (.invalidTableEntry entry)
  if flat.length = worldSize.toNat then
    .ok (flat.map fun endpoint => List.replicate rails endpoint)
  else do
    rejectIf (flat.length ≠ worldSize.toNat * rails)
      (.wrongTable flat.length worldSize.toNat (worldSize.toNat * rails))
    .ok (exactSegments rails flat)

/-- The part of the exchange behind the read of the response. -/
def receiveTable (rank : UInt32) (received : Option Frame) :
    Except EndpointError (List (List Addr)) := do
  let response ← okOr received .closedBeforeTable
  endpointNetwork (validateResponse uniqueId response rank worldSize 0)
  rejectIf (response.header.opcode ≠ .peerEndpoint ∨ response.header.elementType ≠ .u8 ∨
      response.header.tag ≠ UInt64.ofNat rails ∨
      response.header.elementCount ≠ UInt64.ofNat response.payload.length)
    .invalidTable
  endpointTable addrs worldSize rails response.payload

/-- A rank writes its request and reads the response; `answer` is what comes back
to the request. -/
def exchangePeerEndpointsClient (rank : UInt32) (endpoints : List Addr)
    (answer : Frame → Except NetworkError (Option Frame)) :
    Except EndpointError (List (List Addr)) := do
  let request ← endpointRequest addrs checksum uniqueId worldSize rails rank endpoints
  let received ← endpointNetwork (answer request)
  receiveTable addrs uniqueId worldSize rails rank received

variable (published : Fin worldSize.toNat → List Addr)
variable (peerIp : Fin worldSize.toNat → Ip)

/-- What the coordinator finds on the stream of a rank; a rank that has failed has
closed it. -/
def publishingStream (rank : Fin worldSize.toNat) : RankStream Ip where
  frame := .ok (endpointRequest addrs checksum uniqueId worldSize rails
    (UInt32.ofNat rank) (published rank)).toOption
  peerIp := peerIp rank

/-- What the coordinator answers to a rank; it closes all streams when it fails. -/
def answerTo (rank : Fin worldSize.toNat) : Option Frame :=
  match exchangePeerEndpointsServer addrs checksum uniqueId worldSize rails
    (List.ofFn (publishingStream addrs checksum uniqueId worldSize rails published peerIp)) with
  | .ok responses => responses[rank.val]?
  | .error _ => none

/-- How the exchange ends for a rank. -/
def exchangedTable (rank : Fin worldSize.toNat) : Except EndpointError (List (List Addr)) :=
  exchangePeerEndpointsClient addrs checksum uniqueId worldSize rails
    (UInt32.ofNat rank) (published rank)
    fun _ => .ok (answerTo addrs checksum uniqueId worldSize rails published peerIp rank)

end Exchange

end RuCCL.Rank
