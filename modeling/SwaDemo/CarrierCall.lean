import SwaDemo.SecretsManager
import SwaDemo.TraceForwarding
import SwaDemo.ExternalCarrier

/-!
The portal's client of the carrier (`apps/portal/carrier_client.go`): one call of
`Lookup`, with the connections it opens, the events it emits and the body it reads,
over whatever comes back.
-/
namespace SwaHttp
open SwaTrace

/-- The body of a response: what each `Read` gives, and the error that the last one gives
    in place of `io.EOF`, if it does. -/
structure Body where
  reads : List GoString
  err : Option GoString
  deriving DecidableEq, Repr

/-- The loop of `io.ReadAll`, which has read `b`. -/
def readFrom (b : GoString) (err : Option GoString) : List GoString → GoString × Option GoString
  | [] => (b, err)
  | chunk :: reads => readFrom (b ++ chunk) err reads

def readAll (body : Body) : GoString × Option GoString := readFrom [] body.err body.reads

theorem readFrom_eq (b : GoString) (err : Option GoString) (reads : List GoString) :
    readFrom b err reads = (b ++ reads.flatten, err) := by
  induction reads generalizing b with
  | nil => simp [readFrom]
  | cons chunk reads ih => rw [readFrom, ih, List.flatten_cons, List.append_assoc]

/-- What was read before an error is returned along with it. -/
theorem readAll_eq (body : Body) : readAll body = (body.reads.flatten, body.err) :=
  readFrom_eq [] body.err body.reads

end SwaHttp

namespace SwaPortal
open SwaTrace SwaHttp
open SwaCarrier (pathEscape)
open SwaForward (validShipmentID LookupResult lookupEvents)

/-- `tls.ConnectionState` as far as the client reads it; the suite is its name. -/
structure TLSState where
  cipherSuite : GoString
  peerCertificates : List Certificate
  deriving DecidableEq, Repr

structure WireResponse where
  status : Nat
  tls : Option TLSState
  body : Body
  deriving DecidableEq, Repr

/-- What the client uses of the standard library: why a request cannot be built, if it
    cannot; `Client.Do` with the error of its transport; the host of a URL that parses;
    and `%q`. -/
structure Wire where
  newRequest : GoString → GoString → Option GoString
  send : GoString → Except GoString WireResponse
  host : GoString → Option GoString
  quote : GoString → GoString

structure CarrierClient where
  baseURL : GoString
  traceURL : GoString
  http : Wire

def newCarrierClient (host : GoString) (http : Wire) : CarrierClient :=
  ⟨goString "https://" ++ host ++ goString ":8443",
    goString "https://" ++ host ++ goString ":8444/trace", http⟩

def errCarrierDown : GoString := goString "carrier unreachable"

/-- `errors.Join` of two errors. -/
def joinErrors (first second : GoString) : GoString := first ++ goString "\n" ++ second

def tlsCipherName : Option TLSState → GoString
  | none => goString "none"
  | some s => s.cipherSuite

/-- The first SAN URI from the peer cert, or "" if none. -/
def peerSANURI : Option TLSState → GoString
  | none => []
  | some s => (leafURI s.peerCertificates).getD []

/-- What a call does, in order: it starts the goroutine that connects to the trace, emits
    an event, or sends its request. -/
inductive Did where
  | stream (url : GoString)
  | event (ev : TraceEvent)
  | request (url : GoString)
  deriving DecidableEq, Repr

structure Looked where
  did : List Did
  reply : LookupReply
  deriving DecidableEq, Repr

namespace Looked

def events (l : Looked) : List TraceEvent :=
  l.did.filterMap fun
    | .event ev => some ev
    | _ => none

/-- The addresses that the call opens connections to. -/
def opened (l : Looked) : List GoString :=
  l.did.filterMap fun
    | .stream url => some url
    | .event _ => none
    | .request url => some url

end Looked

namespace CarrierClient
variable (c : CarrierClient)

def hostFromURL (u : GoString) : GoString := (c.http.host u).getD u

def lookupPath (shipmentID : GoString) : GoString :=
  goString "/lookup/" ++ pathEscape shipmentID

def lookupURL (shipmentID : GoString) : GoString := c.baseURL ++ lookupPath shipmentID

def lookup (shipmentID : GoString) : Looked :=
  if validShipmentID shipmentID = false then
    ⟨[], ⟨[], 0, some (goString "invalid shipment id: " ++ c.http.quote shipmentID)⟩⟩
  else
    let started := [.stream c.traceURL, .event (newEvent "portal" "mtls.handshake.start"
      [("peer_host", .str (c.hostFromURL c.baseURL))])]
    match c.http.newRequest (goString "GET") (c.lookupURL shipmentID) with
    | some err => ⟨started, ⟨[], 0, some err⟩⟩
    | none =>
      match c.http.send (c.lookupURL shipmentID) with
      | .error err =>
        ⟨started ++ [.request (c.lookupURL shipmentID),
            .event (newEvent "portal" "mtls.handshake.err" [("err", .str err)])],
          ⟨[], 0, some (joinErrors errCarrierDown err)⟩⟩
      | .ok resp =>
        let (body, _) := readAll resp.body
        ⟨started ++ [.request (c.lookupURL shipmentID),
            .event (newEvent "portal" "mtls.handshake.ok" [
              ("peer_host", .str (c.hostFromURL c.baseURL)),
              ("cipher", .str (tlsCipherName resp.tls)),
              ("peer_san_uri", .str (peerSANURI resp.tls))])],
          ⟨body, resp.status, none⟩⟩

/-- How the call of `/lookup` ended. -/
def result (shipmentID : GoString) : LookupResult :=
  match c.http.newRequest (goString "GET") (c.lookupURL shipmentID) with
  | some _ => .noRequest
  | none =>
    match c.http.send (c.lookupURL shipmentID) with
    | .error err => .unreachable err
    | .ok resp => .replied (tlsCipherName resp.tls) (peerSANURI resp.tls)

variable {c}

theorem lookup_invalid {shipmentID : GoString} (invalid : validShipmentID shipmentID = false) :
    (c.lookup shipmentID).did = [] ∧ (c.lookup shipmentID).reply.err ≠ none := by
  rw [lookup, if_pos invalid]
  exact ⟨rfl, by simp⟩

/-- The events of a call: the start of the handshake and then how the call ended. -/
theorem lookup_events {shipmentID : GoString} (valid : validShipmentID shipmentID = true) :
    (c.lookup shipmentID).events =
      newEvent "portal" "mtls.handshake.start" [("peer_host", .str (c.hostFromURL c.baseURL))] ::
        lookupEvents (c.hostFromURL c.baseURL) (c.result shipmentID) := by
  rw [lookup, if_neg (by simp [valid]), result]
  cases c.http.newRequest (goString "GET") (c.lookupURL shipmentID) with
  | some err => rfl
  | none =>
    cases c.http.send (c.lookupURL shipmentID) with
    | error err => rfl
    | ok resp => rfl

/-- The connections of a call: the trace, and the lookup where its request can be built. -/
theorem lookup_opened {shipmentID : GoString} (valid : validShipmentID shipmentID = true) :
    (c.lookup shipmentID).opened = c.traceURL ::
      (match c.http.newRequest (goString "GET") (c.lookupURL shipmentID) with
      | some _ => []
      | none => [c.lookupURL shipmentID]) := by
  rw [lookup, if_neg (by simp [valid])]
  cases c.http.newRequest (goString "GET") (c.lookupURL shipmentID) with
  | some err => rfl
  | none =>
    cases c.http.send (c.lookupURL shipmentID) with
    | error err => rfl
    | ok resp => rfl

theorem lookup_replied {shipmentID : GoString} {resp : WireResponse}
    (valid : validShipmentID shipmentID = true)
    (built : c.http.newRequest (goString "GET") (c.lookupURL shipmentID) = none)
    (sent : c.http.send (c.lookupURL shipmentID) = .ok resp) :
    (c.lookup shipmentID).reply = ⟨resp.body.reads.flatten, resp.status, none⟩ := by
  rw [lookup, if_neg (by simp [valid])]
  simp only [built, sent, readAll_eq]

end CarrierClient
end SwaPortal
