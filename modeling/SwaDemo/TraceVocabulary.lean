import SwaDemo.CarrierCall
import SwaDemo.CarrierLookup
import SwaDemo.TraceBus
import SwaDemo.SseFrames

/-!
The vocabulary of the trace: every type of event that the code of the two services emits, with
the keys of its payload. The handlers of `/resolve` and `/lookup/` say nothing outside of it,
whatever they are asked and whatever they meet.
-/
namespace SwaTrace

/-- An event's type and the keys of its payload, as the code lists them. -/
abbrev Shape := String × List String

def TraceEvent.shape (ev : TraceEvent) : Shape := (ev.type, ev.payload.map (·.1))

def carrierShapes : List Shape := [
  ("boot", ["sm_url", "secret_id", "portal_spiffe"]),
  ("request.received", ["id"]),
  ("jwt_svid.error", ["err"]),
  ("jwt_svid.issued", ["aud", "exp", "spiffe_id", "alg", "kid", "iss", "iat", "jti", "typ", "raw"]),
  ("sm.authn_jwt.err", ["err"]),
  ("sm.authn_jwt.ok", ["url", "method", "status", "token_redacted", "token_ttl_seconds", "scope",
    "token_len"]),
  ("sm.secret_fetched.err", ["err"]),
  ("sm.secret_fetched.empty", []),
  ("sm.secret_fetched.ok", ["url", "method", "status", "secret_id", "version", "policy_scope", "bytes"]),
  ("carrier.lookup.miss", ["id"]),
  ("carrier.lookup.ok", ["id"])]

def portalShapes : List Shape := [
  ("boot", ["carrier_host", "carrier_spiffe", "server_group", "attestor", "secret_id", "acme_host"]),
  ("portal.resolve.requested", ["id", "carrier"]),
  ("portal.resolve.rejected", ["reason"]),
  ("portal.resolve.error", ["err"]),
  ("mtls.handshake.start", ["peer_host"]),
  ("mtls.handshake.err", ["err"]),
  ("mtls.handshake.ok", ["peer_host", "cipher", "peer_san_uri"]),
  ("mtls.handshake.unexpected_ok", ["peer_host"]),
  ("mtls.peer_uri_seen", ["uri"]),
  ("carrier.trace.unreachable", ["err"]),
  ("carrier.event.raw", ["frame"])]

theorem shape_stamp (now : Int) (ev : TraceEvent) : (SwaBus.TraceBus.stamp now ev).shape = ev.shape := by
  unfold SwaBus.TraceBus.stamp
  split <;> rfl

theorem shape_raw (frame : GoString) : (SwaFrames.rawEvent frame).shape ∈ portalShapes := by
  have shape : (SwaFrames.rawEvent frame).shape = ("carrier.event.raw", ["frame"]) := rfl
  rw [shape]
  simp [portalShapes]

end SwaTrace

namespace SwaCarrier
open SwaTrace

/-- All that has been emitted is in the carrier's vocabulary. -/
def Spoken (s : Served) : Prop := ∀ ev ∈ s.events, ev.shape ∈ carrierShapes

theorem spoken_emit {type : String} {payload : Payload} {rest : Served}
    (known : (type, payload.map (·.1)) ∈ carrierShapes) (later : Spoken rest) :
    Spoken (emit type payload rest) := by
  intro ev mem
  rcases List.mem_cons.mp mem with rfl | mem
  · exact known
  · exact later ev mem

theorem spoken_error (text : String) (code : Nat) : Spoken (httpError text code) := by
  simp [Spoken, httpError]

theorem spoken_panics : Spoken panics := by
  simp [Spoken, panics]

section lookup
variable (c : Codec) (fixtures : GoString → Option Payload)

theorem spoken_answer (id : GoString) : Spoken (answer c fixtures id) := by
  unfold answer
  cases fixtures id with
  | none => exact spoken_emit (by simp [carrierShapes]) (spoken_error _ _)
  | some row => exact spoken_emit (by simp [carrierShapes]) (by simp [Spoken])

theorem spoken_fetched (id : GoString) (reply : SecretReply) : Spoken (fetched c fixtures id reply) := by
  unfold fetched
  cases reply.err with
  | some err => exact spoken_emit (by simp [carrierShapes]) (spoken_error _ _)
  | none =>
    simp only
    split
    · exact spoken_emit (by simp [carrierShapes]) (spoken_error _ _)
    · cases reply.info with
      | none => exact spoken_panics
      | some info => exact spoken_emit (by simp [carrierShapes]) (spoken_answer c fixtures id)

theorem spoken_authenticated (d : HandlerDeps) (id : GoString) (reply : AuthnReply) :
    Spoken (authenticated c fixtures d id reply) := by
  unfold authenticated
  cases reply.err with
  | some err => exact spoken_emit (by simp [carrierShapes]) (spoken_error _ _)
  | none =>
    cases reply.info with
    | none => exact spoken_panics
    | some info => exact spoken_emit (by simp [carrierShapes]) (spoken_fetched c fixtures id _)

/-- The handler of `/lookup/` emits nothing but the carrier's vocabulary. -/
theorem spoken_lookup (d : HandlerDeps) (path : GoString) : Spoken (handleLookup c fixtures d path) := by
  unfold handleLookup
  simp only
  split
  · exact spoken_error _ _
  · refine spoken_emit (by simp [carrierShapes]) ?_
    cases d.fetchJWTSVID.err with
    | some err => exact spoken_emit (by simp [carrierShapes]) (spoken_error _ _)
    | none =>
      cases d.fetchJWTSVID.svid with
      | none => exact spoken_panics
      | some svid => exact spoken_emit (by simp [carrierShapes]) (spoken_authenticated c fixtures d _ _)

end lookup
end SwaCarrier

namespace SwaPortal
open SwaTrace
open SwaCarrier (Served httpError)

/-- All that has been emitted is in the portal's vocabulary. -/
def Spoken (s : Served) : Prop := ∀ ev ∈ s.events, ev.shape ∈ portalShapes

theorem spoken_emit {type : String} {payload : Payload} {rest : Served}
    (known : (type, payload.map (·.1)) ∈ portalShapes) (later : Spoken rest) :
    Spoken (emit type payload rest) := by
  intro ev mem
  rcases List.mem_cons.mp mem with rfl | mem
  · exact known
  · exact later ev mem

theorem spoken_after {events : List TraceEvent} {rest : Served}
    (known : ∀ ev ∈ events, ev.shape ∈ portalShapes) (later : Spoken rest) :
    Spoken (after events rest) := by
  intro ev mem
  rcases List.mem_append.mp mem with early | late
  · exact known ev early
  · exact later ev late

/-- A call of the carrier's client. -/
theorem spoken_call (client : CarrierClient) (id : GoString) :
    ∀ ev ∈ (client.lookup id).events, ev.shape ∈ portalShapes := by
  intro ev mem
  cases check : SwaForward.validShipmentID id with
  | false =>
    have none_ := (CarrierClient.lookup_invalid (c := client) check).1
    simp [Looked.events, none_] at mem
  | true =>
    rw [CarrierClient.lookup_events check] at mem
    rcases List.mem_cons.mp mem with rfl | mem
    · simp [TraceEvent.shape, newEvent, portalShapes]
    · cases ended : client.result id with
      | noRequest => simp [ended, SwaForward.lookupEvents] at mem
      | unreachable err =>
        rw [ended, SwaForward.lookupEvents, List.mem_singleton] at mem
        simp [mem, TraceEvent.shape, newEvent, portalShapes]
      | replied cipher uri =>
        rw [ended, SwaForward.lookupEvents, List.mem_singleton] at mem
        simp [mem, TraceEvent.shape, newEvent, portalShapes]

/-- A call of the external carrier's client. -/
theorem spoken_external (addr : GoString) (dial : Except GoError Unit) (id : GoString) :
    ∀ ev ∈ (resolve addr dial id).1, ev.shape ∈ portalShapes := by
  intro ev mem
  have start : (newEvent "portal" "mtls.handshake.start" [("peer_host", .str addr)]).shape ∈ portalShapes := by
    simp [TraceEvent.shape, newEvent, portalShapes]
  cases dial with
  | ok connected =>
    rcases List.mem_cons.mp mem with rfl | mem
    · exact start
    · rw [List.mem_singleton.mp mem]
      simp [TraceEvent.shape, newEvent, portalShapes]
  | error err =>
    rcases List.mem_cons.mp mem with rfl | mem
    · exact start
    · rcases List.mem_append.mp mem with seen | last
      · unfold seenURI at seen
        split at seen
        · rw [List.mem_singleton.mp seen]
          simp [TraceEvent.shape, newEvent, portalShapes]
        · simp at seen
      · rw [List.mem_singleton.mp last]
        simp [TraceEvent.shape, newEvent, portalShapes]

/-- The handler of `/resolve` over the two clients emits nothing but the portal's vocabulary. -/
theorem spoken_resolve (decode : GoString → Option ResolveReq) (client : CarrierClient) (addr : GoString)
    (dial : Except GoError Unit) (method : String) (body : GoString) :
    Spoken (handleResolve decode (fun id => ((client.lookup id).events, (client.lookup id).reply))
      (resolve addr dial) method body) := by
  have rejected_ (reason : String) : ∀ ev ∈ [rejected reason], ev.shape ∈ portalShapes := by
    intro ev mem
    rw [List.mem_singleton.mp mem]
    simp [rejected, TraceEvent.shape, newEvent, portalShapes]
  have refused (text : String) (code : Nat) : Spoken (httpError text code) := by
    simp [Spoken, httpError]
  unfold handleResolve
  by_cases post : method ≠ "POST"
  · rw [if_pos post]
    exact refused _ _
  rw [if_neg post]
  cases decode body with
  | none => exact refused _ _
  | some req =>
    simp only
    by_cases unnamed : req.shipmentID = []
    · rw [if_pos unnamed]
      exact refused _ _
    rw [if_neg unnamed]
    generalize (if req.carrier = [] then goString "internal" else req.carrier) = carrier
    refine spoken_emit (by simp [portalShapes]) ?_
    by_cases outside : carrier = goString "external"
    · rw [if_pos outside]
      refine spoken_after (spoken_external addr dial _) ?_
      cases (resolve addr dial req.shipmentID).2 with
      | none => exact spoken_after (rejected_ _) (refused _ _)
      | some err => exact spoken_after (rejected_ _) (refused _ _)
    · rw [if_neg outside]
      refine spoken_after (spoken_call client _) ?_
      cases (client.lookup req.shipmentID).reply.err with
      | none => simp [Spoken]
      | some err => exact spoken_emit (by simp [portalShapes]) (refused _ _)

end SwaPortal
