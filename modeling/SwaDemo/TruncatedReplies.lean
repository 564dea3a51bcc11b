import SwaDemo.CarrierCall

/-!
Replies that break off. The three calls read a body to its end and drop the error that
`io.ReadAll` gives beside what it could read, so a cut body is taken for a whole one.
Only a token of no bytes at all is noticed, by the check for an empty token.
-/
namespace SwaCarrier
open SwaTrace SwaHttp

/-- An answer of the Secrets Manager before its body is read. -/
structure WireReply where
  status : Nat
  version : GoString
  body : Body
  deriving DecidableEq, Repr

structure SMWire where
  newRequest : GoString → GoString → Option GoString
  send : HttpRequest → Except GoString WireReply

/-- `body, _ := io.ReadAll(resp.Body)` -/
def WireReply.read (r : WireReply) : HttpReply := ⟨r.status, r.version, (readAll r.body).1⟩

def SMWire.client (w : SMWire) : HttpClient :=
  ⟨w.newRequest, fun req => (w.send req).map WireReply.read⟩

end SwaCarrier

namespace SwaReplies
open SwaTrace SwaHttp SwaCarrier SwaPortal
open SwaForward (validShipmentID)

/-- The two services' clients. -/
structure Clients where
  smURL : GoString
  wire : SMWire
  codec : TokenCodec
  carrier : CarrierClient

def Clients.sm (c : Clients) : SMClient := newSMClient c.smURL c.wire.client c.codec

inductive Call where
  | authnJWT (jwtSVID : GoString)
  | fetchSecret (smToken variableID : GoString)
  | lookup (shipmentID : GoString)
  deriving DecidableEq, Repr

/-- The error a call returns, and the token, secret or manifest beside it. -/
def Call.returns (c : Clients) : Call → Option GoString × GoString
  | .authnJWT jwtSVID => ((c.sm.authnJWT jwtSVID).err, (c.sm.authnJWT jwtSVID).token)
  | .fetchSecret smToken variableID =>
    ((c.sm.fetchSecret smToken variableID).err, (c.sm.fetchSecret smToken variableID).secret)
  | .lookup shipmentID =>
    ((c.carrier.lookup shipmentID).reply.err, (c.carrier.lookup shipmentID).reply.body)

/-- A call's request is built and sent, and answered with a status and a body. -/
inductive Exchange (c : Clients) : Call → Nat → Body → Prop where
  | authnJWT {jwtSVID : GoString} {reply : WireReply}
      (built : c.wire.newRequest (goString "POST") c.sm.authnURL = none)
      (sent : c.wire.send (c.sm.authnRequest jwtSVID) = .ok reply) :
      Exchange c (.authnJWT jwtSVID) reply.status reply.body
  | fetchSecret {smToken variableID : GoString} {reply : WireReply}
      (built : c.wire.newRequest (goString "GET") (c.sm.secretURL variableID) = none)
      (sent : c.wire.send (c.sm.secretRequest smToken variableID) = .ok reply) :
      Exchange c (.fetchSecret smToken variableID) reply.status reply.body
  | lookup {shipmentID : GoString} {resp : WireResponse}
      (valid : validShipmentID shipmentID = true)
      (built : c.carrier.http.newRequest (goString "GET") (c.carrier.lookupURL shipmentID) = none)
      (sent : c.carrier.http.send (c.carrier.lookupURL shipmentID) = .ok resp) :
      Exchange c (.lookup shipmentID) resp.status resp.body

variable {c : Clients}

theorem sm_send {req : HttpRequest} {reply : WireReply} (sent : c.wire.send req = .ok reply) :
    c.sm.http.send req = .ok reply.read := by
  have send : c.sm.http.send req = (c.wire.send req).map WireReply.read := rfl
  rw [send, sent]
  rfl

theorem read_body (reply : WireReply) : reply.read.body = reply.body.reads.flatten := by
  rw [WireReply.read, readAll_eq]

/-- Answered with 200, a call returns what it could read, however the body ended; the
    one thing it objects to is an empty token. -/
theorem returns_read {call : Call} {status : Nat} {body : Body}
    (exchange : Exchange c call status body) (ok : status = 200) :
    (call.returns c).2 = body.reads.flatten ∧
      ((call.returns c).1 ≠ none ↔ (∃ jwtSVID, call = .authnJWT jwtSVID) ∧ body.reads.flatten = []) := by
  cases exchange with
  | @authnJWT jwtSVID reply built sent =>
    have answer := sm_send sent
    have request : c.sm.http.newRequest (goString "POST") c.sm.authnURL = none := built
    have text := read_body reply
    have status : reply.read.status = 200 := ok
    generalize reply.body.reads.flatten = read at text ⊢
    by_cases empty : read = []
    · simp [Call.returns, SMClient.authnJWT, request, answer, status, text, empty]
    · simp [Call.returns, SMClient.authnJWT, request, answer, status, text, empty]
  | @fetchSecret smToken variableID reply built sent =>
    have answer := sm_send sent
    have request : c.sm.http.newRequest (goString "GET") (c.sm.secretURL variableID) = none := built
    have text := read_body reply
    have status : reply.read.status = 200 := ok
    simp [Call.returns, SMClient.fetchSecret, request, answer, status, text]
  | lookup valid built sent =>
    simp [Call.returns, CarrierClient.lookup_replied valid built sent]

/-- A reply with status 200 whose body breaks off is reported as an error exactly if it
    is that of `AuthnJWT` and breaks off before its first byte. -/
theorem truncated_reply_fails {call : Call} {body : Body} (exchange : Exchange c call 200 body)
    (_cut : body.err ≠ none) :
    (call.returns c).1 ≠ none ↔ (∃ jwtSVID, call = .authnJWT jwtSVID) ∧ body.reads.flatten = [] :=
  (returns_read exchange rfl).2

/-- Everything is answered with 200 and the first bytes of a body, then the connection is
    reset. -/
def resetAfter (reads : List GoString) : Clients where
  smURL := goString "https://sm/"
  wire := ⟨fun _ _ => none,
    fun _ => .ok ⟨200, [], ⟨reads, some (goString "connection reset by peer")⟩⟩⟩
  codec := ⟨fun _ => none, fun _ => none, fun _ => none, fun _ => none⟩
  carrier := newCarrierClient (goString "carrier") ⟨fun _ _ => none,
    fun _ => .ok ⟨200, none, ⟨reads, some (goString "connection reset by peer")⟩⟩, fun _ => none, id⟩

theorem reset_before_token :
    ((Call.authnJWT (goString "e30.e30.c2ln")).returns (resetAfter [])).1 ≠ none :=
  (truncated_reply_fails (@Exchange.authnJWT _ _
    ⟨200, [], ⟨[], some (goString "connection reset by peer")⟩⟩ rfl rfl) (by decide)).mpr
    ⟨⟨_, rfl⟩, rfl⟩

/-- A secret that breaks off after three bytes is returned as the secret. -/
theorem partial_secret_accepted :
    ¬ ∀ (c : Clients) (call : Call) (body : Body), Exchange c call 200 body → body.err ≠ none →
      (call.returns c).1 ≠ none := by
  intro all
  have errs := all (resetAfter [goString "s3c"]) (.fetchSecret (goString "token") (goString "key"))
    ⟨[goString "s3c"], some (goString "connection reset by peer")⟩
    (@Exchange.fetchSecret _ _ _
      ⟨200, [], ⟨[goString "s3c"], some (goString "connection reset by peer")⟩⟩ rfl rfl) (by decide)
  exact errs rfl

end SwaReplies
