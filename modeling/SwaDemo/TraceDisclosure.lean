import SwaDemo.FailsClosed

/-!
What a lookup discloses of the Secrets Manager's two answers, over HTTP: of a token its first
four bytes, its length and its lifetime, of a secret its version and its length, and of an
answer that is refused the text of the error. The trace is a function of these, and they can be
read off it again.
-/
namespace SwaCarrier
open SwaTrace

/-- What is told of the answer to `FetchSecret`. -/
inductive SecretView where
  | refused (err : GoString)
  | empty
  | granted (version : GoString) (length : Nat)
  deriving DecidableEq, Repr

/-- What is told of the answer to `AuthnJWT`, and of the one after it. -/
inductive View where
  | refused (err : GoString)
  | granted (redacted : GoString) (length : Nat) (lifetime : Int) (secret : SecretView)
  deriving DecidableEq, Repr

namespace SMClient
variable (c : SMClient)

def secretView (smToken variableID : GoString) : SecretView :=
  match c.http.newRequest (goString "GET") (c.secretURL variableID) with
  | some err => .refused err
  | none =>
    match c.http.send (c.secretRequest smToken variableID) with
    | .error err => .refused err
    | .ok reply =>
      if reply.status ≠ 200 then .refused (statusError "fetch-secret" reply)
      else if reply.body.length = 0 then .empty
      else .granted reply.version reply.body.length

/-- The two answers that a lookup gets; the second one is asked for with the token of the
    first. -/
def view (jwtSVID variableID : GoString) : View :=
  match c.http.newRequest (goString "POST") c.authnURL with
  | some err => .refused err
  | none =>
    match c.http.send (c.authnRequest jwtSVID) with
    | .error err => .refused err
    | .ok reply =>
      if reply.status ≠ 200 then .refused (statusError "authn-jwt" reply)
      else if reply.body.length = 0 then .refused (goString "authn-jwt: empty token")
      else
        .granted (redactBearer reply.body) reply.body.length (parseExpiresIn c.codec reply.body)
          (c.secretView reply.body variableID)

/-- The same client over another network. -/
def onNetwork (send : HttpRequest → Except GoString HttpReply) : SMClient :=
  { c with http := { c.http with send := send } }

end SMClient

/-- What a lookup has emitted and answered. -/
def Logged.served (l : Logged) : Served := ⟨l.events, l.response⟩

theorem served_emit (type : String) (payload : Payload) (rest : Logged) :
    (Logged.emit type payload rest).served = emit type payload rest.served := rfl

theorem served_send (reqs : List HttpRequest) (rest : Logged) :
    (Logged.send reqs rest).served = rest.served := by
  simp [Logged.served]

theorem served_logged (s : Served) : s.logged.served = s := by
  simp [Logged.served]

section shown
variable (c : Codec) (fixtures : GoString → Option Payload) (d : LiveDeps) (id : GoString)

/-- The rest of a lookup once the secret has been answered, out of what is told of it. -/
def showSecret : SecretView → Served
  | .refused err =>
    emit "sm.secret_fetched.err" [("err", .str err)] (httpError "policy denies access" 502)
  | .empty => emit "sm.secret_fetched.empty" [] (httpError "empty secret" 502)
  | .granted version length =>
    emit "sm.secret_fetched.ok" [
      ("url", .str (d.client.secretURL d.secretID)),
      ("method", .str (goString "GET")),
      ("status", .int 200),
      ("secret_id", .str d.secretID),
      ("version", .str version),
      ("policy_scope", .str d.secretID),
      ("bytes", .int length)]
      (answer c fixtures id)

def showToken : View → Served
  | .refused err =>
    emit "sm.authn_jwt.err" [("err", .str err)] (httpError "identity rejected" 502)
  | .granted redacted length lifetime secret =>
    emit "sm.authn_jwt.ok" [
      ("url", .str d.client.authnURL),
      ("method", .str (goString "POST")),
      ("status", .int 200),
      ("token_redacted", .str redacted),
      ("token_ttl_seconds", .int lifetime),
      ("scope", .str (goString "secureWorkloadAccess/conjur")),
      ("token_len", .int length)]
      (showSecret c fixtures d id secret)

/-- The payload of `jwt_svid.issued`. -/
def issuedFields (svid : SVID) : Payload :=
  let raw := svid.marshal
  let algKid := d.algKid.getD (parseJWTHeader c) raw
  let claims := decodeJWTClaims c raw
  [("aud", .str (goString "conjur")),
    ("exp", .int svid.expiry),
    ("spiffe_id", .str svid.id),
    ("alg", .str algKid.1),
    ("kid", .str algKid.2),
    ("iss", claim claims "iss"),
    ("iat", claim claims "iat"),
    ("jti", claim claims "jti"),
    ("typ", .str (parseJWTType c raw)),
    ("raw", .str raw)]

theorem liveSecret_shown (token : GoString) :
    (liveSecret c fixtures d id token).served =
      showSecret c fixtures d id (d.client.secretView token d.secretID) := by
  rw [liveSecret, served_send, served_logged]
  unfold SMClient.fetchSecret SMClient.secretView
  cases d.client.http.newRequest (goString "GET") (d.client.secretURL d.secretID) with
  | some err => simp [fetched, showSecret]
  | none =>
    cases d.client.http.send (d.client.secretRequest token d.secretID) with
    | error err => simp [fetched, showSecret]
    | ok reply =>
      by_cases status : reply.status = 200
      · by_cases empty : reply.body = []
        · simp [fetched, showSecret, status, empty]
        · simp [fetched, showSecret, status, empty]
      · simp [fetched, showSecret, status]

theorem liveToken_shown (svid : SVID) :
    (liveToken c fixtures d id svid).served = emit "jwt_svid.issued" (issuedFields c d svid)
      (showToken c fixtures d id (d.client.view svid.marshal d.secretID)) := by
  rw [liveToken, served_emit, served_send]
  refine congrArg (emit "jwt_svid.issued" (issuedFields c d svid)) ?_
  unfold SMClient.view SMClient.authnJWT
  cases d.client.http.newRequest (goString "POST") d.client.authnURL with
  | some err => simp [served_emit, served_logged, showToken]
  | none =>
    cases d.client.http.send (d.client.authnRequest svid.marshal) with
    | error err => simp [served_emit, served_logged, showToken]
    | ok reply =>
      by_cases status : reply.status = 200
      · by_cases empty : reply.body = []
        · simp [served_emit, served_logged, showToken, status, empty]
        · simp [served_emit, liveSecret_shown, showToken, status, empty]
      · simp [served_emit, served_logged, showToken, status]

end shown

/-! ## What can be read off the trace -/

section read
variable {c : Codec} {fixtures : GoString → Option Payload} {d : LiveDeps} {id : GoString}

theorem showSecret_injective {v w : SecretView}
    (same : (showSecret c fixtures d id v).events = (showSecret c fixtures d id w).events) : v = w := by
  cases v with
  | refused err => cases w <;> simp_all [showSecret, emit, newEvent]
  | empty => cases w <;> simp_all [showSecret, emit, newEvent]
  | granted version length =>
    cases w with
    | refused err | empty => simp [showSecret, emit, newEvent] at same
    | granted version' length' =>
      simp only [showSecret, emit, newEvent, List.cons.injEq, TraceEvent.mk.injEq, Prod.mk.injEq,
        GoValue.str.injEq, GoValue.int.injEq, true_and, and_true] at same
      rw [same.1, Int.ofNat_inj.mp same.2]

theorem showToken_injective {v w : View}
    (same : (showToken c fixtures d id v).events = (showToken c fixtures d id w).events) : v = w := by
  cases v with
  | refused err => cases w <;> simp_all [showToken, emit, newEvent]
  | granted redacted length lifetime secret =>
    cases w with
    | refused err => simp [showToken, emit, newEvent] at same
    | granted redacted' length' lifetime' secret' =>
      simp only [showToken, emit, newEvent, List.cons.injEq, TraceEvent.mk.injEq, Prod.mk.injEq,
        GoValue.str.injEq, GoValue.int.injEq, true_and, and_true] at same
      obtain ⟨⟨redaction, life, size⟩, later⟩ := same
      rw [redaction, life, Int.ofNat_inj.mp size, showSecret_injective later]

theorem lookup_shown {path : GoString} {svid : SVID} (valid : ValidID (shipmentID path))
    (issued : d.fetchJWTSVID = .ok svid) :
    (liveLookup c fixtures d path).served =
      emit "request.received" [("id", .str (shipmentID path))]
        (emit "jwt_svid.issued" (issuedFields c d svid)
          (showToken c fixtures d (shipmentID path) (d.client.view svid.marshal d.secretID))) := by
  have routed : ¬ (shipmentID path = [] ∨ slash ∈ shipmentID path) := by
    rintro (empty | nested)
    · exact valid.1 empty
    · exact valid.2 nested
  have live : liveLookup c fixtures d path = Logged.emit "request.received"
      [("id", .str (shipmentID path))] (liveToken c fixtures d (shipmentID path) svid) := by
    rw [liveLookup]
    simp only [issued]
    exact if_neg routed
  rw [live, served_emit, liveToken_shown]

/-- Another network changes nothing in how a view is told. -/
theorem showToken_onNetwork (send : HttpRequest → Except GoString HttpReply) (v : View) :
    showToken c fixtures { d with client := d.client.onNetwork send } id v = showToken c fixtures d id v := by
  cases v with
  | refused err => rfl
  | granted redacted length lifetime secret => cases secret <;> rfl

end read

/-- Whatever the Secrets Manager answers, the trace and the response of a lookup tell of its
    answers the view and no more, and the trace alone tells no less. -/
theorem lookup_discloses_view (c : Codec) (fixtures : GoString → Option Payload) (d : LiveDeps)
    (send : HttpRequest → Except GoString HttpReply) (path : GoString) (svid : SVID)
    (valid : ValidID (shipmentID path)) (issued : d.fetchJWTSVID = .ok svid) :
    let other : LiveDeps := { d with client := d.client.onNetwork send }
    (d.client.view svid.marshal d.secretID = other.client.view svid.marshal d.secretID →
      (liveLookup c fixtures d path).served = (liveLookup c fixtures other path).served) ∧
    ((liveLookup c fixtures d path).events = (liveLookup c fixtures other path).events →
      d.client.view svid.marshal d.secretID = other.client.view svid.marshal d.secretID) := by
  intro other
  have shown := @lookup_shown c fixtures d path svid valid issued
  have shown' := @lookup_shown c fixtures other path svid valid issued
  have fields : issuedFields c other svid = issuedFields c d svid := rfl
  have told (v : View) : showToken c fixtures other (shipmentID path) v =
      showToken c fixtures d (shipmentID path) v := showToken_onNetwork send v
  rw [fields, told] at shown'
  constructor
  · intro same
    rw [shown, shown', same]
  · intro same
    have events : (liveLookup c fixtures d path).served.events =
        (liveLookup c fixtures other path).served.events := same
    rw [shown, shown'] at events
    exact showToken_injective (List.cons.inj (List.cons.inj events).2).2

/-- A Secrets Manager that grants one token and one secret. -/
def grantingClient (token secret : String) : SMClient where
  baseURL := goString "https://sm"
  http := ⟨fun _ _ => none, fun req =>
    if req.method = goString "POST" then .ok ⟨200, [], goString token⟩
    else .ok ⟨200, goString "3", goString secret⟩⟩
  codec := ⟨fun _ => none, fun _ => none, fun _ => none, fun _ => none⟩

def grantingDeps (token secret : String) : LiveDeps where
  fetchJWTSVID := .ok ⟨goString "e30.e30.c2ln", 1700000000, goString "spiffe://swa/carrier"⟩
  client := grantingClient token secret
  secretID := goString "swa-demo/carrier/api-key"
  algKid := none

/-- Two tokens that part at the fifth byte and two secrets of six bytes look the same; two secrets
    of different lengths do not. -/
theorem sample_disclosure :
    (liveLookup ⟨fun _ => none, fun _ => none, fun _ => none, fun _ => []⟩ (fun _ => none)
        (grantingDeps "tok-one" "apples") (goString "/lookup/SHP-1")).served =
      (liveLookup ⟨fun _ => none, fun _ => none, fun _ => none, fun _ => []⟩ (fun _ => none)
        (grantingDeps "tok-two" "grapes") (goString "/lookup/SHP-1")).served ∧
    (liveLookup ⟨fun _ => none, fun _ => none, fun _ => none, fun _ => []⟩ (fun _ => none)
        (grantingDeps "tok-one" "apples") (goString "/lookup/SHP-1")).events ≠
      (liveLookup ⟨fun _ => none, fun _ => none, fun _ => none, fun _ => []⟩ (fun _ => none)
        (grantingDeps "tok-one" "pears") (goString "/lookup/SHP-1")).events := by
  constructor
  · exact (lookup_discloses_view _ _ (grantingDeps "tok-one" "apples")
      (grantingClient "tok-two" "grapes").http.send (goString "/lookup/SHP-1") _
      ⟨by decide, by decide⟩ rfl).1 (by decide)
  · intro same
    have alike := (lookup_discloses_view _ _ (grantingDeps "tok-one" "apples")
      (grantingClient "tok-one" "pears").http.send (goString "/lookup/SHP-1") _
      ⟨by decide, by decide⟩ rfl).2 same
    exact absurd alike (by decide)

end SwaCarrier
