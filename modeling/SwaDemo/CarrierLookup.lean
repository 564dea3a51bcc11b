import SwaDemo.TraceEvent

/-!
The carrier's lookup handler (`apps/carrier/handler.go`, `redact.go`), which sends
what it does to the trace as it goes, and what its trace and its response say
about the Secrets Manager's token and secret: their lengths, and four bytes of the
token.
-/
namespace SwaCarrier
open SwaTrace

structure HttpResponse where
  status : Nat
  headers : List (String × String)
  body : GoString
  deriving DecidableEq, Repr

/-- What a request did: the events it emitted, in order, and its response, which is
    `none` where the handler panics on a nil pointer. -/
structure Served where
  events : List TraceEvent
  response : Option HttpResponse
  deriving DecidableEq, Repr

/-- `jwtsvid.SVID` as far as the handler reads it; `marshal` is the token. -/
structure SVID where
  marshal : GoString
  expiry : Int
  id : GoString
  deriving DecidableEq, Repr

structure AuthnJWTMeta where
  url : GoString
  method : GoString
  status : Int
  tokenTTLSeconds : Int
  scope : GoString
  deriving DecidableEq, Repr

structure FetchSecretMeta where
  url : GoString
  method : GoString
  status : Int
  secretID : GoString
  version : GoString
  policyScope : GoString
  bytes : Int
  deriving DecidableEq, Repr

/-- The three results of `FetchJWTSVID`, `AuthnJWT` and `FetchSecret`; a pointer is
    `none` where it is nil and an error is its text. -/
structure SVIDReply where
  svid : Option SVID
  err : Option GoString
  deriving DecidableEq, Repr

structure AuthnReply where
  token : GoString
  info : Option AuthnJWTMeta
  err : Option GoString
  deriving DecidableEq, Repr

structure SecretReply where
  secret : List UInt8
  info : Option FetchSecretMeta
  err : Option GoString
  deriving DecidableEq, Repr

structure SmAPI where
  authnJWT : GoString → AuthnReply
  fetchSecret : GoString → GoString → SecretReply

structure JoseHeader where
  alg : GoString
  kid : GoString
  typ : GoString

/-- What the handler uses of `encoding/base64` and `encoding/json`. -/
structure Codec where
  rawURLDecode : GoString → Option (List UInt8)
  unmarshalHeader : List UInt8 → Option JoseHeader
  unmarshalClaims : List UInt8 → Option Payload
  encodeRow : Payload → GoString

/-- `fetchJWTSVID` is the reply to the request for the audience `conjur`. -/
structure HandlerDeps where
  fetchJWTSVID : SVIDReply
  sm : SmAPI
  secretID : GoString
  algKid : Option (GoString → GoString × GoString)

def dot : UInt8 := 46

def slash : UInt8 := 47

theorem splitOn_first {b : UInt8} {front : GoString} (plain : ∀ c ∈ front, c ≠ b) (rest : GoString) :
    (front ++ b :: rest).splitOn b = front :: rest.splitOn b := by
  refine List.splitOnP_append_cons_of_forall_mem ?_ b (by simp) rest
  intro c mem
  simpa using plain c mem

/-- The first two parts of `strings.SplitN(token, ".", 3)`, where there are two. -/
def headAndBody (token : GoString) : Option (GoString × GoString) :=
  match token.splitOn dot with
  | header :: body :: _ => some (header, body)
  | _ => none

def joseHeader (c : Codec) (token : GoString) : Option JoseHeader := do
  let (header, _) ← headAndBody token
  let json ← c.rawURLDecode header
  c.unmarshalHeader json

def parseJWTHeader (c : Codec) (token : GoString) : GoString × GoString :=
  match joseHeader c token with
  | some h => (h.alg, h.kid)
  | none => ([], [])

def decodeJWTClaims (c : Codec) (token : GoString) : Option Payload := do
  let (_, body) ← headAndBody token
  let json ← c.rawURLDecode body
  c.unmarshalClaims json

def parseJWTType (c : Codec) (token : GoString) : GoString :=
  match joseHeader c token with
  | some h => h.typ
  | none => []

def redactBearer (token : GoString) : GoString :=
  if token.length < 4 then token else token.take 4 ++ goString "...REDACTED"

def trimPrefix (s pre : GoString) : GoString :=
  if pre.isPrefixOf s then s.drop pre.length else s

def httpError (error : String) (code : Nat) : Served :=
  ⟨[], some ⟨code,
    [("Content-Type", "text/plain; charset=utf-8"), ("X-Content-Type-Options", "nosniff")],
    goString (error ++ "\n")⟩⟩

def panics : Served := ⟨[], none⟩

def emit (type : String) (payload : Payload) (rest : Served) : Served :=
  ⟨newEvent "carrier" type payload :: rest.events, rest.response⟩

def claim (claims : Option Payload) (key : String) : GoValue :=
  (claims.bind (List.lookup key)).getD .nil

section handler
variable (c : Codec) (fixtures : GoString → Option Payload)

/-- The handler once it has the secret. -/
def answer (id : GoString) : Served :=
  match fixtures id with
  | none => emit "carrier.lookup.miss" [("id", .str id)] (httpError "shipment not found" 404)
  | some row => emit "carrier.lookup.ok" [("id", .str id)]
    ⟨[], some ⟨200, [("Content-Type", "application/json")], c.encodeRow row⟩⟩

/-- The handler from the reply of `FetchSecret` on. -/
def fetched (id : GoString) (reply : SecretReply) : Served :=
  match reply.err with
  | some err => emit "sm.secret_fetched.err" [("err", .str err)] (httpError "policy denies access" 502)
  | none =>
    if reply.secret.length = 0 then
      emit "sm.secret_fetched.empty" [] (httpError "empty secret" 502)
    else
      match reply.info with
      | none => panics
      | some info =>
        emit "sm.secret_fetched.ok" [
          ("url", .str info.url),
          ("method", .str info.method),
          ("status", .int info.status),
          ("secret_id", .str info.secretID),
          ("version", .str info.version),
          ("policy_scope", .str info.policyScope),
          ("bytes", .int reply.secret.length)]
          (answer c fixtures id)

/-- The handler from the reply of `AuthnJWT` on. -/
def authenticated (d : HandlerDeps) (id : GoString) (reply : AuthnReply) : Served :=
  match reply.err with
  | some err => emit "sm.authn_jwt.err" [("err", .str err)] (httpError "identity rejected" 502)
  | none =>
    match reply.info with
    | none => panics
    | some info =>
      emit "sm.authn_jwt.ok" [
        ("url", .str info.url),
        ("method", .str info.method),
        ("status", .int info.status),
        ("token_redacted", .str (redactBearer reply.token)),
        ("token_ttl_seconds", .int info.tokenTTLSeconds),
        ("scope", .str info.scope),
        ("token_len", .int reply.token.length)]
        (fetched c fixtures id (d.sm.fetchSecret reply.token d.secretID))

/-- The handler from the SVID on. -/
def issued (d : HandlerDeps) (id : GoString) (svid : SVID) : Served :=
  let raw := svid.marshal
  let algKid := d.algKid.getD (parseJWTHeader c) raw
  let claims := decodeJWTClaims c raw
  emit "jwt_svid.issued" [
    ("aud", .str (goString "conjur")),
    ("exp", .int svid.expiry),
    ("spiffe_id", .str svid.id),
    ("alg", .str algKid.1),
    ("kid", .str algKid.2),
    ("iss", claim claims "iss"),
    ("iat", claim claims "iat"),
    ("jti", claim claims "jti"),
    ("typ", .str (parseJWTType c raw)),
    ("raw", .str raw)]
    (authenticated c fixtures d id (d.sm.authnJWT raw))

def handleLookup (d : HandlerDeps) (path : GoString) : Served :=
  let id := trimPrefix path (goString "/lookup/")
  if id = [] ∨ slash ∈ id then httpError "bad shipment id" 400
  else
    emit "request.received" [("id", .str id)]
      (match d.fetchJWTSVID.err, d.fetchJWTSVID.svid with
        | some err, _ => emit "jwt_svid.error" [("err", .str err)] (httpError "agent unreachable" 502)
        | none, none => panics
        | none, some svid => issued c fixtures d id svid)

end handler

/-- Two tokens of one length that share their first four bytes, or are the same. -/
def TokensAgree (t u : GoString) : Prop :=
  t = u ∨ (4 ≤ t.length ∧ t.length = u.length ∧ t.take 4 = u.take 4)

structure AuthnAgree (r q : AuthnReply) : Prop where
  token : TokensAgree r.token q.token
  info : r.info = q.info
  err : r.err = q.err

structure SecretAgree (r q : SecretReply) : Prop where
  secret : r.secret.length = q.secret.length
  info : r.info = q.info
  err : r.err = q.err

/-- The replies that the two handlers get for one SVID, each fetching the secret with
    the token it was given. -/
structure RepliesAgree (sm₁ sm₂ : SmAPI) (jwtSVID secretID : GoString) : Prop where
  authn : AuthnAgree (sm₁.authnJWT jwtSVID) (sm₂.authnJWT jwtSVID)
  secret : SecretAgree (sm₁.fetchSecret (sm₁.authnJWT jwtSVID).token secretID)
    (sm₂.fetchSecret (sm₂.authnJWT jwtSVID).token secretID)

theorem tokensAgree_length {t u : GoString} (agree : TokensAgree t u) : t.length = u.length := by
  rcases agree with rfl | ⟨_, same, _⟩
  · rfl
  · exact same

theorem redactBearer_agree {t u : GoString} (agree : TokensAgree t u) :
    redactBearer t = redactBearer u := by
  rcases agree with rfl | ⟨long, same, front⟩
  · rfl
  · have short : ¬ t.length < 4 := by omega
    have short' : ¬ u.length < 4 := by omega
    rw [redactBearer, redactBearer, if_neg short, if_neg short', front]

theorem fetched_agree (c : Codec) (fixtures : GoString → Option Payload) (id : GoString)
    {r q : SecretReply} (agree : SecretAgree r q) :
    fetched c fixtures id r = fetched c fixtures id q := by
  unfold fetched
  rw [agree.err, agree.secret, agree.info]

theorem authenticated_agree (c : Codec) (fixtures : GoString → Option Payload) (id : GoString)
    {d e : HandlerDeps} {r q : AuthnReply} (agree : AuthnAgree r q)
    (secret : SecretAgree (d.sm.fetchSecret r.token d.secretID)
      (e.sm.fetchSecret q.token e.secretID)) :
    authenticated c fixtures d id r = authenticated c fixtures e id q := by
  unfold authenticated
  rw [agree.err, agree.info, redactBearer_agree agree.token, tokensAgree_length agree.token,
    fetched_agree c fixtures id secret]

theorem issued_agree (c : Codec) (fixtures : GoString → Option Payload) (id : GoString)
    (d : HandlerDeps) (sm₁ sm₂ : SmAPI) (svid : SVID)
    (agree : RepliesAgree sm₁ sm₂ svid.marshal d.secretID) :
    issued c fixtures { d with sm := sm₁ } id svid =
      issued c fixtures { d with sm := sm₂ } id svid := by
  have next := authenticated_agree c fixtures id (d := { d with sm := sm₁ })
    (e := { d with sm := sm₂ }) agree.authn agree.secret
  simp only [issued, next]

/-- Two executions of the handler that differ in the bytes of the secret and in the
    token from its fifth byte on emit the same events and give the same response. -/
theorem lookup_hides_secret_and_bearer (c : Codec) (fixtures : GoString → Option Payload)
    (d : HandlerDeps) (sm₁ sm₂ : SmAPI) (path : GoString)
    (agree : ∀ svid, d.fetchJWTSVID.svid = some svid →
      RepliesAgree sm₁ sm₂ svid.marshal d.secretID) :
    handleLookup c fixtures { d with sm := sm₁ } path =
      handleLookup c fixtures { d with sm := sm₂ } path := by
  unfold handleLookup
  cases d.fetchJWTSVID.err with
  | some err => rfl
  | none =>
    cases reply : d.fetchJWTSVID.svid with
    | none => rfl
    | some svid =>
      have same := issued_agree c fixtures (trimPrefix path (goString "/lookup/")) d sm₁ sm₂ svid
        (agree svid reply)
      simp only [same]

def sampleSm (token secret : String) : SmAPI where
  authnJWT _ := ⟨goString token, some ⟨goString "https://sm/authenticate", goString "POST", 200, 480,
    goString "secureWorkloadAccess/conjur"⟩, none⟩
  fetchSecret _ secretID := ⟨goString secret, some ⟨goString "https://sm/variable", goString "GET", 200,
    secretID, goString "3", secretID, 6⟩, none⟩

def sampleDeps (sm : SmAPI) : HandlerDeps where
  fetchJWTSVID := ⟨some ⟨goString "e30.e30.c2ln", 1700000000, goString "spiffe://swa/carrier"⟩, none⟩
  sm := sm
  secretID := goString "carrier/key"
  algKid := none

theorem sample_tokens_agree : TokensAgree (goString "tok-one") (goString "tok-two") :=
  Or.inr ⟨by decide, by decide, by decide⟩

theorem sample_secrets_length : (goString "apples").length = (goString "grapes").length := by decide

/-- Two secrets of six bytes, and two tokens that part at the fifth byte. -/
theorem sample_lookups_agree :
    handleLookup ⟨fun _ => none, fun _ => none, fun _ => none, fun _ => []⟩ (fun _ => none)
        (sampleDeps (sampleSm "tok-one" "apples")) (goString "/lookup/SHP-2049-883") =
      handleLookup ⟨fun _ => none, fun _ => none, fun _ => none, fun _ => []⟩ (fun _ => none)
        (sampleDeps (sampleSm "tok-two" "grapes")) (goString "/lookup/SHP-2049-883") :=
  lookup_hides_secret_and_bearer _ _ (sampleDeps (sampleSm "tok-one" "apples")) _ _ _
    fun _ _ => ⟨⟨sample_tokens_agree, rfl, rfl⟩, ⟨sample_secrets_length, rfl, rfl⟩⟩

end SwaCarrier
