import SwaDemo.CarrierLookup

/-!
The client of the Secrets Manager (`apps/carrier/sm_client.go`): its two calls with the
requests that they send, over whatever answers come back. A body is what could be read
of it, since an error on the way is not looked at.
-/
namespace SwaCarrier
open SwaTrace

structure HttpRequest where
  method : GoString
  url : GoString
  headers : List (String × GoString)
  body : GoString
  deriving DecidableEq, Repr

/-- An answer: its status, its `X-Conjur-Version` header (empty where it has none) and
    its body. -/
structure HttpReply where
  status : Nat
  version : GoString
  body : GoString
  deriving DecidableEq, Repr

/-- What the client uses of `net/http`: why a request cannot be built, if it cannot, and
    `Client.Do` with the error of its transport. -/
structure HttpClient where
  newRequest : GoString → GoString → Option GoString
  send : HttpRequest → Except GoString HttpReply

/-- What `parseExpiresIn` uses of `encoding/base64` and `encoding/json`: the envelope's
    payload, and the claims `iat` and `exp`. -/
structure TokenCodec where
  stdDecode : GoString → Option (List UInt8)
  rawURLDecode : GoString → Option (List UInt8)
  unmarshalEnvelope : List UInt8 → Option GoString
  unmarshalTimes : List UInt8 → Option (Int × Int)

structure SMClient where
  baseURL : GoString
  http : HttpClient
  codec : TokenCodec

/-- `strings.TrimRight(s, "/")` -/
def trimRightSlash (s : GoString) : GoString := (s.reverse.dropWhile (· == slash)).reverse

def newSMClient (baseURL : GoString) (http : HttpClient) (codec : TokenCodec) : SMClient :=
  ⟨trimRightSlash baseURL, http, codec⟩

/-- The white space of Unicode in UTF-8. -/
def spaces : List GoString :=
  [[9], [10], [11], [12], [13], [32], [194, 133], [194, 160], [225, 154, 128],
    [226, 128, 128], [226, 128, 129], [226, 128, 130], [226, 128, 131], [226, 128, 132],
    [226, 128, 133], [226, 128, 134], [226, 128, 135], [226, 128, 136], [226, 128, 137],
    [226, 128, 138], [226, 128, 168], [226, 128, 169], [226, 128, 175], [226, 129, 159],
    [227, 128, 128]]

/-- Drop words from the front of `s`, at most `n` of them. -/
def dropWords (words : List GoString) : Nat → GoString → GoString
  | 0, s => s
  | n + 1, s =>
    match words.find? (·.isPrefixOf s) with
    | some word => dropWords words n (s.drop word.length)
    | none => s

def trimSpace (s : GoString) : GoString :=
  let front := dropWords spaces s.length s
  (dropWords (spaces.map List.reverse) front.length front.reverse).reverse

def upperHex (n : Nat) : UInt8 := UInt8.ofNat (if n < 10 then 48 + n else 55 + n)

/-- `%XX` -/
def percent (b : UInt8) : GoString := [37, upperHex (b.toNat / 16), upperHex (b.toNat % 16)]

/-- Letters, digits and `-`, `.`, `_`, `~`, which neither escape touches. -/
def unreserved (b : UInt8) : Bool :=
  (65 ≤ b ∧ b ≤ 90) || (97 ≤ b ∧ b ≤ 122) || (48 ≤ b ∧ b ≤ 57) || b ∈ goString "-._~"

def pathEscape (s : GoString) : GoString :=
  s.flatMap fun b => if unreserved b || b ∈ goString "$&+=:@" then [b] else percent b

def queryEscape (s : GoString) : GoString :=
  s.flatMap fun b => if unreserved b then [b] else if b = 32 then [43] else percent b

/-- The two's complement value of 64 bits. -/
def int64 (n : Int) : Int := n.bmod 0x10000000000000000

/-- Best-effort: 0 where the token cannot be parsed. -/
def parseExpiresIn (c : TokenCodec) (token : GoString) : Int :=
  match (c.stdDecode token).bind c.unmarshalEnvelope with
  | none => 0
  | some payload =>
    if payload = [] then 0
    else
      match ((c.rawURLDecode payload).or (c.stdDecode payload)).bind c.unmarshalTimes with
      | none => 0
      | some (iat, exp) => if exp ≤ iat then 0 else int64 (exp - iat)

namespace SMClient
variable (c : SMClient)

def authnURL : GoString :=
  c.baseURL ++ goString "/api/authn-jwt/secureWorkloadAccess/conjur/authenticate"

def secretURL (variableID : GoString) : GoString :=
  c.baseURL ++ goString "/api/secrets/conjur/variable/" ++ pathEscape variableID

def authnRequest (jwtSVID : GoString) : HttpRequest where
  method := goString "POST"
  url := c.authnURL
  headers := [("Content-Type", goString "application/x-www-form-urlencoded"),
    ("Accept-Encoding", goString "base64")]
  body := goString "jwt=" ++ queryEscape jwtSVID

def secretRequest (smToken variableID : GoString) : HttpRequest where
  method := goString "GET"
  url := c.secretURL variableID
  headers := [("Authorization", goString "Token token=\"" ++ smToken ++ goString "\"")]
  body := []

/-- `fmt.Errorf("<call>: %d %s", resp.StatusCode, strings.TrimSpace(string(body)))` -/
def statusError (call : String) (reply : HttpReply) : GoString :=
  goString (call ++ ": " ++ toString reply.status ++ " ") ++ trimSpace reply.body

/-- What a call sends: its request, unless that cannot be built. -/
def sent (req : HttpRequest) : List HttpRequest :=
  match c.http.newRequest req.method req.url with
  | some _ => []
  | none => [req]

def authnJWT (jwtSVID : GoString) : AuthnReply :=
  let info : AuthnJWTMeta :=
    ⟨c.authnURL, goString "POST", 0, 0, goString "secureWorkloadAccess/conjur"⟩
  match c.http.newRequest (goString "POST") c.authnURL with
  | some err => ⟨[], some info, some err⟩
  | none =>
    match c.http.send (c.authnRequest jwtSVID) with
    | .error err => ⟨[], some info, some err⟩
    | .ok reply =>
      let info := { info with status := reply.status }
      if reply.status ≠ 200 then ⟨[], some info, some (statusError "authn-jwt" reply)⟩
      else if reply.body.length = 0 then ⟨[], some info, some (goString "authn-jwt: empty token")⟩
      else
        ⟨reply.body, some { info with tokenTTLSeconds := parseExpiresIn c.codec reply.body }, none⟩

def fetchSecret (smToken variableID : GoString) : SecretReply :=
  let info : FetchSecretMeta :=
    ⟨c.secretURL variableID, goString "GET", 0, variableID, [], variableID, 0⟩
  match c.http.newRequest (goString "GET") (c.secretURL variableID) with
  | some err => ⟨[], some info, some err⟩
  | none =>
    match c.http.send (c.secretRequest smToken variableID) with
    | .error err => ⟨[], some info, some err⟩
    | .ok reply =>
      let info := { info with status := reply.status }
      if reply.status ≠ 200 then ⟨[], some info, some (statusError "fetch-secret" reply)⟩
      else
        ⟨reply.body, some { info with bytes := reply.body.length, version := reply.version }, none⟩

/-- The client as the handler's `smAPI`. -/
def api : SmAPI := ⟨c.authnJWT, c.fetchSecret⟩

/-- The call's request was built and answered with 200 and the body. -/
def Answered (req : HttpRequest) (body : GoString) : Prop :=
  c.http.newRequest req.method req.url = none ∧
    ∃ reply, c.http.send req = .ok reply ∧ reply.status = 200 ∧ reply.body = body

theorem authnJWT_cases (jwtSVID : GoString) :
    (∃ token info, c.Answered (c.authnRequest jwtSVID) token ∧ token ≠ [] ∧
      c.authnJWT jwtSVID = ⟨token, some info, none⟩) ∨
    (∃ info err, (∀ token, c.Answered (c.authnRequest jwtSVID) token → token = []) ∧
      c.authnJWT jwtSVID = ⟨[], info, some err⟩) := by
  have built : c.http.newRequest (c.authnRequest jwtSVID).method (c.authnRequest jwtSVID).url =
      c.http.newRequest (goString "POST") c.authnURL := rfl
  unfold authnJWT Answered
  rw [built]
  cases request : c.http.newRequest (goString "POST") c.authnURL with
  | some err => exact Or.inr ⟨_, err, by simp, rfl⟩
  | none =>
    cases sends : c.http.send (c.authnRequest jwtSVID) with
    | error err => exact Or.inr ⟨_, err, by simp, rfl⟩
    | ok reply =>
      by_cases status : reply.status = 200
      · by_cases empty : reply.body = []
        · refine Or.inr ⟨some ⟨c.authnURL, goString "POST", 200, 0,
            goString "secureWorkloadAccess/conjur"⟩, goString "authn-jwt: empty token",
            by simp [empty], ?_⟩
          simp [status, empty]
        · refine Or.inl ⟨reply.body, ⟨c.authnURL, goString "POST", 200,
            parseExpiresIn c.codec reply.body, goString "secureWorkloadAccess/conjur"⟩,
            ⟨rfl, reply, rfl, status, rfl⟩, empty, ?_⟩
          simp [status, empty]
      · refine Or.inr ⟨some ⟨c.authnURL, goString "POST", reply.status, 0,
          goString "secureWorkloadAccess/conjur"⟩, statusError "authn-jwt" reply,
          by simp [status], ?_⟩
        simp [status]

theorem fetchSecret_cases (smToken variableID : GoString) :
    (∃ secret info, c.Answered (c.secretRequest smToken variableID) secret ∧
      c.fetchSecret smToken variableID = ⟨secret, some info, none⟩) ∨
    (∃ info err, (∀ secret, ¬ c.Answered (c.secretRequest smToken variableID) secret) ∧
      c.fetchSecret smToken variableID = ⟨[], info, some err⟩) := by
  have built : c.http.newRequest (c.secretRequest smToken variableID).method
      (c.secretRequest smToken variableID).url =
      c.http.newRequest (goString "GET") (c.secretURL variableID) := rfl
  unfold fetchSecret Answered
  rw [built]
  cases request : c.http.newRequest (goString "GET") (c.secretURL variableID) with
  | some err => exact Or.inr ⟨_, err, by simp, rfl⟩
  | none =>
    cases sends : c.http.send (c.secretRequest smToken variableID) with
    | error err => exact Or.inr ⟨_, err, by simp, rfl⟩
    | ok reply =>
      by_cases status : reply.status = 200
      · refine Or.inl ⟨reply.body, ⟨c.secretURL variableID, goString "GET", 200, variableID,
          reply.version, variableID, reply.body.length⟩, ⟨rfl, reply, rfl, status, rfl⟩, ?_⟩
        simp [status]
      · refine Or.inr ⟨some ⟨c.secretURL variableID, goString "GET", reply.status, variableID, [],
          variableID, 0⟩, statusError "fetch-secret" reply, by simp [status], ?_⟩
        simp [status]

end SMClient
end SwaCarrier
