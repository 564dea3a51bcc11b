import SwaDemo.SecretsManager

/-!
The lookup handler over the client of the Secrets Manager, with the requests that are
sent on the way. Whatever is answered, the handler stops at the first step that fails:
what it has emitted, sent and written by then is one line of a table of seven exits.
-/
namespace SwaCarrier
open SwaTrace

/-- The handler's dependencies as `main` wires them. The Workload API gives an SVID or
    an error, never both and never neither. -/
structure LiveDeps where
  fetchJWTSVID : Except GoString SVID
  client : SMClient
  secretID : GoString
  algKid : Option (GoString → GoString × GoString)

def LiveDeps.deps (d : LiveDeps) : HandlerDeps where
  fetchJWTSVID :=
    match d.fetchJWTSVID with
    | .error err => ⟨none, some err⟩
    | .ok svid => ⟨some svid, none⟩
  sm := d.client.api
  secretID := d.secretID
  algKid := d.algKid

inductive Did where
  | event (ev : TraceEvent)
  | request (req : HttpRequest)
  deriving DecidableEq, Repr

/-- What the handler does, in order, and its response. -/
structure Logged where
  did : List Did
  response : Option HttpResponse
  deriving DecidableEq, Repr

namespace Logged

def events (l : Logged) : List TraceEvent :=
  l.did.filterMap fun
    | .event ev => some ev
    | .request _ => none

def requests (l : Logged) : List HttpRequest :=
  l.did.filterMap fun
    | .event _ => none
    | .request req => some req

def emit (type : String) (payload : Payload) (rest : Logged) : Logged :=
  ⟨.event (newEvent "carrier" type payload) :: rest.did, rest.response⟩

def send (reqs : List HttpRequest) (rest : Logged) : Logged :=
  ⟨reqs.map .request ++ rest.did, rest.response⟩

@[simp] theorem events_emit (type : String) (payload : Payload) (rest : Logged) :
    (emit type payload rest).events = newEvent "carrier" type payload :: rest.events := rfl

@[simp] theorem events_send (reqs : List HttpRequest) (rest : Logged) :
    (send reqs rest).events = rest.events := by
  induction reqs with
  | nil => rfl
  | cons req reqs ih => exact ih

@[simp] theorem requests_emit (type : String) (payload : Payload) (rest : Logged) :
    (emit type payload rest).requests = rest.requests := rfl

@[simp] theorem requests_send (reqs : List HttpRequest) (rest : Logged) :
    (send reqs rest).requests = reqs ++ rest.requests := by
  induction reqs with
  | nil => rfl
  | cons req reqs ih => exact congrArg (req :: ·) ih

@[simp] theorem response_emit (type : String) (payload : Payload) (rest : Logged) :
    (emit type payload rest).response = rest.response := rfl

@[simp] theorem response_send (reqs : List HttpRequest) (rest : Logged) :
    (send reqs rest).response = rest.response := rfl

end Logged

/-- A stage that sends no requests. -/
def Served.logged (s : Served) : Logged := ⟨s.events.map .event, s.response⟩

@[simp] theorem events_logged (s : Served) : s.logged.events = s.events := by
  unfold Served.logged Logged.events
  induction s.events with
  | nil => rfl
  | cons ev events ih => exact congrArg (ev :: ·) ih

@[simp] theorem requests_logged (s : Served) : s.logged.requests = [] := by
  unfold Served.logged Logged.requests
  induction s.events with
  | nil => rfl
  | cons ev events ih => exact ih

@[simp] theorem response_logged (s : Served) : s.logged.response = s.response := rfl

section handler
variable (c : Codec) (fixtures : GoString → Option Payload) (d : LiveDeps)

/-- The handler from the token on. -/
def liveSecret (id token : GoString) : Logged :=
  Logged.send (d.client.sent (d.client.secretRequest token d.secretID))
    (fetched c fixtures id (d.client.fetchSecret token d.secretID)).logged

/-- The handler from the SVID on. -/
def liveToken (id : GoString) (svid : SVID) : Logged :=
  let raw := svid.marshal
  let algKid := d.algKid.getD (parseJWTHeader c) raw
  let claims := decodeJWTClaims c raw
  Logged.emit "jwt_svid.issued" [
    ("aud", .str (goString "conjur")),
    ("exp", .int svid.expiry),
    ("spiffe_id", .str svid.id),
    ("alg", .str algKid.1),
    ("kid", .str algKid.2),
    ("iss", claim claims "iss"),
    ("iat", claim claims "iat"),
    ("jti", claim claims "jti"),
    ("typ", .str (parseJWTType c raw)),
    ("raw", .str raw)]
    (Logged.send (d.client.sent (d.client.authnRequest raw))
      (match d.client.authnJWT raw with
      | ⟨_, _, some err⟩ =>
        Logged.emit "sm.authn_jwt.err" [("err", .str err)] (httpError "identity rejected" 502).logged
      | ⟨_, none, none⟩ => panics.logged
      | ⟨token, some info, none⟩ =>
        Logged.emit "sm.authn_jwt.ok" [
          ("url", .str info.url),
          ("method", .str info.method),
          ("status", .int info.status),
          ("token_redacted", .str (redactBearer token)),
          ("token_ttl_seconds", .int info.tokenTTLSeconds),
          ("scope", .str info.scope),
          ("token_len", .int token.length)]
          (liveSecret c fixtures d id token)))

def shipmentID (path : GoString) : GoString := trimPrefix path (goString "/lookup/")

/-- `handleLookup` over `SMClient`. -/
def liveLookup (path : GoString) : Logged :=
  let id := shipmentID path
  if id = [] ∨ slash ∈ id then (httpError "bad shipment id" 400).logged
  else
    Logged.emit "request.received" [("id", .str id)]
      (match d.fetchJWTSVID with
      | .error err =>
        Logged.emit "jwt_svid.error" [("err", .str err)] (httpError "agent unreachable" 502).logged
      | .ok svid => liveToken c fixtures d id svid)

/-- Without its requests it is the handler over any `smAPI`. -/
theorem live_served (path : GoString) :
    (⟨(liveLookup c fixtures d path).events, (liveLookup c fixtures d path).response⟩ : Served) =
      handleLookup c fixtures d.deps path := by
  unfold liveLookup handleLookup LiveDeps.deps
  by_cases bad : shipmentID path = [] ∨ slash ∈ shipmentID path
  · have bad' : trimPrefix path (goString "/lookup/") = [] ∨
        slash ∈ trimPrefix path (goString "/lookup/") := bad
    simp [bad, bad']
  · have good : ¬ (trimPrefix path (goString "/lookup/") = [] ∨
        slash ∈ trimPrefix path (goString "/lookup/")) := bad
    rw [if_neg good]
    simp only [if_neg bad]
    cases d.fetchJWTSVID with
    | error err => simp [emit, shipmentID]
    | ok svid =>
      rcases d.client.authnJWT_cases svid.marshal with
        ⟨token, info, _, _, authn⟩ | ⟨info, err, _, authn⟩
      · simp [emit, shipmentID, liveToken, liveSecret, issued, authenticated, authn, SMClient.api]
      · simp [emit, shipmentID, liveToken, issued, authenticated, authn, SMClient.api]

end handler

/-- How a lookup ends, with what it got on the way. -/
inductive Exit where
  | badID
  | noIdentity
  | noToken (svid : SVID)
  | noSecret (svid : SVID) (token : GoString)
  | emptySecret (svid : SVID) (token : GoString)
  | miss (svid : SVID) (token : GoString)
  | found (svid : SVID) (token : GoString) (row : Payload)

namespace Exit

def status : Exit → Nat
  | .badID => 400
  | .noIdentity => 502
  | .noToken _ => 502
  | .noSecret _ _ => 502
  | .emptySecret _ _ => 502
  | .miss _ _ => 404
  | .found _ _ _ => 200

/-- How many steps succeeded, which is how many ok events were emitted. -/
def passed : Exit → Nat
  | .badID => 0
  | .noIdentity => 1
  | .noToken _ => 2
  | .noSecret _ _ => 3
  | .emptySecret _ _ => 3
  | .miss _ _ => 4
  | .found _ _ _ => 4

def terminal : Exit → List String
  | .badID => []
  | .noIdentity => ["jwt_svid.error"]
  | .noToken _ => ["sm.authn_jwt.err"]
  | .noSecret _ _ => ["sm.secret_fetched.err"]
  | .emptySecret _ _ => ["sm.secret_fetched.empty"]
  | .miss _ _ => ["carrier.lookup.miss"]
  | .found _ _ _ => ["carrier.lookup.ok"]

/-- The body written: the row of the exit that has one, or a text. -/
def body (c : Codec) : Exit → GoString
  | .badID => goString "bad shipment id\n"
  | .noIdentity => goString "agent unreachable\n"
  | .noToken _ => goString "identity rejected\n"
  | .noSecret _ _ => goString "policy denies access\n"
  | .emptySecret _ _ => goString "empty secret\n"
  | .miss _ _ => goString "shipment not found\n"
  | .found _ _ row => c.encodeRow row

end Exit

def okEvents : List String :=
  ["request.received", "jwt_svid.issued", "sm.authn_jwt.ok", "sm.secret_fetched.ok"]

section exits
variable (c : Codec) (fixtures : GoString → Option Payload) (d : LiveDeps)

/-- The requests of an exit: none is sent after the first step that failed, and the
    secret is asked for with the token of the answer before. -/
def Exit.requests : Exit → List HttpRequest
  | .badID => []
  | .noIdentity => []
  | .noToken svid => d.client.sent (d.client.authnRequest svid.marshal)
  | .noSecret svid token => d.client.authnRequest svid.marshal ::
      d.client.sent (d.client.secretRequest token d.secretID)
  | .emptySecret svid token | .miss svid token | .found svid token _ =>
    [d.client.authnRequest svid.marshal, d.client.secretRequest token d.secretID]

def ValidID (id : GoString) : Prop := id ≠ [] ∧ slash ∉ id

/-- The SVID was issued and the Secrets Manager answered 200 to it with the token. -/
structure Authenticated (id : GoString) (svid : SVID) (token : GoString) : Prop where
  valid : ValidID id
  issued : d.fetchJWTSVID = .ok svid
  answered : d.client.Answered (d.client.authnRequest svid.marshal) token
  nonempty : token ≠ []

/-- With exactly that token, it answered 200 with a secret. -/
structure Fetched (id : GoString) (svid : SVID) (token : GoString) : Prop
    extends Authenticated d id svid token where
  secret : ∃ secret, d.client.Answered (d.client.secretRequest token d.secretID) secret ∧ secret ≠ []

/-- When a lookup ends in an exit: which step is the first that fails. -/
def Ends (id : GoString) : Exit → Prop
  | .badID => ¬ ValidID id
  | .noIdentity => ValidID id ∧ ∃ err, d.fetchJWTSVID = .error err
  | .noToken svid => ValidID id ∧ d.fetchJWTSVID = .ok svid ∧
      ∀ token, d.client.Answered (d.client.authnRequest svid.marshal) token → token = []
  | .noSecret svid token => Authenticated d id svid token ∧
      ∀ secret, ¬ d.client.Answered (d.client.secretRequest token d.secretID) secret
  | .emptySecret svid token => Authenticated d id svid token ∧
      d.client.Answered (d.client.secretRequest token d.secretID) []
  | .miss svid token => Fetched d id svid token ∧ fixtures id = none
  | .found svid token row => Fetched d id svid token ∧ fixtures id = some row

/-- What the handler has done when it ends in an exit. -/
structure Shows (exit : Exit) (l : Logged) : Prop where
  status : l.response.map (·.status) = some exit.status
  body : l.response.map (·.body) = some (exit.body c)
  events : l.events.map (·.type) = okEvents.take exit.passed ++ exit.terminal
  requests : l.requests = exit.requests d

variable {c fixtures d}

theorem sent_answered {client : SMClient} {req : HttpRequest} {body : GoString}
    (answered : client.Answered req body) : client.sent req = [req] := by
  rw [SMClient.sent, answered.1]

/-- What is left to show of an exit once `n` steps have succeeded and the requests `before`
    were sent. -/
structure ShowsAfter (c : Codec) (d : LiveDeps) (n : Nat) (before : List HttpRequest) (exit : Exit)
    (l : Logged) : Prop where
  status : l.response.map (·.status) = some exit.status
  body : l.response.map (·.body) = some (exit.body c)
  events : okEvents.take n ++ l.events.map (·.type) = okEvents.take exit.passed ++ exit.terminal
  requests : before ++ l.requests = exit.requests d

theorem shows_from_start {exit : Exit} {l : Logged} (after : ShowsAfter c d 0 [] exit l) :
    Shows c d exit l :=
  ⟨after.status, after.body, after.events, after.requests⟩

theorem after_emit {n : Nat} {before : List HttpRequest} {exit : Exit} {l : Logged} {type : String}
    {payload : Payload} (next : okEvents.take n ++ [type] = okEvents.take (n + 1))
    (after : ShowsAfter c d (n + 1) before exit l) :
    ShowsAfter c d n before exit (Logged.emit type payload l) := by
  refine ⟨after.status, after.body, ?_, after.requests⟩
  have events := after.events
  rw [← next, List.append_assoc] at events
  exact events

theorem after_send {n : Nat} {before reqs : List HttpRequest} {exit : Exit} {l : Logged}
    (after : ShowsAfter c d n (before ++ reqs) exit l) :
    ShowsAfter c d n before exit (Logged.send reqs l) := by
  have requests := after.requests
  rw [List.append_assoc] at requests
  refine ⟨after.status, after.body, ?_, ?_⟩
  · rw [Logged.events_send]
    exact after.events
  · rw [Logged.requests_send]
    exact requests

theorem answer_exit {id token : GoString} {svid : SVID} (secret : Fetched d id svid token) :
    ∃ exit, Ends fixtures d id exit ∧ ShowsAfter c d 4
      [d.client.authnRequest svid.marshal, d.client.secretRequest token d.secretID] exit
      (answer c fixtures id).logged := by
  unfold answer
  cases row : fixtures id with
  | none => exact ⟨.miss svid token, ⟨secret, row⟩, rfl, rfl, rfl, rfl⟩
  | some found => exact ⟨.found svid token found, ⟨secret, row⟩, rfl, rfl, rfl, rfl⟩

theorem secret_exit {id token : GoString} {svid : SVID} (auth : Authenticated d id svid token) :
    ∃ exit, Ends fixtures d id exit ∧ ShowsAfter c d 3 [d.client.authnRequest svid.marshal] exit
      (liveSecret c fixtures d id token) := by
  unfold liveSecret
  rcases d.client.fetchSecret_cases token d.secretID with
    ⟨secret, info, answered, reply⟩ | ⟨info, err, refused, reply⟩
  · rw [reply, sent_answered answered]
    by_cases empty : secret = []
    · subst empty
      exact ⟨.emptySecret svid token, ⟨auth, answered⟩, after_send ⟨rfl, rfl, rfl, rfl⟩⟩
    · obtain ⟨exit, ends, after⟩ := @answer_exit c fixtures d id token svid
        ⟨auth, secret, answered, empty⟩
      have long : ¬ secret.length = 0 := fun none_ => empty (List.length_eq_zero_iff.mp none_)
      refine ⟨exit, ends, after_send ?_⟩
      simp only [fetched, if_neg long]
      exact after_emit rfl after
  · rw [reply]
    exact ⟨.noSecret svid token, ⟨auth, refused⟩, after_send ⟨rfl, rfl, rfl, List.append_nil _⟩⟩

theorem token_exit {id : GoString} {svid : SVID} (valid : ValidID id)
    (issued : d.fetchJWTSVID = .ok svid) :
    ∃ exit, Ends fixtures d id exit ∧ ShowsAfter c d 1 [] exit (liveToken c fixtures d id svid) := by
  unfold liveToken
  rcases d.client.authnJWT_cases svid.marshal with
    ⟨token, info, answered, nonempty, authn⟩ | ⟨info, err, refused, authn⟩
  · obtain ⟨exit, ends, after⟩ := @secret_exit c fixtures d id token svid
      ⟨valid, issued, answered, nonempty⟩
    refine ⟨exit, ends, after_emit rfl (after_send ?_)⟩
    rw [authn, sent_answered answered]
    exact after_emit rfl after
  · refine ⟨.noToken svid, ⟨valid, issued, refused⟩, after_emit rfl (after_send ?_)⟩
    rw [authn]
    exact ⟨rfl, rfl, rfl, List.append_nil _⟩

theorem live_exit (path : GoString) :
    ∃ exit, Ends fixtures d (shipmentID path) exit ∧
      Shows c d exit (liveLookup c fixtures d path) := by
  unfold liveLookup
  by_cases bad : shipmentID path = [] ∨ slash ∈ shipmentID path
  · refine ⟨.badID, fun valid => ?_, ?_⟩
    · rcases bad with empty | nested
      · exact valid.1 empty
      · exact valid.2 nested
    · rw [if_pos bad]
      exact ⟨rfl, rfl, rfl, rfl⟩
  · have valid : ValidID (shipmentID path) :=
      ⟨fun empty => bad (Or.inl empty), fun nested => bad (Or.inr nested)⟩
    rw [if_neg bad]
    cases issued : d.fetchJWTSVID with
    | error err => exact ⟨.noIdentity, ⟨valid, err, issued⟩, rfl, rfl, rfl, rfl⟩
    | ok svid =>
      obtain ⟨exit, ends, after⟩ := @token_exit c fixtures d _ svid valid issued
      exact ⟨exit, ends, shows_from_start (after_emit rfl after)⟩

variable (c fixtures d)

/-- A lookup ends in one of the exits, with the status, the body, the events and the
    requests of that exit; so it answers 200, with the row, only where the id is valid, an
    SVID was issued, a token was answered for it and a secret for that token, and the id
    is a fixture's. -/
theorem carrier_fails_closed (path : GoString) :
    (∃ exit, Ends fixtures d (shipmentID path) exit ∧
      Shows c d exit (liveLookup c fixtures d path)) ∧
    (∀ response, (liveLookup c fixtures d path).response = some response → response.status = 200 →
      ∃ svid token row, Fetched d (shipmentID path) svid token ∧
        fixtures (shipmentID path) = some row ∧ response.body = c.encodeRow row) := by
  obtain ⟨exit, ends, shows⟩ := @live_exit c fixtures d path
  refine ⟨⟨exit, ends, shows⟩, ?_⟩
  intro response answered ok
  have status := shows.status
  have body := shows.body
  rw [answered, Option.map_some, Option.some.injEq] at status body
  rw [ok] at status
  cases exit with
  | found svid token row => exact ⟨svid, token, row, ends.1, ends.2, body⟩
  | badID | noIdentity | noToken | noSecret | emptySecret | miss => simp [Exit.status] at status

end exits
end SwaCarrier
