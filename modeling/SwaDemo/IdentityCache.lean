import SwaDemo.CarrierCall
import Mathlib.Data.List.Induction

/-!
The portal's `/identity` (`apps/portal/identity.go`): the portal's own SVID beside the
carrier's, which is asked for over the network and kept for 30 seconds. The cache holds
the outcome of the last call to the carrier, be it a response or an error, and asks
only whether there is a response.
-/
namespace SwaIdentity
open SwaTrace SwaHttp Runs

structure IdentityResp where
  sanURI : GoString
  notBefore : Int
  notAfter : Int
  keyAlg : GoString
  rotationMinutes : Int
  subjectDN : GoString
  issuerDN : GoString
  serial : GoString
  sigAlg : GoString
  fingerprintSHA256 : GoString
  deriving DecidableEq, Repr

inductive PublicKey where
  | rsa (bitLen : Nat)
  | ecdsa (curve : GoString)
  | other
  deriving DecidableEq, Repr

/-- `x509.Certificate` as far as the aggregator reads it, with the texts that the library
    makes of its names, its serial number in hexadecimal, its signature algorithm and
    the SHA-256 sum of its bytes. Times count nanoseconds. -/
structure Certificate where
  notBefore : Int
  notAfter : Int
  publicKey : PublicKey
  subject : GoString
  issuer : GoString
  serialNumber : Option GoString
  signatureAlgorithm : GoString
  sum256 : GoString
  deriving DecidableEq, Repr

structure X509SVID where
  id : GoString
  trustDomain : GoString
  path : GoString
  certificates : List Certificate
  deriving DecidableEq, Repr

structure IdentityConfig where
  serverGroup : GoString
  attestor : GoString
  secretID : GoString
  deriving DecidableEq, Repr

structure IdentityFullResp where
  trustDomain : GoString
  serverGroup : GoString
  nodeGroup : GoString
  attestor : GoString
  secretID : GoString
  portalSVID : Option IdentityResp
  carrierSVID : Option IdentityResp
  warning : GoString
  deriving DecidableEq, Repr

/-- `time.Time.Sub`, which saturates. -/
def timeSub (t u : Int) : Int :=
  max (-9223372036854775808) (min 9223372036854775807 (t - u))

def minute : Int := 60000000000

/-- 30 seconds. -/
def carrierCacheTTL : Int := 30000000000

def keyAlgString : PublicKey → GoString
  | .rsa bitLen => goString ("RSA-" ++ toString bitLen)
  | .ecdsa curve => goString "EC-" ++ curve
  | .other => goString "unknown"

/-- "/kind-ng/ns/swa-demo/sa/portal" gives "kind-ng". -/
def firstPathSegment (path : GoString) : GoString :=
  (SwaCarrier.trimPrefix path (goString "/")).takeWhile (· ≠ SwaCarrier.slash)

def certIdentity (sanURI : GoString) (cert : Certificate) : IdentityResp where
  sanURI := sanURI
  notBefore := cert.notBefore
  notAfter := cert.notAfter
  keyAlg := keyAlgString cert.publicKey
  rotationMinutes := (timeSub cert.notAfter cert.notBefore).tdiv minute
  subjectDN := cert.subject
  issuerDN := cert.issuer
  serial := cert.serialNumber.getD []
  sigAlg := cert.signatureAlgorithm
  fingerprintSHA256 := cert.sum256

/-- What `CarrierClient.Identity` uses of the standard library: the host name of a URL,
    why a request cannot be built, the answer to one, and the decoder of its body. -/
structure IdentityWire where
  hostname : GoString → Except GoString GoString
  newRequest : GoString → Option GoString
  send : GoString → Except GoString (Nat × Body)
  decode : Body → Except GoString IdentityResp

/-- The two results of `identityFromURL`. -/
def identityFromURL (w : IdentityWire) (url : GoString) : Option IdentityResp × Option GoString :=
  match w.newRequest url with
  | some err => (none, some err)
  | none =>
    match w.send url with
    | .error err => (none, some err)
    | .ok (status, body) =>
      if status ≠ 200 then
        (none, some (goString ("carrier /identity: status " ++ toString status)))
      else
        match w.decode body with
        | .error err => (none, some err)
        | .ok out => (some out, none)

/-- `CarrierClient.Identity` -/
def identity (w : IdentityWire) (baseURL : GoString) : Option IdentityResp × Option GoString :=
  match w.hostname baseURL with
  | .error err => (none, some err)
  | .ok host => identityFromURL w (goString "https://" ++ host ++ goString ":8444/identity")

/-- How a call to the carrier ends: a response or an error, and never both. -/
abbrev Outcome := Except GoString IdentityResp

def returned : Outcome → Option IdentityResp × Option GoString
  | .ok resp => (some resp, none)
  | .error err => (none, some err)

/-- The aggregator's cache, its clock being read from outside. -/
structure Aggregator where
  cachedAt : Int
  cachedResp : Option IdentityResp
  cachedErr : Option GoString
  deriving DecidableEq, Repr

def newIdentityAggregator : Aggregator := ⟨0, none, none⟩

/-- One call of `snapshot` and what it meets: how long after the call before it looks into
    the cache, what `GetX509SVID` gives (`none` for an error or no SVID), and how a call
    to the carrier would end and how long it would take. -/
structure Visit where
  wait : Nat
  portalSVID : Option X509SVID
  remote : Outcome
  took : Nat

/-- A call to the carrier, by the time at which it was over. -/
structure RemoteCall where
  completedAt : Int
  outcome : Outcome

/-- What a visit did: when it looked into the cache, whether it called the carrier, and
    what it answered. -/
structure Served where
  checkedAt : Option Int
  remoteCall : Option RemoteCall
  full : IdentityFullResp
  code : Nat

/-- `carrierCached`, which looks into the cache at `now`. -/
def carrierCached (now : Int) (v : Visit) (a : Aggregator) :
    Aggregator × (Option IdentityResp × Option GoString) × Option RemoteCall :=
  if a.cachedResp.isSome ∧ timeSub now a.cachedAt < carrierCacheTTL then
    (a, (a.cachedResp, a.cachedErr), none)
  else
    let (resp, err) := returned v.remote
    (⟨now + v.took, resp, err⟩, (resp, err), some ⟨now + v.took, v.remote⟩)

structure World where
  now : Int
  aggregator : Aggregator

variable (cfg : IdentityConfig)

/-- The leaf certificate of an SVID that can be read. -/
def readable (v : Visit) : Option (X509SVID × Certificate) :=
  v.portalSVID.bind fun svid => svid.certificates.head?.map (svid, ·)

def snapshot (w : World) (v : Visit) : World × Served :=
  let out : IdentityFullResp := ⟨[], cfg.serverGroup, [], cfg.attestor, cfg.secretID, none, none, []⟩
  match readable v with
  | none => (⟨w.now + v.wait, w.aggregator⟩, ⟨none, none, out, 503⟩)
  | some (svid, pcert) =>
    let out := { out with
      portalSVID := some (certIdentity svid.id pcert)
      trustDomain := svid.trustDomain
      nodeGroup := firstPathSegment svid.path }
    let now := w.now + v.wait
    let (aggregator, (cresp, cerr), remoteCall) := carrierCached now v w.aggregator
    let out :=
      match cerr with
      | some err => { out with warning := goString "carrier unreachable: " ++ err }
      | none => { out with carrierSVID := cresp }
    (⟨now + (remoteCall.elim 0 fun _ => v.took), aggregator⟩, ⟨some now, remoteCall, out, 200⟩)

/-- The world after some visits, and what each of them did. -/
def after (w : World) (visits : List Visit) : World := run (fun w v => (snapshot cfg w v).1) w visits

def served (w : World) : List Visit → List Served
  | [] => []
  | v :: visits => (snapshot cfg w v).2 :: served (snapshot cfg w v).1 visits

def remoteCalls (log : List Served) : List RemoteCall := log.filterMap (·.remoteCall)

/-- What is fresh about a visit after the ones in `log`. -/
structure Fresh (log : List Served) (v : Visit) (s : Served) : Prop where
  /-- A carrier SVID is that of a call made now, or else of the last call made before,
      which was over less than 30 s before the cache was looked into. -/
  shown : ∀ resp, s.full.carrierSVID = some resp →
    (∃ t, s.remoteCall = some ⟨t, .ok resp⟩) ∨
      s.remoteCall = none ∧ ∃ checked t, s.checkedAt = some checked ∧
        (remoteCalls log).getLast? = some ⟨t, .ok resp⟩ ∧ t ≤ checked ∧
        checked - t < carrierCacheTTL
  /-- The carrier is called only if every successful call was over 30 s ago or earlier. -/
  patient : s.remoteCall ≠ none → ∃ checked, s.checkedAt = some checked ∧
    ∀ t resp, ⟨t, .ok resp⟩ ∈ remoteCalls log → carrierCacheTTL ≤ checked - t
  /-- A warning is about a call made now. -/
  warned : s.full.warning ≠ [] → ∃ t err, s.remoteCall = some ⟨t, .error err⟩ ∧
    s.full.warning = goString "carrier unreachable: " ++ err
  /-- After a call that failed the carrier is called again. -/
  retried : ∀ t err, (remoteCalls log).getLast? = some ⟨t, .error err⟩ → readable v ≠ none →
    s.remoteCall ≠ none

theorem identity_outcome (w : IdentityWire) (baseURL : GoString) :
    ∃ outcome, identity w baseURL = returned outcome := by
  have fromURL (url : GoString) : ∃ outcome, identityFromURL w url = returned outcome := by
    unfold identityFromURL
    cases w.newRequest url with
    | some err => exact ⟨.error err, rfl⟩
    | none =>
      cases w.send url with
      | error err => exact ⟨.error err, rfl⟩
      | ok reply =>
        obtain ⟨status, body⟩ := reply
        by_cases ok : status = 200
        · cases decoded : w.decode body with
          | error err => exact ⟨.error err, by simp [ok, decoded, returned]⟩
          | ok out => exact ⟨.ok out, by simp [ok, decoded, returned]⟩
        · refine ⟨.error (goString ("carrier /identity: status " ++ toString status)), ?_⟩
          simp [ok, returned]
  unfold identity
  cases w.hostname baseURL with
  | error err => exact ⟨.error err, rfl⟩
  | ok host => exact fromURL _

/-- The cache is the outcome of the last call, and what succeeded before it is past its
    time. -/
structure Kept (log : List Served) (w : World) : Prop where
  empty : (remoteCalls log).getLast? = none → w.aggregator.cachedResp = none
  last : ∀ call, (remoteCalls log).getLast? = some call →
    (w.aggregator.cachedResp, w.aggregator.cachedErr) = returned call.outcome ∧
      w.aggregator.cachedAt = call.completedAt ∧ call.completedAt ≤ w.now
  stale : ∀ t resp, ⟨t, .ok resp⟩ ∈ remoteCalls log →
    (remoteCalls log).getLast? = some ⟨t, .ok resp⟩ ∨ carrierCacheTTL ≤ w.now - t

theorem kept_initial (start : Int) : Kept [] ⟨start, newIdentityAggregator⟩ where
  empty := fun _ => rfl
  last := fun _ none_ => nomatch none_
  stale := fun _ _ mem => nomatch mem

theorem timeSub_hit {now t : Int} (past : t ≤ now) :
    timeSub now t < carrierCacheTTL ↔ now - t < carrierCacheTTL := by
  unfold timeSub carrierCacheTTL
  omega

theorem remoteCalls_concat (log : List Served) (s : Served) :
    remoteCalls (log ++ [s]) = remoteCalls log ++ s.remoteCall.toList := by
  cases call : s.remoteCall <;> simp [remoteCalls, call]

theorem kept_later {log : List Served} {w : World} (kept : Kept log w) (n : Nat) :
    Kept log ⟨w.now + n, w.aggregator⟩ where
  empty := kept.empty
  last := by
    intro call is
    obtain ⟨same, at_, past⟩ := kept.last call is
    exact ⟨same, at_, by simp only; omega⟩
  stale := by
    intro t resp mem
    rcases kept.stale t resp mem with is | old
    · exact Or.inl is
    · exact Or.inr (by simp only; omega)

/-- The two ways through `carrierCached`. A hit serves the last call, which succeeded
    less than 30 s ago; on a miss no call did. -/
theorem carrierCached_cases {log : List Served} {w : World} (kept : Kept log w) (v : Visit) :
    (∃ t resp, (remoteCalls log).getLast? = some ⟨t, .ok resp⟩ ∧ t ≤ w.now ∧
      w.now - t < carrierCacheTTL ∧
      carrierCached w.now v w.aggregator = (w.aggregator, (some resp, none), none)) ∨
    ((∀ t resp, ⟨t, .ok resp⟩ ∈ remoteCalls log → carrierCacheTTL ≤ w.now - t) ∧
      carrierCached w.now v w.aggregator =
        (⟨w.now + v.took, (returned v.remote).1, (returned v.remote).2⟩, returned v.remote,
          some ⟨w.now + v.took, v.remote⟩)) := by
  have miss (stop : ¬ (w.aggregator.cachedResp.isSome = true ∧
      timeSub w.now w.aggregator.cachedAt < carrierCacheTTL)) :
      carrierCached w.now v w.aggregator =
        (⟨w.now + v.took, (returned v.remote).1, (returned v.remote).2⟩, returned v.remote,
          some ⟨w.now + v.took, v.remote⟩) := if_neg stop
  cases last : (remoteCalls log).getLast? with
  | none =>
    have none_ : remoteCalls log = [] := List.getLast?_eq_none_iff.mp last
    refine Or.inr ⟨fun t resp mem => ?_, miss ?_⟩
    · rw [none_] at mem
      contradiction
    · simp [kept.empty last]
  | some call =>
    obtain ⟨same, at_, past⟩ := kept.last call last
    obtain ⟨t, outcome⟩ := call
    cases outcome with
    | error err =>
      obtain ⟨resp, _⟩ := Prod.mk.inj same
      refine Or.inr ⟨fun t' resp' mem => ?_, miss ?_⟩
      · rcases kept.stale t' resp' mem with is | old
        · rw [last] at is
          cases is
        · exact old
      · simp [resp]
    | ok resp =>
      obtain ⟨cached, err⟩ := Prod.mk.inj same
      by_cases young : w.now - t < carrierCacheTTL
      · refine Or.inl ⟨t, resp, rfl, past, young, ?_⟩
        rw [carrierCached, if_pos ⟨by simp [cached], by rw [at_]; exact (timeSub_hit past).mpr young⟩,
          cached, err]
      · refine Or.inr ⟨fun t' resp' mem => ?_, miss ?_⟩
        · rcases kept.stale t' resp' mem with is | old
          · rw [last] at is
            cases is
            omega
          · exact old
        · rintro ⟨_, hit⟩
          rw [at_] at hit
          exact young ((timeSub_hit past).mp hit)

theorem kept_called {log : List Served} {w : World} {s : Served} {outcome : Outcome} {n : Nat}
    (called : s.remoteCall = some ⟨w.now + n, outcome⟩)
    (old : ∀ t resp, ⟨t, .ok resp⟩ ∈ remoteCalls log → carrierCacheTTL ≤ w.now - t) :
    Kept (log ++ [s]) ⟨w.now + n, ⟨w.now + n, (returned outcome).1, (returned outcome).2⟩⟩ := by
  have calls : remoteCalls (log ++ [s]) = remoteCalls log ++ [⟨w.now + n, outcome⟩] := by
    rw [remoteCalls_concat, called]
    rfl
  have last : (remoteCalls (log ++ [s])).getLast? = some ⟨w.now + n, outcome⟩ := by
    rw [calls, List.getLast?_concat]
  refine ⟨fun none_ => ?_, fun call is => ?_, fun t resp mem => ?_⟩
  · rw [last] at none_
    contradiction
  · rw [last] at is
    cases is
    exact ⟨rfl, rfl, Int.le_refl _⟩
  · rw [calls] at mem
    rcases List.mem_append.mp mem with before | now
    · have := old t resp before
      exact Or.inr (by simp only; omega)
    · rw [last, List.mem_singleton.mp now]
      exact Or.inl rfl

theorem kept_uncalled {log : List Served} {w : World} {s : Served} (kept : Kept log w)
    (uncalled : s.remoteCall = none) : Kept (log ++ [s]) w := by
  have calls : remoteCalls (log ++ [s]) = remoteCalls log := by
    rw [remoteCalls_concat, uncalled]
    exact List.append_nil _
  exact ⟨calls ▸ kept.empty, calls ▸ kept.last, calls ▸ kept.stale⟩

theorem snapshot_fresh {log : List Served} {w : World} (kept : Kept log w) (v : Visit) :
    Fresh log v (snapshot cfg w v).2 ∧
      Kept (log ++ [(snapshot cfg w v).2]) (snapshot cfg w v).1 := by
  have later := kept_later kept v.wait
  unfold snapshot
  cases leaf : readable v with
  | none =>
    refine ⟨⟨fun _ shown => (nomatch shown), fun called => absurd rfl called,
      fun warned => absurd rfl warned, fun _ _ _ read => absurd leaf read⟩, ?_⟩
    exact kept_uncalled later rfl
  | some pair =>
    obtain ⟨svid, pcert⟩ := pair
    rcases carrierCached_cases later v with
      ⟨t, resp, last, past, young, hit⟩ | ⟨old, miss⟩
    · simp only [hit]
      refine ⟨⟨fun shown is => ?_, fun called => absurd rfl called, fun warned => absurd rfl warned,
        fun t' err' is => ?_⟩, ?_⟩
      · cases is
        exact Or.inr ⟨rfl, _, t, rfl, last, past, young⟩
      · rw [last] at is
        cases is
      · exact kept_uncalled (by simpa using later) rfl
    · simp only [miss]
      cases outcome : v.remote with
      | ok resp =>
        refine ⟨⟨fun shown is => ?_, fun _ => ⟨_, rfl, old⟩, fun warned => absurd rfl warned,
          fun _ _ _ _ => by simp⟩, ?_⟩
        · cases is
          exact Or.inl ⟨_, rfl⟩
        · exact kept_called rfl old
      | error err =>
        refine ⟨⟨fun shown is => (nomatch is), fun _ => ⟨_, rfl, old⟩, fun _ => ⟨_, err, rfl, rfl⟩,
          fun _ _ _ _ => by simp⟩, ?_⟩
        exact kept_called rfl old

theorem served_concat (w : World) (visits : List Visit) (v : Visit) :
    served cfg w (visits ++ [v]) = served cfg w visits ++ [(snapshot cfg (after cfg w visits) v).2] := by
  induction visits generalizing w with
  | nil => rfl
  | cons first visits ih => exact congrArg ((snapshot cfg w first).2 :: ·) (ih (snapshot cfg w first).1)

theorem kept_after (start : Int) (visits : List Visit) :
    Kept (served cfg ⟨start, newIdentityAggregator⟩ visits)
      (after cfg ⟨start, newIdentityAggregator⟩ visits) := by
  induction visits using List.reverseRecOn with
  | nil => exact kept_initial start
  | append_singleton visits v ih =>
    have next : after cfg ⟨start, newIdentityAggregator⟩ (visits ++ [v]) =
        (snapshot cfg (after cfg ⟨start, newIdentityAggregator⟩ visits) v).1 := run_concat _ _ _ _
    rw [served_concat, next]
    exact (snapshot_fresh cfg ih v).2

/-- Whatever was visited before, with whatever outcomes and at whatever times, the next
    visit is fresh. -/
theorem carrier_identity_fresh (start : Int) (earlier : List Visit) (v : Visit) :
    Fresh (served cfg ⟨start, newIdentityAggregator⟩ earlier) v
      (snapshot cfg (after cfg ⟨start, newIdentityAggregator⟩ earlier) v).2 :=
  (snapshot_fresh cfg (kept_after cfg start earlier) v).1

end SwaIdentity
