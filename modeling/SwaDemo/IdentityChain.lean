import SwaDemo.IdentityCache
import SwaDemo.ResolveRequest
import SwaDemo.Rfc3339

/-!
The identity of the carrier on its way to the page of the portal: the carrier writes what
its certificate says as JSON (`apps/carrier/identity.go`), the portal's client reads it
(`identityFromURL`), the aggregator keeps it and writes it again beside the portal's own.
-/
namespace SwaIdentity
open SwaTrace SwaHttp Runs
open Json (Value)
open SwaToken (maxNestingDepth storeString storeInt64)
open SwaChain (firstObject foldName)

/-! ## Writing -/

/-- The members in the order of the struct, the two times as their texts. -/
def membersOf (r : IdentityResp) (notBefore notAfter : GoString) : List (GoString × Value) := [
  (goString "san_uri", .str r.sanURI),
  (goString "not_before", .str notBefore),
  (goString "not_after", .str notAfter),
  (goString "key_alg", .str r.keyAlg),
  (goString "rotation_minutes", .num (Json.Numeral.ofInt r.rotationMinutes)),
  (goString "subject_dn", .str r.subjectDN),
  (goString "issuer_dn", .str r.issuerDN),
  (goString "serial", .str r.serial),
  (goString "sig_alg", .str r.sigAlg),
  (goString "fingerprint_sha256", .str r.fingerprintSHA256)]

/-- The encoder fails on a time that it cannot write. -/
def identityMembers (r : IdentityResp) : Option (List (GoString × Value)) := do
  let notBefore ← Rfc3339.format r.notBefore
  let notAfter ← Rfc3339.format r.notAfter
  return membersOf r notBefore notAfter

/-- `json.NewEncoder(w).Encode`, which writes nothing where it fails. -/
def encodeBody : Option (List (GoString × Value)) → GoString
  | some members => Json.encode Json.goQuoting (.obj members) ++ [10]
  | none => []

def leaf (svid : Option X509SVID) : Option (X509SVID × Certificate) :=
  svid.bind fun svid => svid.certificates.head?.map (svid, ·)

/-- The carrier's handler, by what `GetX509SVID` gives: its status and its body. -/
def handleIdentity (svid : Option X509SVID) : Nat × GoString :=
  match leaf svid with
  | none => (500, goString "x509 svid unavailable\n")
  | some (svid, cert) => (200, encodeBody (identityMembers (certIdentity svid.id cert)))

/-! ## Reading -/

/-- The first of January of the year 1. -/
def zeroTime : Int := -62135596800000000000

def zeroIdentity : IdentityResp := ⟨[], zeroTime, zeroTime, [], 0, [], [], [], [], []⟩

/-- What the decoder takes beyond the strict format, and the texts of its errors. -/
structure Leniency where
  time : GoString → Option Int
  error : Body → GoString

variable (l : Leniency)

def storeTime (old : Int) : Value → Option Int
  | .null => some old
  | .str s => (Rfc3339.parse s).or (l.time s)
  | _ => none

/-- A field of the response: its name and what storing a value in it gives. -/
structure Field where
  name : GoString
  store : IdentityResp → Value → Option IdentityResp

def identityFields : List Field := [
  ⟨goString "san_uri", fun r v => (storeString r.sanURI v).map fun s => { r with sanURI := s }⟩,
  ⟨goString "not_before", fun r v => (storeTime l r.notBefore v).map fun t => { r with notBefore := t }⟩,
  ⟨goString "not_after", fun r v => (storeTime l r.notAfter v).map fun t => { r with notAfter := t }⟩,
  ⟨goString "key_alg", fun r v => (storeString r.keyAlg v).map fun s => { r with keyAlg := s }⟩,
  ⟨goString "rotation_minutes", fun r v =>
    (storeInt64 r.rotationMinutes v).map fun n => { r with rotationMinutes := n }⟩,
  ⟨goString "subject_dn", fun r v => (storeString r.subjectDN v).map fun s => { r with subjectDN := s }⟩,
  ⟨goString "issuer_dn", fun r v => (storeString r.issuerDN v).map fun s => { r with issuerDN := s }⟩,
  ⟨goString "serial", fun r v => (storeString r.serial v).map fun s => { r with serial := s }⟩,
  ⟨goString "sig_alg", fun r v => (storeString r.sigAlg v).map fun s => { r with sigAlg := s }⟩,
  ⟨goString "fingerprint_sha256", fun r v =>
    (storeString r.fingerprintSHA256 v).map fun s => { r with fingerprintSHA256 := s }⟩]

/-- A member goes into the field of its name, whatever the case, and is skipped where there is none. -/
def storeIdentity (r : IdentityResp) (m : GoString × Value) : Option IdentityResp :=
  match (identityFields l).find? fun field => foldName m.1 = foldName field.name with
  | some field => field.store r m.2
  | none => some r

/-- `json.NewDecoder(resp.Body).Decode(&out)`; a `null` at the front is a value of its own,
    whatever comes after it. -/
def decodeIdentity (body : Body) : Except GoString IdentityResp :=
  match firstObject [] body.reads.flatten with
  | some members =>
    match members.foldlM (storeIdentity l) zeroIdentity with
    | some out => .ok out
    | none => .error (l.error body)
  | none =>
    if body.reads.flatten.all Json.isSpace then .error (body.err.getD (goString "EOF"))
    else if (goString "null").isPrefixOf (body.reads.flatten.dropWhile Json.isSpace) then
      .ok zeroIdentity
    else .error (l.error body)

/-! ## What is written is read -/

/-- A string that is not UTF-8 is written with the replacement character. -/
def respelled (r : IdentityResp) : IdentityResp :=
  { r with
    sanURI := Json.repair 0 r.sanURI
    keyAlg := Json.repair 0 r.keyAlg
    subjectDN := Json.repair 0 r.subjectDN
    issuerDN := Json.repair 0 r.issuerDN
    serial := Json.repair 0 r.serial
    sigAlg := Json.repair 0 r.sigAlg
    fingerprintSHA256 := Json.repair 0 r.fingerprintSHA256 }

theorem repair_name (s : String) : Json.repair 0 (goString s) = goString s :=
  Json.repair_utf8 (Json.utf8_string s)

theorem repair_time {t : Int} {text : GoString} (written : Rfc3339.format t = some text) :
    Json.repair 0 text = text :=
  Json.repair_utf8 (Json.utf8_ascii (Rfc3339.format_ascii written))

theorem identityMembers_iff {r : IdentityResp} {members : List (GoString × Value)} :
    identityMembers r = some members ↔ ∃ notBefore notAfter,
      Rfc3339.format r.notBefore = some notBefore ∧ Rfc3339.format r.notAfter = some notAfter ∧
        members = membersOf r notBefore notAfter := by
  unfold identityMembers
  cases Rfc3339.format r.notBefore with
  | none => simp
  | some notBefore =>
    cases Rfc3339.format r.notAfter with
    | none => simp
    | some notAfter => simp [eq_comm]

theorem respell_membersOf (r : IdentityResp) {notBefore notAfter : GoString}
    (before : Json.repair 0 notBefore = notBefore) (after : Json.repair 0 notAfter = notAfter) :
    Json.respellMembers (Json.repair 0) (membersOf r notBefore notAfter) =
      membersOf (respelled r) notBefore notAfter := by
  simp only [membersOf, Json.respellMembers, Value.respell, repair_name, before, after, respelled]

theorem membersOf_regular (r : IdentityResp) (notBefore notAfter : GoString) :
    Json.RegularMembers (membersOf r notBefore notAfter) := by
  simp [membersOf, Json.RegularMembers, Value.Regular, Json.Numeral.regular_ofInt]

theorem membersOf_depth (r : IdentityResp) (notBefore notAfter : GoString) :
    Json.depthMembers (membersOf r notBefore notAfter) = 0 := by
  simp [membersOf, Json.depthMembers, Value.depth]

theorem identityMembers_respell {r : IdentityResp} {members : List (GoString × Value)}
    (written : identityMembers r = some members) :
    identityMembers (respelled r) = some (Json.respellMembers (Json.repair 0) members) := by
  obtain ⟨notBefore, notAfter, before, after, rfl⟩ := identityMembers_iff.mp written
  rw [respell_membersOf r (repair_time before) (repair_time after)]
  exact identityMembers_iff.mpr ⟨notBefore, notAfter, before, after, rfl⟩

/-- A duration in minutes, which `Sub` has cut off at 292 years. -/
theorem minutes_fit (t u : Int) :
    SwaToken.FitsInt64 (Json.Numeral.ofInt ((timeSub t u).tdiv minute)) := by
  have cut : (timeSub t u).natAbs ≤ 9223372036854775808 := by
    rw [timeSub]
    omega
  have less : ((timeSub t u).tdiv minute).natAbs ≤ 153722867280 := by
    rw [Int.natAbs_tdiv]
    change (timeSub t u).natAbs / 60000000000 ≤ 153722867280
    omega
  refine ⟨⟨rfl, rfl⟩, ?_⟩
  rw [Json.Numeral.integer_ofInt]
  omega

/-- The fields are told apart by their names. -/
theorem store_field {field : Field} (mem : field ∈ identityFields l) (r : IdentityResp) (v : Value) :
    storeIdentity l r (field.name, v) = field.store r v := by
  simp only [identityFields, List.mem_cons, List.not_mem_nil, or_false] at mem
  rcases mem with rfl | rfl | rfl | rfl | rfl | rfl | rfl | rfl | rfl | rfl <;> rfl

theorem store_members {fields : List Field} {members : List (GoString × Value)}
    (known : ∀ field ∈ fields, field ∈ identityFields l)
    (named : members.map Prod.fst = fields.map Field.name) (r : IdentityResp) :
    members.foldlM (storeIdentity l) r =
      (fields.zip members).foldlM (fun r (field, m) => field.store r m.2) r := by
  induction fields generalizing members r with
  | nil =>
    obtain rfl := List.map_eq_nil_iff.mp named
    rfl
  | cons field fields ih =>
    obtain ⟨⟨_, v⟩, rest, rfl, rfl, names⟩ := List.map_eq_cons_iff.mp named
    rw [List.zip_cons_cons, List.foldlM_cons, List.foldlM_cons,
      store_field l (known field List.mem_cons_self)]
    exact bind_congr fun next => ih (fun other mem => known other (List.mem_cons_of_mem _ mem)) names next

/-- Each field takes what the encoder wrote for it. -/
theorem store_membersOf {r : IdentityResp} {notBefore notAfter : GoString}
    (before : Rfc3339.format r.notBefore = some notBefore)
    (after : Rfc3339.format r.notAfter = some notAfter)
    (fits : SwaToken.FitsInt64 (Json.Numeral.ofInt r.rotationMinutes)) :
    (membersOf r notBefore notAfter).foldlM (storeIdentity l) zeroIdentity = some r := by
  have begins (old : Int) : storeTime l old (.str notBefore) = some r.notBefore := by
    rw [storeTime, Rfc3339.parse_format before, Option.some_or]
  have ends (old : Int) : storeTime l old (.str notAfter) = some r.notAfter := by
    rw [storeTime, Rfc3339.parse_format after, Option.some_or]
  have minutes (old : Int) :
      storeInt64 old (.num (Json.Numeral.ofInt r.rotationMinutes)) = some r.rotationMinutes := by
    rw [storeInt64, if_pos fits, Json.Numeral.integer_ofInt]
  rw [@store_members l (identityFields l) _ (fun _ mem => mem) rfl]
  simp only [identityFields, membersOf, List.zip_cons_cons, List.zip_nil_left, List.foldlM_cons,
    List.foldlM_nil, storeString, begins, ends, minutes, Option.map_some, Option.bind_eq_bind,
    Option.bind_some]
  rfl

/-- What the carrier writes of a response is read by the portal, in whatever pieces it comes. -/
theorem decode_written {r : IdentityResp} {members : List (GoString × Value)}
    (written : identityMembers r = some members)
    (fits : SwaToken.FitsInt64 (Json.Numeral.ofInt r.rotationMinutes)) {body : Body}
    (whole : body.reads.flatten = encodeBody (some members)) :
    decodeIdentity l body = .ok (respelled r) := by
  obtain ⟨notBefore, notAfter, before, after, rfl⟩ := identityMembers_iff.mp written
  have respell := respell_membersOf r (repair_time before) (repair_time after)
  have regular : Value.Regular (.obj (membersOf r notBefore notAfter)) :=
    membersOf_regular r notBefore notAfter
  have read := SwaChain.firstObject_encode Json.goQuoting regular (by
    rw [show Json.goQuoting.meaning = Json.repair 0 from rfl, respell, membersOf_depth]
    decide) [10]
  rw [show Json.goQuoting.meaning = Json.repair 0 from rfl, respell] at read
  have stored : (membersOf (respelled r) notBefore notAfter).foldlM (storeIdentity l) zeroIdentity =
      some (respelled r) := store_membersOf l before after fits
  rw [decodeIdentity, whole, encodeBody, read]
  simp only [stored]

/-! ## A call of the portal -/

/-- What a call tells of the carrier whose source gives this SVID. -/
def told (svid : Option X509SVID) : Outcome :=
  match leaf svid with
  | none => .error (goString "carrier /identity: status 500")
  | some (svid, cert) =>
    if (identityMembers (certIdentity svid.id cert)).isSome then
      .ok (respelled (certIdentity svid.id cert))
    else .error (goString "EOF")

/-- The request reaches the carrier's handler and its answer comes back whole. -/
structure Serves (w : IdentityWire) (baseURL : GoString) (svid : Option X509SVID) : Prop where
  decoder : w.decode = decodeIdentity l
  reached : ∃ host reads, w.hostname baseURL = .ok host ∧
    w.newRequest (goString "https://" ++ host ++ goString ":8444/identity") = none ∧
      w.send (goString "https://" ++ host ++ goString ":8444/identity") =
        .ok ((handleIdentity svid).1, ⟨reads, none⟩) ∧ reads.flatten = (handleIdentity svid).2

theorem identity_told {w : IdentityWire} {baseURL : GoString} {svid : Option X509SVID}
    (serves : Serves l w baseURL svid) : identity w baseURL = returned (told svid) := by
  obtain ⟨host, reads, named, requested, sent, whole⟩ := serves.reached
  rw [identity, named]
  simp only [identityFromURL, requested, sent, serves.decoder]
  cases found : leaf svid with
  | none =>
    have refused : (handleIdentity svid).1 = 500 := by rw [handleIdentity, found]
    rw [refused, told, found]
    rfl
  | some pair =>
    obtain ⟨svid', cert⟩ := pair
    have answer : handleIdentity svid =
        (200, encodeBody (identityMembers (certIdentity svid'.id cert))) := by
      rw [handleIdentity, found]
    rw [answer] at whole ⊢
    rw [told, found]
    cases written : identityMembers (certIdentity svid'.id cert) with
    | none =>
      -- the encoder has written nothing, and the decoder meets the end
      have nothing : reads.flatten = [] := by rw [whole, written]; rfl
      have ended : decodeIdentity l ⟨reads, none⟩ = .error (goString "EOF") := by
        simp only [decodeIdentity, nothing, firstObject]
        rfl
      simp [ended, returned, written]
    | some members =>
      have sentAll : (⟨reads, none⟩ : Body).reads.flatten = encodeBody (some members) := by
        rw [whole, written]
      have read := decode_written l written (minutes_fit _ _) sentAll
      simp [read, returned, written]

/-! ## Visits to the page -/

/-- A visit of the portal's page, what the carrier's source would give meanwhile, and
    whether a call to the carrier would get through. -/
structure Meeting where
  visit : Visit
  carrier : Option X509SVID
  through : Bool

/-- The visit's call would end as the carrier's handler answers it, or fail on its way. -/
def Ends (baseURL : GoString) (m : Meeting) : Prop :=
  if m.through then
    ∃ w, Serves l w baseURL m.carrier ∧ returned m.visit.remote = identity w baseURL
  else ∃ err, m.visit.remote = .error err

/-- The response shows what the carrier's certificate of that visit says. -/
def Shows (resp : IdentityResp) (m : Meeting) : Prop :=
  ∃ svid cert, leaf m.carrier = some (svid, cert) ∧ resp = respelled (certIdentity svid.id cert)

theorem returned_injective {x y : Outcome} (same : returned x = returned y) : x = y := by
  cases x <;> cases y <;> simp_all [returned]

theorem remote_told {baseURL : GoString} {m : Meeting} (ends : Ends l baseURL m)
    (through : m.through = true) : m.visit.remote = told m.carrier := by
  rw [Ends, if_pos through] at ends
  obtain ⟨w, serves, remote⟩ := ends
  rw [identity_told l serves] at remote
  exact returned_injective remote

theorem shows_of_ok {baseURL : GoString} {m : Meeting} (ends : Ends l baseURL m) {resp : IdentityResp}
    (ok : m.visit.remote = .ok resp) : Shows resp m ∧ (identityMembers resp).isSome = true := by
  by_cases through : m.through = true
  · rw [remote_told l ends through, told] at ok
    cases found : leaf m.carrier with
    | none => simp [found] at ok
    | some pair =>
      obtain ⟨svid, cert⟩ := pair
      simp only [found] at ok
      split at ok
      · rename_i writable
        obtain ⟨members, written⟩ := Option.isSome_iff_exists.mp writable
        obtain rfl := Except.ok.inj ok
        exact ⟨⟨svid, cert, found, rfl⟩, by rw [identityMembers_respell written]; rfl⟩
      · contradiction
  · rw [Ends, if_neg through] at ends
    obtain ⟨err, failed⟩ := ends
    rw [failed] at ok
    contradiction

variable (cfg : IdentityConfig)

theorem snapshot_call (w : World) (v : Visit) {call : RemoteCall}
    (called : (snapshot cfg w v).2.remoteCall = some call) : call.outcome = v.remote := by
  unfold snapshot at called
  cases leaf : readable v with
  | none => simp [leaf] at called
  | some pair =>
    simp only [leaf, carrierCached] at called
    split at called
    · contradiction
    · obtain rfl := Option.some.inj called
      rfl

/-- Every call was made during a visit, and ended as that visit says. -/
theorem calls_met (w : World) (meetings : List Meeting) {call : RemoteCall}
    (mem : call ∈ remoteCalls (served cfg w (meetings.map (·.visit)))) :
    ∃ m s, (m, s) ∈ meetings.zip (served cfg w (meetings.map (·.visit))) ∧
      s.remoteCall = some call ∧ call.outcome = m.visit.remote := by
  induction meetings generalizing w with
  | nil => simp [remoteCalls, served] at mem
  | cons m meetings ih =>
    rw [List.map_cons, served, remoteCalls, List.mem_filterMap] at mem
    rw [List.map_cons, served, List.zip_cons_cons]
    obtain ⟨s, known, called⟩ := mem
    rcases List.mem_cons.mp known with rfl | later
    · exact ⟨m, _, List.mem_cons_self, called, snapshot_call cfg w m.visit called⟩
    · obtain ⟨m', s', among, of_, same⟩ :=
        ih (snapshot cfg w m.visit).1 (List.mem_filterMap.mpr ⟨s, later, called⟩)
      exact ⟨m', s', List.mem_cons_of_mem _ among, of_, same⟩

/-! ## The page -/

def identityValue : Option IdentityResp → Option Value
  | none => some .null
  | some r => (identityMembers r).map .obj

def fullMembers (f : IdentityFullResp) : Option (List (GoString × Value)) := do
  let portal ← identityValue f.portalSVID
  let carrier ← identityValue f.carrierSVID
  return [
    (goString "trust_domain", .str f.trustDomain),
    (goString "server_group", .str f.serverGroup),
    (goString "node_group", .str f.nodeGroup),
    (goString "attestor", .str f.attestor),
    (goString "secret_id", .str f.secretID),
    (goString "portal_svid", portal),
    (goString "carrier_svid", carrier)] ++
      (if f.warning = [] then [] else [(goString "warning", .str f.warning)])

/-- The aggregator's handler: its status and its body. -/
def handler (s : Served) : Nat × GoString := (s.code, encodeBody (fullMembers s.full))

/-- What a visit after the earlier ones, of which `log` tells what they did, may show. -/
structure Truthful (log : List Served) (earlier : List Meeting) (m : Meeting) (s : Served) : Prop where
  /-- The carrier's identity is that of its certificate now, or of the one that it had at an
      earlier visit, which asked it and had its answer less than 30 s ago. -/
  carrier : ∀ resp, s.full.carrierSVID = some resp →
    s.remoteCall ≠ none ∧ Shows resp m ∨
      ∃ m' s', (m', s') ∈ earlier.zip log ∧ Shows resp m' ∧ ∃ checked t, s.checkedAt = some checked ∧
        s'.remoteCall = some ⟨t, .ok resp⟩ ∧ t ≤ checked ∧ checked - t < carrierCacheTTL
  /-- A warning is what the carrier told, unless the call did not get through. -/
  warning : m.through = true → s.full.warning ≠ [] → ∃ err, told m.carrier = .error err ∧
    s.full.warning = goString "carrier unreachable: " ++ err
  /-- The body is the text of all of it, unless the portal's own certificate has a date that
      cannot be written. -/
  text : (∀ r, s.full.portalSVID = some r → (identityMembers r).isSome = true) →
    ∃ members, fullMembers s.full = some members ∧
      Json.parse (handler s).2 = some (.obj (Json.respellMembers (Json.repair 0) members))

theorem identityValue_some {r : Option IdentityResp}
    (writable : ∀ resp, r = some resp → (identityMembers resp).isSome = true) :
    ∃ v, identityValue r = some v ∧ v.Regular := by
  cases r with
  | none => exact ⟨.null, rfl, trivial⟩
  | some resp =>
    obtain ⟨members, written⟩ := Option.isSome_iff_exists.mp (writable resp rfl)
    refine ⟨.obj members, by rw [identityValue, written]; rfl, ?_⟩
    obtain ⟨notBefore, notAfter, _, _, rfl⟩ := identityMembers_iff.mp written
    exact membersOf_regular resp notBefore notAfter

theorem text_read {s : Served}
    (portal : ∀ r, s.full.portalSVID = some r → (identityMembers r).isSome = true)
    (carrier : ∀ r, s.full.carrierSVID = some r → (identityMembers r).isSome = true) :
    ∃ members, fullMembers s.full = some members ∧
      Json.parse (handler s).2 = some (.obj (Json.respellMembers (Json.repair 0) members)) := by
  obtain ⟨own, ownValue, ownRegular⟩ := identityValue_some portal
  obtain ⟨other, otherValue, otherRegular⟩ := identityValue_some carrier
  have full : ∃ members, fullMembers s.full = some members ∧ Json.RegularMembers members := by
    refine ⟨_, by rw [fullMembers, ownValue, otherValue]; rfl, ?_⟩
    by_cases silent : s.full.warning = [] <;>
      simp [silent, Json.RegularMembers, Value.Regular, ownRegular, otherRegular]
  obtain ⟨members, written, regular⟩ := full
  refine ⟨members, written, ?_⟩
  rw [handler, written, encodeBody, Json.parse_trailing rfl]
  exact Json.parse_encode Json.goQuoting (v := .obj members) regular

/-- Whatever certificates the carrier has had and however the calls to it ended, the page
    of the portal tells of the carrier what the carrier's certificate says. -/
theorem identity_page_true (start : Int) (baseURL : GoString) (earlier : List Meeting) (m : Meeting)
    (ends : ∀ m' ∈ earlier ++ [m], Ends l baseURL m') :
    Truthful (served cfg ⟨start, newIdentityAggregator⟩ (earlier.map (·.visit))) earlier m
      (snapshot cfg (after cfg ⟨start, newIdentityAggregator⟩ (earlier.map (·.visit))) m.visit).2 := by
  have fresh := (snapshot_fresh cfg (kept_after cfg start (earlier.map (·.visit))) m.visit).1
  have endsNow := ends m (by simp)
  generalize called : after cfg ⟨start, newIdentityAggregator⟩ (earlier.map (·.visit)) = w at fresh ⊢
  have shown : ∀ resp, (snapshot cfg w m.visit).2.full.carrierSVID = some resp →
      ((snapshot cfg w m.visit).2.remoteCall ≠ none ∧ Shows resp m ∨
        ∃ m' s', (m', s') ∈ earlier.zip (served cfg ⟨start, newIdentityAggregator⟩
            (earlier.map (·.visit))) ∧ Shows resp m' ∧ ∃ checked t,
          (snapshot cfg w m.visit).2.checkedAt = some checked ∧
            s'.remoteCall = some ⟨t, .ok resp⟩ ∧ t ≤ checked ∧ checked - t < carrierCacheTTL) ∧
        (identityMembers resp).isSome = true := by
    intro resp is
    rcases fresh.shown resp is with ⟨t, now⟩ | ⟨_, checked, t, looked, last, past, young⟩
    · have ok := snapshot_call cfg w m.visit now
      obtain ⟨shows, writable⟩ := shows_of_ok l endsNow ok.symm
      exact ⟨Or.inl ⟨by simp [now], shows⟩, writable⟩
    · obtain ⟨m', s', among, of_, ok⟩ := calls_met cfg _ earlier (List.mem_of_getLast? last)
      obtain ⟨shows, writable⟩ := shows_of_ok l (ends m' (by simp [(List.of_mem_zip among).1])) ok.symm
      exact ⟨Or.inr ⟨m', s', among, shows, checked, t, looked, of_, past, young⟩, writable⟩
  refine ⟨fun resp is => (shown resp is).1, ?_, fun portal => text_read portal fun resp is => (shown resp is).2⟩
  intro through warns
  obtain ⟨t, err, now, text⟩ := fresh.warned warns
  have failed := snapshot_call cfg w m.visit now
  exact ⟨err, (remote_told l endsNow through).symm.trans failed.symm, text⟩

/-! ## A carrier whose certificate is renewed -/

def sampleSVID (name serial : String) (from_ : Int) : X509SVID where
  id := goString ("spiffe://idira.demo/kind-ng/ns/swa-demo/sa/" ++ name)
  trustDomain := goString "idira.demo"
  path := goString ("/kind-ng/ns/swa-demo/sa/" ++ name)
  certificates := [⟨from_, from_ + 60 * minute, .rsa 2048, goString "C=US,O=SPIRE", goString "C=US",
    some (goString serial), goString "SHA256-RSA", goString "5f0c"⟩]

def sampleLeniency : Leniency := ⟨fun _ => none, fun _ => goString "unexpected EOF"⟩

def sampleWire (svid : X509SVID) : IdentityWire where
  hostname _ := .ok (goString "carrier")
  newRequest _ := none
  send _ := .ok ((handleIdentity (some svid)).1, ⟨[(handleIdentity (some svid)).2], none⟩)
  decode := decodeIdentity sampleLeniency

def sampleMeeting (wait : Nat) (serial : String) (from_ : Int) : Meeting where
  visit := ⟨wait, some (sampleSVID "portal" "7b" 0), told (some (sampleSVID "carrier" serial from_)), 1000⟩
  carrier := some (sampleSVID "carrier" serial from_)
  through := true

theorem sample_ends (wait : Nat) (serial : String) (from_ : Int) :
    Ends sampleLeniency (goString "https://carrier:8443") (sampleMeeting wait serial from_) := by
  have serves : Serves sampleLeniency (sampleWire (sampleSVID "carrier" serial from_))
      (goString "https://carrier:8443") (some (sampleSVID "carrier" serial from_)) :=
    ⟨rfl, goString "carrier", _, rfl, rfl, rfl, by simp⟩
  exact ⟨_, serves, (identity_told sampleLeniency serves).symm⟩

/-- A page within 30 seconds of a renewal. -/
theorem sample_identity_page :
    Truthful (served ⟨goString "sg", goString "k8s_psat", goString "key"⟩ ⟨0, newIdentityAggregator⟩
        [(sampleMeeting 5 "a1" 0).visit]) [sampleMeeting 5 "a1" 0] (sampleMeeting 20 "a2" (30 * minute))
      (snapshot ⟨goString "sg", goString "k8s_psat", goString "key"⟩
        (after ⟨goString "sg", goString "k8s_psat", goString "key"⟩ ⟨0, newIdentityAggregator⟩
          [(sampleMeeting 5 "a1" 0).visit]) (sampleMeeting 20 "a2" (30 * minute)).visit).2 := by
  refine identity_page_true sampleLeniency _ 0 (goString "https://carrier:8443")
    [sampleMeeting 5 "a1" 0] (sampleMeeting 20 "a2" (30 * minute)) fun m mem => ?_
  rcases List.mem_cons.mp mem with rfl | later
  · exact sample_ends 5 "a1" 0
  · obtain rfl := List.mem_singleton.mp later
    exact sample_ends 20 "a2" (30 * minute)

end SwaIdentity
