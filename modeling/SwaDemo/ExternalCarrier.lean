import SwaDemo.CarrierLookup

/-!
The external carrier of the portal (`apps/portal/external_carrier_client.go`) behind
the handler of `/resolve` (`apps/portal/handler.go`). The client tells three outcomes
of its dial apart and returns an error for each of them; the handler asks only whether
there was an error, so it reports every one of them as the trust boundary.
-/
namespace SwaPortal
open SwaTrace
open SwaCarrier (HttpResponse Served httpError)

/-- `x509.Certificate` as far as the client reads it: the text of its SAN URIs. -/
structure Certificate where
  uris : List GoString
  deriving DecidableEq, Repr

/-- An error of Go: a `*tls.CertificateVerificationError`, or one of another type with
    its text and what its `Unwrap` method returns, if it has one. -/
inductive GoError where
  | certificate (unverified : List Certificate) (err : GoError)
  | other (msg : GoString) (unwraps : List GoError)

namespace GoError

def new (msg : String) : GoError := .other (goString msg) []

def error : GoError → GoString
  | .certificate _ err => goString "tls: failed to verify certificate: " ++ err.error
  | .other msg _ => msg

mutual

/-- `errors.As` with a `**tls.CertificateVerificationError`: the certificates of the
    first such error of the tree, in preorder. -/
def asCertificate : GoError → Option (List Certificate)
  | .certificate unverified _ => some unverified
  | .other _ unwraps => asCertificateAny unwraps

def asCertificateAny : List GoError → Option (List Certificate)
  | [] => none
  | err :: errs =>
    match err.asCertificate with
    | some unverified => some unverified
    | none => asCertificateAny errs

end

/-- `err` is in the tree of an error: it is the error itself, or in the tree of one that
    the error unwraps to. -/
inductive InTree (err : GoError) : GoError → Prop where
  | self : InTree err err
  | verification {unverified : List Certificate} {cause : GoError} (below : InTree err cause) :
      InTree err (.certificate unverified cause)
  | unwrapped {msg : GoString} {unwraps : List GoError} {cause : GoError} (mem : cause ∈ unwraps)
      (below : InTree err cause) : InTree err (.other msg unwraps)

end GoError

def emit (type : String) (payload : Payload) (rest : Served) : Served :=
  ⟨newEvent "portal" type payload :: rest.events, rest.response⟩

def errAcmeUntrusted : GoError := .new "external carrier rejected at trust boundary"

/-- The leaf's first URI, where the rejected chain has one. -/
def leafURI : List Certificate → Option GoString
  | leaf :: _ => leaf.uris.head?
  | [] => none

/-- The foreign URI, where the dial failed on a certificate whose leaf has one. -/
def seenURI (err : GoError) : List TraceEvent :=
  match err.asCertificate.bind leafURI with
  | some uri => [newEvent "portal" "mtls.peer_uri_seen" [("uri", .str uri)]]
  | none => []

/-- `fmt.Errorf("%w: %v", errAcmeUntrusted, err)` on a verification failure, else the raw
    error of the dial. -/
def rejection (err : GoError) : GoError :=
  match err.asCertificate with
  | some _ => .other (errAcmeUntrusted.error ++ goString ": " ++ err.error) [errAcmeUntrusted]
  | none => err

/-- `ExternalCarrierClient.Resolve`: the events it emits and the error it returns.
    `dial` is the result of `DialContext`. -/
def resolve (addr : GoString) (dial : Except GoError Unit) (_shipmentID : GoString) :
    List TraceEvent × Option GoError :=
  match dial with
  | .error err =>
    (newEvent "portal" "mtls.handshake.start" [("peer_host", .str addr)] :: (seenURI err ++
      [newEvent "portal" "mtls.handshake.err" [("err", .str err.error)]]), some (rejection err))
  | .ok () =>
    ([newEvent "portal" "mtls.handshake.start" [("peer_host", .str addr)],
      newEvent "portal" "mtls.handshake.unexpected_ok" [("peer_host", .str addr)]],
      some (.new "external carrier handshake unexpectedly succeeded (M7 expects rejection)"))

structure ResolveReq where
  shipmentID : GoString
  carrier : GoString
  deriving DecidableEq, Repr

/-- The three results of `CarrierClient.Lookup`. -/
structure LookupReply where
  body : GoString
  code : Nat
  err : Option GoString
  deriving DecidableEq, Repr

def rejected (reason : String) : TraceEvent :=
  newEvent "portal" "portal.resolve.rejected" [("reason", .str (goString reason))]

/-- What a call emits comes before what follows it. -/
def after (events : List TraceEvent) (rest : Served) : Served :=
  ⟨events ++ rest.events, rest.response⟩

/-- `decode` is `json.NewDecoder(r.Body).Decode(&req)`; `lookup` and `external` are the
    two carrier clients. -/
def handleResolve (decode : GoString → Option ResolveReq)
    (lookup : GoString → List TraceEvent × LookupReply)
    (external : GoString → List TraceEvent × Option GoError)
    (method : String) (body : GoString) : Served :=
  if method ≠ "POST" then httpError "method not allowed" 405
  else
    match decode body with
    | none => httpError "bad request" 400
    | some req =>
      if req.shipmentID = [] then httpError "bad request" 400
      else
        let carrier := if req.carrier = [] then goString "internal" else req.carrier
        emit "portal.resolve.requested" [("id", .str req.shipmentID), ("carrier", .str carrier)]
          (if carrier = goString "external" then
            after (external req.shipmentID).1
              (match (external req.shipmentID).2 with
              | some _ => after [rejected "trust_boundary"]
                  (httpError "external carrier rejected at trust boundary" 502)
              | none => after [rejected "unexpected_ok"]
                  (httpError "external carrier handshake unexpectedly succeeded" 502))
          else
            after (lookup req.shipmentID).1
              (match (lookup req.shipmentID).2.err with
              | some err => emit "portal.resolve.error" [("err", .str err)]
                  (httpError "carrier error" 502)
              | none => ⟨[], some ⟨(lookup req.shipmentID).2.code,
                  [("Content-Type", "application/json")], (lookup req.shipmentID).2.body⟩⟩))

/-- The dial failed because the peer's certificate did not verify. -/
def VerificationFailed (dial : Except GoError Unit) : Prop :=
  ∃ err unverified cause, dial = .error err ∧ GoError.InTree (.certificate unverified cause) err

/-- The trace and the response tell what came of the dial. -/
structure Reported (dial : Except GoError Unit) (served : Served) : Prop where
  status : ∃ response, served.response = some response ∧ response.status = 502
  trustBoundary : rejected "trust_boundary" ∈ served.events ↔ VerificationFailed dial
  unexpectedOk : rejected "unexpected_ok" ∈ served.events ↔ dial = .ok ()
  peerURI : ∀ err unverified uri, dial = .error err → err.asCertificate = some unverified →
    leafURI unverified = some uri →
    served.events.filter
        (fun ev => ev.type = "mtls.peer_uri_seen" ∨ ev.type = "mtls.handshake.err") =
      [newEvent "portal" "mtls.peer_uri_seen" [("uri", .str uri)],
        newEvent "portal" "mtls.handshake.err" [("err", .str err.error)]]

namespace GoError

theorem asCertificateAny_of_mem {errs : List GoError} {err : GoError} (mem : err ∈ errs)
    (found : err.asCertificate ≠ none) : asCertificateAny errs ≠ none := by
  induction errs with
  | nil => simp at mem
  | cons first errs ih =>
    rw [asCertificateAny]
    cases head : first.asCertificate with
    | some unverified => simp
    | none =>
      rcases List.mem_cons.mp mem with rfl | mem
      · exact absurd head found
      · exact ih mem

theorem asCertificate_of_inTree {err : GoError} {unverified : List Certificate} {cause : GoError}
    (within : InTree (.certificate unverified cause) err) : err.asCertificate ≠ none := by
  induction within with
  | self => simp [asCertificate]
  | verification => simp [asCertificate]
  | unwrapped mem _ ih =>
    rw [asCertificate]
    exact asCertificateAny_of_mem mem ih

mutual

theorem inTree_of_asCertificate (err : GoError) {unverified : List Certificate}
    (found : err.asCertificate = some unverified) :
    ∃ cause, InTree (.certificate unverified cause) err := by
  cases err with
  | certificate certs cause =>
    rw [asCertificate] at found
    cases found
    exact ⟨cause, .self⟩
  | other msg unwraps =>
    rw [asCertificate] at found
    obtain ⟨below, mem, cause, within⟩ := inTree_of_asCertificateAny unwraps found
    exact ⟨cause, .unwrapped mem within⟩

theorem inTree_of_asCertificateAny (errs : List GoError) {unverified : List Certificate}
    (found : asCertificateAny errs = some unverified) :
    ∃ err ∈ errs, ∃ cause, InTree (.certificate unverified cause) err := by
  cases errs with
  | nil => simp [asCertificateAny] at found
  | cons first errs =>
    rw [asCertificateAny] at found
    cases head : first.asCertificate with
    | some certs =>
      rw [head] at found
      cases found
      obtain ⟨cause, within⟩ := inTree_of_asCertificate first head
      exact ⟨first, by simp, cause, within⟩
    | none =>
      rw [head] at found
      obtain ⟨err, mem, cause, within⟩ := inTree_of_asCertificateAny errs found
      exact ⟨err, by simp [mem], cause, within⟩

end

end GoError

theorem verificationFailed_iff (err : GoError) :
    VerificationFailed (.error err) ↔ err.asCertificate ≠ none := by
  constructor
  · rintro ⟨_, unverified, cause, same, within⟩
    cases same
    exact GoError.asCertificate_of_inTree within
  · intro found
    obtain ⟨unverified, found⟩ := Option.ne_none_iff_exists'.mp found
    obtain ⟨cause, within⟩ := GoError.inTree_of_asCertificate err found
    exact ⟨err, unverified, cause, rfl, within⟩

theorem resolve_errs (addr : GoString) (dial : Except GoError Unit) (shipmentID : GoString) :
    ∃ err, (resolve addr dial shipmentID).2 = some err := by
  cases dial with
  | ok connected => exact ⟨_, rfl⟩
  | error err => exact ⟨_, rfl⟩

theorem seenURI_type (err : GoError) : ∀ ev ∈ seenURI err, ev.type = "mtls.peer_uri_seen" := by
  intro ev mem
  unfold seenURI at mem
  split at mem
  · rw [List.mem_singleton.mp mem]
    rfl
  · simp at mem

theorem resolve_quiet (addr : GoString) (dial : Except GoError Unit) (shipmentID : GoString) :
    ∀ ev ∈ (resolve addr dial shipmentID).1, ev.type ≠ "portal.resolve.rejected" := by
  intro ev mem
  cases dial with
  | ok connected =>
    simp only [resolve, List.mem_cons, List.not_mem_nil, or_false] at mem
    rcases mem with rfl | rfl <;> simp [newEvent]
  | error err =>
    rcases List.mem_cons.mp mem with rfl | mem
    · simp [newEvent]
    · rcases List.mem_append.mp mem with seen | last
      · rw [seenURI_type err ev seen]
        simp
      · rw [List.mem_singleton.mp last]
        simp [newEvent]

theorem resolve_uri (addr : GoString) (shipmentID : GoString) {err : GoError}
    {unverified : List Certificate} {uri : GoString} (found : err.asCertificate = some unverified)
    (leaf : leafURI unverified = some uri) :
    (resolve addr (.error err) shipmentID).1 = [
      newEvent "portal" "mtls.handshake.start" [("peer_host", .str addr)],
      newEvent "portal" "mtls.peer_uri_seen" [("uri", .str uri)],
      newEvent "portal" "mtls.handshake.err" [("err", .str err.error)]] := by
  simp [resolve, seenURI, found, leaf]

section external
variable (decode : GoString → Option ResolveReq) (lookup : GoString → List TraceEvent × LookupReply)

theorem external_served (addr : GoString) (dial : Except GoError Unit) {body id : GoString}
    (decoded : decode body = some ⟨id, goString "external"⟩) (named : id ≠ []) :
    handleResolve decode lookup (resolve addr dial) "POST" body =
      ⟨newEvent "portal" "portal.resolve.requested"
          [("id", .str id), ("carrier", .str (goString "external"))] ::
          ((resolve addr dial id).1 ++ [rejected "trust_boundary"]),
        (httpError "external carrier rejected at trust boundary" 502).response⟩ := by
  obtain ⟨err, errs⟩ := resolve_errs addr dial id
  have spelled : goString "external" ≠ [] := by decide
  simp [handleResolve, decoded, named, spelled, errs, emit, after, httpError]

theorem rejected_mem (addr : GoString) (dial : Except GoError Unit) {body id : GoString}
    (decoded : decode body = some ⟨id, goString "external"⟩) (named : id ≠ []) (reason : String) :
    rejected reason ∈ (handleResolve decode lookup (resolve addr dial) "POST" body).events ↔
      rejected reason = rejected "trust_boundary" := by
  rw [external_served decode lookup addr dial decoded named]
  constructor
  · intro mem
    rcases List.mem_cons.mp mem with first | mem
    · simp [rejected, newEvent] at first
    · rcases List.mem_append.mp mem with early | last
      · exact absurd rfl (resolve_quiet addr dial id _ early)
      · exact List.mem_singleton.mp last
  · intro same
    rw [same]
    simp

/-- The composition reports the outcome of the dial as what it was exactly if the peer's
    certificate did not verify. -/
theorem external_outcome_reported (addr : GoString) (dial : Except GoError Unit)
    {body id : GoString} (decoded : decode body = some ⟨id, goString "external"⟩)
    (named : id ≠ []) :
    Reported dial (handleResolve decode lookup (resolve addr dial) "POST" body) ↔
      VerificationFailed dial := by
  have served := external_served decode lookup addr dial decoded named
  have mem := rejected_mem decode lookup addr dial decoded named
  constructor
  · intro reported
    exact reported.trustBoundary.mp ((mem "trust_boundary").mpr rfl)
  · intro failed
    refine ⟨?_, ?_, ?_, ?_⟩
    · rw [served]
      exact ⟨_, rfl, rfl⟩
    · exact ⟨fun _ => failed, fun _ => (mem "trust_boundary").mpr rfl⟩
    · have other : rejected "unexpected_ok" ≠ rejected "trust_boundary" := by decide
      refine ⟨fun seen => absurd ((mem "unexpected_ok").mp seen) other, ?_⟩
      intro connected
      obtain ⟨_, _, _, same, _⟩ := failed
      rw [connected] at same
      contradiction
    · intro err unverified uri same found leaf
      subst same
      rw [served, resolve_uri addr id found leaf]
      simp [newEvent, rejected]

end external

/-- A certificate of an authority that the client does not know, under the operation's
    own error. -/
theorem unknown_authority_reported :
    Reported (.error (.other (goString "dial tcp")
        [.certificate [⟨[goString "spiffe://acme.courier/carrier/parcel"]⟩]
          (.new "x509: certificate signed by unknown authority")]))
      (handleResolve (fun _ => some ⟨goString "SHP-2049-883", goString "external"⟩)
        (fun _ => ([], ⟨[], 200, none⟩))
        (resolve (goString "acme:8443") (.error (.other (goString "dial tcp")
          [.certificate [⟨[goString "spiffe://acme.courier/carrier/parcel"]⟩]
            (.new "x509: certificate signed by unknown authority")]))) "POST" []) :=
  (external_outcome_reported _ _ _ _ rfl (by decide)).mpr
    ⟨_, _, _, rfl, .unwrapped (List.mem_singleton_self _) .self⟩

/-- The handshake succeeds, and the trace says that the trust boundary rejected it. -/
theorem success_reported_as_rejection :
    ¬ ∀ (decode : GoString → Option ResolveReq) (lookup : GoString → List TraceEvent × LookupReply)
      (addr : GoString) (dial : Except GoError Unit) (body id : GoString),
      decode body = some ⟨id, goString "external"⟩ → id ≠ [] →
        Reported dial (handleResolve decode lookup (resolve addr dial) "POST" body) := by
  intro all
  have reported := all (fun _ => some ⟨goString "SHP-2049-883", goString "external"⟩)
    (fun _ => ([], ⟨[], 200, none⟩)) (goString "acme:8443") (.ok ()) [] _ rfl (by decide)
  have shown := reported.unexpectedOk.mpr rfl
  revert shown
  decide

end SwaPortal
