import SwaDemo.WalkCompletion
import SwaDemo.RichErrors

/-!
A resolve of the external carrier from end to end: the portal reports what came of its dial
twice, as events of the trace and as the answer to the request (`external_carrier_client.go`,
`handler.go`), and the page puts the two together in whatever order they arrive
(`useResolveEngine.ts`).
-/
namespace SwaChain
open SwaTrace SwaPortal SwaWire Runs SwaEngine Page Js
open SwaBus.TraceBus (stamp)
open SwaPace (PaceEvent Host Op Settled Discards unwrap)
open SwaCarrier (HttpResponse)
open Json (Value repair readString)

variable {w : World} {id : Nat} {shipmentId : String}

/-! ## What the portal tells -/

/-- A string of the portal as the page reads it. -/
def pageText (s : GoString) : String := readString (repair 0 s)

/-- The URI that the rejected leaf showed. -/
def foreignUri : Except GoError Unit → Option JsValue
  | .error err => (err.asCertificate.bind leafURI).map fun uri => .str (pageText uri)
  | .ok _ => none

/-- The same behind `if (peerUri.current)`. -/
def shownUri (dial : Except GoError Unit) : Option JsValue := (foreignUri dial).filter JsValue.truthy

def externalRefusal : HttpResponse := errorResponse "external carrier rejected at trust boundary" 502

/-- The message of an event, as the page has parsed it. -/
def messageOf (w : World) (browser : Browser) (now : Int) (ev : TraceEvent) : Option PaceEvent :=
  received browser.ref (w.writer.marshal (stamp now ev))

/-- What the page waits for: messages with the events of one request, and its answer, of
    which the text is read as a whole or not at all. -/
def Meets (w : World) (browser : Browser) (r : Request) : Action Value → Prop
  | .run _ _ => False
  | .reset => False
  | .sse msg => ∃ ev ∈ (serve w r).events, ∃ now, msg = messageOf w browser now ev
  | .respond id response => id = r.id ∧ ∃ sent, (serve w r).response = some sent ∧
      Reaches sent response ∧
      ∀ status text, response = .notOk status text → text = "" ∨ text = pageText sent.body
  | _ => True

/-- An event of the pace queue as the portal may have told it. -/
structure Fits (dial : Except GoError Unit) (ev : PaceEvent) : Prop where
  stage : eventToStage ev.type ≤ 1
  error : isErrorEvent ev.type = true → ∃ err, dial = .error err ∧ ev.type = "mtls.handshake.err" ∧
    prop ev.payload "err" = some (.str (pageText err.error)) ∧ prop ev.payload "uri" = none
  uri : ev.type = "mtls.peer_uri_seen" → ∃ payload, ev.payload = some payload ∧
    payload.get "uri" = foreignUri dial ∧ foreignUri dial ≠ none

theorem fits_silent {dial : Except GoError Unit} {ev : PaceEvent} (silent : Silent ev) : Fits dial ev where
  stage := by
    rw [silent.2]
    decide
  error err := by
    rw [silent.1] at err
    contradiction
  uri type := by
    have stage := silent.2
    rw [type] at stage
    exact absurd stage (by decide)

/-- The events of the handler for a request that names the external carrier and a shipment. -/
theorem external_events (w : World) (named : shipmentId ≠ "") :
    serve w ⟨id, .external, shipmentId⟩ =
      ⟨newEvent "portal" "portal.resolve.requested"
          [("id", .str (goString shipmentId)), ("carrier", .str (goString "external"))] ::
          ((resolve w.addr w.dial (goString shipmentId)).1 ++ [rejected "trust_boundary"]),
        some externalRefusal⟩ := by
  have read : decodeResolve (requestBody ⟨id, .external, shipmentId⟩) =
      some ⟨goString shipmentId, goString "external"⟩ := decoded ⟨id, .external, shipmentId⟩
  have some_ : goString shipmentId ≠ [] := fun empty => named (goString_empty.mp empty)
  rw [serve, external_served _ _ w.addr w.dial read some_]
  rfl

def handshakeError (err : GoError) : TraceEvent :=
  newEvent "portal" "mtls.handshake.err" [("err", .str err.error)]

theorem failed_events (named : shipmentId ≠ "") {err : GoError} (dialed : w.dial = .error err) :
    ∃ first start, (serve w ⟨id, .external, shipmentId⟩).events =
      (first :: start :: seenURI err) ++ handshakeError err :: [rejected "trust_boundary"] := by
  refine ⟨newEvent "portal" "portal.resolve.requested"
      [("id", .str (goString shipmentId)), ("carrier", .str (goString "external"))],
    newEvent "portal" "mtls.handshake.start" [("peer_host", .str w.addr)], ?_⟩
  rw [external_events w named, dialed, resolve]
  simp [handshakeError]

/-- A message with an event of the portal, once the page has unwrapped it. -/
theorem message_unwrapped (w : World) (browser : Browser) {ev : TraceEvent} (distinct : Distinct ev)
    (own : ev.type ≠ "carrier.event.raw") (now : Int) :
    ∃ seen, unwrap browser.host (messageOf w browser now ev) = some seen ∧
      seen.type = ev.type ∧ ∀ key, prop seen.payload key =
        (ev.payload.lookup key).map fun v => jsValue browser.ref ((w.writer.value v).respell (repair 0)) := by
  have same : (stamp now ev).type = ev.type ∧ (stamp now ev).payload = ev.payload := by
    unfold stamp
    split <;> exact ⟨rfl, rfl⟩
  have keys : Distinct (stamp now ev) := by
    rw [Distinct, same.2]
    exact distinct
  obtain ⟨seen, arrives, mirrors⟩ := event_received w.writer browser.ref keys
  have type : seen.type = ev.type := mirrors.type.trans same.1
  refine ⟨seen, ?_, type, fun key => ?_⟩
  · rw [messageOf, arrives, unwrap]
    simp only [type, if_neg own]
  · rw [mirrors.values, same.2]

/-- An event without an error or a URI, of a stage that is at most mutual TLS. -/
def Harmless (type : String) : Prop :=
  eventToStage type ≤ 1 ∧ isErrorEvent type = false ∧ type ≠ "mtls.peer_uri_seen"

instance (type : String) : Decidable (Harmless type) := inferInstanceAs (Decidable (_ ∧ _ ∧ _))

/-- The events of the handler, by what the page makes of them. -/
theorem external_cases (named : shipmentId ≠ "") {ev : TraceEvent}
    (mem : ev ∈ (serve w ⟨id, .external, shipmentId⟩).events) :
    ev.type ≠ "carrier.event.raw" ∧ Distinct ev ∧
    (Harmless ev.type ∨
    (∃ uri, foreignUri w.dial = some (.str (pageText uri)) ∧
      ev = newEvent "portal" "mtls.peer_uri_seen" [("uri", .str uri)]) ∨
    ∃ err, w.dial = .error err ∧ ev = handshakeError err) := by
  rw [external_events w named] at mem
  rcases List.mem_cons.mp mem with rfl | mem
  · have plain : Harmless "portal.resolve.requested" := by decide
    exact ⟨by simp [newEvent], by simp [Distinct, newEvent], Or.inl plain⟩
  have start : Harmless "mtls.handshake.start" := by decide
  rcases List.mem_append.mp mem with told | last
  · cases dialed : w.dial with
    | ok connected =>
      rw [dialed, resolve] at told
      simp only [List.mem_cons, List.not_mem_nil, or_false] at told
      have plain : Harmless "mtls.handshake.unexpected_ok" := by decide
      rcases told with rfl | rfl
      · exact ⟨by simp [newEvent], by simp [Distinct, newEvent], Or.inl start⟩
      · exact ⟨by simp [newEvent], by simp [Distinct, newEvent], Or.inl plain⟩
    | error err =>
      rw [dialed, resolve] at told
      rcases List.mem_cons.mp told with rfl | told
      · exact ⟨by simp [newEvent], by simp [Distinct, newEvent], Or.inl start⟩
      rcases List.mem_append.mp told with seen | failed
      · unfold seenURI at seen
        split at seen
        · rename_i uri leaf
          rw [List.mem_singleton.mp seen]
          exact ⟨by simp [newEvent], by simp [Distinct, newEvent],
            Or.inr (Or.inl ⟨uri, by rw [foreignUri, leaf]; rfl, rfl⟩)⟩
        · simp at seen
      · rw [List.mem_singleton.mp failed]
        exact ⟨by simp [newEvent], by simp [Distinct, newEvent], Or.inr (Or.inr ⟨err, rfl, rfl⟩)⟩
  · have plain : Harmless "portal.resolve.rejected" := by decide
    rw [List.mem_singleton.mp last]
    exact ⟨by simp [rejected, newEvent], by simp [Distinct, rejected, newEvent], Or.inl plain⟩

theorem event_fits (browser : Browser) (named : shipmentId ≠ "") {ev : TraceEvent}
    (mem : ev ∈ (serve w ⟨id, .external, shipmentId⟩).events) (now : Int) :
    ∃ seen, unwrap browser.host (messageOf w browser now ev) = some seen ∧
      seen.type = ev.type ∧ Fits w.dial seen := by
  obtain ⟨own, distinct, kind⟩ := external_cases named mem
  obtain ⟨seen, unwraps, type, values⟩ := message_unwrapped w browser distinct own now
  refine ⟨seen, unwraps, type, ?_⟩
  rcases kind with ⟨stage, fine, other⟩ | ⟨uri, foreign, rfl⟩ | ⟨err, dialed, rfl⟩
  · refine ⟨type ▸ stage, fun loud => ?_, fun same => absurd (type ▸ same) other⟩
    simp [type, fine] at loud
  · have seenType : seen.type = "mtls.peer_uri_seen" := type
    refine ⟨?_, ?_, fun _ => ?_⟩
    · rw [seenType]
      decide
    · intro loud
      rw [seenType] at loud
      exact absurd loud (by decide)
    · have shown := values "uri"
      simp only [newEvent, List.lookup_cons, beq_self_eq_true, Option.map_some] at shown
      cases carried : seen.payload with
      | none =>
        rw [carried] at shown
        contradiction
      | some payload =>
        rw [carried] at shown
        exact ⟨payload, rfl, by rw [foreign]; exact shown, by simp [foreign]⟩
  · have errType : seen.type = "mtls.handshake.err" := type
    refine ⟨?_, fun _ => ⟨err, dialed, errType, ?_, ?_⟩, fun same => ?_⟩
    · rw [errType]
      decide
    · rw [values]
      rfl
    · rw [values]
      rfl
    · rw [errType] at same
      exact absurd same (by decide)

/-! ## The engine -/

/-- The error on display is what the portal met. -/
inductive Explains (dial : Except GoError Unit) : ResolveError → Prop where
  | refused {message : String} (told : message = "502" ∨ message = pageText externalRefusal.body) :
      Explains dial ⟨"http.error", some (.str message), none⟩
  | handshake {err : GoError} {payload : Record} (dialed : dial = .error err)
      (text : payload.get "err" = some (.str (pageText err.error)))
      (uri : payload.get "uri" = none ∨ payload.get "uri" = shownUri dial) :
      Explains dial ⟨"mtls.handshake.err", payload.get "err", some payload⟩
  | unreachable (err : String) : Explains dial ⟨"network.error", some (.str err), none⟩

structure Candid (dial : Except GoError Unit) (e : Engine Value) : Prop where
  result : e.pending.result = none
  stage : e.pending.stage ≤ 1
  completed : e.pending.completed ≤ 1
  uri : e.peerUri = .null ∨ foreignUri dial = some e.peerUri
  status : e.pending.status = .running ∧ e.pending.error = none ∨
    e.pending.status = .error ∧ ∃ err, e.pending.error = some err ∧ Explains dial err

theorem merged_get (ev : PaceEvent) (uri : JsValue) :
    (Engine.merged ev uri).get "err" = prop ev.payload "err" ∧
      (Engine.merged ev uri).get "uri" = if uri.truthy then some uri else prop ev.payload "uri" := by
  have spread (key : String) : Record.get (ev.payload.getD []) key = prop ev.payload key := by
    cases ev.payload <;> rfl
  unfold Engine.merged
  split
  · refine ⟨?_, Record.get_set _ _ _⟩
    rw [Record.get_set_other _ (by decide)]
    exact spread "err"
  · exact ⟨spread "err", spread "uri"⟩

theorem seenUri_fits {dial : Except GoError Unit} {ev : PaceEvent} (fits : Fits dial ev) (uri : JsValue) :
    ev.type ≠ "mtls.peer_uri_seen" ∧ Engine.seenUri uri ev = uri ∨
      ev.type = "mtls.peer_uri_seen" ∧ foreignUri dial = some (Engine.seenUri uri ev) := by
  by_cases type : ev.type = "mtls.peer_uri_seen"
  · obtain ⟨payload, carried, shown, some_⟩ := fits.uri type
    obtain ⟨foreign, known⟩ := Option.ne_none_iff_exists'.mp some_
    refine Or.inr ⟨type, ?_⟩
    rw [Engine.seenUri, if_pos type, carried]
    simp only [shown, known, Option.getD_some]
  · exact Or.inl ⟨type, by rw [Engine.seenUri, if_neg type]⟩

theorem uri_kept {dial : Except GoError Unit} {ev : PaceEvent} (fits : Fits dial ev) {uri : JsValue}
    (known : uri = .null ∨ foreignUri dial = some uri) :
    Engine.seenUri uri ev = .null ∨ foreignUri dial = some (Engine.seenUri uri ev) := by
  rcases seenUri_fits fits uri with ⟨_, same⟩ | ⟨_, foreign⟩
  · rw [same]
    exact known
  · exact Or.inr foreign

theorem truthy_shown {dial : Except GoError Unit} {uri : JsValue} (foreign : foreignUri dial = some uri) :
    shownUri dial = if uri.truthy then some uri else none := by
  rw [shownUri, foreign, Option.filter_some]

theorem candid_event {dial : Except GoError Unit} (host : Host) (now : Int) {ev : PaceEvent}
    (fits : Fits dial ev) {e : Engine Value} (candid : Candid dial e) :
    Candid dial (e.onEvent host now ev) := by
  obtain ⟨_, _, refs⟩ := Engine.onEvent_refs host now ev e
  have uri := uri_kept fits candid.uri
  by_cases err : isErrorEvent ev.type = true
  · obtain ⟨cause, dialed, type, text, bare⟩ := fits.error err
    obtain ⟨told, named⟩ := merged_get ev (Engine.seenUri e.peerUri ev)
    have low : (-1 : Int) ≤ 1 := by decide
    have pending := Engine.onEvent_error host now e err
    refine ⟨?_, ?_, ?_, refs ▸ uri, Or.inr ⟨?_, ?_⟩⟩
    · rw [pending]
      exact candid.result
    · rw [pending]
      exact low
    · rw [pending]
      exact candid.completed
    · rw [pending]
    · rw [pending]
      refine ⟨_, rfl, ?_⟩
      rw [type]
      refine .handshake dialed (told.trans text) ?_
      rw [named, bare]
      rcases uri with none_ | foreign
      · rw [none_]
        exact Or.inl rfl
      · exact Or.inr (truthy_shown foreign).symm
  · have plain := Engine.onEvent_plain host now e (by simpa using err)
    have moved : (e.onEvent host now ev).pending.stage ≤ 1 ∧
        (e.onEvent host now ev).pending.completed ≤ 1 := by
      by_cases forward : Engine.Advances e ev
      · obtain ⟨_, stage, completed⟩ := plain.advanced forward
        exact ⟨stage ▸ fits.stage, completed ▸ fits.stage⟩
      · obtain ⟨_, stage, completed⟩ := plain.kept forward
        exact ⟨stage ▸ candid.stage, completed ▸ candid.completed⟩
    refine ⟨plain.result.trans candid.result, moved.1, moved.2, refs ▸ uri, ?_⟩
    rw [plain.status, plain.error]
    exact candid.status

theorem candid_same {dial : Except GoError Unit} {e e' : Engine Value} (candid : Candid dial e)
    (uri : e'.peerUri = e.peerUri) (pending : e'.pending = e.pending) : Candid dial e' :=
  ⟨pending ▸ candid.result, pending ▸ candid.stage, pending ▸ candid.completed, uri ▸ candid.uri,
    pending ▸ candid.status⟩

theorem candid_walking {dial : Except GoError Unit} {e : Engine Value} (candid : Candid dial e) :
    Candid dial (e.queue [.setStatusWalking]) := by
  rcases Engine.walking_pending e with same | ⟨started, _, fine⟩
  · exact candid_same candid rfl same
  · rcases candid.status with ⟨_, none_⟩ | ⟨shown, _⟩
    · exact ⟨started ▸ candid.result, started ▸ candid.stage, started ▸ candid.completed, candid.uri,
        started ▸ Or.inl ⟨rfl, none_⟩⟩
    · exact absurd shown fine

theorem candid_hear {dial : Except GoError Unit} (host : Host) (now : Int) {signals : List SwaPace.Signal}
    (fits : ∀ ev ∈ events signals, Fits dial ev) {e : Engine Value} (candid : Candid dial e) :
    Candid dial (e.hear host now signals) :=
  Engine.hear_invariant host now (fun ev mem _ kept => candid_event host now (fits ev mem) kept)
    (fun _ kept => candid_walking kept) candid

/-- The answer to an external resolve, as the page can get it. -/
inductive Refusal : Engine.Response Value → Prop where
  | status {text : String} (read : text = "" ∨ text = pageText externalRefusal.body) :
      Refusal (.notOk 502 text)
  | failed (err : String) : Refusal (.failed err)

theorem meets_refusal {browser : Browser} {i : Nat} (named : shipmentId ≠ "")
    {response : Engine.Response Value}
    (meets : Meets w browser ⟨id, .external, shipmentId⟩ (.respond i response)) :
    i = id ∧ Refusal response := by
  obtain ⟨same, sent, served, reaches, whole⟩ := meets
  rw [external_events w named, Option.some.injEq] at served
  subst served
  refine ⟨same, ?_⟩
  cases reaches with
  | ok ok _ _ => exact absurd ok (by simp [Ok, externalRefusal, errorResponse])
  | notOk text _ => exact .status (whole _ text rfl)
  | failed err => exact .failed err

theorem candid_settle {dial : Except GoError Unit} {e : Engine Value} {response : Engine.Response Value}
    (refusal : Refusal response) (candid : Candid dial e) :
    Candid dial (e.settle response) ∧ (e.settle response).pending.status = .error := by
  cases refusal with
  | failed err =>
    have pending : (e.settle (.failed err)).pending = { e.pending with
        status := .error, error := some ⟨"network.error", some (.str err), none⟩ } := by
      simp [Engine.settle, Update.apply]
    refine ⟨⟨?_, ?_, ?_, candid.uri, Or.inr ⟨?_, _, ?_, .unreachable err⟩⟩, ?_⟩ <;> rw [pending]
    · exact candid.result
    · exact candid.stage
    · exact candid.completed
  | @status text read =>
    have told : (if text = "" then toString 502 else text) = "502" ∨
        (if text = "" then toString 502 else text) = pageText externalRefusal.body := by
      by_cases empty : text = ""
      · exact Or.inl (if_pos empty)
      · rw [if_neg empty]
        exact Or.inr (read.resolve_left empty)
    by_cases rich : e.pending.error.bind (·.payload) = none
    · have pending : (e.settle (.notOk 502 text)).pending = { e.pending with
          status := .error
          error := some ⟨"http.error", some (.str (if text = "" then toString 502 else text)), none⟩ } := by
        simp [Engine.settle, Update.apply, rich]
      refine ⟨⟨?_, ?_, ?_, candid.uri, Or.inr ⟨?_, _, ?_, .refused told⟩⟩, ?_⟩ <;> rw [pending]
      · exact candid.result
      · exact candid.stage
      · exact candid.completed
    · obtain ⟨payload, carried⟩ := Option.ne_none_iff_exists'.mp rich
      have pending : (e.settle (.notOk 502 text)).pending = { e.pending with status := .error } := by
        simp [Engine.settle, Update.apply, carried]
      obtain ⟨_, none_⟩ | ⟨_, shown⟩ := candid.status
      · rw [none_] at rich
        exact absurd rfl rich
      · refine ⟨⟨?_, ?_, ?_, candid.uri, Or.inr ⟨?_, ?_⟩⟩, ?_⟩ <;> rw [pending]
        · exact candid.result
        · exact candid.stage
        · exact candid.completed
        · exact shown

/-! ## The page -/

structure External (w : World) (id : Nat) (s : Page Value) : Prop where
  settled : Settled s.pace
  queued : ∀ ev ∈ queued s.pace, Fits w.dial ev
  candid : Candid w.dial s.engine
  answered : ¬ s.Outstanding id → s.engine.pending.status = .error

/-- What an action brings to the pace queue fits. -/
theorem brought_fits {browser : Browser} (named : shipmentId ≠ "") {a : Action Value}
    (meets : Meets w browser ⟨id, .external, shipmentId⟩ a) :
    ∀ ev, a.accepted browser.host = some ev → Fits w.dial ev := by
  intro ev brings
  cases a with
  | sse msg =>
    obtain ⟨told, mem, now, rfl⟩ := meets
    obtain ⟨seen, unwraps, _, fits⟩ := event_fits browser named mem now
    rw [Action.accepted, unwraps, Option.some.injEq] at brings
    exact brings ▸ fits
  | run | reset | respond | expire | setPace | skip | commit | effect | tick | clock => contradiction

theorem external_step (browser : Browser) (named : shipmentId ≠ "") {s : Page Value} {a : Action Value}
    (meets : Meets w browser ⟨id, .external, shipmentId⟩ a) (external : External w id s) :
    External w id (step browser.host s a) := by
  have settled := settled_act browser.host external.settled a
  cases acts : a.op? with
  | some op =>
    have all : ∀ ev ∈ events (freshSignals browser.host s.pace op) ++
        queued (s.paceStep browser.host op).pace, Fits w.dial ev := by
      intro ev mem
      rcases heard_mem browser.host external.settled acts mem with old | new
      · exact external.queued ev old
      · exact brought_fits named meets ev new
    rw [step_pace browser.host s acts] at settled ⊢
    refine ⟨settled, fun ev mem => all ev (List.mem_append_right _ mem),
      candid_hear browser.host s.now (fun ev mem => all ev (List.mem_append_left _ mem)) external.candid, ?_⟩
    intro answered
    exact (Engine.hear_error_iff _ _ _ _).mpr (Or.inl (external.answered answered))
  | none =>
    cases a with
    | run | reset => exact False.elim meets
    | sse | expire | setPace | skip => contradiction
    | respond i response =>
      obtain ⟨rfl, refusal⟩ := meets_refusal named meets
      obtain ⟨candid, refused⟩ := candid_settle refusal external.candid
      rw [step, respond] at settled ⊢
      split
      · exact ⟨external.settled, external.queued, candid, fun _ => refused⟩
      · exact external
    | commit =>
      have ref : s.engine.commit.peerUri = s.engine.peerUri := by
        simp only [Engine.commit, Engine.effect]
        split <;> rfl
      have pending := Engine.commit_pending s.engine
      exact ⟨settled, external.queued, candid_same external.candid ref pending,
        fun answered => pending ▸ external.answered answered⟩
    | effect =>
      have ref : s.engine.effect.peerUri = s.engine.peerUri := by
        simp only [Engine.effect]
        split <;> rfl
      have pending := Engine.effect_pending s.engine
      exact ⟨settled, external.queued, candid_same external.candid ref pending,
        fun answered => pending ▸ external.answered answered⟩
    | tick =>
      obtain ⟨e, ticked, same⟩ := tick_ttl s
      obtain ⟨result, stage, completed, uri, status⟩ := external.candid
      rw [step, ticked]
      refine ⟨external.settled, external.queued, ⟨same.result ▸ result, same.stage ▸ stage,
        same.completed ▸ completed, same.peerUri ▸ uri, ?_⟩, fun answered => ?_⟩
      · rw [same.status, same.error]
        exact status
      · exact same.status ▸ external.answered answered
    | clock now => exact ⟨settled, external.queued, external.candid, external.answered⟩

theorem external_start {s : Page Value} (settled : Settled s.pace)
    (quiet : AllSilent (queued s.pace)) (shipmentId : String) :
    External w s.issued (s.run .external shipmentId) where
  settled := settled
  queued ev mem := fits_silent (quiet ev mem)
  candid := by
    refine ⟨?_, ?_, ?_, Or.inl rfl, Or.inl ⟨?_, ?_⟩⟩ <;> simp [Page.run, Engine.run, Update.apply]
  answered answered := by
    refine absurd ?_ answered
    simp [Page.run, Outstanding]

/-! ## The whole trace -/

/-- The error tells what the dial came to. -/
def Tells (dial : Except GoError Unit) (err : GoError) (error : Option ResolveError) : Prop :=
  ∃ payload, error = some ⟨"mtls.handshake.err", some (.str (pageText err.error)), some payload⟩ ∧
    payload.get "err" = some (.str (pageText err.error)) ∧ payload.get "uri" = shownUri dial

/-- It is on display, and an error event that came again would tell the same. -/
structure Exposed (dial : Except GoError Unit) (err : GoError) (e : Engine Value) : Prop where
  uri : (some e.peerUri).filter JsValue.truthy = shownUri dial
  tells : Tells dial err e.pending.error

theorem shown_kept {dial : Except GoError Unit} {ev : PaceEvent} (fits : Fits dial ev) {uri : JsValue}
    (shown : (some uri).filter JsValue.truthy = shownUri dial) :
    (some (Engine.seenUri uri ev)).filter JsValue.truthy = shownUri dial := by
  rcases seenUri_fits fits uri with ⟨_, same⟩ | ⟨_, foreign⟩
  · rw [same]
    exact shown
  · rw [shownUri, foreign]

theorem tells_error {dial : Except GoError Unit} {err : GoError} (dialed : dial = .error err) {ev : PaceEvent}
    (fits : Fits dial ev) (loud : isErrorEvent ev.type = true) {uri : JsValue}
    (shown : (some uri).filter JsValue.truthy = shownUri dial) :
    Tells dial err (some ⟨ev.type, (Engine.merged ev uri).get "err", some (Engine.merged ev uri)⟩) := by
  obtain ⟨cause, same, type, text, bare⟩ := fits.error loud
  rw [dialed] at same
  cases same
  obtain ⟨told, named⟩ := merged_get ev uri
  refine ⟨_, by rw [type, told, text], told.trans text, ?_⟩
  rw [named, bare, ← shown, Option.filter_some]

theorem exposed_hear {dial : Except GoError Unit} {err : GoError} (dialed : dial = .error err) (host : Host)
    (now : Int) {signals : List SwaPace.Signal} (fits : ∀ ev ∈ events signals, Fits dial ev)
    {e : Engine Value} (exposed : Exposed dial err e) : Exposed dial err (e.hear host now signals) := by
  refine Engine.hear_invariant host now ?_ ?_ exposed
  · intro ev mem e exposed
    obtain ⟨_, _, refs⟩ := Engine.onEvent_refs host now ev e
    have uri := shown_kept (fits ev mem) exposed.uri
    refine ⟨refs ▸ uri, ?_⟩
    by_cases loud : isErrorEvent ev.type = true
    · rw [Engine.onEvent_error host now e loud]
      exact tells_error dialed (fits ev mem) loud uri
    · rw [(Engine.onEvent_plain host now e (by simpa using loud)).error]
      exact exposed.tells
  · intro e exposed
    refine ⟨exposed.uri, ?_⟩
    rcases Engine.walking_pending e with same | ⟨started, _⟩
    · rw [same]
      exact exposed.tells
    · rw [started]
      exact exposed.tells

/-- An error event that comes last is on display, with the URI seen before it. -/
theorem hear_last_error (host : Host) (now : Int) {signals : List SwaPace.Signal} {e : Engine Value}
    {earlier : List PaceEvent} {ev : PaceEvent} (loud : isErrorEvent ev.type = true)
    (heard : events signals = earlier ++ [ev]) :
    (e.hear host now signals).pending.error = some ⟨ev.type,
      (Engine.merged ev ((events signals).foldl Engine.seenUri e.peerUri)).get "err",
      some (Engine.merged ev ((events signals).foldl Engine.seenUri e.peerUri))⟩ := by
  induction signals generalizing e earlier with
  | nil => simp at heard
  | cons signal signals ih =>
    cases signal with
    | event a =>
      rw [events_event] at heard
      rw [Engine.hear_event, events_event, List.foldl_cons,
        ← (Engine.onEvent_refs host now a.ev e).2.2]
      cases earlier with
      | nil =>
        obtain ⟨rfl, none_⟩ := List.cons.inj heard
        rw [hear_error_kept host now (by simp [none_]), Engine.onEvent_error host now e loud, none_,
          List.foldl_nil, (Engine.onEvent_refs host now a.ev e).2.2]
      | cons first earlier => exact ih (List.cons.inj heard).2
    | state st =>
      cases st with
      | idle => exact ih heard
      | walking => exact ih heard

/-- The error event makes the queue deliver everything before it. -/
theorem exposed_by_error (browser : Browser) {err : GoError} (dialed : w.dial = .error err)
    {s : Page Value} (external : External w id s)
    (due : (some (dueUri s)).filter JsValue.truthy = shownUri w.dial) {msg : Option PaceEvent} {ev : PaceEvent}
    (brings : unwrap browser.host msg = some ev) (fits : Fits w.dial ev) (loud : isErrorEvent ev.type = true) :
    Exposed w.dial err (step browser.host s (.sse msg)).engine := by
  obtain ⟨_, _, type, _⟩ := fits.error loud
  have raised : SwaPace.isErr ev.type = true := by
    rw [type]
    decide
  have flushed : queued (s.paceStep browser.host (.push msg)).pace = [] := by
    rw [paceStep, queued, SwaPace.step, SwaPace.push, brings]
    simp only
    rw [SwaPace.pushEvent_failed external.settled.noSkip raised]
    rfl
  have order := heard_order browser.host external.settled
    (rfl : (Action.sse msg : Action Value).op? = some (.push msg)) (by
      intro ev' same
      rw [Action.accepted, brings] at same
      cases same
      rw [type]
      simp)
  rw [flushed, List.append_nil, Action.accepted, brings, Option.toList_some] at order
  have last := hear_last_error browser.host s.now (e := s.engine) loud order
  have refs := (Engine.hear_refs browser.host s.now (freshSignals browser.host s.pace (.push msg)) s.engine).2.2
  have uri : (events (freshSignals browser.host s.pace (.push msg))).foldl Engine.seenUri s.engine.peerUri =
      Engine.seenUri (dueUri s) ev := by
    rw [order, List.foldl_append]
    rfl
  have shown := shown_kept fits due
  refine ⟨?_, ?_⟩
  · rw [step, paceStep_engine, refs, uri]
    exact shown
  · rw [step, paceStep_engine, last, uri]
    exact tells_error dialed fits loud shown

def Thrown (a : Action Value) : Prop := ∃ id err, a = .respond id (.failed err)

theorem exposed_same {dial : Except GoError Unit} {err : GoError} {e e' : Engine Value}
    (exposed : Exposed dial err e) (uri : e'.peerUri = e.peerUri)
    (error : e'.pending.error = e.pending.error) : Exposed dial err e' :=
  ⟨uri ▸ exposed.uri, error ▸ exposed.tells⟩

theorem exposed_step (browser : Browser) (named : shipmentId ≠ "")
    {err : GoError} (dialed : w.dial = .error err) {s : Page Value} {a : Action Value}
    (meets : Meets w browser ⟨id, .external, shipmentId⟩ a) (whole : ¬ Thrown a)
    (external : External w id s) (exposed : Exposed w.dial err s.engine) :
    Exposed w.dial err (step browser.host s a).engine := by
  cases acts : a.op? with
  | some op =>
    rw [step_pace browser.host s acts, paceStep_engine]
    refine exposed_hear dialed browser.host s.now (fun ev mem => ?_) exposed
    rcases heard_mem browser.host external.settled acts (List.mem_append_left _ mem) with old | new
    · exact external.queued ev old
    · exact brought_fits named meets ev new
  | none =>
    cases a with
    | run | reset => exact False.elim meets
    | sse | expire | setPace | skip => contradiction
    | respond i response =>
      obtain ⟨payload, shown, told⟩ := exposed.tells
      have kept : ∀ text, response ≠ .failed text := by
        rintro text rfl
        exact whole ⟨i, text, rfl⟩
      have error := (settle_error s.engine shown (by simp) response).mpr kept
      rw [step, respond]
      split
      · refine ⟨?_, payload, error, told⟩
        have ref : (s.engine.settle response).peerUri = s.engine.peerUri := by cases response <;> rfl
        rw [ref]
        exact exposed.uri
      · exact exposed
    | commit =>
      have ref : s.engine.commit.peerUri = s.engine.peerUri := by
        simp only [Engine.commit, Engine.effect]
        split <;> rfl
      exact exposed_same exposed ref (congrArg Cells.error (Engine.commit_pending s.engine))
    | effect =>
      have ref : s.engine.effect.peerUri = s.engine.peerUri := by
        simp only [Engine.effect]
        split <;> rfl
      exact exposed_same exposed ref (congrArg Cells.error (Engine.effect_pending s.engine))
    | tick =>
      obtain ⟨e, ticked, same⟩ := tick_ttl s
      rw [step, ticked]
      exact exposed_same exposed same.peerUri same.error
    | clock now => exact exposed

theorem exposed_run (browser : Browser) (named : shipmentId ≠ "")
    {err : GoError} (dialed : w.dial = .error err) {s : Page Value} (external : External w id s)
    (exposed : Exposed w.dial err s.engine) {acts : List (Action Value)}
    (meets : ∀ a ∈ acts, Meets w browser ⟨id, .external, shipmentId⟩ a) (whole : ∀ a ∈ acts, ¬ Thrown a) :
    Exposed w.dial err (run (step browser.host) s acts).engine := by
  have both : External w id (run (step browser.host) s acts) ∧
      Exposed w.dial err (run (step browser.host) s acts).engine :=
    run_invariant_mem (P := fun t : Page Value => External w id t ∧ Exposed w.dial err t.engine)
      (fun _ a mem kept => ⟨external_step browser named (meets a mem) kept.1,
        exposed_step browser named dialed (meets a mem) (whole a mem) kept.1 kept.2⟩) ⟨external, exposed⟩
  exact both.2

def message? : Action Value → Option (Option PaceEvent)
  | .sse msg => some msg
  | _ => none

/-- The messages are those of the events, each once and in their order. -/
def Brings (w : World) (browser : Browser) (acts : List (Action Value)) (evs : List TraceEvent) : Prop :=
  List.Forall₂ (fun msg ev => ∃ now, msg = messageOf w browser now ev) (acts.filterMap message?) evs

theorem brings_split {browser : Browser} {earlier later : List TraceEvent} {ev : TraceEvent}
    {acts : List (Action Value)} (brings : Brings w browser acts (earlier ++ ev :: later)) :
    ∃ front now rear, acts = front ++ .sse (messageOf w browser now ev) :: rear ∧
      Brings w browser front earlier ∧ Brings w browser rear later := by
  have before := List.forall₂_take_append _ _ _ brings
  obtain ⟨msg, rest, ⟨now, rfl⟩, after, parts⟩ :=
    List.forall₂_cons_right_iff.mp (List.forall₂_drop_append _ _ _ brings)
  have whole := List.take_append_drop earlier.length (acts.filterMap message?)
  rw [parts] at whole
  obtain ⟨front, a, rear, rfl, first, here, last⟩ := split_at _ whole.symm
  cases a with
  | sse msg =>
    cases here
    refine ⟨front, now, rear, rfl, ?_, ?_⟩
    · rw [Brings, first]
      exact before
    · rw [Brings, last]
      exact after
  | run | reset | respond | expire | setPace | skip | commit | effect | tick | clock => contradiction

/-- Nothing can be queued that bears a URI where the dial showed none. -/
theorem due_bare {s : Page Value} (external : External w id s)
    (none_ : foreignUri w.dial = none) : (some (dueUri s)).filter JsValue.truthy = shownUri w.dial := by
  have known : dueUri s = .null ∨ foreignUri w.dial = some (dueUri s) :=
    List.foldlRecOn (motive := fun uri : JsValue => uri = .null ∨ foreignUri w.dial = some uri)
      (queued s.pace) Engine.seenUri external.candid.uri
      fun _ kept ev mem => uri_kept (external.queued ev mem) kept
  rw [shownUri, none_]
  rw [none_] at known
  rcases known with null | known
  · rw [null]
    rfl
  · contradiction

theorem external_run (browser : Browser) (named : shipmentId ≠ "")
    {s : Page Value} (external : External w id s) {acts : List (Action Value)}
    (meets : ∀ a ∈ acts, Meets w browser ⟨id, .external, shipmentId⟩ a) :
    External w id (run (step browser.host) s acts) :=
  run_invariant_mem (fun _ a mem kept => external_step browser named (meets a mem) kept) external

/-- Before the error event comes, the URI that it will be shown with is on its way. -/
theorem due_front (browser : Browser) (named : shipmentId ≠ "")
    {err : GoError} (dialed : w.dial = .error err) {s : Page Value} (external : External w id s)
    {acts : List (Action Value)} (meets : ∀ a ∈ acts, Meets w browser ⟨id, .external, shipmentId⟩ a)
    {first start : TraceEvent} (brings : Brings w browser acts (first :: start :: seenURI err)) :
    (some (dueUri (run (step browser.host) s acts))).filter JsValue.truthy = shownUri w.dial := by
  have foreign : foreignUri w.dial = (err.asCertificate.bind leafURI).map fun uri => .str (pageText uri) := by
    rw [dialed]
    rfl
  cases leaf : err.asCertificate.bind leafURI with
  | none =>
    rw [leaf] at foreign
    exact due_bare (external_run browser named external meets) foreign
  | some uri =>
    rw [leaf] at foreign
    have last : Brings w browser acts
        ([first, start] ++ newEvent "portal" "mtls.peer_uri_seen" [("uri", .str uri)] :: []) := by
      rwa [seenURI, leaf] at brings
    obtain ⟨front, now, rear, rfl, _, silent⟩ := brings_split last
    have meetsFront : ∀ a ∈ front, Meets w browser ⟨id, .external, shipmentId⟩ a :=
      fun a mem => meets a (by simp [mem])
    have before := external_run browser named external meetsFront
    obtain ⟨seen, unwraps, type, values⟩ := message_unwrapped w browser
      (by simp [Distinct, newEvent] : Distinct (newEvent "portal" "mtls.peer_uri_seen" [("uri", .str uri)]))
      (by simp [newEvent]) now
    have bears : prop seen.payload "uri" = some (.str (pageText uri)) := values "uri"
    have shown : dueUri (step browser.host (run (step browser.host) s front)
        (.sse (messageOf w browser now (newEvent "portal" "mtls.peer_uri_seen" [("uri", .str uri)])))) =
          .str (pageText uri) := by
      obtain ⟨kind, payload⟩ := seen
      cases payload with
      | none => contradiction
      | some payload =>
        have kind_ : kind = "mtls.peer_uri_seen" := type
        exact dueUri_shown browser.host before.settled (by rw [Action.accepted, unwraps, kind_]) bears
    have still : ∀ a ∈ rear, a.restarts = false ∧ a.accepted browser.host = none := by
      intro a mem
      have none_ : message? a = none :=
        List.filterMap_eq_nil_iff.mp (List.forall₂_nil_right_iff.mp silent) a mem
      have meet := meets a (by simp [mem])
      cases a with
      | run | reset => exact False.elim meet
      | sse msg => contradiction
      | respond | expire | setPace | skip | commit | effect | tick | clock => exact ⟨rfl, rfl⟩
    rw [run_append, run_cons, dueUri_run browser.host (settled_act browser.host before.settled _) shown still,
      shownUri, foreign]
    rfl

/-- What the page shows of an external resolve at any time. -/
structure Shows (w : World) (id : Nat) (s : Page Value) : Prop where
  noManifest : s.engine.cells.result = none
  noFurther : s.engine.cells.stage ≤ 1 ∧ s.engine.cells.completed ≤ 1
  honest : s.engine.cells.status = .running ∧ s.engine.cells.error = none ∨
    s.engine.cells.status = .error ∧ ∃ err, s.engine.cells.error = some err ∧ Explains w.dial err
  ended : ¬ s.Outstanding id → s.engine.cells.status = .error

/-- Whatever arrives of an external resolve, in whatever order and however often: the page
    shows no manifest and no stage beyond mutual TLS, only errors that the portal met, and an
    error once there is an answer. Where the trace arrives whole and the fetch ends, a failed
    dial is shown with its error and the URI of the rejected leaf. -/
theorem external_resolve_shown (w : World) (browser : Browser) (now : Int) (before acts : List (Action Value))
    (named : shipmentId ≠ "") {s : Page Value}
    (reached : s = run (step browser.host) (initial now) before) (quiet : AllSilent (queued s.pace))
    (meets : ∀ a ∈ acts, Meets w browser ⟨s.issued, .external, shipmentId⟩ a) :
    Shows w s.issued (run (step browser.host) (s.run .external shipmentId) (acts ++ [.commit])) ∧
    ∀ err, w.dial = .error err → Brings w browser acts (serve w ⟨s.issued, .external, shipmentId⟩).events →
      (∀ a ∈ acts, ¬ Thrown a) →
      Tells w.dial err
        (run (step browser.host) (s.run .external shipmentId) (acts ++ [.commit])).engine.cells.error := by
  have settled : Settled s.pace := by
    rw [reached]
    exact settled_acts browser.host SwaPace.settled_initial before
  have start : External w s.issued (s.run .external shipmentId) := external_start settled quiet shipmentId
  rw [run_concat]
  constructor
  · have ends := external_run browser named start meets
    obtain ⟨result, stage, completed, _, status⟩ := ends.candid
    have cells := Engine.commit_cells
      (run (step browser.host) (s.run .external shipmentId) acts).engine
    exact ⟨cells ▸ result, cells ▸ ⟨stage, completed⟩, cells ▸ status,
      fun done => cells ▸ ends.answered done⟩
  · intro err dialed brings whole
    obtain ⟨first, start_, told⟩ : ∃ first start, (serve w ⟨s.issued, .external, shipmentId⟩).events =
        (first :: start :: seenURI err) ++ handshakeError err :: [rejected "trust_boundary"] :=
      failed_events named dialed
    rw [told] at brings
    obtain ⟨front, at_, rear, rfl, begun, _⟩ := brings_split brings
    have meetsFront : ∀ a ∈ front, Meets w browser ⟨s.issued, .external, shipmentId⟩ a :=
      fun a mem => meets a (by simp [mem])
    have meetsRear : ∀ a ∈ rear, Meets w browser ⟨s.issued, .external, shipmentId⟩ a :=
      fun a mem => meets a (by simp [mem])
    have early := external_run browser named start meetsFront
    have due := due_front browser named dialed start meetsFront begun
    have known : handshakeError err ∈ (serve w ⟨s.issued, .external, shipmentId⟩).events := by
      rw [told]
      simp
    obtain ⟨ev, unwraps, type, fits⟩ := event_fits browser named known at_
    have loud : isErrorEvent ev.type = true := by
      rw [type]
      exact (by decide : isErrorEvent "mtls.handshake.err" = true)
    have exposed := exposed_by_error browser dialed early due unwraps fits loud
    have late := external_step browser named
      (meets (.sse (messageOf w browser at_ (handshakeError err))) (by simp)) early
    have last := exposed_run browser named dialed late exposed meetsRear (fun a mem => whole a (by simp [mem]))
    rw [run_append, run_cons]
    simpa only [step, Engine.commit_cells] using last.tells

/-- A certificate of an authority that the portal does not know. -/
def foreignError : GoError :=
  .certificate [⟨[goString "spiffe://acme.courier/carrier/parcel"]⟩]
    (.new "x509: certificate signed by unknown authority")

def foreignWorld : World := { sampleWorld with dial := .error foreignError }

/-- The answer comes first, and then the whole trace. -/
def sampleRefusal : List (Action Value) :=
  .respond 0 (.notOk 502 "") ::
    (serve foreignWorld ⟨0, .external, "SHP-1"⟩).events.map
      fun ev => .sse (messageOf foreignWorld sampleBrowser 0 ev)

theorem sample_external_shown :
    Shows foreignWorld 0 (run (step sampleBrowser.host) ((initial 0).run .external "SHP-1")
      (sampleRefusal ++ [.commit])) ∧
    Tells foreignWorld.dial foreignError (run (step sampleBrowser.host) ((initial 0).run .external "SHP-1")
      (sampleRefusal ++ [.commit])).engine.cells.error := by
  have meets : ∀ a ∈ sampleRefusal, Meets foreignWorld sampleBrowser ⟨0, .external, "SHP-1"⟩ a := by
    intro a mem
    rcases List.mem_cons.mp mem with rfl | told
    · have served : (serve foreignWorld ⟨0, .external, "SHP-1"⟩).response = some externalRefusal := by
        rw [external_events foreignWorld (by decide)]
      refine ⟨rfl, externalRefusal, served, .notOk "" (by simp [Ok, externalRefusal, errorResponse]), ?_⟩
      rintro _ _ same
      cases same
      exact Or.inl rfl
    · obtain ⟨ev, known, rfl⟩ := List.mem_map.mp told
      exact ⟨ev, known, 0, rfl⟩
  obtain ⟨shows, tells⟩ := external_resolve_shown foreignWorld sampleBrowser 0 [] sampleRefusal
    (by decide : "SHP-1" ≠ "") (s := initial 0) rfl
    (by simp [AllSilent, queued, initial, SwaPace.initial]) meets
  refine ⟨shows, tells foreignError rfl ?_ ?_⟩
  · have messages : sampleRefusal.filterMap message? =
        (serve foreignWorld ⟨0, .external, "SHP-1"⟩).events.map (messageOf foreignWorld sampleBrowser 0) := by
      rw [sampleRefusal, List.filterMap_cons_none rfl, List.filterMap_map]
      exact congrFun List.filterMap_eq_map _
    change List.Forall₂ _ (sampleRefusal.filterMap message?) _
    rw [messages, List.forall₂_map_left_iff]
    exact List.forall₂_same.mpr fun _ _ => ⟨0, rfl⟩
  · rintro a mem ⟨id, err, rfl⟩
    simp [sampleRefusal] at mem

end SwaChain
