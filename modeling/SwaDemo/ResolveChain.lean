import SwaDemo.ResolveRequest
import SwaDemo.ShipmentHop
import SwaDemo.TraceWire
import SwaDemo.LatestRun

/-!
A resolve from end to end: the page posts a request (`useResolveEngine.ts`), the portal
decodes it and asks one of its two carriers (`handler.go`, `carrier_client.go`,
`external_carrier_client.go`), the carrier fetches its identity and its secret and writes
the shipment's row (`carrier/handler.go`), and the page reads the row out of the answer.
-/
namespace SwaChain
open SwaTrace SwaPortal
open Json (Value repair)
open SwaCarrier (HttpResponse Served Exit Ends Fetched liveLookup)
open SwaHop (ShipmentID Routed receivedPath)
open SwaWire (Writer sampleWriter)
open SwaEngine (Request Carrier)

/-- `json.NewEncoder(w).Encode(row)` -/
def encodeRow (w : Writer) (row : Payload) : GoString :=
  Json.encode Json.goQuoting (w.object row) ++ [10]

/-- All that one request meets. Whatever the portal's client gets back from the carrier's
    address was written by the carrier, and of the body at least the front has arrived. -/
structure World where
  client : CarrierClient
  addr : GoString
  dial : Except GoError Unit
  writer : Writer
  codec : SwaCarrier.Codec
  rows : codec.encodeRow = encodeRow writer
  fixtures : GoString → Option Payload
  deps : SwaCarrier.LiveDeps
  linked : ∀ target resp path, client.http.send (client.baseURL ++ target) = .ok resp →
    receivedPath target = some path → Routed path →
      ∃ response, (liveLookup codec fixtures deps path).response = some response ∧
        resp.status = response.status ∧ resp.body.reads.flatten <+: response.body

/-- The portal's handler for a request of the page. -/
def serve (w : World) (r : Request) : Served :=
  handleResolve decodeResolve (fun id => ((w.client.lookup id).events, (w.client.lookup id).reply))
    (resolve w.addr w.dial) "POST" (requestBody r)

/-- The response of `http.Error`. -/
def errorResponse (error : String) (code : Nat) : HttpResponse where
  status := code
  headers := [("Content-Type", "text/plain; charset=utf-8"), ("X-Content-Type-Options", "nosniff")]
  body := goString (error ++ "\n")

/-- The carrier was not reached: the request could not be built or not be sent. -/
def Unreached (w : World) (id : GoString) : Prop :=
  w.client.http.newRequest (goString "GET") (w.client.lookupURL id) ≠ none ∨
    ∃ err, w.client.http.send (w.client.lookupURL id) = .error err

inductive Way where
  | empty
  | external
  | invalid
  | unreached
  | answered
  deriving DecidableEq, Repr

/-- Which way a request goes, and what it comes to. -/
inductive Outcome (w : World) (r : Request) : Way → HttpResponse → Prop where
  | empty (none_ : r.shipmentId = "") : Outcome w r .empty (errorResponse "bad request" 400)
  | external (named : r.shipmentId ≠ "") (chosen : r.carrier = .external) :
      Outcome w r .external (errorResponse "external carrier rejected at trust boundary" 502)
  | invalid (named : r.shipmentId ≠ "") (chosen : r.carrier = .internal)
      (other : ¬ ShipmentID (goString r.shipmentId)) :
      Outcome w r .invalid (errorResponse "carrier error" 502)
  | unreached (chosen : r.carrier = .internal) (valid : ShipmentID (goString r.shipmentId))
      (unreached : Unreached w (goString r.shipmentId)) :
      Outcome w r .unreached (errorResponse "carrier error" 502)
  | answered {exit : Exit} {arrived : GoString} (chosen : r.carrier = .internal)
      (valid : ShipmentID (goString r.shipmentId)) (reached : ¬ Unreached w (goString r.shipmentId))
      (ends : Ends w.fixtures w.deps (goString r.shipmentId) exit)
      (front : arrived <+: exit.body w.codec) :
      Outcome w r .answered ⟨exit.status, [("Content-Type", "application/json")], arrived⟩

theorem goString_empty {s : String} : goString s = [] ↔ s = "" := by
  constructor
  · intro none_
    exact Json.bytesOf_injective none_
  · intro none_
    rw [none_]
    rfl

/-- What the carrier's client gets back for a shipment id was written for that id. -/
theorem lookup_answered {w : World} {id : GoString} (valid : ShipmentID id) {resp : WireResponse}
    (sent : w.client.http.send (w.client.lookupURL id) = .ok resp) :
    ∃ exit, Ends w.fixtures w.deps id exit ∧ resp.status = exit.status ∧
      resp.body.reads.flatten <+: exit.body w.codec := by
  obtain ⟨response, served, status, front⟩ :=
    w.linked (CarrierClient.lookupPath id) resp (goString "/lookup/" ++ id) sent
      (SwaHop.lookupPath_received id) (SwaHop.shipmentID_routed valid)
  obtain ⟨exit, ends, shows⟩ := (SwaHop.shipment_looked_up w.codec w.fixtures w.deps valid).exit
  have sameStatus := shows.status
  have sameBody := shows.body
  rw [served, Option.map_some, Option.some.injEq] at sameStatus sameBody
  exact ⟨exit, ends, status.trans sameStatus, sameBody ▸ front⟩

/-- A lookup of the portal fails, before or on its way, or hands on an answer of the carrier. -/
theorem lookup_cases (w : World) (id : GoString) :
    (w.client.lookup id).reply.err ≠ none ∧ (¬ ShipmentID id ∨ ShipmentID id ∧ Unreached w id) ∨
    ShipmentID id ∧ ¬ Unreached w id ∧ ∃ exit arrived, Ends w.fixtures w.deps id exit ∧
      arrived <+: exit.body w.codec ∧ (w.client.lookup id).reply = ⟨arrived, exit.status, none⟩ := by
  cases check : SwaForward.validShipmentID id with
  | false =>
    have invalid : ¬ ShipmentID id := by
      rw [← SwaHop.validShipmentID_iff, check]
      simp
    exact Or.inl ⟨(CarrierClient.lookup_invalid check).2, Or.inl invalid⟩
  | true =>
    have valid := (SwaHop.validShipmentID_iff id).mp check
    cases built : w.client.http.newRequest (goString "GET") (w.client.lookupURL id) with
    | some err =>
      refine Or.inl ⟨?_, Or.inr ⟨valid, Or.inl (by simp [built])⟩⟩
      rw [CarrierClient.lookup, if_neg (by simp [check])]
      simp [built]
    | none =>
      cases sent : w.client.http.send (w.client.lookupURL id) with
      | error err =>
        refine Or.inl ⟨?_, Or.inr ⟨valid, Or.inr ⟨err, sent⟩⟩⟩
        rw [CarrierClient.lookup, if_neg (by simp [check])]
        simp [built, sent]
      | ok resp =>
        obtain ⟨exit, ends, status, front⟩ := lookup_answered valid sent
        refine Or.inr ⟨valid, ?_, exit, resp.body.reads.flatten, ends, front, ?_⟩
        · simp [Unreached, built, sent]
        · rw [CarrierClient.lookup_replied check built sent, status]

theorem decoded (r : Request) : decodeResolve (requestBody r) =
    some ⟨goString r.shipmentId, goString (carrierText r.carrier)⟩ := by
  have read := request_decoded r []
  rwa [List.append_nil] at read

theorem shipmentID_named {s : String} (valid : ShipmentID (goString s)) : s ≠ "" := by
  rintro rfl
  have empty := (SwaHop.validShipmentID_iff (goString "")).mpr valid
  revert empty
  decide

theorem Outcome.unique {w : World} {r : Request} {way way' : Way} {response response' : HttpResponse}
    (first : Outcome w r way response) (second : Outcome w r way' response') : way = way' := by
  have named := @shipmentID_named r.shipmentId
  cases first <;> cases second <;> grind

theorem request_served (w : World) (r : Request) :
    ∃ way response, (serve w r).response = some response ∧ Outcome w r way response := by
  by_cases none_ : r.shipmentId = ""
  · refine ⟨_, _, ?_, .empty none_⟩
    have empty : goString r.shipmentId = [] := goString_empty.mpr none_
    simp [serve, handleResolve, decoded, empty, SwaCarrier.httpError, errorResponse]
  have named : goString r.shipmentId ≠ [] := fun empty => none_ (goString_empty.mp empty)
  cases chosen : r.carrier with
  | external =>
    have read : decodeResolve (requestBody r) = some ⟨goString r.shipmentId, goString "external"⟩ := by
      rw [decoded, chosen]
      rfl
    refine ⟨_, _, ?_, .external none_ chosen⟩
    rw [serve, external_served _ _ w.addr w.dial read named]
    rfl
  | internal =>
    have read : decodeResolve (requestBody r) = some ⟨goString r.shipmentId, goString "internal"⟩ := by
      rw [decoded, chosen]
      rfl
    have inside : goString "internal" ≠ goString "external" := by decide
    have spelled : goString "internal" ≠ [] := by decide
    rcases lookup_cases w (goString r.shipmentId) with
      ⟨failed, cause⟩ | ⟨valid, reached, exit, arrived, ends, front, reply⟩
    · obtain ⟨err, failed⟩ := Option.ne_none_iff_exists'.mp failed
      have answer : (serve w r).response = some (errorResponse "carrier error" 502) := by
        simp [serve, handleResolve, read, named, inside, spelled, failed, emit, after,
          SwaCarrier.httpError, errorResponse]
      rcases cause with invalid | ⟨valid, unreached⟩
      · exact ⟨_, _, answer, .invalid none_ chosen invalid⟩
      · exact ⟨_, _, answer, .unreached chosen valid unreached⟩
    · refine ⟨_, _, ?_, .answered chosen valid reached ends front⟩
      simp [serve, handleResolve, read, named, inside, spelled, reply, emit, after]

/-- Every request of the page is answered, and goes exactly one of the five ways. -/
theorem serve_outcome (w : World) (r : Request) :
    ∃ response, (serve w r).response = some response ∧
      ∃ way, Outcome w r way response ∧ ∀ way' response', Outcome w r way' response' → way' = way := by
  obtain ⟨way, response, answer, outcome⟩ := request_served w r
  exact ⟨response, answer, way, outcome, fun _ _ other => other.unique outcome⟩

/-! ## The page -/

/-- Everything that has to be so for a row to be written: the internal carrier was chosen and
    the id is a shipment's, the carrier got an SVID, a token for it and a secret for that
    token, and the shipment is known. -/
structure Granted (w : World) (r : Request) (row : Payload) : Prop where
  chosen : r.carrier = .internal
  valid : ShipmentID (goString r.shipmentId)
  fetched : ∃ svid token, Fetched w.deps (goString r.shipmentId) svid token
  known : w.fixtures (goString r.shipmentId) = some row

/-- `resp.ok` -/
def Ok (status : Nat) : Prop := 200 ≤ status ∧ status ≤ 299

/-- The text of `resp.json()`, which drops a byte order mark. -/
def responseJson (body : GoString) : Option Value :=
  Json.parse (if [239, 187, 191] <+: body then body.drop 3 else body)

/-- How a response can reach the page: as much of the body as has arrived is read. -/
inductive Reaches (sent : HttpResponse) : SwaEngine.Engine.Response Value → Prop where
  | ok {body : GoString} {data : Value} (ok : Ok sent.status) (front : body <+: sent.body)
      (parsed : responseJson body = some data) : Reaches sent (.ok data)
  | notOk (text : String) (refused : ¬ Ok sent.status) : Reaches sent (.notOk sent.status text)
  | failed (err : String) : Reaches sent (.failed err)

/-- The value that a row is read as. -/
def rowValue (w : World) (row : Payload) : Value := (w.writer.object row).respell (repair 0)

theorem outcome_ok {w : World} {r : Request} {way : Way} {response : HttpResponse}
    (outcome : Outcome w r way response) (ok : Ok response.status) :
    ∃ row, Granted w r row ∧ response.body <+: encodeRow w.writer row := by
  cases outcome with
  | empty | external | invalid | unreached => exact absurd ok (by simp [Ok, errorResponse])
  | @answered exit arrived chosen valid reached ends front =>
    cases exit with
    | found svid token row =>
      refine ⟨row, ⟨chosen, valid, ⟨svid, token, ends.1⟩, ends.2⟩, ?_⟩
      rw [← w.rows]
      exact front
    | badID | noIdentity | noToken | noSecret | emptySecret | miss =>
      exact absurd ok (by simp [Ok, Exit.status])

theorem row_parsed (w : Writer) (row : Payload) :
    Json.parse (encodeRow w row) = some ((w.object row).respell (repair 0)) := by
  rw [encodeRow, Json.parse_trailing rfl]
  exact Json.parse_encode Json.goQuoting (Writer.regular_object row)

theorem row_unmarked {w : Writer} {row : Payload} {body : GoString} (front : body <+: encodeRow w row) :
    ¬ [239, 187, 191] <+: body := by
  intro mark
  have first := mark.trans front
  rw [encodeRow, Json.encode, Writer.object] at first
  simp [Value.tokens, Json.Quoting.text] at first

/-- Whatever part of a row has arrived is read as the whole row or not at all. -/
theorem row_read (w : World) {row : Payload} {body : GoString} {data : Value}
    (front : body <+: encodeRow w.writer row) (parsed : responseJson body = some data) :
    data = rowValue w row := by
  rw [responseJson, if_neg (row_unmarked front)] at parsed
  obtain ⟨rest, split⟩ := front
  rcases rest.eq_nil_or_concat' with rfl | ⟨rest, last, rfl⟩
  · rw [List.append_nil] at split
    rw [split, row_parsed] at parsed
    exact (Option.some.inj parsed).symm
  · have parts := split
    rw [← List.append_assoc, encodeRow] at parts
    have same := (List.append_inj' parts rfl).1
    by_cases done : rest = []
    · subst done
      rw [List.append_nil] at same
      rw [same, Json.parse_encode Json.goQuoting (Writer.regular_object row)] at parsed
      exact (Option.some.inj parsed).symm
    · have cut := Json.encode_cut Json.goQuoting (Writer.regular_object row) same.symm done
      rw [cut] at parsed
      contradiction

/-- An OK answer that reaches the page is the whole row of what was asked for. -/
theorem reaches_granted {w : World} {r : Request} {sent : HttpResponse} {data : Value}
    (served : (serve w r).response = some sent) (reaches : Reaches sent (.ok data)) :
    ∃ row, Granted w r row ∧ data = rowValue w row := by
  obtain ⟨_, response, same, outcome⟩ := request_served w r
  rw [served, Option.some.injEq] at same
  subst same
  cases reaches with
  | ok ok front parsed =>
    obtain ⟨row, granted, begun⟩ := outcome_ok outcome ok
    exact ⟨row, granted, row_read w (front.trans begun) parsed⟩

/-! ## Runs of the page -/

open Runs SwaEngine Page

/-- The requests posted so far; a request is known by its place among them. -/
def posted {Body : Type} (acts : List (Action Body)) : List (Carrier × String) :=
  acts.filterMap fun
    | .run carrier shipmentId => some (carrier, shipmentId)
    | _ => none

/-- An answer to a request has come through the world of that request. -/
def Honest (worlds : Nat → World) (s : Page Value) : Action Value → Prop
  | .respond id response => ∀ r ∈ s.requests, r.id = id →
      ∃ sent, (serve (worlds id) r).response = some sent ∧ Reaches sent response
  | _ => True

/-- The data is the row that a request was granted. -/
def Authentic (worlds : Nat → World) (acts : List (Action Value)) (id : Nat) (data : Value) : Prop :=
  ∃ carrier shipmentId row, (posted acts)[id]? = some (carrier, shipmentId) ∧
    Granted (worlds id) ⟨id, carrier, shipmentId⟩ row ∧ data = rowValue (worlds id) row

structure Genuine (worlds : Nat → World) (s : Page Value) (acts : List (Action Value)) : Prop where
  counted : s.issued = (posted acts).length
  latest : ∀ id, s.current = some id → id + 1 = s.issued
  requests : ∀ r ∈ s.requests, (posted acts)[r.id]? = some (r.carrier, r.shipmentId)
  answers : ∀ a ∈ s.answers, Authentic worlds acts a.1 a.2
  shown : s.engine.pending.status = .done → ∃ a ∈ s.answers, s.engine.pending.result = some a.2

theorem posted_concat {Body : Type} (acts : List (Action Body)) (a : Action Body) :
    posted (acts ++ [a]) = posted acts ++ posted [a] := List.filterMap_append

theorem posted_kept {Body : Type} {acts later : List (Action Body)} {id : Nat} {p : Carrier × String}
    (known : (posted acts)[id]? = some p) : (posted (acts ++ later))[id]? = some p := by
  rw [posted, List.filterMap_append]
  exact List.getElem?_append_left (List.getElem?_eq_some_iff.mp known).1 ▸ known

theorem authentic_kept {worlds : Nat → World} {acts later : List (Action Value)} {id : Nat}
    {data : Value} (authentic : Authentic worlds acts id data) :
    Authentic worlds (acts ++ later) id data := by
  obtain ⟨carrier, shipmentId, row, known, granted, same⟩ := authentic
  exact ⟨carrier, shipmentId, row, posted_kept known, granted, same⟩

/-- A step that posts no request and handles no answer. -/
theorem genuine_quiet {worlds : Nat → World} {s s' : Page Value} {acts : List (Action Value)}
    {a : Action Value} (genuine : Genuine worlds s acts) (none_ : posted [a] = [])
    (issued : s'.issued = s.issued) (current : s'.current = s.current ∨ s'.current = none)
    (requests : s'.requests = s.requests) (answers : s'.answers = s.answers)
    (done : s'.engine.pending.status = .done → s.engine.pending.status = .done ∧
      s'.engine.pending.result = s.engine.pending.result) :
    Genuine worlds s' (acts ++ [a]) where
  counted := by rw [posted_concat, none_, List.append_nil, issued, genuine.counted]
  latest := by
    intro id now
    rcases current with same | gone
    · rw [issued]
      exact genuine.latest id (same ▸ now)
    · rw [gone] at now
      contradiction
  requests := by
    intro r mem
    rw [requests] at mem
    exact posted_kept (genuine.requests r mem)
  answers := by
    intro b mem
    rw [answers] at mem
    exact authentic_kept (genuine.answers b mem)
  shown := by
    intro shows
    obtain ⟨was, same⟩ := done shows
    rw [answers, same]
    exact genuine.shown was

theorem genuine_respond {worlds : Nat → World} {s : Page Value} {acts : List (Action Value)} {id : Nat}
    {response : Engine.Response Value} (honest : Honest worlds s (.respond id response))
    (genuine : Genuine worlds s acts) :
    Genuine worlds (s.respond id response) (acts ++ [.respond id response]) := by
  by_cases open_ : s.Outstanding id
  · obtain ⟨r, mem, same⟩ := List.mem_map.mp open_
    obtain ⟨sent, served, reaches⟩ := honest r mem same
    have known := genuine.requests r mem
    have quiet : posted (acts ++ [.respond id response]) = posted acts := by
      rw [posted_concat]
      exact List.append_nil _
    have answered_ : s.respond id response = { s with
        engine := s.engine.settle response
        requests := s.requests.filter (·.id != id)
        answers := s.answers ++ answered id response } := by rw [respond, if_pos open_]
    rw [answered_]
    refine ⟨by rw [quiet]; exact genuine.counted, genuine.latest, ?_, ?_, ?_⟩
    · intro other mem
      rw [quiet]
      exact genuine.requests other (List.mem_filter.mp mem).1
    · intro a mem
      rcases List.mem_append.mp mem with old | new
      · exact authentic_kept (genuine.answers a old)
      · cases response with
        | notOk status text => simp [answered] at new
        | failed err => simp [answered] at new
        | ok data =>
          obtain ⟨row, granted, read⟩ := reaches_granted served reaches
          rw [answered, List.mem_singleton] at new
          subst new same
          exact ⟨r.carrier, r.shipmentId, row, posted_kept known, granted, read⟩
    · intro done
      cases response with
      | ok data => exact ⟨(id, data), by simp [answered], by simp [Engine.settle, Update.apply]⟩
      | notOk status text => simp [Engine.settle, Update.apply] at done
      | failed err => simp [Engine.settle, Update.apply] at done
  · rw [respond, if_neg open_]
    exact genuine_quiet genuine rfl rfl (Or.inl rfl) rfl rfl fun done => ⟨done, rfl⟩

theorem genuine_step {worlds : Nat → World} (host : SwaPace.Host) {s : Page Value}
    {acts : List (Action Value)} {a : Action Value} (honest : Honest worlds s a)
    (genuine : Genuine worlds s acts) : Genuine worlds (step host s a) (acts ++ [a]) := by
  have heard (op : SwaPace.Op) (a : Action Value) (none_ : posted [a] = []) :
      Genuine worlds (s.paceStep host op) (acts ++ [a]) :=
    genuine_quiet genuine none_ rfl (Or.inl rfl) rfl rfl (Engine.hear_done host s.now)
  cases a with
  | run carrier shipmentId =>
    have new : posted (acts ++ [.run carrier shipmentId]) = posted acts ++ [(carrier, shipmentId)] :=
      posted_concat acts _
    refine ⟨by rw [new, List.length_append, ← genuine.counted]; rfl, ?_, ?_, ?_, ?_⟩
    · intro id now
      rw [← Option.some.inj now]
      rfl
    · intro r mem
      rcases List.mem_append.mp mem with old | last
      · exact posted_kept (genuine.requests r old)
      · rw [List.mem_singleton.mp last, new, genuine.counted, List.getElem?_concat_length]
    · exact fun b mem => authentic_kept (genuine.answers b mem)
    · intro done
      simp [step, Page.run, Engine.run, Update.apply] at done
  | reset =>
    refine genuine_quiet genuine rfl rfl (Or.inr rfl) rfl rfl fun done => ?_
    simp [step, Page.reset, Engine.reset, Update.apply] at done
  | respond id response => exact genuine_respond honest genuine
  | sse msg => exact heard _ _ rfl
  | expire h => exact heard _ _ rfl
  | setPace value => exact heard _ _ rfl
  | skip => exact heard _ _ rfl
  | commit =>
    refine genuine_quiet genuine rfl rfl (Or.inl rfl) rfl rfl fun done => ?_
    simpa [step] using done
  | effect =>
    refine genuine_quiet genuine rfl rfl (Or.inl rfl) rfl rfl fun done => ?_
    simpa [step] using done
  | tick =>
    obtain ⟨e, ticked, same⟩ := tick_ttl s
    rw [step, ticked]
    exact genuine_quiet genuine rfl rfl (Or.inl rfl) rfl rfl
      fun done => ⟨same.status.symm.trans done, same.result⟩
  | clock now => exact genuine_quiet genuine rfl rfl (Or.inl rfl) rfl rfl fun done => ⟨done, rfl⟩

theorem genuine_initial (worlds : Nat → World) (now : Int) : Genuine worlds (initial now) [] where
  counted := rfl
  latest := by simp [initial]
  requests := by simp [initial]
  answers := by simp [initial]
  shown := by simp [initial, Engine.pending]

theorem genuine_run {worlds : Nat → World} {host : SwaPace.Host} {now : Int} {acts : List (Action Value)}
    (honest : EachStep (step host) (Honest worlds) (initial now) acts) :
    Genuine worlds (run (step host) (initial now) acts) acts :=
  run_records (genuine_initial worlds now) (fun _ _ _ meets kept => genuine_step host meets kept) honest

/-- Whatever is shown as done is the whole row of a shipment that the page asked the internal
    carrier for, and of which the carrier had the identity, the token and the secret; where
    no answer was overtaken, it is the row of the latest request. -/
theorem shown_manifest_granted (worlds : Nat → World) (host : SwaPace.Host) (now : Int)
    (acts : List (Action Value)) (honest : EachStep (step host) (Honest worlds) (initial now) acts) :
    AtCommits host (fun s => s.engine.cells.status = .done →
      ∃ id data, s.engine.cells.result = some data ∧ Authentic worlds acts id data) (initial now) acts ∧
    (EachStep (step host) (fun s a => ¬ StaleAnswer s a) (initial now) acts →
      AtCommits host (fun s => s.engine.cells.status = .done →
        ∃ id data, s.current = some id ∧ id + 1 = s.issued ∧ s.engine.cells.result = some data ∧
          Authentic worlds acts id data) (initial now) acts) := by
  have genuine {before later : List (Action Value)} (split : acts = before ++ .commit :: later) :
      Genuine worlds (run (step host) (initial now) before) before := by
    rw [split] at honest
    exact genuine_run (eachStep_append.mp honest).1
  constructor
  · intro before later split done
    rw [run_concat] at done ⊢
    simp only [step, Engine.commit_cells] at done ⊢
    obtain ⟨⟨id, data⟩, mem, shown⟩ := (genuine split).shown done
    refine ⟨id, data, shown, ?_⟩
    rw [split]
    exact authentic_kept ((genuine split).answers _ mem)
  · intro fresh before later split done
    rw [split] at fresh
    have start : ShowsLatest (initial now) (initial now : Page Value).engine.pending := by
      intro done
      simp [initial, Engine.pending] at done
    have kept := run_invariant_of (P := fun s : Page Value => ShowsLatest s s.engine.pending)
      (showsLatest_step host) start (eachStep_append.mp fresh).1
    rw [run_concat] at done ⊢
    simp only [step, Engine.commit_cells] at done ⊢
    obtain ⟨id, data, current, mem, shown⟩ := kept done
    refine ⟨id, data, current, (genuine split).latest id current, shown, ?_⟩
    rw [split]
    exact authentic_kept ((genuine split).answers _ mem)

/-- A wire on which every request for the carrier's address reaches its handler. -/
def directWire (baseURL : GoString) (codec : SwaCarrier.Codec) (fixtures : GoString → Option Payload)
    (deps : SwaCarrier.LiveDeps) : Wire where
  newRequest _ _ := none
  send url :=
    match (receivedPath (url.drop baseURL.length)).bind
        fun path => (liveLookup codec fixtures deps path).response with
    | some response => .ok ⟨response.status, none, ⟨[response.body], none⟩⟩
    | none => .error (goString "no response")
  host _ := none
  quote id := id

def sampleCodec : SwaCarrier.Codec := ⟨fun _ => none, fun _ => none, fun _ => none, encodeRow sampleWriter⟩

def sampleRow : Payload := [("shipment_id", .str (goString "SHP-2049-883"))]

def sampleFixtures (id : GoString) : Option Payload :=
  if id = goString "SHP-2049-883" then some sampleRow else none

/-- A Secrets Manager that answers every request with one text. -/
def sampleLive : SwaCarrier.LiveDeps where
  fetchJWTSVID := .ok ⟨goString "e30.e30.c2ln", 1700000000, goString "spiffe://swa/carrier"⟩
  client := ⟨goString "https://sm", ⟨fun _ _ => none, fun _ => .ok ⟨200, [], goString "text"⟩⟩,
    ⟨fun _ => none, fun _ => none, fun _ => none, fun _ => none⟩⟩
  secretID := goString "carrier/key"
  algKid := none

def sampleWorld : World where
  client := newCarrierClient (goString "carrier")
    (directWire (newCarrierClient (goString "carrier") ⟨fun _ _ => none, fun _ => .error [], fun _ => none,
      id⟩).baseURL sampleCodec sampleFixtures sampleLive)
  addr := goString "acme"
  dial := .ok ()
  writer := sampleWriter
  codec := sampleCodec
  rows := rfl
  fixtures := sampleFixtures
  deps := sampleLive
  linked := by
    intro target resp path sent received routed
    simp only [newCarrierClient, directWire, List.drop_left, received, Option.bind_some] at sent
    cases served : (liveLookup sampleCodec sampleFixtures sampleLive path).response with
    | none =>
      rw [served] at sent
      contradiction
    | some response =>
      rw [served] at sent
      cases sent
      exact ⟨response, rfl, rfl, by simp⟩

theorem sample_served : (serve sampleWorld ⟨0, .internal, "SHP-2049-883"⟩).response =
    some ⟨200, [("Content-Type", "application/json")], encodeRow sampleWriter sampleRow⟩ := by
  rw [serve, handleResolve]
  simp only [decoded]
  rfl

theorem sample_reaches :
    Reaches ⟨200, [("Content-Type", "application/json")], encodeRow sampleWriter sampleRow⟩
      (.ok (rowValue sampleWorld sampleRow)) := by
  have whole : responseJson (encodeRow sampleWriter sampleRow) = some (rowValue sampleWorld sampleRow) := by
    rw [responseJson, if_neg (row_unmarked (List.prefix_refl _)), row_parsed]
    rfl
  exact .ok ⟨by decide, by decide⟩ (List.prefix_refl _) whole

/-- One request that is granted and shown. -/
theorem sample_manifest_shown :
    AtCommits ⟨fun _ => .nan, fun _ => none⟩ (fun s => s.engine.cells.status = .done →
      ∃ id data, s.engine.cells.result = some data ∧ Authentic (fun _ => sampleWorld)
        [.run .internal "SHP-2049-883", .respond 0 (.ok (rowValue sampleWorld sampleRow)), .commit]
        id data) (initial 0)
      [.run .internal "SHP-2049-883", .respond 0 (.ok (rowValue sampleWorld sampleRow)), .commit] := by
  refine (shown_manifest_granted (fun _ => sampleWorld) ⟨fun _ => .nan, fun _ => none⟩ 0 _ ?_).1
  refine ⟨trivial, ?_, trivial, trivial⟩
  intro r mem _
  rw [List.mem_singleton.mp mem]
  exact ⟨_, sample_served, sample_reaches⟩

end SwaChain
