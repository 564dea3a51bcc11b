import SwaDemo.PaceQueue
import SwaDemo.TtlTicker

/-!
The resolve engine of the user interface (`engine/useResolveEngine.ts`,
`engine/stageMap.ts`) and everything that calls it: the pace queue, the responses
of `/resolve`, React's commits and the effect after one, and the ticker.

A setter only queues an update; a commit applies the queued updates in order. The
effect that copies `status` into `statusRef` is due after a commit that changed
`status`, and React runs it before it renders again.
-/
namespace SwaEngine
open Js SwaPace

def eventToStage (eventType : String) : Int :=
  match eventType with
  | "portal.resolve.requested" => 0
  | "mtls.handshake.start" => 1
  | "mtls.peer_uri_seen" => 1
  | "mtls.handshake.ok" => 1
  | "jwt_svid.issued" => 2
  | "sm.authn_jwt.ok" => 3
  | "sm.secret_fetched.ok" => 4
  | "portal.resolve.ok" => 5
  | "mtls.handshake.err" => 1
  | "mtls.handshake.error" => 1
  | _ => -1

/-- `/\.err$|\.error$|\.empty$/.test(eventType)` -/
def isErrorEvent (eventType : String) : Bool :=
  ".err".toList.isSuffixOf eventType.toList || ".error".toList.isSuffixOf eventType.toList ||
    ".empty".toList.isSuffixOf eventType.toList

inductive EngineStatus where
  | idle
  | running
  | done
  | error
  deriving DecidableEq, Repr

structure ResolveError where
  type : String
  message : Option JsValue
  payload : Option Record
  deriving DecidableEq, Repr

/-- The engine's `useState` cells; `Body` is what `resp.json()` gives. -/
structure Cells (Body : Type) where
  status : EngineStatus
  stage : Int
  completed : Int
  jwtTtl : JsNumber
  jwtFraction : JsNumber
  result : Option Body
  error : Option ResolveError
  deriving DecidableEq, Repr

inductive Update (Body : Type) where
  | setStatus (next : EngineStatus)
  /-- `prev === "done" || prev === "error" ? prev : "running"` -/
  | setStatusWalking
  | setStage (next : Int)
  | setCompleted (next : Int)
  | setJwtTtl (next : JsNumber)
  | setJwtFraction (next : JsNumber)
  | setResult (next : Option Body)
  | setError (next : Option ResolveError)
  /-- `prev?.payload ? prev : next` -/
  | setErrorKeepPayload (next : ResolveError)
  deriving DecidableEq, Repr

variable {Body : Type}

def Update.apply (c : Cells Body) : Update Body → Cells Body
  | .setStatus next => { c with status := next }
  | .setStatusWalking =>
    match c.status with
    | .done => c
    | .error => c
    | _ => { c with status := .running }
  | .setStage next => { c with stage := next }
  | .setCompleted next => { c with completed := next }
  | .setJwtTtl next => { c with jwtTtl := next }
  | .setJwtFraction next => { c with jwtFraction := next }
  | .setResult next => { c with result := next }
  | .setError next => { c with error := next }
  | .setErrorKeepPayload next =>
    match c.error.bind (·.payload) with
    | some _ => c
    | none => { c with error := some next }

/-- `cells` is the last committed state and `updates` what was queued since. -/
structure Engine (Body : Type) where
  cells : Cells Body
  updates : List (Update Body)
  effectDue : Bool
  statusRef : EngineStatus
  maxStage : Int
  peerUri : JsValue
  ticker : SwaTtl.TtlTicker
  deriving DecidableEq, Repr

namespace Engine

def queue (us : List (Update Body)) (e : Engine Body) : Engine Body :=
  { e with updates := e.updates ++ us }

/-- The state a commit would show now. -/
def pending (e : Engine Body) : Cells Body := e.updates.foldl Update.apply e.cells

/-- Capture the foreign peer URI from mtls.peer_uri_seen. -/
def seePeerUri (ev : PaceEvent) (e : Engine Body) : Engine Body :=
  if ev.type = "mtls.peer_uri_seen" then
    match ev.payload with
    | none => e
    | some payload => { e with peerUri := (payload.get "uri").getD .null }
  else e

/-- `{ ...ev.payload }`, with `uri` set where one was captured. -/
def merged (ev : PaceEvent) (peerUri : JsValue) : Record :=
  if peerUri.truthy then (ev.payload.getD []).set "uri" peerUri else ev.payload.getD []

def showError (ev : PaceEvent) (e : Engine Body) : Engine Body :=
  e.queue [
    .setError (some ⟨ev.type, (merged ev e.peerUri).get "err", some (merged ev e.peerUri)⟩),
    .setStage (-1),
    .setStatus .error]

/-- The ticker calls the engine back with a snapshot, unless it returns early. -/
def tick (now : Int) (e : Engine Body) : Engine Body :=
  match SwaTtl.tick now e.ticker with
  | none => e
  | some snap => e.queue [.setJwtTtl snap.remaining, .setJwtFraction snap.fraction]

/-- `value != null` -/
def present : Option JsValue → Option JsValue
  | some .null => none
  | value => value

/-- JWT TTL: extract iat+exp from jwt_svid.issued. The ticker's arithmetic converts
    the two values to numbers. -/
def seeJwt (host : Host) (now : Int) (ev : PaceEvent) (e : Engine Body) : Engine Body :=
  if ev.type = "jwt_svid.issued" then
    match present (prop ev.payload "iat"), present (prop ev.payload "exp") with
    | some iat, some exp =>
      tick now { e with ticker := SwaTtl.setIssuedAndExp (host.number iat) (host.number exp) }
    | _, _ => e
  else e

def advanceStage (idx : Int) (e : Engine Body) : Engine Body :=
  if 0 ≤ idx ∧ e.maxStage < idx then
    queue [.setStage idx, .setCompleted idx] { e with maxStage := idx }
  else e

/-- The pace-queue subscriber. -/
def onEvent (host : Host) (now : Int) (ev : PaceEvent) (e : Engine Body) : Engine Body :=
  if isErrorEvent ev.type then showError ev (seePeerUri ev e)
  else if e.statusRef = .running then
    advanceStage (eventToStage ev.type) (seeJwt host now ev (seePeerUri ev e))
  else seeJwt host now ev (seePeerUri ev e)

def onSignal (host : Host) (now : Int) (e : Engine Body) : Signal → Engine Body
  | .event a => onEvent host now a.ev e
  | .state .walking => e.queue [.setStatusWalking]
  | .state .idle => e

/-- `run` up to the request it sends. -/
def run (now : Int) (e : Engine Body) : Engine Body :=
  queue [.setStatus .running, .setStage (-1), .setCompleted 0, .setResult none, .setError none]
    { e with maxStage := -1, peerUri := .null, ticker := SwaTtl.freeze now e.ticker }

/-- `reset` after it has flushed the pace queue. -/
def reset (now : Int) (e : Engine Body) : Engine Body :=
  queue [.setStatus .idle, .setStage (-1), .setCompleted 0, .setResult none, .setError none]
    { e with maxStage := -1, peerUri := .null, ticker := SwaTtl.freeze now e.ticker }

/-- How a request ends: an OK response with a JSON body, one with another status and
    its text (empty where reading it fails), or an exception on the way, which an OK
    response whose body is not JSON also raises. -/
inductive Response (Body : Type) where
  | ok (data : Body)
  | notOk (status : Nat) (text : String)
  | failed (err : String)
  deriving DecidableEq, Repr

def settle (e : Engine Body) : Response Body → Engine Body
  | .ok data =>
    e.queue [.setResult (some data), .setStatus .done, .setStage (-1), .setCompleted 6]
  | .notOk status text =>
    let message := if text = "" then toString status else text
    e.queue [.setErrorKeepPayload ⟨"http.error", some (.str message), none⟩, .setStatus .error]
  | .failed err =>
    e.queue [.setStatus .error, .setError (some ⟨"network.error", some (.str err), none⟩)]

/-- The effect `statusRef.current = status`, where it is due. -/
def effect (e : Engine Body) : Engine Body :=
  match e.effectDue with
  | true => { e with effectDue := false, statusRef := e.cells.status }
  | false => e

def commit (e : Engine Body) : Engine Body :=
  let flushed := e.effect
  { flushed with
    cells := flushed.pending
    updates := []
    effectDue := decide (flushed.pending.status ≠ flushed.cells.status) }

end Engine

inductive Carrier where
  | internal
  | external
  deriving DecidableEq, Repr

structure Request where
  id : Nat
  carrier : Carrier
  shipmentId : String
  deriving DecidableEq, Repr

/-- The page: the engine, the pace queue, the clock and the requests on their way.
    `current` is the latest run that no reset has followed and `answers` lists the OK
    responses handled so far; no operation reads the two. -/
structure Page (Body : Type) where
  engine : Engine Body
  pace : PaceQueue
  now : Int
  requests : List Request
  issued : Nat
  current : Option Nat
  answers : List (Nat × Body)
  deriving DecidableEq, Repr

/-- An action that is not possible at a state leaves it as it is. -/
inductive Action (Body : Type) where
  | run (carrier : Carrier) (shipmentId : String)
  | reset
  | respond (id : Nat) (response : Engine.Response Body)
  /-- A message of `/trace`; `none` is one that `push` or `JSON.parse` refuses. -/
  | sse (msg : Option PaceEvent)
  | expire (h : Nat)
  | setPace (value : PaceArg)
  | skip
  | commit
  | effect
  | tick
  | clock (now : Int)
  deriving DecidableEq, Repr

namespace Page

def initial (now : Int) : Page Body where
  engine := {
    cells := ⟨.idle, -1, 0, .fin 0, .fin 0, none, none⟩
    updates := []
    effectDue := false
    statusRef := .idle
    maxStage := -1
    peerUri := .null
    ticker := SwaTtl.initial }
  pace := SwaPace.initial
  now := now
  requests := []
  issued := 0
  current := none
  answers := []

/-- What an operation of the pace queue calls its subscribers with. -/
def freshSignals (host : Host) (pace : PaceQueue) (op : Op) : List Signal :=
  (SwaPace.step host pace op).signals.drop pace.signals.length

def paceStep (host : Host) (op : Op) (s : Page Body) : Page Body :=
  { s with
    pace := SwaPace.step host s.pace op
    engine := (freshSignals host s.pace op).foldl (Engine.onSignal host s.now) s.engine }

def run (carrier : Carrier) (shipmentId : String) (s : Page Body) : Page Body :=
  { s with
    engine := s.engine.run s.now
    requests := s.requests ++ [⟨s.issued, carrier, shipmentId⟩]
    issued := s.issued + 1
    current := some s.issued }

def reset (s : Page Body) : Page Body :=
  { s with
    engine := s.engine.reset s.now
    pace := preemptAndFlush s.pace
    current := none }

def Outstanding (s : Page Body) (id : Nat) : Prop := id ∈ s.requests.map (·.id)

instance (s : Page Body) (id : Nat) : Decidable (s.Outstanding id) :=
  inferInstanceAs (Decidable (_ ∈ _))

def answered (id : Nat) : Engine.Response Body → List (Nat × Body)
  | .ok data => [(id, data)]
  | _ => []

def respond (id : Nat) (response : Engine.Response Body) (s : Page Body) : Page Body :=
  if s.Outstanding id then
    { s with
      engine := s.engine.settle response
      requests := s.requests.filter (·.id != id)
      answers := s.answers ++ answered id response }
  else s

def tick (s : Page Body) : Page Body :=
  match s.engine.ticker.timer with
  | true => { s with engine := s.engine.tick s.now }
  | false => s

def step (host : Host) (s : Page Body) : Action Body → Page Body
  | .run carrier shipmentId => s.run carrier shipmentId
  | .reset => s.reset
  | .respond id response => s.respond id response
  | .sse msg => s.paceStep host (.push msg)
  | .expire h => s.paceStep host (.expire h)
  | .setPace value => s.paceStep host (.setPace value)
  | .skip => s.paceStep host .skip
  | .commit => { s with engine := s.engine.commit }
  | .effect => { s with engine := s.engine.effect }
  | .tick => s.tick
  | .clock now => { s with now := now }

end Page
end SwaEngine
