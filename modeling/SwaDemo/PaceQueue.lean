import SwaDemo.Runs
import SwaDemo.JsValue

/-!
The pace queue of the portal's user interface (`engine/paceQueue.ts`): the
module's variables, the browser's timers, and every exported operation as a
function on both. `signals` records what the subscribers and the state
subscribers are called with, in order; they do not call back into the module.
-/
namespace SwaPace
open Js

structure PaceEvent where
  type : String
  payload : Option Record
  deriving DecidableEq, Repr

inductive PaceState where
  | walking
  | idle
  deriving DecidableEq, Repr

/-- An event that `push` accepted, numbered in the order of the pushes. The number
    is the identity of the pushed object; the module never looks at it. -/
structure Accepted where
  seq : Nat
  ev : PaceEvent
  deriving DecidableEq, Repr

inductive Signal where
  | event (a : Accepted)
  | state (s : PaceState)
  deriving DecidableEq, Repr

structure Timer where
  handle : Nat
  delay : JsNumber
  deriving DecidableEq, Repr

/-- `live` holds the timers that neither fired nor were cleared; `accepted` and
    `signals` are histories that no operation reads. -/
structure PaceQueue where
  queue : List Accepted
  currentPace : JsNumber
  pendingTimer : Option Nat
  walking : Bool
  skipMode : Bool
  live : List Timer
  nextHandle : Nat
  accepted : List Accepted
  signals : List Signal
  deriving DecidableEq, Repr

def initial : PaceQueue := ⟨[], .fin 0, none, false, false, [], 0, [], []⟩

/-- What the language does and the model leaves open: `Number(value)`, and
    `JSON.parse(String(frame))`, which is `none` where it throws and `some none`
    where the value it returns is falsy or has no string `type`. -/
structure Host where
  number : JsValue → JsNumber
  parseFrame : JsValue → Option (Option PaceEvent)

/-- STAGE_WEIGHTS[type] ?? 1.0. The table is a plain object, so the names that
    every object inherits give a function or an object, which is no number. -/
def stageWeight (type : String) : Option ℚ :=
  match type with
  | "portal.resolve.requested" => some 1
  | "mtls.handshake.start" => some (Float64.rounded (7 / 10))
  | "mtls.handshake.ok" => some 1
  | "jwt_svid.issued" => some 2
  | "sm.authn_jwt.ok" => some (3 / 2)
  | "sm.secret_fetched.ok" => some 1
  | _ =>
    if type ∈ ["constructor", "toString", "valueOf", "toLocaleString", "hasOwnProperty",
        "isPrototypeOf", "propertyIsEnumerable", "__proto__", "__defineGetter__",
        "__defineSetter__", "__lookupGetter__", "__lookupSetter__"] then none
    else some 1

def fanout (a : Accepted) (s : PaceQueue) : PaceQueue :=
  { s with signals := s.signals ++ [.event a] }

def setWalking (next : Bool) (s : PaceQueue) : PaceQueue :=
  if s.walking = next then s
  else { s with
    walking := next
    signals := s.signals ++ [.state (if next then .walking else .idle)] }

/-- `pendingTimer = setTimeout(drain, delay)` -/
def armTimer (delay : JsNumber) (s : PaceQueue) : PaceQueue :=
  { s with
    pendingTimer := some s.nextHandle
    live := s.live ++ [⟨s.nextHandle, delay⟩]
    nextHandle := s.nextHandle + 1 }

/-- `if (pendingTimer !== null) { clearTimeout(pendingTimer); pendingTimer = null; }` -/
def clearPending (s : PaceQueue) : PaceQueue :=
  match s.pendingTimer with
  | none => s
  | some h => { s with pendingTimer := none, live := s.live.filter (·.handle != h) }

/-- `skipMode ? 0 : currentPace` -/
def effectivePace (s : PaceQueue) : JsNumber :=
  match s.skipMode with
  | true => .fin 0
  | false => s.currentPace

/-- `pace * (STAGE_WEIGHTS[queue[0]?.type ?? ""] ?? 1.0)` -/
def drainDelay (pace : JsNumber) (queue : List Accepted) : JsNumber :=
  match stageWeight (queue.head?.elim "" (·.ev.type)) with
  | some w => pace.scale w
  | none => .nan

/-- `drain`, whose calls to itself go through the queue it starts with. -/
def drainQueue : List Accepted → PaceQueue → PaceQueue
  | [], s => setWalking false { s with pendingTimer := none, queue := [], skipMode := false }
  | a :: rest, s =>
    let s := fanout a { s with pendingTimer := none, queue := rest }
    if (effectivePace s).isZero then
      if rest.isEmpty then setWalking false { s with skipMode := false }
      else drainQueue rest s
    else armTimer (drainDelay (effectivePace s) rest) s

def drain (s : PaceQueue) : PaceQueue := drainQueue s.queue s

def kick (s : PaceQueue) : PaceQueue :=
  if s.pendingTimer.isSome then s else drain (setWalking true s)

/-- `/\.err$|\.error$|\.empty$/.test(type)` -/
def isErr (type : String) : Bool :=
  ".err".toList.isSuffixOf type.toList || ".error".toList.isSuffixOf type.toList ||
    ".empty".toList.isSuffixOf type.toList

def preemptAndFlush (s : PaceQueue) : PaceQueue := { clearPending s with queue := [] }

/-- `while (queue.length > 0) fanout(queue.shift()!)` -/
def fanoutQueue : List Accepted → PaceQueue → PaceQueue
  | [], s => s
  | a :: rest, s => fanoutQueue rest (fanout a { s with queue := rest })

/-- Unwrap carrier-side events that were forwarded as carrier.event.raw. An
    argument that is falsy or has no string `type` is `none`. -/
def unwrap (host : Host) (rawEv : Option PaceEvent) : Option PaceEvent :=
  match rawEv with
  | none => none
  | some ev =>
    if ev.type = "carrier.event.raw" then
      match prop ev.payload "frame" with
      | none => some ev
      | some frame =>
        if frame.truthy then
          match host.parseFrame frame with
          | none => some ev
          | some parsed => parsed
        else some ev
    else some ev

def nextAccepted (ev : PaceEvent) (s : PaceQueue) : Accepted := ⟨s.accepted.length, ev⟩

def accept (ev : PaceEvent) (s : PaceQueue) : PaceQueue :=
  { s with accepted := s.accepted ++ [nextAccepted ev s] }

/-- Error preemption: drain any queued non-error events synchronously first. -/
def pushError (a : Accepted) (s : PaceQueue) : PaceQueue :=
  let s := clearPending s
  setWalking false (fanout a (fanoutQueue s.queue s))

/-- Replay preemption: a new resolve mid-walk drops the in-flight queue. -/
def pushReplay (a : Accepted) (s : PaceQueue) : PaceQueue :=
  let s := preemptAndFlush s
  let s := drain { s with queue := s.queue ++ [a] }
  setWalking true { s with pendingTimer := none }

def pushEvent (ev : PaceEvent) (s : PaceQueue) : PaceQueue :=
  let a := nextAccepted ev s
  if isErr ev.type then pushError a (accept ev s)
  else if ev.type = "portal.resolve.requested" ∧ s.walking = true then pushReplay a (accept ev s)
  else kick { accept ev s with queue := s.queue ++ [a] }

def push (host : Host) (rawEv : Option PaceEvent) (s : PaceQueue) : PaceQueue :=
  match unwrap host rawEv with
  | none => s
  | some ev => pushEvent ev s

inductive PaceArg where
  | num (n : JsNumber)
  | str (value : String)
  deriving DecidableEq, Repr

def paceOf (host : Host) : PaceArg → JsNumber
  | .num n => n.mathMax 0
  | .str "off" => .fin 0
  | .str "fast" => .fin 150
  | .str "medium" => .fin 300
  | .str "slow" => .fin 600
  | .str value => (host.number (.str value)).finiteOrZero

def setPace (host : Host) (value : PaceArg) (s : PaceQueue) : PaceQueue :=
  { s with currentPace := paceOf host value }

def skip (s : PaceQueue) : PaceQueue :=
  if s.walking then drain (clearPending { s with skipMode := true }) else s

/-- The browser runs the callback of timer `h`, which is live until then. -/
def expire (h : Nat) (s : PaceQueue) : PaceQueue :=
  if s.live.any (·.handle == h) then drain { s with live := s.live.filter (·.handle != h) }
  else s

inductive Op where
  | push (rawEv : Option PaceEvent)
  | setPace (value : PaceArg)
  | skip
  | preemptAndFlush
  | expire (h : Nat)
  deriving DecidableEq, Repr

def step (host : Host) (s : PaceQueue) : Op → PaceQueue
  | .push rawEv => push host rawEv s
  | .setPace value => setPace host value s
  | .skip => skip s
  | .preemptAndFlush => preemptAndFlush s
  | .expire h => expire h s

/-- The events a permanent subscriber has been called with. -/
def Signal.event? : Signal → Option Accepted
  | .event a => some a
  | .state _ => none

def PaceQueue.delivered (s : PaceQueue) : List Accepted := s.signals.filterMap Signal.event?

def Reachable (host : Host) (s : PaceQueue) : Prop := ∃ ops, s = Runs.run (step host) initial ops

end SwaPace
