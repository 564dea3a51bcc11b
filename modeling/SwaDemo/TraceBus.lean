import SwaDemo.Runs
import SwaDemo.GoChannel
import SwaDemo.TraceEvent

/-!
The trace bus (`apps/portal/trace.go`, and its paste `apps/carrier/trace.go`): every
critical section is one step. A channel is known by its place in `chans`, which
lists all that were ever made; `none` is a panic.
-/
namespace SwaBus
open GoChannel SwaTrace

structure TraceBus where
  chans : List (Chan TraceEvent)
  subs : List Nat
  bufSize : Nat
  deriving DecidableEq, Repr

def newTraceBus (bufSize : Int) : TraceBus := ⟨[], [], if bufSize < 1 then 1 else bufSize.toNat⟩

namespace TraceBus

def onChan (op : Chan TraceEvent → Option (Chan TraceEvent)) (id : Nat) (b : TraceBus) :
    Option TraceBus := do
  let ch ← b.chans[id]?
  let ch' ← op ch
  return { b with chans := b.chans.set id ch' }

def subscribe (b : TraceBus) : TraceBus :=
  { b with chans := b.chans ++ [make b.bufSize], subs := b.subs ++ [b.chans.length] }

def unsubscribe (id : Nat) (b : TraceBus) : Option TraceBus :=
  if id ∈ b.subs then onChan Chan.close id { b with subs := b.subs.erase id } else some b

/-- `if ev.TS.IsZero() { ev.TS = time.Now().UTC() }` -/
def stamp (now : Int) (ev : TraceEvent) : TraceEvent :=
  match ev.ts with
  | none => { ev with ts := some now }
  | some _ => ev

/-- The loop of `Emit`, over the subscribers in the order that `range` takes them. -/
def sendAll (ev : TraceEvent) : List Nat → TraceBus → Option TraceBus
  | [], b => some b
  | id :: order, b => do
    let b ← onChan (Chan.trySend ev) id b
    sendAll ev order b

def emit (now : Int) (ev : TraceEvent) (order : List Nat) (b : TraceBus) : Option TraceBus :=
  sendAll (stamp now ev) order b

/-- `<-ch`, which waits or finds the channel closed where no event is buffered. -/
def receive (id : Nat) (b : TraceBus) : TraceBus :=
  match b.chans[id]?.bind Chan.recv with
  | none => b
  | some (_, ch) => { b with chans := b.chans.set id ch }

end TraceBus

inductive BusOp where
  | subscribe
  | unsubscribe (id : Nat)
  /-- `now` is what `time.Now` said; `order` is how `range` visits the map. -/
  | emit (now : Int) (ev : TraceEvent) (order : List Nat)
  | receive (id : Nat)
  deriving DecidableEq, Repr

/-- An order in which `range` visits the keys of a map. -/
structure RangeOrder where
  visit : List Nat → List Nat
  perm : ∀ keys, (visit keys).Perm keys

inductive SubOp where
  | subscribe
  | unsubscribe (id : Nat)
  | receive (id : Nat)
  deriving DecidableEq, Repr

def SubOp.toBus : SubOp → BusOp
  | .subscribe => .subscribe
  | .unsubscribe id => .unsubscribe id
  | .receive id => .receive id

namespace TraceBus

/-- An order that is not one of the map's is no step of the bus. -/
def step (b : TraceBus) : BusOp → Option TraceBus
  | .subscribe => some b.subscribe
  | .unsubscribe id => b.unsubscribe id
  | .emit now ev order => if order.Perm b.subs then b.emit now ev order else some b
  | .receive id => some (b.receive id)

def bufOf (b : TraceBus) (id : Nat) : List TraceEvent := b.chans[id]?.elim [] (·.buf)

/-- The event an operation receives on `id`. -/
def taken (id : Nat) (b : TraceBus) : BusOp → List TraceEvent
  | .receive k => if k = id then (b.bufOf id).take 1 else []
  | _ => []

end TraceBus
end SwaBus
