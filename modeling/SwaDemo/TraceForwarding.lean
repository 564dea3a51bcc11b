import SwaDemo.BusDelivery
import SwaDemo.SseFrames

/-!
Trace forwarding between the two services: the lookups of one `CarrierClient`
(`apps/portal/carrier_client.go`), each with a goroutine that reads the carrier's
`/trace`, the carrier's bus, and the handler that serves one subscription of it
(`apps/carrier/trace.go`). `none` is a panic of a service.

Every byte on a connection carries a tag, the event it was written for and its place
in the frame; no step looks at a tag.
-/
namespace SwaForward
open SwaTrace SwaFrames SwaBus Runs

abbrev Tag := TraceEvent × Nat

/-- `streamCarrierTrace` before `c.http.Do` returns, in its read loop, and after it. -/
inductive StreamPhase where
  | requesting
  | reading
  | ended
  deriving DecidableEq, Repr

/-- `streamCarrierTrace` of one lookup and the request it made. `chan` is the channel
    that the carrier's handler subscribed, `wire` what that handler has written and the
    portal has not read. -/
structure Stream where
  id : Nat
  chan : Option Nat
  serving : Bool
  wire : List (UInt8 × Tag)
  phase : StreamPhase
  cancelled : Bool
  returned : Bool
  deriving DecidableEq, Repr

/-- An event emitted on the portal's bus; `via` is the stream it was read from and the
    tags of the bytes that made it, for one that was. -/
structure PortalEvent where
  event : TraceEvent
  via : Option (Nat × List Tag)
  deriving DecidableEq, Repr

structure Services where
  carrier : TraceBus
  streams : List Stream
  portal : List PortalEvent
  deriving DecidableEq, Repr

def start (bufSize : Int) : Services := ⟨newTraceBus bufSize, [], []⟩

/-- `^SHP-[A-Za-z0-9-]+$` -/
def validShipmentID (shipmentID : GoString) : Bool :=
  (goString "SHP-").isPrefixOf shipmentID && shipmentID.length > 4 &&
    (shipmentID.drop 4).all fun c =>
      (65 ≤ c && c ≤ 90) || (97 ≤ c && c ≤ 122) || (48 ≤ c && c ≤ 57) || c == 45

/-- How the call to `/lookup` of one `Lookup` ended. -/
inductive LookupResult where
  | noRequest
  | unreachable (err : GoString)
  | replied (cipher peerSANURI : GoString)
  deriving DecidableEq, Repr

def lookupEvents (peerHost : GoString) : LookupResult → List TraceEvent
  | .noRequest => []
  | .unreachable err => [newEvent "portal" "mtls.handshake.err" [("err", .str err)]]
  | .replied cipher peerSANURI => [newEvent "portal" "mtls.handshake.ok" [
      ("peer_host", .str peerHost),
      ("cipher", .str cipher),
      ("peer_san_uri", .str peerSANURI)]]

inductive Action where
  | lookup (shipmentID : GoString)
  /-- The carrier's handler runs `Subscribe` for the stream's request. -/
  | subscribe (i : Nat)
  /-- The stream's request is answered. -/
  | opened (i : Nat)
  /-- The stream's request fails, or cannot be made, which leaves no event. -/
  | refused (i : Nat) (err : Option GoString)
  /-- Anything at the carrier emits. -/
  | emit (now : Int) (ev : TraceEvent) (order : List Nat)
  /-- The handler takes an event from its channel and writes its frame. -/
  | forward (i : Nat)
  /-- The handler sees that its client is gone or cut off, and unsubscribes. -/
  | disconnect (i : Nat)
  /-- One `Read` of `n` bytes, with or without an error. -/
  | read (i n : Nat) (failed : Bool)
  | return_ (i : Nat) (result : LookupResult)
  /-- `cancelTrace`: 500 ms after the return, or when the parent context ends before it. -/
  | cancel (i : Nat)
  deriving DecidableEq, Repr

/-- The loop of `splitOnDoubleNewline`, which also collects the tags of each chunk. -/
def splitTags {τ : Type} (before : Option UInt8) (res : List (GoString × List τ)) (cur : GoString)
    (tags : List τ) : List (UInt8 × τ) → Option (List (GoString × List τ))
  | [] => some (if cur = [] then res else res ++ [(cur, tags)])
  | (b, t) :: rest =>
    let cur := cur ++ stringOfByte b
    let tags := tags ++ [t]
    if before = some newline ∧ b = newline then
      if cur.length < 2 then none
      else splitTags (some b) (res ++ [(cur.take (cur.length - 2), tags)]) [] [] rest
    else splitTags (some b) res cur tags rest

def taggedFrame {τ : Type} (chunk : GoString × List τ) : Option (GoString × List τ) :=
  (frameOf chunk.1).map (·, chunk.2)

/-- `splitFrames` with the tags of each frame. -/
def splitTaggedFrames {τ : Type} (bytes : List (UInt8 × τ)) : Option (List (GoString × List τ)) :=
  (splitTags none [] [] [] bytes).map (·.filterMap taggedFrame)

/-- The frame of an event as the handler writes it, each byte with its tag. -/
def writtenFrame (marshal : TraceEvent → Bytes) (ev : TraceEvent) : List (UInt8 × Tag) :=
  (encodeFrame (marshal ev)).zipIdx.map fun (b, n) => (b, ev, n)

section step
variable (marshal : TraceEvent → Bytes) (peerHost : GoString)

def updateStream (i : Nat) (st : Stream) (s : Services) : Services :=
  { s with streams := s.streams.set i st }

def lookup (shipmentID : GoString) (s : Services) : Services :=
  if validShipmentID shipmentID then
    { s with
      streams := s.streams ++ [⟨s.streams.length, none, false, [], .requesting, false, false⟩]
      portal := s.portal ++
        [⟨newEvent "portal" "mtls.handshake.start" [("peer_host", .str peerHost)], none⟩] }
  else s

def subscribe (i : Nat) (st : Stream) (s : Services) : Services :=
  { s with
    carrier := s.carrier.subscribe
    streams := s.streams.set i { st with chan := some s.carrier.chans.length, serving := true } }

def refused (i : Nat) (err : Option GoString) (st : Stream) (s : Services) : Services :=
  { s with
    streams := s.streams.set i { st with phase := .ended }
    portal := s.portal ++ err.toList.map fun err =>
      ⟨newEvent "portal" "carrier.trace.unreachable" [("err", .str err)], none⟩ }

def forward (i : Nat) (st : Stream) (ch : Nat) (s : Services) : Services :=
  match s.carrier.bufOf ch with
  | [] => s
  | ev :: _ => { s with
    carrier := s.carrier.receive ch
    streams := s.streams.set i { st with wire := st.wire ++ writtenFrame marshal ev } }

def disconnect (i : Nat) (st : Stream) (ch : Nat) (s : Services) : Option Services := do
  let carrier ← s.carrier.unsubscribe ch
  return { s with carrier := carrier, streams := s.streams.set i { st with serving := false } }

def read (i n : Nat) (failed : Bool) (st : Stream) (s : Services) : Option Services := do
  let frames ← splitTaggedFrames (st.wire.take n)
  return { s with
    streams := s.streams.set i { st with
      wire := st.wire.drop n
      phase := if failed then .ended else .reading }
    portal := s.portal ++ frames.map fun frame => ⟨rawEvent frame.1, some (st.id, frame.2)⟩ }

def return_ (i : Nat) (result : LookupResult) (st : Stream) (s : Services) : Services :=
  { s with
    streams := s.streams.set i { st with returned := true }
    portal := s.portal ++ (lookupEvents peerHost result).map (⟨·, none⟩) }

def onStream (i : Nat) (s : Services) (act : Stream → Option Services) : Option Services :=
  match s.streams[i]? with
  | some st => act st
  | none => some s

/-- An action on a stream that is not there, or not at that point, is no step. -/
def step (s : Services) : Action → Option Services
  | .lookup shipmentID => some (lookup peerHost shipmentID s)
  | .emit now ev order => do
    let carrier ← s.carrier.step (.emit now ev order)
    return { s with carrier := carrier }
  | .subscribe i => onStream i s fun st =>
    if st.chan = none then some (subscribe i st s) else some s
  | .opened i => onStream i s fun st =>
    if st.phase = .requesting then some (updateStream i { st with phase := .reading } s) else some s
  | .refused i err => onStream i s fun st =>
    if st.phase = .requesting then some (refused i err st s) else some s
  | .forward i => onStream i s fun st =>
    match st.chan, st.serving with
    | some ch, true => some (forward marshal i st ch s)
    | _, _ => some s
  | .disconnect i => onStream i s fun st =>
    match st.chan, st.serving with
    | some ch, true => disconnect i st ch s
    | _, _ => some s
  | .read i n failed => onStream i s fun st =>
    if st.phase = .reading ∧ n ≤ 8192 then read i n failed st s else some s
  | .return_ i result => onStream i s fun st =>
    if st.returned then some s else some (return_ peerHost i result st s)
  | .cancel i => onStream i s fun st => some (updateStream i { st with cancelled := true } s)

theorem onStream_here {i : Nat} {s : Services} {st : Stream} (here : s.streams[i]? = some st)
    (act : Stream → Option Services) : onStream i s act = act st := by
  rw [onStream, here]

theorem onStream_cases {i : Nat} {s s' : Services} {act : Stream → Option Services}
    (acts : onStream i s act = some s') :
    s' = s ∨ ∃ st, s.streams[i]? = some st ∧ act st = some s' := by
  cases here : s.streams[i]? with
  | none =>
    rw [onStream, here] at acts
    exact Or.inl (Option.some.inj acts).symm
  | some st =>
    rw [onStream_here here] at acts
    exact Or.inr ⟨st, rfl, acts⟩

theorem step_carrier {s : Services} {now : Int} {ev : TraceEvent} {order : List Nat} {b : TraceBus}
    (emits : s.carrier.step (.emit now ev order) = some b) :
    step marshal peerHost s (.emit now ev order) = some { s with carrier := b } := by
  rw [step, emits]
  rfl

theorem forward_waits {s : Services} {i ch : Nat} {st : Stream} (empty : s.carrier.bufOf ch = []) :
    forward marshal i st ch s = s := by
  simp [forward, empty]

theorem forward_writes {s : Services} {i ch : Nat} {st : Stream} {ev : TraceEvent}
    {rest : List TraceEvent} (held : s.carrier.bufOf ch = ev :: rest) :
    forward marshal i st ch s = { s with
      carrier := s.carrier.receive ch
      streams := s.streams.set i { st with wire := st.wire ++ writtenFrame marshal ev } } := by
  simp [forward, held]

theorem read_iff {s s' : Services} {i n : Nat} {failed : Bool} {st : Stream} :
    read i n failed st s = some s' ↔
      ∃ frames, splitTaggedFrames (st.wire.take n) = some frames ∧ s' = { s with
        streams := s.streams.set i { st with
          wire := st.wire.drop n
          phase := if failed then .ended else .reading }
        portal := s.portal ++ frames.map fun frame => ⟨rawEvent frame.1, some (st.id, frame.2)⟩ } := by
  constructor
  · intro reads
    obtain ⟨frames, splits, built⟩ := Option.bind_eq_some_iff.mp reads
    exact ⟨frames, splits, (Option.some.inj built).symm⟩
  · rintro ⟨frames, splits, rfl⟩
    exact Option.bind_eq_some_iff.mpr ⟨frames, splits, rfl⟩

end step
end SwaForward
