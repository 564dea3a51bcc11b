import SwaDemo.EventStream
import SwaDemo.TraceServer
import SwaDemo.TraceWire
import SwaDemo.SseFrames
import SwaDemo.Ledger

/-!
The whole way of the trace: events are emitted on a bus, the handlers of `/trace` write what
their channels give as frames (`trace.go`), and the page's `EventSource` reads one connection
after another and hands its messages to `paceQueue.push` (`useResolveEngine.ts`). Reads are
cut anywhere, connections break off at any moment, and other clients come and go.
-/
namespace SwaFeed
open SwaTrace SwaBus SwaWire Runs TraceBus
open SwaFrames (encodeFrames)
open SwaPace (PaceEvent)
open EventStream (dataFrame dataFrames whole)

/-- `written`: what the handler of each connection has written. `source`: the connection that
    the `EventSource` reads, of which it has read `read` bytes. -/
structure Feed where
  server : Server
  written : Nat → List TraceEvent
  source : Option Nat
  read : Nat
  stream : EventStream.State

inductive FeedAct where
  | server (a : ServerAct)
  /-- The `EventSource` connects, for the first time or again. -/
  | connect (flusher : Bool)
  /-- At most `n` more bytes arrive. -/
  | arrive (n : Nat)

def stageChannel : Stage → Option Nat
  | .serving ch => some ch
  | _ => none

/-- The channel that the handler of a connection serves. -/
def channel (s : Server) (i : Nat) : Option Nat := s.conns[i]?.bind fun c => stageChannel c.stage

/-- What waits in the channel of a connection. -/
def waiting (s : Server) (i : Nat) : List TraceEvent := (channel s i).elim [] s.bus.bufOf

/-- The event that the handler of a connection takes from its channel and writes. -/
def served (i : Nat) (s : Server) : ServerAct → List TraceEvent
  | .serve j => if j = i then (waiting s i).take 1 else []
  | _ => []

def emitted : ServerAct → List TraceEvent
  | .emit now ev _ => [stamp now ev]
  | _ => []

namespace Feed

def initial (bufSize : Int) : Feed :=
  ⟨Server.initial bufSize, fun _ => [], none, 0, EventStream.start []⟩

/-- What stands on the connection of the `EventSource`. -/
def sent (s : Feed) : List TraceEvent := s.source.elim [] s.written

def wire (w : Writer) (s : Feed) : GoString := encodeFrames (s.sent.map w.marshal)

def step (w : Writer) (s : Feed) : FeedAct → Option Feed
  | .server a => (s.server.step a).map fun t =>
      { s with server := t, written := fun i => s.written i ++ served i s.server a }
  | .connect flusher => (s.server.step (.connect flusher)).map fun t =>
      { s with
        server := t
        source := some s.server.conns.length
        read := 0
        stream := EventStream.start s.stream.events }
  | .arrive n =>
    let chunk := ((s.wire w).drop s.read).take n
    some { s with
      read := s.read + chunk.length
      stream := run EventStream.step s.stream chunk }

/-- What has been pushed to the pace queue. -/
def pushed (ref : Json.Value → Nat) (s : Feed) : List (Option PaceEvent) :=
  (EventStream.messages s.stream).map (received ref)

end Feed

def Feed.note (_ : Feed) : FeedAct → List TraceEvent
  | .server a => emitted a
  | _ => []

/-! ## One connection -/

theorem stageChannel_eq {stage : Stage} {ch : Nat} : stageChannel stage = some ch ↔ stage = .serving ch := by
  cases stage <;> simp [stageChannel]

theorem channel_eq {s : Server} {i ch : Nat} :
    channel s i = some ch ↔ ∃ c, s.conns[i]? = some c ∧ c.stage = .serving ch := by
  simp only [channel, Option.bind_eq_some_iff, stageChannel_eq]

theorem waiting_channel {s : Server} {i ch : Nat} (serves : channel s i = some ch) :
    waiting s i = s.bus.bufOf ch := by
  rw [waiting, serves]
  rfl

theorem waiting_none {s : Server} {i : Nat} (none_ : channel s i = none) : waiting s i = [] := by
  rw [waiting, none_]
  rfl

theorem waiting_same {s t : Server} {i : Nat} (serves : channel t i = channel s i)
    (bufs : ∀ ch, channel s i = some ch → t.bus.bufOf ch = s.bus.bufOf ch) :
    waiting t i = waiting s i := by
  cases at_ : channel s i with
  | none => rw [waiting_none at_, waiting_none (serves.trans at_)]
  | some ch => rw [waiting_channel at_, waiting_channel (serves.trans at_), bufs ch at_]

theorem channel_modify (s : Server) (i j : Nat) {f : TraceConn → TraceConn}
    (stage : ∀ c, stageChannel (f c).stage = stageChannel c.stage) :
    channel { s with conns := s.conns.modify j f } i = channel s i := by
  simp only [channel, List.getElem?_modify]
  cases s.conns[i]? with
  | none => rfl
  | some c =>
    by_cases at_ : j = i
    · simp [at_, stage]
    · simp [at_]

theorem channel_set (s : Server) (b : TraceBus) (i j : Nat) (c : TraceConn) :
    channel ⟨b, s.conns.set j c⟩ i =
      if i = j ∧ j < s.conns.length then stageChannel c.stage else channel s i := by
  simp only [channel, List.getElem?_set]
  by_cases at_ : j = i
  · subst at_
    by_cases inside : j < s.conns.length
    · simp [inside]
    · simp [inside]
  · simp [at_, Ne.symm at_]

theorem channel_connect (s : Server) (i : Nat) (flusher : Bool) :
    channel { s with conns := s.conns ++ [⟨.accepted flusher, false, false⟩] } i = channel s i := by
  simp only [channel]
  rcases Nat.lt_trichotomy i s.conns.length with old | rfl | beyond
  · rw [List.getElem?_append_left old]
  · simp [stageChannel]
  · rw [List.getElem?_eq_none (by simp only [List.length_append, List.length_singleton]; omega),
      List.getElem?_eq_none (by omega)]

/-- What a step of the server does to one connection: what the handler writes comes from the
    front of what waits for it, and only the event that is emitted joins at the end. -/
theorem step_waiting {s s' : Server} {a : ServerAct} (attended : Attended s)
    (steps : s.step a = some s') (i : Nat) :
    (served i s a ++ waiting s' i).Sublist (waiting s i ++ emitted a) := by
  have still (quiet : served i s a = []) (same : waiting s' i = waiting s i) :
      (served i s a ++ waiting s' i).Sublist (waiting s i ++ emitted a) := by
    rw [quiet, same]
    exact List.sublist_append_left _ _
  cases a with
  | connect flusher =>
    cases steps
    exact still rfl (waiting_same (channel_connect s i flusher) fun ch _ => rfl)
  | respond j =>
    cases steps
    refine still rfl (waiting_same (channel_modify s i j fun c => ?_) fun ch _ => rfl)
    obtain ⟨stage, headers, gone⟩ := c
    cases stage with
    | accepted flusher => cases flusher <;> rfl
    | refused | flushed | serving | returned => rfl
  | headers j =>
    cases steps
    refine still rfl (waiting_same (channel_modify s i j fun c => ?_) fun ch _ => rfl)
    unfold TraceConn.receiveHeaders
    split <;> rfl
  | disconnect j =>
    cases steps
    exact still rfl (waiting_same (channel_modify s i j fun c => rfl) fun ch _ => rfl)
  | subscribe j =>
    cases steps
    cases here : s.conns[j]? with
    | none =>
      have none_ : s.subscribe j = s := by rw [Server.subscribe, here]
      exact still rfl (by rw [none_])
    | some c =>
      by_cases flushed : c.stage = .flushed
      · have subscribes : s.subscribe j =
            ⟨s.bus.subscribe, s.conns.set j { c with stage := .serving s.bus.chans.length }⟩ := by
          rw [Server.subscribe, here]
          exact if_pos flushed
        have inside : j < s.conns.length := (List.getElem?_eq_some_iff.mp here).1
        have now := channel_set s s.bus.subscribe i j { c with stage := .serving s.bus.chans.length }
        by_cases at_ : i = j
        · rw [if_pos ⟨at_, inside⟩] at now
          have new : s.bus.bufOf s.bus.chans.length = [] := by simp [bufOf]
          rw [subscribes, waiting_channel now]
          simp only [subscribe_bufOf, new, served, List.append_nil]
          exact List.nil_sublist _
        · rw [if_neg fun both => at_ both.1] at now
          refine still rfl ?_
          rw [subscribes]
          exact waiting_same now fun ch _ => subscribe_bufOf s.bus ch
      · have none_ : s.subscribe j = s := by
          rw [Server.subscribe, here]
          exact if_neg flushed
        exact still rfl (by rw [none_])
  | serve j =>
    cases steps
    cases at_ : channel s j with
    | none =>
      have none_ : s.serve j = s := by
        unfold Server.serve
        split
        · rename_i ch headers gone here
          have serves : channel s j = some ch := channel_eq.mpr ⟨_, here, rfl⟩
          rw [at_] at serves
          contradiction
        · rfl
      rw [none_, served]
      split
      · rename_i same
        subst same
        simp [waiting_none at_]
      · simp [emitted]
    | some ch =>
      obtain ⟨c, here, serving⟩ := channel_eq.mp at_
      have takes : s.serve j = { s with bus := s.bus.receive ch } := by
        obtain ⟨stage, headers, gone⟩ := c
        cases serving
        rw [Server.serve, here]
      have same : channel { s with bus := s.bus.receive ch } i = channel s i := rfl
      by_cases mine : j = i
      · subst mine
        rw [takes, served, if_pos rfl, waiting_channel (same.trans at_), waiting_channel at_, receive_bufOf,
          if_pos rfl]
        cases s.bus.bufOf ch <;> simp [emitted]
      · refine still (by rw [served, if_neg mine]) ?_
        rw [takes]
        refine waiting_same same fun ch' at_' => ?_
        obtain ⟨c', here', serving'⟩ := channel_eq.mp at_'
        have apart : ch ≠ ch' := by
          rintro rfl
          exact mine (attended.apart j i c c' ch here here' serving serving')
        exact (receive_bufOf s.bus ch ch').trans (if_neg apart)
  | finish j =>
    unfold Server.step Server.finish at steps
    simp only at steps
    split at steps
    · rename_i ch headers here
      obtain ⟨b, closes, rfl⟩ := Option.map_eq_some_iff.mp steps
      have inside : j < s.conns.length := (List.getElem?_eq_some_iff.mp here).1
      have now := channel_set s b i j ⟨.returned, headers, true⟩
      by_cases at_ : i = j
      · rw [if_pos ⟨at_, inside⟩] at now
        rw [waiting_none now]
        exact List.nil_sublist _
      · rw [if_neg fun both => at_ both.1] at now
        exact still rfl (waiting_same now fun ch _ => unsubscribe_bufOf attended.sound closes ch)
    · cases steps
      exact still rfl rfl
  | emit now ev range =>
    obtain ⟨b, emits, rfl⟩ := Option.map_eq_some_iff.mp steps
    have same : channel { s with bus := b } i = channel s i := rfl
    cases at_ : channel s i with
    | none =>
      rw [waiting_none (same.trans at_)]
      exact List.nil_sublist _
    | some ch =>
      have places := step_places attended.sound emits ch
      rw [waiting_channel (same.trans at_), waiting_channel at_]
      have buf : b.bufOf ch = s.bus.bufOf ch ++ placed ch s.bus (.emit now ev (range.visit s.bus.subs)) := by
        simpa [taken] using places
      rw [buf, placed]
      split
      · exact List.Sublist.refl _
      · simp [served]

theorem step_conns {s s' : Server} {a : ServerAct} (steps : s.step a = some s') :
    s.conns.length ≤ s'.conns.length := by
  cases a with
  | connect flusher =>
    cases steps
    simp
  | respond j | headers j | disconnect j =>
    cases steps
    simp
  | subscribe j =>
    cases steps
    unfold Server.subscribe
    split
    · exact Nat.le_refl _
    · split <;> simp
  | serve j =>
    cases steps
    unfold Server.serve
    split <;> exact Nat.le_refl _
  | finish j =>
    unfold Server.step Server.finish at steps
    simp only at steps
    split at steps
    · obtain ⟨b, _, rfl⟩ := Option.map_eq_some_iff.mp steps
      simp
    · cases steps
      exact Nat.le_refl _
  | emit now ev range =>
    obtain ⟨b, _, rfl⟩ := Option.map_eq_some_iff.mp steps
    exact Nat.le_refl _

/-! ## The connection that is read -/

theorem oneLine_marshal (w : Writer) (ev : TraceEvent) : EventStream.OneLine (w.marshal ev) := by
  intro c mem
  have printable := Json.encode_printable Json.goQuoting (Writer.regular_event ev) c mem
  constructor
  · rintro rfl
    exact absurd printable (by decide)
  · rintro rfl
    exact absurd printable (by decide)

def toMessage (w : Writer) (ev : TraceEvent) : EventStream.Event := ⟨EventStream.messageType, w.marshal ev⟩

namespace Feed

theorem wire_frames (w : Writer) (s : Feed) : s.wire w = dataFrames (s.sent.map w.marshal) := rfl

/-- How many of the events on the connection have arrived whole. -/
def arrived (w : Writer) (s : Feed) : Nat := whole (s.sent.map w.marshal) s.read

/-- What waits for the connection in its channel. -/
def held (s : Feed) : List TraceEvent := s.source.elim [] (waiting s.server)

theorem arrived_le (w : Writer) (s : Feed) : s.arrived w ≤ s.sent.length := by
  have le := EventStream.whole_le (s.sent.map w.marshal) s.read
  rwa [List.length_map] at le

end Feed

/-- What the page has of the events emitted so far: those of earlier connections and, of the
    present one, those that have arrived whole. -/
structure Fed (w : Writer) (s : Feed) (emitted : List TraceEvent) : Prop where
  attended : Attended s.server
  blank : ∀ i, s.server.conns.length ≤ i → s.written i = []
  within : s.read ≤ (s.wire w).length
  books : ∃ old,
    s.stream = run EventStream.step (EventStream.start (old.map (toMessage w))) ((s.wire w).take s.read) ∧
    Ledger.Ordered ⟨emitted, old ++ s.sent.take (s.arrived w), s.sent.drop (s.arrived w) ++ s.held⟩

theorem fed_initial (w : Writer) (bufSize : Int) : Fed w (Feed.initial bufSize) [] where
  attended := attended_start bufSize
  blank i _ := rfl
  within := Nat.zero_le _
  books := ⟨[], by simp [Feed.initial, Feed.wire, Feed.sent], List.Sublist.refl []⟩

/-- The events dispatched are the earlier connections' and those that have arrived. -/
theorem stream_events {w : Writer} {s : Feed} {old : List TraceEvent}
    (stream : s.stream = run EventStream.step (EventStream.start (old.map (toMessage w)))
      ((s.wire w).take s.read)) :
    s.stream.events = (old ++ s.sent.take (s.arrived w)).map (toMessage w) := by
  have lines : ∀ body ∈ s.sent.map w.marshal, EventStream.OneLine body := by
    intro body mem
    obtain ⟨ev, _, rfl⟩ := List.mem_map.mp mem
    exact oneLine_marshal w ev
  have frames := EventStream.run_frames lines (old.map (toMessage w)) s.read
  rw [stream, Feed.wire_frames, frames, List.map_append, ← List.map_take, List.map_map]
  rfl

/-- More events on the connection leave those that have arrived as they are. -/
theorem arrived_append {w : Writer} {s s' : Feed} {news : List TraceEvent} (sent : s'.sent = s.sent ++ news)
    (read : s'.read = s.read) (within : s.read ≤ (s.wire w).length) : s'.arrived w = s.arrived w := by
  rw [Feed.arrived, Feed.arrived, sent, read, List.map_append]
  exact EventStream.whole_append _ _ within

theorem fed_server {w : Writer} {s : Feed} {emits : List TraceEvent} (fed : Fed w s emits)
    (a : ServerAct) : ∃ s', s.step w (.server a) = some s' ∧ Fed w s' (emits ++ emitted a) := by
  obtain ⟨t, steps, attended⟩ := attended_step s.server a fed.attended
  let s' : Feed := { s with server := t, written := fun i => s.written i ++ served i s.server a }
  have sent : s'.sent = s.sent ++ s.source.elim [] fun i => served i s.server a := by
    simp only [s', Feed.sent]
    cases s.source <;> rfl
  have wire : s'.wire w = s.wire w ++
      encodeFrames ((s.source.elim [] fun i => served i s.server a).map w.marshal) := by
    rw [Feed.wire, sent, List.map_append]
    exact List.flatMap_append
  have arrived : s'.arrived w = s.arrived w := arrived_append sent rfl fed.within
  refine ⟨s', by rw [Feed.step, steps, Option.map_some], attended, ?_, ?_, ?_⟩
  · intro i beyond
    have before := Nat.le_trans (step_conns steps) beyond
    have gone : channel s.server i = none := by
      rw [channel, List.getElem?_eq_none before]
      rfl
    have quiet : served i s.server a = [] := by
      unfold served
      split
      · rw [waiting_none gone]
        split <;> rfl
      · rfl
    simp only [s', fed.blank i before, quiet, List.append_nil]
  · rw [wire, List.length_append]
    exact Nat.le_trans fed.within (Nat.le_add_right _ _)
  · obtain ⟨old, stream, ordered⟩ := fed.books
    refine ⟨old, ?_, ?_⟩
    · rw [wire, List.take_append_of_le_length fed.within]
      exact stream
    · have le := s.arrived_le w
      refine Ledger.ordered_exchange ordered (?_ : Ledger.Exchange _ _ (emitted a) [])
      refine ⟨rfl, ?_, ?_⟩
      · simp [arrived, sent, List.take_append_of_le_length le]
      · simp only [List.nil_append, arrived, sent, List.drop_append_of_le_length le, List.append_assoc]
        refine (List.Sublist.refl _).append ?_
        cases source : s.source with
        | none => simp [s', Feed.held, source]
        | some i =>
          have moves := step_waiting fed.attended steps i
          simpa [s', Feed.held, source] using moves

theorem fed_connect {w : Writer} {s : Feed} {emits : List TraceEvent} (fed : Fed w s emits)
    (flusher : Bool) : ∃ s', s.step w (.connect flusher) = some s' ∧ Fed w s' emits := by
  obtain ⟨t, steps, attended⟩ := attended_step s.server (.connect flusher) fed.attended
  obtain ⟨old, stream, ordered⟩ := fed.books
  have blank := fed.blank s.server.conns.length (Nat.le_refl _)
  refine ⟨_, by rw [Feed.step, steps, Option.map_some], attended, ?_, ?_, ?_⟩
  · intro i beyond
    exact fed.blank i (Nat.le_trans (step_conns steps) beyond)
  · exact Nat.zero_le _
  · refine ⟨old ++ s.sent.take (s.arrived w), ?_, ?_⟩
    · rw [List.take_zero, run_nil, stream_events stream]
    · have new : channel t s.server.conns.length = none := by
        cases steps
        rw [channel_connect, channel, List.getElem?_eq_none (Nat.le_refl _)]
        rfl
      refine Ledger.ordered_exchange ordered (?_ : Ledger.Exchange _ _ [] [])
      refine ⟨by simp, ?_, ?_⟩
      · simp [Feed.sent, blank]
      · simp [Feed.sent, Feed.held, blank, waiting_none new]

theorem fed_arrive {w : Writer} {s : Feed} {emits : List TraceEvent} (fed : Fed w s emits) (n : Nat) :
    ∃ s', s.step w (.arrive n) = some s' ∧ Fed w s' emits := by
  obtain ⟨old, stream, ordered⟩ := fed.books
  let chunk := ((s.wire w).drop s.read).take n
  let s' : Feed := { s with
    read := s.read + chunk.length
    stream := run EventStream.step s.stream chunk }
  have size : chunk.length ≤ (s.wire w).length - s.read := by
    simp only [chunk, List.length_take, List.length_drop]
    omega
  have more : (s.wire w).take s.read ++ chunk = (s.wire w).take (s.read + chunk.length) := by
    rw [List.take_add, List.append_cancel_left_eq]
    exact (List.prefix_iff_eq_take.mp (List.take_prefix n _))
  have grows : s.arrived w ≤ s'.arrived w := EventStream.whole_mono _ (Nat.le_add_right _ _)
  obtain ⟨m, later⟩ := Nat.exists_eq_add_of_le grows
  refine ⟨s', rfl, fed.attended, fed.blank, ?_, old, ?_, ?_⟩
  · have before := fed.within
    have after : s'.read = s.read + chunk.length := rfl
    have same : (s'.wire w).length = (s.wire w).length := rfl
    omega
  · have whole : (s'.wire w).take s'.read = (s.wire w).take s.read ++ chunk := more.symm
    rw [whole, run_append, ← stream]
  · have same : s'.sent = s.sent := rfl
    have held : s'.held = s.held := rfl
    refine Ledger.ordered_exchange ordered (?_ : Ledger.Exchange _ _ [] ((s.sent.drop (s.arrived w)).take m))
    refine ⟨by simp, ?_, ?_⟩
    · simp only [same, later, List.take_add, List.append_assoc]
    · simp only [same, held, later, List.append_nil, ← List.drop_drop, ← List.append_assoc,
        List.take_append_drop]
      exact List.Sublist.refl _

theorem fed_step {w : Writer} (s : Feed) (a : FeedAct) (emits : List TraceEvent) (fed : Fed w s emits) :
    ∃ s', s.step w a = some s' ∧ Fed w s' (emits ++ Feed.note s a) := by
  cases a with
  | server a => exact fed_server fed a
  | connect flusher =>
    have quiet : emits ++ Feed.note s (.connect flusher) = emits := List.append_nil _
    rw [quiet]
    exact fed_connect fed flusher
  | arrive n =>
    have quiet : emits ++ Feed.note s (.arrive n) = emits := List.append_nil _
    rw [quiet]
    exact fed_arrive fed n

/-- What the page has been handed, event for event. -/
def Images (w : Writer) (ref : Json.Value → Nat) (got : List TraceEvent)
    (pushed : List (Option PaceEvent)) : Prop :=
  List.Forall₂ (fun ev push => ∃ seen, push = some seen ∧ Mirrors w ref (Json.repair 0) ev seen) got pushed

/-- In every run, across all connections, what the page pushes to its pace queue are images of
    emitted events, in the order of their emission, none of them twice; and once all that
    stands on the present connection has arrived, all of it has been pushed. -/
theorem trace_reaches_page (w : Writer) (ref : Json.Value → Nat) (bufSize : Int) (acts : List FeedAct)
    (maps : ∀ ev ∈ history (Feed.step w) Feed.note (Feed.initial bufSize) acts, Distinct ev) :
    ∃ s, tryRun (Feed.step w) (Feed.initial bufSize) acts = some s ∧
      ∃ got, got.Sublist (history (Feed.step w) Feed.note (Feed.initial bufSize) acts) ∧
        s.pushed ref = got.map (fun ev => received ref (w.marshal ev)) ∧ Images w ref got (s.pushed ref) ∧
        (s.read = (s.wire w).length → s.sent <:+ got) := by
  obtain ⟨s, ran, fed⟩ := tryRun_account fed_step (fed_initial w bufSize) acts
  rw [List.nil_append] at fed
  obtain ⟨old, stream, ordered⟩ := fed.books
  have sub := Ledger.ordered_delivered ordered
  have bodies : EventStream.messages s.stream = (old ++ s.sent.take (s.arrived w)).map w.marshal := by
    refine EventStream.messages_start ?_
    rw [stream_events stream, List.map_map]
    rfl
  have pushed : s.pushed ref =
      (old ++ s.sent.take (s.arrived w)).map fun ev => received ref (w.marshal ev) := by
    rw [Feed.pushed, bodies, List.map_map]
    rfl
  refine ⟨s, ran, old ++ s.sent.take (s.arrived w), sub, pushed, ?_, ?_⟩
  · rw [pushed, Images, List.forall₂_map_right_iff, List.forall₂_same]
    intro ev mem
    exact event_received w ref (maps ev (sub.subset mem))
  · intro all
    have whole : s.arrived w = s.sent.length := by
      rw [Feed.arrived, all, Feed.wire_frames, EventStream.whole_all, List.length_map]
    rw [whole, List.take_length]
    exact List.suffix_append _ _

/-- An event that arrives whole before the connection breaks off. -/
theorem sample_feed_reaches_page :
    ∃ s, tryRun (Feed.step sampleWriter) (Feed.initial 16) [.connect true, .server (.respond 0),
        .server (.headers 0), .server (.subscribe 0),
        .server (.emit 1 (newEvent "portal" "boot" []) ⟨id, fun keys => .refl keys⟩),
        .server (.serve 0), .arrive 100, .connect true] = some s ∧
      ∃ got, got.Sublist [stamp 1 (newEvent "portal" "boot" [])] ∧
        s.pushed (fun _ => 0) = got.map (fun ev => received (fun _ => 0) (sampleWriter.marshal ev)) ∧
        Images sampleWriter (fun _ => 0) got (s.pushed fun _ => 0) ∧
        (s.read = (s.wire sampleWriter).length → s.sent <:+ got) := by
  refine trace_reaches_page sampleWriter (fun _ => 0) 16 _ ?_
  intro ev mem
  rw [List.mem_singleton.mp mem]
  exact List.nodup_nil

end SwaFeed
