import SwaDemo.BusDelivery

/-!
The handler of `/trace` (`handleTraceSSE` in both `trace.go` files) for any number of
connections to one bus. It sends the response header before it subscribes, so a client
may hold the header of a stream that is not registered yet.
-/
namespace SwaBus
open GoChannel SwaTrace Runs TraceBus

/-- How far the handler of a connection is. -/
inductive Stage where
  | accepted (flusher : Bool)
  /-- `http.Error(w, "streaming unsupported", 500)` -/
  | refused
  /-- `w.WriteHeader(200)` and `Flush` are done, `Subscribe` is next. -/
  | flushed
  | serving (ch : Nat)
  | returned
  deriving DecidableEq, Repr

/-- The handler has sent the header of a 200 response. -/
def Stage.answered : Stage → Bool
  | .flushed => true
  | .serving _ => true
  | .returned => true
  | _ => false

/-- `headers`: the client has received the header. `gone`: it has disconnected. -/
structure TraceConn where
  stage : Stage
  headers : Bool
  gone : Bool
  deriving DecidableEq, Repr

namespace TraceConn

def respond (c : TraceConn) : TraceConn :=
  match c.stage with
  | .accepted true => { c with stage := .flushed }
  | .accepted false => { c with stage := .refused }
  | _ => c

def receiveHeaders (c : TraceConn) : TraceConn :=
  if c.stage.answered = true ∧ c.gone = false then { c with headers := true } else c

def disconnect (c : TraceConn) : TraceConn := { c with gone := true }

end TraceConn

structure Server where
  bus : TraceBus
  conns : List TraceConn

inductive ServerAct where
  | connect (flusher : Bool)
  | respond (i : Nat)
  | headers (i : Nat)
  | subscribe (i : Nat)
  /-- `case ev := <-ch`: the event is written to the connection. -/
  | serve (i : Nat)
  | disconnect (i : Nat)
  /-- `case <-r.Context().Done()`, and the deferred `Unsubscribe`. -/
  | finish (i : Nat)
  | emit (now : Int) (ev : TraceEvent) (range : RangeOrder)

namespace Server

def initial (bufSize : Int) : Server := ⟨newTraceBus bufSize, []⟩

def subscribe (i : Nat) (s : Server) : Server :=
  match s.conns[i]? with
  | none => s
  | some c =>
    if c.stage = .flushed then
      ⟨s.bus.subscribe, s.conns.set i { c with stage := .serving s.bus.chans.length }⟩
    else s

def serve (i : Nat) (s : Server) : Server :=
  match s.conns[i]? with
  | some ⟨.serving ch, _, _⟩ => { s with bus := s.bus.receive ch }
  | _ => s

/-- The context is done once the client is gone. -/
def finish (i : Nat) (s : Server) : Option Server :=
  match s.conns[i]? with
  | some ⟨.serving ch, headers, true⟩ =>
    (s.bus.unsubscribe ch).map fun b => ⟨b, s.conns.set i ⟨.returned, headers, true⟩⟩
  | _ => some s

def step (s : Server) : ServerAct → Option Server
  | .connect flusher => some { s with conns := s.conns ++ [⟨.accepted flusher, false, false⟩] }
  | .respond i => some { s with conns := s.conns.modify i TraceConn.respond }
  | .headers i => some { s with conns := s.conns.modify i TraceConn.receiveHeaders }
  | .subscribe i => some (s.subscribe i)
  | .serve i => some (s.serve i)
  | .disconnect i => some { s with conns := s.conns.modify i TraceConn.disconnect }
  | .finish i => s.finish i
  | .emit now ev range =>
    (s.bus.step (.emit now ev (range.visit s.bus.subs))).map fun b => { s with bus := b }

end Server

/-- The client holds the header and has not disconnected. -/
def TraceConn.Open (c : TraceConn) : Prop := c.headers = true ∧ c.gone = false

/-- An event that is emitted is put in the channel of every open connection, unless
    that is full at the moment. -/
def MissesNothing (s : Server) (a : ServerAct) : Prop :=
  match a with
  | .emit now ev _ => ∀ c ∈ s.conns, c.Open → ∃ ch, c.stage = .serving ch ∧
      ∀ s', s.step a = some s' → (s.bus.bufOf ch).length < s.bus.bufSize →
        s'.bus.bufOf ch = s.bus.bufOf ch ++ [stamp now ev]
  | _ => True

/-- An event is emitted while the handler of an open connection has yet to subscribe. -/
def TooEarly (s : Server) : ServerAct → Prop
  | .emit _ _ _ => ∃ c ∈ s.conns, c.Open ∧ c.stage = .flushed
  | _ => False

structure Attended (s : Server) : Prop where
  sound : Sound s.bus
  registered : ∀ (i : Nat) (c : TraceConn) (ch : Nat),
    s.conns[i]? = some c → c.stage = .serving ch → ch ∈ s.bus.subs
  apart : ∀ (i j : Nat) (c d : TraceConn) (ch : Nat), s.conns[i]? = some c → s.conns[j]? = some d →
    c.stage = .serving ch → d.stage = .serving ch → i = j
  answered : ∀ c ∈ s.conns, c.headers = true → c.stage.answered = true
  stays : ∀ c ∈ s.conns, c.stage = .returned → c.gone = true

theorem attended_start (bufSize : Int) : Attended (Server.initial bufSize) where
  sound := sound_start bufSize
  registered i c ch here := by simp [Server.initial] at here
  apart i j c d ch here := by simp [Server.initial] at here
  answered c mem := nomatch mem
  stays c mem := nomatch mem

theorem attended_modify {s : Server} (attended : Attended s) (i : Nat) {f : TraceConn → TraceConn}
    (serving : ∀ c ch, (f c).stage = .serving ch → c.stage = .serving ch)
    (answered : ∀ c, (c.headers = true → c.stage.answered = true) →
      (f c).headers = true → (f c).stage.answered = true)
    (stays : ∀ c, (c.stage = .returned → c.gone = true) → (f c).stage = .returned → (f c).gone = true) :
    Attended { s with conns := s.conns.modify i f } := by
  have was (j : Nat) (d : TraceConn) (here : (s.conns.modify i f)[j]? = some d) :
      ∃ c, s.conns[j]? = some c ∧ (d = c ∨ d = f c) := by
    rw [List.getElem?_modify] at here
    obtain ⟨c, there, eq⟩ := Option.map_eq_some_iff.mp here
    refine ⟨c, there, ?_⟩
    by_cases at_ : i = j
    · exact Or.inr (by simpa [at_] using eq.symm)
    · exact Or.inl (by simpa [at_] using eq.symm)
  have of (d : TraceConn) (mem : d ∈ s.conns.modify i f) : ∃ c ∈ s.conns, d = c ∨ d = f c := by
    obtain ⟨j, here⟩ := List.mem_iff_getElem?.mp mem
    obtain ⟨c, there, changed⟩ := was j d here
    exact ⟨c, List.mem_of_getElem? there, changed⟩
  have kept (j : Nat) (d : TraceConn) (ch : Nat) (here : (s.conns.modify i f)[j]? = some d)
      (at_ : d.stage = .serving ch) : ∃ c, s.conns[j]? = some c ∧ c.stage = .serving ch := by
    obtain ⟨c, there, same | changed⟩ := was j d here
    · exact ⟨c, there, same ▸ at_⟩
    · exact ⟨c, there, serving c ch (changed ▸ at_)⟩
  refine ⟨attended.sound, ?_, ?_, ?_, ?_⟩
  · intro j d ch here at_
    obtain ⟨c, there, at_⟩ := kept j d ch here at_
    exact attended.registered j c ch there at_
  · intro j k d e ch here here' at_ at_'
    obtain ⟨c, there, at_⟩ := kept j d ch here at_
    obtain ⟨c', there', at_'⟩ := kept k e ch here' at_'
    exact attended.apart j k c c' ch there there' at_ at_'
  · intro d mem
    obtain ⟨c, old, rfl | rfl⟩ := of d mem
    · exact attended.answered d old
    · exact answered c (attended.answered c old)
  · intro d mem
    obtain ⟨c, old, rfl | rfl⟩ := of d mem
    · exact attended.stays d old
    · exact stays c (attended.stays c old)

theorem attended_connect {s : Server} (attended : Attended s) (flusher : Bool) :
    Attended { s with conns := s.conns ++ [⟨.accepted flusher, false, false⟩] } := by
  have old (i : Nat) (c : TraceConn) (ch : Nat)
      (here : (s.conns ++ [⟨.accepted flusher, false, false⟩])[i]? = some c)
      (at_ : c.stage = .serving ch) : s.conns[i]? = some c := by
    rcases List.mem_append.mp (List.mem_of_getElem? here) with _ | new
    · rcases Nat.lt_or_ge i s.conns.length with inside | beyond
      · rwa [List.getElem?_append_left inside] at here
      · rw [List.getElem?_append_right beyond] at here
        have new := List.mem_of_getElem? here
        rw [List.mem_singleton.mp new] at at_
        contradiction
    · rw [List.mem_singleton.mp new] at at_
      contradiction
  refine ⟨attended.sound, ?_, ?_, ?_, ?_⟩
  · intro i c ch here at_
    exact attended.registered i c ch (old i c ch here at_) at_
  · intro i j c d ch here here' at_ at_'
    exact attended.apart i j c d ch (old i c ch here at_) (old j d ch here' at_') at_ at_'
  · intro c mem
    rcases List.mem_append.mp mem with mem | new
    · exact attended.answered c mem
    · rw [List.mem_singleton.mp new]
      simp
  · intro c mem
    rcases List.mem_append.mp mem with mem | new
    · exact attended.stays c mem
    · rw [List.mem_singleton.mp new]
      simp

theorem set_cases {conns : List TraceConn} {i j : Nat} {d x : TraceConn}
    (here : (conns.set i d)[j]? = some x) : j = i ∧ x = d ∨ j ≠ i ∧ conns[j]? = some x := by
  rw [List.getElem?_set] at here
  by_cases at_ : i = j
  · rw [if_pos at_] at here
    split at here
    · exact Or.inl ⟨at_.symm, (Option.some.inj here).symm⟩
    · contradiction
  · rw [if_neg at_] at here
    exact Or.inr ⟨Ne.symm at_, here⟩

theorem attended_set {s : Server} (attended : Attended s) {b : TraceBus} (sound : Sound b)
    {i : Nat} {d : TraceConn} (mine : ∀ ch, d.stage = .serving ch → ch ∈ b.subs ∧ ch ∉ s.bus.subs)
    (others : ∀ (j : Nat) (c : TraceConn) (ch : Nat), j ≠ i → s.conns[j]? = some c →
      c.stage = .serving ch → ch ∈ b.subs)
    (answered : d.headers = true → d.stage.answered = true)
    (stays : d.stage = .returned → d.gone = true) : Attended ⟨b, s.conns.set i d⟩ := by
  refine ⟨sound, ?_, ?_, ?_, ?_⟩
  · intro j c ch here at_
    rcases set_cases here with ⟨_, rfl⟩ | ⟨apart, there⟩
    · exact (mine ch at_).1
    · exact others j c ch apart there at_
  · intro j k c e ch here here' at_ at_'
    rcases set_cases here with ⟨rfl, rfl⟩ | ⟨apart, there⟩
    · rcases set_cases here' with ⟨rfl, _⟩ | ⟨_, there'⟩
      · rfl
      · exact absurd (attended.registered k e ch there' at_') (mine ch at_).2
    · rcases set_cases here' with ⟨_, rfl⟩ | ⟨_, there'⟩
      · exact absurd (attended.registered j c ch there at_) (mine ch at_').2
      · exact attended.apart j k c e ch there there' at_ at_'
  · intro c mem
    rcases List.mem_or_eq_of_mem_set mem with mem | rfl
    · exact attended.answered c mem
    · exact answered
  · intro c mem
    rcases List.mem_or_eq_of_mem_set mem with mem | rfl
    · exact attended.stays c mem
    · exact stays

theorem attended_subscribe {s : Server} (attended : Attended s) (i : Nat) :
    Attended (s.subscribe i) := by
  unfold Server.subscribe
  cases here : s.conns[i]? with
  | none => exact attended
  | some c =>
    dsimp only
    split
    · refine attended_set attended (sound_subscribe attended.sound) ?_ ?_ ?_ ?_
      · intro ch at_
        cases at_
        refine ⟨by simp [subscribe], ?_⟩
        intro mem
        exact Nat.lt_irrefl _ (attended.sound.known _ mem)
      · intro j d ch _ there at_
        simp [subscribe, attended.registered j d ch there at_]
      · intro _
        rfl
      · intro at_
        contradiction
    · exact attended

theorem attended_bus {s : Server} (attended : Attended s) {b : TraceBus} (sound : Sound b)
    (subs : b.subs = s.bus.subs) : Attended { s with bus := b } :=
  { attended with
    sound := sound
    registered := fun i c ch here at_ => subs ▸ attended.registered i c ch here at_ }

theorem attended_serve {s : Server} (attended : Attended s) (i : Nat) : Attended (s.serve i) := by
  unfold Server.serve
  split
  · exact attended_bus attended (sound_receive attended.sound _) (receive_subs _ _)
  · exact attended

theorem attended_finish {s : Server} (attended : Attended s) (i : Nat) :
    ∃ s', s.finish i = some s' ∧ Attended s' := by
  unfold Server.finish
  split
  · rename_i ch headers here
    have mem := attended.registered i _ ch here rfl
    obtain ⟨c, _, closes⟩ := unsubscribe_closes attended.sound mem
    obtain ⟨b, closes', sound⟩ := sound_unsubscribe attended.sound ch
    refine ⟨_, by rw [closes', Option.map_some], ?_⟩
    refine attended_set attended sound ?_ ?_ ?_ ?_
    · intro _ at_
      contradiction
    · intro j d ch' apart there at_
      have other : ch' ≠ ch := by
        rintro rfl
        exact apart (attended.apart j i d _ ch' there here at_ rfl)
      cases closes.symm.trans closes'
      exact (List.mem_erase_of_ne other).mpr (attended.registered j d ch' there at_)
    · intro _
      rfl
    · intro _
      rfl
  · exact ⟨s, rfl, attended⟩

theorem attended_emit {s : Server} (attended : Attended s) (now : Int) (ev : TraceEvent)
    (range : RangeOrder) : ∃ b, s.bus.step (.emit now ev (range.visit s.bus.subs)) = some b ∧
      Attended { s with bus := b } := by
  obtain ⟨b, emits, sent⟩ := step_emit attended.sound now ev (range.perm s.bus.subs)
  exact ⟨b, emits, attended_bus attended (sound_sent attended.sound sent) sent.subs⟩

theorem attended_step (s : Server) (a : ServerAct) (attended : Attended s) :
    ∃ s', s.step a = some s' ∧ Attended s' := by
  cases a with
  | connect flusher => exact ⟨_, rfl, attended_connect attended flusher⟩
  | respond i =>
    refine ⟨_, rfl, attended_modify attended i ?_ ?_ ?_⟩ <;>
      · rintro ⟨stage, headers, gone⟩
        cases stage with
        | accepted flusher => cases flusher <;> simp [TraceConn.respond, Stage.answered]
        | refused | flushed | serving | returned => simp [TraceConn.respond]
  | headers i =>
    refine ⟨_, rfl, attended_modify attended i ?_ ?_ ?_⟩ <;>
      · intro c
        unfold TraceConn.receiveHeaders
        split <;> simp_all
  | subscribe i => exact ⟨_, rfl, attended_subscribe attended i⟩
  | serve i => exact ⟨_, rfl, attended_serve attended i⟩
  | disconnect i =>
    refine ⟨_, rfl, attended_modify attended i ?_ ?_ ?_⟩ <;> simp [TraceConn.disconnect]
  | finish i => exact attended_finish attended i
  | emit now ev range =>
    obtain ⟨b, emits, next⟩ := attended_emit attended now ev range
    exact ⟨_, by rw [Server.step, emits, Option.map_some], next⟩

theorem emit_places {s : Server} (attended : Attended s) {ch : Nat} (mem : ch ∈ s.bus.subs)
    (now : Int) (ev : TraceEvent) (range : RangeOrder) {s' : Server}
    (steps : s.step (.emit now ev range) = some s')
    (room : (s.bus.bufOf ch).length < s.bus.bufSize) :
    s'.bus.bufOf ch = s.bus.bufOf ch ++ [stamp now ev] := by
  obtain ⟨b, emits, rfl⟩ := Option.map_eq_some_iff.mp steps
  have places := step_places attended.sound emits ch
  simpa [taken, placed, range.perm, mem, room] using places

theorem misses_nothing_iff (s : Server) (a : ServerAct) (attended : Attended s) :
    MissesNothing s a ↔ ¬ TooEarly s a := by
  cases a with
  | emit now ev range =>
    constructor
    · rintro delivers ⟨c, mem, open_, flushed⟩
      obtain ⟨ch, serving, _⟩ := delivers c mem open_
      rw [flushed] at serving
      contradiction
    · intro late c mem open_
      have answered := attended.answered c mem open_.1
      cases stage : c.stage with
      | accepted | refused =>
        rw [stage] at answered
        contradiction
      | flushed => exact absurd ⟨c, mem, open_, stage⟩ late
      | serving ch =>
        obtain ⟨i, here⟩ := List.mem_iff_getElem?.mp mem
        refine ⟨ch, rfl, ?_⟩
        intro s' steps room
        exact emit_places attended (attended.registered i c ch here stage) now ev range steps room
      | returned =>
        have gone := attended.stays c mem stage
        rw [open_.2] at gone
        contradiction
  | connect | respond | headers | subscribe | serve | disconnect | finish =>
    exact ⟨fun _ early => early, fun _ => trivial⟩

/-- Nothing panics, and no event is missed by an open connection exactly if none is
    emitted while the handler of one has sent the header and has yet to subscribe. -/
theorem open_streams_miss_nothing (bufSize : Int) (acts : List ServerAct) :
    (∃ s, tryRun Server.step (Server.initial bufSize) acts = some s) ∧
    (TryEach Server.step MissesNothing (Server.initial bufSize) acts ↔
      TryEach Server.step (fun s a => ¬ TooEarly s a) (Server.initial bufSize) acts) := by
  constructor
  · obtain ⟨s, ran, _⟩ := tryRun_safe attended_step (attended_start bufSize) acts
    exact ⟨s, ran⟩
  · exact tryEach_iff attended_step misses_nothing_iff (attended_start bufSize) acts

/-- The header reaches the client, an event is emitted, and only then the handler
    subscribes. -/
theorem event_before_subscribe_missed :
    ¬ ∀ (bufSize : Int) (acts : List ServerAct),
      TryEach Server.step MissesNothing (Server.initial bufSize) acts := by
  intro all
  have each := all 16 [.connect true, .respond 0, .headers 0,
    .emit 1 (newEvent "carrier" "boot" []) ⟨id, fun keys => .refl keys⟩, .subscribe 0]
  obtain ⟨_, each⟩ := each
  obtain ⟨_, each⟩ := each _ rfl
  obtain ⟨_, each⟩ := each _ rfl
  obtain ⟨delivers, _⟩ := each _ rfl
  obtain ⟨ch, serving, _⟩ := delivers ⟨.flushed, true, false⟩ (by decide) ⟨rfl, rfl⟩
  contradiction

end SwaBus
