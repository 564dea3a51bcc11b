import SwaDemo.EngineSteps

/-!
Who moves the engine to running. `run` does, and sends a request; the start of a walk
does too, whoever sent the events walked over, and nothing moves it back when the walk
is over. A page that waits for nothing is then running for good.
-/
namespace SwaPace
open Js

/-- The operation tells the state subscribers that a walk starts: it pushes an event
    that is no error, while no walk is in flight or as a replay in real time. -/
def Announces (host : Host) (s : PaceQueue) : Op → Prop
  | .push raw => ∃ ev, unwrap host raw = some ev ∧ isErr ev.type = false ∧
      (s.walking = false ∨ Replays ev s ∧ realTime s = true)
  | _ => False

theorem walking_mem_walkSignal (s : PaceQueue) :
    .state .walking ∈ walkSignal s ↔ s.walking = false := by
  unfold walkSignal
  split <;> simp_all

theorem walking_mem_idleSignal (s : PaceQueue) : .state .walking ∉ idleSignal s := by
  unfold idleSignal
  split <;> simp

end SwaPace

namespace SwaEngine
open Js Runs Page
open SwaPace hiding step initial

variable {Body : Type}

theorem events_append (xs ys : List Signal) : events (xs ++ ys) = events xs ++ events ys := by
  simp [events]

theorem events_walkSignal (s : PaceQueue) : events (walkSignal s) = [] := by
  unfold walkSignal
  split <;> rfl

theorem announces_push {host : Host} {s : PaceQueue} {raw : Option PaceEvent} {ev : PaceEvent}
    (accepts : unwrap host raw = some ev) (ok : isErr ev.type = false) :
    Announces host s (.push raw) ↔ s.walking = false ∨ Replays ev s ∧ realTime s = true := by
  simp [Announces, accepts, ok]

theorem replays_walking {ev : PaceEvent} {s : PaceQueue} (first : ¬ Replays ev s) :
    (s.walking = false ∨ Replays ev s ∧ realTime s = true) ↔ s.walking = false := by
  simp [first]

/-- What an operation has told: whether a walk started, and if so no error. -/
def Told (host : Host) (s : PaceQueue) (op : Op) (news : List Signal) : Prop :=
  (.state .walking ∈ news ↔ Announces host s op) ∧
    (Announces host s op → ∀ ev ∈ events news, isErrorEvent ev.type = false)

theorem told_quiet {host : Host} {s : PaceQueue} {op : Op} {news : List Signal}
    (silent : ¬ Announces host s op) (quiet : .state .walking ∉ news) : Told host s op news :=
  ⟨⟨fun mem => absurd mem quiet, fun loud => absurd loud silent⟩, fun loud => absurd loud silent⟩

theorem told_started {host : Host} {s : PaceQueue} {op : Op} {news : List Signal} {ev : PaceEvent}
    (loud : .state .walking ∈ news ↔ Announces host s op) (only : events news = [ev])
    (ok : isErr ev.type = false) : Told host s op news := by
  refine ⟨loud, ?_⟩
  intro _ ev' mem
  rw [only] at mem
  rw [List.mem_singleton.mp mem]
  exact ok

theorem outcome_told {host : Host} {s s' : PaceQueue} {op : Op} (settled : Settled s)
    (outcome : Outcome host s op s') :
    ∃ news, s'.signals = s.signals ++ news ∧ Told host s op news := by
  cases outcome with
  | rejected none_ => exact ⟨[], by simp, told_quiet (by simp [Announces, none_]) (by simp)⟩
  | @failed raw ev accepts err =>
    refine ⟨(s.queue ++ [nextAccepted ev s]).map .event ++ idleSignal s, ?_, told_quiet ?_ ?_⟩
    · rw [clearPending_eq]
      simp [collapse, enqueue, accept, idleSignal]
    · simp [Announces, accepts, err]
    · simp [walking_mem_idleSignal]
  | @replayed raw ev accepts ok replay paced =>
    refine ⟨[.event (nextAccepted ev s)], rfl, told_quiet ?_ (by simp)⟩
    rw [announces_push accepts ok]
    simp [replay.2, paced]
  | @replayedAtOnce raw ev accepts ok replay fast =>
    refine ⟨[.event (nextAccepted ev s), .state .idle, .state .walking], ?_,
      told_started ?_ rfl ok⟩
    · rw [setWalking_walk]
      simp [collapse, restarted, idleSignal, walkSignal, replay.2]
    · rw [announces_push accepts ok]
      simp [replay, fast]
  | @waits raw ev accepts ok first pending =>
    refine ⟨[], by simp [enqueue, accept], told_quiet ?_ (by simp)⟩
    rw [announces_push accepts ok, replays_walking first]
    exact fun idle => pending (settled.paused idle)
  | @starts raw ev accepts ok first idle paced =>
    refine ⟨walkSignal s ++ [.event (nextAccepted ev s)], ?_, told_started ?_ ?_ ok⟩
    · rw [setWalking_walk]
      simp [advance, armTimer, fanout, enqueue, accept, walkSignal]
    · rw [announces_push accepts ok, replays_walking first]
      simp [walking_mem_walkSignal]
    · rw [events_append, events_walkSignal]
      rfl
  | @startsAtOnce raw ev accepts ok first idle fast =>
    refine ⟨walkSignal s ++ [.event (nextAccepted ev s), .state .idle], ?_,
      told_started ?_ ?_ ok⟩
    · rw [setWalking_walk]
      simp [collapse, enqueue, accept, walkSignal, idleSignal, settled_idle_queue settled idle]
    · rw [announces_push accepts ok, replays_walking first]
      simp [walking_mem_walkSignal]
    · rw [events_append, events_walkSignal]
      rfl
  | paceSet value => exact ⟨[], by simp, told_quiet (fun h => h) (by simp)⟩
  | skipIdle idle => exact ⟨[], by simp, told_quiet (fun h => h) (by simp)⟩
  | skipped walking =>
    refine ⟨s.queue.map .event ++ idleSignal s, ?_, told_quiet (fun h => h) ?_⟩
    · rw [clearPending_eq]
      simp [collapse, idleSignal]
    · simp [walking_mem_idleSignal]
  | flushed =>
    exact ⟨[], by simp [preemptAndFlush, clearPending_eq], told_quiet (fun h => h) (by simp)⟩
  | deadTimer dead => exact ⟨[], by simp, told_quiet (fun h => h) (by simp)⟩
  | @ticked h a rest due queued paced =>
    exact ⟨[.event a], rfl, told_quiet (fun h => h) (by simp)⟩
  | @ranDry h due done =>
    refine ⟨s.queue.map .event ++ idleSignal s, ?_, told_quiet (fun h => h) ?_⟩
    · simp [collapse, release, idleSignal]
    · simp [walking_mem_idleSignal]

theorem fresh_told (host : Host) {s : PaceQueue} (settled : Settled s) (op : Op) :
    Told host s op (freshSignals host s op) := by
  obtain ⟨news, grown, told⟩ := outcome_told settled (step_outcome host settled op)
  rw [freshSignals, grown, List.drop_left]
  exact told

theorem walking_running {e : Engine Body}
    (live : e.pending.status = .running ∨ e.pending.status = .idle) :
    (e.queue [.setStatusWalking]).pending.status = .running := by
  rw [Engine.pending_queue]
  rcases live with running | idle
  · simp [Update.apply, running]
  · simp [Update.apply, idle]

theorem hear_running (host : Host) (now : Int) {signals : List Signal} {e : Engine Body}
    (running : (e.hear host now signals).pending.status = .running) :
    e.pending.status = .running ∨ e.pending.status = .idle ∧ .state .walking ∈ signals := by
  induction signals generalizing e with
  | nil => exact Or.inl running
  | cons signal signals ih =>
    cases signal with
    | event a =>
      rw [Engine.hear_event] at running
      by_cases err : isErrorEvent a.ev.type = true
      · have before := ih running
        rw [Engine.onEvent_error host now e err] at before
        rcases before with shown | ⟨shown, _⟩
        · contradiction
        · contradiction
      · have before := ih running
        rw [(Engine.onEvent_plain host now e (by simpa using err)).status] at before
        simpa using before
    | state st =>
      cases st with
      | idle => simpa using @ih e running
      | walking =>
        rw [Engine.hear_walking] at running
        have before := ih running
        rcases Engine.walking_pending e with same | ⟨_, undone, fine⟩
        · rw [same] at before
          rcases before with was | ⟨was, _⟩
          · exact Or.inl was
          · exact Or.inr ⟨was, by simp⟩
        · cases shown : e.pending.status with
          | idle => exact Or.inr ⟨rfl, by simp⟩
          | running => exact Or.inl rfl
          | done => exact absurd shown undone
          | error => exact absurd shown fine

theorem hear_stays_running (host : Host) (now : Int) {signals : List Signal} {e : Engine Body}
    (clean : ∀ ev ∈ events signals, isErrorEvent ev.type = false)
    (running : e.pending.status = .running) :
    (e.hear host now signals).pending.status = .running := by
  refine Engine.hear_invariant (P := fun e => e.pending.status = .running) host now ?_ ?_ running
  · intro ev mem e running
    exact (Engine.onEvent_plain host now e (clean ev mem)).status.trans running
  · intro e running
    exact walking_running (Or.inl running)

theorem hear_starts (host : Host) (now : Int) {signals : List Signal} {e : Engine Body}
    (clean : ∀ ev ∈ events signals, isErrorEvent ev.type = false)
    (idle : e.pending.status = .idle) (walks : .state .walking ∈ signals) :
    (e.hear host now signals).pending.status = .running := by
  induction signals generalizing e with
  | nil => simp at walks
  | cons signal signals ih =>
    cases signal with
    | event a =>
      have plain := Engine.onEvent_plain host now e (clean a.ev (by simp))
      exact ih (fun ev mem => clean ev (by simp [mem])) (plain.status.trans idle) (by simpa using walks)
    | state st =>
      cases st with
      | idle => exact ih clean idle (by simpa using walks)
      | walking =>
        rw [Engine.hear_walking]
        exact hear_stays_running host now clean (walking_running (Or.inr idle))

/-- A request of this engine waits for its answer. -/
def Awaits (s : Page Body) : Prop := s.requests ≠ []

def NotStuck (s : Page Body) : Prop := s.engine.cells.status = .running → Awaits s

/-- A walk starts while the engine is idle and waits for nothing. -/
def Sticks (host : Host) (s : Page Body) (a : Action Body) : Prop :=
  s.engine.pending.status = .idle ∧ ¬ Awaits s ∧ ∃ op, a.op? = some op ∧ Announces host s.pace op

/-- What each step keeps: the state a commit would show runs only while a request waits. -/
structure Unstuck (s : Page Body) : Prop where
  settled : Settled s.pace
  awaits : s.engine.pending.status = .running → Awaits s

theorem awaits_pace (host : Host) {s : Page Body} {op : Op} (unstuck : Unstuck s)
    (fine : ¬ (s.engine.pending.status = .idle ∧ ¬ Awaits s ∧ Announces host s.pace op))
    (running : (s.paceStep host op).engine.pending.status = .running) : Awaits s := by
  rcases hear_running host s.now running with was | ⟨idle, walks⟩
  · exact unstuck.awaits was
  · by_contra waits
    exact fine ⟨idle, waits, (fresh_told host unstuck.settled op).1.mp walks⟩

theorem awaits_respond {s : Page Body} (id : Nat) (response : Engine.Response Body)
    (unstuck : Unstuck s) (running : (s.respond id response).engine.pending.status = .running) :
    Awaits (s.respond id response) := by
  unfold respond at running ⊢
  split
  · rename_i open_
    rw [if_pos open_] at running
    cases response with
    | ok data => simp [Engine.settle, Update.apply] at running
    | notOk status text => simp [Engine.settle, Update.apply] at running
    | failed err => simp [Engine.settle, Update.apply] at running
  · rename_i closed
    rw [if_neg closed] at running
    exact unstuck.awaits running

theorem unstuck_step (host : Host) (s : Page Body) (a : Action Body) (fine : ¬ Sticks host s a)
    (unstuck : Unstuck s) : Unstuck (step host s a) := by
  have paced (op : Op) (acts : a.op? = some op)
      (running : (s.paceStep host op).engine.pending.status = .running) : Awaits s :=
    awaits_pace host unstuck (fun ⟨idle, waits, loud⟩ => fine ⟨idle, waits, op, acts, loud⟩) running
  refine ⟨settled_act host unstuck.settled a, ?_⟩
  cases a with
  | run carrier shipmentId =>
    intro _
    simp [Awaits, step, Page.run]
  | reset =>
    intro running
    simp [step, Page.reset, Engine.reset, Update.apply] at running
  | respond id response => exact awaits_respond id response unstuck
  | sse msg => exact paced _ rfl
  | expire h => exact paced _ rfl
  | setPace value => exact paced _ rfl
  | skip => exact paced _ rfl
  | commit => simpa [step, Awaits] using unstuck.awaits
  | effect => simpa [step, Awaits] using unstuck.awaits
  | tick =>
    obtain ⟨e, ticked, same⟩ := tick_ttl s
    rw [step, ticked]
    exact fun running => unstuck.awaits (same.status.symm.trans running)
  | clock now => exact unstuck.awaits

theorem unstuck_initial (now : Int) : Unstuck (initial now : Page Body) :=
  ⟨settled_initial, fun running => by simp [initial, Engine.pending] at running⟩

theorem sticks_shows (host : Host) {s : Page Body} {a : Action Body} (settled : Settled s.pace)
    (sticks : Sticks host s a) : ¬ NotStuck (step host (step host s a) .commit) := by
  obtain ⟨idle, waits, op, acts, loud⟩ := sticks
  have told := fresh_told host settled op
  have running := hear_starts host s.now (told.2 loud) idle (told.1.mpr loud)
  rw [step_pace host s acts]
  intro fine
  exact waits (fine (by simpa [step, paceStep_engine] using running))

/-- As long as no walk starts on a page that is idle and waits for nothing, every
    committed state that runs has a request waiting for its answer. Such a start, once
    committed, leaves a running page that waits for nothing. -/
theorem never_stuck_running (host : Host) (now : Int) :
    (∀ acts : List (Action Body),
      EachStep (step host) (fun s a => ¬ Sticks host s a) (initial now) acts →
        AtCommits host NotStuck (initial now) acts) ∧
    (∀ (acts : List (Action Body)) (a : Action Body),
      Sticks host (Runs.run (step host) (initial now) acts) a →
        ¬ NotStuck (Runs.run (step host) (initial now) (acts ++ [a, .commit]))) := by
  constructor
  · rintro acts steady before later rfl
    have unstuck := run_invariant_of (P := Unstuck) (unstuck_step host) (unstuck_initial now)
      (eachStep_append.mp steady).1
    rw [run_concat]
    intro running
    exact unstuck.awaits (by simpa [step] using running)
  · intro acts a sticks
    rw [run_append]
    exact sticks_shows host (settled_acts host settled_initial acts) sticks

/-- Another client's events arrive while this page waits for its answer. -/
theorem busy_page_awaits :
    AtCommits ⟨fun _ => .nan, fun _ => none⟩ NotStuck (initial 0 : Page Nat)
      [.run .internal "SHP-2049-883", .sse (some ⟨"portal.resolve.requested", none⟩), .commit,
        .respond 0 (.ok 7), .sse (some ⟨"portal.resolve.requested", none⟩), .commit] := by
  refine (never_stuck_running ⟨fun _ => .nan, fun _ => none⟩ 0).1 _
    ⟨?_, ?_, ?_, ?_, ?_, ?_, trivial⟩
  · rintro ⟨_, _, _, acts, _⟩
    contradiction
  · rintro ⟨running, _⟩
    contradiction
  · rintro ⟨_, _, _, acts, _⟩
    contradiction
  · rintro ⟨_, _, _, acts, _⟩
    contradiction
  · rintro ⟨done, _⟩
    contradiction
  · rintro ⟨_, _, _, acts, _⟩
    contradiction

/-- A fresh page hears of a resolve that another client started. -/
theorem foreign_resolve_sticks :
    ¬ ∀ (host : Host) (acts : List (Action Nat)), AtCommits host NotStuck (initial 0) acts := by
  intro all
  have awaits := all ⟨fun _ => .nan, fun _ => none⟩ _
    [.sse (some ⟨"portal.resolve.requested", none⟩)] [] rfl
  exact awaits (by decide) rfl

end SwaEngine
