import SwaDemo.PaceQueue

/-!
What one operation of the pace queue does, said once. `drain` has two outcomes:
`collapse` delivers the whole queue and goes idle, `advance` delivers the head
and arms the next timer. Every operation is one of these, or none, after some
bookkeeping; `step_outcome` lists the possibilities with their guards.
-/
namespace SwaPace
open Js Runs

def realTime (s : PaceQueue) : Bool := (effectivePace s).isZero

def idleSignal (s : PaceQueue) : List Signal :=
  match s.walking with
  | true => [.state .idle]
  | false => []

def collapse (s : PaceQueue) : PaceQueue :=
  { s with
    queue := []
    pendingTimer := none
    skipMode := false
    walking := false
    signals := s.signals ++ s.queue.map .event ++ idleSignal s }

def advance (a : Accepted) (rest : List Accepted) (s : PaceQueue) : PaceQueue :=
  armTimer (drainDelay (effectivePace s) rest)
    (fanout a { s with pendingTimer := none, queue := rest })

theorem setWalking_idle (s : PaceQueue) :
    setWalking false s = { s with walking := false, signals := s.signals ++ idleSignal s } := by
  cases s with
  | mk queue pace pending walking skipMode live next accepted signals =>
    cases walking <;> simp [setWalking, idleSignal]

theorem drainQueue_collapse (q : List Accepted) (s : PaceQueue) (queued : s.queue = q)
    (done : q = [] ∨ realTime s = true) : drainQueue q s = collapse s := by
  induction q generalizing s with
  | nil => simp [drainQueue, setWalking_idle, collapse, idleSignal, queued]
  | cons a rest ih =>
    have fast : (effectivePace s).isZero = true := by simpa [realTime] using done
    have next : (effectivePace (fanout a { s with pendingTimer := none, queue := rest })).isZero
        = true := fast
    rw [drainQueue, if_pos next]
    cases rest with
    | nil => simp [fanout, setWalking_idle, collapse, idleSignal, queued]
    | cons b rest =>
      rw [if_neg (by simp), ih _ rfl (Or.inr next)]
      simp [collapse, fanout, idleSignal, queued]

theorem drain_collapse (s : PaceQueue) (done : s.queue = [] ∨ realTime s = true) :
    drain s = collapse s :=
  drainQueue_collapse s.queue s rfl done

theorem drain_advance (s : PaceQueue) {a : Accepted} {rest : List Accepted}
    (queued : s.queue = a :: rest) (paced : realTime s = false) :
    drain s = advance a rest s := by
  have slow : (effectivePace (fanout a { s with pendingTimer := none, queue := rest })).isZero
      = false := paced
  rw [drain, queued, drainQueue, if_neg (by simp [slow])]
  rfl

theorem fanoutQueue_eq (q : List Accepted) (s : PaceQueue) (queued : s.queue = q) :
    fanoutQueue q s = { s with queue := [], signals := s.signals ++ q.map .event } := by
  induction q generalizing s with
  | nil => cases s; simp_all [fanoutQueue]
  | cons a rest ih => simp [fanoutQueue, ih, fanout]

theorem fanoutQueue_all (s : PaceQueue) :
    fanoutQueue s.queue s = { s with queue := [], signals := s.signals ++ s.queue.map .event } :=
  fanoutQueue_eq s.queue s rfl

/-- The timers that clearing `pendingTimer` leaves live. -/
def strays (s : PaceQueue) : List Timer :=
  match s.pendingTimer with
  | none => s.live
  | some h => s.live.filter (·.handle != h)

def walkSignal (s : PaceQueue) : List Signal :=
  match s.walking with
  | true => []
  | false => [.state .walking]

theorem clearPending_eq (s : PaceQueue) :
    clearPending s = { s with pendingTimer := none, live := strays s } := by
  cases s with
  | mk queue pace pending walking skipMode live next accepted signals =>
    cases pending <;> rfl

theorem setWalking_walk (s : PaceQueue) :
    setWalking true s = { s with walking := true, signals := s.signals ++ walkSignal s } := by
  cases s with
  | mk queue pace pending walking skipMode live next accepted signals =>
    cases walking <;> simp [setWalking, walkSignal]

def enqueue (ev : PaceEvent) (s : PaceQueue) : PaceQueue :=
  { accept ev s with queue := s.queue ++ [nextAccepted ev s] }

/-- The walk that `ev` starts over: its queue holds `ev` alone. -/
def restarted (ev : PaceEvent) (s : PaceQueue) : PaceQueue :=
  { s with
    queue := [nextAccepted ev s]
    pendingTimer := none
    live := strays s
    accepted := s.accepted ++ [nextAccepted ev s] }

def forgetTimer (s : PaceQueue) : PaceQueue := { s with pendingTimer := none }

def release (h : Nat) (s : PaceQueue) : PaceQueue :=
  { s with live := s.live.filter (·.handle != h) }

/-- What holds between calls whatever was called before. It does not say that the
    pending timer is the only live one: that is false after a replay. -/
structure Settled (s : PaceQueue) : Prop where
  noSkip : s.skipMode = false
  queued : s.queue ≠ [] → s.pendingTimer ≠ none
  armed : ∀ h, s.pendingTimer = some h → h ∈ s.live.map (·.handle)
  paused : s.walking = false → s.pendingTimer = none
  fresh : ∀ t ∈ s.live, t.handle < s.nextHandle
  distinct : (s.live.map (·.handle)).Nodup

/-- An accepted event that starts a new resolve while a walk is in flight. -/
def Replays (ev : PaceEvent) (s : PaceQueue) : Prop :=
  ev.type = "portal.resolve.requested" ∧ s.walking = true

instance (ev : PaceEvent) (s : PaceQueue) : Decidable (Replays ev s) :=
  inferInstanceAs (Decidable (_ ∧ _))

inductive Outcome (host : Host) (s : PaceQueue) : Op → PaceQueue → Prop where
  | rejected {raw} (none_ : unwrap host raw = none) : Outcome host s (.push raw) s
  | failed {raw ev} (accepts : unwrap host raw = some ev) (err : isErr ev.type = true) :
      Outcome host s (.push raw) (collapse (clearPending (enqueue ev s)))
  | replayed {raw ev} (accepts : unwrap host raw = some ev) (ok : isErr ev.type = false)
      (replay : Replays ev s) (paced : realTime s = false) :
      Outcome host s (.push raw) (forgetTimer (advance (nextAccepted ev s) [] (restarted ev s)))
  | replayedAtOnce {raw ev} (accepts : unwrap host raw = some ev) (ok : isErr ev.type = false)
      (replay : Replays ev s) (fast : realTime s = true) :
      Outcome host s (.push raw) (setWalking true (collapse (restarted ev s)))
  | waits {raw ev} (accepts : unwrap host raw = some ev) (ok : isErr ev.type = false)
      (first : ¬ Replays ev s) (pending : s.pendingTimer ≠ none) :
      Outcome host s (.push raw) (enqueue ev s)
  | starts {raw ev} (accepts : unwrap host raw = some ev) (ok : isErr ev.type = false)
      (first : ¬ Replays ev s) (idle : s.pendingTimer = none) (paced : realTime s = false) :
      Outcome host s (.push raw)
        (advance (nextAccepted ev s) [] (setWalking true (enqueue ev s)))
  | startsAtOnce {raw ev} (accepts : unwrap host raw = some ev) (ok : isErr ev.type = false)
      (first : ¬ Replays ev s) (idle : s.pendingTimer = none) (fast : realTime s = true) :
      Outcome host s (.push raw) (collapse (setWalking true (enqueue ev s)))
  | paceSet (value) : Outcome host s (.setPace value) { s with currentPace := paceOf host value }
  | skipIdle (idle : s.walking = false) : Outcome host s .skip s
  | skipped (walking : s.walking = true) : Outcome host s .skip (collapse (clearPending s))
  | flushed : Outcome host s .preemptAndFlush (preemptAndFlush s)
  | deadTimer {h} (dead : h ∉ s.live.map (·.handle)) : Outcome host s (.expire h) s
  | ticked {h a rest} (due : h ∈ s.live.map (·.handle)) (queued : s.queue = a :: rest)
      (paced : realTime s = false) : Outcome host s (.expire h) (advance a rest (release h s))
  | ranDry {h} (due : h ∈ s.live.map (·.handle)) (done : s.queue = [] ∨ realTime s = true) :
      Outcome host s (.expire h) (collapse (release h s))

theorem settled_idle_queue {s : PaceQueue} (settled : Settled s)
    (idle : s.pendingTimer = none) : s.queue = [] := by
  by_cases empty : s.queue = []
  · exact empty
  · exact absurd idle (settled.queued empty)

theorem any_handle {live : List Timer} {h : Nat} :
    live.any (·.handle == h) = true ↔ h ∈ live.map (·.handle) := by
  simp [List.any_eq_true, List.mem_map]

theorem pushEvent_failed {ev : PaceEvent} {s : PaceQueue} (noSkip : s.skipMode = false)
    (err : isErr ev.type = true) :
    pushEvent ev s = collapse (clearPending (enqueue ev s)) := by
  rw [pushEvent, if_pos err, pushError, fanoutQueue_all, setWalking_idle, clearPending_eq,
    clearPending_eq]
  simp [collapse, fanout, enqueue, accept, nextAccepted, idleSignal, strays, noSkip]

theorem pushEvent_replay {ev : PaceEvent} {s : PaceQueue} (ok : isErr ev.type = false)
    (replay : Replays ev s) :
    pushEvent ev s = setWalking true (forgetTimer (drain (restarted ev s))) := by
  unfold Replays at replay
  rw [pushEvent, if_neg (by simp [ok]), if_pos replay, pushReplay, preemptAndFlush,
    clearPending_eq]
  rfl

theorem pushEvent_kick {ev : PaceEvent} {s : PaceQueue} (ok : isErr ev.type = false)
    (first : ¬ Replays ev s) : pushEvent ev s = kick (enqueue ev s) := by
  unfold Replays at first
  rw [pushEvent, if_neg (by simp [ok]), if_neg first]
  rfl

theorem push_outcome (host : Host) {s : PaceQueue} (settled : Settled s)
    (raw : Option PaceEvent) : Outcome host s (.push raw) (push host raw s) := by
  cases accepts : unwrap host raw with
  | none => simpa [push, accepts] using Outcome.rejected accepts
  | some ev =>
    have pushed : push host raw s = pushEvent ev s := by simp [push, accepts]
    rw [pushed]
    by_cases err : isErr ev.type = true
    · rw [pushEvent_failed settled.noSkip err]
      exact .failed accepts err
    · have ok : isErr ev.type = false := by simpa using err
      by_cases replay : Replays ev s
      · rw [pushEvent_replay ok replay]
        cases pace : realTime s with
        | true =>
          rw [drain_collapse (restarted ev s) (Or.inr pace)]
          exact .replayedAtOnce accepts ok replay pace
        | false =>
          have walks : (forgetTimer (advance (nextAccepted ev s) [] (restarted ev s))).walking
              = true := replay.2
          rw [drain_advance (restarted ev s) rfl pace, setWalking, if_pos walks]
          exact .replayed accepts ok replay pace
      · rw [pushEvent_kick ok replay]
        cases pending : s.pendingTimer with
        | some h =>
          have waiting : kick (enqueue ev s) = enqueue ev s := by
            simp [kick, enqueue, accept, pending]
          rw [waiting]
          exact .waits accepts ok replay (by simp [pending])
        | none =>
          have kicked : kick (enqueue ev s) = drain (setWalking true (enqueue ev s)) := by
            simp [kick, enqueue, accept, pending]
          have queued : (setWalking true (enqueue ev s)).queue = [nextAccepted ev s] := by
            simp [setWalking_walk, enqueue, settled_idle_queue settled pending]
          have same : realTime (setWalking true (enqueue ev s)) = realTime s := by
            rw [setWalking_walk]
            rfl
          rw [kicked]
          cases pace : realTime s with
          | true =>
            rw [drain_collapse _ (Or.inr (same.trans pace))]
            exact .startsAtOnce accepts ok replay pending pace
          | false =>
            rw [drain_advance _ queued (same.trans pace)]
            exact .starts accepts ok replay pending pace

theorem skip_outcome (host : Host) (s : PaceQueue) : Outcome host s .skip (skip s) := by
  cases walking : s.walking with
  | false => simpa [skip, walking] using Outcome.skipIdle walking
  | true =>
    have skipped : skip s = drain (clearPending { s with skipMode := true }) := by
      simp [skip, walking]
    rw [skipped, drain_collapse _ (Or.inr (by rw [clearPending_eq]; rfl))]
    have goal : Outcome host s .skip _ := .skipped walking
    simpa [collapse, clearPending_eq, strays, idleSignal] using goal

theorem expire_outcome (host : Host) (s : PaceQueue) (h : Nat) :
    Outcome host s (.expire h) (expire h s) := by
  by_cases due : h ∈ s.live.map (·.handle)
  · have fired : expire h s = drain (release h s) := by
      simp [expire, any_handle.mpr due, release]
    rw [fired]
    cases queued : s.queue with
    | nil =>
      rw [drain_collapse (release h s) (Or.inl queued)]
      exact .ranDry due (Or.inl queued)
    | cons a rest =>
      cases pace : realTime s with
      | true =>
        rw [drain_collapse (release h s) (Or.inr pace)]
        exact .ranDry due (Or.inr pace)
      | false =>
        rw [drain_advance (release h s) queued pace]
        exact .ticked due queued pace
  · have kept : expire h s = s := by
      rw [expire, if_neg (by simpa [any_handle] using due)]
    rw [kept]
    exact .deadTimer due

/-- Everything one operation can do to a state that holds between calls. -/
theorem step_outcome (host : Host) {s : PaceQueue} (settled : Settled s) (op : Op) :
    Outcome host s op (step host s op) := by
  cases op with
  | push raw => exact push_outcome host settled raw
  | setPace value => exact .paceSet value
  | skip => exact skip_outcome host s
  | preemptAndFlush => exact .flushed
  | expire h => exact expire_outcome host s h

end SwaPace
