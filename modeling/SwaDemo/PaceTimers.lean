import SwaDemo.PaceDelivery

/-!
The timer handle and the walking flag. Both are kept by every operation but a
few. A replay at a pace arms a timer and then forgets its handle; a flush cancels
the walk's timer and leaves the flag; a replay at pace zero raises the flag with
no timer behind it. The two laws below hold of a run exactly when it avoids these.
-/
namespace SwaPace
open Js Runs

structure SingleTimer (s : PaceQueue) : Prop where
  atMostOne : s.live.length ≤ 1
  nullExactly : s.pendingTimer = none ↔ s.live = []
  handle : ∀ h, s.pendingTimer = some h → s.live.map (·.handle) = [h]
  cancels : (clearPending s).live = []

theorem singleTimer_iff (s : PaceQueue) :
    SingleTimer s ↔ s.live.map (·.handle) = s.pendingTimer.toList := by
  constructor
  · intro single
    cases pending : s.pendingTimer with
    | none => simp [single.nullExactly.mp pending]
    | some h => simpa using single.handle h pending
  · intro named
    cases pending : s.pendingTimer with
    | none =>
      have none_ : s.live = [] := by simpa [pending] using named
      exact ⟨by simp [none_], by simp [none_, pending], by simp [pending],
        by simp [clearPending, pending, none_]⟩
    | some h =>
      have one : s.live.map (·.handle) = [h] := by simpa [pending] using named
      obtain ⟨timer, lone, same⟩ := List.map_eq_singleton_iff.mp one
      exact ⟨by simp [lone], by simp [lone, pending], by simp [pending, one],
        by simp [clearPending, pending, lone, same]⟩

theorem singleTimer_strays {s : PaceQueue} (single : SingleTimer s) : strays s = [] := by
  have cleared := single.cancels
  rwa [clearPending_eq] at cleared

theorem singleTimer_idle {s : PaceQueue} (none_ : s.pendingTimer = none) (empty : s.live = []) :
    SingleTimer s := by
  simp [singleTimer_iff, none_, empty]

theorem singleTimer_advance (a : Accepted) (rest : List Accepted) {s : PaceQueue}
    (empty : s.live = []) : SingleTimer (advance a rest s) := by
  simp [singleTimer_iff, advance, armTimer, fanout, empty]

theorem singleTimer_release {s : PaceQueue} (single : SingleTimer s) {h : Nat}
    (due : h ∈ s.live.map (·.handle)) : (release h s).live = [] := by
  have named := (singleTimer_iff s).mp single
  cases pending : s.pendingTimer with
  | none => simp [named, pending] at due
  | some k =>
    have one : s.live.map (·.handle) = [k] := by simpa [pending] using named
    have same : h = k := by simpa [one] using due
    subst k
    obtain ⟨timer, lone, eq⟩ := List.map_eq_singleton_iff.mp one
    simp [release, lone, eq]

/-- A resolve that starts over a walk in flight while a pace is set. -/
def PacedReplay (host : Host) (s : PaceQueue) (op : Op) : Prop :=
  ∃ ev, op.offered host = some ev ∧ Replays ev s ∧ realTime s = false

theorem requested_not_err : isErr "portal.resolve.requested" = false := by decide

theorem pacedReplay_push {host : Host} {s : PaceQueue} {raw : Option PaceEvent} {ev : PaceEvent}
    (accepts : unwrap host raw = some ev) :
    PacedReplay host s (.push raw) ↔ Replays ev s ∧ realTime s = false := by
  simp [PacedReplay, Op.offered, accepts]

theorem single_timer_outcome {host : Host} {s s' : PaceQueue} {op : Op} (single : SingleTimer s)
    (outcome : Outcome host s op s') : SingleTimer s' ↔ ¬ PacedReplay host s op := by
  have none_strays := singleTimer_strays single
  cases outcome with
  | rejected none_ => simp [single, PacedReplay, Op.offered, none_]
  | @failed raw ev accepts err =>
    have quiet : ¬ Replays ev s := by
      intro replay
      rw [replay.1, requested_not_err] at err
      contradiction
    rw [clearPending_eq, pacedReplay_push accepts]
    exact iff_of_true (singleTimer_idle rfl none_strays) (fun h => quiet h.1)
  | replayed accepts ok replay paced =>
    rw [pacedReplay_push accepts]
    refine iff_of_false (fun left => ?_) (fun h => h ⟨replay, paced⟩)
    have gone := left.nullExactly.mp rfl
    simp [forgetTimer, advance, armTimer] at gone
  | replayedAtOnce accepts ok replay fast =>
    rw [setWalking_walk, pacedReplay_push accepts]
    exact iff_of_true (singleTimer_idle rfl none_strays) (by simp [fast])
  | waits accepts ok first pending =>
    rw [pacedReplay_push accepts]
    exact iff_of_true ((singleTimer_iff _).mpr ((singleTimer_iff s).mp single)) (fun h => first h.1)
  | starts accepts ok first idle paced =>
    rw [setWalking_walk, pacedReplay_push accepts]
    exact iff_of_true (singleTimer_advance _ _ (single.nullExactly.mp idle)) (fun h => first h.1)
  | startsAtOnce accepts ok first idle fast =>
    rw [setWalking_walk, pacedReplay_push accepts]
    exact iff_of_true (singleTimer_idle rfl (single.nullExactly.mp idle)) (fun h => first h.1)
  | paceSet value =>
    exact iff_of_true ((singleTimer_iff _).mpr ((singleTimer_iff s).mp single))
      (by simp [PacedReplay, Op.offered])
  | skipIdle => exact iff_of_true single (by simp [PacedReplay, Op.offered])
  | skipped =>
    rw [clearPending_eq]
    exact iff_of_true (singleTimer_idle rfl none_strays) (by simp [PacedReplay, Op.offered])
  | flushed =>
    rw [preemptAndFlush, clearPending_eq]
    exact iff_of_true (singleTimer_idle rfl none_strays) (by simp [PacedReplay, Op.offered])
  | deadTimer => exact iff_of_true single (by simp [PacedReplay, Op.offered])
  | ticked due =>
    exact iff_of_true (singleTimer_advance _ _ (singleTimer_release single due))
      (by simp [PacedReplay, Op.offered])
  | ranDry due =>
    exact iff_of_true (singleTimer_idle rfl (singleTimer_release single due))
      (by simp [PacedReplay, Op.offered])

/-- At every state of a run the live drain timer is the pending one, exactly when
    no step of the run is a replay at a pace. -/
theorem single_drain_timer (host : Host) (ops : List Op) :
    Always (step host) SingleTimer initial ops ↔
      EachStep (step host) (fun s op => ¬ PacedReplay host s op) initial ops :=
  always_iff_eachStep (fun _ op settled => settled_step host settled op)
    (fun _ op settled single => single_timer_outcome single (step_outcome host settled op))
    settled_initial ((singleTimer_iff initial).mpr rfl)

/-- A page whose conversions are never used. -/
def plainHost : Host := ⟨fun _ => .nan, fun _ => none⟩

def plainEvent (type : String) : Op := .push (some ⟨type, none⟩)

/-- Two resolves at medium pace: the second walk's timer is live and has no handle. -/
theorem replay_loses_handle :
    ¬ SingleTimer (after plainHost [.setPace (.str "medium"),
      plainEvent "portal.resolve.requested", plainEvent "portal.resolve.requested"]) := by
  intro single
  exact absurd (single.nullExactly.mp (by decide)) (by decide)

/-- What the state subscribers were last told. -/
def Signal.state? : Signal → Option PaceState
  | .event _ => none
  | .state s => some s

def PaceQueue.lastTold (s : PaceQueue) : Option PaceState :=
  (s.signals.filterMap Signal.state?).getLast?

structure WalkingTruth (host : Host) (s : PaceQueue) : Prop where
  truth : s.walking = true ↔ s.live ≠ []
  reported : s.lastTold = some .walking ↔ s.live ≠ []
  announced : s.live = [] → ∀ raw ev, unwrap host raw = some ev → isErr ev.type = false →
    ∃ rest, (push host raw s).signals = s.signals ++ .state .walking :: rest

/-- The subscribers were last told what the flag says. -/
def Told (s : PaceQueue) : Prop := s.lastTold = some .walking ↔ s.walking = true

theorem told_of_same {s t : PaceQueue} (told : Told s) (signals : t.signals = s.signals)
    (walking : t.walking = s.walking) : Told t := by
  simpa [Told, PaceQueue.lastTold, signals, walking] using told

theorem told_walk {s : PaceQueue} (told : Told s) : Told (setWalking true s) := by
  cases walking : s.walking with
  | true => simpa [setWalking, walking] using told
  | false => simp [Told, PaceQueue.lastTold, setWalking, walking, Signal.state?]

theorem no_state_events (q : List Accepted) :
    (q.map Signal.event).filterMap Signal.state? = [] := by
  induction q with
  | nil => rfl
  | cons a q ih => exact ih

theorem told_collapse {s : PaceQueue} (told : Told s) : Told (collapse s) := by
  have heard : (collapse s).lastTold =
      (s.signals.filterMap Signal.state? ++ (idleSignal s).filterMap Signal.state?).getLast? := by
    simp only [PaceQueue.lastTold, collapse, List.filterMap_append, no_state_events,
      List.append_nil]
  unfold Told at told ⊢
  rw [heard]
  cases walking : s.walking with
  | true => simp [idleSignal, walking, collapse, Signal.state?]
  | false =>
    rw [walking] at told
    simpa only [PaceQueue.lastTold, idleSignal, walking, collapse, List.filterMap_nil,
      List.append_nil] using told

theorem told_advance (a : Accepted) (rest : List Accepted) {s : PaceQueue} (told : Told s) :
    Told (advance a rest s) := by
  simpa [Told, PaceQueue.lastTold, advance, armTimer, fanout, List.filterMap_append,
    Signal.state?] using told

theorem told_outcome {host : Host} {s s' : PaceQueue} {op : Op} (told : Told s)
    (outcome : Outcome host s op s') : Told s' := by
  cases outcome with
  | rejected => exact told
  | failed =>
    rw [clearPending_eq]
    exact told_collapse told
  | replayed => exact told_advance _ _ (told_of_same told rfl rfl)
  | replayedAtOnce => exact told_walk (told_collapse told)
  | waits => exact told
  | starts => exact told_advance _ _ (told_walk (told_of_same told rfl rfl))
  | startsAtOnce => exact told_collapse (told_walk (told_of_same told rfl rfl))
  | paceSet => exact told
  | skipIdle => exact told
  | skipped =>
    rw [clearPending_eq]
    exact told_collapse told
  | flushed =>
    rw [preemptAndFlush, clearPending_eq]
    exact told
  | deadTimer => exact told
  | ticked => exact told_advance _ _ told
  | ranDry => exact told_collapse told

theorem push_announces (host : Host) {s : PaceQueue} (settled : Settled s)
    (idle : s.walking = false) {raw : Option PaceEvent} {ev : PaceEvent}
    (accepts : unwrap host raw = some ev) (ok : isErr ev.type = false) :
    ∃ rest, (push host raw s).signals = s.signals ++ .state .walking :: rest := by
  have pushed : push host raw s = pushEvent ev s := by simp [push, accepts]
  have first : ¬ Replays ev s := fun replay => by simp [Replays, idle] at replay
  have pending := settled.paused idle
  have announced : (setWalking true (enqueue ev s)).signals = s.signals ++ [.state .walking] := by
    simp [setWalking, enqueue, accept, idle]
  rw [pushed, pushEvent_kick ok first, kick, if_neg (by simp [enqueue, accept, pending])]
  by_cases fast : realTime (setWalking true (enqueue ev s)) = true
  · rw [drain_collapse _ (Or.inr fast), collapse, announced]
    simp only [List.append_assoc, List.singleton_append]
    exact ⟨_, rfl⟩
  · have queued : (setWalking true (enqueue ev s)).queue = [nextAccepted ev s] := by
      simp [setWalking_walk, enqueue, settled_idle_queue settled pending]
    rw [drain_advance _ queued (by simpa using fast), advance, armTimer, fanout]
    simp only [announced, List.append_assoc, List.singleton_append]
    exact ⟨_, rfl⟩

theorem walkingTruth_iff (host : Host) {s : PaceQueue} (settled : Settled s) (told : Told s) :
    WalkingTruth host s ↔ (s.walking = true ↔ s.live ≠ []) := by
  constructor
  · exact fun h => h.truth
  · intro truth
    refine ⟨truth, Iff.trans told truth, ?_⟩
    intro empty raw ev accepts ok
    have idle : s.walking = false := by simpa [empty] using truth
    exact push_announces host settled idle accepts ok

/-- What a step must find so that it leaves the flag true exactly when a timer is
    live: a step that ends the walk finds no timer but the pending one, a step that
    cancels the pending timer under a raised flag finds another. -/
def WalkKept (host : Host) (s : PaceQueue) : Op → Prop
  | .push raw =>
    match unwrap host raw with
    | none => True
    | some ev =>
      if isErr ev.type then strays s = []
      else if Replays ev s then realTime s = false ∨ strays s ≠ []
      else s.pendingTimer ≠ none ∨ realTime s = false ∨ s.live = []
  | .setPace _ => True
  | .skip => s.walking = true → strays s = []
  | .preemptAndFlush => s.pendingTimer = none ∨ strays s ≠ []
  | .expire h => h ∈ s.live.map (·.handle) →
      (release h s).live = [] ∨ (s.queue ≠ [] ∧ realTime s = false)

theorem walk_outcome {host : Host} {s s' : PaceQueue} {op : Op} (settled : Settled s)
    (truth : s.walking = true ↔ s.live ≠ []) (outcome : Outcome host s op s') :
    (s'.walking = true ↔ s'.live ≠ []) ↔ WalkKept host s op := by
  cases outcome with
  | rejected none_ => simp [WalkKept, none_, truth]
  | failed accepts err =>
    rw [clearPending_eq]
    simp [WalkKept, accepts, err, collapse, strays, enqueue, accept]
  | replayed accepts ok replay paced =>
    have walking : s.walking = true := replay.2
    simp [WalkKept, accepts, ok, replay, paced, forgetTimer, advance, armTimer, fanout,
      restarted, walking]
  | replayedAtOnce accepts ok replay fast =>
    rw [setWalking_walk]
    simp [WalkKept, accepts, ok, replay, fast, collapse, restarted]
  | waits accepts ok first pending =>
    simp [WalkKept, accepts, ok, first, pending, enqueue, accept, truth]
  | starts accepts ok first idle paced =>
    rw [setWalking_walk]
    simp [WalkKept, accepts, ok, first, paced, advance, armTimer, fanout]
  | startsAtOnce accepts ok first idle fast =>
    rw [setWalking_walk]
    simp [WalkKept, accepts, ok, first, idle, fast, collapse, enqueue, accept]
  | paceSet => simp [WalkKept, truth]
  | skipIdle idle => exact iff_of_true truth (fun walking => by simp [idle] at walking)
  | skipped walking =>
    rw [clearPending_eq]
    simp [WalkKept, walking, collapse]
  | flushed =>
    rw [preemptAndFlush, clearPending_eq]
    cases pending : s.pendingTimer with
    | none => simp [WalkKept, pending, strays, truth]
    | some h =>
      have walking : s.walking = true := by
        by_contra idle
        simp [settled.paused (by simpa using idle)] at pending
      simp [WalkKept, pending, walking]
  | deadTimer dead => simp [WalkKept, truth, dead]
  | @ticked h a rest due queued paced =>
    have walking : s.walking = true := truth.mpr (by rintro none_; simp [none_] at due)
    simp [WalkKept, queued, paced, advance, armTimer, fanout, release, walking]
  | ranDry due done =>
    have ended : ¬ (s.queue ≠ [] ∧ realTime s = false) := by
      rintro ⟨some_, slow⟩
      rcases done with none_ | fast
      · exact some_ none_
      · simp [slow] at fast
    simp [WalkKept, due, ended, collapse]

/-- At every state of a run the flag tells the truth, and the subscribers with it,
    exactly when each step of the run keeps the walk and its timer together. -/
theorem walking_flag (host : Host) (ops : List Op) :
    Always (step host) (WalkingTruth host) initial ops ↔
      EachStep (step host) (WalkKept host) initial ops := by
  refine always_iff_eachStep (I := fun s => Settled s ∧ Told s) ?_ ?_ ?_ ?_
  · rintro s op ⟨settled, told⟩
    exact ⟨settled_step host settled op, told_outcome told (step_outcome host settled op)⟩
  · rintro s op ⟨settled, told⟩ truth
    have outcome := step_outcome host settled op
    rw [walkingTruth_iff host (settled_step host settled op) (told_outcome told outcome)]
    exact walk_outcome settled truth.truth outcome
  · exact ⟨settled_initial, by simp [Told, PaceQueue.lastTold, initial]⟩
  · exact (walkingTruth_iff host settled_initial (by simp [Told, PaceQueue.lastTold, initial])).mpr
      (by simp [initial])

/-- Slow pace, one resolve, then the flush that the engine's reset makes mid-walk:
    the flag stays up with no timer behind it. -/
theorem flush_leaves_walking :
    ¬ WalkingTruth plainHost (after plainHost [.setPace (.str "slow"),
      plainEvent "portal.resolve.requested", .preemptAndFlush]) := by
  intro truth
  exact absurd (truth.truth.mp (by decide)) (by decide)

end SwaPace
