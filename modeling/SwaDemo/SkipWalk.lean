import SwaDemo.PaceDelivery

/-!
`skip`. It sets a mode that a draining queue clears on its way out, so one walk is
collapsed and the mode is off again when the call returns. Any operation that
delivers an event by itself arms the next timer with the current pace.
-/
namespace SwaPace
open Js Runs

/-- What `skip` makes of a walk: the queued events in their order and then the idle
    signal, all at once, and nothing left to drain. -/
structure Collapsed (s s' : PaceQueue) : Prop where
  signals : s'.signals = s.signals ++ s.queue.map .event ++ [.state .idle]
  delivered : s'.delivered = s.delivered ++ s.queue
  once : (s'.delivered.map (·.seq)).Nodup
  queue : s'.queue = []
  pendingTimer : s'.pendingTimer = none
  walking : s'.walking = false
  skipMode : s'.skipMode = false
  currentPace : s'.currentPace = s.currentPace
  accepted : s'.accepted = s.accepted

/-- Either nothing is delivered, or one event is and a new timer holds the walk for
    the current pace, weighted by what is queued next. -/
def Paced (s s' : PaceQueue) : Prop :=
  s'.delivered = s.delivered ∨
    ∃ a t, s'.delivered = s.delivered ++ [a] ∧ t ∈ s'.live ∧ t ∉ s.live ∧
      t.delay = drainDelay s.currentPace s'.queue

theorem settled_pace {s : PaceQueue} (settled : Settled s) : effectivePace s = s.currentPace := by
  simp [effectivePace, settled.noSkip]

theorem skip_walking (host : Host) {s : PaceQueue} (walking : s.walking = true) :
    skip s = collapse (clearPending s) := by
  have outcome := skip_outcome host s
  generalize skip s = s' at outcome
  cases outcome with
  | skipIdle idle => simp [walking] at idle
  | skipped => rfl

theorem after_distinct (host : Host) (ops : List Op) :
    ((after host ops).delivered.map (·.seq)).Nodup := by
  have numbered : ((after host ops).accepted.map (·.seq)).Nodup := by
    rw [(after_accepted host ops).2]
    exact List.nodup_range
  exact Ledger.ordered_distinct (·.seq) (after_ordered host ops) numbered

theorem skip_collapses (host : Host) (ops : List Op) (walking : (after host ops).walking = true) :
    Collapsed (after host ops) (skip (after host ops)) := by
  have distinct : ((skip (after host ops)).delivered.map (·.seq)).Nodup := by
    have skipped := after_distinct host (ops ++ [.skip])
    rwa [after_concat] at skipped
  have idle : idleSignal (after host ops) = [.state .idle] := by simp [idleSignal, walking]
  rw [skip_walking host walking] at distinct ⊢
  rw [clearPending_eq] at distinct ⊢
  exact {
    signals := congrArg (_ ++ ·) idle
    delivered := collapse_delivered _
    once := distinct
    queue := rfl
    pendingTimer := rfl
    walking := rfl
    skipMode := rfl
    currentPace := rfl
    accepted := rfl }

theorem fresh_timer {s : PaceQueue} (settled : Settled s) (delay : JsNumber) :
    Timer.mk s.nextHandle delay ∉ s.live := by
  intro mem
  have := settled.fresh _ mem
  simp at this

theorem paced_advance {s t : PaceQueue} (settled : Settled s) (a : Accepted) (rest : List Accepted)
    (delivered : t.delivered = s.delivered) (next : t.nextHandle = s.nextHandle)
    (pace : effectivePace t = s.currentPace) : Paced s (advance a rest t) := by
  have fresh := fresh_timer settled (drainDelay s.currentPace rest)
  refine Or.inr ⟨a, _, ?_, ?_, fresh, rfl⟩
  · rw [advance_delivered, delivered]
  · simp [advance, armTimer, fanout, next, pace]

theorem paced_outcome {host : Host} {s s' : PaceQueue} {op : Op} (settled : Settled s)
    (slow : s.currentPace.isZero = false) (other : op ≠ .skip)
    (ok : ∀ ev, op.offered host = some ev → isErr ev.type = false)
    (outcome : Outcome host s op s') : Paced s s' := by
  have pace := settled_pace settled
  have paced : realTime s = false := by rw [realTime, pace, slow]
  cases outcome with
  | rejected | paceSet | deadTimer => exact Or.inl rfl
  | waits => exact Or.inl rfl
  | flushed => exact Or.inl (clearPending_delivered s)
  | skipIdle | skipped => exact absurd rfl other
  | failed accepts err =>
    have := ok _ accepts
    rw [err] at this
    contradiction
  | replayedAtOnce accepts ok replay fast =>
    rw [paced] at fast
    contradiction
  | startsAtOnce accepts ok first idle fast =>
    rw [paced] at fast
    contradiction
  | @replayed raw ev => exact @paced_advance s (restarted ev s) settled _ _ rfl rfl pace
  | @starts raw ev =>
    rw [setWalking_walk]
    refine paced_advance settled _ _ ?_ rfl pace
    rw [← setWalking_walk, setWalking_delivered]
    rfl
  | ticked => exact paced_advance settled _ _ rfl rfl pace
  | @ranDry h due done =>
    have empty : s.queue = [] := by simpa [paced] using done
    refine Or.inl ?_
    rw [collapse_delivered, release, empty, List.append_nil]
    rfl

/-- Skipping collapses the walk in flight and no other: whatever was called before,
    the mode is off between calls, so the pace that counts is the current one. -/
theorem skip_collapses_one_walk (host : Host) (ops : List Op) :
    (after host ops).skipMode = false ∧
    effectivePace (after host ops) = (after host ops).currentPace ∧
    ((after host ops).walking = true → Collapsed (after host ops) (skip (after host ops))) ∧
    ((after host ops).currentPace.isZero = false → ∀ op, op ≠ .skip →
      (∀ ev, op.offered host = some ev → isErr ev.type = false) →
      Paced (after host ops) (step host (after host ops) op)) := by
  have settled := settled_run host ops
  refine ⟨settled.noSkip, settled_pace settled, skip_collapses host ops, ?_⟩
  intro slow op other ok
  exact paced_outcome settled slow other ok (step_outcome host settled op)

end SwaPace
