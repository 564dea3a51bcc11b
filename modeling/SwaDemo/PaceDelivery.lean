import SwaDemo.PaceSteps
import SwaDemo.Ledger
import Mathlib.Data.List.Induction

/-!
Delivery. Whatever is called and in whatever order, the pace queue hands out its
accepted pushes in push order, loses one only where a flush discards the queue,
and never leaves an event queued without a live timer to drain it.
-/
namespace SwaPace
open Js Runs

theorem settled_initial : Settled initial where
  noSkip := rfl
  queued := fun h => absurd rfl h
  armed := fun _ h => nomatch h
  paused := fun _ => rfl
  fresh := fun _ h => nomatch h
  distinct := List.nodup_nil

theorem strays_sublist (s : PaceQueue) : (strays s).Sublist s.live := by
  unfold strays
  split
  · exact List.Sublist.refl _
  · exact List.filter_sublist

theorem settled_rest {s t : PaceQueue} (settled : Settled s) (noSkip : t.skipMode = false)
    (empty : t.queue = []) (none_ : t.pendingTimer = none) (fewer : t.live.Sublist s.live)
    (next : t.nextHandle = s.nextHandle) : Settled t where
  noSkip := noSkip
  queued := fun h => absurd empty h
  armed := fun h pending => by simp [none_] at pending
  paused := fun _ => none_
  fresh := fun timer mem => next ▸ settled.fresh timer (fewer.subset mem)
  distinct := settled.distinct.sublist (fewer.map _)

theorem fresh_handle {s : PaceQueue} (settled : Settled s) {live : List Timer}
    (fewer : live.Sublist s.live) (delay : JsNumber) :
    ((live ++ [Timer.mk s.nextHandle delay]).map (·.handle)).Nodup ∧
      ∀ t ∈ live ++ [Timer.mk s.nextHandle delay], t.handle < s.nextHandle + 1 := by
  have older : ∀ t ∈ live, t.handle < s.nextHandle := fun t mem =>
    settled.fresh t (fewer.subset mem)
  constructor
  · simp only [List.map_append, List.map_cons, List.map_nil]
    refine List.nodup_append.mpr ⟨settled.distinct.sublist (fewer.map _), by simp, ?_⟩
    intro a ma b mb same
    obtain ⟨t, mt, rfl⟩ := List.mem_map.mp ma
    have := older t mt
    rw [List.mem_singleton] at mb
    omega
  · intro t mem
    rcases List.mem_append.mp mem with old | new
    · have := older t old
      omega
    · simp at new
      subst t
      simp

theorem settled_advance {s t : PaceQueue} (settled : Settled s) (a : Accepted)
    (rest : List Accepted) (fewer : t.live.Sublist s.live) (next : t.nextHandle = s.nextHandle)
    (noSkip : t.skipMode = false) (walking : t.walking = true) :
    Settled (advance a rest t) := by
  obtain ⟨distinct, fresh⟩ := fresh_handle settled fewer (drainDelay (effectivePace t) rest)
  exact {
    noSkip := noSkip
    queued := fun _ => by simp [advance, armTimer]
    armed := fun h pending => by simp_all [advance, armTimer, fanout]
    paused := fun idle => by simp [advance, armTimer, fanout, walking] at idle
    fresh := by simpa [advance, armTimer, fanout, next] using fresh
    distinct := by simpa [advance, armTimer, fanout, next] using distinct }

theorem settled_forget {s : PaceQueue} (settled : Settled s) (empty : s.queue = []) :
    Settled (forgetTimer s) where
  noSkip := settled.noSkip
  queued := fun h => absurd empty h
  armed := fun _ pending => nomatch pending
  paused := fun _ => rfl
  fresh := settled.fresh
  distinct := settled.distinct

theorem settled_outcome {host : Host} {s s' : PaceQueue} {op : Op} (settled : Settled s)
    (outcome : Outcome host s op s') : Settled s' := by
  cases outcome with
  | rejected => exact settled
  | failed =>
    rw [clearPending_eq]
    exact settled_rest settled rfl rfl rfl (strays_sublist s) rfl
  | @replayed raw ev accepts ok replay =>
    have advanced := @settled_advance s (restarted ev s) settled (nextAccepted ev s) []
      (strays_sublist s) rfl settled.noSkip replay.2
    exact settled_forget advanced rfl
  | replayedAtOnce =>
    rw [setWalking_walk]
    exact settled_rest settled rfl rfl rfl (strays_sublist s) rfl
  | waits accepts ok first pending =>
    exact { settled with queued := fun _ => pending }
  | starts =>
    rw [setWalking_walk]
    exact settled_advance settled _ _ (List.Sublist.refl _) rfl settled.noSkip rfl
  | startsAtOnce =>
    rw [setWalking_walk]
    exact settled_rest settled rfl rfl rfl (List.Sublist.refl _) rfl
  | paceSet => exact { settled with }
  | skipIdle => exact settled
  | skipped =>
    rw [clearPending_eq]
    exact settled_rest settled rfl rfl rfl (strays_sublist s) rfl
  | flushed =>
    rw [preemptAndFlush, clearPending_eq]
    exact settled_rest settled settled.noSkip rfl rfl (strays_sublist s) rfl
  | deadTimer => exact settled
  | ticked due queued =>
    have walking : s.walking = true := by
      by_contra idle
      exact settled.queued (by simp [queued]) (settled.paused (by simpa using idle))
    exact settled_advance settled _ _ List.filter_sublist rfl settled.noSkip walking
  | ranDry =>
    exact settled_rest settled rfl rfl rfl List.filter_sublist rfl

theorem settled_step (host : Host) {s : PaceQueue} (settled : Settled s) (op : Op) :
    Settled (step host s op) :=
  settled_outcome settled (step_outcome host settled op)

theorem settled_run (host : Host) (ops : List Op) : Settled (run (step host) initial ops) :=
  run_invariant (P := Settled) (fun _ op settled => settled_step host settled op) settled_initial ops

/-- Between calls a queued event always has a live timer to drain it. -/
theorem settled_not_stranded {s : PaceQueue} (settled : Settled s) (queued : s.queue ≠ []) :
    s.live ≠ [] := by
  obtain ⟨h, pending⟩ := Option.ne_none_iff_exists'.mp (settled.queued queued)
  have mem := settled.armed h pending
  intro none_
  simp [none_] at mem

def Op.offered (host : Host) : Op → Option PaceEvent
  | .push raw => unwrap host raw
  | _ => none

/-- The operations that empty the queue without delivering it. -/
def Discards (host : Host) (s : PaceQueue) (op : Op) : Prop :=
  op = .preemptAndFlush ∨
    ∃ ev, op.offered host = some ev ∧ ev.type = "portal.resolve.requested" ∧ s.walking = true

theorem collapse_delivered (s : PaceQueue) :
    (collapse s).delivered = s.delivered ++ s.queue := by
  have events : ∀ q : List Accepted, (q.map Signal.event).filterMap Signal.event? = q := by
    intro q
    induction q with
    | nil => rfl
    | cons a q ih => simpa [Signal.event?] using ih
  have idle : (idleSignal s).filterMap Signal.event? = [] := by
    unfold idleSignal
    split <;> rfl
  simp only [collapse, PaceQueue.delivered, List.filterMap_append, events, idle, List.append_nil]

theorem setWalking_delivered (next : Bool) (s : PaceQueue) :
    (setWalking next s).delivered = s.delivered := by
  unfold setWalking
  split
  · rfl
  · simp [PaceQueue.delivered, Signal.event?]

theorem advance_delivered (a : Accepted) (rest : List Accepted) (s : PaceQueue) :
    (advance a rest s).delivered = s.delivered ++ [a] := by
  simp [advance, armTimer, fanout, PaceQueue.delivered, Signal.event?]

theorem setWalking_queue (next : Bool) (s : PaceQueue) :
    (setWalking next s).queue = s.queue := by
  unfold setWalking
  split <;> rfl

theorem setWalking_accepted (next : Bool) (s : PaceQueue) :
    (setWalking next s).accepted = s.accepted := by
  unfold setWalking
  split <;> rfl

theorem clearPending_delivered (s : PaceQueue) : (clearPending s).delivered = s.delivered := by
  rw [clearPending_eq]
  rfl

/-- What an operation adds to the accepted pushes. -/
def Op.fresh (host : Host) (s : PaceQueue) (op : Op) : List Accepted :=
  ((op.offered host).map (nextAccepted · s)).toList

theorem fresh_push {host : Host} {raw : Option PaceEvent} {ev : PaceEvent}
    (accepts : unwrap host raw = some ev) (s : PaceQueue) :
    (Op.push raw).fresh host s = [nextAccepted ev s] := by
  simp [Op.fresh, Op.offered, accepts]

/-- One step hands out `news`. In order, what it hands out and what it leaves queued
    are the queue it found and then the accepted push, unless it discards the queue
    it found. -/
structure HandsOut (host : Host) (s : PaceQueue) (op : Op) (s' : PaceQueue) (news : List Accepted) :
    Prop where
  delivered : s'.delivered = s.delivered ++ news
  accepted : s'.accepted = s.accepted ++ op.fresh host s
  order : news ++ s'.queue = s.queue ++ op.fresh host s ∨
    Discards host s op ∧ news ++ s'.queue = op.fresh host s

theorem handsOut_same {host : Host} {s : PaceQueue} {op : Op} (none_ : op.offered host = none) :
    HandsOut host s op s [] where
  delivered := by simp
  accepted := by simp [Op.fresh, none_]
  order := Or.inl (by simp [Op.fresh, none_])

theorem outcome_fifo {host : Host} {s s' : PaceQueue} {op : Op} (settled : Settled s)
    (outcome : Outcome host s op s') : ∃ news, HandsOut host s op s' news := by
  cases outcome with
  | rejected none_ => exact ⟨[], handsOut_same none_⟩
  | @failed raw ev accepts err =>
    refine ⟨s.queue ++ [nextAccepted ev s], ?_, ?_, Or.inl ?_⟩
    · rw [collapse_delivered, clearPending_delivered, clearPending_eq]
      rfl
    · rw [fresh_push accepts, clearPending_eq]
      rfl
    · simp [fresh_push accepts, collapse]
  | @replayed raw ev accepts ok replay paced =>
    refine ⟨[nextAccepted ev s], advance_delivered _ _ _, ?_, Or.inr ⟨?_, ?_⟩⟩
    · rw [fresh_push accepts]
      rfl
    · exact Or.inr ⟨ev, accepts, replay.1, replay.2⟩
    · rw [fresh_push accepts]
      rfl
  | @replayedAtOnce raw ev accepts ok replay fast =>
    refine ⟨[nextAccepted ev s], ?_, ?_, Or.inr ⟨?_, ?_⟩⟩
    · rw [setWalking_delivered, collapse_delivered]
      rfl
    · rw [fresh_push accepts, setWalking_accepted]
      rfl
    · exact Or.inr ⟨ev, accepts, replay.1, replay.2⟩
    · rw [fresh_push accepts, setWalking_queue]
      rfl
  | @waits raw ev accepts =>
    refine ⟨[], ?_, ?_, Or.inl ?_⟩
    · simp [PaceQueue.delivered, enqueue, accept]
    · rw [fresh_push accepts]
      rfl
    · rw [fresh_push accepts]
      rfl
  | @starts raw ev accepts ok first idle paced =>
    refine ⟨[nextAccepted ev s], ?_, ?_, Or.inl ?_⟩
    · rw [advance_delivered, setWalking_delivered]
      rfl
    · rw [fresh_push accepts, advance, armTimer, fanout, setWalking_walk]
      rfl
    · simp [fresh_push accepts, advance, armTimer, fanout, settled_idle_queue settled idle]
  | @startsAtOnce raw ev accepts ok first idle fast =>
    refine ⟨s.queue ++ [nextAccepted ev s], ?_, ?_, Or.inl ?_⟩
    · rw [collapse_delivered, setWalking_delivered, setWalking_queue]
      rfl
    · rw [fresh_push accepts, collapse, setWalking_walk]
      rfl
    · simp [fresh_push accepts, collapse]
  | paceSet value =>
    refine ⟨[], ?_, ?_, Or.inl ?_⟩
    · simp [PaceQueue.delivered]
    · simp [Op.fresh, Op.offered]
    · simp [Op.fresh, Op.offered]
  | skipIdle => exact ⟨[], handsOut_same rfl⟩
  | skipped walking =>
    refine ⟨s.queue, ?_, ?_, Or.inl ?_⟩
    · rw [collapse_delivered, clearPending_delivered, clearPending_eq]
    · simp [clearPending_eq, collapse, Op.fresh, Op.offered]
    · simp [collapse, Op.fresh, Op.offered]
  | flushed =>
    refine ⟨[], ?_, ?_, Or.inr ⟨Or.inl rfl, ?_⟩⟩
    · simp [preemptAndFlush, clearPending_eq, PaceQueue.delivered]
    · simp [preemptAndFlush, clearPending_eq, Op.fresh, Op.offered]
    · simp [preemptAndFlush, Op.fresh, Op.offered]
  | deadTimer => exact ⟨[], handsOut_same rfl⟩
  | @ticked h a rest due queued paced =>
    refine ⟨[a], advance_delivered _ _ _, ?_, Or.inl ?_⟩
    · simp [advance, armTimer, fanout, release, Op.fresh, Op.offered]
    · simp [advance, armTimer, fanout, queued, Op.fresh, Op.offered]
  | ranDry =>
    refine ⟨s.queue, collapse_delivered _, ?_, Or.inl ?_⟩
    · simp [collapse, release, Op.fresh, Op.offered]
    · simp [collapse, Op.fresh, Op.offered]

def after (host : Host) (ops : List Op) : PaceQueue := run (step host) initial ops

theorem after_concat (host : Host) (ops : List Op) (op : Op) :
    after host (ops ++ [op]) = step host (after host ops) op := run_concat _ _ _ _

theorem after_fifo (host : Host) (ops : List Op) (op : Op) :
    ∃ news, HandsOut host (after host ops) op (after host (ops ++ [op])) news := by
  rw [after_concat]
  have settled := settled_run host ops
  exact outcome_fifo settled (step_outcome host settled op)

def books (s : PaceQueue) : Ledger.Books Accepted := ⟨s.accepted, s.delivered, s.queue⟩

theorem after_ordered (host : Host) (ops : List Op) : Ledger.Ordered (books (after host ops)) := by
  induction ops using List.reverseRecOn with
  | nil => exact List.Sublist.refl []
  | append_singleton ops op ih =>
    obtain ⟨news, out⟩ := after_fifo host ops op
    refine Ledger.ordered_exchange ih ⟨out.accepted, out.delivered, ?_⟩
    rcases out.order with kept | ⟨_, dropped⟩
    · exact kept ▸ List.Sublist.refl _
    · exact dropped ▸ List.sublist_append_right _ _

theorem after_accepted (host : Host) (ops : List Op) :
    (after host ops).accepted.map (·.ev) = ops.filterMap (·.offered host) ∧
      (after host ops).accepted.map (·.seq) = List.range (after host ops).accepted.length := by
  induction ops using List.reverseRecOn with
  | nil => exact ⟨rfl, rfl⟩
  | append_singleton ops op ih =>
    obtain ⟨news, out⟩ := after_fifo host ops op
    rw [out.accepted, List.map_append, List.map_append, ih.1, ih.2, List.filterMap_append]
    cases offered : op.offered host with
    | none => simp [Op.fresh, offered]
    | some ev => simp [Op.fresh, offered, nextAccepted, List.range_succ]

/-- The push was still queued when an operation of the run discarded the queue. -/
def Discarded (host : Host) (ops : List Op) (a : Accepted) : Prop :=
  ∃ before op later, ops = before ++ op :: later ∧
    a ∈ (after host before).queue ∧ Discards host (after host before) op

theorem discarded_extend {host : Host} {ops : List Op} {a : Accepted} (op : Op)
    (lost : Discarded host ops a) : Discarded host (ops ++ [op]) a := by
  obtain ⟨before, cut, later, rfl, mem, discards⟩ := lost
  exact ⟨before, cut, later ++ [op], by simp, mem, discards⟩

theorem after_accounted (host : Host) (ops : List Op) :
    ∀ a ∈ (after host ops).accepted,
      a ∈ (after host ops).delivered ∨ a ∈ (after host ops).queue ∨ Discarded host ops a := by
  induction ops using List.reverseRecOn with
  | nil =>
    intro a mem
    exact absurd mem (List.not_mem_nil)
  | append_singleton ops op ih =>
    intro a mem
    obtain ⟨news, delivered, accepted, order⟩ := after_fifo host ops op
    have handled : a ∈ news ++ (after host (ops ++ [op])).queue →
        a ∈ (after host (ops ++ [op])).delivered ∨ a ∈ (after host (ops ++ [op])).queue := by
      intro out
      rw [delivered]
      rcases List.mem_append.mp out with now | waits
      · exact Or.inl (List.mem_append.mpr (Or.inr now))
      · exact Or.inr waits
    rw [accepted] at mem
    rcases List.mem_append.mp mem with old | new
    · rcases ih a old with done | waiting | lost
      · exact Or.inl (by simp [delivered, done])
      · rcases order with kept | ⟨discards, _⟩
        · rcases handled (by simp [kept, waiting]) with now | waits
          · exact Or.inl now
          · exact Or.inr (Or.inl waits)
        · exact Or.inr (Or.inr ⟨ops, op, [], rfl, waiting, discards⟩)
      · exact Or.inr (Or.inr (discarded_extend op lost))
    · have out : a ∈ news ++ (after host (ops ++ [op])).queue := by
        rcases order with kept | ⟨_, dropped⟩
        · rw [kept]
          exact List.mem_append.mpr (Or.inr new)
        · exact dropped ▸ new
      rcases handled out with now | waits
      · exact Or.inl now
      · exact Or.inr (Or.inl waits)

theorem push_error_delivers (host : Host) {s : PaceQueue} (settled : Settled s)
    {raw : Option PaceEvent} {ev : PaceEvent} (accepts : unwrap host raw = some ev)
    (err : isErr ev.type = true) :
    (push host raw s).delivered = s.delivered ++ s.queue ++ [nextAccepted ev s] := by
  have pushed : push host raw s = pushEvent ev s := by simp [push, accepts]
  rw [pushed, pushEvent_failed settled.noSkip err, collapse_delivered, clearPending_delivered,
    clearPending_eq, List.append_assoc]
  rfl

/-- What the expiry of a timer hands out: the head of the queue, in real time all of it. -/
def PaceQueue.batch (s : PaceQueue) : List Accepted :=
  if realTime s then s.queue else s.queue.take 1

theorem expire_delivers (host : Host) {s : PaceQueue} (settled : Settled s) {h : Nat}
    (live : h ∈ s.live.map (·.handle)) :
    (expire h s).delivered = s.delivered ++ s.batch ∧ s.batch ++ (expire h s).queue = s.queue := by
  have outcome := step_outcome host settled (.expire h)
  rw [step] at outcome
  generalize expire h s = s' at outcome
  cases outcome with
  | deadTimer dead => exact absurd live dead
  | @ticked _ a rest due queued paced =>
    have head : s.batch = [a] := by simp [PaceQueue.batch, paced, queued]
    rw [head]
    exact ⟨advance_delivered _ _ _, queued.symm⟩
  | ranDry due done =>
    have all : s.batch = s.queue := by
      rcases done with empty | fast
      · simp [PaceQueue.batch, empty]
      · simp [PaceQueue.batch, fast]
    rw [all]
    exact ⟨collapse_delivered _, List.append_nil _⟩

/-- Delivery of the pace queue, after any operations in any order. What is queued has a live
    timer, and the expiry of any live timer hands out the head, in real time the whole queue. -/
theorem pace_queue_delivery (host : Host) (ops : List Op) :
    (after host ops).accepted.map (·.ev) = ops.filterMap (·.offered host) ∧
    (after host ops).delivered.Sublist (after host ops).accepted ∧
    ((after host ops).delivered.map (·.seq)).Nodup ∧
    (∀ a ∈ (after host ops).accepted, a ∉ (after host ops).delivered →
      a ∈ (after host ops).queue ∨ Discarded host ops a) ∧
    (∀ raw ev, unwrap host raw = some ev → isErr ev.type = true →
      (push host raw (after host ops)).delivered =
        (after host ops).delivered ++ (after host ops).queue ++
          [nextAccepted ev (after host ops)]) ∧
    ((after host ops).queue ≠ [] → (after host ops).live ≠ []) ∧
    (∀ h ∈ (after host ops).live.map (·.handle),
      (expire h (after host ops)).delivered =
          (after host ops).delivered ++ (after host ops).batch ∧
        (after host ops).batch ++ (expire h (after host ops)).queue = (after host ops).queue) := by
  have settled := settled_run host ops
  have ordered := after_ordered host ops
  have numbered : ((after host ops).accepted.map (·.seq)).Nodup := by
    rw [(after_accepted host ops).2]
    exact List.nodup_range
  refine ⟨(after_accepted host ops).1, Ledger.ordered_delivered ordered,
    Ledger.ordered_distinct (·.seq) ordered numbered, ?_, ?_, settled_not_stranded settled, ?_⟩
  · intro a mem undelivered
    exact (after_accounted host ops a mem).resolve_left undelivered
  · intro raw ev accepts err
    exact push_error_delivers host settled accepts err
  · intro h live
    exact expire_delivers host settled live

end SwaPace
