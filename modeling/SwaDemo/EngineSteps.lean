import SwaDemo.ResolveEngine
import SwaDemo.PaceDelivery

/-!
What the engine does with the signals of the pace queue, said once. The laws are
about `pending`, the state a commit would show: no signal makes it done, an error
event shows the error, and any other event changes only the countdown and, where
it advances the stage, `stage` and `completed`.
-/
namespace SwaEngine
open Js SwaPace

theorem outcome_signals {host : Host} {s s' : PaceQueue} {op : Op} (outcome : Outcome host s op s') :
    ∃ news, s'.signals = s.signals ++ news := by
  cases outcome with
  | rejected => exact ⟨[], by simp⟩
  | failed =>
    rw [clearPending_eq]
    exact ⟨_, by rw [collapse, List.append_assoc]; rfl⟩
  | replayed => exact ⟨_, rfl⟩
  | replayedAtOnce =>
    rw [setWalking_walk]
    exact ⟨_, by rw [collapse, List.append_assoc, List.append_assoc]; rfl⟩
  | waits => exact ⟨[], by simp [enqueue, accept]⟩
  | starts =>
    rw [setWalking_walk]
    exact ⟨_, by rw [advance, armTimer, fanout, List.append_assoc]; rfl⟩
  | startsAtOnce =>
    rw [setWalking_walk]
    exact ⟨_, by rw [collapse, List.append_assoc, List.append_assoc]; rfl⟩
  | paceSet => exact ⟨[], by simp⟩
  | skipIdle => exact ⟨[], by simp⟩
  | skipped =>
    rw [clearPending_eq]
    exact ⟨_, by rw [collapse, List.append_assoc]⟩
  | flushed => exact ⟨[], by simp [preemptAndFlush, clearPending_eq]⟩
  | deadTimer => exact ⟨[], by simp⟩
  | ticked => exact ⟨_, rfl⟩
  | ranDry => exact ⟨_, by rw [collapse, List.append_assoc]; rfl⟩

theorem step_signals (host : Host) {s : PaceQueue} (settled : Settled s) (op : Op) :
    (SwaPace.step host s op).signals = s.signals ++ Page.freshSignals host s op := by
  obtain ⟨news, grown⟩ := outcome_signals (step_outcome host settled op)
  rw [Page.freshSignals, grown, List.drop_left]

def events (signals : List Signal) : List PaceEvent :=
  (signals.filterMap Signal.event?).map (·.ev)

@[simp] theorem events_nil : events [] = [] := rfl

@[simp] theorem events_event (a : Accepted) (signals : List Signal) :
    events (.event a :: signals) = a.ev :: events signals := rfl

@[simp] theorem events_state (st : PaceState) (signals : List Signal) :
    events (.state st :: signals) = events signals := rfl

variable {Body : Type} (host : Host) (now : Int)

namespace Engine

@[simp] theorem pending_queue (us : List (Update Body)) (e : Engine Body) :
    (e.queue us).pending = us.foldl Update.apply e.pending := by
  simp [pending, queue]

@[simp] theorem pending_maxStage (e : Engine Body) (idx : Int) :
    ({ e with maxStage := idx } : Engine Body).pending = e.pending := rfl

@[simp] theorem pending_peerUri (e : Engine Body) (uri : JsValue) :
    ({ e with peerUri := uri } : Engine Body).pending = e.pending := rfl

def seenUri (uri : JsValue) (ev : PaceEvent) : JsValue :=
  if ev.type = "mtls.peer_uri_seen" then
    match ev.payload with
    | none => uri
    | some payload => (payload.get "uri").getD .null
  else uri

theorem seePeerUri_eq (ev : PaceEvent) (e : Engine Body) :
    seePeerUri ev e = { e with peerUri := seenUri e.peerUri ev } := by
  unfold seePeerUri seenUri
  split
  · cases ev.payload <;> rfl
  · rfl

/-- The ticker touches nothing but itself and the countdown. -/
structure SameButTtl (e e' : Engine Body) : Prop where
  cells : e'.cells = e.cells
  statusRef : e'.statusRef = e.statusRef
  maxStage : e'.maxStage = e.maxStage
  peerUri : e'.peerUri = e.peerUri
  status : e'.pending.status = e.pending.status
  stage : e'.pending.stage = e.pending.stage
  completed : e'.pending.completed = e.pending.completed
  result : e'.pending.result = e.pending.result
  error : e'.pending.error = e.pending.error

theorem sameButTtl_refl (e : Engine Body) : SameButTtl e e :=
  ⟨rfl, rfl, rfl, rfl, rfl, rfl, rfl, rfl, rfl⟩

theorem tick_same (e : Engine Body) : SameButTtl e (tick now e) := by
  unfold tick
  cases SwaTtl.tick now e.ticker with
  | none => exact sameButTtl_refl e
  | some snap =>
    exact {
      cells := rfl
      statusRef := rfl
      maxStage := rfl
      peerUri := rfl
      status := by simp [Update.apply]
      stage := by simp [Update.apply]
      completed := by simp [Update.apply]
      result := by simp [Update.apply]
      error := by simp [Update.apply] }

theorem seeJwt_same (ev : PaceEvent) (e : Engine Body) : SameButTtl e (seeJwt host now ev e) := by
  unfold seeJwt
  split
  · split
    · rename_i iat exp _ _
      have ticked := tick_same now
        { e with ticker := SwaTtl.setIssuedAndExp (host.number iat) (host.number exp) }
      exact { ticked with }
    · exact sameButTtl_refl e
  · exact sameButTtl_refl e

/-- The event moves the stage indicator forward. -/
def Advances (e : Engine Body) (ev : PaceEvent) : Prop :=
  e.statusRef = .running ∧ 0 ≤ eventToStage ev.type ∧ e.maxStage < eventToStage ev.type

instance (e : Engine Body) (ev : PaceEvent) : Decidable (Advances e ev) :=
  inferInstanceAs (Decidable (_ ∧ _ ∧ _))

/-- What an event that is no error does. -/
structure Plain (e : Engine Body) (ev : PaceEvent) (e' : Engine Body) : Prop where
  cells : e'.cells = e.cells
  statusRef : e'.statusRef = e.statusRef
  peerUri : e'.peerUri = seenUri e.peerUri ev
  status : e'.pending.status = e.pending.status
  result : e'.pending.result = e.pending.result
  error : e'.pending.error = e.pending.error
  advanced : Advances e ev → e'.maxStage = eventToStage ev.type ∧
    e'.pending.stage = eventToStage ev.type ∧ e'.pending.completed = eventToStage ev.type
  kept : ¬ Advances e ev → e'.maxStage = e.maxStage ∧
    e'.pending.stage = e.pending.stage ∧ e'.pending.completed = e.pending.completed

theorem onEvent_plain {ev : PaceEvent} (e : Engine Body) (ok : isErrorEvent ev.type = false) :
    Plain e ev (onEvent host now ev e) := by
  have seen : seePeerUri ev e = { e with peerUri := seenUri e.peerUri ev } := seePeerUri_eq ev e
  have same := seeJwt_same host now ev (seePeerUri ev e)
  have unmoved (still : ¬ Advances e ev) : Plain e ev (seeJwt host now ev (seePeerUri ev e)) := by
    rw [seen] at same ⊢
    exact {
      cells := same.cells
      statusRef := same.statusRef
      peerUri := same.peerUri
      status := same.status
      result := same.result
      error := same.error
      advanced := fun h => absurd h still
      kept := fun _ => ⟨same.maxStage, same.stage, same.completed⟩ }
  rw [onEvent, if_neg (by simp [ok])]
  by_cases running : e.statusRef = .running
  · rw [if_pos running]
    unfold advanceStage
    rw [same.maxStage, seen]
    by_cases forward : Advances e ev
    · rw [if_pos forward.2]
      rw [seen] at same
      exact {
        cells := same.cells
        statusRef := same.statusRef
        peerUri := same.peerUri
        status := by simpa [Update.apply] using same.status
        result := by simpa [Update.apply] using same.result
        error := by simpa [Update.apply] using same.error
        advanced := fun _ => ⟨rfl, by simp [Update.apply], by simp [Update.apply]⟩
        kept := fun h => absurd forward h }
    · rw [if_neg (fun h => forward ⟨running, h⟩), ← seen]
      exact unmoved forward
  · rw [if_neg running]
    exact unmoved (fun h => running h.1)

theorem onEvent_error {ev : PaceEvent} (e : Engine Body) (err : isErrorEvent ev.type = true) :
    (onEvent host now ev e).pending = { e.pending with
      error := some ⟨ev.type, (merged ev (seenUri e.peerUri ev)).get "err",
        some (merged ev (seenUri e.peerUri ev))⟩
      stage := -1
      status := .error } := by
  rw [onEvent, if_pos err, showError, seePeerUri_eq]
  simp [Update.apply]

theorem onEvent_refs (ev : PaceEvent) (e : Engine Body) :
    (onEvent host now ev e).statusRef = e.statusRef ∧ (onEvent host now ev e).cells = e.cells ∧
      (onEvent host now ev e).peerUri = seenUri e.peerUri ev := by
  by_cases err : isErrorEvent ev.type = true
  · rw [onEvent, if_pos err, showError, seePeerUri_eq]
    exact ⟨rfl, rfl, rfl⟩
  · have plain := onEvent_plain host now e (by simpa using err)
    exact ⟨plain.statusRef, plain.cells, plain.peerUri⟩

def hear (host : Host) (now : Int) (signals : List Signal) (e : Engine Body) : Engine Body :=
  signals.foldl (onSignal host now) e

@[simp] theorem hear_nil (e : Engine Body) : hear host now [] e = e := rfl

@[simp] theorem hear_event (a : Accepted) (signals : List Signal) (e : Engine Body) :
    hear host now (.event a :: signals) e = hear host now signals (onEvent host now a.ev e) := rfl

@[simp] theorem hear_walking (signals : List Signal) (e : Engine Body) :
    hear host now (.state .walking :: signals) e =
      hear host now signals (e.queue [.setStatusWalking]) := rfl

/-- What each event and the start of a walk keep, the signals keep. -/
theorem hear_invariant {P : Engine Body → Prop} {signals : List Signal}
    (event : ∀ ev ∈ events signals, ∀ e, P e → P (onEvent host now ev e))
    (walking : ∀ e, P e → P (e.queue [.setStatusWalking])) {e : Engine Body} (start : P e) :
    P (hear host now signals e) := by
  induction signals generalizing e with
  | nil => exact start
  | cons signal signals ih =>
    cases signal with
    | event a => exact ih (fun ev mem => event ev (by simp [mem])) (event a.ev (by simp) e start)
    | state st =>
      cases st with
      | idle => exact ih event start
      | walking => exact ih event (walking e start)

theorem hear_refs (signals : List Signal) (e : Engine Body) :
    (hear host now signals e).statusRef = e.statusRef ∧
      (hear host now signals e).cells = e.cells ∧
      (hear host now signals e).peerUri = (events signals).foldl seenUri e.peerUri := by
  induction signals generalizing e with
  | nil => exact ⟨rfl, rfl, rfl⟩
  | cons signal signals ih =>
    cases signal with
    | event a =>
      obtain ⟨status, cells, uri⟩ := onEvent_refs host now a.ev e
      obtain ⟨status', cells', uri'⟩ := ih (onEvent host now a.ev e)
      rw [hear_event, events_event, List.foldl_cons, ← uri]
      exact ⟨status'.trans status, cells'.trans cells, uri'⟩
    | state st =>
      cases st with
      | idle => exact ih e
      | walking => exact ih (e.queue [.setStatusWalking])

/-- `setStatus((prev) => prev === "done" || prev === "error" ? prev : "running")` -/
theorem walking_pending (e : Engine Body) :
    (e.queue [.setStatusWalking]).pending = e.pending ∨
      (e.queue [.setStatusWalking]).pending = { e.pending with status := .running } ∧
        e.pending.status ≠ .done ∧ e.pending.status ≠ .error := by
  rw [pending_queue, List.foldl_cons, List.foldl_nil]
  cases shown : e.pending.status <;> simp [Update.apply, shown]

theorem hear_done {signals : List Signal} {e : Engine Body}
    (done : (hear host now signals e).pending.status = .done) :
    e.pending.status = .done ∧ (hear host now signals e).pending.result = e.pending.result := by
  induction signals generalizing e with
  | nil => exact ⟨done, rfl⟩
  | cons signal signals ih =>
    cases signal with
    | event a =>
      rw [hear_event] at done ⊢
      obtain ⟨status, result⟩ := ih done
      by_cases err : isErrorEvent a.ev.type = true
      · rw [onEvent_error host now e err] at status
        contradiction
      · have plain := onEvent_plain host now e (by simpa using err)
        exact ⟨plain.status.symm.trans status, result.trans plain.result⟩
    | state st =>
      cases st with
      | idle => exact ih done
      | walking =>
        rw [hear_walking] at done ⊢
        obtain ⟨status, result⟩ := ih done
        rcases walking_pending e with same | ⟨started, _⟩
        · rw [same] at status result
          exact ⟨status, result⟩
        · rw [started] at status
          contradiction

theorem hear_error_iff (signals : List Signal) (e : Engine Body) :
    (hear host now signals e).pending.status = .error ↔
      e.pending.status = .error ∨ ∃ ev ∈ events signals, isErrorEvent ev.type = true := by
  induction signals generalizing e with
  | nil => simp
  | cons signal signals ih =>
    cases signal with
    | event a =>
      rw [hear_event, ih]
      by_cases err : isErrorEvent a.ev.type = true
      · rw [onEvent_error host now e err]
        simp [err]
      · rw [(onEvent_plain host now e (by simpa using err)).status]
        simp [err]
    | state st =>
      cases st with
      | idle => exact ih e
      | walking =>
        rw [hear_walking, ih, events_state]
        rcases walking_pending e with same | ⟨started, _, fine⟩
        · rw [same]
        · rw [started]
          simp [fine]

theorem hear_no_error {signals : List Signal} {e : Engine Body}
    (done : (hear host now signals e).pending.status = .done) :
    ∀ ev ∈ events signals, isErrorEvent ev.type = false := by
  intro ev mem
  by_contra err
  have shown := (hear_error_iff host now signals e).mpr (Or.inr ⟨ev, mem, by simpa using err⟩)
  rw [done] at shown
  contradiction

theorem hear_stays_done {signals : List Signal} {e : Engine Body}
    (ok : ∀ ev ∈ events signals, isErrorEvent ev.type = false)
    (done : e.pending.status = .done) : (hear host now signals e).pending.status = .done := by
  refine hear_invariant (P := fun e => e.pending.status = .done) host now ?_ ?_ done
  · intro ev mem e done
    exact (onEvent_plain host now e (ok ev mem)).status.trans done
  · intro e done
    rcases walking_pending e with same | ⟨_, undone, _⟩
    · rw [same]
      exact done
    · exact absurd done undone

@[simp] theorem effect_pending (e : Engine Body) : e.effect.pending = e.pending := by
  unfold effect
  split <;> rfl

@[simp] theorem commit_cells (e : Engine Body) : e.commit.cells = e.pending := by
  simp [commit]

@[simp] theorem commit_pending (e : Engine Body) : e.commit.pending = e.pending :=
  commit_cells e

end Engine

namespace Page

theorem paceStep_engine (op : Op) (s : Page Body) :
    (s.paceStep host op).engine = s.engine.hear host s.now (freshSignals host s.pace op) := rfl

theorem tick_ttl (s : Page Body) :
    ∃ e, s.tick = { s with engine := e } ∧ Engine.SameButTtl s.engine e := by
  unfold tick
  split
  · exact ⟨_, rfl, Engine.tick_same s.now s.engine⟩
  · exact ⟨s.engine, rfl, Engine.sameButTtl_refl s.engine⟩

end Page

/-- The operation of the pace queue behind an action. -/
def Action.op? : Action Body → Option Op
  | .sse msg => some (.push msg)
  | .expire h => some (.expire h)
  | .setPace value => some (.setPace value)
  | .skip => some .skip
  | _ => none

namespace Page

theorem step_pace (s : Page Body) {a : Action Body} {op : Op} (acts : a.op? = some op) :
    step host s a = s.paceStep host op := by
  cases a with
  | sse msg => cases acts; rfl
  | expire h => cases acts; rfl
  | setPace value => cases acts; rfl
  | skip => cases acts; rfl
  | run | reset | respond | commit | effect | tick | clock => contradiction

theorem settled_act {s : Page Body} (settled : Settled s.pace) (a : Action Body) :
    Settled (step host s a).pace := by
  cases acts : a.op? with
  | some op =>
    rw [step_pace host s acts]
    exact SwaPace.settled_step host settled op
  | none =>
    cases a with
    | reset => exact SwaPace.settled_step host settled .preemptAndFlush
    | respond id response =>
      simp only [step, respond]
      split <;> exact settled
    | tick =>
      obtain ⟨e, ticked, _⟩ := tick_ttl s
      simpa [step, ticked] using settled
    | run | commit | effect | clock => exact settled
    | sse | expire | setPace | skip => contradiction

theorem settled_acts {s : Page Body} (settled : Settled s.pace)
    (acts : List (Action Body)) : Settled (Runs.run (step host) s acts).pace :=
  Runs.run_invariant (P := fun t : Page Body => Settled t.pace) (fun _ a kept => settled_act host kept a)
    settled acts

/-- The events an action hands to the engine. -/
def heard (s : Page Body) (a : Action Body) : List PaceEvent :=
  match a.op? with
  | some op => events (freshSignals host s.pace op)
  | none => []

/-- The states that commits show: those right after a `commit`. -/
def AtCommits (P : Page Body → Prop) (s : Page Body) (acts : List (Action Body)) : Prop :=
  ∀ before later, acts = before ++ .commit :: later →
    P (Runs.run (step host) s (before ++ [.commit]))

end Page
end SwaEngine
