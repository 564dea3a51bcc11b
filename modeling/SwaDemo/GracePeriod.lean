import SwaDemo.TraceForwarding

/-!
The context of a lookup's trace stream (`CarrierClient.Lookup` in
`apps/portal/carrier_client.go`): detached from the caller's context, cancelled by a hook
on it while the call runs, and by a timer that the call arms on its way out.

Computing takes no time of its own; time passes between any two steps, but not past a
timer that is due nor a goroutine that can run.
-/
namespace SwaGrace
open Runs
open SwaForward (LookupResult)

/-- 500 milliseconds, in nanoseconds. -/
def grace : Nat := 500000000

/-- The deferred calls of `Lookup`. -/
inductive Deferred where
  | closeBody
  /-- `time.AfterFunc(500*time.Millisecond, cancelTrace)` -/
  | armTimer
  | stopOnParent
  deriving DecidableEq, Repr

inductive Stage where
  | entered
  | calling
  | replied
  | returning
  | exited
  deriving DecidableEq, Repr

/-- The function of `context.AfterFunc(ctx, cancelTrace)`: not registered yet, waiting for
    the caller's context, in a goroutine that has not run, done, or stopped. -/
inductive Hook where
  | none
  | registered
  | started
  | done
  | stopped
  deriving DecidableEq, Repr

/-- One call of `Lookup`. `parent` and `cancelled` say when the caller's context and the
    trace context were cancelled and `timer` when the timer is due. `returnedAt`, `armedAt`
    and `exitedAt` are when the return statement was reached, the timer armed and the last
    deferred call done; no step reads the three. -/
structure Call where
  now : Nat
  stage : Stage
  deferred : List Deferred
  parent : Option Nat
  hook : Hook
  timer : Option Nat
  cancelled : Option Nat
  returnedAt : Option Nat
  armedAt : Option Nat
  exitedAt : Option Nat
  deriving DecidableEq, Repr

def start (now : Nat) : Call := ⟨now, .entered, [], none, .none, none, none, none, none, none⟩

/-- Cancelling a context again changes nothing. -/
def cancelTrace (s : Call) : Call := { s with cancelled := some (s.cancelled.getD s.now) }

/-- Up to the start of the stream's goroutine. A context that is done already starts the
    function at once. -/
def enter (s : Call) : Call :=
  { s with
    stage := .calling
    deferred := [.armTimer, .stopOnParent]
    hook := match s.parent with
      | some _ => .started
      | none => .registered }

/-- The request cannot be built, fails, or is answered; `defer resp.Body.Close()` -/
def request (s : Call) : LookupResult → Call
  | .noRequest => { s with stage := .returning, returnedAt := some s.now }
  | .unreachable _ => { s with stage := .returning, returnedAt := some s.now }
  | .replied _ _ => { s with stage := .replied, deferred := .closeBody :: s.deferred }

def runDeferred (s : Call) : Deferred → Call
  | .closeBody => s
  | .armTimer => { s with timer := some (s.now + grace), armedAt := some s.now }
  | .stopOnParent => { s with hook := if s.hook = .registered then .stopped else s.hook }

/-- The deferred call on top of the stack runs; after the last one the call is over. -/
def unwind (s : Call) : Call :=
  match s.deferred with
  | [] => s
  | [d] => runDeferred { s with deferred := [], stage := .exited, exitedAt := some s.now } d
  | d :: rest => runDeferred { s with deferred := rest } d

/-- Time may pass up to the next timer, and only while no goroutine waits to run. -/
def CanPass (d : Nat) (s : Call) : Prop := s.hook ≠ .started ∧ ∀ due ∈ s.timer, s.now + d ≤ due

instance (d : Nat) (s : Call) : Decidable (CanPass d s) :=
  inferInstanceAs (Decidable (_ ∧ ∀ due ∈ s.timer, _))

inductive Step where
  | enter
  | request (result : LookupResult)
  /-- The body has been read and the reply is returned. -/
  | return_
  | unwind
  | cancelParent
  | runHook
  | fire
  | clock (d : Nat)
  deriving DecidableEq, Repr

def step (s : Call) : Step → Call
  | .enter => if s.stage = .entered then enter s else s
  | .request result => if s.stage = .calling then request s result else s
  | .return_ =>
    if s.stage = .replied then { s with stage := .returning, returnedAt := some s.now } else s
  | .unwind => if s.stage = .returning then unwind s else s
  | .cancelParent =>
    match s.parent with
    | some _ => s
    | none => { s with
      parent := some s.now
      hook := if s.hook = .registered then .started else s.hook }
  | .runHook => if s.hook = .started then cancelTrace { s with hook := .done } else s
  | .fire =>
    match s.timer with
    | some due => if due ≤ s.now then cancelTrace { s with timer := none } else s
    | none => s
  | .clock d => if CanPass d s then { s with now := s.now + d } else s

/-- The deferred calls that each stage still has to run, and what has become of the hook. -/
def Shape (s : Call) : Prop :=
  match s.stage with
  | .entered => s.deferred = [] ∧ s.hook = .none
  | .calling => s.deferred = [.armTimer, .stopOnParent] ∧ s.hook ∈ [.registered, .started, .done]
  | .replied => s.deferred = [.closeBody, .armTimer, .stopOnParent] ∧
      s.hook ∈ [.registered, .started, .done]
  | .returning => s.deferred ∈ [[.closeBody, .armTimer, .stopOnParent],
      [.armTimer, .stopOnParent], [.stopOnParent]] ∧ s.hook ∈ [.registered, .started, .done]
  | .exited => s.deferred = [] ∧ s.hook ∈ [.stopped, .started, .done]

/-- The timer is armed between the return statement and the end of the call, and until
    it has cancelled the trace it is not overdue. -/
structure Armed (s : Call) : Prop where
  shape : Shape s
  waiting : s.hook = .registered → s.parent = none
  heard : s.hook = .started ∨ s.hook = .done → s.parent ≠ none
  unarmed : s.armedAt = none ↔ s.stage = .entered ∨ .armTimer ∈ s.deferred
  noTimer : s.armedAt = none → s.timer = none
  due : ∀ due, s.timer = some due → ∃ a, s.armedAt = some a ∧ due = a + grace ∧ s.now ≤ due
  fired : ∀ a, s.armedAt = some a → s.timer = none → ∃ t, s.cancelled = some t ∧ t ≤ a + grace
  returned : ∀ a, s.armedAt = some a → ∃ r, s.returnedAt = some r ∧ r ≤ a
  began : s.stage = .returning → ∃ r, s.returnedAt = some r ∧ r ≤ s.now
  past : ∀ a, s.armedAt = some a → a ≤ s.now
  cut : ∀ t, s.cancelled = some t → t ≤ s.now
  exit : ∀ x, s.exitedAt = some x → s.stage = .exited ∧ ∃ a, s.armedAt = some a ∧ a ≤ x

theorem armed_start (now : Nat) : Armed (start now) where
  shape := ⟨rfl, rfl⟩
  waiting := fun h => nomatch h
  heard := fun h => h.elim (fun h => nomatch h) fun h => nomatch h
  unarmed := ⟨fun _ => Or.inl rfl, fun _ => rfl⟩
  noTimer := fun _ => rfl
  due := fun _ h => nomatch h
  fired := fun _ h => nomatch h
  returned := fun _ h => nomatch h
  began := fun h => nomatch h
  past := fun _ h => nomatch h
  cut := fun _ h => nomatch h
  exit := fun _ h => nomatch h

theorem unarmed_early {s : Call} (armed : Armed s)
    (early : s.stage = .entered ∨ s.stage = .calling ∨ s.stage = .replied) : s.armedAt = none := by
  refine armed.unarmed.mpr ?_
  have shape := armed.shape
  unfold Shape at shape
  rcases early with stage | stage | stage
  · exact Or.inl stage
  · rw [stage] at shape
    exact Or.inr (by simp [shape.1])
  · rw [stage] at shape
    exact Or.inr (by simp [shape.1])

theorem no_exit {s : Call} (armed : Armed s) (inside : s.stage ≠ .exited) (x : Nat) :
    s.exitedAt ≠ some x :=
  fun is => inside (armed.exit x is).1

theorem armed_enter {s : Call} (armed : Armed s) (stage : s.stage = .entered) : Armed (enter s) := by
  have none_ := unarmed_early armed (Or.inl stage)
  exact { armed with
    shape := by
      refine ⟨rfl, ?_⟩
      cases parent : s.parent <;> simp [enter, parent]
    waiting := by
      intro hook
      cases parent : s.parent with
      | none => simpa [enter] using parent
      | some p => simp [enter, parent] at hook
    heard := by
      intro hook
      cases parent : s.parent with
      | none => simp [enter, parent] at hook
      | some p => simp [enter, parent]
    unarmed := ⟨fun _ => Or.inr (by simp [enter]), fun _ => none_⟩
    began := fun h => nomatch h
    exit := fun x is => absurd is (no_exit armed (by simp [stage]) x) }

/-- The return statement, from a stage with the same deferred calls. -/
theorem armed_return {s : Call} (armed : Armed s)
    (stage : s.stage = .calling ∨ s.stage = .replied) :
    Armed { s with stage := .returning, returnedAt := some s.now } := by
  have none_ := unarmed_early armed (Or.inr stage)
  have shape := armed.shape
  unfold Shape at shape
  have deferred : s.deferred ∈ [[.closeBody, .armTimer, .stopOnParent],
      [.armTimer, .stopOnParent], [.stopOnParent]] ∧
      s.hook ∈ [.registered, .started, .done] ∧ .armTimer ∈ s.deferred := by
    rcases stage with is | is
    · rw [is] at shape
      simp [shape.1, shape.2]
    · rw [is] at shape
      simp [shape.1, shape.2]
  have inside : s.stage ≠ .exited := by
    rcases stage with is | is <;> simp [is]
  exact { armed with
    shape := ⟨deferred.1, deferred.2.1⟩
    unarmed := ⟨fun _ => Or.inr deferred.2.2, fun _ => none_⟩
    returned := fun a is => absurd is (by simp [none_])
    began := fun _ => ⟨s.now, rfl, Nat.le_refl _⟩
    exit := fun x is => absurd is (no_exit armed inside x) }

theorem armed_request {s : Call} (armed : Armed s) (stage : s.stage = .calling)
    (result : LookupResult) : Armed (request s result) := by
  cases result with
  | noRequest => exact armed_return armed (Or.inl stage)
  | unreachable err => exact armed_return armed (Or.inl stage)
  | replied cipher peerSANURI =>
    have none_ := unarmed_early armed (Or.inr (Or.inl stage))
    have shape := armed.shape
    unfold Shape at shape
    rw [stage] at shape
    exact { armed with
      shape := ⟨by simp [request, shape.1], shape.2⟩
      unarmed := ⟨fun _ => Or.inr (by simp [request, shape.1]), fun _ => none_⟩
      began := fun h => nomatch h
      exit := fun x is => absurd is (no_exit armed (by simp [stage]) x) }

/-- Each call on the stack at the return: the body is closed, the timer armed, and the
    function of the caller's context taken back, which ends the call. -/
theorem unwind_cases {s : Call} (armed : Armed s) (stage : s.stage = .returning) :
    s.deferred = [.closeBody, .armTimer, .stopOnParent] ∧
      unwind s = { s with deferred := [.armTimer, .stopOnParent] } ∨
    s.deferred = [.armTimer, .stopOnParent] ∧
      unwind s = { s with
        deferred := [.stopOnParent], timer := some (s.now + grace), armedAt := some s.now } ∨
    s.deferred = [.stopOnParent] ∧
      unwind s = { s with
        deferred := [], stage := .exited, exitedAt := some s.now,
        hook := if s.hook = .registered then .stopped else s.hook } := by
  have shape := armed.shape
  unfold Shape at shape
  rw [stage] at shape
  have rest := shape.1
  simp only [List.mem_cons, List.not_mem_nil, or_false] at rest
  rcases rest with deferred | deferred | deferred
  · exact Or.inl ⟨deferred, by simp [unwind, deferred, runDeferred]⟩
  · exact Or.inr (Or.inl ⟨deferred, by simp [unwind, deferred, runDeferred]⟩)
  · exact Or.inr (Or.inr ⟨deferred, by simp [unwind, deferred, runDeferred]⟩)

theorem returning_hook {s : Call} (armed : Armed s) (stage : s.stage = .returning) :
    s.hook ∈ [.registered, .started, .done] := by
  have shape := armed.shape
  unfold Shape at shape
  rw [stage] at shape
  exact shape.2

theorem armed_unwind {s : Call} (armed : Armed s) (stage : s.stage = .returning) :
    Armed (unwind s) := by
  have hook := returning_hook armed stage
  have inside : s.stage ≠ .exited := by simp [stage]
  obtain ⟨r, returned, past⟩ := armed.began stage
  rcases unwind_cases armed stage with ⟨deferred, next⟩ | ⟨deferred, next⟩ | ⟨deferred, next⟩
  · have none_ : s.armedAt = none := armed.unarmed.mpr (Or.inr (by simp [deferred]))
    rw [next]
    exact { armed with
      shape := by simpa [Shape, stage] using hook
      unarmed := ⟨fun _ => Or.inr (by simp), fun _ => none_⟩
      exit := fun x is => absurd is (no_exit armed inside x) }
  · rw [next]
    exact { armed with
      shape := by simpa [Shape, stage] using hook
      unarmed := by simp [stage]
      noTimer := fun h => nomatch h
      due := fun due is => ⟨s.now, rfl, by cases is; rfl, by cases is; exact Nat.le_add_right _ _⟩
      fired := fun _ _ none_ => nomatch none_
      returned := fun a is => by cases is; exact ⟨r, returned, past⟩
      past := fun a is => by cases is; exact Nat.le_refl _
      exit := fun x is => absurd is (no_exit armed inside x) }
  · have some_ : s.armedAt ≠ none := fun none_ => by
      simpa [stage, deferred] using armed.unarmed.mp none_
    obtain ⟨a, is⟩ := Option.ne_none_iff_exists'.mp some_
    rw [next]
    exact { armed with
      shape := by
        simp only [List.mem_cons, List.not_mem_nil, or_false] at hook
        rcases hook with hook | hook | hook <;> simp [Shape, hook]
      waiting := fun registered => by
        by_cases was : s.hook = .registered
        · simp [was] at registered
        · simp [was] at registered
      heard := fun struck => by
        by_cases was : s.hook = .registered
        · simp [was] at struck
        · exact armed.heard (by simpa [was] using struck)
      unarmed := by simp [is]
      began := fun h => nomatch h
      exit := fun x exits => ⟨rfl, a, is, by cases exits; exact armed.past a is⟩ }

theorem armed_cancelParent {s : Call} (armed : Armed s) : Armed (step s .cancelParent) := by
  cases parent : s.parent with
  | some p => simpa [step, parent] using armed
  | none =>
    have next : step s .cancelParent = { s with
        parent := some s.now, hook := if s.hook = .registered then .started else s.hook } := by
      simp [step, parent]
    rw [next]
    refine { armed with
      shape := ?_, waiting := fun hook => ?_, heard := fun _ => by simp }
    · have shape := armed.shape
      unfold Shape at shape ⊢
      by_cases registered : s.hook = .registered
      · revert shape
        cases s.stage <;> simp [registered]
      · simpa [registered] using shape
    · by_cases registered : s.hook = .registered
      · simp [registered] at hook
      · simp [registered] at hook

/-- Cancelling the trace at a time no later than the timer keeps everything. -/
theorem armed_cancel {s t : Call} (armed : Armed s) (now : t.now = s.now) (shape : Shape t)
    (stage : t.stage = s.stage) (deferred : t.deferred = s.deferred) (registered : t.hook ≠ .registered ∨
      t.hook = s.hook) (heard : t.hook = .started ∨ t.hook = .done → s.parent ≠ none)
    (parent : t.parent = s.parent) (armedAt : t.armedAt = s.armedAt)
    (returnedAt : t.returnedAt = s.returnedAt) (exitedAt : t.exitedAt = s.exitedAt)
    (timer : t.timer = s.timer ∨ t.timer = none)
    (cut : ∀ c, t.cancelled = some c → c ≤ s.now)
    (cancelled : ∀ a, t.armedAt = some a → t.timer = none → ∃ c, t.cancelled = some c ∧ c ≤ a + grace) :
    Armed t where
  shape := shape
  waiting := by
    intro hook
    rw [parent]
    refine armed.waiting ?_
    rcases registered with other | same
    · exact absurd hook other
    · exact same ▸ hook
  heard := by rw [parent]; exact heard
  unarmed := by rw [armedAt, stage, deferred]; exact armed.unarmed
  noTimer := by
    intro none_
    rcases timer with same | gone
    · rw [same]
      exact armed.noTimer (armedAt ▸ none_)
    · exact gone
  due := by
    intro due is
    rcases timer with same | gone
    · rw [armedAt, now]
      exact armed.due due (same ▸ is)
    · simp [gone] at is
  fired := cancelled
  returned := by rw [armedAt, returnedAt]; exact armed.returned
  began := by rw [stage, returnedAt, now]; exact armed.began
  past := by rw [armedAt, now]; exact armed.past
  cut := by rw [now]; exact cut
  exit := by rw [exitedAt, stage, armedAt]; exact armed.exit

theorem cancelTrace_cut {s : Call} (cut : ∀ t, s.cancelled = some t → t ≤ s.now) :
    ∀ c, (cancelTrace s).cancelled = some c → c ≤ s.now := by
  intro c is
  cases was : s.cancelled with
  | none =>
    simp only [cancelTrace, was, Option.getD_none, Option.some.injEq] at is
    exact is.ge
  | some t =>
    simp only [cancelTrace, was, Option.getD_some, Option.some.injEq] at is
    exact is ▸ cut t was

theorem armed_runHook {s : Call} (armed : Armed s) (started : s.hook = .started) :
    Armed (cancelTrace { s with hook := .done }) := by
  refine armed_cancel armed rfl ?_ rfl rfl (Or.inl (by simp [cancelTrace]))
    (fun _ => armed.heard (Or.inl started)) rfl rfl rfl rfl (Or.inl rfl)
    (cancelTrace_cut armed.cut) ?_
  · have shape := armed.shape
    unfold Shape at shape ⊢
    revert shape
    simp only [cancelTrace]
    cases s.stage <;> simp [started]
  · intro a is gone
    obtain ⟨t, cancelled, early⟩ := armed.fired a is gone
    exact ⟨t, by simp [cancelTrace, cancelled], early⟩

theorem armed_fire {s : Call} (armed : Armed s) {due : Nat} (timer : s.timer = some due) :
    Armed (cancelTrace { s with timer := none }) := by
  refine armed_cancel armed rfl armed.shape rfl rfl (Or.inr rfl) armed.heard rfl rfl rfl rfl (Or.inr rfl)
    (cancelTrace_cut armed.cut) ?_
  intro a is _
  obtain ⟨a', is', rfl, ahead⟩ := armed.due due timer
  have same : a' = a := Option.some.inj (is'.symm.trans is)
  subst same
  cases was : s.cancelled with
  | none => exact ⟨s.now, by simp [cancelTrace], ahead⟩
  | some t => exact ⟨t, by simp [cancelTrace], (armed.cut t was).trans ahead⟩

theorem armed_clock {s : Call} (armed : Armed s) {d : Nat} (passes : CanPass d s) :
    Armed { s with now := s.now + d } := by
  refine { armed with
    due := fun due is => ?_
    began := fun stage => ?_
    past := fun a is => (armed.past a is).trans (Nat.le_add_right _ _)
    cut := fun t is => (armed.cut t is).trans (Nat.le_add_right _ _) }
  · obtain ⟨a, at_, same, _⟩ := armed.due due is
    exact ⟨a, at_, same, passes.2 due is⟩
  · obtain ⟨r, is, past⟩ := armed.began stage
    exact ⟨r, is, past.trans (Nat.le_add_right _ _)⟩

theorem armed_step (s : Call) (a : Step) (armed : Armed s) : Armed (step s a) := by
  cases a with
  | enter =>
    rw [step]
    split
    · exact armed_enter armed ‹_›
    · exact armed
  | request result =>
    rw [step]
    split
    · exact armed_request armed ‹_› result
    · exact armed
  | return_ =>
    rw [step]
    split
    · exact armed_return armed (Or.inr ‹_›)
    · exact armed
  | unwind =>
    rw [step]
    split
    · exact armed_unwind armed ‹_›
    · exact armed
  | cancelParent => exact armed_cancelParent armed
  | runHook =>
    rw [step]
    split
    · exact armed_runHook armed ‹_›
    · exact armed
  | fire =>
    rw [step]
    split
    · split
      · exact armed_fire armed ‹_›
      · exact armed
    · exact armed
  | clock d =>
    rw [step]
    split
    · exact armed_clock armed ‹_›
    · exact armed

theorem armed_run (now : Nat) (steps : List Step) : Armed (run step (start now) steps) :=
  run_invariant (P := Armed) armed_step (armed_start now) steps

/-- The caller's context is not cancelled before the deferred calls have run. -/
def Patient (s : Call) (a : Step) : Prop := a = .cancelParent → s.stage = .exited

/-- With a patient caller only the timer cancels the trace. -/
structure Calm (s : Call) : Prop where
  hook : s.hook ≠ .started ∧ s.hook ≠ .done
  parent : s.stage ≠ .exited → s.parent = none
  timed : ∀ t, s.cancelled = some t → ∃ a, s.armedAt = some a ∧ a + grace ≤ t

theorem calm_start (now : Nat) : Calm (start now) :=
  ⟨⟨by simp [start], by simp [start]⟩, fun _ => rfl, fun _ h => nomatch h⟩

theorem calm_enter {s : Call} (calm : Calm s) (stage : s.stage = .entered) : Calm (enter s) := by
  have parent := calm.parent (by simp [stage])
  exact ⟨by simp [enter, parent], fun _ => parent, calm.timed⟩

theorem calm_unwind {s : Call} (armed : Armed s) (calm : Calm s) (stage : s.stage = .returning) :
    Calm (unwind s) := by
  have parent := calm.parent (by simp [stage])
  rcases unwind_cases armed stage with ⟨deferred, next⟩ | ⟨deferred, next⟩ | ⟨deferred, next⟩
  · rw [next]
    exact ⟨calm.hook, calm.parent, calm.timed⟩
  · rw [next]
    refine ⟨calm.hook, fun _ => parent, fun t is => ?_⟩
    obtain ⟨a, armedAt, _⟩ := calm.timed t is
    rw [armed.unarmed.mpr (Or.inr (by simp [deferred]))] at armedAt
    contradiction
  · rw [next]
    refine ⟨?_, fun inside => absurd rfl inside, calm.timed⟩
    by_cases registered : s.hook = .registered
    · simp [registered]
    · simpa [registered] using calm.hook

theorem calm_step (s : Call) (a : Step) (patient : Patient s a) (armed : Armed s) (calm : Calm s) :
    Calm (step s a) := by
  cases a with
  | enter =>
    rw [step]
    split
    · exact calm_enter calm ‹_›
    · exact calm
  | request result =>
    rw [step]
    split
    · rename_i stage
      have parent := calm.parent (by simp [stage])
      cases result <;> exact ⟨calm.hook, fun _ => parent, calm.timed⟩
    · exact calm
  | return_ =>
    rw [step]
    split
    · rename_i stage
      exact ⟨calm.hook, fun _ => calm.parent (by simp [stage]), calm.timed⟩
    · exact calm
  | unwind =>
    rw [step]
    split
    · exact calm_unwind armed calm ‹_›
    · exact calm
  | cancelParent =>
    have exited := patient rfl
    have shape := armed.shape
    unfold Shape at shape
    rw [exited] at shape
    have other : s.hook ≠ .registered := by
      intro registered
      simp [registered] at shape
    cases parent : s.parent with
    | some p => simpa [step, parent] using calm
    | none =>
      have next : step s .cancelParent = { s with parent := some s.now } := by
        simp [step, parent, other]
      rw [next]
      exact ⟨calm.hook, fun inside => absurd exited inside, calm.timed⟩
  | runHook =>
    rw [step, if_neg calm.hook.1]
    exact calm
  | fire =>
    rw [step]
    split
    · rename_i due timer
      split
      · rename_i late
        obtain ⟨a, is, rfl, _⟩ := armed.due due timer
        refine ⟨calm.hook, calm.parent, fun t cancels => ?_⟩
        cases was : s.cancelled with
        | none =>
          simp only [cancelTrace, was, Option.getD_none, Option.some.injEq] at cancels
          exact ⟨a, is, cancels ▸ late⟩
        | some c =>
          simp only [cancelTrace, was, Option.getD_some, Option.some.injEq] at cancels
          exact cancels ▸ calm.timed c was
      · exact calm
    · exact calm
  | clock d =>
    rw [step]
    split
    · exact ⟨calm.hook, calm.parent, calm.timed⟩
    · exact calm

theorem calm_run (now : Nat) (steps : List Step) (patient : EachStep step Patient (start now) steps) :
    Calm (run step (start now) steps) :=
  (run_invariant_of (P := fun s => Armed s ∧ Calm s)
    (fun s a patient kept => ⟨armed_step s a kept.1, calm_step s a patient kept.1 kept.2⟩)
    ⟨armed_start now, calm_start now⟩ patient).2

/-- The caller's context was cancelled at `h` while the call ran and the trace context was
    `before`: the trace is cancelled before the clock moves on. -/
def Struck (h : Nat) (before : Option Nat) (s : Call) : Prop :=
  s.cancelled = some (before.getD h) ∨ s.hook = .started ∧ s.now = h ∧ s.cancelled = before

theorem struck_cancel {h : Nat} {before : Option Nat} {s : Call} (struck : Struck h before s)
    {t : Call} (cancelled : t.cancelled = some (s.cancelled.getD s.now)) : Struck h before t := by
  refine Or.inl (cancelled.trans ?_)
  rcases struck with done | ⟨_, now, same⟩
  · rw [done, Option.getD_some]
  · rw [same, now]

theorem struck_same {h : Nat} {before : Option Nat} {s t : Call} (struck : Struck h before s)
    (cancelled : t.cancelled = s.cancelled) (now : t.now = s.now)
    (hook : s.hook = .started → t.hook = .started) : Struck h before t := by
  rcases struck with done | ⟨started, at_, same⟩
  · exact Or.inl (cancelled.trans done)
  · exact Or.inr ⟨hook started, now.trans at_, cancelled.trans same⟩

theorem runDeferred_keeps (s : Call) (d : Deferred) :
    (runDeferred s d).cancelled = s.cancelled ∧ (runDeferred s d).now = s.now ∧
      (runDeferred s d).stage = s.stage ∧
      (s.hook = .started → (runDeferred s d).hook = .started) := by
  cases d with
  | closeBody | armTimer => exact ⟨rfl, rfl, rfl, id⟩
  | stopOnParent => exact ⟨rfl, rfl, rfl, fun started => by simp [runDeferred, started]⟩

theorem unwind_keeps (s : Call) (inside : s.stage ≠ .entered) :
    (unwind s).cancelled = s.cancelled ∧ (unwind s).now = s.now ∧ (unwind s).stage ≠ .entered ∧
      (s.hook = .started → (unwind s).hook = .started) := by
  unfold unwind
  split
  · exact ⟨rfl, rfl, inside, id⟩
  · obtain ⟨cancelled, now, stage, hook⟩ := runDeferred_keeps
      { s with deferred := [], stage := .exited, exitedAt := some s.now } ‹_›
    exact ⟨cancelled, now, by simp [stage], hook⟩
  · obtain ⟨cancelled, now, stage, hook⟩ := runDeferred_keeps { s with deferred := ‹_› } ‹_›
    exact ⟨cancelled, now, by simpa [stage] using inside, hook⟩

theorem struck_step (h : Nat) (before : Option Nat) (s : Call) (a : Step)
    (kept : s.stage ≠ .entered ∧ Struck h before s) :
    (step s a).stage ≠ .entered ∧ Struck h before (step s a) := by
  obtain ⟨inside, struck⟩ := kept
  cases a with
  | enter =>
    rw [step, if_neg inside]
    exact ⟨inside, struck⟩
  | request result =>
    rw [step]
    split
    · cases result <;> exact ⟨by simp [request], struck_same struck rfl rfl id⟩
    · exact ⟨inside, struck⟩
  | return_ =>
    rw [step]
    split
    · exact ⟨by simp, struck_same struck rfl rfl id⟩
    · exact ⟨inside, struck⟩
  | unwind =>
    rw [step]
    split
    · obtain ⟨cancelled, now, stage, hook⟩ := unwind_keeps s inside
      exact ⟨stage, struck_same struck cancelled now hook⟩
    · exact ⟨inside, struck⟩
  | cancelParent =>
    rw [step]
    split
    · exact ⟨inside, struck⟩
    · exact ⟨inside, struck_same struck rfl rfl fun started => by simp [started]⟩
  | runHook =>
    rw [step]
    split
    · exact ⟨inside, struck_cancel struck rfl⟩
    · exact ⟨inside, struck⟩
  | fire =>
    rw [step]
    split
    · split
      · exact ⟨inside, struck_cancel struck rfl⟩
      · exact ⟨inside, struck⟩
    · exact ⟨inside, struck⟩
  | clock d =>
    rw [step]
    split
    · rename_i passes
      refine ⟨inside, Or.inl ?_⟩
      exact struck.resolve_right fun waits => passes.1 waits.1
    · exact ⟨inside, struck⟩

/-- The call is under way: its stream is started and its deferred calls have not all run. -/
def Running (s : Call) : Prop := s.stage ≠ .entered ∧ s.stage ≠ .exited

theorem struck_cancelParent {s : Call} (armed : Armed s) (running : Running s)
    (live : s.parent = none) :
    (step s .cancelParent).stage ≠ .entered ∧ Struck s.now s.cancelled (step s .cancelParent) := by
  have registered : s.hook = .registered := by
    have quiet : ¬ (s.hook = .started ∨ s.hook = .done) := fun struck => armed.heard struck live
    have shape := armed.shape
    unfold Shape at shape
    revert shape
    cases stage : s.stage with
    | entered => exact absurd stage running.1
    | exited => exact absurd stage running.2
    | calling | replied | returning =>
      intro shape
      have hook := shape.2
      simp only [List.mem_cons, List.not_mem_nil, or_false] at hook
      exact hook.resolve_right quiet
  have next : step s .cancelParent = { s with parent := some s.now, hook := .started } := by
    simp [step, live, registered]
  rw [next]
  exact ⟨running.1, Or.inr ⟨rfl, rfl, rfl⟩⟩

/-- What needs no one's help: the goroutine, the timer and the passing of time. -/
def Internal (a : Step) : Prop := a = .runHook ∨ a = .fire ∨ ∃ d, a = .clock d

theorem internal_hook (s : Call) : (step s .runHook).hook ≠ .started ∧
    (step s .runHook).timer = s.timer ∧ (step s .runHook).now = s.now := by
  rw [step]
  split
  · exact ⟨by simp [cancelTrace], rfl, rfl⟩
  · exact ⟨‹_›, rfl, rfl⟩

/-- Time can always pass: what is due runs, and the clock moves on. -/
theorem time_passes {s : Call} (armed : Armed s) (time : Nat) :
    ∃ steps, (∀ a ∈ steps, Internal a) ∧ time ≤ (run step s steps).now := by
  obtain ⟨quiet, timer, now⟩ := internal_hook s
  have free {t : Call} (still : t.hook ≠ .started) (none_ : t.timer = none) :
      (step t (.clock time)).now = t.now + time := by
    rw [step, if_pos ⟨still, by simp [none_]⟩]
  cases is : s.timer with
  | none =>
    refine ⟨[.runHook, .clock time], by simp [Internal], ?_⟩
    rw [run_cons, run_cons, run_nil, free quiet (timer.trans is)]
    exact Nat.le_add_left _ _
  | some due =>
    obtain ⟨_, _, _, ahead⟩ := armed.due due is
    refine ⟨[.runHook, .clock (due - s.now), .fire, .clock time], by simp [Internal], ?_⟩
    rw [run_cons]
    generalize step s .runHook = t at quiet timer now
    rw [is] at timer
    have waited : step t (.clock (due - s.now)) = { t with now := due } := by
      have reaches : t.now + (due - s.now) = due := by omega
      rw [step, if_pos ⟨quiet, by simp [timer, reaches]⟩, reaches]
    have fired : step { t with now := due } .fire =
        cancelTrace { t with now := due, timer := none } := by
      simp [step, timer]
    have last := @free (cancelTrace { t with now := due, timer := none }) quiet rfl
    rw [run_cons, run_cons, run_cons, run_nil, waited, fired, last]
    exact Nat.le_add_left _ _

end SwaGrace
