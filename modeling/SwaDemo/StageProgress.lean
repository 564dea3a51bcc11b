import SwaDemo.EngineSteps
import Mathlib.Order.MinMax
import Mathlib.Tactic.Tauto

/-!
The stage of a running resolve. The subscriber keeps the highest stage seen in a ref
and mirrors it into two cells; neither the order of the events nor their repetition
matters. `Beat` is whatever reaches the engine while a run goes on without an error
event, a response, a new run or a reset.
-/
namespace SwaEngine
open Runs Page
open SwaPace (Host Op Signal PaceEvent Settled)

inductive Beat where
  | event (now : Int) (ev : PaceEvent)
  | walking
  | commit
  | effect
  | tick (now : Int)

variable {Body : Type}

def beat (host : Host) (e : Engine Body) : Beat → Engine Body
  | .event now ev => e.onEvent host now ev
  | .walking => e.queue [.setStatusWalking]
  | .commit => e.commit
  | .effect => e.effect
  | .tick now => e.tick now

def Beat.type? : Beat → Option String
  | .event _ ev => some ev.type
  | _ => none

def typesOf (beats : List Beat) : List String := beats.filterMap Beat.type?

/-- The highest stage among some event types, -1 where none has a stage. -/
def highest (types : List String) : Int :=
  types.foldl (fun top type => max top (eventToStage type)) (-1)

/-- A run has been committed and no event of it was delivered yet. -/
structure JustRunning (e : Engine Body) : Prop where
  statusRef : e.statusRef = .running
  status : e.cells.status = .running
  stage : e.cells.stage = -1
  completed : e.cells.completed = 0
  maxStage : e.maxStage = -1
  updates : e.updates = []

/-- The state of a run whose highest stage is `top`: the ref and the two cells agree,
    and what is shown is not ahead of what is queued. -/
structure Progress (top : Int) (e : Engine Body) : Prop where
  statusRef : e.statusRef = .running
  shown : e.cells.status = .running
  status : e.pending.status = .running
  maxStage : e.maxStage = top
  stage : e.pending.stage = top
  completed : e.pending.completed = max top 0
  stageBehind : e.cells.stage ≤ top
  completedBehind : e.cells.completed ≤ max top 0

/-- Neither cell goes down, be it the one shown or the one a commit would show. -/
structure Climbs (e e' : Engine Body) : Prop where
  stage : e.pending.stage ≤ e'.pending.stage
  completed : e.pending.completed ≤ e'.pending.completed
  stageShown : e.cells.stage ≤ e'.cells.stage
  completedShown : e.cells.completed ≤ e'.cells.completed

theorem highest_concat (types : List String) (type : String) :
    highest (types ++ [type]) = max (highest types) (eventToStage type) := by
  simp [highest, List.foldl_append]

theorem foldl_max_le_iff (types : List String) (top bound : Int) :
    types.foldl (fun top type => max top (eventToStage type)) top ≤ bound ↔
      top ≤ bound ∧ ∀ type ∈ types, eventToStage type ≤ bound := by
  induction types generalizing top with
  | nil => simp
  | cons type types ih => simp [ih, and_assoc]

theorem highest_le_iff (types : List String) (bound : Int) :
    highest types ≤ bound ↔ -1 ≤ bound ∧ ∀ type ∈ types, eventToStage type ≤ bound :=
  foldl_max_le_iff types (-1) bound

theorem highest_same {xs ys : List String} (same : ∀ type, type ∈ xs ↔ type ∈ ys) :
    highest xs = highest ys := by
  refine eq_of_forall_ge_iff fun bound => ?_
  rw [highest_le_iff, highest_le_iff]
  simp [same]

theorem highest_floor (types : List String) : -1 ≤ highest types :=
  ((highest_le_iff types _).mp le_rfl).1

theorem climbs_refl (e : Engine Body) : Climbs e e := ⟨le_rfl, le_rfl, le_rfl, le_rfl⟩

theorem climbs_trans {e f g : Engine Body} (first : Climbs e f) (second : Climbs f g) :
    Climbs e g :=
  ⟨first.stage.trans second.stage, first.completed.trans second.completed,
    first.stageShown.trans second.stageShown, first.completedShown.trans second.completedShown⟩

theorem justRunning_progress {e : Engine Body} (just : JustRunning e) : Progress (-1) e := by
  have pending : e.pending = e.cells := by rw [Engine.pending, just.updates, List.foldl_nil]
  exact {
    statusRef := just.statusRef
    shown := just.status
    status := pending ▸ just.status
    maxStage := just.maxStage
    stage := pending ▸ just.stage
    completed := pending ▸ just.completed
    stageBehind := just.stage.le
    completedBehind := just.completed.le }

/-- A step that leaves the ref and the two queued values alone, and shows at most these. -/
theorem progress_kept {top : Int} {e e' : Engine Body} (progress : Progress top e)
    (ref : e'.statusRef = .running) (shown : e'.cells.status = .running)
    (status : e'.pending.status = .running) (maxStage : e'.maxStage = e.maxStage)
    (stage : e'.pending.stage = e.pending.stage)
    (completed : e'.pending.completed = e.pending.completed)
    (cells : e'.cells.stage = e.cells.stage ∧ e'.cells.completed = e.cells.completed ∨
      e'.cells.stage = top ∧ e'.cells.completed = max top 0) :
    Progress top e' ∧ Climbs e e' := by
  have behind : e'.cells.stage ≤ top ∧ e'.cells.completed ≤ max top 0 ∧
      e.cells.stage ≤ e'.cells.stage ∧ e.cells.completed ≤ e'.cells.completed := by
    have := progress.stageBehind
    have := progress.completedBehind
    omega
  obtain ⟨stageBehind, completedBehind, stageShown, completedShown⟩ := behind
  exact ⟨{
    statusRef := ref
    shown := shown
    status := status
    maxStage := maxStage.trans progress.maxStage
    stage := stage.trans progress.stage
    completed := completed.trans progress.completed
    stageBehind := stageBehind
    completedBehind := completedBehind }, ⟨stage.ge, completed.ge, stageShown, completedShown⟩⟩

theorem progress_event (host : Host) (now : Int) {top : Int} {e : Engine Body} {ev : PaceEvent}
    (progress : Progress top e) (floor : -1 ≤ top) (ok : isErrorEvent ev.type = false) :
    Progress (max top (eventToStage ev.type)) (e.onEvent host now ev) ∧
      Climbs e (e.onEvent host now ev) := by
  have plain := Engine.onEvent_plain host now e ok
  have ref := plain.statusRef.trans progress.statusRef
  have status := plain.status.trans progress.status
  have shown : (e.onEvent host now ev).cells.status = .running := by
    rw [plain.cells]
    exact progress.shown
  by_cases forward : Engine.Advances e ev
  · obtain ⟨maxStage, stage, completed⟩ := plain.advanced forward
    obtain ⟨_, staged, higher⟩ := forward
    rw [progress.maxStage] at higher
    have stageBehind := progress.stageBehind
    have completedBehind := progress.completedBehind
    have before := progress.stage
    have before' := progress.completed
    rw [max_eq_right higher.le]
    have cells := plain.cells
    refine ⟨⟨ref, shown, status, maxStage, stage, ?_, ?_, ?_⟩, ⟨?_, ?_, ?_, ?_⟩⟩
    · rw [completed, max_eq_left staged]
    · rw [cells]
      omega
    · rw [cells]
      omega
    · omega
    · omega
    · rw [cells]
    · rw [cells]
  · obtain ⟨maxStage, stage, completed⟩ := plain.kept forward
    have low : eventToStage ev.type ≤ top := by
      by_contra higher
      refine forward ⟨progress.statusRef, by omega, ?_⟩
      rw [progress.maxStage]
      omega
    rw [max_eq_left low]
    refine progress_kept progress ref shown status maxStage stage completed (Or.inl ?_)
    rw [plain.cells]
    exact ⟨rfl, rfl⟩

theorem effect_refs {top : Int} {e : Engine Body} (progress : Progress top e) :
    e.effect.statusRef = .running ∧ e.effect.cells = e.cells ∧ e.effect.maxStage = e.maxStage := by
  unfold Engine.effect
  split
  · exact ⟨progress.shown, rfl, rfl⟩
  · exact ⟨progress.statusRef, rfl, rfl⟩

theorem progress_quiet (host : Host) {top : Int} {e : Engine Body} {b : Beat}
    (progress : Progress top e) (quiet : b.type? = none) :
    Progress top (beat host e b) ∧ Climbs e (beat host e b) := by
  cases b with
  | event now ev => contradiction
  | walking =>
    have same : (e.queue [.setStatusWalking]).pending = e.pending := by
      rw [Engine.pending_queue]
      cases shown : e.pending with
      | mk status stage completed jwtTtl jwtFraction result error =>
        have running := progress.status
        rw [shown] at running
        simp only at running
        simp [Update.apply, running]
    refine progress_kept progress progress.statusRef progress.shown ?_ rfl ?_ ?_ (Or.inl ⟨rfl, rfl⟩)
    · exact (congrArg _ same).trans progress.status
    · exact congrArg _ same
    · exact congrArg _ same
  | commit =>
    obtain ⟨ref, _, maxStage⟩ := effect_refs progress
    have cells : e.commit.cells = e.pending := Engine.commit_cells e
    refine progress_kept progress ref ?_ ?_ maxStage ?_ ?_ (Or.inr ⟨?_, ?_⟩)
    · exact (congrArg _ cells).trans progress.status
    · exact (congrArg _ (Engine.commit_pending e)).trans progress.status
    · exact congrArg _ (Engine.commit_pending e)
    · exact congrArg _ (Engine.commit_pending e)
    · exact (congrArg _ cells).trans progress.stage
    · exact (congrArg _ cells).trans progress.completed
  | effect =>
    obtain ⟨ref, cells, maxStage⟩ := effect_refs progress
    have pending := Engine.effect_pending e
    refine progress_kept progress ref ?_ ?_ maxStage ?_ ?_ (Or.inl ⟨?_, ?_⟩)
    · exact (congrArg _ cells).trans progress.shown
    · exact (congrArg _ pending).trans progress.status
    · exact congrArg _ pending
    · exact congrArg _ pending
    · exact congrArg _ cells
    · exact congrArg _ cells
  | tick now =>
    have same := Engine.tick_same now e
    refine progress_kept progress (same.statusRef.trans progress.statusRef) ?_
      (same.status.trans progress.status) same.maxStage same.stage same.completed (Or.inl ⟨?_, ?_⟩)
    · exact (congrArg _ same.cells).trans progress.shown
    · exact congrArg _ same.cells
    · exact congrArg _ same.cells

theorem progress_beat (host : Host) {types : List String} {e : Engine Body} {b : Beat}
    (progress : Progress (highest types) e)
    (ok : ∀ type, b.type? = some type → isErrorEvent type = false) :
    Progress (highest (types ++ b.type?.toList)) (beat host e b) ∧ Climbs e (beat host e b) := by
  cases seen : b.type? with
  | none =>
    rw [Option.toList_none, List.append_nil]
    exact progress_quiet host progress seen
  | some type =>
    cases b with
    | event now ev =>
      cases seen
      rw [Option.toList_some, highest_concat]
      exact progress_event host now progress (highest_floor types) (ok ev.type rfl)
    | walking | commit | effect | tick => contradiction

theorem progress_run (host : Host) {e : Engine Body} (just : JustRunning e) {beats : List Beat}
    (ok : ∀ type ∈ typesOf beats, isErrorEvent type = false) :
    Progress (highest (typesOf beats)) (run (beat host) e beats) := by
  induction beats using List.reverseRecOn with
  | nil => exact justRunning_progress just
  | append_singleton beats b ih =>
    have split : typesOf (beats ++ [b]) = typesOf beats ++ b.type?.toList := by
      cases seen : b.type? <;> simp [typesOf, seen]
    rw [split] at ok ⊢
    rw [run_concat]
    refine (progress_beat host (ih fun type mem => ok type (by simp [mem])) ?_).1
    intro type seen
    exact ok type (by simp [seen])

theorem climbs_run (host : Host) {e : Engine Body} {types : List String} {beats : List Beat}
    (progress : Progress (highest types) e)
    (ok : ∀ type ∈ typesOf beats, isErrorEvent type = false) : Climbs e (run (beat host) e beats) := by
  induction beats generalizing e types with
  | nil => exact climbs_refl e
  | cons b beats ih =>
    obtain ⟨next, first⟩ := progress_beat host (b := b) progress fun type seen =>
      ok type (by simp [typesOf, seen])
    refine climbs_trans first (ih next fun type mem => ok type ?_)
    cases seen : b.type? with
    | none => simpa [typesOf, seen] using mem
    | some head => simpa [typesOf, seen] using Or.inr (by simpa [typesOf] using mem)

/-- What an action brings to the engine, where it is no run, reset or response. -/
def beatsOf (host : Host) (s : Page Body) (a : Action Body) : List Beat :=
  match a with
  | .commit => [.commit]
  | .effect => [.effect]
  | .tick => if s.engine.ticker.timer then [.tick s.now] else []
  | _ => (a.op?.elim [] (freshSignals host s.pace)).filterMap fun
    | .event a => some (.event s.now a.ev)
    | .state .walking => some .walking
    | .state .idle => none

def Ongoing : Action Body → Prop
  | .run _ _ | .reset | .respond _ _ => False
  | _ => True

theorem hear_beats (host : Host) (now : Int) (signals : List Signal) (e : Engine Body) :
    e.hear host now signals = run (beat host) e (signals.filterMap fun
      | .event a => some (.event now a.ev)
      | .state .walking => some .walking
      | .state .idle => none) := by
  induction signals generalizing e with
  | nil => rfl
  | cons signal signals ih =>
    cases signal with
    | event a => exact ih (e.onEvent host now a.ev)
    | state st =>
      cases st with
      | walking => exact ih (e.queue [.setStatusWalking])
      | idle => exact ih e

theorem step_beats (host : Host) {s : Page Body} {a : Action Body} (ongoing : Ongoing a) :
    (step host s a).engine = run (beat host) s.engine (beatsOf host s a) := by
  cases a with
  | run | reset | respond => exact absurd ongoing id
  | sse | expire | setPace | skip => exact hear_beats host s.now _ s.engine
  | commit | effect | clock => rfl
  | tick =>
    rw [step, tick, beatsOf]
    cases s.engine.ticker.timer with
    | true => rfl
    | false => rfl

theorem typesOf_signals (now : Int) (signals : List Signal) :
    typesOf (signals.filterMap fun
      | .event a => some (.event now a.ev)
      | .state .walking => some .walking
      | .state .idle => none) = (events signals).map (·.type) := by
  induction signals with
  | nil => rfl
  | cons signal signals ih =>
    cases signal with
    | event a => exact congrArg (a.ev.type :: ·) ih
    | state st => cases st <;> exact ih

theorem typesOf_beatsOf (host : Host) (s : Page Body) (a : Action Body) :
    typesOf (beatsOf host s a) = (s.heard host a).map (·.type) := by
  cases a with
  | run | reset | respond | commit | effect | clock => rfl
  | sse | expire | setPace | skip => exact typesOf_signals s.now _
  | tick =>
    rw [beatsOf]
    split <;> rfl

def heardTypes (host : Host) (s : Page Body) (acts : List (Action Body)) : List String :=
  history (fun s a => some (step host s a)) (fun s a => (s.heard host a).map (·.type)) s acts

/-- The page's engine beats as long as no run, reset or response comes. -/
theorem page_beats (host : Host) (s : Page Body) (acts : List (Action Body))
    (ongoing : ∀ a ∈ acts, Ongoing a) :
    ∃ beats, (run (step host) s acts).engine = run (beat host) s.engine beats ∧
      typesOf beats = heardTypes host s acts := by
  induction acts generalizing s with
  | nil => exact ⟨[], rfl, rfl⟩
  | cons a acts ih =>
    obtain ⟨beats, later, types⟩ := ih (step host s a) fun b mem => ongoing b (by simp [mem])
    refine ⟨beatsOf host s a ++ beats, ?_, ?_⟩
    · rw [run_cons, later, step_beats host (ongoing a (by simp)), run_append]
    · have joined : typesOf (beatsOf host s a ++ beats) =
          typesOf (beatsOf host s a) ++ typesOf beats := by simp [typesOf]
      rw [joined, typesOf_beatsOf, types]
      rfl

/-- The effect that copies the status is due wherever the ref is behind. -/
def RefFollows (e : Engine Body) : Prop := e.effectDue = true ∨ e.statusRef = e.cells.status

theorem onEvent_effectDue (host : Host) (now : Int) (ev : PaceEvent) (e : Engine Body) :
    (e.onEvent host now ev).effectDue = e.effectDue := by
  have ticked (e : Engine Body) : (e.tick now).effectDue = e.effectDue := by
    unfold Engine.tick
    split <;> rfl
  have seen (e : Engine Body) : (e.seeJwt host now ev).effectDue = e.effectDue := by
    unfold Engine.seeJwt
    split
    · split
      · rw [ticked]
      · rfl
    · rfl
  have advanced (idx : Int) (e : Engine Body) : (e.advanceStage idx).effectDue = e.effectDue := by
    unfold Engine.advanceStage
    split <;> rfl
  unfold Engine.onEvent
  rw [Engine.seePeerUri_eq]
  split
  · rfl
  · split
    · rw [advanced, seen]
    · rw [seen]

theorem effect_follows (e : Engine Body) (follows : RefFollows e) :
    e.effect.statusRef = e.cells.status ∧ e.effect.cells = e.cells := by
  unfold Engine.effect
  split
  · exact ⟨rfl, rfl⟩
  · rename_i idle
    exact ⟨follows.resolve_left (by simp [idle]), rfl⟩

theorem refFollows_commit {e : Engine Body} (follows : RefFollows e) : RefFollows e.commit := by
  obtain ⟨ref, cells⟩ := effect_follows e follows
  by_cases same : e.effect.pending.status = e.effect.cells.status
  · exact Or.inr (ref.trans (cells ▸ same.symm))
  · exact Or.inl (decide_eq_true same)

theorem refFollows_effect {e : Engine Body} (follows : RefFollows e) : RefFollows e.effect := by
  obtain ⟨ref, cells⟩ := effect_follows e follows
  exact Or.inr (ref.trans (congrArg _ cells.symm))

theorem refFollows_hear (host : Host) (now : Int) (signals : List Signal) {e : Engine Body}
    (follows : RefFollows e) : RefFollows (e.hear host now signals) := by
  refine Engine.hear_invariant (P := RefFollows) host now ?_ (fun _ kept => kept) follows
  intro ev _ e kept
  obtain ⟨ref, cells, _⟩ := Engine.onEvent_refs host now ev e
  unfold RefFollows
  rw [onEvent_effectDue, ref, cells]
  exact kept

theorem refFollows_step (host : Host) (s : Page Body) (a : Action Body)
    (follows : RefFollows s.engine) : RefFollows (step host s a).engine := by
  cases a with
  | run | reset | clock => exact follows
  | respond id response =>
    rw [step, respond]
    split
    · cases response <;> exact follows
    · exact follows
  | sse | expire | setPace | skip => exact refFollows_hear host s.now _ follows
  | commit => exact refFollows_commit follows
  | effect => exact refFollows_effect follows
  | tick =>
    rw [step, tick]
    split
    · unfold Engine.tick
      split <;> exact follows
    · exact follows

theorem justRunning_after_run (host : Host) (now : Int) (acts : List (Action Body))
    (carrier : Carrier) (shipmentId : String) :
    JustRunning (run (step host) (initial now : Page Body)
      (acts ++ [.run carrier shipmentId, .commit, .effect])).engine := by
  have follows : RefFollows (run (step host) (initial now : Page Body) acts).engine :=
    run_invariant (P := fun s : Page Body => RefFollows s.engine) (refFollows_step host)
      (Or.inr rfl) acts
  rw [run_append]
  generalize run (step host) (initial now : Page Body) acts = s at follows
  have started : RefFollows (s.engine.run s.now) := follows
  have reset : (s.engine.run s.now).pending = { s.engine.pending with
      status := .running, stage := -1, completed := 0, result := none, error := none } := by
    simp [Engine.run, Update.apply, Engine.pending, Engine.queue]
  obtain ⟨ref, cells⟩ := effect_follows _ (refFollows_commit started)
  have shown : (s.engine.run s.now).commit.cells = (s.engine.run s.now).pending :=
    Engine.commit_cells _
  rw [shown, reset] at ref cells
  have maxStage : (s.engine.run s.now).commit.effect.maxStage = -1 := by
    unfold Engine.commit Engine.effect
    split <;> split <;> rfl
  have updates : (s.engine.run s.now).commit.effect.updates = [] := by
    unfold Engine.effect
    split <;> rfl
  exact {
    statusRef := ref
    status := congrArg (·.status) cells
    stage := congrArg (·.stage) cells
    completed := congrArg (·.completed) cells
    maxStage := maxStage
    updates := updates }

/-- The stage a page shows while a resolve runs is the highest one it has heard of. -/
theorem page_stage (host : Host) {s : Page Body} (just : JustRunning s.engine)
    {acts : List (Action Body)} (ongoing : ∀ a ∈ acts, Ongoing a)
    (ok : ∀ type ∈ heardTypes host s acts, isErrorEvent type = false) :
    (run (step host) s acts).engine.pending.stage = highest (heardTypes host s acts) ∧
      (run (step host) s acts).engine.pending.completed =
        max (highest (heardTypes host s acts)) 0 := by
  obtain ⟨beats, engine, types⟩ := page_beats host s acts ongoing
  rw [← types] at ok ⊢
  rw [engine]
  have progress := progress_run host just ok
  exact ⟨progress.stage, progress.completed⟩

/-- A page's engine after a run, the commit that shows it and the effect. -/
def runningEngine : Engine Nat :=
  (run (step ⟨fun _ => .nan, fun _ => none⟩) (initial 0)
    [.run .internal "SHP-2049-883", .commit, .effect]).engine

end SwaEngine
