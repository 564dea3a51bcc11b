import SwaDemo.EngineSteps

/-!
The stage indicator after a finished resolve. The subscriber asks `statusRef`, which
still says running between the OK response and the effect of the commit that shows
it; an event that advances the stage in that window moves a finished display.
-/
namespace SwaEngine
open Runs Page
open SwaPace (Host Op Signal PaceEvent)

variable {Body : Type}

/-- The action belongs to the time between a run and the next run or reset, and a
    response it carries is an OK one. -/
def Continues : Action Body → Prop
  | .run _ _ => False
  | .reset => False
  | .respond _ (.ok _) => True
  | .respond _ _ => False
  | _ => True

def NoError (host : Host) (s : Page Body) (a : Action Body) : Prop :=
  ∀ ev ∈ s.heard host a, isErrorEvent ev.type = false

instance (host : Host) (s : Page Body) (a : Action Body) : Decidable (NoError host s a) :=
  inferInstanceAs (Decidable (∀ ev ∈ s.heard host a, _))

/-- An event advances the stage although the queued updates already say done. -/
def Rewinds (host : Host) (s : Page Body) (a : Action Body) : Prop :=
  s.engine.pending.status = .done ∧ NoError host s a ∧
    ∃ ev ∈ s.heard host a, Engine.Advances s.engine ev

instance (host : Host) (s : Page Body) (a : Action Body) : Decidable (Rewinds host s a) :=
  inferInstanceAs (Decidable (_ ∧ _ ∧ ∃ ev ∈ s.heard host a, _))

def Rested (cells : Cells Body) : Prop :=
  cells.status = .done → cells.stage = -1 ∧ cells.completed = 6

/-- Once a committed state has status done, every later one rests, as long as no error
    event is delivered. -/
def NeverRewinds (host : Host) (start : Page Body) (acts : List (Action Body)) : Prop :=
  ∀ before after later, acts = before ++ .commit :: (after ++ .commit :: later) →
    (run (step host) start (before ++ [.commit])).engine.cells.status = .done →
    EachStep (step host) (NoError host) (run (step host) start (before ++ [.commit])) after →
    (run (step host) start (before ++ .commit :: (after ++ [.commit]))).engine.cells.stage = -1 ∧
      (run (step host) start (before ++ .commit :: (after ++ [.commit]))).engine.cells.completed = 6

theorem advances_congr {e e' : Engine Body} {ev : PaceEvent} (status : e'.statusRef = e.statusRef)
    (stage : e'.maxStage = e.maxStage) : Engine.Advances e' ev ↔ Engine.Advances e ev := by
  unfold Engine.Advances
  rw [status, stage]

theorem hear_rests (host : Host) (now : Int) {signals : List Signal} {e : Engine Body}
    (done : (e.hear host now signals).pending.status = .done)
    (held : ∀ ev ∈ events signals, ¬ Engine.Advances e ev) :
    (e.hear host now signals).pending.stage = e.pending.stage ∧
      (e.hear host now signals).pending.completed = e.pending.completed := by
  have clean := Engine.hear_no_error host now done
  have unmoved : (e.hear host now signals).maxStage = e.maxStage ∧
      (e.hear host now signals).statusRef = e.statusRef ∧
      (e.hear host now signals).pending.stage = e.pending.stage ∧
      (e.hear host now signals).pending.completed = e.pending.completed := by
    refine Engine.hear_invariant (P := fun t : Engine Body => t.maxStage = e.maxStage ∧
      t.statusRef = e.statusRef ∧ t.pending.stage = e.pending.stage ∧
      t.pending.completed = e.pending.completed) host now ?_ ?_ ⟨rfl, rfl, rfl, rfl⟩
    · rintro ev mem t ⟨top, ref, stage, completed⟩
      have plain := Engine.onEvent_plain host now t (clean ev mem)
      have still : ¬ Engine.Advances t ev :=
        fun forward => held ev mem ((advances_congr ref top).mp forward)
      obtain ⟨top', stage', completed'⟩ := plain.kept still
      exact ⟨top'.trans top, plain.statusRef.trans ref, stage'.trans stage,
        completed'.trans completed⟩
    · rintro t ⟨top, ref, stage, completed⟩
      refine ⟨top, ref, ?_⟩
      rcases Engine.walking_pending t with same | ⟨started, _⟩
      · rw [same]
        exact ⟨stage, completed⟩
      · rw [started]
        exact ⟨stage, completed⟩
  exact unmoved.2.2

theorem hear_moves (host : Host) (now : Int) {signals : List Signal} {e : Engine Body}
    (clean : ∀ ev ∈ events signals, isErrorEvent ev.type = false)
    (moved : 0 ≤ e.pending.stage ∨ ∃ ev ∈ events signals, Engine.Advances e ev) :
    0 ≤ (e.hear host now signals).pending.stage := by
  induction signals generalizing e with
  | nil =>
    rcases moved with shown | ⟨ev, mem, _⟩
    · exact shown
    · simp at mem
  | cons signal signals ih =>
    cases signal with
    | event a =>
      have plain := Engine.onEvent_plain host now e (clean a.ev (by simp))
      rw [Engine.hear_event]
      refine ih (fun ev mem => clean ev (by simp [mem])) ?_
      by_cases forward : Engine.Advances e a.ev
      · obtain ⟨_, stage, _⟩ := plain.advanced forward
        rw [stage]
        exact Or.inl forward.2.1
      · obtain ⟨top, stage, _⟩ := plain.kept forward
        rw [stage]
        rcases moved with shown | ⟨ev, mem, goes⟩
        · exact Or.inl shown
        · rcases List.mem_cons.mp mem with rfl | mem
          · exact absurd goes forward
          · exact Or.inr ⟨ev, mem, (advances_congr plain.statusRef top).mpr goes⟩
    | state st =>
      cases st with
      | idle => exact ih clean moved
      | walking =>
        rw [Engine.hear_walking]
        refine ih clean ?_
        rcases moved with shown | forward
        · rcases Engine.walking_pending e with same | ⟨started, _⟩
          · rw [same]
            exact Or.inl shown
          · rw [started]
            exact Or.inl shown
        · exact Or.inr forward

theorem heard_pace (host : Host) (s : Page Body) {a : Action Body} {op : Op} (acts : a.op? = some op) :
    s.heard host a = events (freshSignals host s.pace op) := by
  simp [heard, acts]

theorem rested_pace (host : Host) {s : Page Body} {a : Action Body} {op : Op} (acts : a.op? = some op)
    (steady : ¬ Rewinds host s a) (rested : Rested s.engine.pending) :
    Rested (s.paceStep host op).engine.pending := by
  intro done
  rw [paceStep_engine] at done ⊢
  have was := (Engine.hear_done host s.now done).1
  have clean := Engine.hear_no_error host s.now done
  have held : ∀ ev ∈ events (freshSignals host s.pace op), ¬ Engine.Advances s.engine ev := by
    intro ev mem forward
    refine steady ⟨was, ?_, ev, ?_, forward⟩
    · rw [NoError, heard_pace host s acts]
      exact clean
    · rw [heard_pace host s acts]
      exact mem
  obtain ⟨stage, completed⟩ := hear_rests host s.now done held
  rw [stage, completed]
  exact rested was

theorem rested_step (host : Host) (s : Page Body) (a : Action Body) (steady : ¬ Rewinds host s a)
    (rested : Rested s.engine.pending) : Rested (step host s a).engine.pending := by
  cases a with
  | run carrier shipmentId =>
    intro done
    simp [step, Page.run, Engine.run, Update.apply] at done
  | reset =>
    intro done
    simp [step, Page.reset, Engine.reset, Update.apply] at done
  | respond id response =>
    simp only [step, respond]
    split
    · intro done
      cases response with
      | ok data => simp [Engine.settle, Update.apply]
      | notOk status text => simp [Engine.settle, Update.apply] at done
      | failed err => simp [Engine.settle, Update.apply] at done
    · exact rested
  | sse msg => exact rested_pace host rfl steady rested
  | expire h => exact rested_pace host rfl steady rested
  | setPace value => exact rested_pace host rfl steady rested
  | skip => exact rested_pace host rfl steady rested
  | commit => simpa [step] using rested
  | effect => simpa [step] using rested
  | tick =>
    obtain ⟨e, ticked, same⟩ := tick_ttl s
    rw [step, ticked]
    intro done
    rw [same.stage, same.completed]
    exact rested (same.status.symm.trans done)
  | clock now => exact rested

theorem done_step (host : Host) (s : Page Body) (a : Action Body) (continues : Continues a)
    (clean : NoError host s a) (done : s.engine.pending.status = .done) :
    (step host s a).engine.pending.status = .done := by
  cases a with
  | run carrier shipmentId => exact absurd continues id
  | reset => exact absurd continues id
  | respond id response =>
    cases response with
    | ok data =>
      simp only [step, respond]
      split
      · simp [Engine.settle, Update.apply]
      · exact done
    | notOk status text => exact absurd continues (fun h => h)
    | failed err => exact absurd continues (fun h => h)
  | sse msg => exact Engine.hear_stays_done host s.now clean done
  | expire h => exact Engine.hear_stays_done host s.now clean done
  | setPace value => exact Engine.hear_stays_done host s.now clean done
  | skip => exact Engine.hear_stays_done host s.now clean done
  | commit => simpa [step] using done
  | effect => simpa [step] using done
  | tick =>
    obtain ⟨e, ticked, same⟩ := tick_ttl s
    rw [step, ticked]
    exact same.status.trans done
  | clock now => exact done

theorem step_commit (host : Host) (s : Page Body) :
    (step host s .commit).engine.cells = s.engine.pending := by
  simp [step]

theorem rested_run (host : Host) {s : Page Body} {acts : List (Action Body)}
    (start : Rested s.engine.pending)
    (steady : EachStep (step host) (fun t a => ¬ Rewinds host t a) s acts) :
    Rested (run (step host) s acts).engine.pending :=
  run_invariant_of (P := fun t : Page Body => Rested t.engine.pending)
    (rested_step host) start steady

theorem done_run (host : Host) {s : Page Body} {acts : List (Action Body)}
    (start : s.engine.pending.status = .done) (continues : ∀ a ∈ acts, Continues a)
    (clean : EachStep (step host) (NoError host) s acts) :
    (run (step host) s acts).engine.pending.status = .done :=
  run_invariant_of (P := fun t : Page Body => t.engine.pending.status = .done)
    (fun t a h => done_step host t a h.1 h.2) start (eachStep_and continues clean)

theorem rewind_shows (host : Host) {t : Page Body} {a : Action Body} (rewinds : Rewinds host t a) :
    (step host t a).engine.pending.status = .done ∧ 0 ≤ (step host t a).engine.pending.stage := by
  obtain ⟨done, clean, ev, mem, forward⟩ := rewinds
  cases acts : a.op? with
  | none => simp [heard, acts] at mem
  | some op =>
    have stepped : step host t a = t.paceStep host op := step_pace host t acts
    rw [NoError, heard_pace host t acts] at clean
    rw [heard_pace host t acts] at mem
    rw [stepped, paceStep_engine]
    exact ⟨Engine.hear_stays_done host t.now clean done,
      hear_moves host t.now clean (Or.inr ⟨ev, mem, forward⟩)⟩

/-- A run of the page that follows `run` and whose steps do not rewind keeps the
    finished display; a step that rewinds, once committed, breaks it. -/
theorem no_visual_rewind (host : Host) :
    (∀ (s : Page Body) (carrier : Carrier) (shipmentId : String) (acts : List (Action Body)),
      (∀ a ∈ acts, Continues a) →
      EachStep (step host) (fun t a => ¬ Rewinds host t a) (s.run carrier shipmentId) acts →
        NeverRewinds host (s.run carrier shipmentId) acts) ∧
    (∀ (t : Page Body) (a : Action Body), Rewinds host t a →
      ¬ NeverRewinds host t [a, .commit, .commit]) := by
  constructor
  · intro s carrier shipmentId acts continues steady before after later split shown clean
    subst split
    have start : Rested (s.run carrier shipmentId).engine.pending := by
      intro done
      simp [Page.run, Engine.run, Update.apply] at done
    obtain ⟨front, _, rear⟩ := eachStep_append.mp steady
    have rested := rested_run host start front
    rw [run_concat] at shown clean
    rw [step_commit] at shown
    have middle := rested_run host (by simpa [step] using rested) (eachStep_append.mp rear).1
    have done := done_run host (by simpa [step] using shown)
      (fun a mem => continues a (by simp [mem])) clean
    rw [run_append, run_cons, run_concat, step_commit]
    exact middle done
  · intro t a rewinds never
    obtain ⟨done, moved⟩ := rewind_shows host rewinds
    have stage : (step host (step host (step host t a) .commit) .commit).engine.cells.stage = -1 :=
      (never [a] [] [] rfl (by simpa [step] using done) trivial).1
    rw [step_commit] at stage
    have kept : (step host t a).engine.pending.stage = -1 := by simpa [step] using stage
    omega

def stageEvent (type : String) : Option PaceEvent := some ⟨type, none⟩

/-- One resolve whose events all come before the response. -/
theorem finished_resolve_rests :
    NeverRewinds ⟨fun _ => .nan, fun _ => none⟩ ((initial 0 : Page Nat).run .internal "SHP-2049-883")
      [.commit, .effect, .sse (stageEvent "mtls.handshake.start"), .respond 0 (.ok 7), .commit,
        .effect, .sse (stageEvent "mtls.handshake.ok"), .commit] := by
  refine (no_visual_rewind ⟨fun _ => .nan, fun _ => none⟩).1 _ _ _ _ (by simp [Continues]) ?_
  exact ⟨by decide, by decide, by decide, by decide, by decide, by decide, by decide, by decide,
    trivial⟩

/-- The response is committed, and the effect of that commit is still due when the next
    event arrives. -/
theorem late_event_rewinds :
    ¬ ∀ (host : Host) (s : Page Nat) (carrier : Carrier) (shipmentId : String)
      (acts : List (Action Nat)), (∀ a ∈ acts, Continues a) →
        NeverRewinds host (s.run carrier shipmentId) acts := by
  intro all
  have rests := all ⟨fun _ => .nan, fun _ => none⟩ (initial 0) .internal "SHP-2049-883"
    [.commit, .effect, .respond 0 (.ok 7), .commit, .sse (stageEvent "mtls.handshake.start"), .commit]
    (by simp [Continues]) [.commit, .effect, .respond 0 (.ok 7)]
    [.sse (stageEvent "mtls.handshake.start")] [] rfl (by decide) ⟨by decide, trivial⟩
  revert rests
  decide

end SwaEngine
