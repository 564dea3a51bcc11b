import SwaDemo.EngineSteps

/-!
The status, result and error cells are written by six handlers. All of them keep the
cells in agreement but the OK handler of `run`, which shows the result and leaves an
error that was shown since the run as it is.
-/
namespace SwaEngine
open Runs Page
open SwaPace (Host Op PaceEvent)

variable {Body : Type} (isNull : Body → Bool)

/-- The result cell holds a value other than null, which a JSON body may also be. -/
def HasResult (c : Cells Body) : Prop := ∃ data, c.result = some data ∧ isNull data = false

structure Agree (c : Cells Body) : Prop where
  idle : c.status = .idle → ¬ HasResult isNull c ∧ c.error = none
  done : c.status = .done → HasResult isNull c ∧ c.error = none
  error : c.status = .error → c.error ≠ none

/-- An OK response is handled where an error is shown, or its body is null. -/
def Disagrees (s : Page Body) : Action Body → Prop
  | .respond id (.ok data) =>
    s.Outstanding id ∧ (s.engine.pending.error ≠ none ∨ isNull data = true)
  | _ => False

variable {isNull}

theorem agree_same {c c' : Cells Body} (agree : Agree isNull c) (status : c'.status = c.status)
    (result : c'.result = c.result) (error : c'.error = c.error) : Agree isNull c' := by
  have same : HasResult isNull c' ↔ HasResult isNull c := by
    unfold HasResult
    rw [result]
  refine ⟨?_, ?_, ?_⟩
  · rw [status, error, same]
    exact agree.idle
  · rw [status, error, same]
    exact agree.done
  · rw [status, error]
    exact agree.error

theorem agree_running {c : Cells Body} (running : c.status = .running) : Agree isNull c where
  idle h := by simp [running] at h
  done h := by simp [running] at h
  error h := by simp [running] at h

theorem agree_error {c : Cells Body} (status : c.status = .error) (shown : c.error ≠ none) :
    Agree isNull c where
  idle h := by simp [status] at h
  done h := by simp [status] at h
  error _ := shown

theorem agree_done_iff {c : Cells Body} (done : c.status = .done) :
    Agree isNull c ↔ HasResult isNull c ∧ c.error = none := by
  constructor
  · intro agree
    exact agree.done done
  · intro both
    exact { idle := fun h => by simp [done] at h, done := fun _ => both,
            error := fun h => by simp [done] at h }

theorem agree_event (host : Host) (now : Int) (ev : PaceEvent) (e : Engine Body)
    (agree : Agree isNull e.pending) : Agree isNull (e.onEvent host now ev).pending := by
  by_cases err : isErrorEvent ev.type = true
  · rw [Engine.onEvent_error host now e err]
    exact agree_error rfl (by simp)
  · have plain := Engine.onEvent_plain host now e (by simpa using err)
    exact agree_same agree plain.status plain.result plain.error

theorem agree_walking (e : Engine Body) (agree : Agree isNull e.pending) :
    Agree isNull (e.queue [.setStatusWalking]).pending := by
  rcases Engine.walking_pending e with same | ⟨started, _⟩
  · rw [same]
    exact agree
  · rw [started]
    exact agree_running rfl

theorem agree_pace (host : Host) (op : Op) {s : Page Body} (agree : Agree isNull s.engine.pending) :
    Agree isNull (s.paceStep host op).engine.pending :=
  Engine.hear_invariant (P := fun e => Agree isNull e.pending) host s.now
    (fun ev _ e => agree_event host s.now ev e) agree_walking agree

theorem settle_ok_agrees (e : Engine Body) (data : Body) :
    Agree isNull (e.settle (.ok data)).pending ↔ e.pending.error = none ∧ isNull data = false := by
  rw [agree_done_iff (by simp [Engine.settle, Update.apply])]
  simp only [HasResult, Engine.settle, Engine.pending_queue, List.foldl_cons, List.foldl_nil,
    Update.apply, Option.some.injEq, exists_eq_left']
  exact and_comm

theorem settle_notOk_agrees (e : Engine Body) (status : Nat) (text : String) :
    Agree isNull (e.settle (.notOk status text)).pending := by
  simp only [Engine.settle, Engine.pending_queue, List.foldl_cons, List.foldl_nil, Update.apply]
  -- an error that carries a payload is kept, and is an error all the same
  cases kept : e.pending.error.bind (·.payload) with
  | none => exact agree_error rfl (by simp)
  | some payload =>
    refine agree_error rfl ?_
    intro gone
    have none_ : e.pending.error = none := gone
    simp [none_] at kept

theorem settle_failed_agrees (e : Engine Body) (err : String) :
    Agree isNull (e.settle (.failed err)).pending := by
  simp only [Engine.settle, Engine.pending_queue, List.foldl_cons, List.foldl_nil, Update.apply]
  exact agree_error rfl (by simp)

theorem respond_agrees {s : Page Body} {id : Nat} {response : Engine.Response Body}
    (fine : ¬ Disagrees isNull s (.respond id response)) (agree : Agree isNull s.engine.pending) :
    Agree isNull (s.respond id response).engine.pending := by
  unfold respond
  by_cases open_ : s.Outstanding id
  · rw [if_pos open_]
    cases response with
    | ok data =>
      refine (settle_ok_agrees s.engine data).mpr ⟨?_, ?_⟩
      · by_contra error
        exact fine ⟨open_, Or.inl error⟩
      · by_contra null
        exact fine ⟨open_, Or.inr (by simpa using null)⟩
    | notOk status text => exact settle_notOk_agrees s.engine status text
    | failed err => exact settle_failed_agrees s.engine err
  · rw [if_neg open_]
    exact agree

theorem agree_step (host : Host) (s : Page Body) (a : Action Body)
    (fine : ¬ Disagrees isNull s a) (agree : Agree isNull s.engine.pending) :
    Agree isNull (step host s a).engine.pending := by
  cases a with
  | run carrier shipmentId =>
    exact agree_running (by simp [step, Page.run, Engine.run, Update.apply])
  | reset =>
    refine ⟨?_, ?_, ?_⟩ <;> simp [step, Page.reset, Engine.reset, Update.apply, HasResult]
  | respond id response => exact respond_agrees fine agree
  | sse msg => exact agree_pace host _ agree
  | expire h => exact agree_pace host _ agree
  | setPace value => exact agree_pace host _ agree
  | skip => exact agree_pace host _ agree
  | commit => simpa [step] using agree
  | effect => simpa [step] using agree
  | tick =>
    obtain ⟨e, ticked, same⟩ := tick_ttl s
    rw [step, ticked]
    exact agree_same agree same.status same.result same.error
  | clock now => exact agree

theorem disagrees_shows (host : Host) {s : Page Body} {a : Action Body}
    (bad : Disagrees isNull s a) : ¬ Agree isNull (step host s a).engine.pending := by
  intro agree
  cases a with
  | respond id response =>
    cases response with
    | ok data =>
      obtain ⟨open_, wrong⟩ := bad
      rw [step, respond, if_pos open_] at agree
      obtain ⟨clean, body⟩ := (settle_ok_agrees s.engine data).mp agree
      rcases wrong with error | null
      · exact error clean
      · simp [body] at null
    | notOk | failed => exact bad
  | run | reset | sse | expire | setPace | skip | commit | effect | tick | clock => exact bad

theorem agree_initial (now : Int) : Agree isNull (initial now : Page Body).engine.pending := by
  refine ⟨?_, ?_, ?_⟩ <;> simp [initial, Engine.pending, HasResult]

variable (isNull)

/-- Every committed state of a run agrees if no OK response is handled while an error
    is shown and none has the body null; such a response, once committed, disagrees. -/
theorem committed_cells_agree (host : Host) (now : Int) :
    (∀ acts : List (Action Body),
      EachStep (step host) (fun s a => ¬ Disagrees isNull s a) (initial now) acts →
        AtCommits host (fun s => Agree isNull s.engine.cells) (initial now) acts) ∧
    (∀ (s : Page Body) (a : Action Body), Disagrees isNull s a →
      ¬ Agree isNull (step host (step host s a) .commit).engine.cells) := by
  constructor
  · rintro acts steady before later rfl
    have kept := run_invariant_of (P := fun s : Page Body => Agree isNull s.engine.pending)
      (agree_step host) (agree_initial now) (eachStep_append.mp steady).1
    rw [run_concat]
    simpa [step] using kept
  · intro s a bad agree
    exact disagrees_shows host bad (by simpa [step] using agree)

/-- The error of an earlier resolve is gone when a new run is answered. -/
theorem answered_run_agrees :
    AtCommits ⟨fun _ => .nan, fun _ => none⟩ (fun s => Agree (fun _ => false) s.engine.cells)
      (initial 0 : Page Nat)
      [.sse (some ⟨"mtls.handshake.err", none⟩), .commit, .run .internal "SHP-2049-883", .commit,
        .respond 0 (.ok 7), .commit] := by
  refine (committed_cells_agree (fun _ => false) ⟨fun _ => .nan, fun _ => none⟩ 0).1 _
    ⟨id, id, id, id, ?_, id, trivial⟩
  rintro ⟨_, error | null⟩
  · exact error rfl
  · exact Bool.noConfusion null

/-- An error event of another resolve arrives before the OK response: the page shows done
    with the result and with that error. -/
theorem done_beside_error :
    ¬ ∀ (host : Host) (acts : List (Action Nat)),
      AtCommits host (fun s => Agree (fun _ => false) s.engine.cells) (initial 0) acts := by
  intro all
  have agree := all ⟨fun _ => .nan, fun _ => none⟩ _
    [.run .internal "SHP-2049-883", .sse (some ⟨"mtls.handshake.err", none⟩), .respond 0 (.ok 7)]
    [] rfl
  have clean := (agree.done rfl).2
  revert clean
  decide

end SwaEngine
