import SwaDemo.EngineSteps

/-!
Which run a shown result belongs to. A response handler does not know which run
sent its request, so an OK response that was overtaken by a reset or by a newer
run is shown as the result; every other step keeps the latest run's.
-/
namespace SwaEngine
open Runs Page
open SwaPace (Host Op)

variable {Body : Type}

/-- A result is shown only if it answers the latest run and no reset came after it. -/
def ShowsLatest (s : Page Body) (cells : Cells Body) : Prop :=
  cells.status = .done → ∃ id data, s.current = some id ∧ (id, data) ∈ s.answers ∧
    cells.result = some data

def LatestWins (s : Page Body) : Prop := ShowsLatest s s.engine.cells

/-- An OK response to a run that a reset or a newer run has left behind. -/
def StaleAnswer (s : Page Body) : Action Body → Prop
  | .respond id (.ok _) => s.Outstanding id ∧ s.current ≠ some id
  | _ => False

theorem showsLatest_of_done {s s' : Page Body} {cells cells' : Cells Body}
    (latest : ShowsLatest s cells) (current : s'.current = s.current)
    (answers : ∀ x, x ∈ s.answers → x ∈ s'.answers)
    (same : cells'.status = .done → cells.status = .done ∧ cells'.result = cells.result) :
    ShowsLatest s' cells' := by
  intro done
  obtain ⟨was, result⟩ := same done
  obtain ⟨id, data, run, mem, shown⟩ := latest was
  exact ⟨id, data, current.trans run, answers _ mem, result.trans shown⟩

theorem showsLatest_pace (host : Host) (op : Op) {s : Page Body}
    (latest : ShowsLatest s s.engine.pending) :
    ShowsLatest (s.paceStep host op) (s.paceStep host op).engine.pending :=
  showsLatest_of_done latest rfl (fun _ mem => mem) (Engine.hear_done host s.now)

theorem showsLatest_respond {s : Page Body} {id : Nat} {response : Engine.Response Body}
    (latest : ShowsLatest s s.engine.pending) (fresh : ¬ StaleAnswer s (.respond id response)) :
    ShowsLatest (s.respond id response) (s.respond id response).engine.pending := by
  unfold respond
  by_cases open_ : s.Outstanding id
  · rw [if_pos open_]
    intro done
    cases response with
    | ok data =>
      have run : s.current = some id := by
        by_contra other
        exact fresh ⟨open_, other⟩
      refine ⟨id, data, run, by simp [answered], ?_⟩
      simp [Engine.settle, Update.apply]
    | notOk status text => simp [Engine.settle, Update.apply] at done
    | failed err => simp [Engine.settle, Update.apply] at done
  · rw [if_neg open_]
    exact latest

theorem showsLatest_step (host : Host) (s : Page Body) (a : Action Body)
    (fresh : ¬ StaleAnswer s a) (latest : ShowsLatest s s.engine.pending) :
    ShowsLatest (step host s a) (step host s a).engine.pending := by
  cases a with
  | run carrier shipmentId =>
    intro done
    simp [step, Page.run, Engine.run, Update.apply] at done
  | reset =>
    intro done
    simp [step, Page.reset, Engine.reset, Update.apply] at done
  | respond id response => exact showsLatest_respond latest fresh
  | sse msg => exact showsLatest_pace host _ latest
  | expire h => exact showsLatest_pace host _ latest
  | setPace value => exact showsLatest_pace host _ latest
  | skip => exact showsLatest_pace host _ latest
  | commit =>
    refine showsLatest_of_done latest rfl (fun _ mem => mem) ?_
    simp [step]
  | effect =>
    refine showsLatest_of_done latest rfl (fun _ mem => mem) ?_
    simp [step]
  | tick =>
    obtain ⟨e, ticked, same⟩ := tick_ttl s
    rw [step, ticked]
    exact showsLatest_of_done latest rfl (fun _ mem => mem)
      (fun done => ⟨same.status.symm.trans done, same.result⟩)
  | clock now => exact latest

/-- In a run without a stale answer, every committed result is the latest run's. A
    stale answer that is committed shows a result that is not, unless the latest run
    was answered with the very same body. -/
theorem latest_run_wins (host : Host) (now : Int) :
    (∀ acts : List (Action Body),
      EachStep (step host) (fun s a => ¬ StaleAnswer s a) (initial now) acts →
        AtCommits host LatestWins (initial now) acts) ∧
    (∀ (s : Page Body) (id : Nat) (data : Body),
      StaleAnswer s (.respond id (.ok data)) →
        (∀ latest, s.current = some latest → (latest, data) ∉ s.answers) →
        ¬ LatestWins (step host (step host s (.respond id (.ok data))) .commit)) := by
  constructor
  · rintro acts fresh before later rfl
    have start : ShowsLatest (initial now) (initial now : Page Body).engine.pending := by
      intro done
      simp [initial, Engine.pending] at done
    have kept := run_invariant_of (P := fun s : Page Body => ShowsLatest s s.engine.pending)
      (showsLatest_step host) start (eachStep_append.mp fresh).1
    rw [run_concat]
    intro done
    simp only [step, Engine.commit_cells] at done ⊢
    exact kept done
  · rintro s id data ⟨open_, other⟩ unanswered latest
    have answered_ : step host s (.respond id (.ok data)) = { s with
        engine := s.engine.settle (.ok data)
        requests := s.requests.filter (·.id != id)
        answers := s.answers ++ [(id, data)] } := by
      simp [step, respond, open_, answered]
    rw [answered_] at latest
    obtain ⟨run, body, current, mem, shown⟩ := latest (by simp [step, Engine.settle, Update.apply])
    have same : body = data := by
      simpa [step, Engine.settle, Update.apply, eq_comm] using shown
    subst body
    rcases List.mem_append.mp mem with old | new
    · exact unanswered run current old
    · obtain ⟨rfl, _⟩ : run = id ∧ data = data := by simpa using new
      exact other current

/-- One run that is answered and committed. -/
theorem answered_run_shows :
    AtCommits ⟨fun _ => .nan, fun _ => none⟩ LatestWins (initial 0)
      [.run .internal "SHP-2049-883", .respond 0 (.ok 7), .commit] := by
  refine (latest_run_wins ⟨fun _ => .nan, fun _ => none⟩ 0).1 _ ⟨id, ?_, id, trivial⟩
  rintro ⟨_, other⟩
  exact other rfl

/-- A second run starts before the first one is answered; the answer to the first is
    shown as the result of the second. -/
theorem overtaken_answer_shows :
    ¬ ∀ (host : Host) (acts : List (Action Nat)), AtCommits host LatestWins (initial 0) acts := by
  intro all
  obtain ⟨run, data, current, mem, _⟩ := all ⟨fun _ => .nan, fun _ => none⟩ _
    [.run .internal "SHP-2049-883", .run .external "SHP-2049-883", .respond 0 (.ok 7)] [] rfl rfl
  have latest : run = 1 := (Option.some.inj current).symm
  have answer : (run, data) = (0, 7) := List.mem_singleton.mp mem
  rw [latest] at answer
  simp at answer

end SwaEngine
