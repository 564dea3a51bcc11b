import SwaDemo.EngineSteps

/-!
The error of an event against the outcome of the fetch. Of the handlers that write
`error` when a request fails, one leaves an error with a payload alone; the one that
catches an exception does not look.
-/
namespace SwaEngine
open Js Runs Page
open SwaPace (Host PaceEvent)

variable {Body : Type}

/-- The error shown carries a payload, as that of an error event does. -/
def Rich (e : Engine Body) : Prop := ∃ err, e.pending.error = some err ∧ err.payload ≠ none

def Replaces (host : Host) (s : Page Body) (a : Action Body) : Prop :=
  match a with
  | .run _ _ | .reset => True
  | _ => ∃ ev ∈ s.heard host a, isErrorEvent ev.type = true

/-- A request that is still out ends in an exception: the fetch is rejected, or the body
    of an OK response cannot be read as JSON. -/
def Throws (s : Page Body) (a : Action Body) : Prop :=
  ∃ id err, a = .respond id (.failed err) ∧ s.Outstanding id

/-- Wherever a run of the page shows an error with a payload, it shows the same error
    until a new run, a reset or another error event. -/
def RichErrorsKept (host : Host) (start : Page Body) (acts : List (Action Body)) : Prop :=
  ∀ before middle later err, acts = before ++ (middle ++ later) →
    (run (step host) start before).engine.pending.error = some err → err.payload ≠ none →
    EachStep (step host) (fun s a => ¬ Replaces host s a) (run (step host) start before) middle →
    (run (step host) start (before ++ middle)).engine.pending.error = some err

theorem hear_error_kept (host : Host) (now : Int) {signals : List SwaPace.Signal}
    {e : Engine Body} (ok : ∀ ev ∈ events signals, isErrorEvent ev.type = false) :
    (e.hear host now signals).pending.error = e.pending.error := by
  refine Engine.hear_invariant (P := fun t : Engine Body => t.pending.error = e.pending.error)
    host now ?_ ?_ rfl
  · intro ev mem t same
    exact (Engine.onEvent_plain host now t (ok ev mem)).error.trans same
  · intro t same
    rcases Engine.walking_pending t with kept | ⟨started, _⟩
    · rw [kept]
      exact same
    · rw [started]
      exact same

/-- How each ending of a request treats an error with a payload. -/
theorem settle_error (e : Engine Body) {err : ResolveError} (shown : e.pending.error = some err)
    (rich : err.payload ≠ none) (response : Engine.Response Body) :
    (e.settle response).pending.error = some err ↔ ∀ text, response ≠ .failed text := by
  cases response with
  | ok data => simp [Engine.settle, Update.apply, shown]
  | notOk status text =>
    obtain ⟨payload, carried⟩ := Option.ne_none_iff_exists'.mp rich
    simp [Engine.settle, Update.apply, shown, carried]
  | failed text =>
    constructor
    · intro kept
      simp only [Engine.settle, Engine.pending_queue, List.foldl_cons, List.foldl_nil, Update.apply,
        Option.some.injEq] at kept
      exact absurd (kept ▸ rfl) rich
    · intro other
      exact absurd rfl (other text)

theorem step_error (host : Host) {s : Page Body} {a : Action Body} {err : ResolveError}
    (shown : s.engine.pending.error = some err) (rich : err.payload ≠ none)
    (quiet : ¬ Replaces host s a) :
    (step host s a).engine.pending.error = some err ↔ ¬ Throws s a := by
  have paced (op : SwaPace.Op) (acts : a.op? = some op)
      (silent : ∀ ev ∈ s.heard host a, isErrorEvent ev.type = false) :
      (step host s a).engine.pending.error = some err := by
    rw [heard, acts] at silent
    rw [step_pace host s acts, paceStep_engine, hear_error_kept host s.now silent]
    exact shown
  have silent (heard : ¬ ∃ ev ∈ s.heard host a, isErrorEvent ev.type = true) :
      ∀ ev ∈ s.heard host a, isErrorEvent ev.type = false := by
    intro ev mem
    by_contra loud
    exact heard ⟨ev, mem, by simpa using loud⟩
  cases a with
  | run | reset => exact absurd trivial quiet
  | respond id response =>
    rw [step, respond]
    by_cases out : s.Outstanding id
    · rw [if_pos out]
      refine (settle_error s.engine shown rich response).trans ⟨?_, ?_⟩
      · rintro fine ⟨_, text, act, _⟩
        cases act
        exact fine text rfl
      · rintro fine text rfl
        exact fine ⟨id, text, rfl, out⟩
    · rw [if_neg out]
      refine ⟨?_, fun _ => shown⟩
      rintro _ ⟨_, _, act, open_⟩
      cases act
      exact out open_
  | sse msg => simpa [Throws] using paced _ rfl (silent quiet)
  | expire h => simpa [Throws] using paced _ rfl (silent quiet)
  | setPace value => simpa [Throws] using paced _ rfl (silent quiet)
  | skip => simpa [Throws] using paced _ rfl (silent quiet)
  | commit => simpa [step, Throws] using shown
  | effect => simpa [step, Throws] using shown
  | tick =>
    obtain ⟨e, ticked, same⟩ := tick_ttl s
    rw [step, ticked]
    simpa [Throws] using same.error.trans shown
  | clock now => simpa [step, Throws] using shown

theorem throws_quiet (host : Host) {s : Page Body} {a : Action Body} (throws : Throws s a) :
    ¬ Replaces host s a := by
  obtain ⟨id, text, rfl, _⟩ := throws
  rintro ⟨ev, mem, _⟩
  simp [heard, Action.op?] at mem

/-- In a run of the page an error with a payload stays until a new run, a reset or another
    error event, exactly if no request that is out ends in an exception meanwhile. -/
theorem rich_error_kept (host : Host) (now : Int) (acts : List (Action Body)) :
    RichErrorsKept host (initial now) acts ↔
      EachStep (step host) (fun s a => Rich s.engine → ¬ Throws s a) (initial now) acts := by
  constructor
  · intro kept
    refine eachStep_iff_splits.mpr ?_
    rintro before a later split ⟨err, shown, rich⟩ throws
    have quiet := throws_quiet host throws
    have still := kept before [a] later err split shown rich ⟨quiet, trivial⟩
    rw [run_concat] at still
    exact (step_error host shown rich quiet).mp still throws
  · rintro fine before middle later err rfl shown rich quiet
    have safe := (eachStep_append.mp (eachStep_append.mp fine).2).1
    rw [run_append]
    clear fine
    generalize run (step host) (initial now) before = s at shown quiet safe
    induction middle generalizing s with
    | nil => exact shown
    | cons a middle ih =>
      refine ih _ ((step_error host shown rich quiet.1).mpr ?_) quiet.2 safe.2
      exact safe.1 ⟨err, shown, rich⟩

/-- A foreign carrier is rejected: the error event comes, then the connection breaks. -/
theorem rejected_fetch_clobbers :
    ¬ ∀ (host : Host) (acts : List (Action Nat)), RichErrorsKept host (initial 0) acts := by
  intro all
  have kept := all ⟨fun _ => .nan, fun _ => none⟩
    [.run .external "SHP-2049-883", .sse (some ⟨"mtls.handshake.err", none⟩),
      .respond 0 (.failed "TypeError: Failed to fetch")]
    [.run .external "SHP-2049-883", .sse (some ⟨"mtls.handshake.err", none⟩)]
    [.respond 0 (.failed "TypeError: Failed to fetch")] []
    ⟨"mtls.handshake.err", none, some []⟩ rfl (by decide) (by simp)
    ⟨throws_quiet _ ⟨0, _, rfl, by decide⟩, trivial⟩
  revert kept
  decide

end SwaEngine
