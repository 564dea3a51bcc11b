import SwaDemo.LatestRun
import SwaDemo.InspectorViews

/-!
The application around the engine (`App.tsx`) with the controls of `PortalPane.tsx`,
`Segmented.tsx`, `Button.tsx`, `InspectorChrome.tsx` and `AccessibilityHints.tsx`. React
commits what a click or a key has set before it hands out the next one, so a handler
reads what is shown and `flush` follows it; everything else that happens to the page is
`Background`.
-/
namespace SwaApp
open Runs SwaEngine
open SwaPace (Host PaceEvent PaceArg)

inductive ViewMode where
  | topology
  | layers
  | trace
  deriving DecidableEq, Repr

inductive PaceMode where
  | off
  | fast
  | medium
  | slow
  deriving DecidableEq, Repr

def PaceMode.value : PaceMode → PaceArg
  | .off => .str "off"
  | .fast => .str "fast"
  | .medium => .str "medium"
  | .slow => .str "slow"

/-- The state of `App` and the page under it. `sent` is the request of the latest
    resolve that no reset followed; no handler reads it. -/
structure App (Body : Type) where
  shipmentId : String
  carrier : Carrier
  view : ViewMode
  pace : PaceMode
  page : Page Body
  sent : Option Request
  deriving DecidableEq, Repr

inductive Control where
  | input (value : String)
  | segment (v : Carrier)
  | resolveButton
  | escapeKey
  | resetButton
  | viewSegment (v : ViewMode)
  | paceSegment (v : PaceMode)
  deriving DecidableEq, Repr

inductive Background (Body : Type) where
  | respond (id : Nat) (response : Engine.Response Body)
  | sse (msg : Option PaceEvent)
  | expire (h : Nat)
  | commit
  | effect
  | tick
  | clock (now : Int)
  deriving DecidableEq, Repr

inductive Move (Body : Type) where
  | press (c : Control)
  | background (b : Background Body)
  deriving DecidableEq, Repr

variable {Body : Type}

def Background.action : Background Body → Action Body
  | .respond id response => .respond id response
  | .sse msg => .sse msg
  | .expire h => .expire h
  | .commit => .commit
  | .effect => .effect
  | .tick => .tick
  | .clock now => .clock now

namespace App

/-- After the first render and its effects. -/
def initial (host : Host) (now : Int) : App Body where
  shipmentId := "SHP-2049-883"
  carrier := .internal
  view := .topology
  pace := .medium
  page := Page.step host (Page.initial now) (.setPace PaceMode.medium.value)
  sent := none

/-- `status === "running"`, which disables the input, the segments and the button. -/
def busy (s : App Body) : Bool := s.page.engine.cells.status == .running

def handleCarrierChange (v : Carrier) (s : App Body) : App Body :=
  { s with carrier := v, page := s.page.reset, sent := none }

def handleResolve (s : App Body) : App Body :=
  { s with
    page := s.page.run s.carrier s.shipmentId
    sent := some ⟨s.page.issued, s.carrier, s.shipmentId⟩ }

def handleReset (s : App Body) : App Body :=
  { s with page := s.page.reset, sent := none }

def flush (s : App Body) : App Body :=
  { s with page := { s.page with engine := s.page.engine.commit } }

def press (host : Host) (s : App Body) : Control → App Body
  | .input value => if s.busy then s else { s with shipmentId := value }
  | .segment v => if s.busy then s else flush (s.handleCarrierChange v)
  | .resolveButton => if s.busy then s else flush s.handleResolve
  | .escapeKey => flush s.handleReset
  -- the button is there unless the status is idle
  | .resetButton => if s.page.engine.cells.status = .idle then s else flush s.handleReset
  | .viewSegment v => { s with view := v }
  -- `setPace` and, once it is committed, the effect `paceQueue.setPace(pace)`
  | .paceSegment v => { s with pace := v, page := Page.step host s.page (.setPace v.value) }

def step (host : Host) (s : App Body) : Move Body → App Body
  | .press c => s.press host c
  | .background b => { s with page := Page.step host s.page b.action }

def InFlight (s : App Body) : Prop := s.page.requests ≠ []

instance (s : App Body) : Decidable s.InFlight := inferInstanceAs (Decidable (¬ _))

/-- A reset, be it by a change of the carrier, or a new resolve that takes effect. -/
def Restarts (s : App Body) : Move Body → Prop
  | .press (.segment _) => s.busy = false
  | .press .resolveButton => s.busy = false
  | .press .escapeKey => True
  | .press .resetButton => s.page.engine.cells.status ≠ .idle
  | _ => False

instance (s : App Body) : (a : Move Body) → Decidable (Restarts s a)
  | .press (.segment _) => inferInstanceAs (Decidable (_ = _))
  | .press .resolveButton => inferInstanceAs (Decidable (_ = _))
  | .press .escapeKey => inferInstanceAs (Decidable True)
  | .press .resetButton => inferInstanceAs (Decidable (¬ _))
  | .press (.input _) | .press (.viewSegment _) | .press (.paceSegment _) | .background _ =>
    inferInstanceAs (Decidable False)

/-- The user leaves a request behind that is still out. -/
def Abandons (s : App Body) (a : Move Body) : Prop := s.InFlight ∧ Restarts s a

instance (s : App Body) (a : Move Body) : Decidable (Abandons s a) :=
  inferInstanceAs (Decidable (_ ∧ _))

/-- What the user sees of the requests. -/
structure OneFlight (s : App Body) : Prop where
  /-- No two requests are out, and one that is out is the latest. -/
  single : s.page.requests = [] ∨ ∃ r, s.page.requests = [r] ∧ s.sent = some r
  /-- The latest request went to the carrier that is selected. -/
  carrier : ∀ r, s.sent = some r → r.carrier = s.carrier
  /-- While the page is busy with it, its id is in the input. -/
  typed : ∀ r ∈ s.page.requests, s.busy = true → r.shipmentId = s.shipmentId
  /-- A manifest that is shown is the answer to the latest request. -/
  manifest : s.page.engine.cells.status = .done → ∃ r data, s.sent = some r ∧
    (r.id, data) ∈ s.page.answers ∧ s.page.engine.cells.result = some data

/-- Something gets in the way of a request: it is reset, or an error event arrives while
    it is out. -/
def Disturbs (host : Host) (s : App Body) : Move Body → Prop
  | .press .escapeKey => s.InFlight
  | .press .resetButton => s.InFlight
  | .background b => s.InFlight ∧ ∃ ev ∈ s.page.heard host b.action, isErrorEvent ev.type = true
  | .press _ => False

instance (host : Host) (s : App Body) : (a : Move Body) → Decidable (Disturbs host s a)
  | .press .escapeKey | .press .resetButton => inferInstanceAs (Decidable s.InFlight)
  | .background _ => inferInstanceAs (Decidable (_ ∧ _))
  | .press (.input _) | .press (.segment _) | .press .resolveButton | .press (.viewSegment _)
  | .press (.paceSegment _) => inferInstanceAs (Decidable False)

end App

/-- What a move does to the page is a run of the page. -/
theorem step_calls (host : Host) (s : App Body) (a : Move Body) :
    ∃ calls, (s.step host a).page = run (Page.step host) s.page calls := by
  cases a with
  | background b => exact ⟨[b.action], rfl⟩
  | press c =>
    cases c with
    | input value =>
      refine ⟨[], ?_⟩
      simp only [App.step, App.press]
      split <;> rfl
    | segment v =>
      simp only [App.step, App.press]
      split
      · exact ⟨[], rfl⟩
      · exact ⟨[.reset, .commit], rfl⟩
    | resolveButton =>
      simp only [App.step, App.press]
      split
      · exact ⟨[], rfl⟩
      · exact ⟨[.run s.carrier s.shipmentId, .commit], rfl⟩
    | escapeKey => exact ⟨[.reset, .commit], rfl⟩
    | resetButton =>
      simp only [App.step, App.press]
      split
      · exact ⟨[], rfl⟩
      · exact ⟨[.reset, .commit], rfl⟩
    | viewSegment v => exact ⟨[], rfl⟩
    | paceSegment v => exact ⟨[.setPace v.value], rfl⟩

/-- Whatever holds of every run of the page holds of the page under its controls. -/
theorem app_runs_page (host : Host) (now : Int) (acts : List (Move Body)) :
    ∃ calls, (run (App.step host) (App.initial host now) acts).page =
      run (Page.step host) (Page.initial now) calls := by
  refine run_invariant (P := fun s : App Body => ∃ calls, s.page =
    run (Page.step host) (Page.initial now) calls) ?_ ⟨[.setPace PaceMode.medium.value], rfl⟩ acts
  rintro s a ⟨calls, page⟩
  obtain ⟨more, stepped⟩ := step_calls host s a
  exact ⟨calls ++ more, by rw [stepped, page, run_append]⟩

/-- What an action of the page keeps that is neither `run` nor `reset` nor the response to
    a request that is out. -/
structure Quiet (p p' : Page Body) : Prop where
  current : p'.current = p.current
  requests : p'.requests = p.requests
  answers : p'.answers = p.answers
  status : p.engine.pending.status = .running ∨ p.engine.pending.status = .error →
    p'.engine.pending.status = .running ∨ p'.engine.pending.status = .error
  error : p.engine.pending.status = .error → p'.engine.pending.status = .error
  done : p'.engine.pending.status = .done →
    p.engine.pending.status = .done ∧ p'.engine.pending.result = p.engine.pending.result
  cells : p'.engine.cells = p.engine.cells ∨
    p'.engine.cells = p.engine.pending ∧ p'.engine.pending = p.engine.pending

theorem quiet_same {p p' : Page Body}
    (frame : p'.current = p.current ∧ p'.requests = p.requests ∧ p'.answers = p.answers)
    (status : p'.engine.pending.status = p.engine.pending.status)
    (result : p'.engine.pending.result = p.engine.pending.result)
    (cells : p'.engine.cells = p.engine.cells ∨
      p'.engine.cells = p.engine.pending ∧ p'.engine.pending = p.engine.pending) :
    Quiet p p' where
  current := frame.1
  requests := frame.2.1
  answers := frame.2.2
  status := by rw [status]; exact id
  error := by rw [status]; exact id
  done := by rw [status]; exact fun done => ⟨done, result⟩
  cells := cells

theorem hear_busy (host : Host) (now : Int) (signals : List SwaPace.Signal) {e : Engine Body}
    (busy : e.pending.status = .running ∨ e.pending.status = .error) :
    (e.hear host now signals).pending.status = .running ∨
      (e.hear host now signals).pending.status = .error := by
  refine Engine.hear_invariant
    (P := fun e => e.pending.status = .running ∨ e.pending.status = .error) host now ?_ ?_ busy
  · intro ev _ e busy
    by_cases err : isErrorEvent ev.type = true
    · rw [Engine.onEvent_error host now e err]
      exact Or.inr rfl
    · rw [(Engine.onEvent_plain host now e (by simpa using err)).status]
      exact busy
  · intro e busy
    rcases Engine.walking_pending e with same | ⟨started, _⟩
    · rwa [same]
    · rw [started]
      exact Or.inl rfl

theorem quiet_pace (host : Host) (op : SwaPace.Op) (p : Page Body) : Quiet p (p.paceStep host op) where
  current := rfl
  requests := rfl
  answers := rfl
  status := hear_busy host p.now _
  error error := (Engine.hear_error_iff host p.now _ p.engine).mpr (Or.inl error)
  done := Engine.hear_done host p.now
  cells := Or.inl (Engine.hear_refs host p.now _ p.engine).2.1

theorem quiet_background (host : Host) (p : Page Body) (b : Background Body)
    (waits : ∀ id response, b = .respond id response → ¬ p.Outstanding id) :
    Quiet p (Page.step host p b.action) := by
  cases b with
  | respond id response =>
    have nothing : Page.step host p (.respond id response) = p := by
      rw [Page.step, Page.respond, if_neg (waits id response rfl)]
    rw [Background.action, nothing]
    exact quiet_same ⟨rfl, rfl, rfl⟩ rfl rfl (Or.inl rfl)
  | sse msg => exact quiet_pace host _ p
  | expire h => exact quiet_pace host _ p
  | commit =>
    have queued : p.engine.commit.pending = p.engine.pending := Engine.commit_pending p.engine
    have shown : p.engine.commit.cells = p.engine.pending := Engine.commit_cells p.engine
    exact quiet_same ⟨rfl, rfl, rfl⟩ (congrArg (·.status) queued) (congrArg (·.result) queued)
      (Or.inr ⟨shown, queued⟩)
  | effect =>
    have queued : p.engine.effect.pending = p.engine.pending := Engine.effect_pending p.engine
    have cells : p.engine.effect.cells = p.engine.cells := by
      unfold Engine.effect
      split <;> rfl
    exact quiet_same ⟨rfl, rfl, rfl⟩ (congrArg (·.status) queued) (congrArg (·.result) queued)
      (Or.inl cells)
  | tick =>
    obtain ⟨e, ticked, same⟩ := Page.tick_ttl p
    rw [Background.action, Page.step, ticked]
    exact quiet_same ⟨rfl, rfl, rfl⟩ same.status same.result (Or.inl same.cells)
  | clock now => exact quiet_same ⟨rfl, rfl, rfl⟩ rfl rfl (Or.inl rfl)

/-- The invariant behind `OneFlight`. -/
structure Flying (s : App Body) : Prop where
  current : s.page.current = s.sent.map (·.id)
  carrier : ∀ r, s.sent = some r → r.carrier = s.carrier
  single : s.page.requests = [] ∨ ∃ r, s.page.requests = [r] ∧ s.sent = some r
  status : s.InFlight →
    s.page.engine.pending.status = .running ∨ s.page.engine.pending.status = .error
  shown : s.InFlight → s.page.engine.cells.status = .running ∨
    s.page.engine.cells.status = .error ∧ s.page.engine.pending.status = .error
  typed : ∀ r ∈ s.page.requests, s.busy = true → r.shipmentId = s.shipmentId
  pending : ShowsLatest s.page s.page.engine.pending
  cells : ShowsLatest s.page s.page.engine.cells

theorem flying_quiet {s s' : App Body} (flying : Flying s) (quiet : Quiet s.page s'.page)
    (sent : s'.sent = s.sent) (carrier : s'.carrier = s.carrier)
    (shipmentId : s'.shipmentId = s.shipmentId) : Flying s' := by
  have answers : ∀ x, x ∈ s.page.answers → x ∈ s'.page.answers := by
    rw [quiet.answers]
    exact fun x mem => mem
  have out : s'.InFlight ↔ s.InFlight := by rw [App.InFlight, App.InFlight, quiet.requests]
  refine ⟨?_, ?_, ?_, ?_, ?_, ?_, ?_, ?_⟩
  · rw [quiet.current, sent]
    exact flying.current
  · rw [sent, carrier]
    exact flying.carrier
  · rw [quiet.requests, sent]
    exact flying.single
  · rw [out]
    exact fun inFlight => quiet.status (flying.status inFlight)
  · rw [out]
    intro inFlight
    rcases quiet.cells with same | ⟨shown, queued⟩
    · rw [same]
      exact (flying.shown inFlight).imp_right fun both => ⟨both.1, quiet.error both.2⟩
    · rw [shown, queued]
      exact (flying.status inFlight).imp_right fun error => ⟨error, error⟩
  · rw [quiet.requests, shipmentId]
    intro r mem busy
    refine flying.typed r mem ?_
    rcases quiet.cells with same | ⟨shown, _⟩
    · rwa [App.busy, same] at busy
    · rcases flying.shown (List.ne_nil_of_mem mem) with running | ⟨_, error⟩
      · simp [App.busy, running]
      · simp [App.busy, shown, error] at busy
  · exact showsLatest_of_done flying.pending quiet.current answers quiet.done
  · rcases quiet.cells with same | ⟨shown, _⟩
    · refine showsLatest_of_done flying.cells quiet.current answers ?_
      rw [same]
      exact fun done => ⟨done, rfl⟩
    · refine showsLatest_of_done flying.pending quiet.current answers ?_
      rw [shown]
      exact fun done => ⟨done, rfl⟩

theorem showsLatest_undone {p : Page Body} {cells : Cells Body} (undone : cells.status ≠ .done) :
    ShowsLatest p cells := fun done => absurd done undone

/-- The page was reset and React has committed it. -/
theorem flying_reset {s : App Body} (page : Page Body) (reset : s.page = page.reset)
    (sent : s.sent = none) (nothing : page.requests = []) : Flying s.flush := by
  have requests : s.flush.page.requests = [] := by
    change s.page.requests = []
    rw [reset]
    exact nothing
  have pending : s.flush.page.engine.pending.status = .idle := by
    change s.page.engine.commit.pending.status = .idle
    rw [reset]
    simp [Page.reset, Engine.reset, Update.apply]
  have cells : s.flush.page.engine.cells.status = .idle := by
    change s.page.engine.commit.cells.status = .idle
    rw [reset]
    simp [Page.reset, Engine.reset, Update.apply]
  have landed : ¬ s.flush.InFlight := fun out => out requests
  refine ⟨?_, ?_, Or.inl requests, ?_, ?_, ?_, ?_, ?_⟩
  · change s.page.current = s.sent.map (·.id)
    rw [reset, sent]
    rfl
  · intro r was
    change s.sent = some r at was
    simp [sent] at was
  · exact fun out => absurd out landed
  · exact fun out => absurd out landed
  · rw [requests]
    simp
  · exact showsLatest_undone (by simp [pending])
  · exact showsLatest_undone (by simp [cells])

theorem flying_resolve {s : App Body} (nothing : s.page.requests = []) :
    Flying s.handleResolve.flush := by
  have requests : s.handleResolve.flush.page.requests = [⟨s.page.issued, s.carrier, s.shipmentId⟩] := by
    simp [App.flush, App.handleResolve, Page.run, nothing]
  have pending : s.handleResolve.flush.page.engine.pending.status = .running := by
    simp [App.flush, App.handleResolve, Page.run, Engine.run, Update.apply]
  have cells : s.handleResolve.flush.page.engine.cells.status = .running := by
    simp [App.flush, App.handleResolve, Page.run, Engine.run, Update.apply]
  refine ⟨rfl, ?_, Or.inr ⟨_, requests, rfl⟩, ?_, ?_, ?_, ?_, ?_⟩
  · rintro r sent
    obtain rfl := Option.some.inj sent
    rfl
  · exact fun _ => Or.inl pending
  · exact fun _ => Or.inl cells
  · rw [requests]
    intro r mem _
    obtain rfl := List.mem_singleton.mp mem
    rfl
  · exact showsLatest_undone (by simp [pending])
  · exact showsLatest_undone (by simp [cells])

/-- The request that is out is answered, and it was the latest. -/
theorem respond_lands (host : Host) {s : App Body} {id : Nat} (response : Engine.Response Body)
    (flying : Flying s) (out : s.page.Outstanding id) :
    s.page.current = some id ∧ Page.step host s.page (.respond id response) = { s.page with
      engine := s.page.engine.settle response
      requests := []
      answers := s.page.answers ++ Page.answered id response } := by
  obtain ⟨r, requests, sent⟩ : ∃ r, s.page.requests = [r] ∧ s.sent = some r := by
    rcases flying.single with none_ | one
    · simp [Page.Outstanding, none_] at out
    · exact one
  have same : r.id = id := by simpa [Page.Outstanding, requests, eq_comm] using out
  refine ⟨?_, ?_⟩
  · rw [flying.current, sent, Option.map_some, same]
  · simp [Page.step, Page.respond, out, requests, same]

theorem flying_respond (host : Host) {s : App Body} {id : Nat} {response : Engine.Response Body}
    (flying : Flying s) (out : s.page.Outstanding id) :
    Flying (s.step host (.background (.respond id response))) := by
  obtain ⟨current, answered⟩ := respond_lands host response flying out
  have page : (s.step host (.background (.respond id response))).page =
      Page.step host s.page (.respond id response) := rfl
  have landed : ¬ (s.step host (.background (.respond id response))).InFlight := by
    rw [App.InFlight, page, answered]
    simp
  have fresh : ¬ StaleAnswer s.page (.respond id response) := by
    cases response with
    | ok data =>
      rintro ⟨_, other⟩
      exact other current
    | notOk | failed => exact fun stale => stale
  have latest : ShowsLatest (s.page.respond id response)
      (s.page.respond id response).engine.pending := showsLatest_respond flying.pending fresh
  refine ⟨?_, flying.carrier, ?_, fun out => absurd out landed, fun out => absurd out landed,
    ?_, latest, ?_⟩
  · rw [page, answered]
    exact flying.current
  · rw [page, answered]
    exact Or.inl rfl
  · rw [page, answered]
    simp
  · rw [page, answered]
    refine showsLatest_of_done flying.cells rfl (fun x mem => List.mem_append_left _ mem) ?_
    have shown : (s.page.engine.settle response).cells = s.page.engine.cells := by
      cases response <;> rfl
    rw [shown]
    exact fun done => ⟨done, rfl⟩

theorem flying_step (host : Host) (s : App Body) (a : Move Body) (kept : ¬ App.Abandons s a)
    (flying : Flying s) : Flying (s.step host a) := by
  have landed (restarts : App.Restarts s a) : s.page.requests = [] := by
    by_contra out
    exact kept ⟨out, restarts⟩
  cases a with
  | press c =>
    cases c with
    | input value =>
      simp only [App.step, App.press]
      split
      · exact flying
      · rename_i idle
        exact { flying with typed := fun r _ busy => absurd busy idle }
    | segment v =>
      simp only [App.step, App.press]
      split
      · exact flying
      · rename_i idle
        exact flying_reset s.page rfl rfl (landed (Bool.eq_false_iff.mpr idle))
    | resolveButton =>
      simp only [App.step, App.press]
      split
      · exact flying
      · rename_i idle
        exact flying_resolve (landed (Bool.eq_false_iff.mpr idle))
    | escapeKey => exact flying_reset s.page rfl rfl (landed trivial)
    | resetButton =>
      simp only [App.step, App.press]
      split
      · exact flying
      · rename_i shown
        exact flying_reset s.page rfl rfl (landed shown)
    | viewSegment v => exact { flying with }
    | paceSegment v => exact flying_quiet flying (quiet_pace host _ s.page) rfl rfl rfl
  | background b =>
    by_cases answers : ∃ id response, b = .respond id response ∧ s.page.Outstanding id
    · obtain ⟨id, response, rfl, out⟩ := answers
      exact flying_respond host flying out
    · have quiet := quiet_background host s.page b fun id response is out =>
        answers ⟨id, response, is, out⟩
      exact flying_quiet flying quiet rfl rfl rfl

theorem flying_initial (host : Host) (now : Int) : Flying (App.initial host now : App Body) := by
  have unpaced : Flying
      (⟨"SHP-2049-883", .internal, .topology, .medium, Page.initial now, none⟩ : App Body) := by
    have nothing : (Page.initial now : Page Body).requests = [] := rfl
    have idle : (Page.initial now : Page Body).engine.pending.status = .idle := rfl
    refine ⟨rfl, ?_, Or.inl nothing, ?_, ?_, ?_, ?_, ?_⟩
    · intro r sent
      contradiction
    · exact fun out => absurd nothing out
    · exact fun out => absurd nothing out
    · intro r mem
      contradiction
    · exact showsLatest_undone (by simp [idle])
    · have undone : (Page.initial now : Page Body).engine.cells.status ≠ .done := by
        simp [Page.initial]
      exact showsLatest_undone undone
  exact flying_quiet unpaced (quiet_pace host _ (Page.initial now)) rfl rfl rfl

theorem oneFlight_of_flying {s : App Body} (flying : Flying s) : App.OneFlight s where
  single := flying.single
  carrier := flying.carrier
  typed := flying.typed
  manifest := by
    intro done
    obtain ⟨id, data, current, mem, shown⟩ := flying.cells done
    rw [flying.current] at current
    obtain ⟨r, sent, rfl⟩ := Option.map_eq_some_iff.mp current
    exact ⟨r, data, sent, mem, shown⟩

/-- A request is out and no error is on its way to the screen, so the page is busy. -/
def Awaited (s : App Body) : Prop := s.InFlight → s.page.engine.pending.status ≠ .error

theorem awaited_busy {s : App Body} (flying : Flying s) (awaited : Awaited s) (out : s.InFlight) :
    s.busy = true := by
  rcases flying.shown out with running | ⟨_, error⟩
  · simp [App.busy, running]
  · exact absurd error (awaited out)

theorem awaited_keeps (host : Host) {s : App Body} {a : Move Body} (flying : Flying s)
    (awaited : Awaited s) (calm : ¬ App.Disturbs host s a) : ¬ App.Abandons s a := by
  rintro ⟨out, restarts⟩
  have busy := awaited_busy flying awaited out
  cases a with
  | background b => exact restarts
  | press c =>
    cases c with
    | segment v =>
      have idle : s.busy = false := restarts
      simp [busy] at idle
    | resolveButton =>
      have idle : s.busy = false := restarts
      simp [busy] at idle
    | escapeKey | resetButton => exact calm out
    | input | viewSegment | paceSegment => exact restarts

theorem background_error (host : Host) {p : Page Body} {b : Background Body}
    (waits : ∀ id response, b = .respond id response → ¬ p.Outstanding id)
    (error : (Page.step host p b.action).engine.pending.status = .error) :
    p.engine.pending.status = .error ∨
      ∃ ev ∈ p.heard host b.action, isErrorEvent ev.type = true := by
  cases b with
  | respond id response =>
    rw [Background.action, Page.step, Page.respond, if_neg (waits id response rfl)] at error
    exact Or.inl error
  | sse msg => exact (Engine.hear_error_iff host p.now _ p.engine).mp error
  | expire h => exact (Engine.hear_error_iff host p.now _ p.engine).mp error
  | commit => exact Or.inl (by simpa [Background.action, Page.step] using error)
  | effect => exact Or.inl (by simpa [Background.action, Page.step] using error)
  | tick =>
    obtain ⟨e, ticked, same⟩ := Page.tick_ttl p
    rw [Background.action, Page.step, ticked] at error
    exact Or.inl (same.status.symm.trans error)
  | clock now => exact Or.inl error

theorem reset_not_error (s : App Body) : s.handleReset.flush.page.engine.pending.status ≠ .error := by
  simp [App.flush, App.handleReset, Page.reset, Engine.reset, Update.apply]

theorem awaited_press (host : Host) {s : App Body} (c : Control) (awaited : Awaited s) :
    Awaited (s.press host c) := by
  cases c with
  | input value =>
    simp only [App.press]
    split <;> exact awaited
  | segment v =>
    simp only [App.press]
    split
    · exact awaited
    · exact fun _ => reset_not_error s
  | resolveButton =>
    simp only [App.press]
    split
    · exact awaited
    · intro _
      simp [App.flush, App.handleResolve, Page.run, Engine.run, Update.apply]
  | escapeKey => exact fun _ => reset_not_error s
  | resetButton =>
    simp only [App.press]
    split
    · exact awaited
    · exact fun _ => reset_not_error s
  | viewSegment v => exact awaited
  | paceSegment v =>
    -- the pace queue calls nobody when its pace is set
    have silent : Page.freshSignals host s.page.pace (.setPace v.value) = [] := by
      simp [Page.freshSignals, SwaPace.step, SwaPace.setPace]
    have engine : (Page.step host s.page (.setPace v.value)).engine = s.page.engine := by
      rw [Page.step, Page.paceStep_engine, silent, Engine.hear_nil]
    intro out
    rw [App.press, engine]
    exact awaited out

theorem awaited_step (host : Host) (s : App Body) (a : Move Body) (calm : ¬ App.Disturbs host s a)
    (kept : Flying s ∧ Awaited s) : Flying (s.step host a) ∧ Awaited (s.step host a) := by
  obtain ⟨flying, awaited⟩ := kept
  refine ⟨flying_step host s a (awaited_keeps host flying awaited calm) flying, ?_⟩
  cases a with
  | press c => exact awaited_press host c awaited
  | background b =>
    intro out error
    by_cases answers : ∃ id response, b = .respond id response ∧ s.page.Outstanding id
    · obtain ⟨id, response, rfl, outstanding⟩ := answers
      have landed := (respond_lands host response flying outstanding).2
      refine out ?_
      change (Page.step host s.page (.respond id response)).requests = []
      rw [landed]
    · have waits : ∀ id response, b = .respond id response → ¬ s.page.Outstanding id :=
        fun id response is out => answers ⟨id, response, is, out⟩
      have before : s.InFlight := by
        have quiet := quiet_background host s.page b waits
        rwa [App.InFlight, ← quiet.requests]
      rcases background_error host waits error with was | loud
      · exact awaited before was
      · exact calm ⟨before, loud⟩

/-- In a run in which the user leaves no request behind that is still out, at most one is
    out, for the carrier that is selected, and a manifest that is shown answers the latest.
    The controls see to that by themselves, and the page is busy as long as a request is
    out, in a run in which none is reset or has an error event arrive while it is out. -/
theorem controls_keep_one_flight (host : Host) (now : Int) (acts : List (Move Body)) :
    (EachStep (App.step host) (fun s a => ¬ App.Abandons s a) (App.initial host now) acts →
      App.OneFlight (run (App.step host) (App.initial host now) acts)) ∧
    (EachStep (App.step host) (fun s a => ¬ App.Disturbs host s a) (App.initial host now) acts →
      EachStep (App.step host) (fun s a => ¬ App.Abandons s a) (App.initial host now) acts ∧
        ((run (App.step host) (App.initial host now) acts).InFlight →
          (run (App.step host) (App.initial host now) acts).busy = true)) := by
  have start : Awaited (App.initial host now : App Body) := fun out => absurd rfl out
  refine ⟨?_, ?_⟩
  · intro keeps
    exact oneFlight_of_flying (run_invariant_of (flying_step host) (flying_initial host now) keeps)
  · intro calm
    have both {before : List (Move Body)}
        (calm : EachStep (App.step host) (fun s a => ¬ App.Disturbs host s a)
          (App.initial host now) before) :=
      run_invariant_of (P := fun s : App Body => Flying s ∧ Awaited s) (awaited_step host)
        ⟨flying_initial host now, start⟩ calm
    refine ⟨eachStep_iff_splits.mpr ?_, awaited_busy (both calm).1 (both calm).2⟩
    rintro before a later rfl
    obtain ⟨early, still, _⟩ := eachStep_append.mp calm
    exact awaited_keeps host (both early).1 (both early).2 still

def sampleHost : Host := ⟨fun _ => .nan, fun _ => none⟩

/-- A resolve that is answered, then one of the external carrier that is rejected. -/
def sampleMoves : List (Move Nat) := [
  .press .resolveButton, .press (.input "SHP-1"), .background (.respond 0 (.ok 7)),
  .background .commit, .press (.segment .external), .press (.input "SHP-1"), .press .resolveButton]

def sampleRejection : List (Move Nat) := [
  .background (.sse (some ⟨"mtls.handshake.err", none⟩)), .background .commit,
  .background (.respond 1 (.notOk 502 ""))]

theorem sample_flights :
    App.OneFlight (run (App.step sampleHost) (App.initial sampleHost 0)
      (sampleMoves ++ sampleRejection)) ∧
    (run (App.step sampleHost) (App.initial sampleHost 0) sampleMoves).busy = true := by
  refine ⟨(controls_keep_one_flight sampleHost 0 _).1 (by decide +kernel), ?_⟩
  exact ((controls_keep_one_flight sampleHost 0 _).2 (by decide +kernel)).2 (by decide +kernel)

end SwaApp
