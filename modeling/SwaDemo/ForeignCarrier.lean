import SwaDemo.EngineSteps

/-!
A carrier from a foreign trust domain. The URI that its certificate showed and the
handshake error come in two events, the 502 in the HTTP response, all of them
in their own time. The queue is a FIFO and an error empties it, so the error is shown
with the URI seen last, and nothing that comes later takes it away.
-/
namespace SwaEngine
open Js Runs Page
open SwaPace (Host Op Signal PaceEvent Accepted PaceQueue Settled Discards)

variable {Body : Type}

/-- The event that an action adds to the pace queue. -/
def Action.accepted (host : Host) : Action Body → Option PaceEvent
  | .sse msg => SwaPace.unwrap host msg
  | _ => none

def Action.response? : Action Body → Option (Nat × Engine.Response Body)
  | .respond id response => some (id, response)
  | _ => none

def Action.restarts : Action Body → Bool
  | .run _ _ => true
  | .reset => true
  | _ => false

/-- The actions between the run and its last commit: the five events in their order,
    the 502 at any time, and whatever else may happen short of a new run or a reset. -/
structure Rejection (host : Host) (id : Nat) (uri : String) (acts : List (Action Body)) : Prop where
  named : uri ≠ ""
  events : ∃ requested start seen failed rejected,
    acts.filterMap (·.accepted host) = [
      ⟨"portal.resolve.requested", requested⟩,
      ⟨"mtls.handshake.start", start⟩,
      ⟨"mtls.peer_uri_seen", some seen⟩,
      ⟨"mtls.handshake.err", failed⟩,
      ⟨"portal.resolve.rejected", rejected⟩] ∧
    seen.get "uri" = some (.str uri)
  response : ∃ text, acts.filterMap Action.response? = [(id, .notOk 502 text)]
  ongoing : ∀ a ∈ acts, a.restarts = false

def ShowsForeign (uri : String) (c : Cells Body) : Prop :=
  c.status = .error ∧ c.stage = -1 ∧
    ∃ err payload, c.error = some err ∧ err.type = "mtls.handshake.err" ∧
      err.payload = some payload ∧ payload.get "uri" = some (.str uri)

/-- An event that is no error and stands for no stage. -/
def Silent (ev : PaceEvent) : Prop := isErrorEvent ev.type = false ∧ eventToStage ev.type = -1

def queued (pace : PaceQueue) : List PaceEvent := pace.queue.map (·.ev)

/-- What an operation hands to the engine and what it leaves queued are the queue it
    found and then the pushed event, unless it discards that queue. -/
theorem heard_fifo (host : Host) {pace : PaceQueue} (settled : Settled pace) (op : Op) :
    events (freshSignals host pace op) ++ queued (SwaPace.step host pace op) =
        queued pace ++ (op.offered host).toList ∨
      Discards host pace op ∧
        events (freshSignals host pace op) ++ queued (SwaPace.step host pace op) =
          (op.offered host).toList := by
  obtain ⟨news, delivered, _, order⟩ :=
    SwaPace.outcome_fifo settled (SwaPace.step_outcome host settled op)
  have handed : events (freshSignals host pace op) = news.map (·.ev) := by
    have grown := step_signals host settled op
    unfold PaceQueue.delivered at delivered
    rw [grown, List.filterMap_append] at delivered
    rw [events, List.append_cancel_left delivered]
  have offered : (op.fresh host pace).map (·.ev) = (op.offered host).toList := by
    unfold Op.fresh
    cases op.offered host <;> rfl
  rw [handed, queued, queued, ← List.map_append, ← offered]
  rcases order with kept | ⟨discards, dropped⟩
  · exact Or.inl (by rw [kept, List.map_append])
  · exact Or.inr ⟨discards, by rw [dropped]⟩

theorem op_offered (host : Host) {a : Action Body} {op : Op} (acts : a.op? = some op) :
    op.offered host = a.accepted host ∧ op ≠ .preemptAndFlush := by
  cases a with
  | sse msg => cases acts; exact ⟨rfl, by simp⟩
  | expire h => cases acts; exact ⟨rfl, by simp⟩
  | setPace value => cases acts; exact ⟨rfl, by simp⟩
  | skip => cases acts; exact ⟨rfl, by simp⟩
  | run | reset | respond | commit | effect | tick | clock => contradiction

theorem heard_order (host : Host) {s : Page Body} (settled : Settled s.pace) {a : Action Body}
    {op : Op} (acts : a.op? = some op)
    (same : ∀ ev, a.accepted host = some ev → ev.type ≠ "portal.resolve.requested") :
    events (freshSignals host s.pace op) ++ queued (s.paceStep host op).pace =
      queued s.pace ++ (a.accepted host).toList := by
  obtain ⟨offered, call⟩ := op_offered host acts
  rcases heard_fifo host settled op with kept | ⟨discards, _⟩
  · rw [← offered]
    exact kept
  · rcases discards with flush | ⟨ev, brings, resolve, _⟩
    · exact absurd flush call
    · exact absurd resolve (same ev (offered ▸ brings))

/-- The URI the engine will have captured once it has heard everything queued. -/
def dueUri (s : Page Body) : JsValue := (queued s.pace).foldl Engine.seenUri s.engine.peerUri

theorem dueUri_pace (host : Host) {s : Page Body} (settled : Settled s.pace) {a : Action Body}
    {op : Op} (acts : a.op? = some op)
    (same : ∀ ev, a.accepted host = some ev → ev.type ≠ "portal.resolve.requested") :
    dueUri (s.paceStep host op) = (a.accepted host).toList.foldl Engine.seenUri (dueUri s) := by
  have uri := (Engine.hear_refs host s.now (freshSignals host s.pace op) s.engine).2.2
  have order := heard_order host settled acts same
  rw [dueUri, paceStep_engine, uri, ← List.foldl_append, order, List.foldl_append]
  rfl

theorem dueUri_quiet (host : Host) {s : Page Body} (settled : Settled s.pace) {a : Action Body}
    (ongoing : a.restarts = false) (quiet : a.accepted host = none) :
    dueUri (step host s a) = dueUri s := by
  cases acts : a.op? with
  | some op =>
    rw [step_pace host s acts, dueUri_pace host settled acts (by simp [quiet]), quiet]
    rfl
  | none =>
    cases a with
    | run | reset => contradiction
    | sse | expire | setPace | skip => contradiction
    | respond id response =>
      simp only [step, respond]
      split
      · cases response <;> rfl
      · rfl
    | commit =>
      simp only [dueUri, step, Engine.commit, Engine.effect]
      split <;> rfl
    | effect =>
      simp only [dueUri, step, Engine.effect]
      split <;> rfl
    | tick =>
      obtain ⟨e, ticked, same⟩ := tick_ttl s
      rw [step, ticked, dueUri, same.peerUri]
      rfl
    | clock => rfl

theorem dueUri_run (host : Host) {s : Page Body} (settled : Settled s.pace) {uri : JsValue}
    (due : dueUri s = uri) {acts : List (Action Body)}
    (quiet : ∀ a ∈ acts, a.restarts = false ∧ a.accepted host = none) :
    dueUri (run (step host) s acts) = uri := by
  have both : Settled (run (step host) s acts).pace ∧ dueUri (run (step host) s acts) = uri :=
    run_invariant_mem (P := fun t : Page Body => Settled t.pace ∧ dueUri t = uri)
    (fun t a mem kept => ⟨settled_act host kept.1 a,
      (dueUri_quiet host kept.1 (quiet a mem).1 (quiet a mem).2).trans kept.2⟩) ⟨settled, due⟩
  exact both.2

/-- Whatever is queued before it, the last `mtls.peer_uri_seen` names the URI. -/
theorem dueUri_shown (host : Host) {s : Page Body} (settled : Settled s.pace) {a : Action Body}
    {seen : Record} {uri : String} (brings : a.accepted host = some ⟨"mtls.peer_uri_seen", some seen⟩)
    (bears : seen.get "uri" = some (.str uri)) : dueUri (step host s a) = .str uri := by
  cases a with
  | sse msg =>
    have due := dueUri_pace host settled 
      (rfl : (Action.sse msg : Action Body).op? = some (.push msg)) (by
      rw [brings]
      simp)
    rw [step, due, brings]
    simp [Engine.seenUri, bears]
  | run | reset | respond | expire | setPace | skip | commit | effect | tick | clock => contradiction

theorem hear_silent (host : Host) (now : Int) {signals : List Signal} {e : Engine Body} {uri : String}
    (silent : ∀ ev ∈ events signals, Silent ev) (shown : ShowsForeign uri e.pending) :
    ShowsForeign uri (e.hear host now signals).pending := by
  refine Engine.hear_invariant (P := fun e : Engine Body => ShowsForeign uri e.pending) host now
    ?_ ?_ shown
  · intro ev mem e shown
    have quiet := silent ev mem
    have plain := Engine.onEvent_plain host now e quiet.1
    have still : ¬ Engine.Advances e ev := by
      rintro ⟨_, stage, _⟩
      rw [quiet.2] at stage
      omega
    obtain ⟨_, stage, _⟩ := plain.kept still
    unfold ShowsForeign
    rw [plain.status, stage, plain.error]
    exact shown
  · intro e shown
    rcases Engine.walking_pending e with same | ⟨_, _, fine⟩
    · rw [same]
      exact shown
    · exact absurd shown.1 fine

theorem hear_error (host : Host) (now : Int) {signals : List Signal} {e : Engine Body}
    {earlier : List PaceEvent} {failed : Option Record} {uri : String} (named : uri ≠ "")
    (heard : events signals = earlier ++ [⟨"mtls.handshake.err", failed⟩])
    (seen : earlier.foldl Engine.seenUri e.peerUri = .str uri) :
    ShowsForeign uri (e.hear host now signals).pending := by
  induction signals generalizing e earlier with
  | nil => simp at heard
  | cons signal signals ih =>
    cases signal with
    | event a =>
      rw [events_event] at heard
      rw [Engine.hear_event]
      cases earlier with
      | nil =>
        obtain ⟨ev, none_⟩ := List.cons.inj heard
        refine hear_silent host now (by simp [none_]) ?_
        have err : isErrorEvent a.ev.type = true := by
          rw [ev]
          exact (by decide : isErrorEvent "mtls.handshake.err" = true)
        have captured : Engine.seenUri e.peerUri a.ev = .str uri := by
          rw [ev]
          exact seen
        have truthy : (JsValue.str uri).truthy = true := by simpa [JsValue.truthy] using named
        rw [Engine.onEvent_error host now e err, captured]
        refine ⟨rfl, rfl, _, _, rfl, by rw [ev], rfl, ?_⟩
        simp [Engine.merged, truthy]
      | cons first earlier =>
        obtain ⟨ev, rest⟩ := List.cons.inj heard
        refine ih rest ?_
        rw [(Engine.onEvent_refs host now a.ev e).2.2, ev]
        exact seen
    | state st =>
      cases st with
      | idle => exact ih heard seen
      | walking => exact ih heard seen

def AllSilent (evs : List PaceEvent) : Prop := ∀ ev ∈ evs, Silent ev

/-- A response that brings no body, and no run or reset. -/
def Action.Refused : Action Body → Prop
  | .run _ _ => False
  | .reset => False
  | .respond _ (.notOk _ _) => True
  | .respond _ _ => False
  | _ => True

/-- The error on display, with nothing queued that could change it. -/
structure Displayed (uri : String) (s : Page Body) : Prop where
  settled : Settled s.pace
  quiet : AllSilent (queued s.pace)
  shown : ShowsForeign uri s.engine.pending

theorem shown_refusal {uri : String} {e : Engine Body} (shown : ShowsForeign uri e.pending)
    (status : Nat) (text : String) : ShowsForeign uri (e.settle (.notOk status text)).pending := by
  obtain ⟨_, stage, err, payload, error, type, held, named⟩ := shown
  have kept : e.pending.error.bind (·.payload) = some payload := by simp [error, held]
  refine ⟨?_, ?_, err, payload, ?_, type, held, named⟩
  · simp [Engine.settle, Update.apply]
  · simp [Engine.settle, Update.apply, kept, stage]
  · simp [Engine.settle, Update.apply, error, held]

theorem displayed_step (host : Host) {uri : String} {s : Page Body} (on : Displayed uri s)
    {a : Action Body} (refused : a.Refused) (silent : ∀ ev, a.accepted host = some ev → Silent ev) :
    Displayed uri (step host s a) := by
  have settled := settled_act host on.settled a
  cases acts : a.op? with
  | some op =>
    have same : ∀ ev, a.accepted host = some ev → ev.type ≠ "portal.resolve.requested" := by
      intro ev brings resolve
      have stage := (silent ev brings).2
      rw [resolve] at stage
      exact absurd stage (by decide)
    have order := heard_order host on.settled acts same
    have all : AllSilent (events (freshSignals host s.pace op) ++
        queued (s.paceStep host op).pace) := by
      rw [order]
      intro ev mem
      rcases List.mem_append.mp mem with old | new
      · exact on.quiet ev old
      · exact silent ev (Option.mem_toList.mp new)
    rw [step_pace host s acts] at settled ⊢
    exact {
      settled := settled
      quiet := fun ev mem => all ev (List.mem_append.mpr (Or.inr mem))
      shown := hear_silent host s.now
        (fun ev mem => all ev (List.mem_append.mpr (Or.inl mem))) on.shown }
  | none =>
    cases a with
    | run | reset => exact absurd refused id
    | sse | expire | setPace | skip => contradiction
    | respond id response =>
      cases response with
      | ok | failed => exact absurd refused (fun h => h)
      | notOk status text =>
        simp only [step, respond] at settled ⊢
        split
        · exact { on with shown := shown_refusal on.shown status text }
        · exact on
    | commit =>
      refine ⟨settled, on.quiet, ?_⟩
      rw [step, Engine.commit_pending]
      exact on.shown
    | effect =>
      refine ⟨settled, on.quiet, ?_⟩
      rw [step, Engine.effect_pending]
      exact on.shown
    | tick =>
      obtain ⟨e, ticked, same⟩ := tick_ttl s
      rw [step, ticked] at settled ⊢
      refine ⟨settled, on.quiet, ?_⟩
      rw [ShowsForeign, same.status, same.stage, same.error]
      exact on.shown
    | clock => exact ⟨settled, on.quiet, on.shown⟩

theorem displayed_run (host : Host) {uri : String} {s : Page Body} (on : Displayed uri s)
    {acts : List (Action Body)} (refused : ∀ a ∈ acts, a.Refused)
    (silent : ∀ a ∈ acts, ∀ ev, a.accepted host = some ev → Silent ev) :
    Displayed uri (run (step host) s acts) :=
  run_invariant_mem (fun _ a mem kept => displayed_step host kept (refused a mem) (silent a mem)) on

theorem displayed_by_error (host : Host) {uri : String} (named : uri ≠ "") {s : Page Body}
    (settled : Settled s.pace) (due : dueUri s = .str uri) {a : Action Body}
    {failed : Option Record} (brings : a.accepted host = some ⟨"mtls.handshake.err", failed⟩) :
    Displayed uri (step host s a) := by
  have after := settled_act host settled a
  cases a with
  | sse msg =>
    have err : SwaPace.isErr (PaceEvent.mk "mtls.handshake.err" failed).type = true :=
      (by decide : SwaPace.isErr "mtls.handshake.err" = true)
    have flushed : queued (s.paceStep host (.push msg)).pace = [] := by
      have unwraps : SwaPace.unwrap host msg = some ⟨"mtls.handshake.err", failed⟩ := brings
      have pushed : SwaPace.push host msg s.pace =
          SwaPace.pushEvent ⟨"mtls.handshake.err", failed⟩ s.pace := by
        rw [SwaPace.push, unwraps]
      rw [paceStep, queued, SwaPace.step, pushed, SwaPace.pushEvent_failed settled.noSkip err]
      rfl
    have order := heard_order host settled
      (rfl : (Action.sse msg : Action Body).op? = some (.push msg)) (by
      rw [brings]
      simp)
    rw [flushed, List.append_nil, brings] at order
    refine ⟨after, ?_, hear_error host s.now named order due⟩
    intro ev mem
    rw [step, flushed] at mem
    simp at mem
  | run | reset | respond | expire | setPace | skip | commit | effect | tick | clock => contradiction

theorem split_at {α β : Type} {f : α → Option β} {xs : List α} (before : List β) {later : List β}
    {y : β} (found : xs.filterMap f = before ++ y :: later) :
    ∃ front x rear, xs = front ++ x :: rear ∧ front.filterMap f = before ∧ f x = some y ∧
      rear.filterMap f = later := by
  obtain ⟨front, rest, rfl, head, tail⟩ := List.filterMap_eq_append_iff.mp found
  obtain ⟨skip, x, rear, rfl, none_, here, after⟩ := List.filterMap_eq_cons_iff.mp tail
  refine ⟨front ++ skip, x, rear, by simp, ?_, here, after⟩
  rw [List.filterMap_append, head, List.filterMap_eq_nil_iff.mpr none_, List.append_nil]

/-- Whatever the pace queue held, however it is paced and whenever the response comes, a
    foreign carrier's rejection is shown with the URI it presented. -/
theorem foreign_rejection_shown (host : Host) (s : Page Body)
    (reachable : SwaPace.Reachable host s.pace) (shipmentId : String) (uri : String)
    (acts : List (Action Body)) (rejection : Rejection host s.issued uri acts) :
    ShowsForeign uri
      (run (step host) (s.run .external shipmentId) (acts ++ [.commit])).engine.cells := by
  obtain ⟨_, _, seen, failed, rejected, order, bears⟩ := rejection.events
  obtain ⟨text, response⟩ := rejection.response
  have refused : ∀ a ∈ acts, a.Refused := by
    intro a mem
    cases a with
    | run | reset => exact absurd (rejection.ongoing _ mem) (by simp [Action.restarts])
    | respond id outcome =>
      have listed : (id, outcome) ∈ acts.filterMap Action.response? :=
        List.mem_filterMap.mpr ⟨_, mem, rfl⟩
      rw [response, List.mem_singleton, Prod.mk.injEq] at listed
      rw [listed.2]
      trivial
    | sse | expire | setPace | skip | commit | effect | tick | clock => trivial
  obtain ⟨ops, reached⟩ := reachable
  have start : Settled (s.run .external shipmentId).pace := by
    change Settled s.pace
    rw [reached]
    exact SwaPace.settled_run host ops
  obtain ⟨front, peer, rest, rfl, _, shows, later⟩ := split_at [_, _] order
  obtain ⟨middle, error, rear, rfl, between, fails, last⟩ := split_at [] later
  -- before the event that bears the URI only the queue's own invariant is needed
  have queue₁ := settled_acts host start front
  have due : dueUri (step host (run (step host) (s.run .external shipmentId) front) peer) =
      .str uri := dueUri_shown host queue₁ shows bears
  have waits : dueUri (run (step host) (step host (run (step host) (s.run .external shipmentId)
      front) peer) middle) = .str uri :=
    dueUri_run host (settled_act host queue₁ peer) due
      (fun a mem => ⟨rejection.ongoing a (by simp [mem]),
        List.filterMap_eq_nil_iff.mp between a mem⟩)
  have queue₂ := settled_acts host (settled_act host queue₁ peer) middle
  have displayed := displayed_by_error host rejection.named queue₂ waits fails
  have ends : ∀ a ∈ rear, ∀ ev, a.accepted host = some ev → Silent ev := by
    intro a mem ev brings
    have listed : ev ∈ rear.filterMap (·.accepted host) := List.mem_filterMap.mpr ⟨a, mem, brings⟩
    rw [last, List.mem_singleton] at listed
    rw [listed]
    exact ⟨(by decide : isErrorEvent "portal.resolve.rejected" = false),
      (by decide : eventToStage "portal.resolve.rejected" = -1)⟩
  have final := displayed_run host displayed (fun a mem => refused a (by simp [mem])) ends
  rw [run_concat, run_append, run_cons, run_append, run_cons]
  simpa [step] using final.shown

/-- The 502 comes before the error, at slow pace; the last two events are still queued
    when the error flushes the walk. -/
theorem slow_rejection_shown :
    ShowsForeign "spiffe://other/carrier"
      (run (step ⟨fun _ => .nan, fun _ => none⟩) ((initial 0 : Page Nat).run .external "SHP-1")
        ([.setPace (.str "slow"), .sse (some ⟨"portal.resolve.requested", none⟩),
          .sse (some ⟨"mtls.handshake.start", none⟩), .commit, .respond 0 (.notOk 502 ""), .commit,
          .sse (some ⟨"mtls.peer_uri_seen", some [("uri", .str "spiffe://other/carrier")]⟩),
          .sse (some ⟨"mtls.handshake.err", none⟩),
          .sse (some ⟨"portal.resolve.rejected", none⟩), .expire 0] ++ [.commit])).engine.cells := by
  refine foreign_rejection_shown _ (initial 0) ⟨[], rfl⟩ _ _ _ ⟨by decide, ?_, ⟨"", rfl⟩, by decide⟩
  exact ⟨none, none, [("uri", .str "spiffe://other/carrier")], none, none, rfl, rfl⟩

end SwaEngine
