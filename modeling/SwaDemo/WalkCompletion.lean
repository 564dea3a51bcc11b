import SwaDemo.ResolveChain
import SwaDemo.DoubleWrap
import SwaDemo.ForeignCarrier
import SwaDemo.FrameFronts

/-!
Who completes the walk. The stage indicator of the page moves with the events of the trace
(`useResolveEngine.ts`, `stageMap.ts`), but nothing in the vocabulary of the two services is
further than the secret; the last step is taken by the answer of `/resolve` alone.
-/
namespace SwaChain
open SwaTrace SwaWire Runs SwaEngine Page
open SwaBus.TraceBus (stamp)
open SwaFrames (Bytes Read Cut stringOfBytes rawEvent dataPrefix newline encodeFrames streamReads)
open SwaPace (PaceEvent Host Op Settled unwrap)
open Json (Value)

/-! ## What can come over the trace -/

/-- What the portal forwards of the text of an event, wherever its reads end: some of it from
    the beginning, or all of it and one newline. -/
def Fragment (body : Bytes) (frame : GoString) : Prop :=
  ∃ front, front ≠ [] ∧ front <+: body ++ [newline] ∧ frame = stringOfBytes front

/-- A message of `/trace`: an event of the portal, or a forwarded one of the carrier, whole or
    cut off. -/
inductive FromServices (browser : Browser) : Option PaceEvent → Prop where
  | portal (w : Writer) {ev : TraceEvent} (known : ev.shape ∈ portalShapes)
      (own : ev.type ≠ "carrier.event.raw") : FromServices browser (received browser.ref (w.marshal ev))
  | carrier (atCarrier atPortal : Writer) {ev : TraceEvent} {frame : GoString}
      (known : ev.shape ∈ carrierShapes) (fragment : Fragment (atCarrier.marshal ev) frame) (now : Int) :
      FromServices browser (received browser.ref (atPortal.marshal (stamp now (rawEvent frame))))

/-- Whatever the portal emits of the stream of a subscription is among these messages, however it
    is cut into reads, if no event's text has the `data: ` in it that frames begin with. -/
theorem stream_fromServices (browser : Browser) (atCarrier atPortal : Writer) {events : List TraceEvent}
    (known : ∀ ev ∈ events, ev.shape ∈ carrierShapes)
    (plain : ∀ ev ∈ events, ¬ dataPrefix <:+: atCarrier.marshal ev) {reads : List Read}
    (cut : Cut (encodeFrames (events.map atCarrier.marshal)) reads) {raws : List TraceEvent}
    (forwards : streamReads reads = some raws) (now : Int) :
    ∀ raw ∈ raws, FromServices browser (received browser.ref (atPortal.marshal (stamp now raw))) := by
  intro raw mem
  have plain' : ∀ b ∈ events.map atCarrier.marshal, ¬ dataPrefix <:+: b := by
    simpa using plain
  obtain ⟨b, sent, front, some_, begins, rfl⟩ := SwaFrames.streamReads_fronts plain' cut forwards raw mem
  obtain ⟨ev, among, rfl⟩ := List.mem_map.mp sent
  exact .carrier atCarrier atPortal (known ev among) ⟨front, some_, begins, rfl⟩ now

/-- A fragment is read as the event itself, or not at all. -/
theorem fragment_parsed (w : Writer) (ref : Value → Nat) {ev : TraceEvent} {frame : GoString}
    (fragment : Fragment (w.marshal ev) frame) :
    parseMessage ref frame = parseMessage ref (stringOfBytes (w.marshal ev)) ∨
      parseMessage ref frame = none := by
  obtain ⟨front, some_, ⟨rest, split⟩, rfl⟩ := fragment
  have regular := w.regular_event ev
  rcases rest.eq_nil_or_concat' with rfl | ⟨rest, last, rfl⟩
  · left
    rw [List.append_nil] at split
    rw [split, SwaFrames.stringOfBytes_append, parseMessage, parseMessage]
    exact congrArg _ (Json.parse_trailing rfl _)
  · rw [← List.append_assoc] at split
    have whole := (List.append_inj' split rfl).1
    by_cases done : rest = []
    · left
      rw [← whole, done, List.append_nil]
    · right
      have text : stringOfBytes front ++ stringOfBytes rest =
          Json.encode (recoded Json.goQuoting) (w.event ev) := by
        rw [← SwaFrames.stringOfBytes_append, whole, Writer.marshal, encode_recoded _ regular]
      have more : stringOfBytes rest ≠ [] := fun none_ => done (SwaFrames.stringOfBytes_eq_nil.mp none_)
      rw [parseMessage, Json.encode_cut _ regular text.symm more]
      rfl

/-- The event stands for no stage beyond the secret. -/
def Within (ev : PaceEvent) : Prop := eventToStage ev.type ≤ 4

theorem services_within {browser : Browser} {msg : Option PaceEvent} (sent : FromServices browser msg) :
    ∀ ev, unwrap browser.host msg = some ev → Within ev := by
  cases sent with
  | @portal w ev known own =>
    have each : ∀ shape ∈ portalShapes, shape.2.Nodup ∧ eventToStage shape.1 ≤ 4 := by decide +kernel
    obtain ⟨distinct, within⟩ := each ev.shape known
    obtain ⟨seen, arrives, mirrors⟩ := event_received w browser.ref distinct
    intro ev' same
    have type : seen.type = ev.type := mirrors.type
    rw [arrives, unwrap] at same
    simp only [type, if_neg own, Option.some.injEq] at same
    rw [← same, Within, type]
    exact within
  | @carrier atCarrier atPortal ev frame known fragment now =>
    have each : ∀ shape ∈ carrierShapes, eventToStage shape.1 ≤ 4 := by decide +kernel
    obtain ⟨seen, parsed, as⟩ := survives atCarrier browser (plain_shape known)
    have valid : Json.Utf8 frame := by
      obtain ⟨front, _, _, rfl⟩ := fragment
      exact utf8_stringOfBytes front
    have some_ : frame ≠ [] := by
      obtain ⟨front, some_, _, rfl⟩ := fragment
      exact fun none_ => some_ (SwaFrames.stringOfBytes_eq_nil.mp none_)
    intro ev' same
    rcases fragment_parsed atCarrier browser.ref fragment with whole | cut
    · rw [unwrap_raw browser atPortal valid some_ (whole.trans parsed), Option.some.injEq] at same
      rw [← same, Within, as.mirrors.type]
      exact each ev.shape known
    · obtain ⟨outer, stays, type⟩ := unwrap_unparsed browser atPortal valid some_ cut now
      rw [stays, Option.some.injEq] at same
      rw [← same, Within, type]
      decide

/-! ## The engine -/

/-- The stage is none beyond the secret, and if more than that is shown as completed there is
    a reason `C` for it. -/
structure Capped (C : Prop) (e : Engine Value) : Prop where
  maxStage : e.maxStage ≤ 4
  stage : e.pending.stage ≤ 4
  completed : 4 < e.pending.completed → C

theorem capped_event {C : Prop} (host : Host) (now : Int) {ev : PaceEvent} (within : Within ev)
    {e : Engine Value} (capped : Capped C e) : Capped C (e.onEvent host now ev) := by
  by_cases err : isErrorEvent ev.type = true
  · have pending := Engine.onEvent_error host now e err
    have maxStage : (e.onEvent host now ev).maxStage = e.maxStage := by
      rw [Engine.onEvent, if_pos err, Engine.showError, Engine.seePeerUri_eq]
      rfl
    refine ⟨maxStage ▸ capped.maxStage, ?_, ?_⟩
    · rw [pending]
      have low : (-1 : Int) ≤ 4 := by decide
      exact low
    · rw [pending]
      exact capped.completed
  · have plain := Engine.onEvent_plain host now e (by simpa using err)
    by_cases forward : Engine.Advances e ev
    · obtain ⟨maxStage, stage, completed⟩ := plain.advanced forward
      refine ⟨maxStage ▸ within, stage ▸ within, fun beyond => ?_⟩
      rw [completed] at beyond
      exact absurd beyond (Int.not_lt.mpr within)
    · obtain ⟨maxStage, stage, completed⟩ := plain.kept forward
      exact ⟨maxStage ▸ capped.maxStage, stage ▸ capped.stage, completed ▸ capped.completed⟩

theorem capped_walking {C : Prop} {e : Engine Value} (capped : Capped C e) :
    Capped C (e.queue [.setStatusWalking]) := by
  have stage : (e.queue [.setStatusWalking]).pending.stage = e.pending.stage := by
    rcases Engine.walking_pending e with same | ⟨same, _⟩ <;> rw [same]
  have completed : (e.queue [.setStatusWalking]).pending.completed = e.pending.completed := by
    rcases Engine.walking_pending e with same | ⟨same, _⟩ <;> rw [same]
  exact ⟨capped.maxStage, stage ▸ capped.stage, completed ▸ capped.completed⟩

theorem capped_hear {C : Prop} (host : Host) (now : Int) {signals : List SwaPace.Signal}
    (within : ∀ ev ∈ events signals, Within ev) {e : Engine Value} (capped : Capped C e) :
    Capped C (e.hear host now signals) :=
  Engine.hear_invariant host now (fun ev mem _ kept => capped_event host now (within ev mem) kept)
    (fun _ kept => capped_walking kept) capped

/-! ## The page -/

/-- Every message that arrives is one of the services'. -/
def Fed (browser : Browser) : Action Value → Prop
  | .sse msg => FromServices browser msg
  | _ => True

/-- A reason for what is shown as completed: it speaks of the current run and of the answers
    so far, and more answers do not take it away. -/
abbrev Reason := Option Nat → List (Nat × Value) → Prop

structure Stays (C : Reason) : Prop where
  more : ∀ current answers later, C current answers → C current (answers ++ later)

/-- An OK answer that is handled is a reason. -/
def Gives (C : Reason) (s : Page Value) : Action Value → Prop
  | .respond id (.ok data) => s.Outstanding id → C s.current (s.answers ++ [(id, data)])
  | _ => True

structure Walks (C : Reason) (s : Page Value) : Prop where
  settled : Settled s.pace
  queued : ∀ ev ∈ queued s.pace, Within ev
  capped : Capped (C s.current s.answers) s.engine

/-- An operation hands out and leaves behind only what was queued or what it brought. -/
theorem heard_mem (host : Host) {s : Page Value} (settled : Settled s.pace) {a : Action Value} {op : Op}
    (acts : a.op? = some op) {ev : PaceEvent}
    (mem : ev ∈ events (freshSignals host s.pace op) ++ queued (s.paceStep host op).pace) :
    ev ∈ queued s.pace ∨ a.accepted host = some ev := by
  obtain ⟨offered, _⟩ := op_offered host acts
  rw [← offered, ← Option.mem_toList]
  rcases heard_fifo host settled op with kept | ⟨_, dropped⟩
  · exact List.mem_append.mp (kept ▸ mem)
  · exact Or.inr (dropped ▸ mem)

theorem walks_pace {C : Reason} (browser : Browser) {s : Page Value} {a : Action Value} {op : Op}
    (acts : a.op? = some op) (fed : Fed browser a) (walks : Walks C s) :
    Walks C (s.paceStep browser.host op) := by
  have brought : ∀ ev, a.accepted browser.host = some ev → Within ev := by
    intro ev brings
    cases a with
    | sse msg => exact services_within fed ev brings
    | run | reset | respond | expire | setPace | skip | commit | effect | tick | clock => contradiction
  have all : ∀ ev ∈ events (freshSignals browser.host s.pace op) ++
      queued (s.paceStep browser.host op).pace, Within ev := by
    intro ev mem
    rcases heard_mem browser.host walks.settled acts mem with old | new
    · exact walks.queued ev old
    · exact brought ev new
  exact ⟨SwaPace.settled_step browser.host walks.settled op, fun ev mem => all ev (List.mem_append_right _ mem),
    capped_hear browser.host s.now (fun ev mem => all ev (List.mem_append_left _ mem)) walks.capped⟩

theorem capped_respond {C D : Prop} {e : Engine Value} {response : Engine.Response Value}
    (capped : Capped C e) (because : C → D) (gives : ∀ data, response = .ok data → D) :
    Capped D (e.settle response) := by
  cases response with
  | ok data => exact ⟨capped.maxStage, by simp [Engine.settle, Update.apply], fun _ => gives data rfl⟩
  | notOk status text =>
    have cells : (e.settle (.notOk status text)).pending.stage = e.pending.stage ∧
        (e.settle (.notOk status text)).pending.completed = e.pending.completed := by
      simp only [Engine.settle, Engine.pending_queue, List.foldl_cons, List.foldl_nil, Update.apply]
      split <;> exact ⟨rfl, rfl⟩
    exact ⟨capped.maxStage, cells.1 ▸ capped.stage, fun beyond => because (capped.completed (cells.2 ▸ beyond))⟩
  | failed err =>
    exact ⟨capped.maxStage, by simpa [Engine.settle, Update.apply] using capped.stage,
      fun beyond => because (capped.completed (by simpa [Engine.settle, Update.apply] using beyond))⟩

theorem walks_step {C : Reason} (stays : Stays C) (browser : Browser) {s : Page Value} {a : Action Value}
    (fed : Fed browser a) (gives : Gives C s a) (walks : Walks C s) :
    Walks C (step browser.host s a) := by
  have low : (-1 : Int) ≤ 4 := by decide
  have settled := settled_act browser.host walks.settled a
  cases acts : a.op? with
  | some op =>
    rw [step_pace browser.host s acts]
    exact walks_pace browser acts fed walks
  | none =>
    cases a with
    | sse | expire | setPace | skip => contradiction
    | run carrier shipmentId =>
      refine ⟨settled, walks.queued, ?_, ?_, ?_⟩
      · exact low
      · simp [step, Page.run, Engine.run, Update.apply]
      · simp [step, Page.run, Engine.run, Update.apply]
    | reset =>
      refine ⟨settled, ?_, ?_, ?_, ?_⟩
      · simp [step, Page.reset, queued, SwaPace.preemptAndFlush]
      · exact low
      · simp [step, Page.reset, Engine.reset, Update.apply]
      · simp [step, Page.reset, Engine.reset, Update.apply]
    | respond id response =>
      by_cases open_ : s.Outstanding id
      · have answered_ : step browser.host s (.respond id response) = { s with
            engine := s.engine.settle response
            requests := s.requests.filter (·.id != id)
            answers := s.answers ++ answered id response } := by rw [step, respond, if_pos open_]
        rw [answered_]
        refine ⟨walks.settled, walks.queued, capped_respond walks.capped (stays.more _ _ _) ?_⟩
        intro data same
        subst same
        exact gives open_
      · have same : step browser.host s (.respond id response) = s := by rw [step, respond, if_neg open_]
        rw [same]
        exact walks
    | commit =>
      have ref : s.engine.commit.maxStage = s.engine.maxStage := by
        simp only [Engine.commit, Engine.effect]
        split <;> rfl
      refine ⟨settled, walks.queued, ?_, ?_, ?_⟩
      · exact ref ▸ walks.capped.maxStage
      · simpa [step] using walks.capped.stage
      · simpa [step] using walks.capped.completed
    | effect =>
      have ref : s.engine.effect.maxStage = s.engine.maxStage := by
        simp only [Engine.effect]
        split <;> rfl
      refine ⟨settled, walks.queued, ?_, ?_, ?_⟩
      · exact ref ▸ walks.capped.maxStage
      · simpa [step] using walks.capped.stage
      · simpa [step] using walks.capped.completed
    | tick =>
      obtain ⟨e, ticked, same⟩ := tick_ttl s
      rw [step, ticked]
      exact ⟨walks.settled, walks.queued, same.maxStage ▸ walks.capped.maxStage,
        same.stage ▸ walks.capped.stage, fun beyond => walks.capped.completed (same.completed ▸ beyond)⟩
    | clock now => exact ⟨settled, walks.queued, walks.capped⟩

theorem walks_initial (C : Reason) (now : Int) : Walks C (initial now) where
  settled := SwaPace.settled_initial
  queued := by simp [initial, queued, SwaPace.initial]
  capped := by
    refine ⟨?_, ?_, ?_⟩
    · simp [initial]
    · simp [initial, Engine.pending]
    · simp [initial, Engine.pending]

/-- Some answer, and the answer to the current run. -/
def anyAnswer : Reason := fun _ answers => answers ≠ []

def latestAnswer : Reason := fun current answers => ∃ id data, current = some id ∧ (id, data) ∈ answers

theorem stays_any : Stays anyAnswer := ⟨fun _ _ _ some_ => List.append_ne_nil_of_left_ne_nil some_ _⟩

theorem stays_latest : Stays latestAnswer :=
  ⟨fun _ _ _ ⟨id, data, latest, mem⟩ => ⟨id, data, latest, List.mem_append_left _ mem⟩⟩

theorem gives_any (s : Page Value) (a : Action Value) : Gives anyAnswer s a := by
  cases a with
  | respond id response =>
    cases response with
    | ok data => exact fun _ => List.append_ne_nil_of_right_ne_nil _ (List.cons_ne_nil _ _)
    | notOk | failed => trivial
  | run | reset | sse | expire | setPace | skip | commit | effect | tick | clock => exact trivial

theorem gives_latest {s : Page Value} {a : Action Value} (fresh : ¬ StaleAnswer s a) :
    Gives latestAnswer s a := by
  cases a with
  | respond id response =>
    cases response with
    | ok data =>
      intro open_
      have run : s.current = some id := by
        by_contra other
        exact fresh ⟨open_, other⟩
      exact ⟨id, data, run, List.mem_append_right _ (List.mem_singleton_self _)⟩
    | notOk | failed => trivial
  | run | reset | sse | expire | setPace | skip | commit | effect | tick | clock => exact trivial

/-- In every run that is fed by the two services, no stage beyond the secret is ever shown,
    and whatever is shown as completed beyond it was granted to a request of the page; where
    no answer was overtaken, to the latest one. -/
theorem walk_completed_by_answer (worlds : Nat → World) (browser : Browser) (now : Int)
    (acts : List (Action Value)) (fed : ∀ a ∈ acts, Fed browser a)
    (honest : EachStep (step browser.host) (Honest worlds) (initial now) acts) :
    AtCommits browser.host (fun s => s.engine.cells.stage ≤ 4 ∧
      (4 < s.engine.cells.completed → ∃ id data, Authentic worlds acts id data)) (initial now) acts ∧
    (EachStep (step browser.host) (fun s a => ¬ StaleAnswer s a) (initial now) acts →
      AtCommits browser.host (fun s => 4 < s.engine.cells.completed →
        ∃ id data, s.current = some id ∧ Authentic worlds acts id data) (initial now) acts) := by
  have answered {before later : List (Action Value)} (split : acts = before ++ .commit :: later)
      {a : Nat × Value} (mem : a ∈ (run (step browser.host) (initial now) before).answers) :
      Authentic worlds acts a.1 a.2 := by
    rw [split] at honest ⊢
    exact authentic_kept ((genuine_run (eachStep_append.mp honest).1).answers a mem)
  have within {before later : List (Action Value)} (split : acts = before ++ .commit :: later) :
      ∀ a ∈ before, Fed browser a := fun a mem => fed a (by simp [split, mem])
  constructor
  · intro before later split
    have walks : Walks anyAnswer (run (step browser.host) (initial now) before) :=
      run_invariant_mem (fun s a mem kept => walks_step stays_any browser (within split a mem)
        (gives_any s a) kept) (walks_initial anyAnswer now)
    rw [run_concat]
    simp only [step, Engine.commit_cells]
    refine ⟨walks.capped.stage, fun beyond => ?_⟩
    obtain ⟨⟨id, data⟩, mem⟩ := List.exists_mem_of_ne_nil _ (walks.capped.completed beyond)
    exact ⟨id, data, answered split mem⟩
  · intro fresh before later split
    rw [split] at fresh
    have each := eachStep_and (within split) (eachStep_append.mp fresh).1
    have walks : Walks latestAnswer (run (step browser.host) (initial now) before) :=
      run_invariant_of (fun s a meets kept => walks_step stays_latest browser meets.1
        (gives_latest meets.2) kept) (walks_initial latestAnswer now) each
    rw [run_concat]
    simp only [step, Engine.commit_cells]
    intro beyond
    obtain ⟨id, data, current, mem⟩ := walks.capped.completed beyond
    exact ⟨id, data, current, answered split mem⟩

def sampleTold : GoString :=
  sampleWriter.marshal (newEvent "carrier" "request.received" [("id", .str (goString "SHP-2049-883"))])

/-- One request, and of its trace an event of the portal, one of the carrier, and the beginning of
    the latter's text. -/
def sampleWalk : List (Action Value) := [
  .run .internal "SHP-2049-883",
  .sse (received sampleBrowser.ref (sampleWriter.marshal
    (newEvent "portal" "portal.resolve.requested" [("id", .str []), ("carrier", .str [])]))),
  .sse (received sampleBrowser.ref (sampleWriter.marshal
    (stamp 1 (rawEvent (stringOfBytes sampleTold))))),
  .sse (received sampleBrowser.ref (sampleWriter.marshal
    (stamp 2 (rawEvent (stringOfBytes (sampleTold.take 4)))))),
  .respond 0 (.ok (rowValue sampleWorld sampleRow))]

theorem sampleWalk_fed : ∀ a ∈ sampleWalk ++ [.commit], Fed sampleBrowser a := by
  have known : (newEvent "carrier" "request.received"
      [("id", .str (goString "SHP-2049-883"))]).shape ∈ carrierShapes := by decide +kernel
  intro a mem
  simp only [sampleWalk, List.mem_append, List.mem_cons, List.not_mem_nil, or_false] at mem
  rcases mem with (rfl | rfl | rfl | rfl | rfl) | rfl
  · trivial
  · exact .portal sampleWriter (by decide +kernel) (by decide)
  · exact .carrier sampleWriter sampleWriter known
      ⟨sampleTold, by decide +kernel, List.prefix_append _ _, rfl⟩ 1
  · exact .carrier sampleWriter sampleWriter known
      ⟨sampleTold.take 4, by decide +kernel, (List.take_prefix _ _).trans (List.prefix_append _ _), rfl⟩ 2
  · trivial
  · trivial

/-- All six steps are completed, by the answer to the request. -/
theorem sample_walk_completed :
    (run (step sampleBrowser.host) (initial 0) (sampleWalk ++ [.commit])).engine.cells.completed = 6 ∧
      ∃ id data, (run (step sampleBrowser.host) (initial 0) (sampleWalk ++ [.commit])).current = some id ∧
        Authentic (fun _ => sampleWorld) (sampleWalk ++ [.commit]) id data := by
  have six : (run (step sampleBrowser.host) (initial 0) (sampleWalk ++ [.commit])).engine.cells.completed =
      6 := by
    have answers (s : Page Value) (data : Value) (open_ : s.Outstanding 0) :
        (step sampleBrowser.host (step sampleBrowser.host s (.respond 0 (.ok data))) .commit
          ).engine.cells.completed = 6 := by
      simp [step, respond, open_, Engine.settle, Update.apply]
    rw [run_concat]
    exact answers (run (step sampleBrowser.host) (initial 0) (sampleWalk.take 4)) _
      (List.mem_singleton_self 0)
  refine ⟨six, (walk_completed_by_answer (fun _ => sampleWorld) sampleBrowser 0 (sampleWalk ++ [.commit])
    sampleWalk_fed ?_).2 ?_ sampleWalk [] rfl (by rw [six]; decide)⟩
  · refine ⟨trivial, trivial, trivial, trivial, ?_, trivial, trivial⟩
    intro r mem _
    rw [List.mem_singleton.mp mem]
    exact ⟨_, sample_served, sample_reaches⟩
  · exact ⟨id, id, id, id, fun stale => stale.2 rfl, id, trivial⟩

end SwaChain
