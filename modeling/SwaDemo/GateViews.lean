import SwaDemo.EngineSteps

/-!
What the inspector views make of the engine's cells (`visualizations/LayersInspector.tsx`
and `TopologyInspector.tsx`), and when they are right to call mutual TLS rejected. The
views are told `status`, `stage` and `completed` and not which gate failed.
-/
namespace SwaViews
open SwaEngine

inductive LayerState where
  | locked
  | active
  | passed
  | rejected
  deriving DecidableEq, Repr

variable {Body : Type}

namespace LayersInspector

def errored (c : Cells Body) : Bool := c.status == .error

/-- `stateFor`, for the layers 0 to 4; layer 1 is mutual TLS. -/
def stateFor (c : Cells Body) (idx : Int) : LayerState :=
  if errored c ∧ idx = 1 then .rejected
  else if errored c ∧ 1 < idx then .locked
  else if idx < c.completed then .passed
  else if c.stage = idx then .active
  else .locked

def passedCount (c : Cells Body) : Int := if errored c then 1 else c.completed

/-- The stage at which the dot on the rail stands. -/
def dotPos (c : Cells Body) : Int :=
  if errored c then 1
  else if 0 ≤ c.stage then c.stage
  else if c.status = .done then 5
  else 0

end LayersInspector

inductive CardVisualState where
  | locked
  | active
  | done
  deriving DecidableEq, Repr

inductive MtlsState where
  | rejected
  | done
  | active
  | locked
  deriving DecidableEq, Repr

namespace TopologyInspector

def errored (c : Cells Body) : Bool := c.status == .error

/-- Determines the visual state of a topology card based on engine progress. -/
def cardState (reachedAfter completed activeStage : Int) (errored : Bool) (failStage : Int) :
    CardVisualState :=
  if errored ∧ failStage ≤ reachedAfter then .locked
  else if reachedAfter < completed then .done
  else if activeStage = reachedAfter then .active
  else .locked

def mtlsState (c : Cells Body) : MtlsState :=
  if errored c then .rejected
  else if 1 < c.completed then .done
  else if c.stage = 1 then .active
  else .locked

/-- The card of the portal, and that of the carrier. -/
def pairState (c : Cells Body) : CardVisualState :=
  if 0 < c.completed then .done
  else if c.stage = 0 then .active
  else .locked

def jwtState (c : Cells Body) : CardVisualState := cardState 2 c.completed c.stage (errored c) 2
def smState (c : Cells Body) : CardVisualState := cardState 3 c.completed c.stage (errored c) 2
def secState (c : Cells Body) : CardVisualState := cardState 4 c.completed c.stage (errored c) 2

/-- The link into the card of stage `idx`. -/
def link (idx : Int) (c : Cells Body) : CardVisualState :=
  if errored c then .locked
  else if idx < c.completed then .done
  else if c.stage = idx then .active
  else .locked

def linkJwt : Cells Body → CardVisualState := link 2
def linkAuthn : Cells Body → CardVisualState := link 3
def linkFetch : Cells Body → CardVisualState := link 4

end TopologyInspector

theorem mtls_rejected_iff (c : Cells Body) :
    (LayersInspector.stateFor c 1 = .rejected ↔ c.status = .error) ∧
      (TopologyInspector.mtlsState c = .rejected ↔ c.status = .error) := by
  have layers : LayersInspector.errored c = true ↔ c.status = .error := by
    simp [LayersInspector.errored]
  have topology : TopologyInspector.errored c = true ↔ c.status = .error := by
    simp [TopologyInspector.errored]
  constructor
  · rw [← layers]
    unfold LayersInspector.stateFor
    cases LayersInspector.errored c with
    | true => simp
    | false =>
      simp only [Bool.false_eq_true, false_and, if_false, iff_false]
      split
      · simp
      · split <;> simp
  · rw [← topology]
    unfold TopologyInspector.mtlsState
    cases TopologyInspector.errored c with
    | true => simp
    | false =>
      simp only [Bool.false_eq_true, if_false, iff_false]
      split
      · simp
      · split <;> simp

/-- An error locks what is behind mutual TLS. -/
theorem later_layers_locked {c : Cells Body} (error : c.status = .error) {idx : Int} (later : 1 < idx) :
    LayersInspector.stateFor c idx = .locked ∧ TopologyInspector.link idx c = .locked := by
  have errored : LayersInspector.errored c = true := by simp [LayersInspector.errored, error]
  have errored' : TopologyInspector.errored c = true := by simp [TopologyInspector.errored, error]
  refine ⟨?_, ?_⟩
  · rw [LayersInspector.stateFor, if_neg (by omega), if_pos ⟨errored, later⟩]
  · rw [TopologyInspector.link, if_pos errored']

/-- One of the views calls mutual TLS rejected. -/
def ShowsMtlsRejected (c : Cells Body) : Prop :=
  LayersInspector.stateFor c 1 = .rejected ∨ TopologyInspector.mtlsState c = .rejected

theorem shows_iff (c : Cells Body) : ShowsMtlsRejected c ↔ c.status = .error := by
  obtain ⟨layers, topology⟩ := mtls_rejected_iff c
  rw [ShowsMtlsRejected, layers, topology, or_self]

end SwaViews

namespace SwaEngine
open Runs Page
open SwaPace (Host Op Signal PaceEvent)
open SwaViews (ShowsMtlsRejected)

variable {Body : Type}

def isHandshakeError (eventType : String) : Bool :=
  eventType == "mtls.handshake.err" || eventType == "mtls.handshake.error"

/-- A page and whether a handshake error was delivered since the last run or reset. -/
structure Watched (Body : Type) where
  page : Page Body
  refused : Bool

def watch (host : Host) (w : Watched Body) (a : Action Body) : Watched Body where
  page := step host w.page a
  refused :=
    match a with
    | .run _ _ | .reset => false
    | _ => w.refused || (w.page.heard host a).any fun ev => isHandshakeError ev.type

/-- What a commit would show now calls mutual TLS rejected only if its handshake failed. -/
def Attributed (w : Watched Body) : Prop :=
  ShowsMtlsRejected w.page.engine.commit.cells → w.refused = true

/-- The run fails some other way: before any handshake error an error event of another
    kind is delivered, or a request that is out ends in a status other than OK or in an
    exception. -/
def FailsElsewhere (host : Host) (w : Watched Body) (a : Action Body) : Prop :=
  w.refused = false ∧
    ((∃ ev ∈ w.page.heard host a, isErrorEvent ev.type = true) ∧
        (∀ ev ∈ w.page.heard host a, isHandshakeError ev.type = false) ∨
      ∃ id response, a = .respond id response ∧ w.page.Outstanding id ∧ ∀ data, response ≠ .ok data)

@[simp] theorem watch_page (host : Host) (w : Watched Body) (a : Action Body) :
    (watch host w a).page = step host w.page a := rfl

theorem attributed_iff (w : Watched Body) :
    Attributed w ↔ (w.page.engine.pending.status = .error → w.refused = true) := by
  rw [Attributed, SwaViews.shows_iff, Engine.commit_cells]

theorem attributed_heard (host : Host) {w : Watched Body} {a : Action Body} {op : Op}
    (acts : a.op? = some op) (attributed : Attributed w) :
    Attributed (watch host w a) ↔ ¬ FailsElsewhere host w a := by
  have refused : (watch host w a).refused =
      (w.refused || (w.page.heard host a).any fun ev => isHandshakeError ev.type) := by
    cases a with
    | run | reset => contradiction
    | respond | sse | expire | setPace | skip | commit | effect | tick | clock => rfl
  have status : (watch host w a).page.engine.pending.status = .error ↔
      w.page.engine.pending.status = .error ∨
        ∃ ev ∈ w.page.heard host a, isErrorEvent ev.type = true := by
    rw [watch_page, step_pace host w.page acts, paceStep_engine, Engine.hear_error_iff, heard, acts]
  have other : ∀ id response, a ≠ .respond id response := by
    rintro id response rfl
    contradiction
  rw [attributed_iff] at attributed
  rw [attributed_iff, status, refused, Bool.or_eq_true, List.any_eq_true]
  constructor
  · rintro shows ⟨fresh, ⟨loud, only⟩ | ⟨id, response, act, _⟩⟩
    · rcases shows (Or.inr loud) with was | ⟨ev, mem, handshake⟩
      · simp [fresh] at was
      · simp [only ev mem] at handshake
    · exact other id response act
  · rintro fine (was | loud)
    · exact Or.inl (attributed was)
    · by_contra quiet
      rw [not_or] at quiet
      refine fine ⟨by simpa using quiet.1, Or.inl ⟨loud, ?_⟩⟩
      intro ev mem
      by_contra handshake
      exact quiet.2 ⟨ev, mem, by simpa using handshake⟩

theorem attributed_respond (host : Host) {w : Watched Body} (id : Nat)
    (response : Engine.Response Body) (attributed : Attributed w) :
    Attributed (watch host w (.respond id response)) ↔
      ¬ FailsElsewhere host w (.respond id response) := by
  have refused : (watch host w (.respond id response)).refused = w.refused := by
    simp [watch, heard, Action.op?]
  have elsewhere : FailsElsewhere host w (.respond id response) ↔
      w.refused = false ∧ w.page.Outstanding id ∧ ∀ data, response ≠ .ok data := by
    simp [FailsElsewhere, heard, Action.op?, and_assoc]
  rw [attributed_iff] at attributed
  rw [attributed_iff, refused, elsewhere, watch_page, step, respond]
  by_cases out : w.page.Outstanding id
  · rw [if_pos out]
    cases response with
    | ok data => simp [Engine.settle, Update.apply]
    | notOk status text => simp [Engine.settle, Update.apply, out]
    | failed text => simp [Engine.settle, Update.apply, out]
  · rw [if_neg out]
    simp only [out, false_and, and_false, not_false_iff, iff_true]
    exact attributed

theorem attributed_quiet (host : Host) {w : Watched Body} {a : Action Body}
    (silent : a.op? = none) (other : ∀ id response, a ≠ .respond id response)
    (fine : (watch host w a).page.engine.pending.status = .error → (watch host w a).refused = true) :
    Attributed (watch host w a) ↔ ¬ FailsElsewhere host w a := by
  have nothing : ¬ FailsElsewhere host w a := by
    rintro ⟨_, ⟨⟨ev, mem, _⟩, _⟩ | ⟨id, response, act, _⟩⟩
    · simp [heard, silent] at mem
    · exact other id response act
  rw [attributed_iff]
  exact iff_of_true fine nothing

theorem attributed_step (host : Host) (w : Watched Body) (a : Action Body)
    (attributed : Attributed w) :
    Attributed (watch host w a) ↔ ¬ FailsElsewhere host w a := by
  have before := (attributed_iff w).mp attributed
  cases a with
  | run carrier shipmentId =>
    refine attributed_quiet host rfl (by simp) ?_
    simp [watch, step, Page.run, Engine.run, Update.apply]
  | reset =>
    refine attributed_quiet host rfl (by simp) ?_
    simp [watch, step, Page.reset, Engine.reset, Update.apply]
  | respond id response => exact attributed_respond host id response attributed
  | sse | expire | setPace | skip => exact attributed_heard host rfl attributed
  | commit =>
    refine attributed_quiet host rfl (by simp) ?_
    simpa [watch, step, heard, Action.op?] using before
  | effect =>
    refine attributed_quiet host rfl (by simp) ?_
    simpa [watch, step, heard, Action.op?] using before
  | tick =>
    refine attributed_quiet host rfl (by simp) ?_
    obtain ⟨e, ticked, same⟩ := tick_ttl w.page
    rw [watch_page, step, ticked]
    simpa [watch, heard, Action.op?, same.status] using before
  | clock now =>
    refine attributed_quiet host rfl (by simp) ?_
    simpa [watch, step, heard, Action.op?] using before

/-- In a run of the page the views call mutual TLS rejected only after a handshake error,
    exactly if nothing else fails first. -/
theorem failures_attributed (host : Host) (now : Int) (acts : List (Action Body)) :
    Always (watch host) Attributed ⟨initial now, false⟩ acts ↔
      EachStep (watch host) (fun w a => ¬ FailsElsewhere host w a) ⟨initial now, false⟩ acts := by
  refine always_iff_eachStep (I := fun _ => True) (fun _ _ _ => trivial)
    (fun w a _ attributed => attributed_step host w a attributed) trivial ?_
  rw [attributed_iff]
  simp [initial, Engine.pending]

/-- Mutual TLS passes, the token is issued and Secrets Manager refuses it. -/
theorem refused_token_blames_mtls :
    ¬ ∀ (host : Host) (acts : List (Action Nat)),
      Always (watch host) Attributed ⟨initial 0, false⟩ acts := by
  intro all
  have shown := all ⟨fun _ => .nan, fun _ => none⟩
    [.run .internal "SHP-2049-883", .sse (some ⟨"mtls.handshake.ok", none⟩),
      .sse (some ⟨"jwt_svid.issued", none⟩), .sse (some ⟨"sm.authn_jwt.err", none⟩)]
  have blamed := (attributed_iff _).mp shown.2.2.2.2
  revert blamed
  decide

end SwaEngine
