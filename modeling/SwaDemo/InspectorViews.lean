import SwaDemo.GateViews

/-!
The log of the trace view (`visualizations/TraceInspector.tsx`), the footer of the
inspector (`components/InspectorChrome.tsx`) and what ties them to the other two views.
The log is a script of which each render filters the rows to show; the handlers move
`stage` and `completed` so that what is left is always the start of the script.
-/
namespace SwaViews
open SwaEngine

namespace SWA

structure Stage where
  key : String
  verb : String
  deriving DecidableEq, Repr

/-- The six animated stages of a successful resolve. -/
def stages : List Stage := [
  ⟨"attest", "Attesting node"⟩,
  ⟨"mtls", "Opening mTLS"⟩,
  ⟨"jwt", "Requesting JWT-SVID"⟩,
  ⟨"authn", "Exchanging at Secrets Manager"⟩,
  ⟨"fetch", "Fetching secret"⟩,
  ⟨"resolve", "Resolving shipment"⟩]

def cipher : String := "TLS_AES_128_GCM_SHA256"

/-- `SWA.stages[stage]` -/
def stageAt (stage : Int) : Option Stage := if 0 ≤ stage then stages[stage.toNat]? else none

end SWA

variable {Body : Type}

namespace TraceInspector

inductive Kind where
  | req
  | res
  deriving DecidableEq, Repr

inductive Tone where
  | ok
  | err
  deriving DecidableEq, Repr

structure TraceEvent where
  s : Int
  k : Kind
  type : String
  src : String
  dst : String
  msg : String
  ms : Nat
  tone : Option Tone
  deriving DecidableEq, Repr

/-- The row that an external carrier's script ends in. -/
def rejection : TraceEvent where
  s := 1
  k := .res
  type := "mtls"
  src := "portal"
  dst := "acme.courier"
  msg := "REJECTED · untrusted authority · no shared trust roots"
  ms := 46
  tone := some .err

def base : List TraceEvent := [
  ⟨0, .req, "attest", "agent", "control-plane", "node attestation · k8s_psat", 0, none⟩,
  ⟨0, .res, "x509", "swa-server", "portal · carrier",
    "X.509-SVID issued to both workloads · RSA-2048", 4, some .ok⟩,
  ⟨1, .req, "mtls", "portal", "carrier", "opening mutual TLS", 28, none⟩]

def buildEvents (ext : Bool) : List TraceEvent :=
  if ext then base ++ [rejection]
  else base ++ [
    ⟨1, .res, "mtls", "portal", "carrier", "peer verified by SPIFFE ID · " ++ SWA.cipher, 47, some .ok⟩,
    ⟨2, .req, "jwt", "carrier", "agent", "workload API · request JWT-SVID aud=conjur", 52, none⟩,
    ⟨2, .res, "jwt", "agent", "carrier",
      "JWT-SVID minted · RS512 · kid b28ff935... · ttl 5m", 74, some .ok⟩,
    ⟨3, .req, "http", "carrier", "secrets-manager", "POST /api/authn-jwt", 79, none⟩,
    ⟨3, .res, "authn", "secrets-manager", "carrier",
      "JWKS verified · access token granted", 121, some .ok⟩,
    ⟨4, .req, "http", "carrier", "secrets-manager", "GET swa-demo/carrier/api-key", 126, none⟩,
    ⟨4, .res, "secret", "secrets-manager", "carrier",
      "200 · 32 bytes · in-process · never on disk", 148, some .ok⟩,
    ⟨5, .req, "lookup", "carrier", "fixture", "resolve shipment SHP-2049-883", 152, none⟩,
    ⟨5, .res, "render", "carrier", "portal", "200 · manifest returned to portal", 163, some .ok⟩]

def errored (c : Cells Body) : Bool := c.status == .error

/-- The filter of `visible`. -/
def shows (c : Cells Body) (e : TraceEvent) : Bool :=
  match e.k with
  | .req => decide (e.s ≤ c.completed) || decide (e.s ≤ c.stage)
  | .res => if errored c ∧ e.tone = some .err then true else decide (e.s < c.completed)

def visible (carrier : Carrier) (c : Cells Body) : List TraceEvent :=
  (buildEvents (carrier == .external)).filter (shows c)

inductive Node where
  | portal
  | carrier
  | agent
  | sm
  | secret
  deriving DecidableEq, Repr

def nodeLit (c : Cells Body) : Node → Bool
  | .portal => decide (0 < c.completed) || (decide (0 ≤ c.stage) && c.status != .idle)
  | .carrier => decide (0 < c.completed) || (decide (0 ≤ c.stage) && c.status != .idle)
  | .agent => decide (2 < c.completed)
  | .sm => decide (3 < c.completed)
  | .secret => decide (4 < c.completed)

def lit (c : Cells Body) (node : Node) : Bool := c.status != .idle && nodeLit c node

def activeNode (c : Cells Body) : Option Node :=
  if errored c then some .carrier
  else if c.stage = 2 then some .agent
  else if c.stage = 3 ∨ c.stage = 4 then some .sm
  else if c.stage = 5 then some .portal
  else if 0 ≤ c.stage then some .carrier
  else none

/-- The type and the text of the row with the cursor, which follows the log of a resolve
    that goes on. -/
def cursorRow (c : Cells Body) : Option (String × String) :=
  if c.status = .running then
    some (((SWA.stageAt c.stage).map (·.key)).getD "wait",
      ((SWA.stageAt c.stage).map (·.verb.toLower)).getD "starting")
  else none

end TraceInspector

namespace InspectorChrome

/-- The text of the footer. -/
def phase (c : Cells Body) : String :=
  match c.status with
  | .idle => "Click resolve to begin"
  | .running => "Resolving · " ++ ((SWA.stageAt c.stage).map (·.verb.toLower)).getD "starting"
  | .done => "Resolved · secret delivered in memory, never stored"
  | .error => "Rejected · untrusted authority"

end InspectorChrome

section Script
universe u
variable {Row : Type u}

/-- The rows of a script are numbered one by one. -/
def NumberedFrom (rank : Row → Int) : Int → List Row → Prop
  | _, [] => True
  | start, row :: rows => rank row = start ∧ NumberedFrom rank (start + 1) rows

/-- To filter a numbered script by a bound is to cut it there. -/
theorem numbered_filter {rank : Row → Int} (bound : Int) {start : Int} {rows : List Row}
    (numbered : NumberedFrom rank start rows) :
    rows.filter (fun row => decide (rank row ≤ bound)) = rows.take (bound + 1 - start).toNat := by
  induction rows generalizing start with
  | nil => simp
  | cons row rows ih =>
    obtain ⟨first, rest⟩ := numbered
    have tail := ih rest
    by_cases within : start ≤ bound
    · have one_more : (bound + 1 - start).toNat = (bound + 1 - (start + 1)).toNat + 1 := by omega
      rw [List.filter_cons_of_pos (by simpa [first] using within), one_more, List.take_succ_cons, tail]
    · have none_ : (bound + 1 - start).toNat = 0 := by omega
      have none_later : (bound + 1 - (start + 1)).toNat = 0 := by omega
      rw [none_later, List.take_zero] at tail
      rw [List.filter_cons_of_neg (by simpa [first] using within), none_, List.take_zero, tail]

end Script

/-- What the handlers keep of the two counters. -/
structure Staged (c : Cells Body) : Prop where
  low : 0 ≤ c.completed
  high : c.completed ≤ 6
  stage : c.stage = -1 ∨ c.stage = c.completed ∧ c.stage ≤ 5

namespace TraceInspector

def rank (e : TraceEvent) : Int :=
  match e.k with
  | .req => 2 * e.s
  | .res => 2 * e.s + 1

theorem script_numbered (ext : Bool) : NumberedFrom rank 0 (buildEvents ext) := by
  cases ext <;> simp [NumberedFrom, buildEvents, base, rank, rejection]

theorem shows_plain {c : Cells Body} (staged : Staged c) {e : TraceEvent}
    (plain : c.status ≠ .error ∨ e.tone ≠ some .err) :
    shows c e = decide (rank e ≤ 2 * c.completed) := by
  have quiet : ¬ (errored c = true ∧ e.tone = some .err) := by
    rintro ⟨error, tone⟩
    rcases plain with fine | fine
    · exact fine (by simpa [errored] using error)
    · exact fine tone
  have behind : c.stage ≤ c.completed := by
    have := staged.low
    have := staged.stage
    omega
  unfold shows rank
  cases e.k with
  | req =>
    rw [← Bool.decide_or, decide_eq_decide]
    change e.s ≤ c.completed ∨ e.s ≤ c.stage ↔ 2 * e.s ≤ 2 * c.completed
    omega
  | res =>
    rw [if_neg quiet, decide_eq_decide]
    change e.s < c.completed ↔ 2 * e.s + 1 ≤ 2 * c.completed
    omega

theorem log_plain {c : Cells Body} (staged : Staged c) {rows : List TraceEvent}
    (numbered : NumberedFrom rank 0 rows)
    (plain : c.status ≠ .error ∨ ∀ e ∈ rows, e.tone ≠ some .err) :
    rows.filter (shows c) = rows.take (2 * c.completed + 1).toNat := by
  have bounded : rows.filter (shows c) = rows.filter (fun e => decide (rank e ≤ 2 * c.completed)) := by
    refine List.filter_congr fun e mem => shows_plain staged ?_
    exact plain.imp_right fun fine => fine e mem
  rw [bounded, numbered_filter (2 * c.completed) numbered, Int.sub_zero]

theorem internal_tones : ∀ e ∈ buildEvents false, e.tone ≠ some .err := by
  simp [buildEvents, base]

theorem base_tones : ∀ e ∈ base, e.tone ≠ some .err := by
  simp [base]

theorem log_internal {c : Cells Body} (staged : Staged c) :
    visible .internal c = (buildEvents false).take (2 * c.completed + 1).toNat :=
  log_plain staged (script_numbered false) (Or.inr internal_tones)

theorem log_external {c : Cells Body} (staged : Staged c) (fine : c.status ≠ .error) :
    visible .external c = (buildEvents true).take (2 * c.completed + 1).toNat :=
  log_plain staged (script_numbered true) (Or.inl fine)

theorem log_rejected {c : Cells Body} (staged : Staged c) (error : c.status = .error) :
    visible .external c = base.take (2 * c.completed + 1).toNat ++ [rejection] := by
  have numbered : NumberedFrom rank 0 base := by simp [NumberedFrom, base, rank]
  have shown : shows c rejection = true := by simp [shows, rejection, errored, error]
  have script : visible .external c = (base ++ [rejection]).filter (shows c) := rfl
  rw [script, List.filter_append, log_plain staged numbered (Or.inr base_tones),
    List.filter_cons_of_pos shown, List.filter_nil]

theorem mem_visible {c : Cells Body} (staged : Staged c) {e : TraceEvent}
    (mem : e ∈ buildEvents false) :
    e ∈ visible .internal c ↔ rank e ≤ 2 * c.completed := by
  have script : e ∈ visible .internal c ↔ e ∈ (buildEvents false).filter (shows c) := Iff.rfl
  rw [script, List.mem_filter, shows_plain staged (Or.inr (internal_tones e mem)), decide_eq_true_eq,
    and_iff_right mem]

end TraceInspector

/-- What the views show of a state, on the whole and stage by stage. -/
structure ViewsFollow (c : Cells Body) : Prop where
  /-- The log is the start of the script: two rows for each completed stage and one more. -/
  internal : TraceInspector.visible .internal c =
    (TraceInspector.buildEvents false).take (2 * c.completed + 1).toNat
  external : c.status ≠ .error → TraceInspector.visible .external c =
    (TraceInspector.buildEvents true).take (2 * c.completed + 1).toNat
  /-- On an error the rejection ends the log, whatever of the script comes before it. -/
  rejected : c.status = .error → TraceInspector.visible .external c =
    TraceInspector.base.take (2 * c.completed + 1).toNat ++ [TraceInspector.rejection]
  /-- A stage is answered in the log if and only if the other two views call it passed. -/
  answered : c.status ≠ .error → ∀ e ∈ TraceInspector.buildEvents false, e.k = .res →
    (e ∈ TraceInspector.visible .internal c ↔ TopologyInspector.link e.s c = .done) ∧
      (e ∈ TraceInspector.visible .internal c ↔ LayersInspector.stateFor c e.s = .passed)
  /-- It is asked for if they do not call it locked, or it is the next one. -/
  asked : c.status ≠ .error → ∀ e ∈ TraceInspector.buildEvents false, e.k = .req →
    (e ∈ TraceInspector.visible .internal c ↔
        TopologyInspector.link e.s c ≠ .locked ∨ e.s = c.completed) ∧
      (e ∈ TraceInspector.visible .internal c ↔
        LayersInspector.stateFor c e.s ≠ .locked ∨ e.s = c.completed)
  /-- The row with the cursor and the footer name the one stage that they call active. -/
  cursor : c.status = .running → 0 ≤ c.stage → ∃ stage, SWA.stageAt c.stage = some stage ∧
    TraceInspector.cursorRow c = some (stage.key, stage.verb.toLower) ∧
      InspectorChrome.phase c = "Resolving · " ++ stage.verb.toLower ∧
        ∀ idx, 0 ≤ idx → (TopologyInspector.link idx c = .active ↔ idx = c.stage) ∧
          (LayersInspector.stateFor c idx = .active ↔ idx = c.stage)
  /-- A node of the strip lights once the log holds the answer it gave. -/
  nodes : c.status ≠ .idle → ∀ e ∈ TraceInspector.buildEvents false, e.k = .res →
    (e.s = 2 → (TraceInspector.lit c .agent = true ↔ e ∈ TraceInspector.visible .internal c)) ∧
      (e.s = 3 → (TraceInspector.lit c .sm = true ↔ e ∈ TraceInspector.visible .internal c)) ∧
        (e.s = 4 → (TraceInspector.lit c .secret = true ↔ e ∈ TraceInspector.visible .internal c))
  /-- A card is in the state of the link into it. -/
  cards : TopologyInspector.jwtState c = TopologyInspector.linkJwt c ∧
    TopologyInspector.smState c = TopologyInspector.linkAuthn c ∧
      TopologyInspector.secState c = TopologyInspector.linkFetch c
  /-- The first cards are those of stage 0, and the bracket around them is that of stage 1. -/
  pair : c.status ≠ .error → TopologyInspector.pairState c = TopologyInspector.link 0 c ∧
    (TopologyInspector.mtlsState c = .done ↔ TopologyInspector.link 1 c = .done) ∧
      (TopologyInspector.mtlsState c = .active ↔ TopologyInspector.link 1 c = .active) ∧
        (TopologyInspector.mtlsState c = .locked ↔ TopologyInspector.link 1 c = .locked)
  /-- The rail is filled up to the layers that are passed, and its dot stands at the active one. -/
  rail : c.status ≠ .error → ∀ idx, 0 ≤ idx →
    (LayersInspector.stateFor c idx = .passed ↔ idx < LayersInspector.passedCount c) ∧
      (LayersInspector.stateFor c idx = .active → LayersInspector.dotPos c = idx)
  /-- A node is the active one as long as there is an active stage. -/
  active : c.status ≠ .error → (TraceInspector.activeNode c ≠ none ↔
    ∃ idx, 0 ≤ idx ∧ TopologyInspector.link idx c = .active)
  /-- An error stands at mutual TLS, and locks what is behind it. -/
  failed : c.status = .error → TopologyInspector.mtlsState c = .rejected ∧
    LayersInspector.stateFor c (LayersInspector.dotPos c) = .rejected ∧
      TraceInspector.activeNode c = some .carrier ∧
        ∀ idx, 1 < idx → LayersInspector.stateFor c idx = .locked ∧
          TopologyInspector.link idx c = .locked

theorem link_plain {c : Cells Body} (fine : c.status ≠ .error) (idx : Int) :
    TopologyInspector.link idx c =
      if idx < c.completed then .done else if c.stage = idx then .active else .locked := by
  rw [TopologyInspector.link, if_neg (by simpa [TopologyInspector.errored] using fine)]

theorem stateFor_plain {c : Cells Body} (fine : c.status ≠ .error) (idx : Int) :
    LayersInspector.stateFor c idx =
      if idx < c.completed then .passed else if c.stage = idx then .active else .locked := by
  have quiet : LayersInspector.errored c = false := by
    simpa [LayersInspector.errored] using fine
  rw [LayersInspector.stateFor, if_neg (by simp [quiet]), if_neg (by simp [quiet])]

/-- The two views have one and the same rule for a stage that is shown without an error. -/
theorem link_stateFor {c : Cells Body} (fine : c.status ≠ .error) (idx : Int) :
    (TopologyInspector.link idx c = .done ↔ LayersInspector.stateFor c idx = .passed) ∧
      (TopologyInspector.link idx c = .active ↔ LayersInspector.stateFor c idx = .active) ∧
        (TopologyInspector.link idx c = .locked ↔ LayersInspector.stateFor c idx = .locked) := by
  rw [link_plain fine, stateFor_plain fine]
  by_cases past : idx < c.completed
  · simp [past]
  · by_cases current : c.stage = idx <;> simp [past, current]

theorem link_done_iff {c : Cells Body} (fine : c.status ≠ .error) (idx : Int) :
    TopologyInspector.link idx c = .done ↔ idx < c.completed := by
  rw [link_plain fine]
  split
  · simp [*]
  · split <;> simp [*]

theorem link_active_iff {c : Cells Body} (staged : Staged c) (fine : c.status ≠ .error) {idx : Int}
    (low : 0 ≤ idx) : TopologyInspector.link idx c = .active ↔ idx = c.stage := by
  have := staged.stage
  rw [link_plain fine]
  split
  · simp only [reduceCtorEq, false_iff]
    omega
  · split
    · simp [*]
    · simp only [reduceCtorEq, false_iff]
      omega

theorem link_locked_iff {c : Cells Body} (fine : c.status ≠ .error) (idx : Int) :
    TopologyInspector.link idx c = .locked ↔ c.completed ≤ idx ∧ c.stage ≠ idx := by
  rw [link_plain fine]
  split
  · simp only [reduceCtorEq, false_iff]
    omega
  · split
    · simp [*]
    · simp only [true_iff]
      omega

theorem stage_found {stage : Int} (low : 0 ≤ stage) (high : stage ≤ 5) :
    ∃ entry, SWA.stageAt stage = some entry := by
  rw [SWA.stageAt, if_pos low]
  have within : stage.toNat < SWA.stages.length := by
    have six : SWA.stages.length = 6 := rfl
    omega
  exact ⟨_, List.getElem?_eq_getElem within⟩

theorem card_link (c : Cells Body) {idx : Int} (behind : 2 ≤ idx) :
    TopologyInspector.cardState idx c.completed c.stage (TopologyInspector.errored c) 2 =
      TopologyInspector.link idx c := by
  rw [TopologyInspector.cardState, TopologyInspector.link]
  cases TopologyInspector.errored c <;> simp [behind]

theorem mtls_link {c : Cells Body} (fine : c.status ≠ .error) :
    (TopologyInspector.mtlsState c = .done ↔ TopologyInspector.link 1 c = .done) ∧
      (TopologyInspector.mtlsState c = .active ↔ TopologyInspector.link 1 c = .active) ∧
        (TopologyInspector.mtlsState c = .locked ↔ TopologyInspector.link 1 c = .locked) := by
  have quiet : TopologyInspector.errored c = false := by simpa [TopologyInspector.errored] using fine
  rw [link_plain fine, TopologyInspector.mtlsState, if_neg (by simp [quiet])]
  by_cases past : 1 < c.completed
  · simp [past]
  · by_cases current : c.stage = 1 <;> simp [past, current]

theorem passedCount_plain {c : Cells Body} (fine : c.status ≠ .error) :
    LayersInspector.passedCount c = c.completed := by
  rw [LayersInspector.passedCount, if_neg (by simpa [LayersInspector.errored] using fine)]

theorem dotPos_active {c : Cells Body} (fine : c.status ≠ .error) (going : 0 ≤ c.stage) :
    LayersInspector.dotPos c = c.stage := by
  rw [LayersInspector.dotPos, if_neg (by simpa [LayersInspector.errored] using fine), if_pos going]

theorem activeNode_iff {c : Cells Body} (fine : c.status ≠ .error) :
    TraceInspector.activeNode c ≠ none ↔ 0 ≤ c.stage := by
  rw [TraceInspector.activeNode, if_neg (by simpa [TraceInspector.errored] using fine)]
  split
  · simp [*]
  · split
    · simp only [ne_eq, reduceCtorEq, not_false_eq_true, true_iff]
      omega
    · split
      · simp [*]
      · simp

theorem views_follow {c : Cells Body} (staged : Staged c) : ViewsFollow c where
  internal := TraceInspector.log_internal staged
  external := TraceInspector.log_external staged
  rejected := TraceInspector.log_rejected staged
  answered := by
    intro fine e mem kind
    have shown : e ∈ TraceInspector.visible .internal c ↔ TopologyInspector.link e.s c = .done := by
      rw [TraceInspector.mem_visible staged mem, link_done_iff fine, TraceInspector.rank, kind]
      change 2 * e.s + 1 ≤ 2 * c.completed ↔ e.s < c.completed
      omega
    exact ⟨shown, shown.trans (link_stateFor fine e.s).1⟩
  asked := by
    intro fine e mem kind
    have shown : e ∈ TraceInspector.visible .internal c ↔
        TopologyInspector.link e.s c ≠ .locked ∨ e.s = c.completed := by
      have := staged.low
      have := staged.stage
      rw [TraceInspector.mem_visible staged mem, Ne, link_locked_iff fine, TraceInspector.rank, kind]
      change 2 * e.s ≤ 2 * c.completed ↔ _
      omega
    refine ⟨shown, shown.trans ?_⟩
    rw [Ne, (link_stateFor fine e.s).2.2]
  cursor := by
    intro running low
    have fine : c.status ≠ .error := by simp [running]
    have high : c.stage ≤ 5 := by
      have := staged.stage
      omega
    obtain ⟨stage, found⟩ := stage_found low high
    refine ⟨stage, found, ?_, ?_, ?_⟩
    · rw [TraceInspector.cursorRow, if_pos running, found]
      rfl
    · rw [InspectorChrome.phase, running, found]
      rfl
    · intro idx above
      have active := link_active_iff staged fine above
      exact ⟨active, (link_stateFor fine idx).2.1.symm.trans active⟩
  nodes := by
    intro busy e mem kind
    have shown : e ∈ TraceInspector.visible .internal c ↔ e.s < c.completed := by
      rw [TraceInspector.mem_visible staged mem, TraceInspector.rank, kind]
      change 2 * e.s + 1 ≤ 2 * c.completed ↔ e.s < c.completed
      omega
    rw [shown]
    refine ⟨?_, ?_, ?_⟩ <;> intro stage <;> simp [TraceInspector.lit, TraceInspector.nodeLit, busy, stage]
  cards := ⟨card_link c (by decide), card_link c (by decide), card_link c (by decide)⟩
  pair := fun fine => ⟨(link_plain fine 0).symm, mtls_link fine⟩
  rail := by
    intro fine idx low
    rw [passedCount_plain fine, ← (link_stateFor fine idx).1, ← (link_stateFor fine idx).2.1]
    refine ⟨link_done_iff fine idx, fun active => ?_⟩
    have here := (link_active_iff staged fine low).mp active
    rw [dotPos_active fine (here ▸ low), here]
  active := by
    intro fine
    rw [activeNode_iff fine]
    constructor
    · exact fun going => ⟨c.stage, going, (link_active_iff staged fine going).mpr rfl⟩
    · rintro ⟨idx, low, active⟩
      exact (link_active_iff staged fine low).mp active ▸ low
  failed := by
    intro error
    have stands : LayersInspector.dotPos c = 1 := by
      rw [LayersInspector.dotPos, if_pos (by simp [LayersInspector.errored, error])]
    refine ⟨(mtls_rejected_iff c).2.mpr error, ?_, ?_, fun idx later => later_layers_locked error later⟩
    · rw [stands]
      exact (mtls_rejected_iff c).1.mpr error
    · rw [TraceInspector.activeNode, if_pos (by simp [TraceInspector.errored, error])]

end SwaViews

namespace SwaEngine
open Runs Page
open SwaPace (Host Op PaceEvent)
open SwaViews (Staged ViewsFollow)

variable {Body : Type}

theorem staged_same {c c' : Cells Body} (staged : Staged c) (stage : c'.stage = c.stage)
    (completed : c'.completed = c.completed) : Staged c' := by
  obtain ⟨low, high, place⟩ := staged
  refine ⟨?_, ?_, ?_⟩
  · rwa [completed]
  · rwa [completed]
  · rwa [stage, completed]

theorem eventToStage_bounds (eventType : String) :
    -1 ≤ eventToStage eventType ∧ eventToStage eventType ≤ 5 := by
  unfold eventToStage
  split <;> decide

theorem staged_event (host : Host) (now : Int) (ev : PaceEvent) (e : Engine Body)
    (staged : Staged e.pending) : Staged (e.onEvent host now ev).pending := by
  by_cases err : isErrorEvent ev.type = true
  · -- an error takes the stage away and leaves what is completed
    rw [Engine.onEvent_error host now e err]
    exact ⟨staged.low, staged.high, Or.inl rfl⟩
  · have plain := Engine.onEvent_plain host now e (by simpa using err)
    by_cases forward : Engine.Advances e ev
    · obtain ⟨_, stage, completed⟩ := plain.advanced forward
      obtain ⟨_, high⟩ := eventToStage_bounds ev.type
      obtain ⟨_, low, _⟩ := forward
      refine ⟨?_, ?_, Or.inr ⟨?_, ?_⟩⟩ <;> omega
    · obtain ⟨_, stage, completed⟩ := plain.kept forward
      exact staged_same staged stage completed

theorem staged_walking (e : Engine Body) (staged : Staged e.pending) :
    Staged (e.queue [.setStatusWalking]).pending := by
  rcases Engine.walking_pending e with same | ⟨started, _⟩
  · rwa [same]
  · rw [started]
    exact staged_same staged rfl rfl

theorem staged_pace (host : Host) (op : Op) {s : Page Body} (staged : Staged s.engine.pending) :
    Staged (s.paceStep host op).engine.pending :=
  Engine.hear_invariant (P := fun e => Staged e.pending) host s.now
    (fun ev _ e => staged_event host s.now ev e) staged_walking staged

theorem staged_settle (e : Engine Body) (response : Engine.Response Body)
    (staged : Staged e.pending) : Staged (e.settle response).pending := by
  cases response with
  | ok data => exact ⟨by simp [Engine.settle, Update.apply], by simp [Engine.settle, Update.apply],
      Or.inl (by simp [Engine.settle, Update.apply])⟩
  | notOk status text =>
    simp only [Engine.settle, Engine.pending_queue, List.foldl_cons, List.foldl_nil, Update.apply]
    cases e.pending.error.bind (·.payload) <;> exact staged_same staged rfl rfl
  | failed err =>
    simp only [Engine.settle, Engine.pending_queue, List.foldl_cons, List.foldl_nil, Update.apply]
    exact staged_same staged rfl rfl

theorem staged_step (host : Host) (s : Page Body) (a : Action Body)
    (staged : Staged s.engine.pending) : Staged (step host s a).engine.pending := by
  cases a with
  | run carrier shipmentId =>
    refine ⟨?_, ?_, Or.inl ?_⟩ <;> simp [step, Page.run, Engine.run, Update.apply]
  | reset =>
    refine ⟨?_, ?_, Or.inl ?_⟩ <;> simp [step, Page.reset, Engine.reset, Update.apply]
  | respond id response =>
    rw [step, respond]
    split
    · exact staged_settle s.engine response staged
    · exact staged
  | sse msg => exact staged_pace host _ staged
  | expire h => exact staged_pace host _ staged
  | setPace value => exact staged_pace host _ staged
  | skip => exact staged_pace host _ staged
  | commit => simpa [step] using staged
  | effect => simpa [step] using staged
  | tick =>
    obtain ⟨e, ticked, same⟩ := tick_ttl s
    rw [step, ticked]
    exact staged_same staged same.stage same.completed
  | clock now => exact staged

/-- Only a commit changes what is shown, and it shows what was pending. -/
theorem step_cells (host : Host) (s : Page Body) (a : Action Body) :
    (step host s a).engine.cells = s.engine.cells ∨
      (step host s a).engine.cells = s.engine.pending := by
  cases acts : a.op? with
  | some op =>
    rw [step_pace host s acts, paceStep_engine]
    exact Or.inl (Engine.hear_refs host s.now _ s.engine).2.1
  | none =>
    cases a with
    | run | reset | clock => exact Or.inl rfl
    | respond id response =>
      rw [step, respond]
      split
      · cases response <;> exact Or.inl rfl
      · exact Or.inl rfl
    | commit => exact Or.inr (Engine.commit_cells s.engine)
    | effect =>
      refine Or.inl ?_
      rw [step, Engine.effect]
      split <;> rfl
    | tick =>
      obtain ⟨e, ticked, same⟩ := tick_ttl s
      rw [step, ticked]
      exact Or.inl same.cells
    | sse | expire | setPace | skip => contradiction

end SwaEngine
