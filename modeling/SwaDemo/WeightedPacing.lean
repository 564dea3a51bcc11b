import Mathlib.Algebra.Order.Ring.Rat
import Mathlib.Tactic.Linarith
import SwaDemo.EngineSteps
import SwaDemo.Logs
import SwaDemo.PaceTimers

/-!
The pace queue in time. Events are pushed at any time, and each timer fires exactly when
it is due. The delay before an event is computed when the event before it is delivered,
from the head of the queue at that time: an event that comes into the empty queue later
has the delay of no event at all. A delay is a rounded product, of which a timer waits for
the whole milliseconds.
-/
namespace SwaPace
open Js Logs Runs

/-- The page with a clock in milliseconds: when each live timer is due, and when each
    signal was sent. -/
structure Clocked where
  q : PaceQueue
  now : ℚ
  due : List (Nat × ℚ)
  log : List (ℚ × Signal)

/-- The fraction is cut off. -/
def truncate (q : ℚ) : Int := if 0 ≤ q then ⌊q⌋ else ⌈q⌉

/-- The time after which `setTimeout` fires: the delay is read as an integer of 32 bits, and
    counts as zero where it is below or no finite number. The few milliseconds that browsers
    add to nested timers are left out. -/
def milliseconds : JsNumber → ℚ
  | .fin d => (max 0 ((truncate d).bmod (2 ^ 32)) : Int)
  | _ => 0

/-- How long a timer waits that is set for the product `d`. -/
def waited (d : ℚ) : ℚ := milliseconds (.nearest d)

/-- The module goes on to `q`, taking no time: its new timers and signals are noted. -/
def Clocked.become (c : Clocked) (q : PaceQueue) : Clocked where
  q := q
  now := c.now
  due := c.due.filter (fun e => e.1 ∈ q.live.map (·.handle)) ++
    (q.live.filter (c.q.nextHandle ≤ ·.handle)).map fun t => (t.handle, c.now + milliseconds t.delay)
  log := c.log ++ (q.signals.drop c.q.signals.length).map (c.now, ·)

inductive Act where
  | push (rawEv : Option PaceEvent)
  | fire (h : Nat)
  | wait (d : ℚ)

/-- The push is no error and preempts no walk. -/
def plainPush (host : Host) (s : PaceQueue) (rawEv : Option PaceEvent) : Bool :=
  (unwrap host rawEv).all fun ev => !isErr ev.type && !decide (Replays ev s)

/-- Time does not pass a timer that is due. -/
def tick (host : Host) (c : Clocked) : Act → Clocked
  | .push rawEv => if plainPush host c.q rawEv then c.become (step host c.q (.push rawEv)) else c
  | .fire h => if (h, c.now) ∈ c.due then c.become (step host c.q (.expire h)) else c
  | .wait d =>
    if 0 ≤ d ∧ ∀ e ∈ c.due, c.now + d ≤ e.2 then { c with now := c.now + d } else c

/-- The page after `setPace(P)`. -/
def paced (host : Host) (P : ℚ) : Clocked := ⟨step host initial (.setPace (.num (.fin P))), 0, [], []⟩

/-- The entry of STAGE_WEIGHTS, or 1.0. -/
def weight (type : String) : ℚ := (stageWeight type).getD 1

/-- The last delivery was at `t`, and the queue has not gone idle since. -/
def DeliveredAt (t : ℚ) (log : List (ℚ × Signal)) : Prop :=
  ∃ before e later, log = before ++ (t, .event e) :: later ∧
    ∀ x ∈ later, x.2 = .state .walking

/-- Each event comes as long after the one before it in its walk as its weight says. -/
def Spaced (P : ℚ) (log : List (ℚ × Signal)) : Prop :=
  ∀ before t f later, log = before ++ (t, .event f) :: later →
    ∀ t₀, DeliveredAt t₀ before → P * weight f.ev.type ≤ t - t₀

/-- Behind another event, one of this type is waited for: no object inherits its name, and
    the timer does not fall short of the product. -/
def Served (P : ℚ) (type : String) : Prop :=
  stageWeight type ≠ none ∧ P * weight type ≤ waited (P * weight type)

instance (P : ℚ) (type : String) : Decidable (Served P type) := inferInstanceAs (Decidable (_ ∧ _))

/-- During a walk, what is pushed into the empty queue asks for no more than the timer waits
    that is set for the pace itself, and what is pushed behind others is waited for. -/
def WellTimed (host : Host) (P : ℚ) (c : Clocked) : Act → Prop
  | .push rawEv => plainPush host c.q rawEv = true → c.q.walking = true →
      ∀ ev ∈ unwrap host rawEv,
        if c.q.queue = [] then P * weight ev.type ≤ waited P else Served P ev.type
  | _ => True

instance (host : Host) (P : ℚ) (c : Clocked) : ∀ act, Decidable (WellTimed host P c act)
  | .push rawEv => inferInstanceAs (Decidable (_ → _ → ∀ ev ∈ unwrap host rawEv, ite _ _ _))
  | .fire _ => .isTrue trivial
  | .wait _ => .isTrue trivial

/-! ## Weights -/

theorem weight_mem (type : String) : weight type ∈ [1, Float64.rounded (7 / 10), 2, 3 / 2] := by
  unfold weight stageWeight
  split
  case h_7 => split <;> simp
  all_goals simp

theorem paces_waited : ∀ P ∈ [150, 300, 600], ∀ w ∈ [1, Float64.rounded (7 / 10), 2, 3 / 2],
    (P * w ≤ waited P ↔ w ≤ 1) ∧ P * w ≤ waited (P * w) := by
  decide +kernel

/-- At the paces `fast`, `medium` and `slow` no timer falls short of its product, so that what
    counts is the weight and the name. -/
theorem wellTimed_paces {host : Host} {P : ℚ} (named : P ∈ [150, 300, 600]) {c : Clocked}
    {raw : Option PaceEvent} : WellTimed host P c (.push raw) ↔
      (plainPush host c.q raw = true → c.q.walking = true → ∀ ev ∈ unwrap host raw,
        if c.q.queue = [] then weight ev.type ≤ 1 else stageWeight ev.type ≠ none) := by
  have each (type : String) := paces_waited P named (weight type) (weight_mem type)
  simp only [WellTimed, Served, (each _).1, (each _).2, and_true]

/-! ## Logs -/

theorem deliveredAt_since {t : ℚ} {log : List (ℚ × Signal)} :
    DeliveredAt t log ↔ ∃ e, Since (fun x => x.2 ≠ .state .walking) log (t, .event e) := by
  simp only [DeliveredAt, Since, ne_eq, not_not]
  constructor
  · rintro ⟨before, e, later, split, quiet⟩
    exact ⟨e, before, later, split, quiet⟩
  · rintro ⟨e, before, later, split, quiet⟩
    exact ⟨before, e, later, split, quiet⟩

theorem deliveredAt_nil {t : ℚ} : ¬ DeliveredAt t [] := by
  simp [deliveredAt_since]

theorem deliveredAt_event {t now : ℚ} {log : List (ℚ × Signal)} {a : Accepted} :
    DeliveredAt t (log ++ [(now, .event a)]) ↔ t = now := by
  simp [deliveredAt_since]

theorem deliveredAt_state {t now : ℚ} {log : List (ℚ × Signal)} {p : PaceState} :
    DeliveredAt t (log ++ [(now, .state p)]) ↔ p = .walking ∧ DeliveredAt t log := by
  simp [deliveredAt_since]

theorem spaced_every {P : ℚ} {log : List (ℚ × Signal)} :
    Spaced P log ↔ Every (fun before x => ∀ f, x.2 = .event f →
      ∀ t₀, DeliveredAt t₀ before → P * weight f.ev.type ≤ x.1 - t₀) log := by
  constructor
  · rintro spaced before ⟨t, x⟩ later split f rfl
    exact spaced before t f later split
  · intro every before t f later split
    exact every before (t, .event f) later split f rfl

theorem spaced_nil (P : ℚ) : Spaced P [] :=
  spaced_every.mpr (every_nil _)

theorem spaced_concat {P now : ℚ} {log : List (ℚ × Signal)} {x : Signal} :
    Spaced P (log ++ [(now, x)]) ↔ Spaced P log ∧
      ∀ f, x = .event f → ∀ t₀, DeliveredAt t₀ log → P * weight f.ev.type ≤ now - t₀ := by
  rw [spaced_every, every_concat, ← spaced_every]

/-! ## Waiting -/

/-- No timer is live: the next event that is pushed starts a walk. -/
structure Resting (c : Clocked) : Prop where
  walking : c.q.walking = false
  pending : c.q.pendingTimer = none
  queue : c.q.queue = []
  live : c.q.live = []
  due : c.due = []
  last : ∀ t, ¬ DeliveredAt t c.log

/-- An event was delivered at `t`, and the timer that was armed then is live. -/
structure Ticking (P : ℚ) (c : Clocked) (h : Nat) (delay : JsNumber) (t : ℚ) : Prop where
  walking : c.q.walking = true
  pending : c.q.pendingTimer = some h
  live : c.q.live = [⟨h, delay⟩]
  due : c.due = [(h, t + milliseconds delay)]
  last : ∀ t', DeliveredAt t' c.log ↔ t' = t
  unweighted : c.q.queue = [] → milliseconds delay = waited P

structure Beating (P : ℚ) (c : Clocked) : Prop where
  settled : Settled c.q
  pace : c.q.currentPace = .fin P
  timer : Resting c ∨ ∃ h delay t, Ticking P c h delay t

/-- The timer fires too early for the head of the queue, or will for one behind it. -/
def Doomed (P : ℚ) (c : Clocked) : Prop :=
  ∃ h delay t, Ticking P c h delay t ∧
    ((∃ a ∈ c.q.queue.head?, milliseconds delay < P * weight a.ev.type) ∨
      ∃ a ∈ c.q.queue.tail, ¬ Served P a.ev.type)

def Sound (P : ℚ) (c : Clocked) : Prop := Spaced P c.log ∧ ¬ Doomed P c

section
variable {host : Host} {P : ℚ} {c : Clocked}

theorem Beating.paced (beating : Beating P c) (positive : 0 < P) :
    effectivePace c.q = .fin P ∧ realTime c.q = false := by
  have pace : effectivePace c.q = .fin P := by
    rw [effectivePace, beating.settled.noSkip, beating.pace]
  refine ⟨pace, ?_⟩
  rw [realTime, pace]
  simpa [JsNumber.isZero] using positive.ne'

theorem Ticking.unique {h h' : Nat} {delay delay' : JsNumber} {t t' : ℚ}
    (ticking : Ticking P c h delay t) (other : Ticking P c h' delay' t') : delay' = delay := by
  have same := ticking.live.symm.trans other.live
  cases same
  rfl

theorem Ticking.doomed {h : Nat} {delay : JsNumber} {t : ℚ} (ticking : Ticking P c h delay t) :
    Doomed P c ↔ (∃ a ∈ c.q.queue.head?, milliseconds delay < P * weight a.ev.type) ∨
      ∃ a ∈ c.q.queue.tail, ¬ Served P a.ev.type := by
  constructor
  · rintro ⟨h', delay', t', other, early⟩
    rwa [ticking.unique other] at early
  · exact fun early => ⟨h, delay, t, ticking, early⟩

theorem Resting.not_doomed (resting : Resting c) : ¬ Doomed P c := by
  rintro ⟨h, delay, t, ticking, _⟩
  have walking := ticking.walking
  rw [resting.walking] at walking
  cases walking

theorem Beating.due_live (beating : Beating P c) : ∀ e ∈ c.due, e.1 ∈ c.q.live.map (·.handle) := by
  rcases beating.timer with resting | ⟨h, delay, t, ticking⟩
  · simp [resting.due]
  · simp [ticking.due, ticking.live]

theorem Beating.due_fresh (beating : Beating P c) : ∀ e ∈ c.due, e.1 < c.q.nextHandle := by
  intro e mem
  obtain ⟨timer, live, same⟩ := List.mem_map.mp (beating.due_live e mem)
  rw [← same]
  exact beating.settled.fresh timer live

theorem Beating.become_quiet (beating : Beating P c) {q : PaceQueue} (live : q.live = c.q.live)
    (signals : q.signals = c.q.signals) : c.become q = { c with q := q } := by
  have kept : c.due.filter (fun e => e.1 ∈ q.live.map (·.handle)) = c.due := by
    rw [live]
    exact List.filter_eq_self.mpr fun e mem => decide_eq_true (beating.due_live e mem)
  have new : q.live.filter (c.q.nextHandle ≤ ·.handle) = [] := by
    rw [live]
    refine List.filter_eq_nil_iff.mpr fun timer mem => ?_
    simpa using beating.settled.fresh timer mem
  rw [Clocked.become, kept, new, signals, List.drop_length]
  simp

theorem Beating.become_advance (beating : Beating P c) {s : PaceQueue} {a : Accepted}
    {rest : List Accepted} {before : List Signal} (live : s.live = [])
    (next : s.nextHandle = c.q.nextHandle) (signals : s.signals = c.q.signals ++ before) :
    c.become (advance a rest s) = ⟨advance a rest s, c.now,
      [(c.q.nextHandle, c.now + milliseconds (drainDelay (effectivePace s) rest))],
      c.log ++ before.map (c.now, ·) ++ [(c.now, .event a)]⟩ := by
  have armed : (advance a rest s).live =
      [⟨c.q.nextHandle, drainDelay (effectivePace s) rest⟩] := by
    simp [advance, armTimer, fanout, live, next]
  have sent : (advance a rest s).signals = c.q.signals ++ (before ++ [.event a]) := by
    simp [advance, armTimer, fanout, signals]
  have gone : c.due.filter (fun e => e.1 ∈ [c.q.nextHandle]) = [] := by
    refine List.filter_eq_nil_iff.mpr fun e mem => ?_
    simpa using (beating.due_fresh e mem).ne
  rw [Clocked.become, armed, sent, List.drop_left, List.map_singleton, gone]
  simp

theorem drainDelay_early {rest : List Accepted} (positive : 0 < P) :
    (∃ a ∈ rest.head?, milliseconds (drainDelay (.fin P) rest) < P * weight a.ev.type) ↔
      ∃ a ∈ rest.head?, ¬ Served P a.ev.type := by
  cases rest with
  | nil => simp
  | cons a rest =>
    simp only [List.head?_cons, Option.mem_some_iff, exists_eq_left', drainDelay, Option.elim_some]
    cases entry : stageWeight a.ev.type with
    | none => simp [Served, milliseconds, weight, entry, positive]
    | some w => simp [Served, waited, weight, entry, JsNumber.scale]

/-- Where no event waits, the delay is that of the pace itself. -/
theorem drainDelay_nil : milliseconds (drainDelay (.fin P) []) = waited P := by
  have plain : stageWeight "" = some 1 := by decide
  rw [drainDelay, List.head?_nil, Option.elim_none, plain]
  simp [JsNumber.scale, waited]

theorem head_or_tail {rest : List Accepted} {p : Accepted → Prop} :
    ((∃ a ∈ rest.head?, p a) ∨ ∃ a ∈ rest.tail, p a) ↔ ∃ a ∈ rest, p a := by
  cases rest <;> simp

theorem Beating.advanced (beating : Beating P c) (positive : 0 < P) {s : PaceQueue} (a : Accepted)
    (rest : List Accepted) {before : List Signal} (live : s.live = [])
    (next : s.nextHandle = c.q.nextHandle) (signals : s.signals = c.q.signals ++ before)
    (walking : s.walking = true) (pace : effectivePace s = .fin P) :
    Ticking P (c.become (advance a rest s)) c.q.nextHandle (drainDelay (.fin P) rest) c.now ∧
      (Doomed P (c.become (advance a rest s)) ↔ ∃ b ∈ rest, ¬ Served P b.ev.type) := by
  have ticking : Ticking P (c.become (advance a rest s)) c.q.nextHandle
      (drainDelay (.fin P) rest) c.now := by
    rw [beating.become_advance live next signals, pace]
    exact {
      walking := walking
      pending := by simp [advance, armTimer, fanout, next]
      live := by simp [advance, armTimer, fanout, live, next, pace]
      due := rfl
      last := fun _ => deliveredAt_event
      unweighted := by
        intro empty
        have none_ : rest = [] := empty
        rw [none_, drainDelay_nil] }
  refine ⟨ticking, ?_⟩
  rw [ticking.doomed]
  have queue : (c.become (advance a rest s)).q.queue = rest := rfl
  rw [queue, drainDelay_early positive]
  exact head_or_tail

theorem Beating.delivers (beating : Beating P c) (positive : 0 < P) {s : PaceQueue} (a : Accepted)
    (rest : List Accepted) {before : List Signal} (live : s.live = [])
    (next : s.nextHandle = c.q.nextHandle) (signals : s.signals = c.q.signals ++ before)
    (quiet : before = [] ∨ before = [.state .walking]) (walking : s.walking = true)
    (noSkip : s.skipMode = false) (pace : s.currentPace = .fin P)
    (settled : Settled (advance a rest s)) :
    Beating P (c.become (advance a rest s)) ∧
      (Sound P (c.become (advance a rest s)) ↔ Spaced P c.log ∧
        (∀ t, DeliveredAt t c.log → P * weight a.ev.type ≤ c.now - t) ∧
        ¬ ∃ b ∈ rest, ¬ Served P b.ev.type) := by
  have effective : effectivePace s = .fin P := by rw [effectivePace, noSkip, pace]
  obtain ⟨ticking, doomed⟩ := beating.advanced positive a rest live next signals walking
    effective
  refine ⟨⟨settled, pace, Or.inr ⟨_, _, _, ticking⟩⟩, ?_⟩
  have log : (c.become (advance a rest s)).log =
      c.log ++ before.map (c.now, ·) ++ [(c.now, .event a)] := by
    rw [beating.become_advance live next signals]
  rw [Sound, doomed, log, spaced_concat]
  rcases quiet with rfl | rfl
  · simp [and_assoc]
  · simp [spaced_concat, deliveredAt_state, and_assoc]

/-- What one step does: it keeps the invariant, and the law exactly if it is well timed. -/
def Kept (host : Host) (P : ℚ) (c : Clocked) (act : Act) (c' : Clocked) : Prop :=
  Beating P c' ∧ (Sound P c' ↔ Sound P c ∧ WellTimed host P c act)

theorem kept_same (beating : Beating P c) {act : Act} (timed : WellTimed host P c act) :
    Kept host P c act c :=
  ⟨beating, by simp [timed]⟩

theorem kept_start (beating : Beating P c) (positive : 0 < P) {raw : Option PaceEvent}
    {ev : PaceEvent} (idle : c.q.pendingTimer = none)
    (settled : Settled (advance (nextAccepted ev c.q) [] (setWalking true (enqueue ev c.q)))) :
    Kept host P c (.push raw)
      (c.become (advance (nextAccepted ev c.q) [] (setWalking true (enqueue ev c.q)))) := by
  rcases beating.timer with resting | ⟨h, delay, t, ticking⟩
  · have shape := setWalking_walk (enqueue ev c.q)
    have sent : walkSignal (enqueue ev c.q) = [.state .walking] := by
      simp [walkSignal, enqueue, accept, resting.walking]
    rw [sent] at shape
    obtain ⟨kept, sound⟩ := beating.delivers positive (nextAccepted ev c.q) []
      (s := setWalking true (enqueue ev c.q)) (by rw [shape]; exact resting.live)
      (by rw [shape]; rfl) (by rw [shape]; rfl) (Or.inr rfl) (by rw [shape])
      (by rw [shape]; exact beating.settled.noSkip) (by rw [shape]; exact beating.pace) settled
    refine ⟨kept, ?_⟩
    have first : ∀ t, ¬ DeliveredAt t c.log := resting.last
    have calm : ¬ Doomed P c := resting.not_doomed
    rw [sound, Sound]
    simp [first, calm, WellTimed, resting.walking]
  · rw [ticking.pending] at idle
    cases idle

theorem Beating.due_ticking (beating : Beating P c) {h : Nat} (due : (h, c.now) ∈ c.due) :
    ∃ delay t, Ticking P c h delay t ∧ c.now = t + milliseconds delay := by
  rcases beating.timer with resting | ⟨h', delay, t, ticking⟩
  · rw [resting.due] at due
    cases due
  · rw [ticking.due, List.mem_singleton] at due
    obtain ⟨rfl, now⟩ := Prod.mk.inj due
    exact ⟨delay, t, ticking, now⟩

theorem kept_tick (beating : Beating P c) (positive : 0 < P) {h : Nat} {a : Accepted}
    {rest : List Accepted} (due : (h, c.now) ∈ c.due) (queued : c.q.queue = a :: rest)
    (settled : Settled (advance a rest (release h c.q))) :
    Kept host P c (.fire h) (c.become (advance a rest (release h c.q))) := by
  obtain ⟨delay, t, ticking, now⟩ := beating.due_ticking due
  obtain ⟨kept, sound⟩ := beating.delivers positive a rest (s := release h c.q)
    (by simp [release, ticking.live]) rfl (by simp [release]) (Or.inl rfl) ticking.walking
    beating.settled.noSkip beating.pace settled
  refine ⟨kept, ?_⟩
  have passed : (∀ t', DeliveredAt t' c.log → P * weight a.ev.type ≤ c.now - t') ↔
      ¬ milliseconds delay < P * weight a.ev.type := by
    simp [ticking.last, now]
  rw [sound, passed, Sound, ticking.doomed, queued]
  simp [WellTimed, not_or]

theorem kept_dry (beating : Beating P c) {h : Nat} (due : (h, c.now) ∈ c.due)
    (empty : c.q.queue = []) (settled : Settled (collapse (release h c.q))) :
    Kept host P c (.fire h) (c.become (collapse (release h c.q))) := by
  obtain ⟨delay, t, ticking, _⟩ := beating.due_ticking due
  have live : (release h c.q).live = [] := by simp [release, ticking.live]
  have log : (c.become (collapse (release h c.q))).log = c.log ++ [(c.now, .state .idle)] := by
    simp [Clocked.become, collapse, release, empty, idleSignal, ticking.walking]
  have resting : Resting (c.become (collapse (release h c.q))) := by
    refine ⟨rfl, rfl, rfl, live, ?_, fun t' => ?_⟩
    · simp [Clocked.become, collapse, live]
    · rw [log, deliveredAt_state]
      rintro ⟨idle, _⟩
      cases idle
  have calm : ¬ Doomed P c := by
    rw [ticking.doomed, empty]
    simp
  refine ⟨⟨settled, beating.pace, Or.inl resting⟩, ?_⟩
  rw [Sound, Sound, log, spaced_concat]
  simp [WellTimed, calm, resting.not_doomed]

theorem kept_waits (beating : Beating P c) {raw : Option PaceEvent} {ev : PaceEvent}
    (accepts : unwrap host raw = some ev) (plain : plainPush host c.q raw = true)
    (pending : c.q.pendingTimer ≠ none) (settled : Settled (enqueue ev c.q)) :
    Kept host P c (.push raw) (c.become (enqueue ev c.q)) := by
  have same : c.become (enqueue ev c.q) = { c with q := enqueue ev c.q } :=
    beating.become_quiet rfl rfl
  rw [same]
  rcases beating.timer with resting | ⟨h, delay, t, ticking⟩
  · exact absurd resting.pending pending
  · have queue : (enqueue ev c.q).queue = c.q.queue ++ [nextAccepted ev c.q] := rfl
    have after : Ticking P { c with q := enqueue ev c.q } h delay t :=
      ⟨ticking.walking, ticking.pending, ticking.live, ticking.due, ticking.last,
        fun empty => by simp [queue] at empty⟩
    have timed : WellTimed host P c (.push raw) ↔
        if c.q.queue = [] then P * weight ev.type ≤ waited P else Served P ev.type := by
      simp [WellTimed, plain, ticking.walking, accepts]
    refine ⟨⟨settled, beating.pace, Or.inr ⟨h, delay, t, after⟩⟩, ?_⟩
    rw [Sound, Sound, after.doomed, ticking.doomed, timed, queue]
    cases waiting : c.q.queue with
    | nil =>
      have lone : milliseconds delay = waited P := ticking.unweighted waiting
      simp [nextAccepted, lone]
    | cons a rest =>
      simp only [List.cons_append, List.head?_cons, List.tail_cons, List.mem_append,
        List.mem_singleton, or_and_right, exists_or, exists_eq_left, not_or, not_not, and_assoc,
        nextAccepted, reduceCtorEq, if_false]

theorem kept_wait (beating : Beating P c) {now d : ℚ} :
    Kept host P c (.wait d) { c with now := now } := by
  have ticking {h : Nat} {delay : JsNumber} {t : ℚ} :
      Ticking P { c with now := now } h delay t ↔ Ticking P c h delay t :=
    ⟨fun k => ⟨k.walking, k.pending, k.live, k.due, k.last, k.unweighted⟩,
      fun k => ⟨k.walking, k.pending, k.live, k.due, k.last, k.unweighted⟩⟩
  have timer : Resting { c with now := now } ∨
      ∃ h delay t, Ticking P { c with now := now } h delay t := by
    simp only [ticking]
    exact beating.timer.imp_left fun r => ⟨r.walking, r.pending, r.queue, r.live, r.due, r.last⟩
  refine ⟨⟨beating.settled, beating.pace, timer⟩, ?_⟩
  simp [Sound, Doomed, ticking, WellTimed]

theorem plainPush_accepted {s : PaceQueue} {raw : Option PaceEvent} {ev : PaceEvent}
    (accepts : unwrap host raw = some ev) :
    plainPush host s raw = true ↔ isErr ev.type = false ∧ ¬ Replays ev s := by
  simp [plainPush, accepts]

theorem tick_kept (beating : Beating P c) (positive : 0 < P) (act : Act) :
    Kept host P c act (tick host c act) := by
  have pace := (beating.paced positive).2
  cases act with
  | push raw =>
    rw [tick]
    by_cases plain : plainPush host c.q raw = true
    · rw [if_pos plain]
      have outcome := step_outcome host beating.settled (.push raw)
      have settled := settled_step host beating.settled (.push raw)
      generalize step host c.q (.push raw) = q at outcome settled
      cases outcome with
      | rejected none_ =>
        have same : c.become c.q = { c with q := c.q } := beating.become_quiet rfl rfl
        rw [same]
        exact kept_same beating fun _ _ ev accepts => by rw [none_] at accepts; cases accepts
      | failed accepts err =>
        rw [((plainPush_accepted accepts).mp plain).1] at err
        cases err
      | replayed accepts ok replay => exact absurd replay ((plainPush_accepted accepts).mp plain).2
      | replayedAtOnce accepts ok replay =>
        exact absurd replay ((plainPush_accepted accepts).mp plain).2
      | waits accepts ok first pending =>
        exact kept_waits beating accepts plain pending settled
      | starts accepts ok first idle paced => exact kept_start beating positive idle settled
      | startsAtOnce accepts ok first idle fast =>
        rw [pace] at fast
        cases fast
    · rw [if_neg plain]
      exact kept_same beating fun enabled => absurd enabled plain
  | fire h =>
    rw [tick]
    by_cases due : (h, c.now) ∈ c.due
    · rw [if_pos due]
      have outcome := step_outcome host beating.settled (.expire h)
      have settled := settled_step host beating.settled (.expire h)
      generalize step host c.q (.expire h) = q at outcome settled
      cases outcome with
      | deadTimer dead => exact absurd (beating.due_live _ due) dead
      | ticked live queued paced => exact kept_tick beating positive due queued settled
      | ranDry live done =>
        have empty : c.q.queue = [] := by simpa [pace] using done
        exact kept_dry beating due empty settled
    · rw [if_neg due]
      exact kept_same beating trivial
  | wait d =>
    rw [tick]
    split
    · exact kept_wait beating
    · exact kept_same beating trivial

theorem beating_paced (host : Host) (positive : 0 < P) : Beating P (paced host P) where
  settled := settled_step host settled_initial (.setPace (.num (.fin P)))
  pace := by simp [paced, step, setPace, paceOf, JsNumber.mathMax, positive.le]
  timer := Or.inl ⟨rfl, rfl, rfl, rfl, rfl, fun _ => deliveredAt_nil⟩

/-- A run at a constant pace is spaced, up to now and in what is queued, exactly if each of
    its pushes is well timed. -/
theorem sound_run (host : Host) (positive : 0 < P) (acts : List Act) :
    Beating P (run (tick host) (paced host P) acts) ∧
      (Sound P (run (tick host) (paced host P) acts) ↔
        EachStep (tick host) (WellTimed host P) (paced host P) acts) := by
  have start := beating_paced host positive
  have calm : Sound P (paced host P) := by
    refine ⟨spaced_nil P, ?_⟩
    rintro ⟨h, delay, t, ticking, _⟩
    cases ticking.pending
  obtain ⟨beating, sound⟩ := run_iff_eachStep (I := Beating P) (P := Sound P)
    (fun c act beating => tick_kept beating positive act) start acts
  exact ⟨beating, sound.trans (by simp [calm])⟩

theorem log_signals (host : Host) (positive : 0 < P) (acts : List Act) :
    (run (tick host) (paced host P) acts).log.map (·.2) =
      (run (tick host) (paced host P) acts).q.signals := by
  have keep : ∀ c act, (Beating P c ∧ c.log.map (·.2) = c.q.signals) →
      Beating P (tick host c act) ∧ (tick host c act).log.map (·.2) = (tick host c act).q.signals := by
    rintro c act ⟨beating, heard⟩
    have become (op : Op) : (c.become (step host c.q op)).log.map (·.2) =
        (c.become (step host c.q op)).q.signals := by
      have told := SwaEngine.step_signals host beating.settled op
      simp only [Clocked.become, told, List.drop_left, List.map_append, List.map_map, heard]
      simp
    have kept : Kept host P c act (tick host c act) := tick_kept beating positive act
    refine ⟨kept.1, ?_⟩
    cases act with
    | push raw =>
      rw [tick]
      split
      · exact become _
      · exact heard
    | fire h =>
      rw [tick]
      split
      · exact become _
      · exact heard
    | wait d =>
      rw [tick]
      split
      · exact heard
      · exact heard
  exact (run_invariant keep ⟨beating_paced host positive, rfl⟩ acts).2

end

/-- In every run at a constant pace, whatever is pushed and whenever: if each push is well
    timed, each event comes as late as its weight asks for; and if each does, and all were
    delivered, then each push was well timed. -/
theorem weighted_pacing (host : Host) {P : ℚ} (positive : 0 < P) (acts : List Act) :
    (EachStep (tick host) (WellTimed host P) (paced host P) acts →
      Spaced P (run (tick host) (paced host P) acts).log) ∧
    ((run (tick host) (paced host P) acts).q.queue = [] →
      Spaced P (run (tick host) (paced host P) acts).log →
      EachStep (tick host) (WellTimed host P) (paced host P) acts) := by
  obtain ⟨_, sound⟩ := sound_run host positive acts
  refine ⟨fun timed => (sound.mpr timed).1, fun empty spaced => sound.mp ⟨spaced, ?_⟩⟩
  rintro ⟨h, delay, t, ticking, early⟩
  rw [empty] at early
  simp at early

def pushed (type : String) : Act := .push (some ⟨type, none⟩)

/-- The event of weight 2.0 waits behind another one, and gets its 600 milliseconds. -/
theorem queued_climax_spaced :
    Spaced 300 (run (tick plainHost) (paced plainHost 300) [pushed "portal.resolve.requested",
      pushed "mtls.handshake.start", pushed "jwt_svid.issued", .wait 300, .fire 0, .wait 600,
      .fire 1]).log :=
  (weighted_pacing plainHost (by decide) _).1 (by decide +kernel)

/-- Pushed while the timer of the event before it runs, it comes after 300. -/
theorem late_climax_rushed :
    ¬ ∀ (host : Host) (P : ℚ), 0 < P → ∀ acts, Spaced P (run (tick host) (paced host P) acts).log := by
  intro always
  have spaced := always plainHost 300 (by decide) [pushed "portal.resolve.requested",
    pushed "jwt_svid.issued", .wait 300, .fire 0]
  have log : (run (tick plainHost) (paced plainHost 300) [pushed "portal.resolve.requested",
      pushed "jwt_svid.issued", .wait 300, .fire 0]).log =
      [(0, .state .walking), (0, .event ⟨0, "portal.resolve.requested", none⟩),
        (300, .event ⟨1, "jwt_svid.issued", none⟩)] := by decide +kernel
  rw [log] at spaced
  have early := spaced [(0, .state .walking), (0, .event ⟨0, "portal.resolve.requested", none⟩)]
    300 ⟨1, "jwt_svid.issued", none⟩ [] rfl 0
    ⟨[(0, .state .walking)], ⟨0, "portal.resolve.requested", none⟩, [], rfl, by simp⟩
  revert early
  decide +kernel

end SwaPace
