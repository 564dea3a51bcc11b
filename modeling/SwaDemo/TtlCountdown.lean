import Mathlib.Algebra.Order.Field.Basic
import Mathlib.Algebra.Order.Ring.Rat
import Mathlib.Tactic.Linarith
import SwaDemo.Logs
import SwaDemo.Runs
import SwaDemo.TtlTicker

/-!
The countdown under the browser's clock, which only goes on, while `iat` and `exp` were read
off the clock of the issuer. A token that comes in before the browser's clock reads its
`iat` has more than its whole life left, and its fraction is above one.
-/
namespace SwaTtl
open Js Logs Runs

inductive Note where
  | issued
  | frozen
  | snapshot (s : TtlSnapshot)
  deriving DecidableEq

/-- The log holds the calls of `setIssuedAndExp` and `freeze`, and every snapshot sent. -/
structure Countdown where
  ticker : TtlTicker
  date : Int
  log : List Note
  deriving DecidableEq

/-- The interval, once it is set, may fire at any time. -/
inductive Act where
  | wait (ms : Nat)
  | setIssuedAndExp (iat exp : JsNumber) (ordered : ¬ exp < iat)
  | freeze
  | tick

namespace Countdown

def opened (date : Int) : Countdown := ⟨initial, date, []⟩

/-- `Math.floor(Date.now() / 1000)` -/
def now (c : Countdown) : Int := c.date / 1000

def note (entry : Note) (c : Countdown) : Countdown := { c with log := c.log ++ [entry] }

def wait (ms : Nat) (c : Countdown) : Countdown := { c with date := c.date + ms }

/-- The body of `tick`. -/
def send (c : Countdown) : Countdown :=
  match SwaTtl.tick c.now c.ticker with
  | none => c
  | some s => c.note (.snapshot s)

def setIssuedAndExp (iat exp : JsNumber) (c : Countdown) : Countdown :=
  send (note .issued { c with ticker := SwaTtl.setIssuedAndExp iat exp })

def freeze (c : Countdown) : Countdown :=
  note .frozen { c with ticker := SwaTtl.freeze c.now c.ticker }

def tick (c : Countdown) : Countdown := if c.ticker.timer then c.send else c

def step (c : Countdown) : Act → Countdown
  | .wait ms => c.wait ms
  | .setIssuedAndExp iat exp _ => c.setIssuedAndExp iat exp
  | .freeze => c.freeze
  | .tick => c.tick

end Countdown

/-- What is asked of each snapshot, beside the log before it. -/
def Sent (p : List Note → TtlSnapshot → Prop) (log : List Note) : Prop :=
  Every (fun before entry => ∀ s, entry = .snapshot s → p before s) log

def InUnit (s : TtlSnapshot) : Prop := .fin 0 ≤ s.fraction ∧ s.fraction ≤ .fin 1

/-- It has no more time left than any snapshot since the last `setIssuedAndExp`. -/
def Falls (before : List Note) (s : TtlSnapshot) : Prop :=
  ∀ r, Since (· = .issued) before (.snapshot r) → s.remaining ≤ r.remaining

/-- After `freeze`, up to the next `setIssuedAndExp`, nothing is left. -/
def Stops (before : List Note) (s : TtlSnapshot) : Prop :=
  Since (· = .issued) before .frozen → s.remaining = .fin 0 ∧ s.fraction = .fin 0

structure Sound (log : List Note) : Prop where
  bounded : Sent (fun _ => InUnit) log
  falling : Sent Falls log
  stopped : Sent Stops log

/-- The browser does not see the token before it was issued, unless it ends within a second. -/
def Timely (now : Int) (iat exp : JsNumber) : Prop :=
  iat ≠ .nan ∧ ∃ e, exp = .fin e ∧ (iat ≤ .fin now ∨ e ≤ now + 1)

def InTime (c : Countdown) : Act → Prop
  | .setIssuedAndExp iat exp _ => Timely c.now iat exp
  | _ => True

/-! ## Snapshots -/

def left (now : Int) (exp : JsNumber) : JsNumber := (exp.sub (.fin now)).mathMax 0

def life (iat exp : JsNumber) : JsNumber := (exp.sub iat).mathMax 1

theorem tick_eq_some {now : Int} {t : TtlTicker} {s : TtlSnapshot} :
    tick now t = some s ↔ ∃ iat exp, t.iatEpoch = some iat ∧ t.expEpoch = some exp ∧
      s = ⟨left now exp, (left now exp).div (life iat exp)⟩ := by
  rcases t with ⟨_ | exp, _ | iat, timer⟩ <;> simp [tick, left, life, eq_comm]

theorem left_fin (now : Int) (e : ℚ) : left now (.fin e) = .fin (max 0 (e - now)) := by
  simp only [left, JsNumber.sub, JsNumber.mathMax]
  rw [max_def]

theorem left_nonneg (now : Int) {exp : JsNumber} (number : exp ≠ .nan) :
    .fin 0 ≤ left now exp := by
  cases exp with
  | nan => exact absurd rfl number
  | posInf => rfl
  | negInf => exact (JsNumber.fin_le_fin 0 0).mpr le_rfl
  | fin e => simp [left_fin]

theorem left_falls {now later : Int} (clock : now ≤ later) {exp : JsNumber} (number : exp ≠ .nan) :
    left later exp ≤ left now exp := by
  cases exp with
  | nan => exact absurd rfl number
  | posInf => rfl
  | negInf => exact (JsNumber.fin_le_fin 0 0).mpr le_rfl
  | fin e =>
    have clock : (now : ℚ) ≤ later := by exact_mod_cast clock
    rw [left_fin, left_fin, JsNumber.fin_le_fin]
    exact max_le_max le_rfl (by linarith)

theorem left_passed {now later : Int} (clock : now ≤ later) :
    left later (.fin now) = .fin 0 := by
  have clock : (now : ℚ) ≤ later := by exact_mod_cast clock
  rw [left_fin, max_eq_left (by linarith)]

theorem life_fin {iat : JsNumber} (number : iat ≠ .nan) (e : ℚ) :
    (∃ total, life iat (.fin e) = .fin total ∧ 1 ≤ total ∧
      ∀ now : ℚ, max 0 (e - now) ≤ total ↔ iat ≤ .fin now ∨ e ≤ now + 1) ∨
    life iat (.fin e) = .posInf ∧ iat = .negInf := by
  cases iat with
  | nan => exact absurd rfl number
  | negInf => exact Or.inr ⟨rfl, rfl⟩
  | posInf =>
    refine Or.inl ⟨1, rfl, le_rfl, fun now => ?_⟩
    have never : ¬ JsNumber.posInf ≤ .fin now := by rintro ⟨⟩
    simp only [max_le_iff, never, false_or]
    constructor
    · intro h
      linarith
    · intro h
      exact ⟨by norm_num, by linarith⟩
  | fin i =>
    refine Or.inl ⟨max 1 (e - i), ?_, le_max_left _ _, fun now => ?_⟩
    · simp only [life, JsNumber.sub, JsNumber.mathMax]
      rw [max_def]
    · rw [JsNumber.fin_le_fin]
      constructor
      · intro fits
        rcases le_max_iff.mp ((le_max_right 0 (e - now)).trans fits) with short | after
        · exact Or.inr (by linarith)
        · exact Or.inl (by linarith)
      · intro timely
        refine max_le (zero_le_one.trans (le_max_left _ _)) (le_max_iff.mpr ?_)
        rcases timely with after | short
        · exact Or.inr (by linarith)
        · exact Or.inl (by linarith)

theorem share_iff {iat : JsNumber} (number : iat ≠ .nan) (e : ℚ) (now : Int) :
    InUnit ⟨left now (.fin e), (left now (.fin e)).div (life iat (.fin e))⟩ ↔
      iat ≤ .fin now ∨ e ≤ now + 1 := by
  rw [InUnit, left_fin]
  rcases life_fin number e with ⟨total, life, second, fits⟩ | ⟨life, rfl⟩
  · have positive : 0 < total := by linarith
    have nonneg : 0 ≤ max 0 (e - now) / total := div_nonneg (le_max_left _ _) positive.le
    rw [life, ← fits]
    simp [JsNumber.div, positive.ne', div_le_one positive, nonneg]
  · have always : JsNumber.negInf ≤ .fin now := by rfl
    rw [life]
    simp [JsNumber.div, always]

/-- Where `iat` is not after `exp`, anything but two such numbers gives NaN. -/
theorem share_numbers {iat exp : JsNumber} (ordered : ¬ exp < iat) {now : Int}
    (lower : .fin 0 ≤ (left now exp).div (life iat exp)) : iat ≠ .nan ∧ ∃ e, exp = .fin e := by
  have bad (n : JsNumber) : ¬ .fin 0 ≤ n.div .nan := by
    cases n <;> rintro ⟨⟩
  cases exp with
  | fin e =>
    refine ⟨?_, e, rfl⟩
    rintro rfl
    exact bad _ lower
  | nan => cases lower
  | posInf => cases iat <;> cases lower
  | negInf =>
    cases iat with
    | nan | negInf => exact absurd lower (bad _)
    | posInf | fin i => exact absurd ⟨rfl, by rintro ⟨⟩⟩ ordered

theorem issued_inUnit {iat exp : JsNumber} (ordered : ¬ exp < iat) (now : Int) :
    (∀ s, tick now (setIssuedAndExp iat exp) = some s → InUnit s) ↔ Timely now iat exp := by
  constructor
  · intro inUnit
    have share := inUnit _ (tick_eq_some.mpr ⟨iat, exp, rfl, rfl, rfl⟩)
    obtain ⟨number, e, rfl⟩ := share_numbers ordered share.1
    exact ⟨number, e, rfl, (share_iff number e now).mp share⟩
  · rintro ⟨number, e, rfl, timely⟩ s sent
    obtain ⟨_, _, ⟨⟩, ⟨⟩, rfl⟩ := tick_eq_some.mp sent
    exact (share_iff number e now).mpr timely

theorem timely_later {now later : Int} (clock : now ≤ later) {iat exp : JsNumber}
    (timely : Timely now iat exp) : Timely later iat exp := by
  have clock : (now : ℚ) ≤ later := by exact_mod_cast clock
  obtain ⟨number, e, finite, issued | short⟩ := timely
  · refine ⟨number, e, finite, Or.inl ?_⟩
    cases iat with
    | nan => exact absurd rfl number
    | posInf => cases issued
    | negInf => rfl
    | fin i => exact (JsNumber.fin_le_fin _ _).mpr (((JsNumber.fin_le_fin _ _).mp issued).trans clock)
  · exact ⟨number, e, finite, Or.inr (by linarith)⟩

theorem frozen_zero {now later : Int} (clock : now ≤ later) {t : TtlTicker} {s : TtlSnapshot}
    (number : t.iatEpoch ≠ some .nan) (sent : tick later (freeze now t) = some s) :
    s = ⟨.fin 0, .fin 0⟩ := by
  obtain ⟨iat, _, issued, ⟨⟩, rfl⟩ := tick_eq_some.mp sent
  have number : iat ≠ .nan := by
    rintro rfl
    exact number issued
  rw [left_passed clock]
  rcases life_fin number now with ⟨total, life, second, _⟩ | ⟨life, _⟩
  · have positive : total ≠ 0 := by linarith
    simp [life, JsNumber.div, positive]
  · simp [life, JsNumber.div]

/-! ## Logs -/

section
variable {c : Countdown} {p : List Note → TtlSnapshot → Prop}

theorem sent_note {entry : Note} :
    Sent p (c.note entry).log ↔ Sent p c.log ∧ ∀ s, entry = .snapshot s → p c.log s :=
  every_concat

theorem sent_quiet {entry : Note} (quiet : ∀ s, entry ≠ .snapshot s) :
    Sent p (c.note entry).log ↔ Sent p c.log := by
  simp [sent_note, quiet]

theorem sent_send :
    Sent p c.send.log ↔ Sent p c.log ∧ ∀ s, tick c.now c.ticker = some s → p c.log s := by
  unfold Countdown.send
  cases sends : tick c.now c.ticker with
  | none => simp
  | some s => simp [sent_note]

theorem since_note {entry x : Note} (other : x ≠ entry) :
    Since (· = .issued) (c.note entry).log x ↔
      entry ≠ .issued ∧ Since (· = .issued) c.log x := by
  simp [Countdown.note, other]

/-- The same from now on, whenever `tick` runs next. -/
def Ahead (p : TtlSnapshot → Prop) (c : Countdown) : Prop :=
  ∀ later s, c.now ≤ later → tick later c.ticker = some s → p s

theorem now_wait (ms : Nat) : c.now ≤ (c.wait ms).now :=
  Int.ediv_le_ediv (by decide) (by simp [Countdown.wait])

theorem ahead_wait {p : TtlSnapshot → Prop} (ahead : Ahead p c) (ms : Nat) : Ahead p (c.wait ms) :=
  fun later s clock => ahead later s ((now_wait ms).trans clock)

/-- If the log is bounded so far, so is what comes before the next token. -/
def Promises (c : Countdown) : Prop :=
  Sent (fun _ => InUnit) c.log → c.ticker.iatEpoch ≠ some .nan ∧ Ahead InUnit c

@[simp] theorem send_ticker (c : Countdown) : c.send.ticker = c.ticker := by
  unfold Countdown.send
  split <;> rfl

@[simp] theorem send_now (c : Countdown) : c.send.now = c.now := by
  unfold Countdown.send
  split <;> rfl

theorem inUnit_zero : InUnit ⟨.fin 0, .fin 0⟩ :=
  ⟨(JsNumber.fin_le_fin 0 0).mpr le_rfl, (JsNumber.fin_le_fin 0 1).mpr zero_le_one⟩

theorem promises_send (promises : Promises c) :
    Promises c.send ∧ (Sent (fun _ => InUnit) c.send.log ↔ Sent (fun _ => InUnit) c.log) := by
  have same : Sent (fun _ => InUnit) c.send.log ↔ Sent (fun _ => InUnit) c.log := by
    rw [sent_send]
    constructor
    · intro both
      exact both.1
    · intro bounded
      exact ⟨bounded, fun s => (promises bounded).2 c.now s le_rfl⟩
  refine ⟨fun bounded => ?_, same⟩
  have kept := promises (same.mp bounded)
  simpa [Ahead] using kept

theorem promises_step (promises : Promises c) (act : Act) :
    Promises (c.step act) ∧
      (Sent (fun _ => InUnit) (c.step act).log ↔
        Sent (fun _ => InUnit) c.log ∧ InTime c act) := by
  cases act with
  | wait ms =>
    constructor
    · intro bounded
      exact ⟨(promises bounded).1, ahead_wait (promises bounded).2 ms⟩
    · simp [Countdown.step, Countdown.wait, InTime]
  | setIssuedAndExp iat exp ordered =>
    have timely : Sent (fun _ => InUnit) (c.setIssuedAndExp iat exp).log ↔
        Sent (fun _ => InUnit) c.log ∧ Timely c.now iat exp := by
      rw [Countdown.setIssuedAndExp, sent_send, sent_quiet (by simp), ← issued_inUnit ordered]
      rfl
    refine ⟨fun bounded => ?_, timely⟩
    have seen := (timely.mp bounded).2
    simp only [Countdown.step, Countdown.setIssuedAndExp, Ahead, send_ticker, send_now]
    constructor
    · intro issued
      exact seen.1 (Option.some.inj issued)
    · intro later s clock
      exact (issued_inUnit ordered later).mpr (timely_later clock seen) s
  | freeze =>
    have same : Sent (fun _ => InUnit) c.freeze.log ↔ Sent (fun _ => InUnit) c.log :=
      sent_quiet (by simp)
    refine ⟨fun bounded => ?_, by simpa [InTime, Countdown.step] using same⟩
    have number := (promises (same.mp bounded)).1
    refine ⟨number, fun later s clock sent => ?_⟩
    rw [frozen_zero clock number sent]
    exact inUnit_zero
  | tick =>
    simp only [Countdown.step, Countdown.tick, InTime, and_true]
    split
    · exact promises_send promises
    · exact ⟨promises, Iff.rfl⟩

/-- What is sent falls and stops, whether the tokens were seen in time or not. -/
structure Falling (c : Countdown) : Prop where
  iat : c.ticker.iatEpoch ≠ some .nan
  exp : c.ticker.expEpoch ≠ some .nan
  nonneg : Sent (fun _ s => .fin 0 ≤ s.remaining) c.log
  falling : Sent Falls c.log
  stopped : Sent Stops c.log
  falls : Ahead (Falls c.log) c
  stops : Ahead (Stops c.log) c

theorem tick_left {now : Int} {t : TtlTicker} {s : TtlSnapshot} (sent : tick now t = some s)
    (number : t.expEpoch ≠ some .nan) :
    .fin 0 ≤ s.remaining ∧
      ∀ later r, now ≤ later → tick later t = some r → r.remaining ≤ s.remaining := by
  obtain ⟨iat, exp, issued, ends, rfl⟩ := tick_eq_some.mp sent
  have number : exp ≠ .nan := by
    rintro rfl
    exact number ends
  refine ⟨left_nonneg now number, fun later r clock next => ?_⟩
  obtain ⟨_, exp', _, ends', rfl⟩ := tick_eq_some.mp next
  obtain rfl : exp = exp' := Option.some.inj (ends.symm.trans ends')
  exact left_falls clock number

theorem falling_send (kept : Falling c) : Falling c.send := by
  cases sends : tick c.now c.ticker with
  | none =>
    have same : c.send = c := by simp [Countdown.send, sends]
    rw [same]
    exact kept
  | some s =>
    have noted : c.send = c.note (.snapshot s) := by simp [Countdown.send, sends]
    obtain ⟨nonneg, falls⟩ := tick_left sends kept.exp
    rw [noted]
    exact {
      iat := kept.iat
      exp := kept.exp
      nonneg := sent_note.mpr ⟨kept.nonneg, by rintro _ ⟨⟩; exact nonneg⟩
      falling := sent_note.mpr ⟨kept.falling, by rintro _ ⟨⟩; exact kept.falls _ s le_rfl sends⟩
      stopped := sent_note.mpr ⟨kept.stopped, by rintro _ ⟨⟩; exact kept.stops _ s le_rfl sends⟩
      falls := by
        intro later r clock next q since
        rcases since_concat.mp since with ⟨⟨⟩⟩ | ⟨_, earlier⟩
        · exact falls later r clock next
        · exact kept.falls later r clock next q earlier
      stops := by
        intro later r clock next since
        obtain ⟨_, earlier⟩ := (since_note (by simp)).mp since
        exact kept.stops later r clock next earlier }

theorem sent_mem {q : TtlSnapshot → Prop} {log : List Note} (sent : Sent (fun _ => q) log)
    {s : TtlSnapshot} (mem : .snapshot s ∈ log) : q s := by
  obtain ⟨before, later, split⟩ := List.append_of_mem mem
  exact sent before _ later split s rfl

def Numbers : Act → Prop
  | .setIssuedAndExp iat exp _ => iat ≠ .nan ∧ exp ≠ .nan
  | _ => True

theorem falling_issued (kept : Falling c) {iat exp : JsNumber} (iatNumber : iat ≠ .nan)
    (expNumber : exp ≠ .nan) :
    Falling (Countdown.note .issued { c with ticker := setIssuedAndExp iat exp }) where
  iat := fun issued => iatNumber (Option.some.inj issued)
  exp := fun ends => expNumber (Option.some.inj ends)
  nonneg := (sent_quiet (by simp)).mpr kept.nonneg
  falling := (sent_quiet (by simp)).mpr kept.falling
  stopped := (sent_quiet (by simp)).mpr kept.stopped
  falls := by
    intro later s _ _ r since
    exact absurd rfl ((since_note (by simp)).mp since).1
  stops := by
    intro later s _ _ since
    exact absurd rfl ((since_note (by simp)).mp since).1

theorem falling_freeze (kept : Falling c) : Falling c.freeze where
  iat := kept.iat
  exp := by rintro ⟨⟩
  nonneg := (sent_quiet (by simp)).mpr kept.nonneg
  falling := (sent_quiet (by simp)).mpr kept.falling
  stopped := (sent_quiet (by simp)).mpr kept.stopped
  falls := by
    intro later s clock sent r since
    obtain ⟨_, earlier⟩ := (since_note (by simp)).mp since
    rw [frozen_zero clock kept.iat sent]
    exact sent_mem kept.nonneg (since_mem earlier)
  stops := by
    intro later s clock sent _
    rw [frozen_zero clock kept.iat sent]
    exact ⟨rfl, rfl⟩

theorem falling_step (kept : Falling c) (act : Act) (numbers : Numbers act) :
    Falling (c.step act) := by
  cases act with
  | wait ms =>
    exact { kept with
      falls := ahead_wait kept.falls ms
      stops := ahead_wait kept.stops ms }
  | setIssuedAndExp iat exp ordered =>
    exact falling_send (falling_issued kept numbers.1 numbers.2)
  | freeze => exact falling_freeze kept
  | tick =>
    rw [Countdown.step, Countdown.tick]
    split
    · exact falling_send kept
    · exact kept

end

theorem falling_opened (date : Int) : Falling (Countdown.opened date) where
  iat := by simp [Countdown.opened, initial]
  exp := by simp [Countdown.opened, initial]
  nonneg := every_nil _
  falling := every_nil _
  stopped := every_nil _
  falls := by rintro later s _ ⟨⟩
  stops := by rintro later s _ ⟨⟩

theorem falling_run (date : Int) {acts : List Act} (numbers : ∀ act ∈ acts, Numbers act) :
    Falling (run Countdown.step (.opened date) acts) :=
  run_invariant_mem (fun _ act mem kept => falling_step kept act (numbers act mem))
    (falling_opened date)

theorem bounded_run (date : Int) (acts : List Act) :
    Sent (fun _ => InUnit) (run Countdown.step (.opened date) acts).log ↔
      EachStep Countdown.step InTime (.opened date) acts := by
  have nothing : Sent (fun _ => InUnit) (Countdown.opened date).log := every_nil _
  have start : Promises (Countdown.opened date) :=
    fun _ => ⟨by simp [Countdown.opened, initial], by rintro later s _ ⟨⟩⟩
  have keep : ∀ (c : Countdown) (act : Act), Promises c → Promises (c.step act) ∧
      (Sent (fun _ => InUnit) (c.step act).log ↔
        Sent (fun _ => InUnit) c.log ∧ InTime c act) :=
    fun _ act promises => promises_step promises act
  obtain ⟨_, bounded⟩ := run_iff_eachStep (I := Promises)
    (P := fun c => Sent (fun _ => InUnit) c.log) keep start acts
  exact bounded.trans (by simp [nothing])

example : (run Countdown.step (.opened 1748000000000)
    [.setIssuedAndExp (.fin 1748000000) (.fin 1748000300) (by decide +kernel), .wait 1000, .tick,
      .freeze, .wait 1000, .tick]).log =
    [.issued, .snapshot ⟨.fin 300, .fin 1⟩, .snapshot ⟨.fin 299, .fin (299 / 300)⟩, .frozen,
      .snapshot ⟨.fin 0, .fin 0⟩] := by decide +kernel

theorem inTime_numbers {c : Countdown} {act : Act} (inTime : InTime c act) : Numbers act := by
  cases act with
  | setIssuedAndExp iat exp ordered =>
    obtain ⟨number, e, rfl, _⟩ := inTime
    exact ⟨number, by rintro ⟨⟩⟩
  | wait | freeze | tick => trivial

/-- Whenever the page was opened and however its clock goes on from there: the countdown is
    sound exactly if no token is seen before its `iat`, one that ends at once apart. -/
theorem countdown_sound (date : Int) (acts : List Act) :
    Sound (run Countdown.step (.opened date) acts).log ↔
      EachStep Countdown.step InTime (.opened date) acts := by
  constructor
  · intro sound
    exact (bounded_run date acts).mp sound.bounded
  · intro inTime
    have numbers : ∀ act ∈ acts, Numbers act :=
      eachStep_mem (D := Numbers) (fun _ _ meets => inTime_numbers meets) inTime
    have kept := falling_run date numbers
    exact ⟨(bounded_run date acts).mpr inTime, kept.falling, kept.stopped⟩

/-- The token comes in ten seconds before the browser's clock reads its `iat`. -/
theorem slow_clock_overfull :
    ¬ ∀ (date : Int) (acts : List Act), Sound (run Countdown.step (.opened date) acts).log := by
  intro sound
  have bounded := (sound 1747999990000
    [.setIssuedAndExp (.fin 1748000000) (.fin 1748000300) (by decide +kernel)]).bounded
  have log : (run Countdown.step (.opened 1747999990000)
      [.setIssuedAndExp (.fin 1748000000) (.fin 1748000300) (by decide +kernel)]).log =
      [.issued, .snapshot ⟨.fin 310, .fin (31 / 30)⟩] := by decide +kernel
  rw [log] at bounded
  have share : InUnit ⟨.fin 310, .fin (31 / 30)⟩ := bounded [.issued] _ [] rfl _ rfl
  have above : ¬ JsNumber.fin (31 / 30) ≤ .fin 1 := by decide +kernel
  exact above share.2

end SwaTtl
