import Mathlib.Algebra.GroupWithZero.Nat
import Mathlib.Data.List.Induction

/-!
Runs of a total step function over a list of actions. `Always` speaks of every
state a run passes through, `EachStep` of every action at the state it meets.
An action that is disabled at a state is expected to leave the state alone, so
a list of actions stands for one interleaving of whatever was possible.
-/
namespace Runs

universe u v w u' v'
variable {S : Type u} {A : Type v}

def run (step : S → A → S) (s : S) (as : List A) : S := as.foldl step s

def Always (step : S → A → S) (P : S → Prop) : S → List A → Prop
  | s, [] => P s
  | s, a :: as => P s ∧ Always step P (step s a) as

def EachStep (step : S → A → S) (C : S → A → Prop) : S → List A → Prop
  | _, [] => True
  | s, a :: as => C s a ∧ EachStep step C (step s a) as

instance eachStepDecidable {step : S → A → S} {C : S → A → Prop} [∀ s a, Decidable (C s a)] :
    ∀ s as, Decidable (EachStep step C s as)
  | _, [] => .isTrue trivial
  | s, a :: as => @instDecidableAnd _ _ _ (eachStepDecidable (step s a) as)

@[simp] theorem run_nil (step : S → A → S) (s : S) : run step s [] = s := rfl

@[simp] theorem run_cons (step : S → A → S) (s : S) (a : A) (as : List A) :
    run step s (a :: as) = run step (step s a) as := rfl

theorem run_append (step : S → A → S) (s : S) (as bs : List A) :
    run step s (as ++ bs) = run step (run step s as) bs := by
  simp [run, List.foldl_append]

theorem run_concat (step : S → A → S) (s : S) (as : List A) (a : A) :
    run step s (as ++ [a]) = step (run step s as) a := by
  simp [run_append]

theorem always_start {step : S → A → S} {P : S → Prop} {s : S} {as : List A}
    (h : Always step P s as) : P s := by
  cases as with
  | nil => exact h
  | cons a as => exact h.1

theorem eachStep_append {step : S → A → S} {C : S → A → Prop} {s : S} {as bs : List A} :
    EachStep step C s (as ++ bs) ↔
      EachStep step C s as ∧ EachStep step C (run step s as) bs := by
  induction as generalizing s with
  | nil => simp [EachStep]
  | cons a as ih => simp [EachStep, ih, and_assoc]

/-- What each step meets, read off every place where the run can be split. -/
theorem eachStep_iff_splits {step : S → A → S} {C : S → A → Prop} {s : S} {as : List A} :
    EachStep step C s as ↔ ∀ before a later, as = before ++ a :: later → C (run step s before) a := by
  constructor
  · rintro each before a later rfl
    exact (eachStep_append.mp each).2.1
  · intro splits
    induction as generalizing s with
    | nil => trivial
    | cons a as ih =>
      refine ⟨splits [] a as rfl, ih fun before b later split => ?_⟩
      exact splits (a :: before) b later (by rw [split, List.cons_append])

theorem eachStep_and {step : S → A → S} {C : S → A → Prop} {D : A → Prop} {s : S} {as : List A}
    (each : ∀ a ∈ as, D a) (h : EachStep step C s as) :
    EachStep step (fun s a => D a ∧ C s a) s as := by
  induction as generalizing s with
  | nil => trivial
  | cons a as ih =>
    exact ⟨⟨each a (by simp), h.1⟩, ih (fun b mem => each b (by simp [mem])) h.2⟩

theorem eachStep_mem {step : S → A → S} {C : S → A → Prop} {D : A → Prop}
    (meets : ∀ s a, C s a → D a) {s : S} {as : List A} (each : EachStep step C s as) :
    ∀ a ∈ as, D a := by
  intro a mem
  obtain ⟨before, later, split⟩ := List.append_of_mem mem
  exact meets _ a (eachStep_iff_splits.mp each before a later split)

theorem run_invariant {step : S → A → S} {P : S → Prop}
    (keep : ∀ s a, P s → P (step s a)) {s : S} (start : P s) (as : List A) :
    P (run step s as) := by
  induction as generalizing s with
  | nil => exact start
  | cons a as ih => exact ih (keep s a start)

theorem run_invariant_mem {step : S → A → S} {P : S → Prop} {s : S} {as : List A}
    (keep : ∀ s, ∀ a ∈ as, P s → P (step s a)) (start : P s) : P (run step s as) := by
  induction as generalizing s with
  | nil => exact start
  | cons a as ih =>
    exact ih (fun t b mem => keep t b (by simp [mem])) (keep s a (by simp) start)

/-- An invariant that only steps meeting `C` keep, along a run of such steps. -/
theorem run_invariant_of {step : S → A → S} {C : S → A → Prop} {P : S → Prop}
    (keep : ∀ s a, C s a → P s → P (step s a)) {s : S} {as : List A}
    (start : P s) (meets : EachStep step C s as) : P (run step s as) := by
  induction as generalizing s with
  | nil => exact start
  | cons a as ih => exact ih (keep s a meets.1 start) meets.2

/-- An invariant that may speak of the actions taken so far. -/
theorem run_records {step : S → A → S} {C : S → A → Prop} {P : S → List A → Prop} {s : S}
    (start : P s []) (keep : ∀ t done a, C t a → P t done → P (step t a) (done ++ [a]))
    {as : List A} (meets : EachStep step C s as) : P (run step s as) as := by
  induction as using List.reverseRecOn with
  | nil => exact start
  | append_singleton as a ih =>
    obtain ⟨before, last⟩ := eachStep_append.mp meets
    rw [run_concat]
    exact keep _ as a last.1 (ih before)

/-- Where one step keeps `P` exactly when it also meets `C`, a run ends in `P` exactly
    when it starts there and each of its steps meets `C`. -/
theorem run_iff_eachStep {step : S → A → S} {C : S → A → Prop} {I P : S → Prop}
    (keep : ∀ s a, I s → I (step s a) ∧ (P (step s a) ↔ P s ∧ C s a)) {s : S} (inv : I s)
    (as : List A) : I (run step s as) ∧ (P (run step s as) ↔ P s ∧ EachStep step C s as) := by
  induction as generalizing s with
  | nil => exact ⟨inv, by simp [EachStep]⟩
  | cons a as ih =>
    obtain ⟨kept, exact_step⟩ := keep s a inv
    obtain ⟨last, rest⟩ := ih kept
    refine ⟨last, ?_⟩
    rw [run_cons, rest, exact_step, EachStep, and_assoc]

/-- Where each step that meets `C` spends some of `φ`, a run of such steps is no longer than what
    `φ` was, and what it leaves. -/
theorem run_spends {step : S → A → S} {C : S → A → Prop} {I : S → Prop} {φ : S → Nat}
    (spends : ∀ s a, I s → C s a → I (step s a) ∧ φ (step s a) < φ s) {s : S} {as : List A} (inv : I s)
    (meets : EachStep step C s as) : as.length + φ (run step s as) ≤ φ s := by
  induction as generalizing s with
  | nil => simp
  | cons a as ih =>
    obtain ⟨kept, less⟩ := spends s a inv meets.1
    have rest := ih kept meets.2
    rw [List.length_cons, run_cons]
    omega

/-- Such steps come to an end where one of them can be taken as long as it is not reached. -/
theorem run_ends {step : S → A → S} {C : S → A → Prop} {I D : S → Prop} {φ : S → Nat}
    (spends : ∀ s a, I s → C s a → I (step s a) ∧ φ (step s a) < φ s)
    (enabled : ∀ s, I s → ¬ D s → ∃ a, C s a) {s : S} (inv : I s) :
    ∃ as, EachStep step C s as ∧ D (run step s as) := by
  induction size : φ s using Nat.strongRecOn generalizing s with
  | ind n ih =>
    by_cases done : D s
    · exact ⟨[], trivial, done⟩
    · obtain ⟨a, meets⟩ := enabled s inv done
      obtain ⟨kept, less⟩ := spends s a inv meets
      obtain ⟨as, each, ends⟩ := ih (φ (step s a)) (size ▸ less) kept rfl
      exact ⟨a :: as, ⟨meets, each⟩, ends⟩

/-- Steps that may fail; the run fails with the first one that does. -/
def tryRun (step : S → A → Option S) : S → List A → Option S
  | s, [] => some s
  | s, a :: as => (step s a).bind fun s' => tryRun step s' as

/-- What a run notes down: at each action something read off the state it meets. -/
def history {L : Type w} (step : S → A → Option S) (note : S → A → List L) : S → List A → List L
  | _, [] => []
  | s, a :: as => note s a ++ (step s a).elim [] fun s' => history step note s' as

theorem tryRun_concat (step : S → A → Option S) (s : S) (as : List A) (a : A) :
    tryRun step s (as ++ [a]) = (tryRun step s as).bind (step · a) := by
  induction as generalizing s with
  | nil => simp [tryRun]
  | cons b as ih =>
    rw [List.cons_append, tryRun, tryRun, Option.bind_assoc]
    exact Option.bind_congr fun s' _ => ih s'

theorem history_concat {L : Type w} (step : S → A → Option S) (note : S → A → List L) (s : S)
    (as : List A) (a : A) : history step note s (as ++ [a]) =
      history step note s as ++ (tryRun step s as).elim [] (note · a) := by
  induction as generalizing s with
  | nil =>
    cases ends : step s a <;> simp [history, tryRun, ends]
  | cons b as ih =>
    rw [List.cons_append, history, history, tryRun]
    cases step s b with
    | none => simp
    | some next => simp [ih]

theorem tryRun_safe {step : S → A → Option S} {P : S → Prop}
    (keep : ∀ s a, P s → ∃ s', step s a = some s' ∧ P s') {s : S} (start : P s) (as : List A) :
    ∃ s', tryRun step s as = some s' ∧ P s' := by
  induction as generalizing s with
  | nil => exact ⟨s, rfl, start⟩
  | cons a as ih =>
    obtain ⟨next, steps, kept⟩ := keep s a start
    obtain ⟨last, ran, final⟩ := ih kept
    exact ⟨last, by rw [tryRun, steps, Option.bind_some, ran], final⟩

/-- Every action of a run that may fail meets `C` at the state it finds. -/
def TryEach (step : S → A → Option S) (C : S → A → Prop) : S → List A → Prop
  | _, [] => True
  | s, a :: as => C s a ∧ ∀ s', step s a = some s' → TryEach step C s' as

theorem tryEach_cons {step : S → A → Option S} {C : S → A → Prop} {s s' : S} {a : A} {as : List A}
    (meets : C s a) (steps : step s a = some s') (rest : TryEach step C s' as) :
    TryEach step C s (a :: as) := by
  refine ⟨meets, fun next steps' => ?_⟩
  rw [steps] at steps'
  cases steps'
  exact rest

/-- An observer follows a run whose steps all meet `C`. -/
theorem tryRun_each {T : Type u'} {step : S → A → Option S} {C : S → A → Prop}
    {P : S → T → Prop} {follow : T → A → T}
    (keep : ∀ s t a, C s a → P s t → ∃ s', step s a = some s' ∧ P s' (follow t a))
    {s : S} {t : T} {as : List A} (start : P s t) (meets : TryEach step C s as) :
    ∃ s', tryRun step s as = some s' ∧ P s' (run follow t as) := by
  induction as generalizing s t with
  | nil => exact ⟨s, rfl, start⟩
  | cons a as ih =>
    obtain ⟨next, steps, kept⟩ := keep s t a meets.1 start
    obtain ⟨last, ran, final⟩ := ih kept (meets.2 next steps)
    exact ⟨last, by rw [tryRun, steps, Option.bind_some, ran], final⟩

theorem tryRun_invariant {step : S → A → Option S} {P : S → Prop}
    (keep : ∀ s a s', P s → step s a = some s' → P s') {s s' : S} {as : List A} (start : P s)
    (ran : tryRun step s as = some s') : P s' := by
  induction as generalizing s with
  | nil =>
    cases ran
    exact start
  | cons a as ih =>
    obtain ⟨next, steps, rest⟩ := Option.bind_eq_some_iff.mp ran
    exact ih (keep s a next start steps) rest

theorem tryEach_iff {step : S → A → Option S} {C D : S → A → Prop} {I : S → Prop}
    (keep : ∀ s a, I s → ∃ s', step s a = some s' ∧ I s')
    (same : ∀ s a, I s → (C s a ↔ D s a)) {s : S} (inv : I s) (as : List A) :
    TryEach step C s as ↔ TryEach step D s as := by
  induction as generalizing s with
  | nil => rfl
  | cons a as ih =>
    obtain ⟨next, steps, kept⟩ := keep s a inv
    have rest : (∀ s', step s a = some s' → TryEach step C s' as) ↔
        ∀ s', step s a = some s' → TryEach step D s' as := by
      simp only [steps, Option.some.injEq, forall_eq']
      exact ih kept
    rw [TryEach, TryEach, same s a inv, rest]

/-- A run is followed by another machine that takes a step for each action it sees and
    notes down the same. -/
theorem tryRun_follows {T : Type u'} {B : Type v'} {L : Type w} {step : S → A → Option S}
    {note : S → A → List L} {see : A → Option B} {step' : T → B → T} {note' : T → B → List L}
    {R : S → T → Prop}
    (follows : ∀ s t a, R s t → note s a = (see a).elim [] (note' t) ∧
      ∃ s', step s a = some s' ∧ R s' ((see a).elim t (step' t)))
    {s : S} {t : T} (start : R s t) (as : List A) :
    history step note s as =
        history (fun t b => some (step' t b)) note' t (as.filterMap see) ∧
      ∃ s', tryRun step s as = some s' ∧ R s' (run step' t (as.filterMap see)) := by
  induction as generalizing s t with
  | nil => exact ⟨rfl, s, rfl, start⟩
  | cons a as ih =>
    obtain ⟨noted, next, steps, related⟩ := follows s t a start
    obtain ⟨rest, last, ran, final⟩ := ih related
    rw [history, noted, steps, Option.elim_some, tryRun, steps, Option.bind_some, rest]
    cases seen : see a with
    | none =>
      rw [List.filterMap_cons_none seen]
      rw [seen] at final
      exact ⟨by simp, last, ran, final⟩
    | some b =>
      rw [List.filterMap_cons_some seen, run_cons]
      rw [seen] at final
      exact ⟨by simp [history], last, ran, final⟩

/-- An invariant that may speak of what the run has noted down so far. -/
theorem tryRun_account {L : Type w} {step : S → A → Option S} {note : S → A → List L}
    {P : S → List L → Prop}
    (keep : ∀ s a notes, P s notes → ∃ s', step s a = some s' ∧ P s' (notes ++ note s a))
    {s : S} {notes : List L} (start : P s notes) (as : List A) :
    ∃ s', tryRun step s as = some s' ∧ P s' (notes ++ history step note s as) := by
  induction as generalizing s notes with
  | nil => exact ⟨s, rfl, by simpa [history] using start⟩
  | cons a as ih =>
    obtain ⟨next, steps, kept⟩ := keep s a notes start
    obtain ⟨last, ran, final⟩ := ih kept
    refine ⟨last, by rw [tryRun, steps, Option.bind_some, ran], ?_⟩
    rw [history, steps, Option.elim_some, ← List.append_assoc]
    exact final

/-- What a run can have built up: no step adds more to `φ` than it notes down. -/
theorem tryRun_potential {step : S → A → Option S} {P : S → Prop} {φ : S → Nat}
    {note : S → A → List Nat}
    (pays : ∀ s a s', P s → step s a = some s' → P s' ∧ φ s' ≤ φ s + (note s a).sum)
    {s s' : S} (start : P s) {as : List A} (ran : tryRun step s as = some s') :
    φ s' ≤ φ s + (history step note s as).sum := by
  induction as generalizing s with
  | nil =>
    cases ran
    simp [history]
  | cons a as ih =>
    obtain ⟨next, steps, rest⟩ := Option.bind_eq_some_iff.mp ran
    obtain ⟨kept, paid⟩ := pays s a next start steps
    have later := ih kept rest
    rw [history, steps, List.sum_append, Option.elim_some]
    omega

/-- Where no step notes down more than one for an action that counts, and nothing for another, a run
    has noted down no more than the actions that count. -/
theorem history_sum_le {step : S → A → Option S} {P : S → Prop} {note : S → A → List Nat} {counts : A → Bool}
    (keep : ∀ s a s', P s → step s a = some s' → P s')
    (few : ∀ s a, P s → (note s a).sum ≤ if counts a then 1 else 0) {s : S} (start : P s) (as : List A) :
    (history step note s as).sum ≤ as.countP counts := by
  induction as generalizing s with
  | nil => simp [history]
  | cons a as ih =>
    have first := few s a start
    rw [history, List.sum_append, List.countP_cons]
    cases steps : step s a with
    | none =>
      rw [Option.elim_none, List.sum_nil]
      omega
    | some next =>
      have rest := ih (keep s a next start steps)
      rw [Option.elim_some]
      omega

/-- Where one step keeps `P` exactly when it meets `C`, a run stays inside `P`
    exactly when each of its steps meets `C`. The invariant `I` may be used for
    both directions and is kept by every step. -/
theorem always_iff_eachStep {step : S → A → S} {C : S → A → Prop} {I P : S → Prop}
    (keep : ∀ s a, I s → I (step s a))
    (exact_step : ∀ s a, I s → P s → (P (step s a) ↔ C s a)) {s : S} {as : List A}
    (inv : I s) (start : P s) : Always step P s as ↔ EachStep step C s as := by
  induction as generalizing s with
  | nil => exact ⟨fun _ => trivial, fun _ => start⟩
  | cons a as ih =>
    constructor
    · rintro ⟨_, rest⟩
      have next := always_start rest
      exact ⟨(exact_step s a inv start).mp next, (ih (keep s a inv) next).mp rest⟩
    · rintro ⟨meets, rest⟩
      have next := (exact_step s a inv start).mpr meets
      exact ⟨start, (ih (keep s a inv) next).mpr rest⟩

end Runs
