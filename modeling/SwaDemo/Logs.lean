import Mathlib.Data.List.Basic

/-!
Logs that grow at their end. `Every` speaks of each entry beside what stands before it,
`Since` of the entries after the last reset; an append changes each in one way only.
-/
namespace Logs

universe u
variable {α : Type u} {log before later : List α} {x y : α}

def Every (p : List α → α → Prop) (log : List α) : Prop :=
  ∀ before x later, log = before ++ x :: later → p before x

/-- `x` is in the log and no entry after it is a reset. -/
def Since (reset : α → Prop) (log : List α) (x : α) : Prop :=
  ∃ before later, log = before ++ x :: later ∧ ∀ y ∈ later, ¬ reset y

theorem split_concat (split : log ++ [x] = before ++ y :: later) :
    (log = before ∧ x = y ∧ later = []) ∨
      ∃ rest, log = before ++ y :: rest ∧ later = rest ++ [x] := by
  rcases later.eq_nil_or_concat' with rfl | ⟨rest, last, rfl⟩
  · obtain ⟨start, same⟩ := List.append_inj' split rfl
    exact Or.inl ⟨start, List.head_eq_of_cons_eq same, rfl⟩
  · rw [← List.cons_append, ← List.append_assoc] at split
    obtain ⟨start, same⟩ := List.append_inj' split rfl
    exact Or.inr ⟨rest, start, by rw [same]⟩

theorem every_nil (p : List α → α → Prop) : Every p [] := by
  intro before x later split
  cases before <;> cases split

theorem every_concat {p : List α → α → Prop} :
    Every p (log ++ [x]) ↔ Every p log ∧ p log x := by
  constructor
  · intro every
    constructor
    · intro before y later split
      exact every before y (later ++ [x]) (by simp [split])
    · exact every log x [] rfl
  · rintro ⟨every, last⟩ before y later split
    rcases split_concat split with ⟨rfl, rfl, _⟩ | ⟨rest, inside, _⟩
    · exact last
    · exact every before y rest inside

variable {reset : α → Prop}

@[simp] theorem since_nil : ¬ Since reset [] x := by
  rintro ⟨before, later, split, _⟩
  cases before <;> cases split

@[simp] theorem since_concat :
    Since reset (log ++ [x]) y ↔ y = x ∨ (¬ reset x ∧ Since reset log y) := by
  constructor
  · rintro ⟨before, later, split, quiet⟩
    rcases split_concat split with ⟨_, same, _⟩ | ⟨rest, inside, rfl⟩
    · exact Or.inl same.symm
    · right
      constructor
      · exact quiet x (by simp)
      · exact ⟨before, rest, inside, fun z mem => quiet z (by simp [mem])⟩
  · rintro (rfl | ⟨noReset, before, later, rfl, quiet⟩)
    · exact ⟨log, [], rfl, by simp⟩
    · refine ⟨before, later ++ [x], by simp, fun z mem => ?_⟩
      rcases List.mem_append.mp mem with old | new
      · exact quiet z old
      · rw [List.mem_singleton.mp new]
        exact noReset

theorem since_mem (since : Since reset log x) : x ∈ log := by
  obtain ⟨before, later, rfl, _⟩ := since
  simp

end Logs
