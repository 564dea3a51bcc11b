import Mathlib.Data.List.GetD
import Mathlib.Algebra.BigOperators.Group.List.Basic
import Mathlib.Tactic.NormNum
import Mathlib.Tactic.Ring

/-!
The proleptic Gregorian calendar. Days are counted from the first of January of the
year 1, months and days of a date from 0; a day before that year has a date as well.
-/
namespace Calendar

def isLeap (year : Int) : Bool := decide (year % 4 = 0 ∧ (year % 100 ≠ 0 ∨ year % 400 = 0))

def monthLengths (leap : Bool) : List Nat :=
  [31, if leap then 29 else 28, 31, 30, 31, 30, 31, 31, 30, 31, 30, 31]

/-- 0 where there is no such month. -/
def daysIn (year : Int) (month : Nat) : Nat := (monthLengths (isLeap year)).getD month 0

/-- The day on which a year begins. -/
def yearStart (year : Int) : Int :=
  365 * (year - 1) + (year - 1) / 4 - (year - 1) / 100 + (year - 1) / 400

/-- The years within a stretch of years that are 365 days long each, where the last of
    four may be a day longer. -/
def leastYear (unit day : Int) : Int := day / unit - day / unit / 4

def yearOf (day : Int) : Int :=
  let century := leastYear 36524 (day % 146097)
  let inCentury := day % 146097 - 36524 * century
  400 * (day / 146097) + 100 * century + 4 * (inCentury / 1461) + leastYear 365 (inCentury % 1461) + 1

/-- The entry of a list of lengths in which a place lies, and the place within the entry. -/
def locate : List Nat → Nat → Nat × Nat
  | [], n => (0, n)
  | length :: lengths, n =>
    if n < length then (0, n)
    else ((locate lengths (n - length)).1 + 1, (locate lengths (n - length)).2)

structure Date where
  year : Int
  month : Nat
  day : Nat
  valid : day < daysIn year month
  deriving DecidableEq, Repr

theorem locate_spec {lengths : List Nat} {n : Nat} (within : n < lengths.sum) :
    (locate lengths n).2 < lengths.getD (locate lengths n).1 0 ∧
      (lengths.take (locate lengths n).1).sum + (locate lengths n).2 = n := by
  induction lengths generalizing n with
  | nil => simp at within
  | cons length lengths ih =>
    rw [locate]
    split
    · rename_i first
      simpa using first
    · rename_i later
      rw [List.sum_cons] at within
      obtain ⟨inside, before⟩ := ih (n := n - length) (by omega)
      refine ⟨by simpa using inside, ?_⟩
      rw [List.take_succ_cons, List.sum_cons]
      omega

/-- Of four such stretches each place is in one, the last place of all in the fourth. -/
theorem leastYear_spec {unit day : Int} (long : 4 < unit) (low : 0 ≤ day) (high : day ≤ 4 * unit) :
    0 ≤ leastYear unit day ∧ leastYear unit day ≤ 3 ∧ unit * leastYear unit day ≤ day ∧
      (leastYear unit day < 3 → day < unit * (leastYear unit day + 1)) := by
  have positive : 0 < unit := by omega
  have below : day / unit * unit ≤ day := Int.ediv_mul_le day positive.ne'
  have above : day < (day / unit + 1) * unit := Int.lt_ediv_add_one_mul_self day positive
  have first : 0 ≤ day / unit := Int.ediv_nonneg low positive.le
  have last : day / unit ≤ 4 := by
    have := Int.ediv_le_ediv positive high
    rwa [Int.mul_ediv_cancel _ positive.ne'] at this
  unfold leastYear
  generalize day / unit = count at below above first last ⊢
  obtain rfl | rfl | rfl | rfl | rfl : count = 0 ∨ count = 1 ∨ count = 2 ∨ count = 3 ∨ count = 4 := by
    omega
  all_goals
    norm_num at below above ⊢
    omega

theorem yearStart_parts {cycle century four year : Int} (centuries : 0 ≤ century ∧ century ≤ 3)
    (fours : 0 ≤ four ∧ four ≤ 24) (years : 0 ≤ year ∧ year ≤ 3) :
    yearStart (400 * cycle + 100 * century + 4 * four + year + 1) =
      146097 * cycle + 36524 * century + 1461 * four + 365 * year := by
  have quarters : (400 * cycle + 100 * century + 4 * four + year) / 4 =
      100 * cycle + 25 * century + four := by omega
  have hundreds : (400 * cycle + 100 * century + 4 * four + year) / 100 = 4 * cycle + century := by
    omega
  have cycles : (400 * cycle + 100 * century + 4 * four + year) / 400 = cycle := by omega
  rw [yearStart, Int.add_sub_cancel, quarters, hundreds, cycles]
  ring

theorem lengths_sum (leap : Bool) : (monthLengths leap).sum = if leap then 366 else 365 := by
  cases leap <;> rfl

/-- Every day is in the year that is computed for it. -/
theorem yearOf_spec (day : Int) :
    yearStart (yearOf day) ≤ day ∧
      day < yearStart (yearOf day) + (monthLengths (isLeap (yearOf day))).sum := by
  have inCycle : 0 ≤ day % 146097 ∧ day % 146097 ≤ 4 * 36524 := by omega
  obtain ⟨c0, c3, cLow, cHigh⟩ := leastYear_spec (by norm_num : (4 : Int) < 36524) inCycle.1 inCycle.2
  generalize century_eq : leastYear 36524 (day % 146097) = century at c0 c3 cLow cHigh
  have inFour : 0 ≤ (day % 146097 - 36524 * century) % 1461 ∧
      (day % 146097 - 36524 * century) % 1461 ≤ 4 * 365 := by omega
  obtain ⟨y0, y3, yLow, yHigh⟩ := leastYear_spec (by norm_num : (4 : Int) < 365) inFour.1 inFour.2
  generalize year_eq : leastYear 365 ((day % 146097 - 36524 * century) % 1461) = year
    at y0 y3 yLow yHigh
  have fours : 0 ≤ (day % 146097 - 36524 * century) / 1461 ∧
      (day % 146097 - 36524 * century) / 1461 ≤ 24 := by omega
  have is : yearOf day = 400 * (day / 146097) + 100 * century +
      4 * ((day % 146097 - 36524 * century) / 1461) + year + 1 := by
    rw [yearOf, century_eq, year_eq]
  rw [is, yearStart_parts ⟨c0, c3⟩ fours ⟨y0, y3⟩, lengths_sum]
  refine ⟨by omega, ?_⟩
  split
  · omega
  · rename_i plain
    simp only [isLeap, decide_eq_true_eq] at plain
    omega

/-- The place of a day within its year. -/
def place (day : Int) : Nat × Nat :=
  locate (monthLengths (isLeap (yearOf day))) (day - yearStart (yearOf day)).toNat

theorem place_spec (day : Int) : (place day).2 < daysIn (yearOf day) (place day).1 ∧
    yearStart (yearOf day) + ((monthLengths (isLeap (yearOf day))).take (place day).1).sum +
      (place day).2 = day := by
  obtain ⟨begun, within⟩ := yearOf_spec day
  have inYear : (day - yearStart (yearOf day)).toNat < (monthLengths (isLeap (yearOf day))).sum := by
    omega
  obtain ⟨inside, before⟩ := locate_spec inYear
  exact ⟨inside, by rw [place]; omega⟩

def Date.ofDay (day : Int) : Date where
  year := yearOf day
  month := (place day).1
  day := (place day).2
  valid := (place_spec day).1

def dayOf (year : Int) (month day : Nat) : Int :=
  yearStart year + ((monthLengths (isLeap year)).take month).sum + day

def Date.toDay (d : Date) : Int := dayOf d.year d.month d.day

@[simp] theorem toDay_ofDay (day : Int) : (Date.ofDay day).toDay = day := (place_spec day).2

/-- A date has one of twelve months and one of 31 days. -/
theorem Date.bounds (d : Date) : d.month < 12 ∧ d.day < 31 := by
  have valid := d.valid
  rw [daysIn] at valid
  have twelve : (monthLengths (isLeap d.year)).length = 12 := rfl
  have month : d.month < 12 := by
    by_contra late
    rw [List.getD_eq_default _ _ (by omega)] at valid
    omega
  refine ⟨month, valid.trans_le ?_⟩
  have short : ∀ leap, ∀ length ∈ monthLengths leap, length ≤ 31 := by decide
  rw [List.getD_eq_getElem _ _ (by omega)]
  exact short _ _ (List.getElem_mem _)

/-- The first of January of 1970. -/
def unixEpoch : Int := 719162

example : (Date.ofDay unixEpoch).year = 1970 ∧ (Date.ofDay (unixEpoch + 11016)).month = 1 ∧
    (Date.ofDay (unixEpoch + 11016)).day = 28 := by decide

end Calendar
