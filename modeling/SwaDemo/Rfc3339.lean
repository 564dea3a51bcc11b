import SwaDemo.Calendar
import SwaDemo.JsonNumbers
import Mathlib.Data.List.DropRight

/-!
Points of time as text in the format of RFC 3339: a time is a number of nanoseconds since
the first of January of 1970, it is written in UTC, and it is read with any offset.
-/
namespace Rfc3339
open Calendar
open Json (natural digit isDigit digitsOf)

/-! ## Writing -/

/-- The last digits of a number. -/
def padded : Nat → Nat → List Nat
  | 0, _ => []
  | width + 1, n => padded width (n / 10) ++ [n % 10]

def number (width n : Nat) : List UInt8 := (padded width n).map digit

/-- Without zeros at its end, and without the point where nothing is left. -/
def fractionText (nano : Nat) : List UInt8 :=
  if nano = 0 then [] else 46 :: ((padded 9 nano).rdropWhile (· = 0)).map digit

def clockText (nano : Nat) : List UInt8 :=
  number 2 (nano / 3600000000000) ++ 58 :: (number 2 (nano / 60000000000 % 60) ++ 58 ::
    (number 2 (nano / 1000000000 % 60) ++ fractionText (nano % 1000000000)))

def dateText (d : Date) : List UInt8 :=
  number 4 d.year.toNat ++ 45 :: (number 2 (d.month + 1) ++ 45 :: number 2 (d.day + 1))

def nanosPerDay : Int := 86400000000000

def dateOf (t : Int) : Date := Date.ofDay (t / nanosPerDay + unixEpoch)

/-- The format has room for four digits of a year. -/
def Writable (t : Int) : Prop := 0 ≤ (dateOf t).year ∧ (dateOf t).year ≤ 9999

instance (t : Int) : Decidable (Writable t) := inferInstanceAs (Decidable (_ ∧ _))

def format (t : Int) : Option (List UInt8) :=
  if Writable t then
    some (dateText (dateOf t) ++ 84 :: (clockText (t % nanosPerDay).toNat ++ [90]))
  else none

/-! ## Reading -/

/-- A number of this many digits between two bounds, and the text behind it. -/
def uint (width low high : Nat) (s : List UInt8) : Option (Nat × List UInt8) :=
  if (s.take width).length = width ∧ (s.take width).all isDigit = true ∧
      low ≤ natural (digitsOf (s.take width)) ∧ natural (digitsOf (s.take width)) ≤ high then
    some (natural (digitsOf (s.take width)), s.drop width)
  else none

def sep (c : UInt8) : List UInt8 → Option (List UInt8)
  | d :: s => if d = c then some s else none
  | [] => none

/-- Nine digits of a fraction count. -/
def nanoseconds (ds : List Nat) : Nat := natural (ds.take 9) * 10 ^ (9 - (ds.take 9).length)

def fraction : List UInt8 → Nat × List UInt8
  | 46 :: s =>
    if s.takeWhile isDigit = [] then (0, 46 :: s)
    else (nanoseconds (digitsOf (s.takeWhile isDigit)), s.dropWhile isDigit)
  | s => (0, s)

/-- The seconds by which a zone is ahead of UTC. -/
def zone : List UInt8 → Option Int
  | [90] => some 0
  | sign :: s =>
    if sign = 43 ∨ sign = 45 then do
      let (hours, s) ← uint 2 0 23 s
      let s ← sep 58 s
      let (minutes, s) ← uint 2 0 59 s
      if s = [] then some ((if sign = 45 then -1 else 1) * ((hours * 60 + minutes) * 60)) else none
    else none
  | [] => none

def date (s : List UInt8) : Option (Int × List UInt8) := do
  let (year, s) ← uint 4 0 9999 s
  let s ← sep 45 s
  let (month, s) ← uint 2 1 12 s
  let s ← sep 45 s
  let (day, s) ← uint 2 1 (daysIn year (month - 1)) s
  return (dayOf year (month - 1) (day - 1), s)

/-- The nanoseconds of a day. -/
def clock (s : List UInt8) : Option (Nat × List UInt8) := do
  let (hour, s) ← uint 2 0 23 s
  let s ← sep 58 s
  let (minute, s) ← uint 2 0 59 s
  let s ← sep 58 s
  let (second, s) ← uint 2 0 59 s
  let (nano, s) := fraction s
  return (hour * 3600000000000 + minute * 60000000000 + second * 1000000000 + nano, s)

def parse (s : List UInt8) : Option Int := do
  let (day, s) ← date s
  let s ← sep 84 s
  let (nano, s) ← clock s
  let ahead ← zone s
  return (day - unixEpoch) * nanosPerDay + nano - ahead * 1000000000

/-! ## What is written is read -/

@[simp] theorem padded_length (width n : Nat) : (padded width n).length = width := by
  induction width generalizing n with
  | zero => rfl
  | succ width ih => simp [padded, ih]

theorem padded_small (width n : Nat) : ∀ d ∈ padded width n, d < 10 := by
  induction width generalizing n with
  | zero => simp [padded]
  | succ width ih =>
    intro d mem
    rcases List.mem_append.mp mem with front | last
    · exact ih _ d front
    · obtain rfl := List.mem_singleton.mp last
      omega

theorem natural_concat (ds : List Nat) (d : Nat) : natural (ds ++ [d]) = 10 * natural ds + d := by
  simp [natural, List.foldl_append]

theorem natural_padded {width n : Nat} (small : n < 10 ^ width) : natural (padded width n) = n := by
  induction width generalizing n with
  | zero =>
    have zero : n = 0 := by simpa using small
    rw [zero]
    rfl
  | succ width ih =>
    rw [pow_succ] at small
    rw [padded, natural_concat, ih (by omega)]
    omega

theorem uint_number {width low high n : Nat} (small : n < 10 ^ width) (above : low ≤ n)
    (below : n ≤ high) (s : List UInt8) : uint width low high (number width n ++ s) = some (n, s) := by
  have length : (number width n).length = width := by simp [number]
  have cut : (number width n ++ s).take width = number width n := by
    rw [List.take_append_of_le_length length.ge, List.take_of_length_le length.le]
  have rest : (number width n ++ s).drop width = s := List.drop_left' length
  obtain ⟨digits, each⟩ := Json.digits_text (padded_small width n)
  have value : natural (digitsOf (number width n)) = n := by
    rw [number, digits, natural_padded small]
  rw [uint, cut, rest, value, if_pos ⟨length, List.all_eq_true.mpr each, above, below⟩]

/-- The zeros at the end of a fraction are made up for when it is read. -/
theorem nanoseconds_trimmed (ds : List Nat) :
    natural (ds.rdropWhile (· = 0)) * 10 ^ (ds.length - (ds.rdropWhile (· = 0)).length) = natural ds := by
  induction ds using List.reverseRecOn with
  | nil => rfl
  | append_singleton ds d ih =>
    by_cases zero : d = 0
    · have shorter : (ds.rdropWhile (· = 0)).length ≤ ds.length :=
        (List.rdropWhile_prefix _ ds).length_le
      have one : ds.length + 1 - (ds.rdropWhile (· = 0)).length =
          ds.length - (ds.rdropWhile (· = 0)).length + 1 := by omega
      rw [List.rdropWhile_concat_pos _ _ _ (by simpa using zero), List.length_append,
        List.length_singleton, one, pow_succ, ← mul_assoc, ih, natural_concat, zero]
      ring
    · rw [List.rdropWhile_concat_neg _ _ _ (by simpa using zero), Nat.sub_self, pow_zero, mul_one]

theorem fraction_text {nano : Nat} (small : nano < 1000000000) :
    fraction (fractionText nano ++ [90]) = (nano, [90]) := by
  unfold fractionText
  split
  · rename_i zero
    rw [zero]
    rfl
  · rename_i some_
    generalize trimmed : (padded 9 nano).rdropWhile (· = 0) = ds
    have front : ds <+: padded 9 nano := trimmed ▸ List.rdropWhile_prefix _ _
    have short : ds.length ≤ 9 := by simpa using front.length_le
    have digits : ∀ d ∈ ds, d < 10 := fun d mem => padded_small 9 nano d (front.subset mem)
    have value : natural ds * 10 ^ (9 - ds.length) = nano := by
      have made_up := nanoseconds_trimmed (padded 9 nano)
      rwa [trimmed, padded_length, natural_padded (by omega)] at made_up
    have nonempty : ds.map digit ≠ [] := by
      intro empty
      rw [List.map_eq_nil_iff.mp empty] at value
      simp [natural] at value
      omega
    obtain ⟨taken, left⟩ := Json.digits_span digits (s := [90]) (by
      intro c head
      obtain rfl := Option.some.inj head
      rfl)
    rw [List.cons_append, fraction, taken, left, if_neg nonempty, (Json.digits_text digits).1,
      nanoseconds, List.take_of_length_le short, value]

@[simp] theorem sep_cons (c : UInt8) (s : List UInt8) : sep c (c :: s) = some s := if_pos rfl

theorem date_text {d : Date} (low : 0 ≤ d.year) (high : d.year ≤ 9999) (s : List UInt8) :
    date (dateText d ++ s) = some (d.toDay, s) := by
  obtain ⟨month, day⟩ := d.bounds
  have year : ((d.year.toNat : Nat) : Int) = d.year := Int.toNat_of_nonneg low
  have valid : d.day + 1 ≤ daysIn (d.year.toNat : Nat) (d.month + 1 - 1) := by
    rw [year, Nat.add_sub_cancel]
    exact d.valid
  have text : dateText d ++ s = number 4 d.year.toNat ++
      45 :: (number 2 (d.month + 1) ++ 45 :: (number 2 (d.day + 1) ++ s)) := by
    simp [dateText]
  rw [date, text, uint_number (by omega) (by omega) (by omega)]
  simp only [Option.bind_eq_bind, Option.bind_some, sep_cons]
  rw [uint_number (by omega) (by omega) (by omega)]
  simp only [Option.bind_some, sep_cons]
  rw [uint_number (by omega) (by omega) valid]
  simp [year, Date.toDay]

theorem clock_text {nano : Nat} (small : nano < 86400000000000) :
    clock (clockText nano ++ [90]) = some (nano, [90]) := by
  have text : clockText nano ++ [90] = number 2 (nano / 3600000000000) ++ 58 ::
      (number 2 (nano / 60000000000 % 60) ++ 58 ::
        (number 2 (nano / 1000000000 % 60) ++ (fractionText (nano % 1000000000) ++ [90]))) := by
    simp [clockText]
  rw [clock, text, uint_number (by omega) (by omega) (by omega)]
  simp only [Option.bind_eq_bind, Option.bind_some, sep_cons]
  rw [uint_number (by omega) (by omega) (by omega)]
  simp only [Option.bind_some, sep_cons]
  rw [uint_number (by omega) (by omega) (by omega)]
  simp only [Option.bind_some, fraction_text (Nat.mod_lt nano (by decide : 0 < 1000000000))]
  have whole : nano / 3600000000000 * 3600000000000 + nano / 60000000000 % 60 * 60000000000 +
      nano / 1000000000 % 60 * 1000000000 + nano % 1000000000 = nano := by omega
  rw [whole]
  rfl

/-- Every time of the years 0 to 9999 is read back as it was written. -/
theorem parse_format {t : Int} {text : List UInt8} (written : format t = some text) :
    parse text = some t := by
  unfold format at written
  split at written
  · rename_i writable
    obtain rfl := Option.some.inj written
    have within : (t % nanosPerDay).toNat < 86400000000000 := by
      rw [nanosPerDay]
      omega
    rw [parse, date_text writable.1 writable.2]
    simp only [Option.bind_eq_bind, Option.bind_some, sep_cons, clock_text within, zone, dateOf,
      toDay_ofDay]
    have split : (t / nanosPerDay + unixEpoch - unixEpoch) * nanosPerDay +
        ((t % nanosPerDay).toNat : Int) - 0 * 1000000000 = t := by
      rw [nanosPerDay]
      omega
    rw [split]
    rfl
  · contradiction

/-- A leap day, half a second before midnight an hour ahead of UTC. -/
example : parse "2000-02-29T23:59:59.5+01:00".toUTF8.data.toList = some 951865199500000000 ∧
    format 951865199500000000 = some "2000-02-29T22:59:59.5Z".toUTF8.data.toList := by
  decide +kernel

theorem number_ascii (width n : Nat) : ∀ b ∈ number width n, b < 128 := by
  have digits : ∀ d < 10, digit d < 128 := by decide
  intro b mem
  obtain ⟨d, known, rfl⟩ := List.mem_map.mp mem
  exact digits d (padded_small width n d known)

theorem fraction_ascii (nano : Nat) : ∀ b ∈ fractionText nano, b < 128 := by
  unfold fractionText
  split
  · simp
  · refine List.forall_mem_cons.mpr ⟨by decide, fun b mem => ?_⟩
    obtain ⟨d, known, rfl⟩ := List.mem_map.mp mem
    have front := List.rdropWhile_prefix (· = 0) (padded 9 nano)
    exact number_ascii 9 nano _ (List.mem_map.mpr ⟨d, front.subset known, rfl⟩)

theorem format_ascii {t : Int} {text : List UInt8} (written : format t = some text) :
    ∀ b ∈ text, b < 128 := by
  unfold format at written
  split at written
  · obtain rfl := Option.some.inj written
    have number (width n : Nat) := number_ascii width n
    have date : ∀ b ∈ dateText (dateOf t), b < 128 := by
      simp only [dateText, List.forall_mem_append, List.forall_mem_cons]
      exact ⟨number _ _, by decide, number _ _, by decide, number _ _⟩
    have clock : ∀ b ∈ clockText (t % nanosPerDay).toNat, b < 128 := by
      simp only [clockText, List.forall_mem_append, List.forall_mem_cons]
      exact ⟨number _ _, by decide, number _ _, by decide, number _ _, fraction_ascii _⟩
    simp only [List.forall_mem_append, List.forall_mem_cons]
    exact ⟨date, by decide, clock, by decide, by simp⟩
  · contradiction

end Rfc3339
