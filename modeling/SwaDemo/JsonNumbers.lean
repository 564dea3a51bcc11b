import SwaDemo.JsonText
import Mathlib.Data.Nat.Digits.Lemmas

/-!
The numbers of a JSON text: what is written for a numeral is read as that numeral.
-/
namespace Json

def digit (n : Nat) : UInt8 := UInt8.ofNat (48 + n)

/-- The decimal digits of a number. -/
def decimal (n : Nat) : List Nat := if n = 0 then [0] else (Nat.digits 10 n).reverse

def exponentText : Option Int → List UInt8
  | none => []
  | some e => 101 :: (if e < 0 then 45 else 43) :: (decimal e.natAbs).map digit

namespace Numeral

def text (n : Numeral) : List UInt8 :=
  (if n.negative then [45] else []) ++ n.whole.map digit ++
    (if n.fraction = [] then [] else 46 :: n.fraction.map digit) ++ exponentText n.exponent

def ofInt (n : Int) : Numeral := ⟨decide (n < 0), decimal n.natAbs, [], none⟩

/-- It has digits, no leading zero among them. -/
structure Regular (n : Numeral) : Prop where
  digits : ∀ d ∈ n.whole ++ n.fraction, d < 10
  whole : n.whole ≠ []
  leading : n.whole.head? = some 0 → n.whole.length = 1

end Numeral

theorem digit_value {n : Nat} (small : n < 10) : (digit n).toNat = 48 + n ∧ isDigit (digit n) = true := by
  have each : ∀ n < 10, (digit n).toNat = 48 + n ∧ isDigit (digit n) = true := by decide
  exact each n small

theorem digits_text {ds : List Nat} (small : ∀ d ∈ ds, d < 10) :
    digitsOf (ds.map digit) = ds ∧ ∀ c ∈ ds.map digit, isDigit c = true := by
  constructor
  · rw [digitsOf, List.map_map]
    refine (List.map_congr_left fun d mem => ?_).trans (List.map_id ds)
    simp [(digit_value (small d mem)).1]
  · intro c mem
    obtain ⟨d, known, rfl⟩ := List.mem_map.mp mem
    exact (digit_value (small d known)).2

theorem decimal_small (n : Nat) : ∀ d ∈ decimal n, d < 10 := by
  intro d mem
  unfold decimal at mem
  split at mem
  · simp only [List.mem_singleton] at mem
    omega
  · exact Nat.digits_lt_base (by decide) (List.mem_reverse.mp mem)

theorem natural_decimal (n : Nat) : natural (decimal n) = n := by
  unfold decimal
  split
  · rename_i zero
    rw [zero]
    rfl
  · conv_rhs => rw [← Nat.ofDigits_digits 10 n, Nat.ofDigits_eq_foldr]
    rw [natural, List.foldl_reverse]
    simp [Nat.add_comm]

theorem decimal_ne (n : Nat) : decimal n ≠ [] := by
  unfold decimal
  split
  · simp
  · rename_i some_
    rw [ne_eq, List.reverse_eq_nil_iff]
    exact Nat.digits_ne_nil_iff_ne_zero.mpr some_

theorem decimal_leading (n : Nat) (zero : (decimal n).head? = some 0) : (decimal n).length = 1 := by
  unfold decimal at zero ⊢
  split
  · rfl
  · rename_i some_
    rw [if_neg some_, List.head?_reverse] at zero
    have last := List.getLast_of_getLast?_eq_some zero
    exact absurd last (Nat.getLast_digit_ne_zero 10 some_)

theorem digits_span {ds : List Nat} (small : ∀ d ∈ ds, d < 10) {s : List UInt8}
    (stops : ∀ c, s.head? = some c → isDigit c = false) :
    (ds.map digit ++ s).takeWhile isDigit = ds.map digit ∧
      (ds.map digit ++ s).dropWhile isDigit = s := by
  have each := (digits_text small).2
  have none_ : s.takeWhile isDigit = [] ∧ s.dropWhile isDigit = s := by
    cases s with
    | nil => exact ⟨rfl, rfl⟩
    | cons c s => simp [stops c rfl]
  rw [List.takeWhile_append_of_pos each, List.dropWhile_append_of_pos each, none_.1, none_.2]
  exact ⟨List.append_nil _, rfl⟩

theorem exponentDigits_decimal (n : Nat) : exponentDigits ((decimal n).map digit) = some (n : Int) := by
  obtain ⟨value, each⟩ := digits_text (decimal_small n)
  have whole : (decimal n).map digit ≠ [] := by simpa using decimal_ne n
  rw [exponentDigits, if_pos ⟨whole, List.all_eq_true.mpr each⟩, value, natural_decimal]

theorem exponentPart_text (e : Option Int) : exponentPart (exponentText e) = some e := by
  cases e with
  | none => rfl
  | some e =>
    by_cases negative : e < 0
    · have value : -(e.natAbs : Int) = e := by omega
      have digits : exponentPart (exponentText (some e)) = some (some (-(e.natAbs : Int))) := by
        simp only [exponentText, if_pos negative, exponentPart, exponentDigits_decimal]
        rfl
      rw [digits, value]
    · have value : (e.natAbs : Int) = e := by omega
      have digits : exponentPart (exponentText (some e)) = some (some (e.natAbs : Int)) := by
        simp only [exponentText, if_neg negative, exponentPart, exponentDigits_decimal]
        rfl
      rw [digits, value]

theorem exponentText_head (e : Option Int) {c : UInt8} (head : (exponentText e).head? = some c) :
    c = 101 := by
  cases e with
  | none => simp [exponentText] at head
  | some e => simpa [exponentText, eq_comm] using head

theorem fractionPart_text {ds : List Nat} (small : ∀ d ∈ ds, d < 10) (e : Option Int) :
    fractionPart ((if ds = [] then [] else 46 :: ds.map digit) ++ exponentText e) =
      some (ds.map digit, exponentText e) := by
  by_cases none_ : ds = []
  · subst none_
    rw [if_pos rfl, List.nil_append, fractionPart.eq_def]
    split
    · rename_i w same
      have := exponentText_head e (c := 46) (by rw [same]; rfl)
      contradiction
    · rfl
  · obtain ⟨taken, left⟩ := digits_span small (s := exponentText e) fun c head => by
      rw [exponentText_head e head]
      decide
    have some_ : ds.map digit ≠ [] := by simpa using none_
    rw [if_neg none_, List.cons_append, fractionPart, taken, left, if_neg some_]

theorem unsigned_text {n : Numeral} (regular : n.Regular) :
    unsigned n.negative (n.whole.map digit ++
      ((if n.fraction = [] then [] else 46 :: n.fraction.map digit) ++ exponentText n.exponent)) =
        some n := by
  have wholes : ∀ d ∈ n.whole, d < 10 := fun d mem => regular.digits d (by simp [mem])
  have fractions : ∀ d ∈ n.fraction, d < 10 := fun d mem => regular.digits d (by simp [mem])
  have stops : ∀ c, ((if n.fraction = [] then [] else 46 :: n.fraction.map digit) ++
      exponentText n.exponent).head? = some c → isDigit c = false := by
    intro c head
    by_cases none_ : n.fraction = []
    · rw [if_pos none_, List.nil_append] at head
      rw [exponentText_head _ head]
      decide
    · rw [if_neg none_] at head
      cases head
      decide
  obtain ⟨taken, left⟩ := digits_span wholes stops
  have start : ¬ (n.whole.map digit = [] ∨
      ((n.whole.map digit).head? = some 48 ∧ 1 < (n.whole.map digit).length)) := by
    rintro (none_ | ⟨zero, long⟩)
    · exact regular.whole (by simpa using none_)
    · rw [List.head?_map] at zero
      obtain ⟨d, head, value⟩ := Option.map_eq_some_iff.mp zero
      have small := wholes d (List.mem_of_head? head)
      have same := (digit_value small).1
      rw [value] at same
      have zero : d = 0 := by
        have : (48 : UInt8).toNat = 48 := rfl
        omega
      rw [zero] at head
      have single := regular.leading head
      simp only [List.length_map] at long
      omega
  rw [unsigned]
  simp only [taken, left, if_neg start, fractionPart_text fractions, exponentPart_text,
    (digits_text wholes).1, (digits_text fractions).1, Option.bind_eq_bind, Option.bind_some]
  rfl

theorem numeral_text {n : Numeral} (regular : n.Regular) : numeral n.text = some n := by
  have read := unsigned_text regular
  unfold Numeral.text
  simp only [List.append_assoc]
  cases sign : n.negative with
  | true =>
    rw [sign] at read
    exact read
  | false =>
    rw [sign] at read
    obtain ⟨d, ds, whole⟩ := List.exists_cons_of_ne_nil regular.whole
    have small : d < 10 := regular.digits d (by simp [whole])
    have value := (digit_value small).1
    rw [numeral.eq_def]
    split
    · rename_i w same
      rw [whole] at same
      have head : digit d = 45 := by
        simp at same
        exact same.1
      rw [head] at value
      have : (45 : UInt8).toNat = 45 := rfl
      omega
    · exact read

namespace Numeral

theorem regular_ofInt (n : Int) : (ofInt n).Regular where
  digits := by simpa [ofInt] using decimal_small n.natAbs
  whole := decimal_ne n.natAbs
  leading := decimal_leading n.natAbs

theorem integer_ofInt (n : Int) : (ofInt n).integer = n := by
  by_cases negative : n < 0
  · simp only [integer, sign, ofInt, negative, decide_true, if_true, natural_decimal]
    omega
  · simp only [integer, sign, ofInt, negative, decide_false, Bool.false_eq_true, if_false,
      natural_decimal]
    omega

theorem value_ofInt (n : Int) : (ofInt n).value = n := by
  have plain : (ofInt n).Plain := ⟨rfl, rfl⟩
  rw [value_plain plain, integer_ofInt]

theorem text_bytes {n : Numeral} (regular : n.Regular) :
    ∀ c ∈ n.text, isDigit c = true ∨ c = 45 ∨ c = 46 ∨ c = 101 ∨ c = 43 := by
  have wholes := (digits_text fun d mem => regular.digits d (List.mem_append_left _ mem)).2
  have fractions := (digits_text fun d mem => regular.digits d (List.mem_append_right _ mem)).2
  intro c mem
  unfold text at mem
  rcases List.mem_append.mp mem with mem | mem
  · rcases List.mem_append.mp mem with mem | mem
    · rcases List.mem_append.mp mem with mem | mem
      · split at mem
        · exact Or.inr (Or.inl (List.mem_singleton.mp mem))
        · simp at mem
      · exact Or.inl (wholes c mem)
    · split at mem
      · simp at mem
      · rcases List.mem_cons.mp mem with rfl | mem
        · simp
        · exact Or.inl (fractions c mem)
  · cases e : n.exponent with
    | none => simp [e, exponentText] at mem
    | some k =>
      rw [e, exponentText] at mem
      rcases List.mem_cons.mp mem with rfl | mem
      · simp
      · rcases List.mem_cons.mp mem with rfl | mem
        · split <;> simp
        · exact Or.inl ((digits_text (decimal_small k.natAbs)).2 c mem)

theorem text_ne {n : Numeral} (regular : n.Regular) : n.text ≠ [] := by
  simp [text, regular.whole]

end Numeral

end Json
