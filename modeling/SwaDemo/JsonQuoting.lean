import SwaDemo.JsonStrings

/-!
How two encoders quote a string: `encoding/json` of Go, which also escapes what HTML and old
JavaScript could stumble over, and `JSON.stringify`.
-/
namespace Json

/-- `"0123456789abcdef"` -/
def hex (n : Nat) : UInt8 := UInt8.ofNat (if n < 10 then 48 + n else 87 + n)

/-- `\u00XX` -/
def escapedByte (c : UInt8) : List UInt8 := [92, 117, 48, 48, hex (c.toNat / 16), hex (c.toNat % 16)]

/-- The letter that stands for a character after a backslash, where both encoders use one. -/
def shortEscape (c : UInt8) : Option UInt8 :=
  if c = 34 ∨ c = 92 then some c
  else if c = 8 then some 98
  else if c = 12 then some 102
  else if c = 10 then some 110
  else if c = 13 then some 114
  else if c = 9 then some 116
  else none

/-- One ASCII character; `special` are further ones to be escaped. -/
def asciiLetter (special : List UInt8) (c : UInt8) : List UInt8 :=
  match shortEscape c with
  | some d => [92, d]
  | none => if c < 32 ∨ c ∈ special then escapedByte c else [c]

/-- `appendString` with `escapeHTML`; the first argument counts the bytes of a character that
    are still to come. -/
def goQuote : Nat → List UInt8 → List UInt8
  | _, [] => []
  | n + 1, c :: s => c :: goQuote n s
  | 0, 226 :: 128 :: 168 :: s => [92, 117, 50, 48, 50, 56] ++ goQuote 0 s
  | 0, 226 :: 128 :: 169 :: s => [92, 117, 50, 48, 50, 57] ++ goQuote 0 s
  | 0, c :: s =>
    match runeTail (c :: s) with
    | none => [92, 117, 102, 102, 102, 100] ++ goQuote 0 s
    | some 0 => asciiLetter [60, 62, 38] c ++ goQuote 0 s
    | some n => c :: goQuote n s

/-- `QuoteJSONString` on a string without halves of surrogate pairs. -/
def jsQuote (s : List UInt8) : List UInt8 := s.flatMap fun c => if c < 128 then asciiLetter [] c else [c]

theorem spelled_one {a b : List UInt8} (letter : Letter a b) : Spelled a b := by
  have single := Spelled.cons letter .nil
  rwa [List.append_nil, List.append_nil] at single

theorem hexValue_hex {n : Nat} (digit : n < 16) : hexValue (hex n) = some n := by
  have each : ∀ n < 16, hexValue (hex n) = some n := by decide
  exact each n digit

theorem letter_escaped {c : UInt8} (small : c < 128) : Letter (escapedByte c) [c] := by
  have size : c.toNat < 128 := UInt8.lt_iff_toNat_lt.mp small
  have value : 0 * 4096 + 0 * 256 + c.toNat / 16 * 16 + c.toNat % 16 = c.toNat := by omega
  have alone : ¬ Surrogate (0 * 4096 + 0 * 256 + c.toNat / 16 * 16 + c.toNat % 16) := by
    rw [value]
    exact fun high => by have := high.1; omega
  have form : utf8 (0 * 4096 + 0 * 256 + c.toNat / 16 * 16 + c.toNat % 16) = [c] := by
    rw [value, utf8, if_pos (by omega), UInt8.ofNat_toNat]
  rw [← form]
  exact .unit rfl rfl (hexValue_hex (by omega)) (hexValue_hex (by omega)) alone

theorem escape_shortEscape {c d : UInt8} (short : shortEscape c = some d) : escape d = some c := by
  unfold shortEscape at short
  split at short
  · rename_i same
    obtain rfl := Option.some.inj short
    rcases same with rfl | rfl <;> rfl
  · repeat' split at short
    all_goals first | contradiction | (obtain rfl := Option.some.inj short; subst_vars; rfl)

theorem letter_ascii (special : List UInt8) {c : UInt8} (small : c < 128) :
    Letter (asciiLetter special c) [c] := by
  unfold asciiLetter
  cases short : shortEscape c with
  | some d => exact .short (escape_shortEscape short)
  | none =>
    by_cases escaped : c < 32 ∨ c ∈ special
    · simp only [if_pos escaped]
      exact letter_escaped small
    · simp only [if_neg escaped]
      have other : c ≠ 34 ∧ c ≠ 92 := by
        constructor
        · rintro rfl
          contradiction
        · rintro rfl
          contradiction
      exact .plain (.ascii small) (UInt8.not_lt.mp fun low => escaped (Or.inl low)) other.1 other.2

theorem letter_form {a : UInt8} {w : List UInt8} (form : Form (a :: w)) (long : w ≠ []) :
    Letter (a :: w) (a :: w) := by
  have high := form_high form long a (by simp)
  exact .plain form (UInt8.le_trans (by decide) high) (by grind) (by grind)

theorem jsQuote_spelled {s : List UInt8} (valid : Utf8 s) : Spelled (jsQuote s) s := by
  induction valid with
  | nil => exact .nil
  | @cons a w s form rest ih =>
    have split : jsQuote (a :: w ++ s) = jsQuote (a :: w) ++ jsQuote s := List.flatMap_append
    rw [split]
    refine .cons ?_ ih
    by_cases long : w = []
    · subst long
      have small : a < 128 := by
        cases form with
        | ascii small => exact small
      have single : jsQuote [a] = asciiLetter [] a := by simp [jsQuote, small]
      rw [single]
      exact letter_ascii [] small
    · have same : jsQuote (a :: w) = a :: w := by
        have high := form_high form long
        have each : ∀ c ∈ a :: w, (if c < 128 then asciiLetter [] c else [c]) = [c] := by
          intro c mem
          exact if_neg (UInt8.not_lt.mpr (high c mem))
        rw [jsQuote, List.flatMap_def, List.map_congr_left each, ← List.flatMap_def,
          List.flatMap_singleton']
      rw [same]
      exact letter_form form long

theorem goQuote_within (w s : List UInt8) : goQuote w.length (w ++ s) = w ++ goQuote 0 s := by
  induction w with
  | nil => rfl
  | cons c w ih => rw [List.length_cons, List.cons_append, goQuote, ih, List.cons_append]

/-- Whatever the bytes are, what Go writes for them stands for them, those that are no UTF-8
    replaced. -/
theorem goQuote_spelled (s : List UInt8) : Spelled (goQuote 0 s) (repair 0 s) := by
  induction size : s.length using Nat.strong_induction_on generalizing s with
  | _ n ih =>
    subst size
    rw [goQuote.eq_def]
    split
    · exact .nil
    · contradiction
    · rename_i s _
      have form : Form [226, 128, 168] := .three (by decide) rfl rfl (by decide) (by decide)
      have same : repair 0 (226 :: 128 :: 168 :: s) = [226, 128, 168] ++ repair 0 s := repair_form form s
      rw [same]
      exact .cons (.unit (a := 2) (b := 0) (c := 2) (d := 8) rfl rfl rfl rfl (by unfold Surrogate; omega))
        (ih s.length (by simp only [List.length_cons]; omega) s rfl)
    · rename_i s _
      have form : Form [226, 128, 169] := .three (by decide) rfl rfl (by decide) (by decide)
      have same : repair 0 (226 :: 128 :: 169 :: s) = [226, 128, 169] ++ repair 0 s := repair_form form s
      rw [same]
      exact .cons (.unit (a := 2) (b := 0) (c := 2) (d := 9) rfl rfl rfl rfl (by unfold Surrogate; omega))
        (ih s.length (by simp only [List.length_cons]; omega) s rfl)
    · rename_i c s _ _ _
      cases found : runeTail (c :: s) with
      | none =>
        have step : repair 0 (c :: s) = replacement ++ repair 0 s := by rw [repair, found]
        rw [step]
        exact .cons (.unit (a := 15) (b := 15) (c := 15) (d := 13) rfl rfl rfl rfl
          (by unfold Surrogate; omega)) (ih s.length (by simp) s rfl)
      | some n =>
        obtain ⟨w, rest, rfl, rfl, form⟩ := runeTail_form found
        have step : repair 0 (c :: (w ++ rest)) = c :: w ++ repair 0 rest := repair_form form rest
        have later := ih rest.length (by simp only [List.length_append, List.length_cons]; omega) rest rfl
        rw [step]
        cases w with
        | nil =>
          have small : c < 128 := by
            cases form with
            | ascii small => exact small
          exact .cons (letter_ascii [60, 62, 38] small) later
        | cons d w =>
          have inside := goQuote_within (d :: w) rest
          have letter := letter_form form (by simp)
          simp only [List.length_cons] at inside ⊢
          rw [inside]
          exact .cons letter later

example : goQuote 0 [60, 34, 255, 226, 128, 168, 10] =
    [92, 117, 48, 48, 51, 99, 92, 34, 92, 117, 102, 102, 102, 100, 92, 117, 50, 48, 50, 56, 92, 110] := by
  decide

def goQuoting : Quoting := ⟨goQuote 0, repair 0, goQuote_spelled⟩

/-- A string of JavaScript is no arbitrary list of bytes, so there is nothing to repair in it. -/
def jsQuoting : Quoting :=
  ⟨fun s => jsQuote (repair 0 s), repair 0, fun s => jsQuote_spelled (utf8_repair s)⟩

end Json
