import SwaDemo.JsonText

/-!
The strings of a JSON text. An encoder is free in how it spells a string: every character as
it is, or an escape of one kind or another. Whatever it chooses is read back as the string
that it means.
-/
namespace Json

/-- The UTF-8 form of one character. -/
inductive Form : List UInt8 → Prop
  | ascii {a : UInt8} (small : a < 128) : Form [a]
  | two {a b : UInt8} (lead : 194 ≤ a ∧ a ≤ 223) (second : tail b = true) : Form [a, b]
  | three {a b c : UInt8} (lead : 224 ≤ a ∧ a ≤ 239) (second : tail b = true) (third : tail c = true)
      (long : a = 224 → 160 ≤ b) (surrogate : a = 237 → b ≤ 159) : Form [a, b, c]
  | four {a b c d : UInt8} (lead : 240 ≤ a ∧ a ≤ 244) (second : tail b = true)
      (third : tail c = true) (fourth : tail d = true) (long : a = 240 → 144 ≤ b)
      (last : a = 244 → b ≤ 143) : Form [a, b, c, d]

theorem form_runeTail {a : UInt8} {w : List UInt8} (form : Form (a :: w)) (s : List UInt8) :
    runeTail (a :: (w ++ s)) = some w.length := by
  cases form with
  | ascii small => simp [runeTail, small]
  | two lead second =>
    have high : ¬ a < 128 := by grind
    simp [runeTail, high, lead, second]
  | three lead second third long surrogate =>
    have high : ¬ a < 128 := by grind
    have other : ¬ (194 ≤ a ∧ a ≤ 223) := by grind
    simp only [List.cons_append, List.nil_append, runeTail, if_neg high, if_neg other, if_pos lead]
    exact if_pos ⟨second, third, long, surrogate⟩
  | four lead second third fourth long last =>
    have high : ¬ a < 128 := by grind
    have other : ¬ (194 ≤ a ∧ a ≤ 223) := by grind
    have other' : ¬ (224 ≤ a ∧ a ≤ 239) := by grind
    simp only [List.cons_append, List.nil_append, runeTail, if_neg high, if_neg other, if_neg other',
      if_pos lead]
    exact if_pos ⟨second, third, fourth, long, last⟩

theorem runeTail_form {a : UInt8} {s : List UInt8} {n : Nat} (found : runeTail (a :: s) = some n) :
    ∃ w rest, s = w ++ rest ∧ w.length = n ∧ Form (a :: w) := by
  rw [runeTail.eq_def] at found
  simp only at found
  split at found
  · rename_i small
    exact ⟨[], s, rfl, by simpa using found, .ascii small⟩
  · split at found
    · rename_i lead
      split at found
      · rename_i tails
        obtain ⟨b, rest, rfl⟩ : ∃ b rest, s = b :: rest := by
          cases s with
          | nil => simp at tails
          | cons b rest => exact ⟨b, rest, rfl⟩
        exact ⟨[b], rest, rfl, by simpa using found, .two lead (by simpa using tails.2)⟩
      · contradiction
    · split at found
      · rename_i lead
        split at found
        · rename_i b c rest
          split at found
          · rename_i tails
            exact ⟨[b, c], rest, rfl, by simpa using found,
              .three lead tails.1 tails.2.1 tails.2.2.1 tails.2.2.2⟩
          · contradiction
        · contradiction
      · split at found
        · rename_i lead
          split at found
          · rename_i b c d rest
            split at found
            · rename_i tails
              exact ⟨[b, c, d], rest, rfl, by simpa using found,
                .four lead tails.1 tails.2.1 tails.2.2.1 tails.2.2.2.1 tails.2.2.2.2⟩
            · contradiction
          · contradiction
        · contradiction

theorem form_high {a : UInt8} {w : List UInt8} (form : Form (a :: w)) (long : w ≠ []) :
    ∀ b ∈ a :: w, 128 ≤ b := by
  have high {b : UInt8} (tails : tail b = true) : 128 ≤ b := by
    rw [tail, Bool.and_eq_true, decide_eq_true_eq] at tails
    exact tails.1
  cases form with
  | ascii => exact absurd rfl long
  | two lead second => grind
  | three lead second third => grind
  | four lead second third fourth => grind

theorem repair_within (w s : List UInt8) : repair w.length (w ++ s) = w ++ repair 0 s := by
  induction w with
  | nil => rfl
  | cons c w ih => rw [List.length_cons, List.cons_append, repair, ih, List.cons_append]

theorem repair_form {a : UInt8} {w : List UInt8} (form : Form (a :: w)) (s : List UInt8) :
    repair 0 (a :: w ++ s) = a :: w ++ repair 0 s := by
  rw [List.cons_append, repair, form_runeTail form s]
  simp only [repair_within, List.cons_append]

/-- Every byte belongs to the form of a character. -/
inductive Utf8 : List UInt8 → Prop
  | nil : Utf8 []
  | cons {a : UInt8} {w s : List UInt8} (form : Form (a :: w)) (rest : Utf8 s) : Utf8 (a :: w ++ s)

theorem repair_utf8 {s : List UInt8} (valid : Utf8 s) : repair 0 s = s := by
  induction valid with
  | nil => rfl
  | cons form rest ih => rw [repair_form form, ih]

theorem utf8_repair (s : List UInt8) : Utf8 (repair 0 s) := by
  induction size : s.length using Nat.strong_induction_on generalizing s with
  | _ n ih =>
    cases s with
    | nil => exact .nil
    | cons a s =>
      subst size
      cases found : runeTail (a :: s) with
      | none =>
        have form : Form [239, 191, 189] := .three (by decide) rfl rfl (by decide) (by decide)
        have step : repair 0 (a :: s) = replacement ++ repair 0 s := by rw [repair, found]
        rw [step]
        exact .cons form (ih s.length (by simp) s rfl)
      | some n =>
        obtain ⟨w, rest, rfl, rfl, form⟩ := runeTail_form found
        rw [← List.cons_append, repair_form form]
        exact .cons form (ih rest.length (by simp only [List.length_append, List.length_cons]; omega) rest rfl)

theorem utf8_append {s t : List UInt8} (first : Utf8 s) (second : Utf8 t) : Utf8 (s ++ t) := by
  induction first with
  | nil => exact second
  | cons form rest ih =>
    rw [List.append_assoc]
    exact .cons form ih

def Surrogate (u : Nat) : Prop := 0xD800 ≤ u ∧ u < 0xE000

/-- One character between two quotes, and the bytes that it stands for. -/
inductive Letter : List UInt8 → List UInt8 → Prop
  | plain {a : UInt8} {w : List UInt8} (form : Form (a :: w)) (printable : 32 ≤ a) (quote : a ≠ 34)
      (backslash : a ≠ 92) : Letter (a :: w) (a :: w)
  | short {c d : UInt8} (stands : escape c = some d) : Letter [92, c] [d]
  | unit {w x y z : UInt8} {a b c d : Nat} (first : hexValue w = some a)
      (second : hexValue x = some b) (third : hexValue y = some c) (fourth : hexValue z = some d)
      (alone : ¬ Surrogate (a * 4096 + b * 256 + c * 16 + d)) :
      Letter [92, 117, w, x, y, z] (utf8 (a * 4096 + b * 256 + c * 16 + d))

/-- A text between two quotes, and the string that it stands for. -/
inductive Spelled : List UInt8 → List UInt8 → Prop
  | nil : Spelled [] []
  | cons {a b s t : List UInt8} (letter : Letter a b) (rest : Spelled s t) : Spelled (a ++ s) (b ++ t)

theorem hexValue_digit {c : UInt8} {n : Nat} (digit : hexValue c = some n) :
    48 ≤ c ∧ c < 128 ∧ c ≠ 92 := by
  unfold hexValue at digit
  grind

theorem escape_letter {c d : UInt8} (stands : escape c = some d) : 34 ≤ c ∧ c < 128 ∧ c ≠ 117 := by
  unfold escape at stands
  grind

theorem utf8_ascii {s : List UInt8} (small : ∀ b ∈ s, b < 128) : Utf8 s := by
  induction s with
  | nil => exact .nil
  | cons a s ih => exact .cons (.ascii (small a (by simp))) (ih fun b mem => small b (by simp [mem]))

theorem letter_utf8 {a b : List UInt8} (letter : Letter a b) : Utf8 a := by
  cases letter with
  | @plain c w form =>
    rw [← List.append_nil (c :: w)]
    exact .cons form .nil
  | short stands =>
    have small := (escape_letter stands).2.1
    exact utf8_ascii (by grind)
  | unit first second third fourth =>
    have := hexValue_digit first
    have := hexValue_digit second
    have := hexValue_digit third
    have := hexValue_digit fourth
    exact utf8_ascii (by grind)

theorem letter_printable {a b : List UInt8} (letter : Letter a b) : ∀ c ∈ a, 32 ≤ c := by
  cases letter with
  | @plain a w form printable =>
    by_cases long : w = []
    · simpa [long] using printable
    · intro c mem
      exact UInt8.le_trans (by decide) (form_high form long c mem)
  | short stands =>
    have := escape_letter stands
    grind
  | unit first second third fourth =>
    have := hexValue_digit first
    have := hexValue_digit second
    have := hexValue_digit third
    have := hexValue_digit fourth
    grind

theorem pieces_byte {c : UInt8} (plain : c ≠ 92) (s : List UInt8) :
    pieces (c :: s) = (pieces s).map (.byte c :: ·) := by
  rw [pieces.eq_def]
  cases read : pieces s <;> grind

theorem pieces_bytes {w : List UInt8} (plain : ∀ c ∈ w, c ≠ 92) (s : List UInt8) :
    pieces (w ++ s) = (pieces s).map (w.map .byte ++ ·) := by
  induction w with
  | nil => simp
  | cons c w ih =>
    rw [List.cons_append, pieces_byte (plain c (by simp)), ih fun b mem => plain b (by simp [mem]),
      Option.map_map]
    rfl

theorem join_bytes (w : List UInt8) (ps : List Piece) : join (w.map .byte ++ ps) = w ++ join ps := by
  induction w with
  | nil => rfl
  | cons c w ih => rw [List.map_cons, List.cons_append, join, ih, List.cons_append]

theorem join_unit {u : Nat} (alone : ¬ Surrogate u) (ps : List Piece) :
    join (.unit u :: ps) = utf8 u ++ join ps := by
  cases ps with
  | nil => rfl
  | cons p ps =>
    cases p with
    | byte c => rfl
    | unit v =>
      have single : ¬ (0xD800 ≤ u ∧ u < 0xDC00 ∧ 0xDC00 ≤ v ∧ v < 0xE000) := by
        rintro ⟨low, high, _⟩
        exact alone ⟨low, by omega⟩
      rw [join, if_neg single]

/-- What a letter is read as: the pieces of its text, and what they join to. -/
theorem letter_read {a b : List UInt8} (letter : Letter a b) :
    ∃ ps, (∀ s, pieces (a ++ s) = (pieces s).map (ps ++ ·)) ∧ ∀ qs, join (ps ++ qs) = b ++ join qs := by
  cases letter with
  | @plain c w form printable quote backslash =>
    have plain : ∀ d ∈ c :: w, d ≠ 92 := by
      by_cases long : w = []
      · simpa [long] using backslash
      · intro d mem
        have := form_high form long d mem
        grind
    exact ⟨(c :: w).map .byte, pieces_bytes plain, join_bytes (c :: w)⟩
  | @short c d stands =>
    have other := (escape_letter stands).2.2
    refine ⟨[.byte d], fun s => ?_, fun qs => rfl⟩
    have step : pieces (92 :: c :: s) = (pieces s).map (.byte d :: ·) := by
      rw [pieces.eq_def]
      cases read : pieces s <;> grind
    exact step
  | @unit w x y z a b c d first second third fourth alone =>
    refine ⟨[.unit (a * 4096 + b * 256 + c * 16 + d)], fun s => ?_, join_unit alone⟩
    have step : pieces (92 :: 117 :: w :: x :: y :: z :: s) =
        (pieces s).map (.unit (a * 4096 + b * 256 + c * 16 + d) :: ·) := by
      rw [pieces, first, second, third, fourth]
      cases read : pieces s <;> rfl
    exact step

theorem spelled_utf8 {w s : List UInt8} (spelled : Spelled w s) : Utf8 w := by
  induction spelled with
  | nil => exact .nil
  | cons letter rest ih => exact utf8_append (letter_utf8 letter) ih

theorem spelled_printable {w s : List UInt8} (spelled : Spelled w s) : ∀ c ∈ w, 32 ≤ c := by
  induction spelled with
  | nil => simp
  | cons letter rest ih =>
    intro c mem
    rcases List.mem_append.mp mem with first | later
    · exact letter_printable letter c first
    · exact ih c later

theorem spelled_read {w s : List UInt8} (spelled : Spelled w s) :
    ∃ ps, pieces w = some ps ∧ join ps = s := by
  induction spelled with
  | nil => exact ⟨[], rfl, rfl⟩
  | cons letter rest ih =>
    obtain ⟨ps, reads, joins⟩ := letter_read letter
    obtain ⟨qs, read, joined⟩ := ih
    exact ⟨ps ++ qs, by rw [reads, read]; rfl, by rw [joins, joined]⟩

theorem unquote_spelled {w s : List UInt8} (spelled : Spelled w s) : unquote w = some s := by
  obtain ⟨ps, read, joined⟩ := spelled_read spelled
  rw [unquote, repair_utf8 (spelled_utf8 spelled), read, Option.map_some, joined]

theorem lex_step {c : UInt8} {l next : Lexer} {ts : List Token} (step : lexByte c l = some (ts, next))
    (s : List UInt8) : lex l (c :: s) = (lex next s).map (ts ++ ·) := by
  rw [lex.eq_def]
  simp only [step]
  cases later : lex next s <;> simp [later]

theorem lex_quiet {c : UInt8} {l next : Lexer} (step : lexByte c l = some ([], next))
    (s : List UInt8) : lex l (c :: s) = lex next s := by
  rw [lex_step step]
  simp

theorem lex_plain {w : List UInt8} (plain : ∀ c ∈ w, 32 ≤ c ∧ c ≠ 34 ∧ c ≠ 92)
    (raw s : List UInt8) : lex (.str raw) (w ++ s) = lex (.str (w.reverse ++ raw)) s := by
  induction w generalizing raw with
  | nil => rfl
  | cons c w ih =>
    obtain ⟨printable, quote, backslash⟩ := plain c (by simp)
    have low : ¬ c < 32 := UInt8.not_lt.mpr printable
    have step : lexByte c (.str raw) = some ([], .str (c :: raw)) := by
      rw [lexByte, if_neg low, if_neg quote, if_neg backslash]
    rw [List.cons_append, lex_quiet step, ih fun b mem => plain b (by simp [mem])]
    simp

theorem lex_escaped {c : UInt8} (printable : 32 ≤ c) (raw s : List UInt8) :
    lex (.str raw) (92 :: c :: s) = lex (.str (c :: 92 :: raw)) s := by
  have low : ¬ c < 32 := UInt8.not_lt.mpr printable
  have first : lexByte 92 (.str raw) = some ([], .escaped (92 :: raw)) := rfl
  have second : lexByte c (.escaped (92 :: raw)) = some ([], .str (c :: 92 :: raw)) := by
    rw [lexByte, if_neg low]
  rw [lex_quiet first, lex_quiet second]

theorem lex_letter {a b : List UInt8} (letter : Letter a b) (raw s : List UInt8) :
    lex (.str raw) (a ++ s) = lex (.str (a.reverse ++ raw)) s := by
  cases letter with
  | @plain c w form printable quote backslash =>
    refine lex_plain ?_ raw s
    by_cases long : w = []
    · simpa [long] using ⟨printable, quote, backslash⟩
    · intro d mem
      have := form_high form long d mem
      grind
  | short stands =>
    have small := (escape_letter stands).1
    exact lex_escaped (by grind) raw s
  | @unit w x y z a b c d first second third fourth =>
    have := hexValue_digit first
    have := hexValue_digit second
    have := hexValue_digit third
    have := hexValue_digit fourth
    have digits := @lex_plain [w, x, y, z] (by grind) (117 :: 92 :: raw) s
    have start := lex_escaped (c := 117) (by decide) raw (w :: x :: y :: z :: s)
    exact start.trans digits

theorem lex_spelled {w t : List UInt8} (spelled : Spelled w t) (raw s : List UInt8) :
    lex (.str raw) (w ++ s) = lex (.str (w.reverse ++ raw)) s := by
  induction spelled generalizing raw with
  | nil => rfl
  | cons letter rest ih =>
    rw [List.append_assoc, lex_letter letter, ih, List.reverse_append, List.append_assoc]

theorem lex_quoted {w t : List UInt8} (spelled : Spelled w t) (s : List UInt8) :
    lex (.word []) (34 :: (w ++ 34 :: s)) = (lex (.word []) s).map (.str t :: ·) := by
  have opens : lexByte 34 (.word []) = some ([], .str []) := rfl
  have closes : lexByte 34 (.str (w.reverse ++ [])) = some ([.str t], .word []) := by
    have low : ¬ (34 : UInt8) < 32 := by decide
    rw [lexByte, if_neg low, if_pos rfl, List.append_nil, List.reverse_reverse,
      unquote_spelled spelled]
    rfl
  rw [lex_quiet opens, lex_spelled spelled, lex_step closes]
  rfl

/-- What an encoder puts between the quotes of a string, and what that stands for. -/
structure Quoting where
  quote : List UInt8 → List UInt8
  meaning : List UInt8 → List UInt8
  spelled : ∀ s, Spelled (quote s) (meaning s)

end Json
