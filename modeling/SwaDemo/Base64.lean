import Mathlib.Data.List.Basic

/-!
Base64 with a choice of the last two letters and of padding, over bytes. The decoder
skips line breaks and takes four letters at a time; padding may stand only where the
text ends. What is encoded is read back by the same encoding, and a text with a byte
that an encoding does not know is refused by it.
-/
namespace Base64

def padChar : UInt8 := 61

/-- The letters of the first 62 digits: `A` to `Z`, `a` to `z` and `0` to `9`. -/
def alnumChar (n : Nat) : UInt8 :=
  UInt8.ofNat (if n < 26 then 65 + n else if n < 52 then 71 + n else n - 4)

def alnumValue (c : UInt8) : Option Nat :=
  if 65 ≤ c ∧ c ≤ 90 then some (c.toNat - 65)
  else if 97 ≤ c ∧ c ≤ 122 then some (c.toNat - 71)
  else if 48 ≤ c ∧ c ≤ 57 then some (c.toNat + 4)
  else none

/-- A byte that may stand for a digit beside the letters and figures. -/
def Spare (c : UInt8) : Prop := alnumValue c = none ∧ c ≠ padChar ∧ c ≠ 10 ∧ c ≠ 13

instance (c : UInt8) : Decidable (Spare c) := inferInstanceAs (Decidable (_ ∧ _))

structure Encoding where
  char62 : UInt8
  char63 : UInt8
  padding : Bool
  spare62 : Spare char62
  spare63 : Spare char63
  distinct : char62 ≠ char63

/-- `+` and `/`, with padding. -/
def std : Encoding := ⟨43, 47, true, by decide, by decide, by decide⟩

/-- `-` and `_`, with padding. -/
def url : Encoding := ⟨45, 95, true, by decide, by decide, by decide⟩

/-- `-` and `_`, without padding. -/
def rawURL : Encoding := ⟨45, 95, false, by decide, by decide, by decide⟩

/-- The digits of 6 bits; the last one is filled up with zeros. -/
def digits : List UInt8 → List Nat
  | [] => []
  | [a] => [a.toNat / 4, a.toNat % 4 * 16]
  | [a, b] => [a.toNat / 4, a.toNat % 4 * 16 + b.toNat / 16, b.toNat % 16 * 4]
  | a :: b :: c :: rest =>
    (a.toNat / 4) :: (a.toNat % 4 * 16 + b.toNat / 16) :: (b.toNat % 16 * 4 + c.toNat / 64) ::
      (c.toNat % 64) :: digits rest

/-- How many bytes are missing from the last group of three. -/
def gap (length : Nat) : Nat := (3 - length % 3) % 3

def bytes (w x y z : Nat) : List UInt8 :=
  let val := w * 262144 + x * 4096 + y * 64 + z
  [UInt8.ofNat (val / 65536), UInt8.ofNat (val / 256), UInt8.ofNat val]

namespace Encoding
variable (e : Encoding)

def char (n : Nat) : UInt8 :=
  if n < 62 then alnumChar n else if n = 62 then e.char62 else e.char63

def value (c : UInt8) : Option Nat :=
  match alnumValue c with
  | some n => some n
  | none => if c = e.char62 then some 62 else if c = e.char63 then some 63 else none

def encode (bs : List UInt8) : List UInt8 :=
  (digits bs).map e.char ++ if e.padding then List.replicate (gap bs.length) padChar else []

/-- Four letters at a time, as long as there are any. -/
def decodeQuanta : List UInt8 → Option (List UInt8)
  | [] => some []
  | [_] => none
  | [a, b] =>
    match e.padding, e.value a, e.value b with
    | false, some w, some x => some ((bytes w x 0 0).take 1)
    | _, _, _ => none
  | [a, b, c] =>
    match e.padding, e.value a, e.value b, e.value c with
    | false, some w, some x, some y => some ((bytes w x y 0).take 2)
    | _, _, _, _ => none
  | a :: b :: c :: d :: rest =>
    match e.value a, e.value b, e.value c, e.value d with
    | some w, some x, some y, some z => (decodeQuanta rest).map (bytes w x y z ++ ·)
    | some w, some x, some y, none =>
      if e.padding ∧ d = padChar ∧ rest = [] then some ((bytes w x y 0).take 2) else none
    | some w, some x, none, _ =>
      if e.padding ∧ c = padChar ∧ d = padChar ∧ rest = [] then some ((bytes w x 0 0).take 1)
      else none
    | _, _, _, _ => none

def decode (text : List UInt8) : Option (List UInt8) :=
  e.decodeQuanta (text.filter fun c => c ≠ 10 ∧ c ≠ 13)

end Encoding

theorem alnum_letter {n : Nat} (small : n < 62) :
    alnumValue (alnumChar n) = some n ∧ alnumChar n ≠ padChar ∧ alnumChar n ≠ 10 ∧
      alnumChar n ≠ 13 := by
  have each : ∀ n < 62, alnumValue (alnumChar n) = some n ∧ alnumChar n ≠ padChar ∧
      alnumChar n ≠ 10 ∧ alnumChar n ≠ 13 := by decide
  exact each n small

theorem digits_small (bs : List UInt8) : ∀ n ∈ digits bs, n < 64 := by
  have size (a : UInt8) := a.toNat_lt
  induction bs using digits.induct with
  | case1 => simp [digits]
  | case2 a =>
    have := size a
    simp only [digits, List.mem_cons, List.not_mem_nil, or_false]
    omega
  | case3 a b =>
    have := size a
    have := size b
    simp only [digits, List.mem_cons, List.not_mem_nil, or_false]
    omega
  | case4 a b c rest ih =>
    have := size a
    have := size b
    have := size c
    simp only [digits, List.mem_cons]
    rintro n (same | same | same | same | later)
    · omega
    · omega
    · omega
    · omega
    · exact ih n later

theorem bytes_digits (a b c : UInt8) :
    bytes (a.toNat / 4) (a.toNat % 4 * 16 + b.toNat / 16) (b.toNat % 16 * 4 + c.toNat / 64)
      (c.toNat % 64) = [a, b, c] := by
  have := a.toNat_lt
  have := b.toNat_lt
  have := c.toNat_lt
  have ofNat (n : Nat) (a : UInt8) (same : n % 256 = a.toNat) : UInt8.ofNat n = a := by
    rw [← UInt8.toNat_inj, UInt8.toNat_ofNat']
    exact same
  rw [bytes, ofNat _ a (by omega), ofNat _ b (by omega), ofNat _ c (by omega)]

theorem gap_three (n : Nat) : gap (n + 3) = gap n := by
  unfold gap
  omega

theorem gap_zero (n : Nat) : gap n = 0 ↔ n % 3 = 0 := by
  unfold gap
  omega

namespace Encoding
variable {e : Encoding}

theorem value_char {n : Nat} (digit : n < 64) : e.value (e.char n) = some n := by
  unfold value char
  by_cases small : n < 62
  · rw [if_pos small, (alnum_letter small).1]
  · rw [if_neg small]
    by_cases last : n = 62
    · rw [if_pos last, e.spare62.1]
      simp [last]
    · rw [if_neg last, e.spare63.1]
      have same : n = 63 := by omega
      simp [e.distinct.symm, same]

theorem char_plain (n : Nat) : e.char n ≠ padChar ∧ e.char n ≠ 10 ∧ e.char n ≠ 13 := by
  unfold char
  by_cases small : n < 62
  · rw [if_pos small]
    exact (alnum_letter small).2
  · rw [if_neg small]
    split
    · exact e.spare62.2
    · exact e.spare63.2

theorem value_padChar : e.value padChar = none := by
  have letter : alnumValue padChar = none := by decide
  rw [value, letter]
  simp [e.spare62.2.1.symm, e.spare63.2.1.symm]

theorem mem_encode {bs : List UInt8} {c : UInt8} :
    c ∈ e.encode bs ↔ (∃ n ∈ digits bs, e.char n = c) ∨
      e.padding = true ∧ bs.length % 3 ≠ 0 ∧ c = padChar := by
  unfold encode
  rw [List.mem_append, List.mem_map]
  cases e.padding with
  | true => simp [List.mem_replicate, gap_zero]
  | false => simp

theorem encode_unbroken (bs : List UInt8) :
    (e.encode bs).filter (fun c => c ≠ 10 ∧ c ≠ 13) = e.encode bs := by
  refine List.filter_eq_self.mpr fun c mem => ?_
  rcases mem_encode.mp mem with ⟨n, _, rfl⟩ | ⟨_, _, rfl⟩
  · simpa using (char_plain n).2
  · decide

theorem decodeQuanta_encode (bs : List UInt8) : e.decodeQuanta (e.encode bs) = some bs := by
  have size (a : UInt8) := a.toNat_lt
  have back {n : Nat} (digit : n < 64) : e.value (e.char n) = some n := value_char digit
  unfold encode
  induction bs using digits.induct with
  | case1 => cases e.padding <;> rfl
  | case2 a =>
    have := size a
    have first := back (n := a.toNat / 4) (by omega)
    have second := back (n := a.toNat % 4 * 16) (by omega)
    have whole := bytes_digits a 0 0
    have pads : gap 1 = 2 := rfl
    simp only [UInt8.toNat_zero, Nat.zero_div, Nat.add_zero, Nat.zero_mod, Nat.zero_mul] at whole
    cases pad : e.padding with
    | true =>
      simp [digits, pads, decodeQuanta, List.replicate, pad, value_padChar, first, second, whole]
    | false => simp [digits, decodeQuanta, pad, first, second, whole]
  | case3 a b =>
    have := size a
    have := size b
    have first := back (n := a.toNat / 4) (by omega)
    have second := back (n := a.toNat % 4 * 16 + b.toNat / 16) (by omega)
    have third := back (n := b.toNat % 16 * 4) (by omega)
    have whole := bytes_digits a b 0
    have pads : gap 2 = 1 := rfl
    simp only [UInt8.toNat_zero, Nat.zero_div, Nat.add_zero, Nat.zero_mod] at whole
    cases pad : e.padding with
    | true =>
      simp [digits, pads, decodeQuanta, pad, value_padChar, first, second, third, whole]
    | false => simp [digits, decodeQuanta, pad, first, second, third, whole]
  | case4 a b c rest ih =>
    have := size a
    have := size b
    have := size c
    have pads : gap (a :: b :: c :: rest).length = gap rest.length := gap_three rest.length
    rw [pads, digits]
    simp only [List.map_cons, List.cons_append, decodeQuanta]
    rw [back (by omega), back (by omega), back (by omega), back (by omega)]
    simp [ih, bytes_digits]

theorem decode_encode (bs : List UInt8) : e.decode (e.encode bs) = some bs := by
  rw [decode, encode_unbroken, decodeQuanta_encode]

theorem decodeQuanta_letters {text bs : List UInt8} (read : e.decodeQuanta text = some bs) :
    ∀ c ∈ text, e.value c ≠ none ∨ e.padding = true ∧ c = padChar := by
  fun_induction decodeQuanta e text generalizing bs with
  | case1 => simp
  | case2 => cases read
  | case3 a b w x second first no_padding => simp [first, second]
  | case4 => cases read
  | case5 a b c w x y third second first no_padding => simp [first, second, third]
  | case6 => cases read
  | case7 a b c d rest w x y z fourth third second first ih =>
    obtain ⟨tail, later, rfl⟩ := Option.map_eq_some_iff.mp read
    simp only [List.mem_cons]
    rintro l (rfl | rfl | rfl | rfl | mem)
    · simp [first]
    · simp [second]
    · simp [third]
    · simp [fourth]
    · exact ih later l mem
  | case8 a b c d rest w x y fourth third second first pad =>
    obtain ⟨padded, rfl, rfl⟩ := pad
    simp [first, second, third, padded]
  | case9 => cases read
  | case10 a b c d rest w x third second first pad =>
    obtain ⟨padded, rfl, rfl, rfl⟩ := pad
    simp [first, second, padded]
  | case11 => cases read
  | case12 => cases read

theorem decode_foreign {text : List UInt8} {c : UInt8} (mem : c ∈ text)
    (unbroken : c ≠ 10 ∧ c ≠ 13) (letter : e.value c = none) (pad : e.padding = true → c ≠ padChar) :
    e.decode text = none := by
  cases read : e.decode text with
  | none => rfl
  | some bs =>
    have kept : c ∈ text.filter fun c => c ≠ 10 ∧ c ≠ 13 :=
      List.mem_filter.mpr ⟨mem, by simpa using unbroken⟩
    rcases decodeQuanta_letters read c kept with known | ⟨padded, same⟩
    · exact absurd letter known
    · exact absurd same (pad padded)

theorem digit_foreign {e' : Encoding} {bs : List UInt8} (special : ∃ n ∈ digits bs, 62 ≤ n)
    (foreign62 : e'.value e.char62 = none) (foreign63 : e'.value e.char63 = none) :
    e'.decode (e.encode bs) = none := by
  obtain ⟨n, digit, high⟩ := special
  have small := digits_small bs n digit
  have mem : e.char n ∈ e.encode bs := mem_encode.mpr (Or.inl ⟨n, digit, rfl⟩)
  have foreign : e'.value (e.char n) = none := by
    have known : n = 62 ∨ n = 63 := by omega
    rcases known with rfl | rfl
    · exact foreign62
    · exact foreign63
  obtain ⟨pad, unbroken⟩ := e.char_plain n
  exact decode_foreign mem unbroken foreign fun _ => pad

theorem padding_foreign (e : Encoding) {e' : Encoding} {bs : List UInt8} (padding : e.padding = true)
    (raw : e'.padding = false) (ragged : bs.length % 3 ≠ 0) : e'.decode (e.encode bs) = none := by
  have mem : padChar ∈ e.encode bs := mem_encode.mpr (Or.inr ⟨padding, ragged, rfl⟩)
  refine decode_foreign mem (by decide) value_padChar fun padded => ?_
  rw [raw] at padded
  cases padded

theorem encode_ne_nil {bs : List UInt8} (nonempty : bs ≠ []) : e.encode bs ≠ [] := by
  intro empty
  have back := e.decode_encode bs
  rw [empty] at back
  exact nonempty (Option.some.inj back).symm

/-- Two encodings agree on what needs no padding, or pads the same way, and has no digit
    on which their letters differ. -/
theorem encode_congr {e' : Encoding} {bs : List UInt8}
    (pads : e.padding = e'.padding ∨ bs.length % 3 = 0)
    (letters : (∀ n ∈ digits bs, n < 62) ∨ e.char62 = e'.char62 ∧ e.char63 = e'.char63) :
    e.encode bs = e'.encode bs := by
  have chars : (digits bs).map e.char = (digits bs).map e'.char := by
    refine List.map_congr_left fun n mem => ?_
    unfold char
    rcases letters with small | ⟨same62, same63⟩
    · rw [if_pos (small n mem), if_pos (small n mem)]
    · rw [same62, same63]
  unfold encode
  rw [chars]
  rcases pads with same | whole
  · rw [same]
  · rw [(gap_zero _).mpr whole]
    simp

end Encoding
end Base64
