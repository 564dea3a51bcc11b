import SwaDemo.JsonStrings

/-!
UTF-8 and the strings of Lean: a list of bytes is in UTF-8 exactly if it is the bytes of a
string, and the string is found again from them.
-/
namespace Json

theorem tail_ofNat {n : Nat} (small : n < 64) : tail (UInt8.ofNat (n + 128)) = true := by
  have each : ∀ n < 64, tail (UInt8.ofNat (n + 128)) = true := by decide
  exact each n small

theorem byte_bounds {n : Nat} (low high : Nat) (above : low ≤ n) (below : n ≤ high)
    (byte : high < 256) : UInt8.ofNat low ≤ UInt8.ofNat n ∧ UInt8.ofNat n ≤ UInt8.ofNat high := by
  simp only [UInt8.le_iff_toNat_le, UInt8.toNat_ofNat']
  omega

theorem byte_eq {n m : Nat} (small : n < 256) (small' : m < 256) (same : UInt8.ofNat n = UInt8.ofNat m) :
    n = m := by
  have value := congrArg UInt8.toNat same
  simp only [UInt8.toNat_ofNat'] at value
  omega

theorem form_utf8EncodeChar (c : Char) : ∃ a w, String.utf8EncodeChar c = a :: w ∧ Form (a :: w) := by
  have valid : c.val.toNat < 0xD800 ∨ 0xDFFF < c.val.toNat ∧ c.val.toNat < 0x110000 := c.valid
  unfold String.utf8EncodeChar
  simp only
  generalize c.val.toNat = v at valid ⊢
  split
  · have small := (byte_bounds 0 127 (Nat.zero_le v) (by omega) (by decide)).2
    exact ⟨_, _, rfl, .ascii (by grind)⟩
  · split
    · exact ⟨_, _, rfl, .two (byte_bounds 194 223 (by omega) (by omega) (by decide))
        (tail_ofNat (by omega))⟩
    · split
      · refine ⟨_, _, rfl, .three (byte_bounds 224 239 (by omega) (by omega) (by decide))
          (tail_ofNat (by omega)) (tail_ofNat (by omega)) ?_ ?_⟩
        · intro first
          have lead := @byte_eq _ 224 (by omega) (by decide) first
          exact (byte_bounds 160 191 (by omega) (by omega) (by decide)).1
        · intro first
          have lead := @byte_eq _ 237 (by omega) (by decide) first
          exact (byte_bounds 128 159 (by omega) (by omega) (by decide)).2
      · refine ⟨_, _, rfl, .four (byte_bounds 240 244 (by omega) (by omega) (by decide))
          (tail_ofNat (by omega)) (tail_ofNat (by omega)) (tail_ofNat (by omega)) ?_ ?_⟩
        · intro first
          have lead := @byte_eq _ 240 (by omega) (by decide) first
          exact (byte_bounds 144 191 (by omega) (by omega) (by decide)).1
        · intro first
          have lead := @byte_eq _ 244 (by omega) (by decide) first
          exact (byte_bounds 128 143 (by omega) (by omega) (by decide)).2

theorem utf8_chars (cs : List Char) : Utf8 (cs.flatMap String.utf8EncodeChar) := by
  induction cs with
  | nil => exact .nil
  | cons c cs ih =>
    obtain ⟨a, w, spelled, form⟩ := form_utf8EncodeChar c
    rw [List.flatMap_cons, spelled]
    exact .cons form ih

/-- The strings of Lean are in UTF-8. -/
theorem utf8_string (s : String) : Utf8 s.toUTF8.data.toList := by
  have chars := utf8_chars s.toList
  have same : s.toUTF8.data.toList = s.toList.flatMap String.utf8EncodeChar := by
    rw [String.toUTF8_eq_toByteArray, ← s.utf8Encode_toList]
    simp [List.utf8Encode]
  rwa [same]

theorem char_of {v : Nat} (valid : v < 0xD800 ∨ 0xDFFF < v ∧ v < 0x110000) :
    ∃ c : Char, c.val.toNat = v := by
  exact ⟨Char.ofNatAux v valid, rfl⟩

theorem tail_toNat {b : UInt8} (tails : tail b = true) : 128 ≤ b.toNat ∧ b.toNat ≤ 191 := by
  rw [tail, Bool.and_eq_true, decide_eq_true_eq, decide_eq_true_eq] at tails
  simpa [UInt8.le_iff_toNat_le] using tails

theorem lead_toNat {a : UInt8} {low high : Nat} (byte : high < 256)
    (lead : UInt8.ofNat low ≤ a ∧ a ≤ UInt8.ofNat high) : low % 256 ≤ a.toNat ∧ a.toNat ≤ high := by
  simp only [UInt8.le_iff_toNat_le, UInt8.toNat_ofNat'] at lead
  omega

theorem ofNat_eq {b : UInt8} {n : Nat} (same : n = b.toNat) : UInt8.ofNat n = b := by
  rw [same, UInt8.ofNat_toNat]

/-- Every form is the form of a character. -/
theorem form_char {a : UInt8} {w : List UInt8} (form : Form (a :: w)) :
    ∃ c, String.utf8EncodeChar c = a :: w := by
  have encode {v : Nat} (valid : v < 0xD800 ∨ 0xDFFF < v ∧ v < 0x110000)
      (is : ∀ c : Char, c.val.toNat = v → String.utf8EncodeChar c = a :: w) :
      ∃ c, String.utf8EncodeChar c = a :: w := by
    obtain ⟨c, value⟩ := char_of valid
    exact ⟨c, is c value⟩
  cases form with
  | ascii small =>
    have size : a.toNat < 128 := UInt8.lt_iff_toNat_lt.mp small
    refine @encode a.toNat (by omega) fun c value => ?_
    rw [String.utf8EncodeChar, value, if_pos (show a.toNat ≤ 127 by omega), UInt8.ofNat_toNat]
  | @two _ b lead second =>
    have first := @lead_toNat a 194 223 (by decide) lead
    have second := tail_toNat second
    refine @encode ((a.toNat - 192) * 64 + (b.toNat - 128)) (by omega) fun c value => ?_
    rw [String.utf8EncodeChar, value, if_neg (by omega), if_pos (by omega),
      ofNat_eq (b := a) (by omega), ofNat_eq (b := b) (by omega)]
  | @three _ b d lead second third long surrogate =>
    have first := @lead_toNat a 224 239 (by decide) lead
    have second := tail_toNat second
    have third := tail_toNat third
    have low : a.toNat = 224 → 160 ≤ b.toNat := by
      intro same
      exact UInt8.le_iff_toNat_le.mp (long (UInt8.toNat_inj.mp same))
    have high : a.toNat = 237 → b.toNat ≤ 159 := by
      intro same
      exact UInt8.le_iff_toNat_le.mp (surrogate (UInt8.toNat_inj.mp same))
    refine @encode ((a.toNat - 224) * 4096 + (b.toNat - 128) * 64 + (d.toNat - 128)) (by omega)
      fun c value => ?_
    rw [String.utf8EncodeChar, value, if_neg (by omega), if_neg (by omega), if_pos (by omega),
      ofNat_eq (b := a) (by omega), ofNat_eq (b := b) (by omega), ofNat_eq (b := d) (by omega)]
  | @four _ b d e lead second third fourth long last =>
    have first := @lead_toNat a 240 244 (by decide) lead
    have second := tail_toNat second
    have third := tail_toNat third
    have fourth := tail_toNat fourth
    have low : a.toNat = 240 → 144 ≤ b.toNat := by
      intro same
      exact UInt8.le_iff_toNat_le.mp (long (UInt8.toNat_inj.mp same))
    have high : a.toNat = 244 → b.toNat ≤ 143 := by
      intro same
      exact UInt8.le_iff_toNat_le.mp (last (UInt8.toNat_inj.mp same))
    refine @encode ((a.toNat - 240) * 262144 + (b.toNat - 128) * 4096 + (d.toNat - 128) * 64 +
      (e.toNat - 128)) (by omega) fun c value => ?_
    rw [String.utf8EncodeChar, value, if_neg (by omega), if_neg (by omega), if_neg (by omega),
      ofNat_eq (b := a) (by omega), ofNat_eq (b := b) (by omega), ofNat_eq (b := d) (by omega),
      ofNat_eq (b := e) (by omega)]

/-- The bytes of a string, and the string of some bytes; it is empty where they are no UTF-8. -/
def bytesOf (s : String) : List UInt8 := s.toUTF8.data.toList

def readString (s : List UInt8) : String := (String.fromUTF8? ⟨s.toArray⟩).getD ""

theorem readString_bytesOf (s : String) : readString (bytesOf s) = s := by
  have same : (⟨(bytesOf s).toArray⟩ : ByteArray) = s.toByteArray := by
    simp [bytesOf]
  rw [readString, same, String.fromUTF8?, dif_pos s.isValidUTF8]
  rfl

theorem bytesOf_injective {s t : String} (same : bytesOf s = bytesOf t) : s = t := by
  rw [← readString_bytesOf s, same, readString_bytesOf]

theorem utf8_iff (s : List UInt8) : Utf8 s ↔ ∃ t, s = bytesOf t := by
  constructor
  · intro valid
    have chars : ∃ cs : List Char, s = cs.flatMap String.utf8EncodeChar := by
      induction valid with
      | nil => exact ⟨[], rfl⟩
      | cons form rest ih =>
        obtain ⟨c, encoded⟩ := form_char form
        obtain ⟨cs, rfl⟩ := ih
        exact ⟨c :: cs, by rw [List.flatMap_cons, encoded]⟩
    obtain ⟨cs, rfl⟩ := chars
    refine ⟨String.ofList cs, ?_⟩
    rw [bytesOf, String.toUTF8_eq_toByteArray, ← String.utf8Encode_toList]
    simp [List.utf8Encode]
  · rintro ⟨t, rfl⟩
    exact utf8_string t

theorem bytesOf_readString {s : List UInt8} (valid : Utf8 s) : bytesOf (readString s) = s := by
  obtain ⟨t, rfl⟩ := (utf8_iff s).mp valid
  rw [readString_bytesOf]

end Json
