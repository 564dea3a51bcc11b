import Mathlib.Algebra.Order.Field.Basic
import Mathlib.Algebra.Order.Field.Rat

/-!
JSON texts over bytes: the tokens of a text, a push-down machine over the tokens, and the
value that they spell. Members are kept in the order of the text, also where a name is
repeated. Bytes of a string that are no UTF-8 and halves of surrogate pairs are replaced
by U+FFFD.
-/
namespace Json

/-- The text of a number: its sign, its digits before and after the point, and its
    exponent. -/
structure Numeral where
  negative : Bool
  whole : List Nat
  fraction : List Nat
  exponent : Option Int
  deriving DecidableEq, Repr

inductive Value where
  | null
  | bool (b : Bool)
  | num (n : Numeral)
  | str (s : List UInt8)
  | arr (items : List Value)
  | obj (members : List (List UInt8 × Value))
  deriving Repr

def natural (digits : List Nat) : Nat := digits.foldl (10 * · + ·) 0

namespace Numeral

def sign (n : Numeral) : Int := if n.negative then -1 else 1

def value (n : Numeral) : ℚ :=
  n.sign * natural (n.whole ++ n.fraction) * 10 ^ (n.exponent.getD 0 - n.fraction.length)

/-- The text has neither point nor exponent. -/
def Plain (n : Numeral) : Prop := n.fraction = [] ∧ n.exponent = none

instance (n : Numeral) : Decidable n.Plain := inferInstanceAs (Decidable (_ ∧ _))

def integer (n : Numeral) : Int := n.sign * natural n.whole

theorem value_plain {n : Numeral} (plain : n.Plain) : n.value = n.integer := by
  simp [value, integer, plain.1, plain.2]

end Numeral

/-! ## Words -/

def isDigit (c : UInt8) : Bool := 48 ≤ c && c ≤ 57

def digitsOf (w : List UInt8) : List Nat := w.map (·.toNat - 48)

/-- The digits after a point, if there is one, and what follows them. -/
def fractionPart : List UInt8 → Option (List UInt8 × List UInt8)
  | 46 :: w =>
    if w.takeWhile isDigit = [] then none else some (w.takeWhile isDigit, w.dropWhile isDigit)
  | w => some ([], w)

def exponentDigits (w : List UInt8) : Option Int :=
  if w ≠ [] ∧ w.all isDigit then some (natural (digitsOf w)) else none

def exponentPart : List UInt8 → Option (Option Int)
  | [] => some none
  | e :: w =>
    if e ≠ 101 ∧ e ≠ 69 then none
    else match w with
      | 43 :: w => (exponentDigits w).map some
      | 45 :: w => (exponentDigits w).map (some <| -·)
      | w => (exponentDigits w).map some

def unsigned (negative : Bool) (w : List UInt8) : Option Numeral :=
  let whole := w.takeWhile isDigit
  if whole = [] ∨ (whole.head? = some 48 ∧ 1 < whole.length) then none
  else do
    let (fraction, w) ← fractionPart (w.dropWhile isDigit)
    let exponent ← exponentPart w
    return ⟨negative, digitsOf whole, digitsOf fraction, exponent⟩

def numeral : List UInt8 → Option Numeral
  | 45 :: w => unsigned true w
  | w => unsigned false w

def word (w : List UInt8) : Option Value :=
  if w = [110, 117, 108, 108] then some .null
  else if w = [116, 114, 117, 101] then some (.bool true)
  else if w = [102, 97, 108, 115, 101] then some (.bool false)
  else (numeral w).map .num

/-! ## Strings -/

/-- U+FFFD in UTF-8. -/
def replacement : List UInt8 := [239, 191, 189]

def tail (c : UInt8) : Bool := 128 ≤ c && c ≤ 191

/-- How many bytes the UTF-8 form in front has after its first; none if there is no such
    form. -/
def runeTail : List UInt8 → Option Nat
  | [] => none
  | a :: s =>
    if a < 128 then some 0
    else if 194 ≤ a ∧ a ≤ 223 then
      if (s.take 1).length = 1 ∧ (s.take 1).all tail then some 1 else none
    else if 224 ≤ a ∧ a ≤ 239 then
      match s with
      | b :: c :: _ =>
        if tail b ∧ tail c ∧ (a = 224 → 160 ≤ b) ∧ (a = 237 → b ≤ 159) then some 2 else none
      | _ => none
    else if 240 ≤ a ∧ a ≤ 244 then
      match s with
      | b :: c :: d :: _ =>
        if tail b ∧ tail c ∧ tail d ∧ (a = 240 → 144 ≤ b) ∧ (a = 244 → b ≤ 143) then some 3
        else none
      | _ => none
    else none

/-- Replace each byte that belongs to no UTF-8 form; `n` bytes of one are still to come. -/
def repair : Nat → List UInt8 → List UInt8
  | _, [] => []
  | n + 1, c :: s => c :: repair n s
  | 0, c :: s =>
    match runeTail (c :: s) with
    | some n => c :: repair n s
    | none => replacement ++ repair 0 s

inductive Piece where
  | byte (c : UInt8)
  | unit (u : Nat)

def hexValue (c : UInt8) : Option Nat :=
  if 48 ≤ c ∧ c ≤ 57 then some (c.toNat - 48)
  else if 65 ≤ c ∧ c ≤ 70 then some (c.toNat - 55)
  else if 97 ≤ c ∧ c ≤ 102 then some (c.toNat - 87)
  else none

/-- What a letter stands for after a backslash. -/
def escape (c : UInt8) : Option UInt8 :=
  if c = 34 ∨ c = 92 ∨ c = 47 then some c
  else if c = 98 then some 8
  else if c = 102 then some 12
  else if c = 110 then some 10
  else if c = 114 then some 13
  else if c = 116 then some 9
  else none

/-- The bytes and escapes between two quotes. -/
def pieces : List UInt8 → Option (List Piece)
  | [] => some []
  | 92 :: 117 :: w :: x :: y :: z :: s => do
    let w ← hexValue w
    let x ← hexValue x
    let y ← hexValue y
    let z ← hexValue z
    return .unit (w * 4096 + x * 256 + y * 16 + z) :: (← pieces s)
  | 92 :: c :: s => do
    let c ← escape c
    return .byte c :: (← pieces s)
  | c :: s => do
    if c = 92 then none
    return .byte c :: (← pieces s)

/-- The UTF-8 form of a code point; halves of surrogate pairs have none. -/
def utf8 (code : Nat) : List UInt8 :=
  if code < 0x80 then [UInt8.ofNat code]
  else if code < 0x800 then [UInt8.ofNat (192 + code / 64), UInt8.ofNat (128 + code % 64)]
  else if 0xD800 ≤ code ∧ code < 0xE000 then replacement
  else if code < 0x10000 then
    [UInt8.ofNat (224 + code / 4096), UInt8.ofNat (128 + code / 64 % 64),
      UInt8.ofNat (128 + code % 64)]
  else
    [UInt8.ofNat (240 + code / 262144), UInt8.ofNat (128 + code / 4096 % 64),
      UInt8.ofNat (128 + code / 64 % 64), UInt8.ofNat (128 + code % 64)]

/-- A high surrogate goes together with a low one right after it. -/
def join : List Piece → List UInt8
  | [] => []
  | .byte c :: s => c :: join s
  | .unit u :: .unit v :: s =>
    if 0xD800 ≤ u ∧ u < 0xDC00 ∧ 0xDC00 ≤ v ∧ v < 0xE000 then
      utf8 (0x10000 + (u - 0xD800) * 0x400 + (v - 0xDC00)) ++ join s
    else utf8 u ++ join (.unit v :: s)
  | .unit u :: s => utf8 u ++ join s

def unquote (raw : List UInt8) : Option (List UInt8) := (pieces (repair 0 raw)).map join

/-! ## Tokens -/

inductive Token where
  | openArr
  | closeArr
  | openObj
  | closeObj
  | comma
  | colon
  | str (s : List UInt8)
  | scalar (v : Value)

def punctuation (c : UInt8) : Option Token :=
  if c = 91 then some .openArr
  else if c = 93 then some .closeArr
  else if c = 123 then some .openObj
  else if c = 125 then some .closeObj
  else if c = 44 then some .comma
  else if c = 58 then some .colon
  else none

def isSpace (c : UInt8) : Bool := c == 32 || c == 9 || c == 10 || c == 13

/-- The tokens of a text. `w` is the word that runs up to here, backwards. -/
inductive Lexer where
  | word (w : List UInt8)
  | str (raw : List UInt8)
  | escaped (raw : List UInt8)

def wordEnd (w : List UInt8) : Option (List Token) :=
  if w = [] then some [] else (word w.reverse).map ([.scalar ·])

/-- One byte: the tokens that it ends, and where the lexer stands then. -/
def lexByte (c : UInt8) : Lexer → Option (List Token × Lexer)
  | .word w =>
    if isSpace c then (wordEnd w).map (·, .word [])
    else if c = 34 then (wordEnd w).map (·, .str [])
    else match punctuation c with
      | some t => (wordEnd w).map (· ++ [t], .word [])
      | none => some ([], .word (c :: w))
  | .str raw =>
    if c < 32 then none
    else if c = 34 then (unquote raw.reverse).map ([.str ·], .word [])
    else if c = 92 then some ([], .escaped (c :: raw))
    else some ([], .str (c :: raw))
  | .escaped raw => if c < 32 then none else some ([], .str (c :: raw))

def lex : Lexer → List UInt8 → Option (List Token)
  | .word w, [] => wordEnd w
  | _, [] => none
  | l, c :: s => do
    let (done, l) ← lexByte c l
    return done ++ (← lex l s)

def tokens (text : List UInt8) : Option (List Token) := lex (.word []) text

/-! ## Values -/

/-- An array or an object that is still open, its parts backwards. -/
inductive Frame where
  | items (before : List Value)
  | members (before : List (List UInt8 × Value))
  | member (before : List (List UInt8 × Value)) (name : List UInt8)

inductive Mode where
  | opened
  | value
  | name
  | colon
  | after
  | done (v : Value)

structure Parser where
  stack : List Frame
  mode : Mode

/-- A value has ended: it goes to what it stands in. -/
def Parser.finish (v : Value) : List Frame → Option Parser
  | [] => some ⟨[], .done v⟩
  | .items before :: stack => some ⟨.items (v :: before) :: stack, .after⟩
  | .member before name :: stack => some ⟨.members ((name, v) :: before) :: stack, .after⟩
  | .members _ :: _ => none

def Parser.step (p : Parser) (t : Token) : Option Parser :=
  match p.mode, p.stack, t with
  | .opened, .members before :: stack, .str s => some ⟨.member before s :: stack, .colon⟩
  | .opened, .members before :: stack, .closeObj => finish (.obj before.reverse) stack
  | .opened, .members _ :: _, _ => none
  | .opened, .items before :: stack, .closeArr => finish (.arr before.reverse) stack
  | .name, .members before :: stack, .str s => some ⟨.member before s :: stack, .colon⟩
  | .name, _, _ => none
  | .colon, stack, .colon => some ⟨stack, .value⟩
  | .colon, _, _ => none
  | .after, .items before :: stack, .comma => some ⟨.items before :: stack, .value⟩
  | .after, .items before :: stack, .closeArr => finish (.arr before.reverse) stack
  | .after, .members before :: stack, .comma => some ⟨.members before :: stack, .name⟩
  | .after, .members before :: stack, .closeObj => finish (.obj before.reverse) stack
  | .after, _, _ => none
  | .done _, _, _ => none
  | _, stack, .openArr => some ⟨.items [] :: stack, .opened⟩
  | _, stack, .openObj => some ⟨.members [] :: stack, .opened⟩
  | _, stack, .str s => finish (.str s) stack
  | _, stack, .scalar v => finish v stack
  | _, _, _ => none

def parseTokens : Parser → List Token → Option Value
  | ⟨_, .done v⟩, [] => some v
  | _, [] => none
  | p, t :: ts => (p.step t).bind (parseTokens · ts)

def parse (text : List UInt8) : Option Value := (tokens text).bind (parseTokens ⟨[], .value⟩)

mutual

/-- How many arrays and objects are open at once where the value is deepest. -/
def Value.depth : Value → Nat
  | .arr items => depthItems items + 1
  | .obj members => depthMembers members + 1
  | _ => 0

def depthItems : List Value → Nat
  | [] => 0
  | v :: vs => max v.depth (depthItems vs)

def depthMembers : List (List UInt8 × Value) → Nat
  | [] => 0
  | (_, v) :: ms => max v.depth (depthMembers ms)

end

/-- A text that is nested deeper than the limit is refused. -/
def parseWithin (limit : Nat) (text : List UInt8) : Option Value :=
  (parse text).filter (·.depth ≤ limit)

theorem depthMembers_le {limit : Nat} {ms : List (List UInt8 × Value)} :
    depthMembers ms ≤ limit ↔ ∀ m ∈ ms, m.2.depth ≤ limit := by
  induction ms with
  | nil => simp [depthMembers]
  | cons m ms ih =>
    rw [depthMembers, Nat.max_le, ih]
    simp

theorem parseWithin_obj {limit : Nat} {text : List UInt8} {ms : List (List UInt8 × Value)}
    (spells : parse text = some (.obj ms)) :
    parseWithin limit text = if depthMembers ms < limit then some (.obj ms) else none := by
  rw [parseWithin, spells, Option.filter_some, Value.depth]
  simp only [decide_eq_true_eq, Nat.succ_le_iff]

theorem parse_nil : parse [] = none := rfl

end Json
