import SwaDemo.JsonStrings
import SwaDemo.JsonNumbers

/-!
Writing JSON without spaces, over any quoting of its strings. What is written for a value is
parsed as that value, each string replaced by what its spelling means, and has no control
character.
-/
namespace Json

def scalarText : Value → List UInt8
  | .bool true => [116, 114, 117, 101]
  | .bool false => [102, 97, 108, 115, 101]
  | .num n => n.text
  | _ => [110, 117, 108, 108]

def Quoting.text (q : Quoting) : Token → List UInt8
  | .openArr => [91]
  | .closeArr => [93]
  | .openObj => [123]
  | .closeObj => [125]
  | .comma => [44]
  | .colon => [58]
  | .str s => 34 :: (q.quote s ++ [34])
  | .scalar v => scalarText v

mutual

def Value.tokens : Value → List Token
  | .arr items => .openArr :: (itemTokens true items ++ [.closeArr])
  | .obj members => .openObj :: (memberTokens true members ++ [.closeObj])
  | .str s => [.str s]
  | .num n => [.scalar (.num n)]
  | .bool b => [.scalar (.bool b)]
  | .null => [.scalar .null]

def itemTokens (first : Bool) : List Value → List Token
  | [] => []
  | v :: vs => (if first then [] else [.comma]) ++ v.tokens ++ itemTokens false vs

def memberTokens (first : Bool) : List (List UInt8 × Value) → List Token
  | [] => []
  | (name, v) :: ms =>
    (if first then [] else [.comma]) ++ .str name :: .colon :: (v.tokens ++ memberTokens false ms)

end

def encode (q : Quoting) (v : Value) : List UInt8 := v.tokens.flatMap q.text

mutual

/-- A value with every string replaced, the names of members among them. -/
def Value.respell (f : List UInt8 → List UInt8) : Value → Value
  | .arr items => .arr (respellItems f items)
  | .obj members => .obj (respellMembers f members)
  | .str s => .str (f s)
  | .num n => .num n
  | .bool b => .bool b
  | .null => .null

def respellItems (f : List UInt8 → List UInt8) : List Value → List Value
  | [] => []
  | v :: vs => v.respell f :: respellItems f vs

def respellMembers (f : List UInt8 → List UInt8) : List (List UInt8 × Value) → List (List UInt8 × Value)
  | [] => []
  | (name, v) :: ms => (f name, v.respell f) :: respellMembers f ms

end

mutual

def Value.strings : Value → List (List UInt8)
  | .arr items => stringsItems items
  | .obj members => stringsMembers members
  | .str s => [s]
  | _ => []

def stringsItems : List Value → List (List UInt8)
  | [] => []
  | v :: vs => v.strings ++ stringsItems vs

def stringsMembers : List (List UInt8 × Value) → List (List UInt8)
  | [] => []
  | (name, v) :: ms => name :: (v.strings ++ stringsMembers ms)

end

mutual

theorem respell_congr {f g : List UInt8 → List UInt8} :
    ∀ v : Value, (∀ s ∈ v.strings, f s = g s) → v.respell f = v.respell g
  | .arr items, same => by
    rw [Value.respell, Value.respell, respellItems_congr items same]
  | .obj members, same => by
    rw [Value.respell, Value.respell, respellMembers_congr members same]
  | .str s, same => by
    rw [Value.respell, Value.respell, same s (by simp [Value.strings])]
  | .num n, same => rfl
  | .bool b, same => rfl
  | .null, same => rfl

theorem respellItems_congr {f g : List UInt8 → List UInt8} :
    ∀ vs : List Value, (∀ s ∈ stringsItems vs, f s = g s) → respellItems f vs = respellItems g vs
  | [], same => rfl
  | v :: vs, same => by
    rw [respellItems, respellItems, respell_congr v fun s mem => same s (by simp [stringsItems, mem]),
      respellItems_congr vs fun s mem => same s (by simp [stringsItems, mem])]

theorem respellMembers_congr {f g : List UInt8 → List UInt8} :
    ∀ ms : List (List UInt8 × Value), (∀ s ∈ stringsMembers ms, f s = g s) →
      respellMembers f ms = respellMembers g ms
  | [], same => rfl
  | (name, v) :: ms, same => by
    rw [respellMembers, respellMembers, same name (by simp [stringsMembers]),
      respell_congr v fun s mem => same s (by simp [stringsMembers, mem]),
      respellMembers_congr ms fun s mem => same s (by simp [stringsMembers, mem])]

end

theorem respellMembers_map (f : List UInt8 → List UInt8) (ms : List (List UInt8 × Value)) :
    respellMembers f ms = ms.map fun m => (f m.1, m.2.respell f) := by
  induction ms with
  | nil => rfl
  | cons m ms ih => rw [respellMembers, ih, List.map_cons]

mutual

def Value.Regular : Value → Prop
  | .arr items => RegularItems items
  | .obj members => RegularMembers members
  | .num n => n.Regular
  | _ => True

def RegularItems : List Value → Prop
  | [] => True
  | v :: vs => v.Regular ∧ RegularItems vs

def RegularMembers : List (List UInt8 × Value) → Prop
  | [] => True
  | (_, v) :: ms => v.Regular ∧ RegularMembers ms

end

/-- The text of a scalar is one word, which spells it. -/
structure Written (v : Value) : Prop where
  some_ : scalarText v ≠ []
  bytes : ∀ c ∈ scalarText v, 32 ≤ c ∧ isSpace c = false ∧ c ≠ 34 ∧ punctuation c = none
  ascii : ∀ c ∈ scalarText v, c < 128
  spells : word (scalarText v) = some v

/-- Every scalar is written, and none stands right before another. -/
def Separated : List Token → Prop
  | [] => True
  | .scalar v :: ts => Written v ∧ (∀ u, ts.head? ≠ some (.scalar u)) ∧ Separated ts
  | _ :: ts => Separated ts

def Token.respell (f : List UInt8 → List UInt8) : Token → Token
  | .str s => .str (f s)
  | t => t

theorem punctuation_ends {c : UInt8} {t : Token} (is : punctuation c = some t) (w : List UInt8) :
    lexByte c (.word w) = (wordEnd w).map (· ++ [t], .word []) := by
  have known : c = 91 ∨ c = 93 ∨ c = 123 ∨ c = 125 ∨ c = 44 ∨ c = 58 := by
    by_contra none_
    simp only [not_or] at none_
    simp [punctuation, none_] at is
  have other : isSpace c = false ∧ c ≠ 34 := by
    rcases known with rfl | rfl | rfl | rfl | rfl | rfl <;> decide
  rw [lexByte]
  simp [other.1, other.2, is]

theorem lex_word {w : List UInt8}
    (bytes : ∀ c ∈ w, 32 ≤ c ∧ isSpace c = false ∧ c ≠ 34 ∧ punctuation c = none)
    (before s : List UInt8) : lex (.word before) (w ++ s) = lex (.word (w.reverse ++ before)) s := by
  induction w generalizing before with
  | nil => rfl
  | cons c w ih =>
    obtain ⟨_, space, quote, none_⟩ := bytes c (by simp)
    have step : lexByte c (.word before) = some ([], .word (c :: before)) := by
      rw [lexByte]
      simp [space, quote, none_]
    rw [List.cons_append, lex_quiet step, ih fun b mem => bytes b (by simp [mem])]
    simp

theorem wordEnd_written {v : Value} (written : Written v) :
    wordEnd (scalarText v).reverse = some [.scalar v] := by
  have some_ : (scalarText v).reverse ≠ [] := by simpa using written.some_
  rw [wordEnd, if_neg some_, List.reverse_reverse, written.spells]
  rfl

theorem text_head (q : Quoting) {t : Token} (other : ∀ u, t ≠ .scalar u) :
    ∃ c s, q.text t = c :: s ∧ (c = 34 ∨ ∃ u, punctuation c = some u) := by
  cases t with
  | scalar u => exact absurd rfl (other u)
  | str s => exact ⟨34, _, rfl, Or.inl rfl⟩
  | openArr => exact ⟨91, [], rfl, Or.inr ⟨_, rfl⟩⟩
  | closeArr => exact ⟨93, [], rfl, Or.inr ⟨_, rfl⟩⟩
  | openObj => exact ⟨123, [], rfl, Or.inr ⟨_, rfl⟩⟩
  | closeObj => exact ⟨125, [], rfl, Or.inr ⟨_, rfl⟩⟩
  | comma => exact ⟨44, [], rfl, Or.inr ⟨_, rfl⟩⟩
  | colon => exact ⟨58, [], rfl, Or.inr ⟨_, rfl⟩⟩

theorem lex_scalar {v : Value} (written : Written v) {c : UInt8}
    (stops : c = 34 ∨ ∃ u, punctuation c = some u) (s : List UInt8) :
    lex (.word (scalarText v).reverse) (c :: s) = (lex (.word []) (c :: s)).map (.scalar v :: ·) := by
  have ended := wordEnd_written written
  rcases stops with rfl | ⟨t, is⟩
  · have first : lexByte 34 (.word (scalarText v).reverse) = some ([.scalar v], .str []) := by
      rw [lexByte]
      simp [isSpace, ended]
    have second : lexByte 34 (.word []) = some ([], .str []) := rfl
    rw [lex_step first, lex_quiet second]
    rfl
  · have first : lexByte c (.word (scalarText v).reverse) = some ([.scalar v, t], .word []) := by
      rw [punctuation_ends is, ended]
      rfl
    have second : lexByte c (.word []) = some ([t], .word []) := punctuation_ends is []
    rw [lex_step first, lex_step second, Option.map_map]
    rfl

theorem lex_punctuation {c : UInt8} {t : Token} (is : punctuation c = some t) (s : List UInt8) :
    lex (.word []) (c :: s) = (lex (.word []) s).map (t :: ·) :=
  lex_step (punctuation_ends is []) s

/-- The text of some tokens is read as these tokens. -/
theorem lex_tokens (q : Quoting) {ts : List Token} (separated : Separated ts) :
    lex (.word []) (ts.flatMap q.text) = some (ts.map (Token.respell q.meaning)) := by
  induction ts with
  | nil => rfl
  | cons t ts ih =>
    rw [List.flatMap_cons, List.map_cons]
    cases t with
    | scalar v =>
      obtain ⟨written, alone, rest⟩ := separated
      have word : q.text (.scalar v) = scalarText v := rfl
      rw [word, lex_word written.bytes, List.append_nil]
      cases ts with
      | nil => exact wordEnd_written written
      | cons next ts =>
        obtain ⟨c, s, text, stops⟩ := text_head q (t := next) fun u same => alone u (by simp [same])
        have later := ih rest
        rw [List.flatMap_cons, text, List.cons_append] at later ⊢
        rw [lex_scalar written stops, later]
        rfl
    | str s =>
      have text : q.text (.str s) ++ ts.flatMap q.text = 34 :: (q.quote s ++ 34 :: ts.flatMap q.text) := by
        simp [Quoting.text]
      rw [text, lex_quoted (q.spelled s), ih separated]
      rfl
    | openArr | closeArr | openObj | closeObj | comma | colon =>
      have rest := ih separated
      refine (lex_punctuation rfl (ts.flatMap q.text)).trans ?_
      rw [rest]
      rfl

mutual

theorem tokens_respell (f : List UInt8 → List UInt8) :
    ∀ v : Value, v.tokens.map (Token.respell f) = (v.respell f).tokens
  | .arr items => by simp [Value.tokens, Value.respell, Token.respell, itemTokens_respell f items]
  | .obj members => by
    simp [Value.tokens, Value.respell, Token.respell, memberTokens_respell f members]
  | .str s => rfl
  | .num n => rfl
  | .bool b => rfl
  | .null => rfl

theorem itemTokens_respell (f : List UInt8 → List UInt8) :
    ∀ (vs : List Value) (first : Bool),
      (itemTokens first vs).map (Token.respell f) = itemTokens first (respellItems f vs)
  | [], first => rfl
  | v :: vs, first => by
    cases first <;>
      simp [itemTokens, respellItems, Token.respell, tokens_respell f v, itemTokens_respell f vs]

theorem memberTokens_respell (f : List UInt8 → List UInt8) :
    ∀ (ms : List (List UInt8 × Value)) (first : Bool),
      (memberTokens first ms).map (Token.respell f) = memberTokens first (respellMembers f ms)
  | [], first => rfl
  | (name, v) :: ms, first => by
    cases first <;>
      simp [memberTokens, respellMembers, Token.respell, tokens_respell f v,
        memberTokens_respell f ms]

end

theorem parseTokens_step {p next : Parser} {t : Token} (step : p.step t = some next)
    (ts : List Token) : parseTokens p (t :: ts) = parseTokens next ts := by
  rw [parseTokens, step, Option.bind_some]

/-- A value may stand here. -/
inductive Awaits : List Frame → Mode → Prop
  | value (stack : List Frame) : Awaits stack .value
  | first (before : List Value) (stack : List Frame) : Awaits (.items before :: stack) .opened

def itemMode : Bool → Mode
  | true => .opened
  | false => .after

theorem step_scalar {stack : List Frame} {mode : Mode} (awaits : Awaits stack mode) (v : Value) :
    Parser.step ⟨stack, mode⟩ (.scalar v) = Parser.finish v stack := by
  cases awaits with
  | value stack => rfl
  | first before stack => rfl

mutual

theorem parse_tokens :
    ∀ (v : Value) {stack : List Frame} {mode : Mode} (_ : Awaits stack mode) (ts : List Token),
      parseTokens ⟨stack, mode⟩ (v.tokens ++ ts) = (Parser.finish v stack).bind (parseTokens · ts)
  | .arr items, stack, mode, awaits, ts => by
    have opens : Parser.step ⟨stack, mode⟩ .openArr = some ⟨.items [] :: stack, .opened⟩ := by
      cases awaits <;> rfl
    have text : Value.tokens (.arr items) ++ ts =
        .openArr :: (itemTokens true items ++ .closeArr :: ts) := by
      simp [Value.tokens]
    rw [text, parseTokens_step opens]
    exact parse_items items true [] stack ts
  | .obj members, stack, mode, awaits, ts => by
    have opens : Parser.step ⟨stack, mode⟩ .openObj = some ⟨.members [] :: stack, .opened⟩ := by
      cases awaits <;> rfl
    have text : Value.tokens (.obj members) ++ ts =
        .openObj :: (memberTokens true members ++ .closeObj :: ts) := by
      simp [Value.tokens]
    rw [text, parseTokens_step opens]
    exact parse_members members true [] stack ts
  | .str s, stack, mode, awaits, ts => by
    have step : Parser.step ⟨stack, mode⟩ (.str s) = Parser.finish (.str s) stack := by
      cases awaits <;> rfl
    rw [Value.tokens, List.singleton_append, parseTokens, step]
  | .num n, stack, mode, awaits, ts => by
    rw [Value.tokens, List.singleton_append, parseTokens, step_scalar awaits]
  | .bool b, stack, mode, awaits, ts => by
    rw [Value.tokens, List.singleton_append, parseTokens, step_scalar awaits]
  | .null, stack, mode, awaits, ts => by
    rw [Value.tokens, List.singleton_append, parseTokens, step_scalar awaits]

theorem parse_items :
    ∀ (vs : List Value) (first : Bool) (before : List Value) (stack : List Frame)
      (ts : List Token),
      parseTokens ⟨.items before :: stack, itemMode first⟩ (itemTokens first vs ++ .closeArr :: ts) =
        (Parser.finish (.arr (before.reverse ++ vs)) stack).bind (parseTokens · ts)
  | [], first, before, stack, ts => by
    have step : Parser.step ⟨.items before :: stack, itemMode first⟩ .closeArr =
        Parser.finish (.arr before.reverse) stack := by
      cases first <;> rfl
    rw [itemTokens, List.nil_append, parseTokens, step, List.append_nil]
  | v :: vs, first, before, stack, ts => by
    have rest := parse_items vs false (v :: before) stack ts
    rw [List.reverse_cons, List.append_assoc, List.singleton_append] at rest
    cases first with
    | true =>
      have value := parse_tokens v (.first before stack) (itemTokens false vs ++ .closeArr :: ts)
      rw [itemTokens, if_pos rfl, List.nil_append, List.append_assoc]
      exact value.trans rest
    | false =>
      have value := parse_tokens v (.value (.items before :: stack))
        (itemTokens false vs ++ .closeArr :: ts)
      have comma : Parser.step ⟨.items before :: stack, .after⟩ .comma =
          some ⟨.items before :: stack, .value⟩ := rfl
      rw [itemTokens, if_neg (by decide), List.append_assoc, List.append_assoc, List.singleton_append,
        itemMode, parseTokens_step comma]
      exact value.trans rest

theorem parse_members :
    ∀ (ms : List (List UInt8 × Value)) (first : Bool) (before : List (List UInt8 × Value))
      (stack : List Frame) (ts : List Token),
      parseTokens ⟨.members before :: stack, itemMode first⟩
          (memberTokens first ms ++ .closeObj :: ts) =
        (Parser.finish (.obj (before.reverse ++ ms)) stack).bind (parseTokens · ts)
  | [], first, before, stack, ts => by
    have step : Parser.step ⟨.members before :: stack, itemMode first⟩ .closeObj =
        Parser.finish (.obj before.reverse) stack := by
      cases first <;> rfl
    rw [memberTokens, List.nil_append, parseTokens, step, List.append_nil]
  | (name, v) :: ms, first, before, stack, ts => by
    have rest := parse_members ms false ((name, v) :: before) stack ts
    rw [List.reverse_cons, List.append_assoc, List.singleton_append] at rest
    have value := parse_tokens v (.value (.member before name :: stack))
      (memberTokens false ms ++ .closeObj :: ts)
    have colon : Parser.step ⟨.member before name :: stack, .colon⟩ .colon =
        some ⟨.member before name :: stack, .value⟩ := rfl
    cases first with
    | true =>
      have named : Parser.step ⟨.members before :: stack, .opened⟩ (.str name) =
          some ⟨.member before name :: stack, .colon⟩ := rfl
      rw [memberTokens, if_pos rfl, List.nil_append, List.cons_append, List.cons_append,
        List.append_assoc, itemMode, parseTokens_step named, parseTokens_step colon]
      exact value.trans rest
    | false =>
      have comma : Parser.step ⟨.members before :: stack, .after⟩ .comma =
          some ⟨.members before :: stack, .name⟩ := rfl
      have named : Parser.step ⟨.members before :: stack, .name⟩ (.str name) =
          some ⟨.member before name :: stack, .colon⟩ := rfl
      rw [memberTokens, if_neg (by decide), List.append_assoc, List.singleton_append,
        List.cons_append, List.cons_append, List.append_assoc, itemMode, parseTokens_step comma,
        parseTokens_step named, parseTokens_step colon]
      exact value.trans rest

end

theorem word_text {n : Numeral} (regular : n.Regular) : word n.text = some (.num n) := by
  have other (c : UInt8) (w : List UInt8) (letter : isDigit c = false ∧ c ≠ 45 ∧ c ≠ 46 ∧ c ≠ 101 ∧
      c ≠ 43) : n.text ≠ c :: w := by
    intro same
    rcases Numeral.text_bytes regular c (by simp [same]) with digit | rfl | rfl | rfl | rfl
    · rw [letter.1] at digit
      contradiction
    · exact letter.2.1 rfl
    · exact letter.2.2.1 rfl
    · exact letter.2.2.2.1 rfl
    · exact letter.2.2.2.2 rfl
  rw [word, if_neg (other 110 _ (by decide)), if_neg (other 116 _ (by decide)),
    if_neg (other 102 _ (by decide)), numeral_text regular]
  rfl

theorem written_num {n : Numeral} (regular : n.Regular) : Written (.num n) where
  some_ := Numeral.text_ne regular
  bytes := by
    intro c mem
    have inside := Numeral.text_bytes regular c mem
    have digits : isDigit c = true → 32 ≤ c ∧ isSpace c = false ∧ c ≠ 34 ∧ punctuation c = none := by
      intro digit
      have other (d : UInt8) (none_ : isDigit d = false) : c ≠ d := by
        rintro rfl
        rw [none_] at digit
        contradiction
      have space : isSpace c = false := by
        simp [isSpace, other 32 rfl, other 9 rfl, other 10 rfl, other 13 rfl]
      have mark : punctuation c = none := by
        simp [punctuation, other 91 rfl, other 93 rfl, other 123 rfl, other 125 rfl, other 44 rfl,
          other 58 rfl]
      rw [isDigit, Bool.and_eq_true, decide_eq_true_eq] at digit
      exact ⟨UInt8.le_trans (by decide) digit.1, space, other 34 rfl, mark⟩
    rcases inside with digit | rfl | rfl | rfl | rfl
    · exact digits digit
    all_goals exact ⟨by decide, by decide, by decide, rfl⟩
  ascii := by
    intro c mem
    rcases Numeral.text_bytes regular c mem with digit | rfl | rfl | rfl | rfl
    · rw [isDigit, Bool.and_eq_true, decide_eq_true_eq, decide_eq_true_eq] at digit
      exact UInt8.lt_of_le_of_lt digit.2 (by decide)
    all_goals decide
  spells := word_text regular

theorem written_bool (b : Bool) : Written (.bool b) where
  some_ := by cases b <;> decide
  bytes := by
    intro c mem
    have each : ∀ b, ∀ c ∈ scalarText (.bool b),
        32 ≤ c ∧ isSpace c = false ∧ c ≠ 34 ∧ (punctuation c).isNone = true := by decide +kernel
    simpa using each b c mem
  ascii := by cases b <;> decide +kernel
  spells := by cases b <;> rfl

theorem written_null : Written .null where
  some_ := by decide
  bytes := by
    intro c mem
    have each : ∀ c ∈ scalarText .null,
        32 ≤ c ∧ isSpace c = false ∧ c ≠ 34 ∧ (punctuation c).isNone = true := by decide +kernel
    simpa using each c mem
  ascii := by decide +kernel
  spells := rfl

/-- What follows a value in a text does not start with a scalar. -/
def Stops (ts : List Token) : Prop := Separated ts ∧ ∀ u, ts.head? ≠ some (.scalar u)

mutual

theorem separated_tokens :
    ∀ (v : Value) {ts : List Token}, v.Regular → Stops ts → Separated (v.tokens ++ ts)
  | .arr items, ts, regular, stops => by
    have inner := separated_items items true regular stops.1
    have text : Value.tokens (.arr items) ++ ts =
        .openArr :: (itemTokens true items ++ .closeArr :: ts) := by
      simp [Value.tokens]
    rw [text]
    exact inner
  | .obj members, ts, regular, stops => by
    have inner := separated_members members true regular stops.1
    have text : Value.tokens (.obj members) ++ ts =
        .openObj :: (memberTokens true members ++ .closeObj :: ts) := by
      simp [Value.tokens]
    rw [text]
    exact inner
  | .str s, ts, regular, stops => stops.1
  | .num n, ts, regular, stops => ⟨written_num regular, stops.2, stops.1⟩
  | .bool b, ts, regular, stops => ⟨written_bool b, stops.2, stops.1⟩
  | .null, ts, regular, stops => ⟨written_null, stops.2, stops.1⟩

theorem separated_items :
    ∀ (vs : List Value) (first : Bool) {ts : List Token}, RegularItems vs → Separated ts →
      Separated (itemTokens first vs ++ .closeArr :: ts)
  | [], first, ts, regular, rest => rest
  | v :: vs, first, ts, regular, rest => by
    have later := separated_items vs false regular.2 rest
    have stops : Stops (itemTokens false vs ++ .closeArr :: ts) := by
      refine ⟨later, fun u => ?_⟩
      cases vs <;> simp [itemTokens]
    have value := separated_tokens v regular.1 stops
    cases first <;> simpa [itemTokens, Separated] using value

theorem separated_members :
    ∀ (ms : List (List UInt8 × Value)) (first : Bool) {ts : List Token}, RegularMembers ms →
      Separated ts → Separated (memberTokens first ms ++ .closeObj :: ts)
  | [], first, ts, regular, rest => rest
  | (name, v) :: ms, first, ts, regular, rest => by
    have later := separated_members ms false regular.2 rest
    have stops : Stops (memberTokens false ms ++ .closeObj :: ts) := by
      refine ⟨later, fun u => ?_⟩
      cases ms <;> simp [memberTokens]
    have value := separated_tokens v regular.1 stops
    cases first <;> simpa [memberTokens, Separated] using value

end

theorem separated_value {v : Value} (regular : v.Regular) : Separated v.tokens := by
  have whole : Separated (v.tokens ++ []) := separated_tokens v regular ⟨trivial, by simp⟩
  rwa [List.append_nil] at whole

/-- What an encoder writes is parsed as the value it was written for. -/
theorem parse_encode (q : Quoting) {v : Value} (regular : v.Regular) :
    parse (encode q v) = some (v.respell q.meaning) := by
  have parsed := parse_tokens (v.respell q.meaning) (.value []) []
  rw [List.append_nil] at parsed
  rw [parse, tokens, encode, lex_tokens q (separated_value regular), tokens_respell, Option.bind_some, parsed]
  rfl

theorem text_printable (q : Quoting) {t : Token} (written : ∀ v, t = .scalar v → Written v) :
    ∀ c ∈ q.text t, 32 ≤ c := by
  cases t with
  | scalar v => exact fun c mem => ((written v rfl).bytes c mem).1
  | str s =>
    intro c mem
    rcases List.mem_cons.mp mem with rfl | mem
    · decide
    · rcases List.mem_append.mp mem with inside | last
      · exact spelled_printable (q.spelled s) c inside
      · rw [List.mem_singleton.mp last]
        decide
  | openArr | closeArr | openObj | closeObj | comma | colon =>
    intro c mem
    rw [List.mem_singleton.mp mem]
    decide

theorem separated_written {ts : List Token} (separated : Separated ts) {v : Value}
    (mem : .scalar v ∈ ts) : Written v := by
  induction ts with
  | nil => simp at mem
  | cons t ts ih =>
    cases t with
    | scalar u =>
      obtain ⟨written, _, rest⟩ := separated
      rcases List.mem_cons.mp mem with same | later
      · cases same
        exact written
      · exact ih rest later
    | str | openArr | closeArr | openObj | closeObj | comma | colon =>
      exact ih separated (by simpa using mem)

/-- A text has no control character, and so no line break. -/
theorem encode_printable (q : Quoting) {v : Value} (regular : v.Regular) :
    ∀ c ∈ encode q v, 32 ≤ c := by
  intro c mem
  obtain ⟨t, known, inside⟩ := List.mem_flatMap.mp mem
  refine text_printable q (fun v same => ?_) c inside
  subst same
  exact separated_written (separated_value regular) known

end Json
