import SwaDemo.JsonEncode

/-!
Texts that break off. The lexer and the parser are one machine over the bytes; between the
first bracket and the last one something is always open, so an array or an object that is
cut short is no JSON, wherever the cut is.
-/
namespace Json

def steps : Parser → List Token → Option Parser
  | p, [] => some p
  | p, t :: ts => (p.step t).bind (steps · ts)

/-- The lexer and the parser after some bytes. -/
def feed : Lexer × Parser → List UInt8 → Option (Lexer × Parser)
  | now, [] => some now
  | (l, p), c :: s => do
    let (ts, l) ← lexByte c l
    let p ← steps p ts
    feed (l, p) s

def parseFrom (now : Lexer × Parser) (s : List UInt8) : Option Value :=
  (lex now.1 s).bind (parseTokens now.2)

theorem parseTokens_append (p : Parser) (ts us : List Token) :
    parseTokens p (ts ++ us) = (steps p ts).bind (parseTokens · us) := by
  induction ts generalizing p with
  | nil => rfl
  | cons t ts ih =>
    rw [List.cons_append, parseTokens, steps]
    cases step : p.step t with
    | none => rfl
    | some next => exact ih next

theorem parseFrom_cons (now : Lexer × Parser) (c : UInt8) (s : List UInt8) :
    parseFrom now (c :: s) = (feed now [c]).bind (parseFrom · s) := by
  obtain ⟨l, p⟩ := now
  cases byte : lexByte c l with
  | none =>
    have stuck : lex l (c :: s) = none := by
      rw [lex.eq_def]
      simp [byte]
    simp [parseFrom, stuck, feed, byte]
  | some next =>
    obtain ⟨ts, l'⟩ := next
    have reads : parseFrom (l, p) (c :: s) =
        (lex l' s).bind fun us => (steps p ts).bind (parseTokens · us) := by
      rw [parseFrom, lex_step byte, Option.bind_map]
      congr 1
      funext us
      exact parseTokens_append p ts us
    rw [reads]
    cases ran : steps p ts with
    | none => simp [feed, byte, ran]
    | some q => simp [feed, byte, ran, parseFrom]

theorem feed_cons (now : Lexer × Parser) (c : UInt8) (s : List UInt8) :
    feed now (c :: s) = (feed now [c]).bind (feed · s) := by
  obtain ⟨l, p⟩ := now
  cases byte : lexByte c l with
  | none => simp [feed, byte]
  | some next =>
    obtain ⟨ts, l'⟩ := next
    cases ran : steps p ts <;> simp [feed, byte, ran]

theorem parseFrom_append (now : Lexer × Parser) (s t : List UInt8) :
    parseFrom now (s ++ t) = (feed now s).bind (parseFrom · t) := by
  induction s generalizing now with
  | nil => rfl
  | cons c s ih =>
    rw [List.cons_append, parseFrom_cons, feed_cons now c s]
    cases first : feed now [c] with
    | none => rfl
    | some next => exact ih next

/-- Something is still open. -/
structure Open (p : Parser) : Prop where
  stack : p.stack ≠ []
  mode : ∀ v, p.mode ≠ .done v

def OpenOrDone (p : Parser) : Prop := Open p ∨ ∃ v, p = ⟨[], .done v⟩

theorem finish_open {v : Value} {stack : List Frame} {p : Parser}
    (finished : Parser.finish v stack = some p) : (stack ≠ [] ∧ Open p) ∨ (stack = [] ∧ p = ⟨[], .done v⟩) := by
  cases stack with
  | nil => exact Or.inr ⟨rfl, (Option.some.inj finished).symm⟩
  | cons frame stack =>
    cases frame with
    | items before =>
      cases finished
      exact Or.inl ⟨by simp, ⟨by simp, by simp⟩⟩
    | member before name =>
      cases finished
      exact Or.inl ⟨by simp, ⟨by simp, by simp⟩⟩
    | members before => contradiction

theorem finish_either {v : Value} {stack : List Frame} {p : Parser}
    (finished : Parser.finish v stack = some p) : OpenOrDone p := by
  rcases finish_open finished with ⟨_, open_⟩ | ⟨_, done⟩
  · exact Or.inl open_
  · exact Or.inr ⟨v, done⟩

theorem step_either {p q : Parser} {t : Token} (open_ : Open p) (step : p.step t = some q) :
    OpenOrDone q := by
  obtain ⟨stack, mode⟩ := p
  have some_ : stack ≠ [] := open_.stack
  unfold Parser.step at step
  split at step
  all_goals first
    | contradiction
    | exact finish_either step
    | (cases step; exact Or.inl ⟨some_, by simp⟩)
    | (cases step; exact Or.inl ⟨List.cons_ne_nil _ _, by simp⟩)

theorem step_scalar_open {p q : Parser} {v : Value} (open_ : Open p)
    (step : p.step (.scalar v) = some q) : Open q := by
  obtain ⟨stack, mode⟩ := p
  have some_ : stack ≠ [] := open_.stack
  unfold Parser.step at step
  split at step
  all_goals first
    | contradiction
    | (rcases finish_open step with ⟨_, still⟩ | ⟨none_, _⟩
       · exact still
       · exact absurd none_ some_)

theorem step_done {v : Value} (stack : List Frame) (t : Token) :
    Parser.step ⟨stack, .done v⟩ t = none := by
  cases t <;> rfl

theorem steps_either {p q : Parser} {ts : List Token} (before : OpenOrDone p)
    (ran : steps p ts = some q) : OpenOrDone q := by
  induction ts generalizing p with
  | nil =>
    cases ran
    exact before
  | cons t ts ih =>
    obtain ⟨next, step, rest⟩ := Option.bind_eq_some_iff.mp ran
    rcases before with open_ | ⟨v, rfl⟩
    · exact ih (step_either open_ step) rest
    · rw [step_done] at step
      contradiction

theorem feed_either {now later : Lexer × Parser} {s : List UInt8} (before : OpenOrDone now.2)
    (fed : feed now s = some later) : OpenOrDone later.2 := by
  induction s generalizing now with
  | nil =>
    cases fed
    exact before
  | cons c s ih =>
    rw [feed_cons] at fed
    obtain ⟨next, first, rest⟩ := Option.bind_eq_some_iff.mp fed
    refine ih ?_ rest
    obtain ⟨⟨ts, l⟩, byte, first⟩ := Option.bind_eq_some_iff.mp first
    obtain ⟨q, ran, last⟩ := Option.bind_eq_some_iff.mp first
    cases last
    exact steps_either before ran

/-- Where a word or a string has begun, a token will come of it. -/
theorem lex_begun {l : Lexer} (begun : l ≠ .word []) (s : List UInt8) : lex l s ≠ some [] := by
  induction s generalizing l with
  | nil =>
    cases l with
    | word w =>
      have some_ : w ≠ [] := fun none_ => begun (by rw [none_])
      rw [lex, wordEnd, if_neg some_]
      simp
    | str raw => simp [lex]
    | escaped raw => simp [lex]
  | cons c s ih =>
    intro nothing
    cases byte : lexByte c l with
    | none =>
      rw [lex.eq_def] at nothing
      simp [byte] at nothing
    | some next =>
      obtain ⟨ts, l'⟩ := next
      rw [lex_step byte, Option.map_eq_some_iff] at nothing
      obtain ⟨us, rest, empty⟩ := nothing
      obtain ⟨rfl, rfl⟩ := List.append_eq_nil_iff.mp empty
      have fresh : l' = .word [] := by
        by_contra other
        exact ih other rest
      subst fresh
      cases l with
      | word w =>
        have some_ : w ≠ [] := fun none_ => begun (by rw [none_])
        rw [lexByte] at byte
        split at byte
        · simp [wordEnd, some_] at byte
        · split at byte
          · simp at byte
          · split at byte
            · simp at byte
            · simp at byte
      | str raw =>
        rw [lexByte] at byte
        split at byte
        · contradiction
        · split at byte
          · simp at byte
          · split at byte <;> simp at byte
      | escaped raw =>
        rw [lexByte] at byte
        split at byte <;> simp at byte

theorem lex_spaces {s : List UInt8} (nothing : lex (.word []) s = some []) :
    ∀ c ∈ s, isSpace c = true := by
  induction s with
  | nil => simp
  | cons c s ih =>
    cases byte : lexByte c (.word []) with
    | none =>
      rw [lex.eq_def] at nothing
      simp [byte] at nothing
    | some next =>
      obtain ⟨ts, l⟩ := next
      rw [lex_step byte, Option.map_eq_some_iff] at nothing
      obtain ⟨us, rest, empty⟩ := nothing
      obtain ⟨rfl, rfl⟩ := List.append_eq_nil_iff.mp empty
      have fresh : l = .word [] := by
        by_contra other
        exact lex_begun other s rest
      subst fresh
      have space : isSpace c = true := by
        by_contra other
        rw [lexByte, if_neg other] at byte
        split at byte
        · simp at byte
        · split at byte
          · simp [wordEnd] at byte
          · simp at byte
      intro d mem
      rcases List.mem_cons.mp mem with rfl | later
      · exact space
      · exact ih rest d later

theorem parseTokens_open {p : Parser} (open_ : Open p) {l : Lexer} :
    parseFrom (l, p) [] = none := by
  have still {q : Parser} (open_ : Open q) : parseTokens q [] = none := by
    obtain ⟨stack, mode⟩ := q
    cases mode with
    | done v => exact absurd rfl (open_.mode v)
    | opened | value | name | colon | after => rfl
  cases l with
  | str raw => rfl
  | escaped raw => rfl
  | word w =>
    rw [parseFrom, lex, wordEnd]
    split
    · exact still open_
    · cases spelled : word w.reverse with
      | none => rfl
      | some v =>
        cases step : p.step (.scalar v) with
        | none => simp [parseTokens, step]
        | some q => simp [parseTokens, step, still (step_scalar_open open_ step)]

/-- A text that starts with a bracket and ends with no space parses only as a whole. -/
theorem parse_cut {c : UInt8} {p s : List UInt8} (opens : c = 91 ∨ c = 123)
    (whole : parse (c :: p ++ s) ≠ none) (some_ : s ≠ [])
    (closes : isSpace (s.getLast some_) = false) : parse (c :: p) = none := by
  obtain ⟨next, either, start⟩ : ∃ next, OpenOrDone next.2 ∧ ∀ t, parse (c :: t) = parseFrom next t := by
    rcases opens with rfl | rfl
    · exact ⟨(.word [], ⟨[.items []], .opened⟩), Or.inl ⟨by simp, by simp⟩,
        parseFrom_cons (.word [], ⟨[], .value⟩) 91⟩
    · exact ⟨(.word [], ⟨[.members []], .opened⟩), Or.inl ⟨by simp, by simp⟩,
        parseFrom_cons (.word [], ⟨[], .value⟩) 123⟩
  have cut := parseFrom_append next p []
  rw [List.append_nil] at cut
  rw [start, cut]
  rw [List.cons_append, start, parseFrom_append] at whole
  cases fed : feed next p with
  | none => rfl
  | some now =>
    obtain ⟨l, q⟩ := now
    rw [fed, Option.bind_some] at whole
    rcases feed_either either fed with open_ | ⟨v, done⟩
    · exact parseTokens_open open_
    · exfalso
      subst done
      obtain ⟨ts, read⟩ : ∃ ts, lex l s = some ts := by
        cases read : lex l s with
        | none => exact absurd (by rw [parseFrom, read]; rfl) whole
        | some ts => exact ⟨ts, rfl⟩
      cases ts with
      | cons t ts =>
        refine whole ?_
        rw [parseFrom, read, Option.bind_some, parseTokens, step_done]
        rfl
      | nil =>
        have fresh : l = .word [] := by
          by_contra other
          exact lex_begun other s read
        subst fresh
        have space := lex_spaces read _ (List.getLast_mem some_)
        rw [closes] at space
        contradiction

/-- What is written for an object is read as that object, and no part of it from the front
    is read as anything. -/
theorem encode_cut (q : Quoting) {members : List (List UInt8 × Value)}
    (regular : Value.Regular (.obj members)) {p s : List UInt8}
    (split : encode q (.obj members) = p ++ s) (some_ : s ≠ []) : parse p = none := by
  have text : encode q (.obj members) =
      123 :: ((memberTokens true members).flatMap q.text ++ [125]) := by
    simp [encode, Value.tokens, Quoting.text]
  have whole : parse (p ++ s) ≠ none := by
    rw [← split, parse_encode q regular]
    simp
  cases p with
  | nil => rfl
  | cons c p =>
    have first : c = 123 := by
      rw [text, List.cons_append] at split
      exact (List.cons.inj split).1.symm
    have last : s.getLast some_ = 125 := by
      have ends := congrArg List.getLast? (text.symm.trans split)
      rw [← List.cons_append, List.getLast?_concat, List.getLast?_append,
        List.getLast?_eq_some_getLast some_] at ends
      exact (Option.some.inj ends).symm
    refine parse_cut (Or.inr first) whole some_ ?_
    rw [last]
    rfl

theorem lex_trailing {c : UInt8} (space : isSpace c = true) (s : List UInt8) (l : Lexer) :
    lex l (s ++ [c]) = lex l s := by
  induction s generalizing l with
  | nil =>
    cases l with
    | word w =>
      have byte : lexByte c (.word w) = (wordEnd w).map (·, .word []) := by
        rw [lexByte, if_pos space]
      have rest : lex (.word []) [] = some [] := rfl
      have last : lex (.word w) [] = wordEnd w := by rw [lex]
      rw [List.nil_append, last, lex.eq_def]
      cases ended : wordEnd w with
      | none => simp [byte, ended]
      | some ts => simp [byte, ended, rest]
    | str raw =>
      have stays : lex (.str raw) [c] = none := by
        rw [lex, lexByte]
        unfold isSpace at space
        grind [lex]
      rw [List.nil_append, stays, lex]
      exact fun w => by simp
    | escaped raw =>
      have stays : lex (.escaped raw) [c] = none := by
        rw [lex, lexByte]
        split
        · rfl
        · simp [lex]
      rw [List.nil_append, stays, lex]
      exact fun w => by simp
  | cons d s ih =>
    cases byte : lexByte d l with
    | none =>
      have stuck (t : List UInt8) : lex l (d :: t) = none := by
        rw [lex.eq_def]
        simp [byte]
      rw [List.cons_append, stuck, stuck]
    | some next => rw [List.cons_append, lex_step byte, lex_step byte, ih]

/-- A space at the end of a text changes nothing. -/
theorem parse_trailing {c : UInt8} (space : isSpace c = true) (s : List UInt8) :
    parse (s ++ [c]) = parse s := by
  rw [parse, tokens, lex_trailing space s]
  rfl

end Json
