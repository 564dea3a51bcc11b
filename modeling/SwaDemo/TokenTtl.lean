import SwaDemo.SecretsManager
import SwaDemo.Base64
import SwaDemo.JsonText

/-!
The lifetime that `AuthnJWT` reads from a token: `parseExpiresIn` over Go's `encoding/base64`
and `encoding/json`, for an envelope whose payload is encoded in one of three ways.
-/
namespace SwaToken
open SwaTrace SwaCarrier Json

/-! ## The two standard packages -/

/-- `maxNestingDepth` of `encoding/json` -/
def maxNestingDepth : Nat := 10000

def upper (c : UInt8) : UInt8 := if 97 ≤ c ∧ c ≤ 122 then c - 32 else c

/-- A member belongs to a field also where only the case differs; the letters of the fields
    here have no case beyond ASCII. -/
def Names (field name : GoString) : Prop := name.map upper = field.map upper

instance (field name : GoString) : Decidable (Names field name) :=
  inferInstanceAs (Decidable (_ = _))

/-- `strconv.ParseInt` with 64 bits reads the number. -/
def FitsInt64 (n : Numeral) : Prop :=
  n.Plain ∧ -0x8000000000000000 ≤ n.integer ∧ n.integer < 0x8000000000000000

instance (n : Numeral) : Decidable (FitsInt64 n) := inferInstanceAs (Decidable (_ ∧ _))

def storeInt64 (old : Int) : Value → Option Int
  | .null => some old
  | .num n => if FitsInt64 n then some n.integer else none
  | _ => none

def storeString (old : GoString) : Value → Option GoString
  | .null => some old
  | .str s => some s
  | _ => none

/-- Members are stored in their order. A value that does not fit is skipped, and the error
    comes in the end. -/
def unmarshal {α : Type} (store : α → GoString × Value → Option α) (zero : α) (text : List UInt8) :
    Option α :=
  match parseWithin maxNestingDepth text with
  | some .null => some zero
  | some (.obj members) => members.foldlM store zero
  | _ => none

def storePayload (payload : GoString) (m : GoString × Value) : Option GoString :=
  if Names (goString "payload") m.1 then storeString payload m.2 else some payload

def storeTimes (times : Int × Int) (m : GoString × Value) : Option (Int × Int) :=
  if Names (goString "iat") m.1 then (storeInt64 times.1 m.2).map (·, times.2)
  else if Names (goString "exp") m.1 then (storeInt64 times.2 m.2).map (times.1, ·)
  else some times

def goCodec : TokenCodec where
  stdDecode := Base64.std.decode
  rawURLDecode := Base64.rawURL.decode
  unmarshalEnvelope := unmarshal storePayload []
  unmarshalTimes := unmarshal storeTimes (0, 0)

/-! ## Tokens -/

inductive Variant where
  | unpadded
  | paddedURL
  | paddedStd
  deriving DecidableEq, Repr

def Variant.encoding : Variant → Base64.Encoding
  | .unpadded => Base64.rawURL
  | .paddedURL => Base64.url
  | .paddedStd => Base64.std

/-- An object of `protected`, `payload` and `signature`, in some order. -/
def Envelope (text payload : GoString) : Prop :=
  ∃ members header signature, Json.parse text = some (.obj members) ∧
    members.Perm [(goString "protected", .str header), (goString "payload", .str payload),
      (goString "signature", .str signature)]

/-- The one member with exactly this name is a number with this integer value. -/
def Stamped (members : List (GoString × Value)) (field : GoString) (time : Int) : Prop :=
  ∃ n, members.filter (·.1 = field) = [(field, .num n)] ∧ n.value = time

/-- A JSON object that is valid from `iat` to `exp`, with any other members. -/
structure Claims (text : GoString) (members : List (GoString × Value)) (iat exp : Int) : Prop where
  spells : Json.parse text = some (.obj members)
  issued : Stamped members (goString "iat") iat
  expires : Stamped members (goString "exp") exp
  ordered : iat < exp
  fits : exp - iat < 0x8000000000000000

/-- What goes into a field is null or a plain integer of 64 bits each time. -/
def Storable (field : GoString) (members : List (GoString × Value)) : Prop :=
  ∀ m ∈ members, Names field m.1 → m.2 = .null ∨ ∃ n, m.2 = .num n ∧ FitsInt64 n

def stamps (field : GoString) (members : List (GoString × Value)) : List Int :=
  members.filterMap fun m =>
    match decide (Names field m.1), m.2 with
    | true, .num n => some n.integer
    | _, _ => none

def lastStamp (field : GoString) (members : List (GoString × Value)) (zero : Int) : Int :=
  (stamps field members).getLastD zero

/-- A padded text in which the two alphabets differ: neither of the two decoders reads it. -/
def Unreadable (v : Variant) (payload : GoString) : Prop :=
  v = .paddedURL ∧ payload.length % 3 ≠ 0 ∧ ∃ n ∈ Base64.digits payload, 62 ≤ n

structure Recoverable (v : Variant) (text : GoString) (members : List (GoString × Value))
    (lifetime : Int) : Prop where
  readable : ¬ Unreadable v text
  shallow : depthMembers members < maxNestingDepth
  iat : Storable (goString "iat") members
  exp : Storable (goString "exp") members
  same : lastStamp (goString "exp") members 0 - lastStamp (goString "iat") members 0 = lifetime

/-! ## The payload's text -/

theorem payload_read (v : Variant) (payload : List UInt8) :
    ((Base64.rawURL.decode (v.encoding.encode payload)).or
      (Base64.std.decode (v.encoding.encode payload)) = some payload ∧ ¬ Unreadable v payload) ∨
    ((Base64.rawURL.decode (v.encoding.encode payload)).or
      (Base64.std.decode (v.encoding.encode payload)) = none ∧ Unreadable v payload) := by
  have raw := Base64.rawURL.decode_encode payload
  have std := Base64.std.decode_encode payload
  have foreign : Base64.rawURL.value Base64.std.char62 = none ∧
      Base64.rawURL.value Base64.std.char63 = none := by decide
  have foreign' : Base64.std.value Base64.url.char62 = none ∧
      Base64.std.value Base64.url.char63 = none := by decide
  by_cases whole : payload.length % 3 = 0
  · have fits (v : Variant) : ¬ Unreadable v payload := fun bad => bad.2.1 whole
    refine Or.inl ⟨?_, fits v⟩
    cases v with
    | unpadded => simp [Variant.encoding, raw]
    | paddedURL =>
      have same : Base64.url.encode payload = Base64.rawURL.encode payload :=
        Base64.Encoding.encode_congr (Or.inr whole) (Or.inr ⟨rfl, rfl⟩)
      simp [Variant.encoding, same, raw]
    | paddedStd =>
      by_cases special : ∃ n ∈ Base64.digits payload, 62 ≤ n
      · simp [Variant.encoding, Base64.Encoding.digit_foreign special foreign.1 foreign.2, std]
      · have small : ∀ n ∈ Base64.digits payload, n < 62 := by simpa using special
        have same : Base64.std.encode payload = Base64.rawURL.encode payload :=
          Base64.Encoding.encode_congr (Or.inr whole) (Or.inl small)
        simp [Variant.encoding, same, raw]
  · cases v with
    | unpadded =>
      refine Or.inl ⟨?_, fun bad => nomatch bad.1⟩
      simp [Variant.encoding, raw]
    | paddedURL =>
      have first : Base64.rawURL.decode (Base64.url.encode payload) = none :=
        Base64.url.padding_foreign rfl rfl whole
      by_cases special : ∃ n ∈ Base64.digits payload, 62 ≤ n
      · refine Or.inr ⟨?_, rfl, whole, special⟩
        simp [Variant.encoding, first, Base64.Encoding.digit_foreign special foreign'.1 foreign'.2]
      · have small : ∀ n ∈ Base64.digits payload, n < 62 := by simpa using special
        have same : Base64.url.encode payload = Base64.std.encode payload :=
          Base64.Encoding.encode_congr (Or.inl rfl) (Or.inl small)
        refine Or.inl ⟨?_, fun bad => special bad.2.2⟩
        rw [Variant.encoding, first, same, std]
        rfl
    | paddedStd =>
      have first : Base64.rawURL.decode (Base64.std.encode payload) = none :=
        Base64.std.padding_foreign rfl rfl whole
      refine Or.inl ⟨?_, fun bad => nomatch bad.1⟩
      simp [Variant.encoding, first, std]

/-! ## The members -/

theorem storable_cons {field : GoString} {m : GoString × Value} {ms : List (GoString × Value)} :
    Storable field (m :: ms) ↔
      (Names field m.1 → m.2 = .null ∨ ∃ n, m.2 = .num n ∧ FitsInt64 n) ∧ Storable field ms :=
  List.forall_mem_cons

theorem lastStamp_other {field : GoString} {m : GoString × Value} {ms : List (GoString × Value)}
    {zero : Int} (other : ¬ Names field m.1) :
    lastStamp field (m :: ms) zero = lastStamp field ms zero := by
  simp [lastStamp, stamps, other]

theorem storeInt64_spec {field : GoString} {m : GoString × Value} (named : Names field m.1)
    (ms : List (GoString × Value)) (zero : Int) :
    (∃ time, storeInt64 zero m.2 = some time ∧
      lastStamp field (m :: ms) zero = lastStamp field ms time ∧
      (Storable field (m :: ms) ↔ Storable field ms)) ∨
    (storeInt64 zero m.2 = none ∧ ¬ Storable field (m :: ms)) := by
  rw [storable_cons]
  obtain ⟨name, value⟩ := m
  cases value with
  | null => exact Or.inl ⟨zero, rfl, by simp [lastStamp, stamps], by simp⟩
  | num n =>
    by_cases fits : FitsInt64 n
    · refine Or.inl ⟨n.integer, by simp [storeInt64, fits], ?_, by simp [fits]⟩
      have first : stamps field ((name, .num n) :: ms) = n.integer :: stamps field ms := by
        simp [stamps, show Names field name from named]
      rw [lastStamp, first, List.getLastD_cons, lastStamp]
    · refine Or.inr ⟨by simp [storeInt64, fits], fun ok => ?_⟩
      simpa [fits] using ok.1 named
  | bool b => exact Or.inr ⟨rfl, fun ok => by simpa using ok.1 named⟩
  | str s => exact Or.inr ⟨rfl, fun ok => by simpa using ok.1 named⟩
  | arr items => exact Or.inr ⟨rfl, fun ok => by simpa using ok.1 named⟩
  | obj members => exact Or.inr ⟨rfl, fun ok => by simpa using ok.1 named⟩

theorem fields_differ {name : GoString} (iat : Names (goString "iat") name) :
    ¬ Names (goString "exp") name := by
  intro exp
  have same : (goString "iat").map upper = (goString "exp").map upper := iat.symm.trans exp
  revert same
  decide

theorem foldlM_storeTimes (members : List (GoString × Value)) (times : Int × Int) :
    (members.foldlM storeTimes times = some (lastStamp (goString "iat") members times.1,
        lastStamp (goString "exp") members times.2) ∧
      Storable (goString "iat") members ∧ Storable (goString "exp") members) ∨
    (members.foldlM storeTimes times = none ∧
      ¬ (Storable (goString "iat") members ∧ Storable (goString "exp") members)) := by
  induction members generalizing times with
  | nil => exact Or.inl ⟨rfl, by simp [Storable]⟩
  | cons m ms ih =>
    have skip {field : GoString} (other : ¬ Names field m.1) :
        Storable field (m :: ms) ↔ Storable field ms := by
      rw [storable_cons]
      exact ⟨And.right, fun rest => ⟨fun named => absurd named other, rest⟩⟩
    rw [List.foldlM_cons]
    by_cases iat : Names (goString "iat") m.1
    · have exp := fields_differ iat
      rw [skip exp, lastStamp_other exp]
      rcases storeInt64_spec iat ms times.1 with
        ⟨time, stored, last, ok⟩ | ⟨failed, bad⟩
      · rw [ok, last]
        simpa [storeTimes, iat, stored] using ih (time, times.2)
      · refine Or.inr ⟨?_, fun both => bad both.1⟩
        simp [storeTimes, iat, failed]
    · rw [skip iat, lastStamp_other iat]
      by_cases exp : Names (goString "exp") m.1
      · rcases storeInt64_spec exp ms times.2 with
          ⟨time, stored, last, ok⟩ | ⟨failed, bad⟩
        · rw [ok, last]
          simpa [storeTimes, iat, exp, stored] using ih (times.1, time)
        · refine Or.inr ⟨?_, fun both => bad both.2⟩
          simp [storeTimes, iat, exp, failed]
      · rw [skip exp, lastStamp_other exp]
        simpa [storeTimes, iat, exp] using ih times

theorem unmarshal_obj {α : Type} {store : α → GoString × Value → Option α} {zero : α}
    {text : GoString} {members : List (GoString × Value)}
    (spells : Json.parse text = some (.obj members)) :
    unmarshal store zero text =
      if depthMembers members < maxNestingDepth then members.foldlM store zero else none := by
  rw [unmarshal, parseWithin_obj spells]
  by_cases shallow : depthMembers members < maxNestingDepth
  · simp only [shallow, if_true]
  · simp only [shallow, if_false]

/-- The claims of a payload: the last stamps, unless `encoding/json` has an error. -/
theorem unmarshalTimes_claims {text : GoString} {members : List (GoString × Value)}
    (spells : Json.parse text = some (.obj members)) :
    (unmarshal storeTimes (0, 0) text = some (lastStamp (goString "iat") members 0,
        lastStamp (goString "exp") members 0) ∧ depthMembers members < maxNestingDepth ∧
      Storable (goString "iat") members ∧ Storable (goString "exp") members) ∨
    (unmarshal storeTimes (0, 0) text = none ∧ ¬ (depthMembers members < maxNestingDepth ∧
      Storable (goString "iat") members ∧ Storable (goString "exp") members)) := by
  rw [unmarshal_obj spells]
  by_cases shallow : depthMembers members < maxNestingDepth
  · simpa [shallow] using foldlM_storeTimes members (0, 0)
  · exact Or.inr ⟨by simp [shallow], fun ok => shallow ok.1⟩

theorem foldlM_storePayload {members : List (GoString × Value)} {payload : GoString}
    (only : ∀ m ∈ members, Names (goString "payload") m.1 → m.2 = .str payload) (old : GoString) :
    members.foldlM storePayload old = some payload ∨
      (members.foldlM storePayload old = some old ∧
        ∀ m ∈ members, ¬ Names (goString "payload") m.1) := by
  induction members generalizing old with
  | nil => exact Or.inr ⟨rfl, by simp⟩
  | cons m ms ih =>
    obtain ⟨first, later⟩ := List.forall_mem_cons.mp only
    rw [List.foldlM_cons, List.forall_mem_cons]
    by_cases named : Names (goString "payload") m.1
    · left
      rcases ih later payload with found | ⟨kept, _⟩
      · simp [storePayload, named, first named, storeString, found]
      · simp [storePayload, named, first named, storeString, kept]
    · simpa [storePayload, named] using ih later old

theorem unmarshal_envelope {text payload : GoString} (envelope : Envelope text payload) :
    unmarshal storePayload [] text = some payload := by
  obtain ⟨members, header, signature, spells, order⟩ := envelope
  have flat : depthMembers members ≤ 0 := by
    refine depthMembers_le.mpr fun m mem => ?_
    have cases := order.mem_iff.mp mem
    simp only [List.mem_cons, List.not_mem_nil, or_false] at cases
    rcases cases with rfl | rfl | rfl <;> exact Nat.le_refl 0
  have others : ¬ Names (goString "payload") (goString "protected") ∧
      ¬ Names (goString "payload") (goString "signature") := by decide
  have only : ∀ m ∈ members, Names (goString "payload") m.1 → m.2 = .str payload := by
    intro m mem named
    have cases := order.mem_iff.mp mem
    simp only [List.mem_cons, List.not_mem_nil, or_false] at cases
    rcases cases with rfl | rfl | rfl
    · exact absurd named others.1
    · rfl
    · exact absurd named others.2
  have there : (goString "payload", .str payload) ∈ members := order.mem_iff.mpr (by simp)
  rw [unmarshal_obj spells, if_pos (Nat.lt_of_le_of_lt flat (by decide))]
  rcases foldlM_storePayload only [] with found | ⟨_, missing⟩
  · exact found
  · exact absurd rfl (missing _ there)

theorem int64_lifetime {d lifetime : Int} (later : 0 < d) (bound : d < 0x10000000000000000)
    (fits : lifetime < 0x8000000000000000) (positive : 0 < lifetime) :
    int64 d = lifetime ↔ d = lifetime := by
  unfold int64
  rw [Int.bmod_def]
  omega

theorem lastStamp_bounds {field : GoString} {members : List (GoString × Value)}
    (ok : Storable field members) :
    -0x8000000000000000 ≤ lastStamp field members 0 ∧
      lastStamp field members 0 < 0x8000000000000000 := by
  have bounded : ∀ time ∈ stamps field members,
      -0x8000000000000000 ≤ time ∧ time < 0x8000000000000000 := by
    intro time mem
    obtain ⟨⟨name, value⟩, there, eq⟩ := List.mem_filterMap.mp mem
    split at eq
    · rename_i named number
      rcases ok _ there (of_decide_eq_true named) with null | ⟨n, same, fits⟩
      · rw [number] at null
        cases null
      · rw [number] at same
        cases same
        cases eq
        exact fits.2
    · cases eq
  have last : lastStamp field members 0 ∈ 0 :: stamps field members := List.getLastD_mem_cons
  rcases List.mem_cons.mp last with zero | mem
  · rw [zero]
    decide
  · exact bounded _ mem

theorem parseExpiresIn_token {v : Variant} {envelope text : GoString}
    {members : List (GoString × Value)} {iat exp : Int} (claims : Claims text members iat exp)
    (wraps : Envelope envelope (v.encoding.encode text)) :
    parseExpiresIn goCodec (Base64.std.encode envelope) = exp - iat ↔
      Recoverable v text members (exp - iat) := by
  have later := claims.ordered
  have fits := claims.fits
  have nonempty : text ≠ [] := by
    rintro rfl
    cases parse_nil.symm.trans claims.spells
  have opened : (goCodec.stdDecode (Base64.std.encode envelope)).bind goCodec.unmarshalEnvelope =
      some (v.encoding.encode text) := by
    have text : goCodec.stdDecode (Base64.std.encode envelope) = some envelope :=
      Base64.std.decode_encode envelope
    rw [text]
    exact unmarshal_envelope wraps
  rw [parseExpiresIn, opened]
  simp only [if_neg (Base64.Encoding.encode_ne_nil nonempty)]
  rcases payload_read v text with ⟨read, readable⟩ | ⟨refused, bad⟩
  · have payload : (goCodec.rawURLDecode (v.encoding.encode text)).or
        (goCodec.stdDecode (v.encoding.encode text)) = some text := read
    rw [payload, Option.bind_some]
    rcases unmarshalTimes_claims claims.spells with ⟨stored, shallow, issued, expires⟩ | ⟨failed, bad⟩
    · have times : goCodec.unmarshalTimes text = some (lastStamp (goString "iat") members 0,
          lastStamp (goString "exp") members 0) := stored
      have low := lastStamp_bounds issued
      have high := lastStamp_bounds expires
      have whole : Recoverable v text members (exp - iat) ↔
          lastStamp (goString "exp") members 0 - lastStamp (goString "iat") members 0 = exp - iat :=
        ⟨fun r => r.same, fun same => ⟨readable, shallow, issued, expires, same⟩⟩
      rw [times, whole]
      by_cases order : lastStamp (goString "exp") members 0 ≤ lastStamp (goString "iat") members 0
      · simp only [if_pos order]
        omega
      · simp only [if_neg order]
        exact int64_lifetime (by omega) (by omega) fits (by omega)
    · have none : goCodec.unmarshalTimes text = none := failed
      rw [none]
      refine ⟨fun zero => ?_, fun r => absurd ⟨r.shallow, r.iat, r.exp⟩ bad⟩
      have zero : (0 : Int) = exp - iat := zero
      omega
  · have payload : (goCodec.rawURLDecode (v.encoding.encode text)).or
        (goCodec.stdDecode (v.encoding.encode text)) = none := refused
    rw [payload]
    refine ⟨fun zero => ?_, fun r => absurd bad r.readable⟩
    have zero : (0 : Int) = exp - iat := zero
    omega

def answering (token : GoString) : SMClient :=
  ⟨goString "https://sm", ⟨fun _ _ => none, fun _ => .ok ⟨200, [], token⟩⟩, goCodec⟩

theorem answering_answered (token jwtSVID : GoString) :
    (answering token).Answered ((answering token).authnRequest jwtSVID) token :=
  ⟨rfl, ⟨200, [], token⟩, rfl, rfl, rfl⟩

/-- `AuthnJWT` reports the lifetime of the token that it was answered with exactly if a decoder
    reads the payload and `encoding/json` keeps the two members. -/
theorem token_ttl_recovered {client : SMClient} (codec : client.codec = goCodec)
    {jwtSVID envelope text : GoString} {v : Variant} {members : List (GoString × Value)}
    {iat exp : Int} (claims : Claims text members iat exp)
    (wraps : Envelope envelope (v.encoding.encode text))
    (answered : client.Answered (client.authnRequest jwtSVID) (Base64.std.encode envelope)) :
    (client.authnJWT jwtSVID).info.map (·.tokenTTLSeconds) = some (exp - iat) ↔
      Recoverable v text members (exp - iat) := by
  obtain ⟨built, reply, sent, status, body⟩ := answered
  have request : client.http.newRequest (goString "POST") client.authnURL = none := built
  have token : Base64.std.encode envelope ≠ [] := by
    refine Base64.Encoding.encode_ne_nil ?_
    rintro rfl
    obtain ⟨_, _, _, spells, _⟩ := wraps
    cases parse_nil.symm.trans spells
  have length : ¬ (Base64.std.encode envelope).length = 0 := by
    rwa [List.length_eq_zero_iff]
  rw [← parseExpiresIn_token claims wraps, SMClient.authnJWT, request]
  simp only [sent, status, body, codec, if_neg length]
  simp

/-- Claims of eight minutes, and a member with two question marks: the second one is written
    with the last letter of the alphabet. -/
def eightMinutes : GoString :=
  goString "\x7b\"iat\":1748000000,\"exp\":1748000480,\"q\":\"??\"\x7d"

def eightMinutesMembers : List (GoString × Value) :=
  [(goString "iat", .num ⟨false, [1, 7, 4, 8, 0, 0, 0, 0, 0, 0], [], none⟩),
    (goString "exp", .num ⟨false, [1, 7, 4, 8, 0, 0, 0, 4, 8, 0], [], none⟩),
    (goString "q", .str (goString "??"))]

theorem eightMinutes_claims : Claims eightMinutes eightMinutesMembers 1748000000 1748000480 := by
  refine ⟨rfl, ⟨⟨false, [1, 7, 4, 8, 0, 0, 0, 0, 0, 0], [], none⟩, rfl, ?_⟩,
    ⟨⟨false, [1, 7, 4, 8, 0, 0, 0, 4, 8, 0], [], none⟩, rfl, ?_⟩, by decide, by decide⟩
  · rw [Numeral.value_plain ⟨rfl, rfl⟩]
    rfl
  · rw [Numeral.value_plain ⟨rfl, rfl⟩]
    rfl

def envelopeOf (payload : GoString) : GoString :=
  goString "\x7b\"protected\":\"hdr\",\"payload\":\"" ++ payload ++
    goString "\",\"signature\":\"sig\"\x7d"

def envelopeMembers (payload : GoString) : List (GoString × Value) :=
  [(goString "protected", .str (goString "hdr")), (goString "payload", .str payload),
    (goString "signature", .str (goString "sig"))]

set_option maxRecDepth 4000 in
theorem envelopeOf_wraps {v : Variant} (known : v ≠ .paddedStd) :
    Envelope (envelopeOf (v.encoding.encode eightMinutes)) (v.encoding.encode eightMinutes) := by
  refine ⟨envelopeMembers (v.encoding.encode eightMinutes), goString "hdr", goString "sig", ?_,
    List.Perm.refl _⟩
  cases v with
  | unpadded => rfl
  | paddedURL => rfl
  | paddedStd => exact absurd rfl known

theorem eightMinutes_storable (field : GoString) (other : ¬ Names field (goString "q")) :
    Storable field eightMinutesMembers := by
  have fits : FitsInt64 ⟨false, [1, 7, 4, 8, 0, 0, 0, 0, 0, 0], [], none⟩ ∧
      FitsInt64 ⟨false, [1, 7, 4, 8, 0, 0, 0, 4, 8, 0], [], none⟩ := by decide
  refine storable_cons.mpr ⟨fun _ => Or.inr ⟨_, rfl, fits.1⟩, storable_cons.mpr
    ⟨fun _ => Or.inr ⟨_, rfl, fits.2⟩, storable_cons.mpr ⟨fun named => absurd named other, ?_⟩⟩⟩
  simp [Storable]

theorem unpadded_token_ttl :
    ((answering (Base64.std.encode (envelopeOf (Base64.rawURL.encode eightMinutes)))).authnJWT
      (goString "e30.e30.c2ln")).info.map (·.tokenTTLSeconds) = some (1748000480 - 1748000000) :=
  (token_ttl_recovered rfl eightMinutes_claims (envelopeOf_wraps (v := .unpadded) (by decide))
    (answering_answered _ _)).mpr
    ⟨fun bad => (nomatch bad.1), by decide, eightMinutes_storable _ (by decide),
      eightMinutes_storable _ (by decide), by decide⟩

/-- Padded, and with a letter on which the alphabets differ, the same payload is not read. -/
theorem padded_payload_unread :
    ¬ ∀ (client : SMClient) (jwtSVID envelope text : GoString) (v : Variant)
      (members : List (GoString × Value)) (iat exp : Int), client.codec = goCodec →
      Claims text members iat exp → Envelope envelope (v.encoding.encode text) →
      client.Answered (client.authnRequest jwtSVID) (Base64.std.encode envelope) →
      (client.authnJWT jwtSVID).info.map (·.tokenTTLSeconds) = some (exp - iat) := by
  intro always
  have ttl := always _ (goString "e30.e30.c2ln") _ _ .paddedURL _ _ _ rfl eightMinutes_claims
    (envelopeOf_wraps (by decide)) (answering_answered _ _)
  have unread : ((answering (Base64.std.encode (envelopeOf
      (Variant.paddedURL.encoding.encode eightMinutes)))).authnJWT
      (goString "e30.e30.c2ln")).info.map (·.tokenTTLSeconds) = some 0 := by decide +kernel
  rw [unread] at ttl
  revert ttl
  decide

end SwaToken
