import SwaDemo.DoubleWrap
import SwaDemo.EngineSteps
import SwaDemo.FailsClosed
import SwaDemo.Float64
import SwaDemo.ResolveRequest
import SwaDemo.TtlCountdown

/-!
What the trace tells of a JWT-SVID: the handler decodes the header and the claims of the token
(`parseJWTHeader`, `decodeJWTClaims` and `parseJWTType` of `apps/carrier/handler.go`), puts some
of them into `jwt_svid.issued`, and the page sets its countdown to two of them
(`useResolveEngine.ts`). The three functions decode the token on their own and fail on their own.
-/
namespace SwaSvid
open SwaTrace SwaWire Js
open SwaCarrier (SVID Codec HandlerDeps Served handleLookup headAndBody dot claim parseJWTType decodeJWTClaims
  ValidID shipmentID)
open SwaToken (unmarshal maxNestingDepth storeString)
open SwaChain (foldName)
open Json (Value Numeral readString)
open SwaBus.TraceBus (stamp)
open SwaFrames (rawEvent stringOfBytes)
open SwaPace (unwrap PaceEvent Host)
open SwaEngine (Engine)
open Float64 (nearest)

/-! ## The decoders -/

def storeField (field : GoString) (old : GoString) (m : GoString × Value) : Option GoString :=
  if foldName m.1 = foldName field then storeString old m.2 else some old

/-- The struct of `parseJWTHeader`. -/
def storeAlgKid (h : GoString × GoString) (m : GoString × Value) : Option (GoString × GoString) :=
  if foldName m.1 = foldName (goString "alg") then (storeString h.1 m.2).map fun s => (s, h.2)
  else if foldName m.1 = foldName (goString "kid") then (storeString h.2 m.2).map fun s => (h.1, s)
  else some h

def parseJWTHeader (token : GoString) : GoString × GoString :=
  let read := do
    let (header, _) ← headAndBody token
    let json ← Base64.rawURL.decode header
    unmarshal storeAlgKid ([], []) json
  read.getD ([], [])

mutual

def numerals : Value → List Numeral
  | .num n => [n]
  | .arr items => numeralsItems items
  | .obj members => numeralsMembers members
  | _ => []

def numeralsItems : List Value → List Numeral
  | [] => []
  | v :: vs => numerals v ++ numeralsItems vs

def numeralsMembers : List (GoString × Value) → List Numeral
  | [] => []
  | (_, v) :: ms => numerals v ++ numeralsMembers ms

end

section any
variable (ref : Value → Nat)

/-- A value that is decoded into an `any`. -/
def anyValue : Value → GoValue
  | .null => .nil
  | .bool b => .bool b
  | .num n => (nearest n.value).elim .nil .float
  | .str s => .str s
  | .arr items => .composite (ref (.arr items))
  | .obj members => .composite (ref (.obj members))

/-- `json.Unmarshal` into a `map[string]any`. A number that is too large, also one further
    down, is an error in the end. -/
def unmarshalMap (text : GoString) : Option Payload :=
  match Json.parseWithin maxNestingDepth text with
  | some .null => some []
  | some (.obj members) =>
    if ∀ n ∈ numeralsMembers members, (nearest n.value).isSome then
      some (members.reverse.map fun m => (readString m.1, anyValue ref m.2))
    else none
  | _ => none

/-- The packages as the handler uses them; it reads nothing but `typ` with this header. -/
def goHandlerCodec (encodeRow : Payload → GoString) : Codec where
  rawURLDecode := Base64.rawURL.decode
  unmarshalHeader json := (unmarshal (storeField (goString "typ")) [] json).map (⟨[], [], ·⟩)
  unmarshalClaims := unmarshalMap ref
  encodeRow := encodeRow

end any

/-- The handler as `main` builds it, where `algKid` stays nil and `parseJWTHeader` is taken. -/
def withHeader (d : HandlerDeps) : HandlerDeps := { d with algKid := some parseJWTHeader }

/-! ## Tokens -/

/-- A compact token. -/
def compact (header claims signature : GoString) : GoString :=
  Base64.rawURL.encode header ++ dot :: (Base64.rawURL.encode claims ++ dot :: signature)

theorem rawURL_dotless (bs : GoString) : ∀ c ∈ Base64.rawURL.encode bs, c ≠ dot := by
  intro c mem same
  subst same
  rcases Base64.Encoding.mem_encode.mp mem with ⟨n, digit, is⟩ | ⟨padding, _⟩
  · have known := Base64.Encoding.value_char (e := Base64.rawURL) (Base64.digits_small bs n digit)
    rw [is] at known
    have none_ : Base64.rawURL.value dot = none := by decide
    rw [none_] at known
    contradiction
  · contradiction

theorem headAndBody_compact (header claims signature : GoString) :
    headAndBody (compact header claims signature) =
      some (Base64.rawURL.encode header, Base64.rawURL.encode claims) := by
  rw [headAndBody, compact, SwaCarrier.splitOn_first (rawURL_dotless header),
    SwaCarrier.splitOn_first (rawURL_dotless claims)]

/-! ## What is decoded -/

/-- All members of this name are the string, which is empty where there is none. -/
structure Reads (field : GoString) (members : List (GoString × Value)) (s : GoString) : Prop where
  only : ∀ m ∈ members, foldName m.1 = foldName field → m.2 = .str s
  absent : (∀ m ∈ members, foldName m.1 ≠ foldName field) → s = []

theorem foldlM_storeField {field s : GoString} {members : List (GoString × Value)}
    (only : ∀ m ∈ members, foldName m.1 = foldName field → m.2 = .str s) (old : GoString) :
    members.foldlM (storeField field) old = some s ∨
      (members.foldlM (storeField field) old = some old ∧
        ∀ m ∈ members, foldName m.1 ≠ foldName field) := by
  induction members generalizing old with
  | nil => exact Or.inr ⟨rfl, by simp⟩
  | cons m ms ih =>
    obtain ⟨first, later⟩ := List.forall_mem_cons.mp only
    rw [List.foldlM_cons, List.forall_mem_cons]
    by_cases named : foldName m.1 = foldName field
    · left
      rcases ih later s with found | ⟨kept, _⟩
      · simp [storeField, named, first named, storeString, found]
      · simp [storeField, named, first named, storeString, kept]
    · simpa [storeField, named] using ih later old

theorem storeField_reads {field s : GoString} {members : List (GoString × Value)}
    (reads : Reads field members s) : members.foldlM (storeField field) [] = some s := by
  rcases foldlM_storeField reads.only [] with found | ⟨kept, none_⟩
  · exact found
  · rw [kept, reads.absent none_]

/-- The two fields are stored apart, and one that does not fit fails for both. -/
theorem foldlM_storeAlgKid (members : List (GoString × Value)) (alg kid : GoString) :
    members.foldlM storeAlgKid (alg, kid) =
      (members.foldlM (storeField (goString "alg")) alg).bind fun a =>
        (members.foldlM (storeField (goString "kid")) kid).map fun k => (a, k) := by
  have differ : foldName (goString "alg") ≠ foldName (goString "kid") := by decide
  induction members generalizing alg kid with
  | nil => rfl
  | cons m ms ih =>
    simp only [List.foldlM_cons]
    by_cases first : foldName m.1 = foldName (goString "alg")
    · have other : foldName m.1 ≠ foldName (goString "kid") := first ▸ differ
      cases stored : storeString alg m.2 with
      | none => simp [storeAlgKid, storeField, first, stored]
      | some s => simp [storeAlgKid, storeField, first, differ, stored, ih]
    · by_cases second : foldName m.1 = foldName (goString "kid")
      · cases stored : storeString kid m.2 with
        | none => cases ms.foldlM (storeField (goString "alg")) alg <;>
            simp [storeAlgKid, storeField, second, differ.symm, stored]
        | some s => simp [storeAlgKid, storeField, second, differ.symm, stored, ih]
      · simp [storeAlgKid, storeField, first, second, ih]

/-- The JOSE header of a token, with any other members. -/
structure Header (text alg kid typ : GoString) : Prop where
  object : ∃ members, Json.parse text = some (.obj members) ∧
    Json.depthMembers members < maxNestingDepth ∧ Reads (goString "alg") members alg ∧
    Reads (goString "kid") members kid ∧ Reads (goString "typ") members typ

section read
variable {ref : Value → Nat} {encodeRow : Payload → GoString} {alg kid typ header text signature : GoString}
  {members : List (GoString × Value)}

theorem header_read (of : Header header alg kid typ) :
    parseJWTHeader (compact header text signature) = (alg, kid) ∧
      parseJWTType (goHandlerCodec ref encodeRow) (compact header text signature) = typ := by
  obtain ⟨members, spells, shallow, isAlg, isKid, isTyp⟩ := of.object
  constructor
  · simp [parseJWTHeader, headAndBody_compact, Base64.Encoding.decode_encode, SwaToken.unmarshal_obj spells,
      shallow, foldlM_storeAlgKid, storeField_reads isAlg, storeField_reads isKid]
  · simp [parseJWTType, SwaCarrier.joseHeader, headAndBody_compact, goHandlerCodec,
      Base64.Encoding.decode_encode, SwaToken.unmarshal_obj spells, shallow, storeField_reads isTyp]

/-- Claims that `encoding/json` takes: not too deep, and no number too large. -/
structure Decodable (text : GoString) (members : List (GoString × Value)) : Prop where
  spells : Json.parse text = some (.obj members)
  shallow : Json.depthMembers members < maxNestingDepth
  sized : ∀ n ∈ numeralsMembers members, (nearest n.value).isSome

theorem readString_eq {s : GoString} {name : String} (some_ : name ≠ "") :
    readString s = name ↔ s = goString name := by
  constructor
  · rintro rfl
    by_cases valid : (String.fromUTF8? ⟨s.toArray⟩).isSome
    · have utf8 : Json.Utf8 s := by
        obtain ⟨t, is⟩ := Option.isSome_iff_exists.mp valid
        rw [String.fromUTF8?] at is
        split at is
        · rename_i good
          refine (Json.utf8_iff s).mpr ⟨String.ofByteArray ⟨s.toArray⟩ good, ?_⟩
          simp [Json.bytesOf]
        · contradiction
      exact (Json.bytesOf_readString utf8).symm
    · rw [Option.not_isSome_iff_eq_none] at valid
      exact absurd (by rw [readString, valid]; rfl) some_
  · rintro rfl
    exact Json.readString_bytesOf name

theorem lookup_named (f : Value → GoValue) (ms : List (GoString × Value)) {name : String}
    (some_ : name ≠ "") :
    (ms.map fun m => (readString m.1, f m.2)).lookup name = (ms.lookup (goString name)).map f := by
  induction ms with
  | nil => rfl
  | cons m ms ih =>
    rw [List.map_cons, List.lookup_cons, List.lookup_cons, ih]
    by_cases same : m.1 = goString name
    · have read := (readString_eq some_).mpr same
      rw [beq_iff_eq.mpr same.symm, beq_iff_eq.mpr read.symm]
      rfl
    · have read : ¬ readString m.1 = name := fun is => same ((readString_eq some_).mp is)
      rw [beq_eq_false_iff_ne.mpr (Ne.symm same), beq_eq_false_iff_ne.mpr (Ne.symm read)]

/-- A claim is the last member of exactly its name. -/
theorem claim_read (decodable : Decodable text members) {name : String} (some_ : name ≠ "") :
    claim (decodeJWTClaims (goHandlerCodec ref encodeRow) (compact header text signature)) name =
      ((member name members).map (anyValue ref)).getD .nil := by
  have read : decodeJWTClaims (goHandlerCodec ref encodeRow) (compact header text signature) =
      some (members.reverse.map fun m => (readString m.1, anyValue ref m.2)) := by
    simp only [decodeJWTClaims, headAndBody_compact, goHandlerCodec, Base64.Encoding.decode_encode,
      unmarshalMap, Json.parseWithin_obj decodable.spells, if_pos decodable.shallow,
      if_pos decodable.sized, Option.bind_some, Option.bind_eq_bind]
  rw [read, claim, Option.bind_some, lookup_named _ _ some_, member]

end read

/-! ## The event -/

def claimOf (ref : Value → Nat) (name : String) (members : List (GoString × Value)) : GoValue :=
  ((member name members).map (anyValue ref)).getD .nil

/-- The payload that tells of an SVID what its token says. -/
def issuedPayload (ref : Value → Nat) (svid : SVID) (alg kid typ : GoString)
    (members : List (GoString × Value)) : Payload := [
  ("aud", .str (goString "conjur")),
  ("exp", .int svid.expiry),
  ("spiffe_id", .str svid.id),
  ("alg", .str alg),
  ("kid", .str kid),
  ("iss", claimOf ref "iss" members),
  ("iat", claimOf ref "iat" members),
  ("jti", claimOf ref "jti" members),
  ("typ", .str typ),
  ("raw", .str svid.marshal)]

/-- The token of an SVID, whatever its signature. -/
structure Issued (svid : SVID) (alg kid typ : GoString) (members : List (GoString × Value)) : Prop where
  token : ∃ header text signature, svid.marshal = compact header text signature ∧
    Header header alg kid typ ∧ Decodable text members

/-- `iat` is a number, which a float holds rounded, or is left out. -/
def Dated (members : List (GoString × Value)) : Option ℚ → Prop
  | some iat => ∃ n, member "iat" members = some (.num n) ∧ nearest n.value = some iat
  | none => member "iat" members = none ∨ member "iat" members = some .null

section event
variable {ref : Value → Nat} {encodeRow : Payload → GoString} {fixtures : GoString → Option Payload}
  {d : HandlerDeps} {path : GoString} {svid : SVID} {alg kid typ : GoString}
  {members : List (GoString × Value)}

/-- The second event of a lookup that got an SVID tells the token's own header and claims. -/
theorem issued_event (valid : ValidID (shipmentID path)) (fetched : d.fetchJWTSVID = ⟨some svid, none⟩)
    (of : Issued svid alg kid typ members) :
    (handleLookup (goHandlerCodec ref encodeRow) fixtures (withHeader d) path).events[1]? =
      some (newEvent "carrier" "jwt_svid.issued" (issuedPayload ref svid alg kid typ members)) := by
  obtain ⟨header, text, signature, token, isHeader, decodable⟩ := of.token
  obtain ⟨algKid, isTyp⟩ := @header_read ref encodeRow _ _ _ _ text signature isHeader
  have iss := @claim_read ref encodeRow header _ signature _ decodable "iss" (by decide)
  have iat := @claim_read ref encodeRow header _ signature _ decodable "iat" (by decide)
  have jti := @claim_read ref encodeRow header _ signature _ decodable "jti" (by decide)
  have routed : ¬ (shipmentID path = [] ∨ SwaCarrier.slash ∈ shipmentID path) := by
    rintro (empty | nested)
    · exact valid.1 empty
    · exact valid.2 nested
  have shape : handleLookup (goHandlerCodec ref encodeRow) fixtures (withHeader d) path =
      SwaCarrier.emit "request.received" [("id", .str (shipmentID path))]
        (SwaCarrier.issued (goHandlerCodec ref encodeRow) fixtures (withHeader d) (shipmentID path) svid) := by
    have fetched' : (withHeader d).fetchJWTSVID = ⟨some svid, none⟩ := fetched
    rw [handleLookup]
    simp only [fetched']
    exact if_neg routed
  have keyed : (withHeader d).algKid = some parseJWTHeader := rfl
  rw [← token] at algKid isTyp iss iat jti
  rw [shape, SwaCarrier.issued, keyed, Option.getD_some, algKid, isTyp, iss, iat, jti]
  rfl

end event

/-! ## The page -/

section page
variable {Body : Type} {host : Host} {seen : PaceEvent} {iat : Option JsNumber} {exp : JsNumber}

/-- What the engine makes of the two times: it counts down to `exp`, unless there is no `iat`. -/
theorem countdown_set (number : ∀ n, host.number (.num n) = n)
    (type : seen.type = "jwt_svid.issued")
    (from_ : prop seen.payload "iat" = some (iat.elim .null .num))
    (until_ : prop seen.payload "exp" = some (.num exp)) (now : Int) (e : Engine Body) :
    (SwaEngine.Engine.onEvent host now seen e).ticker =
        iat.elim e.ticker (SwaTtl.setIssuedAndExp · exp) ∧
      (iat ≠ none →
        (SwaEngine.Engine.onEvent host now seen e).pending.jwtTtl = SwaTtl.left now exp) := by
  have plain : SwaEngine.isErrorEvent seen.type = false := by
    rw [type]
    decide
  have unseen : Engine.seePeerUri seen e = e := by
    rw [Engine.seePeerUri, if_neg]
    rw [type]
    decide
  have until' : Engine.present (prop seen.payload "exp") = some (.num exp) := by
    rw [until_]
    rfl
  -- the stage indicator moves on beside the ticker
  have apart (s : Engine Body) :
      (Engine.advanceStage (SwaEngine.eventToStage seen.type) s).ticker = s.ticker ∧
      (Engine.advanceStage (SwaEngine.eventToStage seen.type) s).pending.jwtTtl = s.pending.jwtTtl := by
    unfold Engine.advanceStage
    split
    · exact ⟨rfl, by rw [Engine.pending_queue]; rfl⟩
    · exact ⟨rfl, rfl⟩
  have event : (Engine.onEvent host now seen e).ticker = (Engine.seeJwt host now seen e).ticker ∧
      (Engine.onEvent host now seen e).pending.jwtTtl = (Engine.seeJwt host now seen e).pending.jwtTtl := by
    rw [Engine.onEvent, if_neg (by simp [plain]), unseen]
    split
    · exact apart _
    · exact ⟨rfl, rfl⟩
  rw [event.1, event.2, Engine.seeJwt, if_pos type, until']
  cases iat with
  | none =>
    have from' : Engine.present (prop seen.payload "iat") = none := by
      rw [from_]
      rfl
    rw [from']
    exact ⟨rfl, fun some_ => absurd rfl some_⟩
  | some t =>
    have from' : Engine.present (prop seen.payload "iat") = some (.num t) := by
      rw [from_]
      rfl
    have snapshot : SwaTtl.tick now (SwaTtl.setIssuedAndExp t exp) =
        some ⟨SwaTtl.left now exp, (SwaTtl.left now exp).div (SwaTtl.life t exp)⟩ :=
      SwaTtl.tick_eq_some.mpr ⟨_, _, rfl, rfl, rfl⟩
    rw [from']
    simp only [number]
    rw [Engine.tick, snapshot]
    refine ⟨rfl, fun _ => ?_⟩
    rw [Engine.pending_queue]
    rfl

end page

/-- For every lookup that gets an SVID, `jwt_svid.issued` tells the header and the claims of its
    token; and the event, written by the carrier, wrapped by the portal and unwrapped by the page,
    sets the countdown to the `iat` of the token and the expiry of the SVID, each as a float, or
    leaves it where the token has no `iat`. -/
theorem svid_reaches_page (browser : Browser) (atCarrier atPortal : Writer) (ref : Value → Nat)
    (encodeRow : Payload → GoString) (fixtures : GoString → Option Payload) (d : HandlerDeps)
    (path : GoString) (svid : SVID) (alg kid typ : GoString) (members : List (GoString × Value))
    (iat : Option ℚ) (number : ∀ n, browser.number (.num n) = n)
    (exact_ : ∀ t ∈ iat, nearest (atCarrier.float t).value = some t)
    (valid : ValidID (shipmentID path)) (fetched : d.fetchJWTSVID = ⟨some svid, none⟩)
    (of : Issued svid alg kid typ members) (dated : Dated members iat) :
    ∃ ev, (handleLookup (goHandlerCodec ref encodeRow) fixtures (withHeader d) path).events[1]? = some ev ∧
      ev = newEvent "carrier" "jwt_svid.issued" (issuedPayload ref svid alg kid typ members) ∧
      ∀ at_, ∃ seen, SurvivesAs atCarrier browser (stamp at_ ev) seen ∧
        (∀ now, unwrap browser.host (received browser.ref (atPortal.marshal (stamp now
          (rawEvent (stringOfBytes (atCarrier.marshal (stamp at_ ev))))))) = some seen) ∧
        ∀ (Body : Type) (now : Int) (e : Engine Body),
          (Engine.onEvent browser.host now seen e).ticker = iat.elim e.ticker (fun t =>
              SwaTtl.setIssuedAndExp (.fin t) (.nearest svid.expiry)) ∧
            (iat ≠ none → (Engine.onEvent browser.host now seen e).pending.jwtTtl =
              SwaTtl.left now (.nearest svid.expiry)) ∧
            (|svid.expiry| < 2 ^ 53 → JsNumber.nearest svid.expiry = .fin svid.expiry ∧
              SwaTtl.left now (.nearest svid.expiry) = .fin (max 0 (svid.expiry - now : ℚ))) := by
  have event := @issued_event ref encodeRow fixtures d path _ _ _ _ _ valid fetched of
  refine ⟨_, event, rfl, fun at_ => ?_⟩
  have shape : (stamp at_ (newEvent "carrier" "jwt_svid.issued"
      (issuedPayload ref svid alg kid typ members))).shape ∈ carrierShapes := by
    rw [shape_stamp]
    exact SwaCarrier.spoken_lookup _ fixtures (withHeader d) path _ (List.mem_of_getElem? event)
  obtain ⟨seen, as, arrives⟩ := wrapped_survives browser atCarrier atPortal shape
  refine ⟨seen, as, arrives, fun Body now e => ?_⟩
  have payload : (stamp at_ (newEvent "carrier" "jwt_svid.issued"
      (issuedPayload ref svid alg kid typ members))).payload =
        issuedPayload ref svid alg kid typ members := rfl
  have from_ : prop seen.payload "iat" = some ((iat.map JsNumber.fin).elim .null .num) := by
    rw [as.mirrors.values "iat", payload]
    have told : (issuedPayload ref svid alg kid typ members).lookup "iat" =
        some (claimOf ref "iat" members) := rfl
    rw [told, Option.map_some, claimOf]
    cases iat with
    | none => rcases dated with none_ | null <;> simp [*, anyValue, Writer.value, Value.respell, jsValue]
    | some t =>
      obtain ⟨n, claimed, held⟩ := dated
      simp [claimed, anyValue, held, Writer.value, Value.respell, jsValue, JsNumber.nearest,
        exact_ t rfl]
  have until_ : prop seen.payload "exp" = some (.num (.nearest svid.expiry)) := by
    rw [as.mirrors.values "exp", payload]
    have told : (issuedPayload ref svid alg kid typ members).lookup "exp" = some (.int svid.expiry) := rfl
    rw [told]
    simp [Writer.value, Value.respell, jsValue, Numeral.value_ofInt]
  obtain ⟨ticker, ttl⟩ := @countdown_set Body browser.host _ _ _ number as.mirrors.type from_ until_ now e
  refine ⟨?_, fun some_ => ttl (by simpa using some_), fun small => ?_⟩
  · rw [ticker]
    cases iat <;> rfl
  · have whole := JsNumber.nearest_intCast small
    exact ⟨whole, by rw [whole, SwaTtl.left_fin]⟩

/-- Numbers as the packages write and read them where they are integers. -/
def wholeWriter : Writer where
  time := sampleWriter.time
  float q := .ofInt ⌊q⌋
  nested := sampleWriter.nested
  float_regular q := Numeral.regular_ofInt ⌊q⌋
  nested_regular := sampleWriter.nested_regular

theorem wholeWriter_exact {n : Int} (small : |n| < 2 ^ 53) :
    nearest (wholeWriter.float n).value = some (n : ℚ) := by
  have floor : wholeWriter.float n = .ofInt ⌊(n : ℚ)⌋ := rfl
  rw [floor, Int.floor_intCast, Numeral.value_ofInt, Float64.nearest_intCast small]

def numberOf : JsValue → JsNumber
  | .num n => n
  | _ => .nan

def sampleHeader : GoString := goString "\x7b\"alg\":\"ES256\",\"kid\":\"k\",\"typ\":\"JWT\"\x7d"

def sampleClaims : GoString := goString "\x7b\"iat\":1748000000\x7d"

def sampleSvid : SVID where
  marshal := compact sampleHeader sampleClaims (goString "c2ln")
  expiry := 1748000300
  id := goString "spiffe://swa/carrier"

theorem sample_issued : Issued sampleSvid (goString "ES256") (goString "k") (goString "JWT")
    [(goString "iat", .num ⟨false, [1, 7, 4, 8, 0, 0, 0, 0, 0, 0], [], none⟩)] := by
  have names : foldName (goString "kid") ≠ foldName (goString "alg") ∧
      foldName (goString "typ") ≠ foldName (goString "alg") ∧
      foldName (goString "typ") ≠ foldName (goString "kid") := by decide
  refine ⟨sampleHeader, sampleClaims, goString "c2ln", rfl,
    ⟨[(goString "alg", .str (goString "ES256")), (goString "kid", .str (goString "k")),
      (goString "typ", .str (goString "JWT"))], rfl, by decide, ?_, ?_, ?_⟩,
    rfl, by decide, ?_⟩
  · exact ⟨by simp [names], by simp⟩
  · exact ⟨by simp [names, Ne.symm names.1], by simp⟩
  · exact ⟨by simp [Ne.symm names.2.1, Ne.symm names.2.2], by simp⟩
  · intro n mem
    have is : n = ⟨false, [1, 7, 4, 8, 0, 0, 0, 0, 0, 0], [], none⟩ := by
      simpa [numeralsMembers, numerals] using mem
    rw [is, Numeral.value_plain ⟨rfl, rfl⟩, Float64.nearest_intCast (by decide)]
    rfl

/-- A token of five minutes, and the countdown on the page. -/
theorem sample_svid_reaches_page :
    ∃ ev, (handleLookup (goHandlerCodec (fun _ => 0) fun _ => []) (fun _ => none)
        (withHeader ⟨⟨some sampleSvid, none⟩, SwaCarrier.sampleSm "tok-one" "apples", [], none⟩)
        (goString "/lookup/SHP-1")).events[1]? = some ev ∧
      ∃ seen, (∀ now, unwrap (Browser.host ⟨fun _ => 0, numberOf, fun _ => none⟩)
        (received (fun _ => 0) (wholeWriter.marshal (stamp now
          (rawEvent (stringOfBytes (wholeWriter.marshal (stamp 1 ev))))))) = some seen) ∧
        ∀ (now : Int) (e : Engine Unit),
          (Engine.onEvent (Browser.host ⟨fun _ => 0, numberOf, fun _ => none⟩) now seen e).ticker =
            SwaTtl.setIssuedAndExp (.fin 1748000000) (.fin 1748000300) := by
  have issuedAt : Numeral.value ⟨false, [1, 7, 4, 8, 0, 0, 0, 0, 0, 0], [], none⟩ = 1748000000 :=
    Numeral.value_plain ⟨rfl, rfl⟩
  have held : nearest 1748000000 = some 1748000000 := by
    exact_mod_cast @Float64.nearest_intCast 1748000000 (by decide)
  have written : nearest (wholeWriter.float 1748000000).value = some 1748000000 := by
    exact_mod_cast @wholeWriter_exact 1748000000 (by decide)
  obtain ⟨ev, second, _, arrives⟩ := svid_reaches_page ⟨fun _ => 0, numberOf, fun _ => none⟩
    wholeWriter wholeWriter (fun _ => 0) (fun _ => []) (fun _ => none)
    ⟨⟨some sampleSvid, none⟩, SwaCarrier.sampleSm "tok-one" "apples", [], none⟩
    (goString "/lookup/SHP-1") sampleSvid _ _ _ _ (some 1748000000) (fun _ => rfl)
    (fun t is => by cases is; exact written) ⟨by decide, by decide⟩ rfl sample_issued
    ⟨_, rfl, by rw [issuedAt, held]⟩
  obtain ⟨seen, _, unwraps, shown⟩ := arrives 1
  refine ⟨ev, second, seen, unwraps, fun now e => ?_⟩
  obtain ⟨ticker, _, whole⟩ := shown Unit now e
  obtain ⟨expiry, _⟩ := whole (by decide)
  rw [ticker, expiry]
  rfl

end SwaSvid
