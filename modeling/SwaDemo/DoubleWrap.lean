import SwaDemo.TraceWire
import SwaDemo.ReadBoundaries
import SwaDemo.SplitterLaws
import SwaDemo.TraceVocabulary

/-!
A carrier event on its way through the portal: the carrier's JSON is the string `frame` of a
`carrier.event.raw` (`streamCarrierTrace`), the portal's JSON holds that string, and the page
parses twice (`push`). The portal builds its string byte by byte (`string(s[i])`), so what
reaches the page is the event with the bytes beyond ASCII of its strings recoded.
-/
namespace SwaWire
open SwaTrace Js SwaFrames
open Json (Quoting Value Letter Spelled Form Utf8 Token repair bytesOf readString)
open SwaPace (PaceEvent Host unwrap)
open SwaBus.TraceBus (stamp)

/-! ## Recoding -/

theorem stringOfBytes_small {s : Bytes} (small : ∀ b ∈ s, b < 128) : stringOfBytes s = s :=
  stringOfBytes_ascii.mpr fun b mem => UInt8.lt_iff_toNat_lt.mp (small b mem)

theorem form_recoded {b : UInt8} (high : 128 ≤ b) :
    ∃ a c, stringOfByte b = [a, c] ∧ Form [a, c] := by
  have size := b.toNat_lt
  have above : 128 ≤ b.toNat := UInt8.le_iff_toNat_le.mp high
  have lead := Json.byte_bounds 194 223 (n := 192 + b.toNat / 64) (by omega) (by omega) (by decide)
  have tails : Json.tail (UInt8.ofNat (b.toNat % 64 + 128)) = true := Json.tail_ofNat (by omega)
  rw [Nat.add_comm] at tails
  exact ⟨_, _, by rw [stringOfByte, if_neg (by omega)], .two lead tails⟩

theorem spelled_high {w : Bytes} (high : ∀ b ∈ w, 128 ≤ b) :
    Spelled (stringOfBytes w) (stringOfBytes w) := by
  induction w with
  | nil => exact .nil
  | cons b w ih =>
    obtain ⟨a, c, two, form⟩ := form_recoded (high b (by simp))
    have cons : stringOfBytes (b :: w) = [a, c] ++ stringOfBytes w := by
      rw [← two]
      rfl
    rw [cons]
    exact .cons (Json.letter_form form (by simp)) (ih fun d mem => high d (by simp [mem]))

theorem letter_recoded {a b : Bytes} (letter : Letter a b) : ∃ t, Spelled (stringOfBytes a) t := by
  cases letter with
  | @plain c w form printable quote backslash =>
    by_cases long : w = []
    · subst long
      have small : ∀ d ∈ [c], d < 128 := by
        cases form with
        | ascii small => simpa using small
      rw [stringOfBytes_small small]
      exact ⟨_, Json.spelled_one (.plain form printable quote backslash)⟩
    · exact ⟨_, spelled_high (Json.form_high form long)⟩
  | @short c d stands =>
    have small := (Json.escape_letter stands).2.1
    rw [stringOfBytes_small (by grind)]
    exact ⟨_, Json.spelled_one (.short stands)⟩
  | @unit w x y z a b c d first second third fourth alone =>
    have := Json.hexValue_digit first
    have := Json.hexValue_digit second
    have := Json.hexValue_digit third
    have := Json.hexValue_digit fourth
    rw [stringOfBytes_small (by grind)]
    exact ⟨_, Json.spelled_one (.unit first second third fourth alone)⟩

theorem spelled_append {s t u v : Bytes} (first : Spelled s t) (second : Spelled u v) :
    Spelled (s ++ u) (t ++ v) := by
  induction first with
  | nil => exact second
  | cons letter rest ih =>
    rw [List.append_assoc, List.append_assoc]
    exact .cons letter ih

theorem spelled_recoded {w s : Bytes} (spelled : Spelled w s) : ∃ t, Spelled (stringOfBytes w) t := by
  induction spelled with
  | nil => exact ⟨[], .nil⟩
  | cons letter rest ih =>
    obtain ⟨t, first⟩ := letter_recoded letter
    obtain ⟨u, later⟩ := ih
    rw [stringOfBytes_append]
    exact ⟨t ++ u, spelled_append first later⟩

/-- The quoting of an encoder whose output is recoded. -/
def recoded (q : Quoting) : Quoting where
  quote s := stringOfBytes (q.quote s)
  meaning s := (Json.unquote (stringOfBytes (q.quote s))).getD []
  spelled s := by
    obtain ⟨t, spelled⟩ := spelled_recoded (q.spelled s)
    rw [Json.unquote_spelled spelled]
    exact spelled

theorem recoded_small {q : Quoting} {s : Bytes} (small : ∀ b ∈ q.quote s, b < 128) :
    (recoded q).meaning s = q.meaning s := by
  have same : (recoded q).meaning s = (Json.unquote (stringOfBytes (q.quote s))).getD [] := rfl
  rw [same, stringOfBytes_small small, Json.unquote_spelled (q.spelled s)]
  rfl

theorem text_recoded (q : Quoting) {t : Token} (written : ∀ v, t = .scalar v → Json.Written v) :
    stringOfBytes (q.text t) = (recoded q).text t := by
  cases t with
  | scalar v => exact stringOfBytes_small (written v rfl).ascii
  | str s =>
    have quote (rest : Bytes) : stringOfBytes (34 :: rest) = 34 :: stringOfBytes rest := rfl
    have split : q.text (.str s) = 34 :: (q.quote s ++ [34]) := rfl
    rw [split, quote, stringOfBytes_append]
    rfl
  | openArr | closeArr | openObj | closeObj | comma | colon => rfl

/-- What the portal makes of a text is the text of the same value in the other quoting. -/
theorem encode_recoded (q : Quoting) {v : Value} (regular : v.Regular) :
    stringOfBytes (Json.encode q v) = Json.encode (recoded q) v := by
  have each : ∀ t ∈ v.tokens, stringOfBytes (q.text t) = (recoded q).text t := by
    intro t mem
    refine text_recoded q fun u same => ?_
    subst same
    exact Json.separated_written (Json.separated_value regular) mem
  rw [Json.encode, Json.encode, stringOfBytes, List.flatMap_assoc]
  exact congrArg List.flatten (List.map_congr_left each)

theorem utf8_stringOfBytes (s : Bytes) : Utf8 (stringOfBytes s) := by
  induction s with
  | nil => exact .nil
  | cons b s ih =>
    have cons : stringOfBytes (b :: s) = stringOfByte b ++ stringOfBytes s := rfl
    rw [cons]
    refine Json.utf8_append ?_ ih
    by_cases small : b < 128
    · have same : stringOfBytes [b] = [b] := stringOfBytes_small (by simpa using small)
      have single : stringOfByte b = [b] := by simpa [stringOfBytes] using same
      rw [single]
      exact .cons (.ascii small) .nil
    · obtain ⟨a, c, two, form⟩ := form_recoded (UInt8.not_lt.mp small)
      rw [two]
      exact .cons form .nil

/-! ## One event -/

/-- What the code of the carrier writes itself into an event is in ASCII. -/
structure PlainNames (ev : TraceEvent) : Prop where
  distinct : Distinct ev
  type : ∀ b ∈ goString ev.type, b < 128
  keys : ∀ m ∈ ev.payload, ∀ b ∈ goString m.1, b < 128

theorem quote_small {s : Bytes} (small : ∀ b ∈ s, b < 128) : ∀ b ∈ Json.goQuote 0 s, b < 128 := by
  induction s with
  | nil => simp [Json.goQuote]
  | cons c s ih =>
    have first : c < 128 := small c (by simp)
    have form : Form (c :: []) := .ascii first
    have one : Json.runeTail (c :: s) = some 0 := Json.form_runeTail form s
    have letter : Json.goQuote 0 (c :: s) = Json.asciiLetter [60, 62, 38] c ++ Json.goQuote 0 s := by
      rw [Json.goQuote.eq_def]
      split
      · contradiction
      · contradiction
      · rename_i same
        cases same
        exact absurd first (by decide)
      · rename_i same
        cases same
        exact absurd first (by decide)
      · rename_i same
        cases same
        simp only [one]
    have each : ∀ n < 128, ∀ b ∈ Json.asciiLetter [60, 62, 38] (UInt8.ofNat n), b < 128 := by
      decide +kernel
    intro b mem
    rw [letter] at mem
    rcases List.mem_append.mp mem with inside | later
    · have value := each c.toNat (UInt8.lt_iff_toNat_lt.mp first) b
      rw [UInt8.ofNat_toNat] at value
      exact value inside
    · exact ih (fun d mem => small d (by simp [mem])) b later

theorem recoded_ascii {s : Bytes} (small : ∀ b ∈ s, b < 128) :
    (recoded Json.goQuoting).meaning s = s := by
  rw [recoded_small (quote_small small)]
  exact Json.repair_utf8 (Json.utf8_ascii small)

/-- The text of a carrier event, as the portal makes a string of it, is still an event. -/
theorem recoded_parsed (w : Writer) (ref : Value → Nat) {ev : TraceEvent} (plain : PlainNames ev) :
    ∃ seen, parseMessage ref (stringOfBytes (w.marshal ev)) = some (some seen) ∧
      Mirrors w ref (recoded Json.goQuoting).meaning ev seen := by
  have fields : ∀ name ∈ ["ts", "source", "type", "payload"], ∀ b ∈ goString name, b < 128 := by
    decide +kernel
  obtain ⟨seen, parsed, mirrors⟩ := @paceEvent_event w ref _ _ plain.distinct
    (fun name mem => recoded_ascii (fields name mem)) (recoded_ascii plain.type)
    (fun m mem => recoded_ascii (plain.keys m mem))
  have regular := w.regular_event ev
  refine ⟨seen, ?_, mirrors⟩
  rw [parseMessage, Writer.marshal, encode_recoded Json.goQuoting regular,
    Json.parse_encode _ regular, Option.map_some, parsed]

/-- A forwarded string, as it is pushed and before it is unwrapped. -/
structure Wraps (browser : Browser) (frame : GoString) (outer : PaceEvent) : Prop where
  type : outer.type = "carrier.event.raw"
  held : prop outer.payload "frame" = some (.str (readString frame))
  truthy : (JsValue.str (readString frame)).truthy = true
  parse : browser.host.parseFrame (.str (readString frame)) = parseMessage browser.ref frame

theorem raw_received (browser : Browser) (w : Writer) {frame : GoString} (valid : Utf8 frame)
    (some_ : frame ≠ []) (now : Int) :
    ∃ outer, received browser.ref (w.marshal (stamp now (rawEvent frame))) = some outer ∧
      Wraps browser frame outer := by
  have distinct : Distinct (stamp now (rawEvent frame)) := List.nodup_singleton "frame"
  obtain ⟨outer, arrives, mirrors⟩ := event_received w browser.ref distinct
  refine ⟨outer, arrives, mirrors.type, ?_, ?_, ?_⟩
  · rw [mirrors.values "frame"]
    have same : repair 0 frame = frame := Json.repair_utf8 valid
    simp [stamp, rawEvent, newEvent, Writer.value, Value.respell, jsValue, same]
  · have other : readString frame ≠ "" := by
      intro empty
      have bytes := Json.bytesOf_readString valid
      rw [empty] at bytes
      exact some_ bytes.symm
    simpa [JsValue.truthy] using other
  · have bytes : goString (readString frame) = frame := Json.bytesOf_readString valid
    show parseMessage browser.ref (goString (readString frame)) = _
    rw [bytes]

/-- What the page makes of a forwarded string, whenever it was emitted: it parses it as if it
    had come by itself. -/
theorem unwrap_raw (browser : Browser) (w : Writer) {frame : GoString} (valid : Utf8 frame)
    (some_ : frame ≠ []) {inner : Option PaceEvent}
    (parsed : parseMessage browser.ref frame = some inner) (now : Int) :
    unwrap browser.host (received browser.ref (w.marshal (stamp now (rawEvent frame)))) = inner := by
  obtain ⟨outer, arrives, wraps⟩ := raw_received browser w valid some_ now
  rw [arrives, unwrap]
  simp only [wraps.type, if_true, wraps.held, wraps.truthy, wraps.parse, parsed]

/-- A forwarded string that is no JSON stays wrapped. -/
theorem unwrap_unparsed (browser : Browser) (w : Writer) {frame : GoString} (valid : Utf8 frame)
    (some_ : frame ≠ []) (unparsed : parseMessage browser.ref frame = none) (now : Int) :
    ∃ outer, unwrap browser.host (received browser.ref (w.marshal (stamp now (rawEvent frame)))) =
      some outer ∧ outer.type = "carrier.event.raw" := by
  obtain ⟨outer, arrives, wraps⟩ := raw_received browser w valid some_ now
  refine ⟨outer, ?_, wraps.type⟩
  rw [arrives, unwrap]
  simp only [wraps.type, if_true, wraps.held, wraps.truthy, wraps.parse, unparsed]

theorem plain_shape {ev : TraceEvent} (known : ev.shape ∈ carrierShapes) : PlainNames ev := by
  have each : ∀ shape ∈ carrierShapes,
      shape.2.Nodup ∧ ∀ name ∈ shape.1 :: shape.2, ∀ b ∈ goString name, b < 128 := by decide +kernel
  obtain ⟨distinct, small⟩ := each ev.shape known
  refine ⟨distinct, small ev.type List.mem_cons_self, fun m mem => ?_⟩
  exact small m.1 (List.mem_cons_of_mem _ (List.mem_map_of_mem mem))

theorem frame_body (w : Writer) (ev : TraceEvent) : FrameBody (w.marshal ev) := by
  constructor
  · intro empty
    have parsed := Json.parse_encode Json.goQuoting (w.regular_event ev)
    have text : Json.encode Json.goQuoting (w.event ev) = [] := empty
    rw [text] at parsed
    contradiction
  · intro line
    have printable := Json.encode_printable Json.goQuoting (w.regular_event ev) newline line
    exact absurd printable (by decide)

/-- An event as the page sees it after the double wrapping, and where its strings are in
    ASCII that is what it sees of the event alone. -/
structure SurvivesAs (w : Writer) (browser : Browser) (ev : TraceEvent) (seen : PaceEvent) : Prop where
  mirrors : Mirrors w browser.ref (recoded Json.goQuoting).meaning ev seen
  ascii : (∀ s ∈ (w.event ev).strings, ∀ b ∈ s, b < 128) →
    received browser.ref (w.marshal ev) = some seen

theorem survives (w : Writer) (browser : Browser) {ev : TraceEvent} (plain : PlainNames ev) :
    ∃ seen, parseMessage browser.ref (stringOfBytes (w.marshal ev)) = some (some seen) ∧
      SurvivesAs w browser ev seen := by
  obtain ⟨seen, parsed, mirrors⟩ := recoded_parsed w browser.ref plain
  refine ⟨seen, parsed, mirrors, fun ascii => ?_⟩
  have regular := w.regular_event ev
  have same : (w.event ev).respell (recoded Json.goQuoting).meaning =
      (w.event ev).respell Json.goQuoting.meaning := by
    refine Json.respell_congr _ fun s mem => ?_
    rw [recoded_ascii (ascii s mem)]
    exact (Json.repair_utf8 (Json.utf8_ascii (ascii s mem))).symm
  rw [parseMessage, Writer.marshal, encode_recoded Json.goQuoting regular,
    Json.parse_encode _ regular, same] at parsed
  rw [received, parseMessage, Writer.marshal, Json.parse_encode _ regular, parsed]
  rfl

/-- One event of the carrier, recoded and wrapped. -/
theorem wrapped_survives (browser : Browser) (atCarrier atPortal : Writer) {ev : TraceEvent}
    (known : ev.shape ∈ carrierShapes) :
    ∃ seen, SurvivesAs atCarrier browser ev seen ∧ ∀ now,
      unwrap browser.host (received browser.ref
        (atPortal.marshal (stamp now (rawEvent (stringOfBytes (atCarrier.marshal ev)))))) = some seen := by
  obtain ⟨seen, parsed, as⟩ := survives atCarrier browser (plain_shape known)
  refine ⟨seen, as, unwrap_raw browser atPortal (utf8_stringOfBytes _) ?_ parsed⟩
  intro empty
  exact (frame_body atCarrier ev).nonempty (stringOfBytes_eq_nil.mp empty)

/-! ## A lookup -/

/-- The events of a lookup as they are on the carrier's bus. -/
def lookupTrace (c : SwaCarrier.Codec) (fixtures : GoString → Option Payload) (d : SwaCarrier.HandlerDeps)
    (path : GoString) (clock : Nat → Int) : List TraceEvent :=
  (SwaCarrier.handleLookup c fixtures d path).events.mapIdx fun i ev => stamp (clock i) ev

/-- Every event that a lookup emits on the carrier, written as a frame, read and split by the
    portal, wrapped, parsed and unwrapped by the page, is the same event, if each read ends where
    a frame does: its type, and under each key its value, a number rounded to a float and the
    bytes beyond ASCII of a string recoded. -/
theorem carrier_trace_survives (browser : Browser) (atCarrier atPortal : Writer)
    (c : SwaCarrier.Codec) (fixtures : GoString → Option Payload) (d : SwaCarrier.HandlerDeps)
    (path : GoString) (clock : Nat → Int) (reads : List Read)
    (cut : Cut (encodeFrames ((lookupTrace c fixtures d path clock).map atCarrier.marshal)) reads)
    (whole : WholeReads 0 ((lookupTrace c fixtures d path clock).map atCarrier.marshal)
      (reads.map (·.bytes))) :
    ∃ raws, streamReads reads = some raws ∧
      List.Forall₂ (fun ev raw => ∃ seen, SurvivesAs atCarrier browser ev seen ∧ ∀ now,
        unwrap browser.host (received browser.ref (atPortal.marshal (stamp now raw))) = some seen)
        (lookupTrace c fixtures d path clock) raws := by
  have known : ∀ ev ∈ lookupTrace c fixtures d path clock, ev.shape ∈ carrierShapes := by
    intro ev mem
    obtain ⟨i, here, rfl⟩ := List.mem_mapIdx.mp mem
    rw [shape_stamp]
    exact SwaCarrier.spoken_lookup c fixtures d path _ (List.getElem_mem here)
  have bodies : ∀ b ∈ (lookupTrace c fixtures d path clock).map atCarrier.marshal, FrameBody b := by
    intro b mem
    obtain ⟨ev, _, rfl⟩ := List.mem_map.mp mem
    exact frame_body atCarrier ev
  refine ⟨_, (cut_forwards bodies cut).mpr whole, ?_⟩
  rw [List.map_map, List.forall₂_map_right_iff, List.forall₂_same]
  intro ev mem
  exact wrapped_survives browser atCarrier atPortal (known ev mem)

def plainCodec : SwaCarrier.Codec := ⟨fun _ => none, fun _ => none, fun _ => none, fun _ => []⟩

def agentDown : SwaCarrier.HandlerDeps where
  fetchJWTSVID := ⟨none, some (goString "connection refused")⟩
  sm := SwaCarrier.sampleSm "tok-one" "apples"
  secretID := goString "carrier/key"
  algKid := none

def sampleTrace : List TraceEvent :=
  lookupTrace plainCodec (fun _ => none) agentDown (goString "/lookup/SHP-2049-883") fun i => i

/-- A lookup without a Workload API, each of whose two frames is read at once. -/
theorem sample_trace_survives :
    ∃ first second, streamReads (apart (sampleTrace.map sampleWriter.marshal)) = some [first, second] ∧
      ∀ now, ∃ seen later,
        unwrap sampleBrowser.host (received sampleBrowser.ref (sampleWriter.marshal (stamp now first))) =
          some seen ∧ seen.type = "request.received" ∧
        unwrap sampleBrowser.host (received sampleBrowser.ref (sampleWriter.marshal (stamp now second))) =
          some later ∧ later.type = "jwt_svid.error" := by
  have small : ∀ b ∈ sampleTrace.map sampleWriter.marshal, (encodeFrame b).length ≤ 8192 := by
    decide +kernel
  obtain ⟨raws, forwards, each⟩ := carrier_trace_survives sampleBrowser sampleWriter sampleWriter plainCodec
    (fun _ => none) agentDown (goString "/lookup/SHP-2049-883") (fun i => i) _ (apart_cut small)
    (apart_whole _)
  have two : lookupTrace plainCodec (fun _ => none) agentDown (goString "/lookup/SHP-2049-883")
      (fun i => i) = [stamp 0 (newEvent "carrier" "request.received" [("id", .str (goString "SHP-2049-883"))]),
        stamp 1 (newEvent "carrier" "jwt_svid.error" [("err", .str (goString "connection refused"))])] := by
    decide +kernel
  rw [two] at each
  cases each with
  | cons one rest =>
    cases rest with
    | cons other nothing =>
      cases nothing
      obtain ⟨seen, as, shown⟩ := one
      obtain ⟨later, as', shown'⟩ := other
      exact ⟨_, _, forwards, fun now =>
        ⟨seen, later, shown now, as.mirrors.type, shown' now, as'.mirrors.type⟩⟩

end SwaWire
