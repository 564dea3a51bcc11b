import SwaDemo.CarrierCall
import SwaDemo.FailsClosed
import Mathlib.Computability.RegularExpressions
import Mathlib.Data.List.TakeWhile

/-!
A shipment id on its way from the portal's `Lookup` to the carrier's `handleLookup`: the
regular expression that lets it through, the path that is built of it, the server that
reads the path, and the handler that cuts the id out again.
-/
namespace SwaHop
open SwaTrace SwaPortal
open SwaCarrier (slash pathEscape unreserved percent upperHex)
open SwaForward (validShipmentID)

/-- `[lo-hi]` -/
def range (lo hi : UInt8) : List UInt8 :=
  ((List.range 256).map UInt8.ofNat).filter fun b => lo ≤ b && b ≤ hi

/-- `[A-Za-z0-9-]` -/
def idBytes : List UInt8 := range 65 90 ++ range 97 122 ++ range 48 57 ++ [45]

def byteClass (bytes : List UInt8) : RegularExpression UInt8 :=
  bytes.foldr (fun b r => .char b + r) 0

def literal (text : GoString) : RegularExpression UInt8 :=
  text.foldr (fun b r => .char b * r) 1

/-- `^SHP-[A-Za-z0-9-]+$`; both anchors stand for the ends of the text. -/
def shipmentIDRE : RegularExpression UInt8 :=
  literal (goString "SHP-") * (byteClass idBytes * (byteClass idBytes).star)

/-- "SHP-" followed by one or more ASCII letters, digits or hyphens. -/
def ShipmentID (s : GoString) : Prop :=
  ∃ rest, rest ≠ [] ∧ (∀ b ∈ rest, b ∈ idBytes) ∧ s = goString "SHP-" ++ rest

theorem mem_range {lo hi b : UInt8} : b ∈ range lo hi ↔ lo ≤ b ∧ b ≤ hi := by
  have every : b ∈ (List.range 256).map UInt8.ofNat :=
    List.mem_map.mpr ⟨b.toNat, List.mem_range.mpr b.toNat_lt, UInt8.ofNat_toNat⟩
  simp [range, List.mem_filter, every]

theorem mem_idBytes {b : UInt8} :
    b ∈ idBytes ↔ ((65 ≤ b ∧ b ≤ 90 ∨ 97 ≤ b ∧ b ≤ 122) ∨ 48 ≤ b ∧ b ≤ 57) ∨ b = 45 := by
  simp only [idBytes, List.mem_append, mem_range, List.mem_singleton]

theorem byteClass_matches {bytes : List UInt8} {s : GoString} :
    s ∈ (byteClass bytes).matches' ↔ ∃ b ∈ bytes, s = [b] := by
  induction bytes with
  | nil => simp [byteClass]
  | cons b bytes ih =>
    have cons : byteClass (b :: bytes) = .char b + byteClass bytes := rfl
    have single : s ∈ (RegularExpression.char b).matches' ↔ s = [b] := Set.mem_singleton_iff
    rw [cons, RegularExpression.matches'_add, Language.mem_add, ih, single]
    simp

theorem literal_matches {text s : GoString} : s ∈ (literal text).matches' ↔ s = text := by
  induction text generalizing s with
  | nil => simp [literal, Language.mem_one]
  | cons b text ih =>
    have cons : literal (b :: text) = .char b * literal text := rfl
    rw [cons, RegularExpression.matches'_mul, Language.mem_mul, RegularExpression.matches'_char]
    constructor
    · rintro ⟨first, is, rest, tail, rfl⟩
      rw [ih.mp tail, Set.mem_singleton_iff.mp is]
      rfl
    · rintro rfl
      exact ⟨[b], rfl, text, ih.mpr rfl, rfl⟩

theorem star_matches {bytes : List UInt8} {s : GoString} :
    s ∈ (byteClass bytes).star.matches' ↔ ∀ b ∈ s, b ∈ bytes := by
  rw [RegularExpression.matches'_star, Language.mem_kstar]
  constructor
  · rintro ⟨words, rfl, each⟩ b mem
    obtain ⟨word, is, within⟩ := List.mem_flatten.mp mem
    obtain ⟨a, known, rfl⟩ := byteClass_matches.mp (each word is)
    exact List.mem_singleton.mp within ▸ known
  · intro each
    refine ⟨s.map ([·]), ?_, ?_⟩
    · induction s with
      | nil => rfl
      | cons b s ih =>
        rw [List.map_cons, List.flatten_cons, ← ih fun a mem => each a (by simp [mem])]
        rfl
    · intro word is
      obtain ⟨b, mem, rfl⟩ := List.mem_map.mp is
      exact byteClass_matches.mpr ⟨b, each b mem, rfl⟩

theorem shipmentIDRE_matches (s : GoString) : s ∈ shipmentIDRE.matches' ↔ ShipmentID s := by
  rw [shipmentIDRE, RegularExpression.matches'_mul, Language.mem_mul]
  constructor
  · rintro ⟨front, is, rest, tail, rfl⟩
    rw [RegularExpression.matches'_mul, Language.mem_mul] at tail
    obtain ⟨first, one, more, each, rfl⟩ := tail
    obtain ⟨b, known, rfl⟩ := byteClass_matches.mp one
    refine ⟨b :: more, by simp, ?_, by rw [literal_matches.mp is]; rfl⟩
    intro a mem
    rcases List.mem_cons.mp mem with rfl | later
    · exact known
    · exact star_matches.mp each a later
  · rintro ⟨rest, some_, each, rfl⟩
    obtain ⟨b, more, rfl⟩ := List.exists_cons_of_ne_nil some_
    refine ⟨_, literal_matches.mpr rfl, _, ?_, rfl⟩
    rw [RegularExpression.matches'_mul, Language.mem_mul]
    exact ⟨[b], byteClass_matches.mpr ⟨b, each b (by simp), rfl⟩, more,
      star_matches.mpr fun a mem => each a (by simp [mem]), rfl⟩

theorem validShipmentID_iff (s : GoString) : validShipmentID s = true ↔ ShipmentID s := by
  have classes (rest : GoString) : (rest.all fun c =>
      (65 ≤ c && c ≤ 90) || (97 ≤ c && c ≤ 122) || (48 ≤ c && c ≤ 57) || c == 45) = true ↔
        ∀ b ∈ rest, b ∈ idBytes := by
    simp [List.all_eq_true, mem_idBytes]
  rw [validShipmentID, Bool.and_eq_true, Bool.and_eq_true, classes]
  constructor
  · rintro ⟨⟨front, long⟩, each⟩
    obtain ⟨rest, rfl⟩ := List.isPrefixOf_iff_prefix.mp front
    have size : (goString "SHP-").length = 4 := rfl
    rw [← size, List.drop_left] at each
    refine ⟨rest, ?_, each, rfl⟩
    rintro rfl
    simp [size] at long
  · rintro ⟨rest, some_, each, rfl⟩
    have size : (goString "SHP-").length = 4 := rfl
    have long := List.length_pos_iff.mpr some_
    refine ⟨⟨List.isPrefixOf_iff_prefix.mpr (List.prefix_append _ _), ?_⟩, ?_⟩
    · rw [List.length_append, size]
      exact decide_eq_true (by omega)
    · rw [← size, List.drop_left]
      exact each

/-- The check of `Lookup` is `shipmentIDRE.MatchString`. -/
theorem validShipmentID_matchString (s : GoString) :
    validShipmentID s = true ↔ s ∈ shipmentIDRE.matches' :=
  (validShipmentID_iff s).trans (shipmentIDRE_matches s).symm

def unhex (b : UInt8) : Option Nat :=
  if 48 ≤ b ∧ b ≤ 57 then some (b.toNat - 48)
  else if 97 ≤ b ∧ b ≤ 102 then some (b.toNat - 87)
  else if 65 ≤ b ∧ b ≤ 70 then some (b.toNat - 55)
  else none

/-- `url.PathUnescape`, which refuses a `%` without two digits behind it. -/
def pathUnescape : GoString → Option GoString
  | [] => some []
  | b :: rest =>
    if b = 37 then
      match rest with
      | hi :: lo :: rest =>
        match unhex hi, unhex lo with
        | some h, some l => (pathUnescape rest).map (UInt8.ofNat (16 * h + l) :: ·)
        | _, _ => none
      | _ => none
    else (pathUnescape rest).map (b :: ·)

/-- The path that a server reads in a request for what stands behind the host of a URL:
    the fragment and the query are cut off and the rest is unescaped. -/
def receivedPath (target : GoString) : Option GoString :=
  pathUnescape ((target.takeWhile (· ≠ 35)).takeWhile (· ≠ 63))

/-- `ServeMux` redirects a path that it would clean: one with an empty segment before the
    last, or with a segment "." or "..". -/
def Clean (path : GoString) : Prop :=
  ∃ rest, path = slash :: rest ∧
    (∀ segment ∈ (rest.splitOn slash).dropLast, segment ≠ []) ∧
    ∀ segment ∈ rest.splitOn slash, segment ≠ goString "." ∧ segment ≠ goString ".."

/-- The carrier's mux hands the path to `handleLookup`, registered for "/lookup/". -/
def Routed (path : GoString) : Prop := Clean path ∧ goString "/lookup/" <+: path

theorem unhex_upperHex (n : Nat) (digit : n < 16) : unhex (upperHex n) = some n := by
  have each : ∀ n < 16, unhex (upperHex n) = some n := by decide
  exact each n digit

theorem pathUnescape_percent (b : UInt8) (rest : GoString) :
    pathUnescape (percent b ++ rest) = (pathUnescape rest).map (b :: ·) := by
  have size := b.toNat_lt
  have value : 16 * (b.toNat / 16) + b.toNat % 16 = b.toNat := by omega
  have step : pathUnescape (percent b ++ rest) =
      match unhex (upperHex (b.toNat / 16)), unhex (upperHex (b.toNat % 16)) with
      | some h, some l => (pathUnescape rest).map (UInt8.ofNat (16 * h + l) :: ·)
      | _, _ => none := rfl
  rw [step, unhex_upperHex _ (by omega), unhex_upperHex _ (by omega)]
  simp only [value, UInt8.ofNat_toNat]

theorem pathUnescape_plain {b : UInt8} (plain : b ≠ 37) (rest : GoString) :
    pathUnescape (b :: rest) = (pathUnescape rest).map (b :: ·) := by
  conv_lhs => unfold pathUnescape
  rw [if_neg plain]

/-- Whatever bytes a segment has, escaping it is undone by unescaping it. -/
theorem pathUnescape_pathEscape (s rest : GoString) :
    pathUnescape (pathEscape s ++ rest) = (pathUnescape rest).map (s ++ ·) := by
  induction s with
  | nil => simp [pathEscape]
  | cons b s ih =>
    have cons : pathEscape (b :: s) =
        (if unreserved b || b ∈ goString "$&+=:@" then [b] else percent b) ++ pathEscape s := rfl
    rw [cons, List.append_assoc]
    split
    · rename_i kept
      have plain : b ≠ 37 := by
        rintro rfl
        revert kept
        decide
      rw [List.singleton_append, pathUnescape_plain plain, ih, Option.map_map]
      rfl
    · rw [pathUnescape_percent, ih, Option.map_map]
      rfl

theorem pathUnescape_plains {front : GoString} (plain : (37 : UInt8) ∉ front) (rest : GoString) :
    pathUnescape (front ++ rest) = (pathUnescape rest).map (front ++ ·) := by
  induction front with
  | nil => simp
  | cons b front ih =>
    have head : b ≠ 37 := fun same => plain (by simp [same])
    have tail : (37 : UInt8) ∉ front := fun mem => plain (by simp [mem])
    rw [List.cons_append, pathUnescape_plain head, ih tail, Option.map_map]
    rfl

theorem pathEscape_segment {s : GoString} {b : UInt8} (mem : b ∈ pathEscape s) : b ≠ 35 ∧ b ≠ 63 := by
  have digits : ∀ n < 16, upperHex n ≠ 35 ∧ upperHex n ≠ 63 := by decide
  obtain ⟨a, _, within⟩ := List.mem_flatMap.mp mem
  split at within
  · rename_i kept
    rw [List.mem_singleton.mp within]
    constructor
    · rintro rfl
      revert kept
      decide
    · rintro rfl
      revert kept
      decide
  · have size := a.toNat_lt
    simp only [percent, List.mem_cons, List.not_mem_nil, or_false] at within
    rcases within with rfl | rfl | rfl
    · decide
    · exact digits _ (by omega)
    · exact digits _ (by omega)

theorem lookupPath_received (s : GoString) :
    receivedPath (CarrierClient.lookupPath s) = some (goString "/lookup/" ++ s) := by
  have whole (stop : UInt8) (before : stop ∉ goString "/lookup/") (behind : stop ∉ pathEscape s) :
      (CarrierClient.lookupPath s).takeWhile (· ≠ stop) = CarrierClient.lookupPath s := by
    refine List.takeWhile_eq_self_iff.mpr fun b mem => ?_
    rw [decide_eq_true_eq]
    rintro rfl
    rcases List.mem_append.mp mem with front | tail
    · exact before front
    · exact behind tail
  rw [receivedPath, whole 35 (by decide) fun mem => (pathEscape_segment mem).1 rfl,
    whole 63 (by decide) fun mem => (pathEscape_segment mem).2 rfl, CarrierClient.lookupPath,
    pathUnescape_plains (by decide), ← List.append_nil (pathEscape s), pathUnescape_pathEscape]
  simp [pathUnescape]

section valid
variable {s : GoString}

theorem shipmentID_plain (valid : ShipmentID s) {b : UInt8} (mem : b ∈ s) : unreserved b = true := by
  obtain ⟨rest, _, each, rfl⟩ := valid
  rcases List.mem_append.mp mem with front | tail
  · have letters : ∀ b ∈ goString "SHP-", unreserved b = true := by decide +kernel
    exact letters b front
  · have known := mem_idBytes.mp (each b tail)
    simp only [unreserved, Bool.or_eq_true, decide_eq_true_eq]
    rcases known with known | rfl
    · exact Or.inl known
    · exact Or.inr (by decide)

theorem shipmentID_ne (valid : ShipmentID s) {b : UInt8} (other : unreserved b = false) : b ∉ s := by
  intro mem
  have plain := shipmentID_plain valid mem
  rw [other] at plain
  contradiction

theorem shipmentID_some (valid : ShipmentID s) : s ≠ [] := by
  obtain ⟨rest, some_, _, rfl⟩ := valid
  exact List.append_ne_nil_of_right_ne_nil _ some_

theorem shipmentID_slash (valid : ShipmentID s) : slash ∉ s := shipmentID_ne valid (by decide)

theorem shipmentID_routed (valid : ShipmentID s) : Routed (goString "/lookup/" ++ s) := by
  have segments : (goString "lookup/" ++ s).splitOn slash = [goString "lookup", s] := by
    have front : ∀ b ∈ goString "lookup", (b == slash) = false := by decide +kernel
    have tail : ∀ b ∈ s, (b == slash) = false := by
      intro b mem
      rw [beq_eq_false_iff_ne]
      rintro rfl
      exact shipmentID_slash valid mem
    have cut : goString "lookup/" ++ s = goString "lookup" ++ slash :: s := rfl
    rw [cut, List.splitOn_eq_splitOnP,
      List.splitOnP_append_cons_of_forall_mem front slash (by decide),
      List.splitOnP_eq_singleton tail]
  refine ⟨⟨goString "lookup/" ++ s, rfl, ?_, ?_⟩, List.prefix_append _ _⟩
  · rw [segments]
    intro segment mem
    rw [List.mem_singleton.mp mem]
    decide
  · rw [segments]
    intro segment mem
    rcases List.mem_cons.mp mem with rfl | last
    · decide
    · rw [List.mem_singleton.mp last]
      obtain ⟨rest, _, _, rfl⟩ := valid
      have letter : (goString "SHP-" ++ rest).head? = some 83 := rfl
      constructor
      · intro dot
        rw [dot] at letter
        contradiction
      · intro dots
        rw [dots] at letter
        contradiction

theorem shipmentID_extracted (s : GoString) :
    SwaCarrier.shipmentID (goString "/lookup/" ++ s) = s := by
  simp [SwaCarrier.shipmentID, SwaCarrier.trimPrefix]

theorem shipmentID_valid (valid : ShipmentID s) : SwaCarrier.ValidID s :=
  ⟨shipmentID_some valid, shipmentID_slash valid⟩

end valid

/-- What the carrier does for a path: it takes the id `s` from it, does not call it bad,
    announces it, and answers by the fixture of `s` and no other. -/
structure LooksUp (c : SwaCarrier.Codec) (fixtures : GoString → Option Payload)
    (d : SwaCarrier.LiveDeps) (s path : GoString) : Prop where
  extracted : SwaCarrier.shipmentID path = s
  accepted : (SwaCarrier.liveLookup c fixtures d path).response.map (·.status) ≠ some 400
  received : (SwaCarrier.liveLookup c fixtures d path).events.head? =
    some (newEvent "carrier" "request.received" [("id", .str s)])
  exit : ∃ exit, SwaCarrier.Ends fixtures d s exit ∧
    SwaCarrier.Shows c d exit (SwaCarrier.liveLookup c fixtures d path)
  key : ∀ other, other s = fixtures s →
    SwaCarrier.liveLookup c other d path = SwaCarrier.liveLookup c fixtures d path

theorem fetched_key (c : SwaCarrier.Codec) {fixtures other : GoString → Option Payload}
    {s : GoString} (same : other s = fixtures s) (reply : SwaCarrier.SecretReply) :
    SwaCarrier.fetched c other s reply = SwaCarrier.fetched c fixtures s reply := by
  unfold SwaCarrier.fetched SwaCarrier.answer
  rw [same]

theorem shipment_looked_up (c : SwaCarrier.Codec) (fixtures : GoString → Option Payload)
    (d : SwaCarrier.LiveDeps) {s : GoString} (valid : ShipmentID s) :
    LooksUp c fixtures d s (goString "/lookup/" ++ s) := by
  have extracted := shipmentID_extracted s
  have good : ¬ (SwaCarrier.shipmentID (goString "/lookup/" ++ s) = [] ∨
      slash ∈ SwaCarrier.shipmentID (goString "/lookup/" ++ s)) := by
    rw [extracted]
    rintro (empty | mem)
    · exact shipmentID_some valid empty
    · exact shipmentID_slash valid mem
  obtain ⟨exit, ends, shows⟩ := @SwaCarrier.live_exit c fixtures d (goString "/lookup/" ++ s)
  rw [extracted] at ends
  refine ⟨extracted, ?_, ?_, ⟨exit, ends, shows⟩, ?_⟩
  · rw [shows.status]
    cases exit with
    | badID => exact absurd (shipmentID_valid valid) ends
    | noIdentity | noToken | noSecret | emptySecret | miss | found =>
      simp [SwaCarrier.Exit.status]
  · rw [SwaCarrier.liveLookup, if_neg good, extracted]
    rfl
  · intro other same
    simp only [SwaCarrier.liveLookup, SwaCarrier.liveToken, SwaCarrier.liveSecret, extracted,
      fetched_key c same]

/-- A lookup opens connections only for a shipment id, and the path it builds of one is
    received by the carrier's handler as a request for exactly that id. -/
theorem shipment_id_survives (client : CarrierClient) (s : GoString) :
    ((client.lookup s).opened ≠ [] → ShipmentID s) ∧
    (ShipmentID s →
      (client.http.newRequest (goString "GET") (client.lookupURL s) = none →
        client.baseURL ++ CarrierClient.lookupPath s ∈ (client.lookup s).opened) ∧
      ∃ path, receivedPath (CarrierClient.lookupPath s) = some path ∧ Routed path ∧
        ∀ (c : SwaCarrier.Codec) (fixtures : GoString → Option Payload) (d : SwaCarrier.LiveDeps),
          LooksUp c fixtures d s path) := by
  constructor
  · intro opened
    rw [← validShipmentID_iff]
    by_contra invalid
    have did := (CarrierClient.lookup_invalid (c := client) (by simpa using invalid)).1
    exact opened (by simp [Looked.opened, did])
  · intro valid
    refine ⟨fun built => ?_, goString "/lookup/" ++ s, lookupPath_received s,
      shipmentID_routed valid, fun c fixtures d => shipment_looked_up c fixtures d valid⟩
    rw [CarrierClient.lookup_opened ((validShipmentID_iff s).mpr valid), built]
    simp [CarrierClient.lookupURL]

end SwaHop
