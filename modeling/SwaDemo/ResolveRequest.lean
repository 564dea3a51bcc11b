import SwaDemo.JsonCut
import SwaDemo.JsonQuoting
import SwaDemo.Utf8Strings
import SwaDemo.TokenTtl
import SwaDemo.ExternalCarrier
import SwaDemo.ResolveEngine

/-!
The request of a resolve: the body that the page posts (`useResolveEngine.ts`), and the
decoder by which `handleResolve` takes it from the stream (`handler.go`).
-/
namespace SwaChain
open SwaTrace
open Json (Value parseWithin repair)
open SwaToken (maxNestingDepth upper storeString)
open SwaPortal (ResolveReq)
open SwaEngine (Request Carrier)

/-! ## The decoder -/

/-- The members of a text that is one object. -/
def objectOf (text : GoString) : Option (List (GoString × Value)) :=
  match parseWithin maxNestingDepth text with
  | some (.obj members) => some members
  | _ => none

/-- `Decoder.Decode` reads up to the end of the first value and not beyond it. -/
def firstObject (seen : GoString) : GoString → Option (List (GoString × Value))
  | [] => none
  | c :: rest =>
    match objectOf (seen ++ [c]) with
    | some members => some members
    | none => firstObject (seen ++ [c]) rest

/-- `foldName`: the long s and the sign of the kelvin are the two letters beyond ASCII that
    have one of ASCII in their case. -/
def foldName : GoString → GoString
  | 197 :: 191 :: rest => 83 :: foldName rest
  | 226 :: 132 :: 170 :: rest => 75 :: foldName rest
  | c :: rest => upper c :: foldName rest
  | [] => []

def storeReq (req : ResolveReq) (m : GoString × Value) : Option ResolveReq :=
  if foldName m.1 = foldName (goString "shipment_id") then
    (storeString req.shipmentID m.2).map fun s => { req with shipmentID := s }
  else if foldName m.1 = foldName (goString "carrier") then
    (storeString req.carrier m.2).map fun s => { req with carrier := s }
  else some req

/-- `json.NewDecoder(r.Body).Decode(&req)`. What is no object leaves the request empty or
    is an error, and the handler refuses both. -/
def decodeResolve (body : GoString) : Option ResolveReq :=
  (firstObject [] body).bind fun members => members.foldlM storeReq ⟨[], []⟩

/-! ## The page's body -/

def carrierText : Carrier → String
  | .internal => "internal"
  | .external => "external"

/-- `{ carrier, shipment_id: shipmentId }` -/
def requestMembers (r : Request) : List (GoString × Value) :=
  [(goString "carrier", .str (goString (carrierText r.carrier))),
    (goString "shipment_id", .str (goString r.shipmentId))]

/-- `JSON.stringify` -/
def requestBody (r : Request) : GoString := Json.encode Json.jsQuoting (.obj (requestMembers r))

theorem firstObject_whole {seen text : GoString} {members : List (GoString × Value)}
    (whole : objectOf (seen ++ text) = some members) (some_ : text ≠ [])
    (cut : ∀ p s, seen ++ text = p ++ s → s ≠ [] → objectOf p = none) (rest : GoString) :
    firstObject seen (text ++ rest) = some members := by
  induction text generalizing seen with
  | nil => exact absurd rfl some_
  | cons c text ih =>
    rw [List.cons_append, firstObject]
    by_cases last : text = []
    · subst last
      rw [whole]
    · have open_ := cut (seen ++ [c]) text (by simp) last
      rw [open_]
      refine ih (by simpa using whole) last fun p s split later => ?_
      exact cut p s (by simpa using split) later

/-- An object is read up to its end, whatever follows it in the stream. -/
theorem firstObject_encode (q : Json.Quoting) {members : List (GoString × Value)}
    (regular : Value.Regular (.obj members))
    (shallow : Json.depthMembers (Json.respellMembers q.meaning members) < maxNestingDepth)
    (rest : GoString) :
    firstObject [] (Json.encode q (.obj members) ++ rest) =
      some (Json.respellMembers q.meaning members) := by
  have parsed := Json.parse_encode q regular
  apply firstObject_whole
  · rw [objectOf, List.nil_append, Json.parseWithin_obj parsed, if_pos shallow]
  · intro empty
    rw [empty] at parsed
    contradiction
  · intro p s split some_
    have broken := Json.encode_cut q regular split some_
    rw [objectOf, parseWithin, broken]
    rfl

/-- The handler reads from the page's body the shipment and the carrier that were chosen. -/
theorem request_decoded (r : Request) (rest : GoString) :
    decodeResolve (requestBody r ++ rest) =
      some ⟨goString r.shipmentId, goString (carrierText r.carrier)⟩ := by
  have text (s : String) : Json.jsQuoting.meaning (goString s) = goString s :=
    Json.repair_utf8 (Json.utf8_string s)
  have plain : Json.respellMembers Json.jsQuoting.meaning (requestMembers r) = requestMembers r := by
    simp only [requestMembers, Json.respellMembers, Value.respell, text]
  have regular : Value.Regular (.obj (requestMembers r)) := by
    simp [requestMembers, Value.Regular, Json.RegularMembers]
  have shallow : Json.depthMembers (requestMembers r) < maxNestingDepth := by
    simp [requestMembers, Json.depthMembers, Value.depth, maxNestingDepth]
  have read := firstObject_encode Json.jsQuoting regular (by rwa [plain]) rest
  rw [plain] at read
  have ship : foldName (goString "carrier") ≠ foldName (goString "shipment_id") := by decide
  rw [decodeResolve, requestBody, read, Option.bind_some]
  simp [requestMembers, storeReq, storeString, ship]

end SwaChain
