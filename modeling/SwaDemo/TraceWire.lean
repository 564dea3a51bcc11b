import SwaDemo.JsonEncode
import SwaDemo.JsonQuoting
import SwaDemo.Utf8Strings
import SwaDemo.PaceQueue
import SwaDemo.TraceEvent

/-!
A trace event as JSON: what `json.Marshal` writes for one in `handleTraceSSE` (`trace.go`),
and what the page makes of the text (`useResolveEngine.ts`) before it pushes it.
-/
namespace SwaWire
open SwaTrace Js
open Json (Numeral Value repair bytesOf readString)
open SwaPace (PaceEvent Host)

/-! ## The services -/

/-- How the services write what the model of a payload leaves open: a time, a float, and an
    array or an object. -/
structure Writer where
  time : Option Int → GoString
  float : ℚ → Numeral
  nested : Nat → Value
  float_regular : ∀ q, (float q).Regular
  nested_regular : ∀ ref, (nested ref).Regular

/-- A map is written with its keys in order. -/
def sortKeys (p : Payload) : Payload := p.mergeSort fun a b => decide (a.1 ≤ b.1)

namespace Writer
variable (w : Writer)

def value : GoValue → Value
  | .nil => .null
  | .bool b => .bool b
  | .int n => .num (.ofInt n)
  | .float q => .num (w.float q)
  | .str s => .str s
  | .composite ref => w.nested ref

def object (p : Payload) : Value := .obj ((sortKeys p).map fun m => (goString m.1, w.value m.2))

/-- `traceEvent`, whose payload is left out where it is empty. -/
def event (ev : TraceEvent) : Value :=
  .obj ([(goString "ts", .str (w.time ev.ts)), (goString "source", .str (goString ev.source)),
    (goString "type", .str (goString ev.type))] ++
    (if ev.payload = [] then [] else [(goString "payload", w.object ev.payload)]))

/-- `json.Marshal(ev)` -/
def marshal (ev : TraceEvent) : GoString := Json.encode Json.goQuoting (w.event ev)

end Writer

/-! ## The page -/

section page
variable (ref : Value → Nat)

/-- A value of `JSON.parse`; an array or an object stays a reference. -/
def jsValue : Value → JsValue
  | .null => .null
  | .bool b => .bool b
  | .num n => .num (.nearest n.value)
  | .str s => .str (readString s)
  | .arr items => .obj (ref (.arr items))
  | .obj members => .obj (ref (.obj members))

/-- Of members with one name the last one stays. -/
def record (members : List (GoString × Value)) : Record :=
  members.reverse.map fun m => (readString m.1, jsValue ref m.2)

def member (name : String) (members : List (GoString × Value)) : Option Value :=
  members.reverse.lookup (goString name)

/-- A parsed value as `push` looks at it: an object with a string `type`. A payload that is
    no object has none of the properties that are asked for. -/
def paceEvent : Value → Option PaceEvent
  | .obj members =>
    match member "type" members, member "payload" members with
    | some (.str type), some (.obj payload) => some ⟨readString type, some (record ref payload)⟩
    | some (.str type), _ => some ⟨readString type, none⟩
    | _, _ => none
  | _ => none

/-- `JSON.parse(text)`, and what `push` makes of its result. -/
def parseMessage (text : GoString) : Option (Option PaceEvent) := (Json.parse text).map (paceEvent ref)

/-- What the handler of `es.onmessage` pushes. -/
def received (text : GoString) : Option PaceEvent := (parseMessage ref text).join

end page

/-- The language, with its own `JSON.parse` of strings. -/
structure Browser where
  ref : Value → Nat
  number : JsValue → JsNumber
  parseOther : JsValue → Option (Option PaceEvent)

def Browser.host (b : Browser) : Host where
  number := b.number
  parseFrame
    | .str s => parseMessage b.ref (goString s)
    | frame => b.parseOther frame

/-! ## Round trip -/

section lookup
variable {κ α β : Type} [BEq κ] [LawfulBEq κ]

theorem lookup_mem_iff {l : List (κ × α)} (distinct : (l.map (·.1)).Nodup) {key : κ} {v : α} :
    l.lookup key = some v ↔ (key, v) ∈ l := by
  induction l with
  | nil => simp
  | cons m l ih =>
    obtain ⟨name, u⟩ := m
    rw [List.map_cons, List.nodup_cons] at distinct
    by_cases same : key = name
    · subst same
      have absent : (key, v) ∉ l := fun mem =>
        distinct.1 (List.mem_map.mpr ⟨(key, v), mem, rfl⟩)
      simp [absent, eq_comm]
    · have other : (key == name) = false := beq_eq_false_iff_ne.mpr same
      rw [List.lookup_cons, other]
      simp [same, ih distinct.2]

theorem lookup_perm {l m : List (κ × α)} (perm : l.Perm m) (distinct : (l.map (·.1)).Nodup) (key : κ) :
    l.lookup key = m.lookup key := by
  have distinct' : (m.map (·.1)).Nodup := (perm.map _).nodup_iff.mp distinct
  apply Option.ext
  intro v
  rw [lookup_mem_iff distinct, lookup_mem_iff distinct', perm.mem_iff]

theorem lookup_map {κ' : Type} [BEq κ'] [LawfulBEq κ'] (f : κ → κ') (g : α → β)
    (injective : ∀ a b, f a = f b → a = b) (l : List (κ × α)) (key : κ) :
    (l.map fun m => (f m.1, g m.2)).lookup (f key) = (l.lookup key).map g := by
  induction l with
  | nil => rfl
  | cons m l ih =>
    rw [List.map_cons, List.lookup_cons, List.lookup_cons, ih]
    by_cases same : key = m.1
    · rw [beq_iff_eq.mpr same, beq_iff_eq.mpr (congrArg f same)]
      rfl
    · have other : f key ≠ f m.1 := fun equal => same (injective _ _ equal)
      rw [beq_eq_false_iff_ne.mpr same, beq_eq_false_iff_ne.mpr other]

end lookup

/-- A payload is a map. -/
def Distinct (ev : TraceEvent) : Prop := (ev.payload.map (·.1)).Nodup

/-- The page sees an event: its type, and each value of its payload as `meaning` has the
    strings of it. -/
structure Mirrors (w : Writer) (ref : Value → Nat) (meaning : GoString → GoString) (ev : TraceEvent)
    (seen : PaceEvent) : Prop where
  type : seen.type = ev.type
  payload : seen.payload = none ↔ ev.payload = []
  values : ∀ key, prop seen.payload key =
    (ev.payload.lookup key).map fun v => jsValue ref ((w.value v).respell meaning)

namespace Writer
variable {w : Writer}

theorem regular_value (v : GoValue) : (w.value v).Regular := by
  cases v with
  | int n => exact Numeral.regular_ofInt n
  | float q => exact w.float_regular q
  | composite ref => exact w.nested_regular ref
  | nil | bool | str => trivial

theorem regular_members (ms : List (GoString × Value)) (each : ∀ m ∈ ms, m.2.Regular) :
    Json.RegularMembers ms := by
  induction ms with
  | nil => trivial
  | cons m ms ih => exact ⟨each m (by simp), ih fun n mem => each n (by simp [mem])⟩

theorem regular_object (p : Payload) : (w.object p).Regular := by
  refine regular_members _ fun m mem => ?_
  obtain ⟨n, _, rfl⟩ := List.mem_map.mp mem
  exact regular_value n.2

theorem regular_event (ev : TraceEvent) : (w.event ev).Regular := by
  refine regular_members _ fun m mem => ?_
  rcases List.mem_append.mp mem with front | last
  · simp only [List.mem_cons, List.not_mem_nil, or_false] at front
    rcases front with rfl | rfl | rfl <;> trivial
  · split at last
    · simp at last
    · rw [List.mem_singleton.mp last]
      exact regular_object ev.payload

end Writer

section mirror
variable {w : Writer} {ref : Value → Nat} {meaning : GoString → GoString}

theorem respell_object {p : Payload} (keys : ∀ m ∈ p, meaning (goString m.1) = goString m.1) :
    (w.object p).respell meaning =
      .obj ((sortKeys p).map fun m => (goString m.1, (w.value m.2).respell meaning)) := by
  rw [Writer.object, Value.respell, Json.respellMembers_map, List.map_map]
  congr 1
  refine List.map_congr_left fun m mem => ?_
  have known : m ∈ p := (List.mergeSort_perm p _).mem_iff.mp mem
  exact congrArg (·, (w.value m.2).respell meaning) (keys m known)

theorem record_get {p : Payload} (distinct : (p.map (·.1)).Nodup) (key : String) :
    (record ref ((sortKeys p).map fun m => (goString m.1, (w.value m.2).respell meaning))).get key =
      (p.lookup key).map fun v => jsValue ref ((w.value v).respell meaning) := by
  have names (m : String × GoValue) : readString (goString m.1) = m.1 := Json.readString_bytesOf m.1
  have whole : record ref ((sortKeys p).map fun m => (goString m.1, (w.value m.2).respell meaning)) =
      (sortKeys p).reverse.map fun m => (m.1, jsValue ref ((w.value m.2).respell meaning)) := by
    rw [record, ← List.map_reverse, List.map_map]
    exact List.map_congr_left fun m _ => congrArg (·, jsValue ref ((w.value m.2).respell meaning)) (names m)
  have perm : p.Perm (sortKeys p).reverse :=
    (List.mergeSort_perm p _).symm.trans (List.reverse_perm _).symm
  rw [whole, Record.get, lookup_perm perm distinct key]
  exact lookup_map id (fun v => jsValue ref ((w.value v).respell meaning)) (fun _ _ same => same) _ key

/-- What is parsed of an event whose strings are spelled by some quoting. -/
theorem paceEvent_event {ev : TraceEvent} (distinct : Distinct ev)
    (fields : ∀ name ∈ ["ts", "source", "type", "payload"],
      meaning (goString name) = goString name)
    (type : meaning (goString ev.type) = goString ev.type)
    (keys : ∀ m ∈ ev.payload, meaning (goString m.1) = goString m.1) :
    ∃ seen, paceEvent ref ((w.event ev).respell meaning) = some seen ∧
      Mirrors w ref meaning ev seen := by
  have ts := fields "ts" (by simp)
  have source := fields "source" (by simp)
  have typeName := fields "type" (by simp)
  have payloadName := fields "payload" (by simp)
  have named : readString (goString ev.type) = ev.type := Json.readString_bytesOf ev.type
  by_cases none_ : ev.payload = []
  · refine ⟨⟨ev.type, none⟩, ?_, rfl, by simp [none_], by simp [none_, prop]⟩
    have members : (w.event ev).respell meaning = .obj [
        (goString "ts", .str (meaning (w.time ev.ts))),
        (goString "source", .str (meaning (goString ev.source))),
        (goString "type", .str (goString ev.type))] := by
      simp [Writer.event, none_, Value.respell, Json.respellMembers_map, ts, source, typeName, type]
    have kind : member "type" [
        (goString "ts", Value.str (meaning (w.time ev.ts))),
        (goString "source", .str (meaning (goString ev.source))),
        (goString "type", .str (goString ev.type))] = some (.str (goString ev.type)) := rfl
    have payload : member "payload" [
        (goString "ts", Value.str (meaning (w.time ev.ts))),
        (goString "source", .str (meaning (goString ev.source))),
        (goString "type", .str (goString ev.type))] = none := rfl
    rw [members, paceEvent, kind, payload]
    simp only [named]
  · have object := respell_object (w := w) keys
    generalize shape : ((sortKeys ev.payload).map fun m =>
      (goString m.1, (w.value m.2).respell meaning)) = inner at object
    refine ⟨⟨ev.type, some (record ref inner)⟩, ?_, rfl, by simp [none_], fun key => ?_⟩
    · have members : (w.event ev).respell meaning = .obj [
          (goString "ts", .str (meaning (w.time ev.ts))),
          (goString "source", .str (meaning (goString ev.source))),
          (goString "type", .str (goString ev.type)),
          (goString "payload", .obj inner)] := by
        simp [Writer.event, none_, Value.respell, Json.respellMembers_map, ts, source, typeName, type,
          payloadName, object]
      have kind : member "type" [
          (goString "ts", Value.str (meaning (w.time ev.ts))),
          (goString "source", .str (meaning (goString ev.source))),
          (goString "type", .str (goString ev.type)),
          (goString "payload", .obj inner)] = some (.str (goString ev.type)) := rfl
      have payload : member "payload" [
          (goString "ts", Value.str (meaning (w.time ev.ts))),
          (goString "source", .str (meaning (goString ev.source))),
          (goString "type", .str (goString ev.type)),
          (goString "payload", .obj inner)] = some (.obj inner) := rfl
      rw [members, paceEvent, kind, payload]
      simp only [named]
    · subst shape
      exact record_get distinct key

end mirror

theorem repair_goString (s : String) : repair 0 (goString s) = goString s :=
  Json.repair_utf8 (Json.utf8_string s)

/-- Whatever event the portal has on its bus, the page receives it: the type and every value,
    strings that are no UTF-8 repaired. -/
theorem event_received (w : Writer) (ref : Value → Nat) {ev : TraceEvent} (distinct : Distinct ev) :
    ∃ seen, received ref (w.marshal ev) = some seen ∧ Mirrors w ref (repair 0) ev seen := by
  obtain ⟨seen, parsed, mirrors⟩ := @paceEvent_event w ref _ _ distinct
    (fun name _ => repair_goString name) (repair_goString ev.type) (fun m _ => repair_goString m.1)
  have text : Json.parse (w.marshal ev) = some ((w.event ev).respell (repair 0)) :=
    Json.parse_encode Json.goQuoting (Writer.regular_event ev)
  refine ⟨seen, ?_, mirrors⟩
  rw [received, parseMessage, text, Option.map_some, parsed]
  rfl

/-- A writer and a browser to run things with. -/
def sampleWriter : Writer where
  time _ := []
  float _ := .ofInt 0
  nested _ := .null
  float_regular _ := Json.Numeral.regular_ofInt 0
  nested_regular _ := trivial

def sampleBrowser : Browser := ⟨fun _ => 0, fun _ => .nan, fun _ => none⟩

end SwaWire
