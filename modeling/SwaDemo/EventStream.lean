import SwaDemo.Runs
import Mathlib.Data.List.TakeDrop

/-!
Event streams (`text/event-stream`) as a browser reads them, byte by byte: lines that end in a
carriage return, a line feed or both, fields, and the event that an empty line dispatches. The
bytes stand for the characters that they are decoded to. An event that the stream breaks off
in is never dispatched, so what has been dispatched is a matter of the frames that have
arrived whole, wherever the reads were cut.
-/
namespace EventStream
open Runs

structure Event where
  type : List UInt8
  data : List UInt8
  deriving DecidableEq, Repr

/-- `cr`: the last byte was a carriage return, which a line feed belongs to. -/
structure State where
  line : List UInt8
  cr : Bool
  data : List UInt8
  type : List UInt8
  events : List Event
  deriving DecidableEq, Repr

/-- A stream that begins, after earlier events. -/
def start (events : List Event) : State := ⟨[], false, [], [], events⟩

/-- "data" -/
def dataName : List UInt8 := [100, 97, 116, 97]

/-- "event" -/
def eventName : List UInt8 := [101, 118, 101, 110, 116]

/-- "message" -/
def messageType : List UInt8 := [109, 101, 115, 115, 97, 103, 101]

/-- The name of a line's field, and its value without the space before it. A comment has the
    empty name. -/
def field (line : List UInt8) : List UInt8 × List UInt8 :=
  (line.takeWhile (· ≠ 58),
    match line.dropWhile (· ≠ 58) with
    | _ :: 32 :: value => value
    | _ :: value => value
    | [] => [])

/-- An event without data is dropped. The line feed behind its last line is no part of the data. -/
def dispatch (s : State) : State :=
  if s.data = [] then { s with type := [] }
  else
    { s with
      data := []
      type := []
      events := s.events ++ [⟨if s.type = [] then messageType else s.type, s.data.dropLast⟩] }

/-- The fields `id` and `retry` have no part in what is dispatched. -/
def store (s : State) : List UInt8 × List UInt8 → State
  | (name, value) =>
    if name = dataName then { s with data := s.data ++ value ++ [10] }
    else if name = eventName then { s with type := value }
    else s

def endLine (s : State) : State :=
  if s.line = [] then dispatch s else { store s (field s.line) with line := [] }

def step (s : State) (c : UInt8) : State :=
  if c = 10 then if s.cr = true then { s with cr := false } else endLine s
  else if c = 13 then { endLine s with cr := true }
  else { s with line := s.line ++ [c], cr := false }

/-- What the handler of `onmessage` is called with. -/
def messages (s : State) : List (List UInt8) :=
  (s.events.filter (·.type = messageType)).map (·.data)

/-! ## Frames -/

/-- One event: a line of data and an empty line. -/
def dataFrame (body : List UInt8) : List UInt8 := dataName ++ [58, 32] ++ body ++ [10, 10]

def dataFrames (bodies : List (List UInt8)) : List UInt8 := bodies.flatMap dataFrame

/-- A body in one line. -/
def OneLine (body : List UInt8) : Prop := ∀ c ∈ body, c ≠ 10 ∧ c ≠ 13

/-- How many frames lie in the first `n` bytes. -/
def whole : List (List UInt8) → Nat → Nat
  | [], _ => 0
  | body :: bodies, n =>
    if (dataFrame body).length ≤ n then whole bodies (n - (dataFrame body).length) + 1 else 0

theorem dataFrame_length (body : List UInt8) : (dataFrame body).length = body.length + 8 := by
  simp only [dataFrame, dataName, List.length_append, List.length_cons, List.length_nil]
  omega

theorem whole_le (bodies : List (List UInt8)) (n : Nat) : whole bodies n ≤ bodies.length := by
  induction bodies generalizing n with
  | nil => exact Nat.le_refl 0
  | cons body bodies ih =>
    rw [whole]
    split
    · have rest := ih (n - (dataFrame body).length)
      rw [List.length_cons]
      omega
    · exact Nat.zero_le _

theorem whole_mono (bodies : List (List UInt8)) {n m : Nat} (le : n ≤ m) : whole bodies n ≤ whole bodies m := by
  induction bodies generalizing n m with
  | nil => exact Nat.le_refl 0
  | cons body bodies ih =>
    rw [whole, whole]
    split
    · have rest := @ih (n - (dataFrame body).length) (m - (dataFrame body).length) (by omega)
      rw [if_pos (by omega)]
      omega
    · exact Nat.zero_le _

/-- Frames behind the bytes that are looked at do not count. -/
theorem whole_append (bodies later : List (List UInt8)) {n : Nat}
    (within : n ≤ (dataFrames bodies).length) : whole (bodies ++ later) n = whole bodies n := by
  induction bodies generalizing n with
  | nil =>
    have none_ : n = 0 := by simpa [dataFrames] using within
    subst none_
    cases later with
    | nil => rfl
    | cons body later =>
      rw [List.nil_append, whole, whole, if_neg]
      rw [dataFrame_length]
      omega
  | cons first bodies ih =>
    have cons : dataFrames (first :: bodies) = dataFrame first ++ dataFrames bodies := rfl
    rw [cons, List.length_append] at within
    rw [List.cons_append, whole, whole, ih (by omega)]

theorem whole_all (bodies : List (List UInt8)) : whole bodies (dataFrames bodies).length = bodies.length := by
  induction bodies with
  | nil => rfl
  | cons body bodies ih =>
    have cons : dataFrames (body :: bodies) = dataFrame body ++ dataFrames bodies := rfl
    rw [cons, List.length_append, whole, if_pos (by omega), Nat.add_sub_cancel_left, ih, List.length_cons]

theorem run_line {line : List UInt8} (oneLine : OneLine line) {s : State} (fresh : s.cr = false) :
    run step s line = { s with line := s.line ++ line } := by
  induction line generalizing s with
  | nil => simp
  | cons c line ih =>
    obtain ⟨lf, cr⟩ := oneLine c (by simp)
    have one : step s c = { s with line := s.line ++ [c] } := by
      rw [step, if_neg lf, if_neg cr, ← fresh]
    have rest := ih (fun d mem => oneLine d (by simp [mem])) (s := { s with line := s.line ++ [c] }) fresh
    rw [run_cons, one, rest]
    simp

theorem field_data (body : List UInt8) : field (dataName ++ [58, 32] ++ body) = (dataName, body) := by
  simp [field, dataName]

theorem oneLine_data {body : List UInt8} (oneLine : OneLine body) :
    OneLine (dataName ++ [58, 32] ++ body) := by
  intro c mem
  rcases List.mem_append.mp mem with front | inside
  · have letters : ∀ c ∈ dataName ++ [58, 32], c ≠ 10 ∧ c ≠ 13 := by decide +kernel
    exact letters c front
  · exact oneLine c inside

/-- Up to the end of its first line a frame only extends the line, then it has its data. -/
theorem run_data {body : List UInt8} (oneLine : OneLine body) (events : List Event) :
    run step (start events) (dataName ++ [58, 32] ++ body ++ [10]) =
      ⟨[], false, body ++ [10], [], events⟩ := by
  have line := run_line (oneLine_data oneLine) (s := start events) rfl
  have ended : endLine ⟨dataName ++ [58, 32] ++ body, false, [], [], events⟩ =
      ⟨[], false, body ++ [10], [], events⟩ := by
    rw [endLine, if_neg (by simp [dataName]), field_data]
    simp [store]
  rw [run_concat, line]
  simp only [start, List.nil_append, step, if_true, Bool.false_eq_true, if_false]
  exact ended

theorem run_frame {body : List UInt8} (oneLine : OneLine body) (events : List Event) :
    run step (start events) (dataFrame body) = start (events ++ [⟨messageType, body⟩]) := by
  have split : dataFrame body = dataName ++ [58, 32] ++ body ++ [10] ++ [10] := by simp [dataFrame]
  rw [split, run_concat, run_data oneLine]
  simp [step, endLine, dispatch, start]

/-- A part of a frame dispatches nothing. -/
theorem run_part {body : List UInt8} (oneLine : OneLine body) (events : List Event) {n : Nat}
    (part : n < (dataFrame body).length) :
    (run step (start events) ((dataFrame body).take n)).events = events := by
  have split : dataFrame body = dataName ++ [58, 32] ++ body ++ [10] ++ [10] := by simp [dataFrame]
  have size := dataFrame_length body
  rcases Nat.lt_or_ge n (body.length + 7) with inside | full
  · have line : (dataFrame body).take n = (dataName ++ [58, 32] ++ body).take n := by
      rw [split, List.append_assoc, List.take_append_of_le_length]
      simp only [dataName, List.length_append, List.length_cons, List.length_nil]
      omega
    rw [line, run_line (fun c mem => oneLine_data oneLine c (List.mem_of_mem_take mem)) rfl]
    rfl
  · have exact_ : n = body.length + 7 := by omega
    have data : (dataFrame body).take n = dataName ++ [58, 32] ++ body ++ [10] := by
      rw [split, List.take_append_of_le_length, List.take_of_length_le]
      all_goals
        simp only [dataName, List.length_append, List.length_cons, List.length_nil]
        omega
    rw [data, run_data oneLine]

/-- Whatever part of some frames has arrived, the whole ones among them are dispatched. -/
theorem run_frames {bodies : List (List UInt8)} (oneLine : ∀ body ∈ bodies, OneLine body)
    (events : List Event) (n : Nat) :
    (run step (start events) ((dataFrames bodies).take n)).events =
      events ++ (bodies.take (whole bodies n)).map (⟨messageType, ·⟩) := by
  induction bodies generalizing events n with
  | nil => simp [dataFrames, whole, start]
  | cons body bodies ih =>
    have cons : dataFrames (body :: bodies) = dataFrame body ++ dataFrames bodies := rfl
    have first := oneLine body (by simp)
    rw [cons, whole]
    split
    · rename_i full
      rw [List.take_append, List.take_of_length_le full, run_append, run_frame first,
        ih (fun other mem => oneLine other (by simp [mem]))]
      simp
    · rename_i short
      rw [List.take_append_of_le_length (by omega), run_part first events (by omega)]
      simp

theorem messages_start {s : State} {bodies : List (List UInt8)}
    (events : s.events = bodies.map (⟨messageType, ·⟩)) : messages s = bodies := by
  rw [messages, events]
  clear events
  induction bodies with
  | nil => rfl
  | cons body bodies ih => simpa using ih

end EventStream
