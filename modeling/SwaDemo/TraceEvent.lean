import Mathlib.Data.Rat.Defs

/-!
The trace event that both services put on their buses (`trace.go`). A Go string
is a list of bytes. A payload is a `map[string]any`, listed as the code writes it.
-/
namespace SwaTrace

abbrev GoString := List UInt8

def goString (s : String) : GoString := s.toUTF8.data.toList

/-- The dynamic values of a payload; arrays and objects are opaque references. -/
inductive GoValue where
  | nil
  | bool (b : Bool)
  | int (n : Int)
  | float (q : ℚ)
  | str (s : GoString)
  | composite (ref : Nat)
  deriving DecidableEq, Repr

abbrev Payload := List (String × GoValue)

/-- `ts` is `none` for the zero time. -/
structure TraceEvent where
  ts : Option Int
  source : String
  type : String
  payload : Payload
  deriving DecidableEq, Repr

def newEvent (source type : String) (payload : Payload) : TraceEvent := ⟨none, source, type, payload⟩

end SwaTrace
