import SwaDemo.Float64

/-!
The part of JavaScript's values that the browser side of the portal looks at. A finite
number is the rational it stands for. A number that is parsed and a product are rounded;
differences and quotients are exact, and the sign of zero is left out.
-/
namespace Js

inductive JsNumber where
  | nan
  | posInf
  | negInf
  | fin (q : ℚ)
  deriving DecidableEq, Repr

namespace JsNumber

/-- The number that `q` is rounded to. -/
def nearest (q : ℚ) : JsNumber :=
  match Float64.nearest q with
  | some d => .fin d
  | none => if 0 < q then .posInf else .negInf

theorem nearest_intCast {n : Int} (small : |n| < 2 ^ 53) : nearest n = .fin n := by
  rw [nearest, Float64.nearest_intCast small]

def isZero : JsNumber → Bool
  | .fin q => q == 0
  | _ => false

/-- `Math.max(a, x)` for a literal `a`; NaN is contagious. -/
def mathMax (a : ℚ) : JsNumber → JsNumber
  | .nan => .nan
  | .posInf => .posInf
  | .negInf => .fin a
  | .fin q => .fin (if a ≤ q then q else a)

/-- `Number.isFinite(x) && x >= 0 ? x : 0` -/
def finiteOrZero : JsNumber → JsNumber
  | .fin q => .fin (if 0 ≤ q then q else 0)
  | _ => .fin 0

/-- `x * w` -/
def scale (w : ℚ) : JsNumber → JsNumber
  | .nan => .nan
  | .posInf => if 0 < w then .posInf else if w < 0 then .negInf else .nan
  | .negInf => if 0 < w then .negInf else if w < 0 then .posInf else .nan
  | .fin q => nearest (q * w)

def sub : JsNumber → JsNumber → JsNumber
  | .nan, _ => .nan
  | _, .nan => .nan
  | .fin a, .fin b => .fin (a - b)
  | .posInf, .posInf => .nan
  | .negInf, .negInf => .nan
  | .posInf, _ => .posInf
  | .negInf, _ => .negInf
  | .fin _, .posInf => .negInf
  | .fin _, .negInf => .posInf

def div : JsNumber → JsNumber → JsNumber
  | .nan, _ => .nan
  | _, .nan => .nan
  | .fin a, .fin b =>
    if b = 0 then (if 0 < a then .posInf else if a < 0 then .negInf else .nan)
    else .fin (a / b)
  | .fin _, _ => .fin 0
  | .posInf, .fin b => if 0 ≤ b then .posInf else .negInf
  | .negInf, .fin b => if 0 ≤ b then .negInf else .posInf
  | _, _ => .nan

/-- `a <= b`, which NaN never meets. -/
def le : JsNumber → JsNumber → Bool
  | .fin a, .fin b => a ≤ b
  | .negInf, b => b ≠ .nan
  | a, .posInf => a ≠ .nan
  | _, _ => false

instance : LE JsNumber := ⟨fun a b => a.le b⟩

instance : LT JsNumber := ⟨fun a b => a ≤ b ∧ ¬ b ≤ a⟩

instance (a b : JsNumber) : Decidable (a ≤ b) := inferInstanceAs (Decidable (a.le b))

instance (a b : JsNumber) : Decidable (a < b) := inferInstanceAs (Decidable (_ ∧ ¬ _))

@[simp] theorem fin_le_fin (a b : ℚ) : JsNumber.fin a ≤ .fin b ↔ a ≤ b := decide_eq_true_iff

end JsNumber

/-- A value other than `undefined`. Arrays and objects are opaque references. -/
inductive JsValue where
  | null
  | bool (b : Bool)
  | num (n : JsNumber)
  | str (s : String)
  | obj (ref : Nat)
  deriving DecidableEq, Repr

def JsValue.truthy : JsValue → Bool
  | .null => false
  | .bool b => b
  | .num .nan => false
  | .num n => !n.isZero
  | .str s => s != ""
  | .obj _ => true

/-- `Record<string, unknown>`; a missing key reads as `undefined`, here `none`. -/
abbrev Record := List (String × JsValue)

namespace Record

def get (r : Record) (key : String) : Option JsValue := List.lookup key r

def set (r : Record) (key : String) (v : JsValue) : Record :=
  (key, v) :: r.filter (fun p => p.1 != key)

@[simp] theorem get_set (r : Record) (key : String) (v : JsValue) :
    (r.set key v).get key = some v := by
  simp [get, set]

theorem get_set_other (r : Record) {key name : String} (other : key ≠ name) (v : JsValue) :
    (r.set name v).get key = r.get key := by
  rw [set, get, get, List.lookup_cons, beq_eq_false_iff_ne.mpr other]
  induction r with
  | nil => rfl
  | cons m r ih =>
    by_cases dropped : m.1 = name
    · have skipped : (key == m.1) = false := beq_eq_false_iff_ne.mpr (dropped ▸ other)
      rw [List.filter_cons_of_neg (by simp [dropped]), List.lookup_cons, skipped]
      exact ih
    · rw [List.filter_cons_of_pos (by simp [dropped]), List.lookup_cons, List.lookup_cons]
      cases key == m.1 with
      | true => rfl
      | false => exact ih

end Record

/-- A property of a record that may be absent: `o?.key`. -/
def prop (r : Option Record) (key : String) : Option JsValue := r.bind (·.get key)

end Js
