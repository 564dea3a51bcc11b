import SwaDemo.JsValue

/-!
The countdown of the user interface (`engine/ttlTicker.ts`). `now` stands for
`Math.floor(Date.now() / 1000)`; the engine is the only subscriber.
-/
namespace SwaTtl
open Js

structure TtlSnapshot where
  remaining : JsNumber
  fraction : JsNumber
  deriving DecidableEq, Repr

structure TtlTicker where
  expEpoch : Option JsNumber
  iatEpoch : Option JsNumber
  timer : Bool
  deriving DecidableEq, Repr

def initial : TtlTicker := ⟨none, none, false⟩

/-- What the subscribers are called with; `none` where `tick` returns early. -/
def tick (now : Int) (t : TtlTicker) : Option TtlSnapshot :=
  match t.expEpoch, t.iatEpoch with
  | some exp, some iat =>
    let remaining := (exp.sub (.fin now)).mathMax 0
    let total := (exp.sub iat).mathMax 1
    some ⟨remaining, remaining.div total⟩
  | _, _ => none

/-- The assignments of `setIssuedAndExp`, which then calls `tick`. -/
def setIssuedAndExp (iat exp : JsNumber) : TtlTicker := ⟨some exp, some iat, true⟩

def freeze (now : Int) (t : TtlTicker) : TtlTicker := { t with expEpoch := some (.fin now) }

end SwaTtl
