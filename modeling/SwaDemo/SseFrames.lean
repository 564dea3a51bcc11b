import SwaDemo.TraceEvent

/-!
Frames on the wire. The carrier writes `data: `, a JSON body and a blank line
(`trace.go`); the portal reads up to 8192 bytes at a time and splits what one
read returned (`carrier_client.go`).
-/
namespace SwaFrames
open SwaTrace

abbrev Bytes := List UInt8

def newline : UInt8 := 10

def dataPrefix : Bytes := [100, 97, 116, 97, 58, 32]

/-- What `handleTraceSSE` writes for one event. -/
def encodeFrame (body : Bytes) : Bytes := dataPrefix ++ body ++ [newline, newline]

def encodeFrames (bodies : List Bytes) : Bytes := bodies.flatMap encodeFrame

/-- `string(b)` of one byte: the UTF-8 form of the code point with that number. -/
def stringOfByte (b : UInt8) : GoString :=
  if b.toNat < 128 then [b]
  else [UInt8.ofNat (192 + b.toNat / 64), UInt8.ofNat (128 + b.toNat % 64)]

def stringOfBytes (bs : Bytes) : GoString := bs.flatMap stringOfByte

/-- The loop of `splitOnDoubleNewline` over the bytes from index `i` on; `before` is
    `s[i-1]` where there is one. The result is `none` where `cur[:len(cur)-2]` is out
    of range, which panics. -/
def splitLoop (before : Option UInt8) (res : List GoString) (cur : GoString) :
    Bytes → Option (List GoString)
  | [] => some (if cur = [] then res else res ++ [cur])
  | b :: rest =>
    let cur := cur ++ stringOfByte b
    if before = some newline ∧ b = newline then
      if cur.length < 2 then none
      else splitLoop (some b) (res ++ [cur.take (cur.length - 2)]) [] rest
    else splitLoop (some b) res cur rest

def splitOnDoubleNewline (s : Bytes) : Option (List GoString) := splitLoop none [] [] s

/-- `if len(chunk) > 6 && chunk[:6] == "data: "` then `chunk[6:]` -/
def frameOf (chunk : GoString) : Option GoString :=
  if 6 < chunk.length ∧ chunk.take 6 = dataPrefix then some (chunk.drop 6) else none

def splitFrames (s : Bytes) : Option (List GoString) :=
  (splitOnDoubleNewline s).map (·.filterMap frameOf)

/-- One result of `resp.Body.Read(buf)`; `failed` is `err != nil`. -/
structure Read where
  bytes : Bytes
  failed : Bool
  deriving DecidableEq, Repr

def rawEvent (frame : GoString) : TraceEvent :=
  newEvent "carrier" "carrier.event.raw" [("frame", .str frame)]

/-- What `streamCarrierTrace` emits for the reads it makes; `none` where it panics. -/
def streamReads : List Read → Option (List TraceEvent)
  | [] => some []
  | r :: later => do
    let frames ← if r.bytes = [] then some [] else splitFrames r.bytes
    let rest ← if r.failed then some [] else streamReads later
    return frames.map rawEvent ++ rest

end SwaFrames
