import PhaseSampling.Fault
import PhaseSampling.Text.Numeral
import PhaseSampling.Text.Pieces

/-!
# Responses of a controller

A response is a header line and, if it is `ok <length>`, that many bytes of payload; `err <text>`
reports an error. Each read takes its own bytes off the stream and leaves the rest, also when it
fails.

* `Response.read`: the next response of a stream.
* `Response.frame`: a payload as a response.
-/

namespace PhaseSampling.Response

/-- The longest payload accepted, in bytes. -/
def maxLength : Nat := 1 <<< 30

/-- The bytes before the first newline, and those after it. -/
def takeLine : Bytes → Bytes × Bytes
  | [] => ([], [])
  | b :: bs => if b = 10 then ([], bs) else ((takeLine bs).map (b :: ·) id)

/-- What a header asks for: the length of the payload. -/
def payloadLength (header : String) : Except Fault Nat :=
  match Text.splitOnce ' ' header.toList with
  | some (['o', 'k'], len) =>
    match Text.readWord? len with
    | none => .error (.protocol (.badLength header))
    | some n =>
      if n > maxLength then .error (.protocol (.oversized n maxLength)) else .ok n
  | some (['e', 'r', 'r'], text) => .error (.protocol (.reported (String.ofList text)))
  | _ => .error (.protocol (.badHeader header))

/-- Reads a payload of a length. One that is cut short takes all there is. -/
def readPayload (n : Nat) (bs : Bytes) : Except Fault String × Bytes :=
  let payload := bs.take n
  if payload.length < n then (.error (.system .payloadCut), [])
  else
    match Text.Utf8.decode payload with
    | .ok s => (.ok s, bs.drop n)
    | .error f => (.error (.encoding f), bs.drop n)

/-- Reads the next response. -/
def read (bs : Bytes) : Except Fault String × Bytes :=
  if bs.isEmpty then (.error (.protocol .closed), [])
  else
    let (line, rest) := takeLine bs
    match Text.Utf8.decode line with
    | .error _ => (.error (.system .lineNotText), rest)
    | .ok header =>
      match payloadLength header with
      | .error f => (.error f, rest)
      | .ok n => readPayload n rest

/-- A payload as a response. -/
def frame (payload : String) : Bytes :=
  let body := Text.Utf8.encode payload
  Text.Utf8.encode s!"ok {body.length}\n" ++ body

/-- An error as a response. -/
def errorFrame (text : String) : Bytes := Text.Utf8.encode s!"err {text}\n"

end PhaseSampling.Response
