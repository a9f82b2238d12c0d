import PhaseSampling.Engine.Basic
import PhaseSampling.Engine.Response
import PhaseSampling.Text.Blank

/-!
# A controller behind two streams

An engine that sends a command line for each request and reads the response to it before the next.
Setting a breakpoint and running to it are two commands.
-/

namespace PhaseSampling

open Text

structure Controller where
  /-- What the controller has still to say. -/
  unread : Bytes
  /-- All that was sent to it. -/
  sent : String
  deriving DecidableEq, Repr

namespace Controller

/-- A result, and the controller and world after it. -/
abbrev Result (α : Type) := Except Fault α × Controller × World

/-- Sends a command and reads the payload of the response. -/
def command (cmd : String) (s : Controller) (w : World) : Result String :=
  let w := w.say .trace s!"> {cmd}"
  let (r, unread) := Response.read s.unread
  let s := ⟨unread, s.sent ++ cmd ++ "\n"⟩
  match r with
  | .ok payload => (.ok payload, s, w.say .trace ("< " ++ quote payload))
  | .error f => (.error f, s, w)

/-- Sends a command whose payload does not matter. -/
def order (cmd : String) (s : Controller) (w : World) : Result Unit :=
  match s.command cmd w with
  | (.ok _, s, w) => (.ok (), s, w)
  | (.error f, s, w) => (.error f, s, w)

/-- Sends a command that is answered by a numeral, with or without blanks around it. -/
def number (cmd : String) (s : Controller) (w : World) : Result Nat :=
  match s.command cmd w with
  | (.ok payload, s, w) =>
    match readWord? (trim payload.toList) with
    | some n => (.ok n, s, w)
    | none => (.error (.protocol (.notNumeric cmd payload)), s, w)
  | (.error f, s, w) => (.error f, s, w)

/-- Runs the program until it stops. Blanks after the cause do not count. -/
def simulate (s : Controller) (w : World) : Result StopCause :=
  match s.command "simulate" w with
  | (.ok payload, s, w) =>
    (.ok (.ofText (String.ofList (trimEnd payload.toList))), s, w)
  | (.error f, s, w) => (.error f, s, w)

/-- Stops the program when it issues a system call. -/
def sysbreak (number : Nat) (s : Controller) (w : World) : Result Unit :=
  s.order s!"sysbreak {number}" w

def answer (c : Call) (s : Controller) (w : World) : Result c.Answer :=
  match c with
  | .count counter => s.number s!"{counter.name}count" w
  | .advance counter target =>
    match s.order s!"breakpoint {counter.name} {target}" w with
    | (.ok _, s, w) => s.simulate w
    | (.error f, s, w) => (.error f, s, w)
  | .complete => s.simulate w
  | .checkpoint path => s.order s!"checkpoint {path}" w
  | .stats => s.order "stats dump" w
  | .dump => s.command "bbhist dump" w
  | .reset => s.order "bbhist reset" w

/-- Every step of a run reads responses, of which each takes a byte at least. -/
def engine : Engine Controller where
  answer := answer
  budget s := 2 * s.unread.length + 4

/-- Waits for the controller to exit with a status. -/
def shutdown (status : ExitStatus) (w : World) : World :=
  if status = .exited 0 then w else w.say .warn s!"Controller exited with {status.message}"

end Controller

end PhaseSampling
