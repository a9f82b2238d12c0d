import PhaseSampling.Fault

/-!
# Why an engine stopped

An engine names the cause of each stop by a text. Two of these texts are known; any other one ends
the run.
-/

namespace PhaseSampling

/-- The text for the exit of the program's last thread. -/
def exitText : String := "exiting with last active thread context"

/-- The text for a breakpoint that fired. -/
def breakText : String := "pin-breakpoint"

inductive StopCause where
  /-- The program ran to its end. -/
  | completed
  /-- The requested breakpoint was reached. -/
  | breakpoint
  | other (text : String)
  deriving DecidableEq, Repr

namespace StopCause

def ofText (s : String) : StopCause :=
  if s = exitText then .completed else if s = breakText then .breakpoint else .other s

def text : StopCause → String
  | .completed => exitText
  | .breakpoint => breakText
  | .other s => s

/-- The fault of a stop for another reason. -/
def unexpected (cause expected : StopCause) : Fault :=
  .unexpectedStop expected.text cause.text

/-- Anything but the expected cause is a fault. -/
def expect (cause expected : StopCause) : Except Fault Unit :=
  if cause = expected then .ok () else .error (cause.unexpected expected)

theorem text_ofText (s : String) : (ofText s).text = s := by
  by_cases h1 : s = exitText
  · simp [ofText, text, h1]
  · by_cases h2 : s = breakText
    · subst h2; simp [ofText, text, exitText, breakText]
    · simp [ofText, text, h1, h2]

end StopCause

end PhaseSampling
