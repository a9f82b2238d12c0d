import PhaseSampling.Engine.Counter
import PhaseSampling.Text.Quoted
import PhaseSampling.Text.Utf8

/-!
# Faults

Everything that can end a run early, by its cause. `Fault.message` gives the wording; nothing else
depends on it.
-/

namespace PhaseSampling

/-- Faults of files and streams. -/
inductive SystemFault where
  | noEntry
  | occupied
  | notDirectory
  | isDirectory
  | nameTooLong
  | tooManyLinks
  /-- A path or link target that contains NUL is refused before it is looked up. -/
  | nulInName
  /-- No directory on the way to a path could be created. -/
  | noTree
  /-- A payload ended before its announced length. -/
  | payloadCut
  /-- A line that had to be text is not UTF-8. -/
  | lineNotText
  /-- An output took none of the bytes it was given. -/
  | outputFull
  deriving DecidableEq, Repr

def SystemFault.message : SystemFault → String
  | .noEntry => "No such file or directory (os error 2)"
  | .occupied => "File exists (os error 17)"
  | .notDirectory => "Not a directory (os error 20)"
  | .isDirectory => "Is a directory (os error 21)"
  | .nameTooLong => "File name too long (os error 36)"
  | .tooManyLinks => "Too many levels of symbolic links (os error 40)"
  | .nulInName => "file name contained an unexpected NUL byte"
  | .noTree => "failed to create whole tree"
  | .payloadCut => "failed to fill whole buffer"
  | .lineNotText => "stream did not contain valid UTF-8"
  | .outputFull => "failed to write whole buffer"

/-- Faults of the conversation with an engine. -/
inductive ProtocolFault where
  /-- The target of a run would not be a word. -/
  | targetOverflow (counter : Counter) (count n : Nat)
  /-- The controller sends nothing more. -/
  | closed
  /-- A length that is not a numeral. -/
  | badLength (header : String)
  /-- A length beyond the limit. -/
  | oversized (length limit : Nat)
  /-- The controller reports an error of its own. -/
  | reported (text : String)
  /-- A header that is neither `ok` nor `err`. -/
  | badHeader (header : String)
  /-- A count that is not a numeral. -/
  | notNumeric (command payload : String)
  /-- The instruction counts of one simpoint are out of order. -/
  | wentBackwards (name : String) (warmup interval stop : Nat)
  deriving DecidableEq, Repr

open Text in
def ProtocolFault.message : ProtocolFault → String
  | .targetOverflow counter count n => s!"{counter.name} {count} + {n} overflows"
  | .closed => "controller closed its output"
  | .badLength header => "bad response length in " ++ quote header
  | .oversized length limit => s!"response of {length} bytes exceeds the {limit} byte limit"
  | .reported text => "controller error: " ++ text
  | .badHeader header => "bad response header " ++ quote header
  | .notNumeric command payload =>
    "'" ++ command ++ "' returned non-numeric " ++ quote payload
  | .wentBackwards name warmup interval stop =>
    s!"instruction count went backwards in simpoint {name}: {warmup} {interval} {stop}"

/-- How a filter program ended. -/
inductive ExitStatus where
  | exited (code : Nat)
  | killed (signal : Nat)
  deriving DecidableEq, Repr

/-- The names of the signals that end a program. -/
def signalName? : Nat → Option String
  | 1 => some "SIGHUP"
  | 2 => some "SIGINT"
  | 3 => some "SIGQUIT"
  | 6 => some "SIGABRT"
  | 9 => some "SIGKILL"
  | 10 => some "SIGUSR1"
  | 12 => some "SIGUSR2"
  | 13 => some "SIGPIPE"
  | 14 => some "SIGALRM"
  | 15 => some "SIGTERM"
  | _ => none

def ExitStatus.message : ExitStatus → String
  | .exited code => s!"exit status: {code}"
  | .killed signal =>
    match signalName? signal with
    | some name => s!"signal: {signal} ({name})"
    | none => s!"signal: {signal}"

/-- What is wrong with JSON text. -/
inductive JsonFault where
  /-- It is not JSON. -/
  | malformed
  /-- It is JSON of another shape than asked for. -/
  | mismatch
  /-- It ends too early. -/
  | truncated
  /-- It cannot be read at all. -/
  | unreadable
  deriving DecidableEq, Repr

def JsonFault.message : JsonFault → String
  | .malformed => "the text is not JSON"
  | .mismatch => "the JSON has another shape than expected"
  | .truncated => "the JSON ends too early"
  | .unreadable => SystemFault.isDirectory.message

inductive Fault where
  /-- The engine stopped for another reason than the expected one. -/
  | unexpectedStop (expected got : String)
  /-- The program exited before a target that had to be reached. -/
  | exitedEarly (counter : Counter) (target : Nat)
  /-- A histogram whose last line is not ended. -/
  | unterminatedHistogram
  /-- A histogram line that is no `<count> <block>`, or one that carries the total past a word. -/
  | malformedHistogram (line : Nat) (text : String)
  | intervalNotAboveWarmup (interval warmup : Nat)
  | unorderedWaypoints (name : String) (warmup interval stop : Nat)
  | duplicateName (name : String)
  /-- Two neighbours in a list of simpoints that do not increase. -/
  | notIncreasing (prev next : String) (prevAt nextAt : Nat)
  /-- The lists of a sampling run are out of step. -/
  | bookkeeping (warmups intervals dumps : Nat)
  /-- The filter of an output failed. -/
  | filter (status : ExitStatus)
  | protocol (cause : ProtocolFault)
  | system (cause : SystemFault)
  | encoding (cause : Text.Utf8.Fault)
  | json (cause : JsonFault)
  /-- A simpoint's end came before its other waypoints. -/
  | endedTooSoon (name : String)
  /-- A run was cut off after the steps it was given. -/
  | unfinished
  /-- Whatever else an engine reports. -/
  | other (text : String)
  deriving DecidableEq, Repr

def Fault.message : Fault → String
  | .unexpectedStop expected got => s!"expected exit cause '{expected}', got '{got}'"
  | .exitedEarly counter target => s!"program exited before reaching {counter.name} {target}"
  | .unterminatedHistogram => "basic block histogram dump is not newline terminated"
  | .malformedHistogram line text =>
    s!"malformed basic block histogram line {line}: " ++ Text.quote text
  | .intervalNotAboveWarmup interval warmup =>
    s!"interval ({interval}) must be larger than warmup ({warmup})"
  | .unorderedWaypoints name warmup interval stop =>
    s!"simpoint {name}: waypoints [{warmup}, {interval}, {stop}] are not in order"
  | .duplicateName name => s!"simpoint name {name} is used more than once"
  | .notIncreasing prev next prevAt nextAt =>
    s!"simpoints {prev} and {next} are not strictly increasing ({prevAt} >= {nextAt})"
  | .bookkeeping warmups intervals dumps =>
    s!"boundary bookkeeping mismatch: {warmups} warmups, {intervals} intervals, {dumps} dumps"
  | .filter status => "compressor exited with non-zero status: " ++ status.message
  | .protocol cause => "controller protocol error: " ++ cause.message
  | .system cause => cause.message
  | .encoding cause => cause.message
  | .json cause => cause.message
  | .endedTooSoon name => s!"simpoint {name} ended before all its waypoints were reached"
  | .unfinished => "run cut off"
  | .other text => text

instance : Coe SystemFault Fault := ⟨.system⟩
instance : Coe ProtocolFault Fault := ⟨.protocol⟩
instance : Coe JsonFault Fault := ⟨.json⟩

end PhaseSampling
