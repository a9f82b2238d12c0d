import PhaseSampling.Fault
import PhaseSampling.Text.Numeral
import PhaseSampling.Text.Pieces

/-!
# Filters

A filter turns all bytes of its input into output and ends with a status. The known ones are a few
text tools and shell lists of them.

* `Filter.tool?`: a program by its name and arguments.
* `Filter.shell`: a list of commands joined by `;`, `&&` and `||`.
-/

namespace PhaseSampling

/-- What a program does: from its input to its output, what it leaves of the input, and how it
ends. -/
structure FilterRun where
  output : Bytes
  unread : Bytes
  status : ExitStatus
  deriving DecidableEq, Repr

abbrev Filter := Bytes → FilterRun

namespace Filter

open Text

/-- A filter that leaves its input alone. -/
def idle (output : String) (code : Nat) : Filter := fun bs =>
  ⟨Utf8.encode output, bs, .exited code⟩

/-- A filter of the whole input. -/
def whole (f : Bytes → Bytes) : Filter := fun bs => ⟨f bs, [], .exited 0⟩

/-- The bytes of a set such as `a-z_`. -/
def byteSet : Bytes → Bytes
  | a :: 45 :: b :: r => ((List.range (b.toNat + 1 - a.toNat)).map (a + ·.toUInt8)) ++ byteSet r
  | 92 :: 110 :: r => 10 :: byteSet r
  | a :: r => a :: byteSet r
  | [] => []

/-- Replaces each byte of one set by that at the same place of another, whose last byte goes on. -/
def replaceByte (src dst : Bytes) (b : UInt8) : UInt8 :=
  if b ∈ src then dst.getD (min (src.idxOf b) (dst.length - 1)) b else b

/-- The bytes up to the end of the line with a number. -/
def takeLines : Nat → Bytes → Bytes
  | 0, _ => []
  | _, [] => []
  | n + 1, b :: bs => b :: takeLines (if b = 10 then n else n + 1) bs

/-- A program by its name and arguments. -/
def tool? (program : String) (args : List String) : Option Filter :=
  let number (s : String) : Nat := (readWord? s.toList).getD 0
  match program, args with
  | "cat", [] | "cat", ["-"] => some (whole id)
  | "true", _ | ":", _ | "sleep", _ => some (idle "" 0)
  | "false", _ => some (idle "" 1)
  | "echo", "-n" :: words => some (idle (" ".intercalate words) 0)
  | "echo", words => some (idle (" ".intercalate words ++ "\n") 0)
  | "tr", ["-d", set] => some (whole (·.filter fun b => b ∉ byteSet (Utf8.encode set)))
  | "tr", [src, dst] =>
    some (whole (·.map (replaceByte (byteSet (Utf8.encode src)) (byteSet (Utf8.encode dst)))))
  | "head", ["-c", n] => some fun bs => ⟨bs.take (number n), bs.drop (number n), .exited 0⟩
  | "head", ["-n", n] => some (whole (takeLines (number n)))
  | "wc", ["-c"] => some (whole fun bs => Utf8.encode s!"{bs.length}\n")
  | "wc", ["-l"] => some (whole fun bs => Utf8.encode s!"{bs.count 10}\n")
  | _, _ => none

/-- The number of a signal given by number or name. -/
def signal? (s : String) : Option Nat :=
  match readWord? s.toList with
  | some n => some n
  | none => (List.range 32).find? fun n =>
      (signalName? n).any fun name => name = s || name = "SIG" ++ s

/-- How commands of a list are joined. -/
inductive Joint where
  | always
  | onSuccess
  | onFailure
  deriving DecidableEq, Repr

/-- The words of a list, with each joint as a word of its own. Quoted words may hold anything. -/
def words (word : Option (List Char)) : Option Char → List Char → List (Joint ⊕ String)
  | _, [] => close word
  | some q, c :: cs =>
    if c = q then words (some (word.getD [])) none cs
    else words (some (c :: word.getD [])) (some q) cs
  | none, '&' :: '&' :: cs => close word ++ .inl .onSuccess :: words none none cs
  | none, '|' :: '|' :: cs => close word ++ .inl .onFailure :: words none none cs
  | none, c :: cs =>
    if c = '\x27' || c = '"' then words (some (word.getD [])) (some c) cs
    else if c = ' ' || c = '\t' then close word ++ words none none cs
    else if c = ';' || c = '\n' then close word ++ .inl .always :: words none none cs
    else words (some (c :: word.getD [])) none cs
where
  close : Option (List Char) → List (Joint ⊕ String)
    | some w => [.inr (String.ofList w.reverse)]
    | none => []

/-- The commands of a list, each with the joint before it. -/
def commands (joint : Joint) (args : List String) :
    List (Joint ⊕ String) → List (Joint × List String)
  | [] => [(joint, args)]
  | .inl j :: ws => (joint, args) :: commands j [] ws
  | .inr w :: ws => commands joint (args ++ [w]) ws

/-- Whether a command runs after another. -/
def Joint.runs (j : Joint) (code : Nat) : Bool :=
  match j with
  | .always => true
  | .onSuccess => code == 0
  | .onFailure => code != 0

/-- Runs commands one after the other. A command that is not known ends with status 127. -/
def runCommands (output unread : Bytes) (code : Nat) : List (Joint × List String) → FilterRun
  | [] => ⟨output, unread, .exited code⟩
  | (_, []) :: rest => runCommands output unread code rest
  | (joint, program :: args) :: rest =>
    if !joint.runs code then runCommands output unread code rest
    else
      match program, args with
      | "exit", [] => ⟨output, unread, .exited code⟩
      | "exit", n :: _ => ⟨output, unread, .exited ((readWord? n.toList).getD 2 % 256)⟩
      | "kill", [signal, "$$"] =>
        match signal? (String.ofList (signal.toList.drop 1)) with
        | some n => ⟨output, unread, .killed n⟩
        | none => runCommands output unread 1 rest
      | "kill", ["-s", signal, "$$"] =>
        match signal? signal with
        | some n => ⟨output, unread, .killed n⟩
        | none => runCommands output unread 1 rest
      | "kill", ["$$"] => ⟨output, unread, .killed 15⟩
      | _, _ =>
        let (args, muted) :=
          match args.reverse with
          | "/dev/null" :: ">" :: rest => (rest.reverse, true)
          | ">/dev/null" :: rest => (rest.reverse, true)
          | _ => (args, false)
        match tool? program args with
        | none => runCommands output unread 127 rest
        | some f =>
          let r := f unread
          let code := match r.status with
            | .exited n => n
            | .killed n => 128 + n
          runCommands (if muted then output else output ++ r.output) r.unread code rest

/-- A list of commands. -/
def shell (script : String) : Filter := fun bs =>
  runCommands [] bs 0 (commands .always [] (words none none script.toList))

/-- The filter that a command line starts, if there is such a program. -/
def ofCommand? (program : String) (args : List String) : Option Filter :=
  match program, args with
  | "sh", ["-c", script] | "bash", ["-c", script] => some (shell script)
  | _, _ => tool? program args

end Filter

end PhaseSampling
