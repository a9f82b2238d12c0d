import PhaseSampling.Text.Numeral
import PhaseSampling.Text.Pieces

/-!
# Command line options

A command takes options only, each by a long name and some by a letter too. `Options.parse` reads
arguments from left to right; the first that does not fit ends it.
-/

namespace PhaseSampling

/-- What an option takes. -/
inductive OptionKind where
  | flag
  | text
  /-- A text that is not empty. -/
  | path
  | word
  /-- One of some texts. -/
  | choice (values : List String)
  deriving DecidableEq, Repr

structure OptionSpec where
  long : String
  short : Option Char
  kind : OptionKind
  /-- The value of an option that is not given; without one it has to be. -/
  fallback : Option String
  deriving DecidableEq, Repr

/-- Why arguments lead to no run. -/
inductive Refusal where
  | usage
  | version
  | help
  deriving DecidableEq, Repr

/-- The values given, by long names. -/
abbrev Options := List (String × String)

namespace Options

def OptionSpec.accepts (o : OptionSpec) (v : String) : Bool :=
  match o.kind with
  | .flag => false
  | .text => true
  | .path => v ≠ ""
  | .word => (Text.readWord? v.toList).isSome
  | .choice values => v ∈ values

/-- Whether an argument is an option and not a value. -/
def looksLikeOption (a : String) : Bool := a.startsWith "-" && a ≠ "-"

/-- Takes a value. An option may be given once. -/
def put (o : OptionSpec) (v : String) (given : Options) : Except Refusal Options :=
  if (given.lookup o.long).isSome || !OptionSpec.accepts o v then .error .usage
  else .ok ((o.long, v) :: given)

/-- Takes a flag. -/
def putFlag (o : OptionSpec) (given : Options) : Except Refusal Options :=
  if (given.lookup o.long).isSome then .error .usage else .ok ((o.long, "true") :: given)

/-- Takes a value from the argument itself or else from the next one. -/
def putNext (o : OptionSpec) (attached : Option String) (rest : List String) (given : Options) :
    Except Refusal (Options × Bool) :=
  match attached, rest with
  | some v, _ => (put o v given).map (·, false)
  | none, v :: _ =>
    if looksLikeOption v then .error .usage else (put o v given).map (·, true)
  | none, [] => .error .usage

/-- Takes an argument `--name` or `--name=value`; tells whether the next argument was its value. -/
def takeLong (specs : List OptionSpec) (a : String) (rest : List String) (given : Options) :
    Except Refusal (Options × Bool) :=
  let body := a.toList.drop 2
  let (name, value) : String × Option String :=
    match Text.splitOnce '=' body with
    | some (n, v) => (String.ofList n, some (String.ofList v))
    | none => (String.ofList body, none)
  if name = "version" || name = "help" then
    .error (if value.isSome then .usage else if name = "help" then .help else .version)
  else
    match specs.find? (·.long == name) with
    | none => .error .usage
    | some o =>
      if o.kind = .flag then
        if value.isSome then .error .usage else (putFlag o given).map (·, false)
      else putNext o value rest given

/-- Takes the letters of an argument `-abc`. The first that takes a value gets what follows it. -/
def takeShort (specs : List OptionSpec) (rest : List String) :
    List Char → Options → Except Refusal (Options × Bool)
  | [], given => .ok (given, false)
  | c :: cs, given =>
    if c = 'V' then .error .version
    else if c = 'h' then .error .help
    else
      match specs.find? (·.short == some c) with
      | none => .error .usage
      | some o =>
        if o.kind = .flag then do takeShort specs rest cs (← putFlag o given)
        else
          match cs with
          | [] => putNext o none rest given
          | '=' :: v => putNext o (some (String.ofList v)) rest given
          | v => putNext o (some (String.ofList v)) rest given

/-- Takes all arguments. -/
def takeAll (specs : List OptionSpec) : List String → Options → Except Refusal Options
  | [], given => .ok given
  | a :: rest, given =>
    if a = "--" then if rest = [] then .ok given else .error .usage
    else if !looksLikeOption a then .error .usage
    else
      let step :=
        if a.startsWith "--" then takeLong specs a rest given
        else takeShort specs rest (a.toList.drop 1) given
      match step, rest with
      | .error r, _ => .error r
      | .ok (given, true), _ :: rest => takeAll specs rest given
      | .ok (given, _), rest => takeAll specs rest given
  termination_by args => args.length

/-- Adds the values of options that were not given. -/
def complete (specs : List OptionSpec) (given : Options) : Except Refusal Options :=
  specs.foldlM (fun acc o =>
    match given.lookup o.long, o.fallback with
    | some v, _ => .ok ((o.long, v) :: acc)
    | none, some v => .ok ((o.long, v) :: acc)
    | none, none => .error .usage) []

/-- The value of every option of a command. -/
def parse (specs : List OptionSpec) (args : List String) : Except Refusal Options := do
  complete specs (← takeAll specs args [])

def text (o : Options) (long : String) : String := (o.lookup long).getD ""

def word (o : Options) (long : String) : Nat := (Text.readWord? (o.text long).toList).getD 0

def flag (o : Options) (long : String) : Bool := o.text long == "true"

end Options

end PhaseSampling
