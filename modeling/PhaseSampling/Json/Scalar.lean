import PhaseSampling.Fault
import PhaseSampling.Json.Value

/-!
# Reading JSON scalars

Readers take symbols off the front of a text: characters, and marks for bytes that belong to none.
Each gives what it read and the rest, or the first fault from the left.

* `readNumber`: a number, which must be in the range of floating point.
* `readString`: a string after its opening quote. Skipped strings may hold any bytes and escapes of
  lone surrogates; all others may not.
-/

namespace PhaseSampling.Json

/-- A text as characters, with `none` for each byte that belongs to no character. -/
abbrev Symbols := List (Option Char)

/-- A reader of values. -/
abbrev Reader (α : Type) := Symbols → Except JsonFault (α × Symbols)

/-- The symbols after all spaces, tabs and line ends. -/
def skipBlank : Symbols → Symbols
  | [] => []
  | s :: r => if s ∈ [some ' ', some '\n', some '\t', some '\r'] then skipBlank r else s :: r

/-- Reads the rest of a word. -/
def readWordEnd {α : Type} (a : α) : List Char → Reader α
  | [], r => .ok (a, r)
  | _ :: _, [] => .error .truncated
  | c :: cs, s :: r => if s = some c then readWordEnd a cs r else .error .malformed

/-- The digits in front. -/
def takeDigits : Symbols → List Char × Symbols
  | some c :: r =>
    if c.isDigit then
      let (ds, r) := takeDigits r
      (c :: ds, r)
    else ([], some c :: r)
  | r => ([], r)

inductive Number where
  | word (n : Nat)
  /-- The whole number `-n`, below zero and of 64 bits. -/
  | negative (n : Nat)
  | float (x : Binary64)
  deriving DecidableEq, Repr

/-- Reads digits that must not be missing. -/
def readDigits : Reader (List Char)
  | [] => .error .truncated
  | r =>
    match takeDigits r with
    | ([], _) => .error .malformed
    | (ds, r) => .ok (ds, r)

/-- Reads the whole part of a number: a zero alone, or digits that do not start with one. -/
def readWhole : Reader (List Char)
  | [] => .error .truncated
  | r =>
    match takeDigits r with
    | ([], _) => .error .malformed
    | ('0' :: _ :: _, _) => .error .malformed
    | (ds, r) => .ok (ds, r)

/-- Reads the fraction, if there is one. -/
def readFraction : Reader (List Char)
  | some '.' :: r => readDigits r
  | r => .ok ([], r)

/-- Reads the exponent, if there is one. -/
def readExponent : Reader (Option Int)
  | some e :: r =>
    if e = 'e' ∨ e = 'E' then
      let (minus, r) : Bool × Symbols :=
        match r with
        | some '-' :: r => (true, r)
        | some '+' :: r => (false, r)
        | r => (false, r)
      match readDigits r with
      | .ok (ds, r) =>
        let n : Int := Nat.ofDigitChars 10 ds 0
        .ok (some (if minus then -n else n), r)
      | .error f => .error f
    else .ok (none, some e :: r)
  | r => .ok (none, r)

/-- The number of a sign, digits and an exponent. Whole numbers of 64 bits stay whole. -/
def makeNumber (minus : Bool) (whole fraction : List Char) (exponent : Option Int) :
    Option Number :=
  let n := Nat.ofDigitChars 10 (whole ++ fraction) 0
  if fraction = [] ∧ exponent = none ∧ !minus ∧ n < Text.wordLimit then some (.word n)
  else if fraction = [] ∧ exponent = none ∧ minus ∧ n ≠ 0 ∧ n ≤ 1 <<< 63 then some (.negative n)
  else (Binary64.ofDecimal? minus n (exponent.getD 0 - fraction.length)).map .float

/-- Reads a number after its sign. -/
def readUnsigned (minus : Bool) : Reader Number := fun s => do
  let (whole, s) ← readWhole s
  let (fraction, s) ← readFraction s
  let (exponent, s) ← readExponent s
  match makeNumber minus whole fraction exponent with
  | some n => .ok (n, s)
  | none => .error .malformed

/-- Reads a number. -/
def readNumber : Reader Number
  | some '-' :: r => readUnsigned true r
  | r => readUnsigned false r

/-- Where the reading of a string stands. -/
inductive StringState where
  | plain
  /-- After a backslash. -/
  | escape
  /-- In the code unit of an escape: how many bytes of it are missing, its value so far, which is
  `none` once a byte was no digit, and the high surrogate before it. -/
  | unit (missing : Nat) (value : Option Nat) (high : Option Nat)
  /-- After a high surrogate, whose partner must follow. -/
  | partner (high : Nat)
  /-- After the backslash of that partner. -/
  | partnerEscape (high : Nat)

/-- The value of a hexadecimal digit. -/
def hexValue? (c : Char) : Option Nat :=
  if c.isDigit then some (c.toNat - '0'.toNat)
  else if 'a' ≤ c ∧ c ≤ 'f' then some (c.toNat - 'a'.toNat + 10)
  else if 'A' ≤ c ∧ c ≤ 'F' then some (c.toNat - 'A'.toNat + 10)
  else none

/-- The characters that a backslash and a letter stand for. -/
def simpleEscape? (c : Char) : Option Char :=
  match c with
  | '"' => some '"'
  | '\\' => some '\\'
  | '/' => some '/'
  | 'b' => some '\x08'
  | 'f' => some '\x0c'
  | 'n' => some '\n'
  | 'r' => some '\r'
  | 't' => some '\t'
  | _ => none

def isHigh (u : Nat) : Bool := 0xD800 ≤ u && u ≤ 0xDBFF

def isLow (u : Nat) : Bool := 0xDC00 ≤ u && u ≤ 0xDFFF

/-- What a code unit leads to: a character, or the wait for the other half of a pair. -/
def takeUnit (strict : Bool) (unit : Nat) (high : Option Nat) :
    Except JsonFault (Option Char × StringState) :=
  if !strict then .ok (none, .plain)
  else
    match high with
    | none =>
      if isLow unit then .error .malformed
      else if isHigh unit then .ok (none, .partner unit)
      else .ok (some (Char.ofNat unit), .plain)
    | some h =>
      if isLow unit then
        .ok (some (Char.ofNat ((h - 0xD800) * 0x400 + (unit - 0xDC00) + 0x10000)), .plain)
      else .error .malformed

/-- Reads a string after its opening quote. `acc` holds its characters so far, the newest first,
and `broken` tells whether a byte was seen that belongs to no character. -/
def readStringFrom (strict : Bool) (st : StringState) (acc : List Char) (broken : Bool) :
    Reader String
  | [] => .error .truncated
  | s :: r =>
    match st with
    | .plain =>
      match s with
      | none => readStringFrom strict .plain acc true r
      | some c =>
        if c = '"' then
          if strict && broken then .error .malformed else .ok (String.ofList acc.reverse, r)
        else if c = '\\' then readStringFrom strict .escape acc broken r
        else if c.toNat < 0x20 then .error .malformed
        else readStringFrom strict .plain (c :: acc) broken r
    | .escape =>
      match s with
      | none => .error .malformed
      | some c =>
        if c = 'u' then readStringFrom strict (.unit 4 (some 0) none) acc broken r
        else
          match simpleEscape? c with
          | some d => readStringFrom strict .plain (d :: acc) broken r
          | none => .error .malformed
    | .unit missing value high =>
      let value := value.bind fun v => (s.bind hexValue?).map (16 * v + ·)
      let size := (s.map Char.utf8Size).getD 1
      if size < missing then readStringFrom strict (.unit (missing - size) value high) acc broken r
      else
        match value with
        | none => .error .malformed
        | some unit =>
          match takeUnit strict unit high with
          | .ok (some c, st) => readStringFrom strict st (c :: acc) broken r
          | .ok (none, st) => readStringFrom strict st acc broken r
          | .error f => .error f
    | .partner high =>
      if s = some '\\' then readStringFrom strict (.partnerEscape high) acc broken r
      else .error .malformed
    | .partnerEscape high =>
      if s = some 'u' then readStringFrom strict (.unit 4 (some 0) (some high)) acc broken r
      else .error .malformed

/-- Reads a string after its opening quote. -/
def readString : Reader String := readStringFrom true .plain [] false

/-- Skips a string after its opening quote. -/
def skipString : Reader String := readStringFrom false .plain [] false

end PhaseSampling.Json
