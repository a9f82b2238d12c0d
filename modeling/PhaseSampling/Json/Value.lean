import PhaseSampling.Decimal.Style
import PhaseSampling.Text.Numeral

/-!
# JSON values and their text

* `Json`: a value. Whole numbers that are words are kept apart from all others.
* `Json.compact`: the text without any blank.
* `Json.pretty`: the text with a line for each item and two spaces for each level.
-/

namespace PhaseSampling

inductive Json where
  | null
  | bool (b : Bool)
  /-- A whole number from zero on. -/
  | word (n : Nat)
  /-- The whole number `-n`, below zero. -/
  | negative (n : Nat)
  | float (x : Binary64)
  | text (s : String)
  | list (items : List Json)
  /-- The fields in their order. -/
  | object (fields : List (String × Json))
  deriving Repr, Inhabited

namespace Json

/-- Numbers are written in the fewest digits that read back, a tie going to the even one, and
positionally from `1e-5` on and below `1e16`. -/
def numberStyle : Decimal.Style := ⟨.even, some (-5, 16), ".0"⟩

/-- A hexadecimal digit in lower case. -/
def hexDigit (n : Nat) : Char := Nat.digitChar (n % 16)

/-- How one character is written inside a string: quotes, backslashes and control characters are
escaped, and nothing else. -/
def escape (c : Char) : List Char :=
  if c = '"' then ['\\', '"']
  else if c = '\\' then ['\\', '\\']
  else if c = '\x08' then ['\\', 'b']
  else if c = '\x0c' then ['\\', 'f']
  else if c = '\n' then ['\\', 'n']
  else if c = '\r' then ['\\', 'r']
  else if c = '\t' then ['\\', 't']
  else if c.toNat < 0x20 then
    ['\\', 'u', '0', '0', hexDigit (c.toNat / 16), hexDigit c.toNat]
  else [c]

/-- A string in quotes. -/
def quoted (s : String) : List Char := '"' :: s.toList.flatMap escape ++ ['"']

/-- The text of a number. Those that are not finite have none. -/
def floatText (x : Binary64) : List Char :=
  if x.isFinite then (numberStyle.text x).toList else "null".toList

/-- The text of a value that holds no other. -/
def scalarText : Json → List Char
  | .bool b => (if b then "true" else "false").toList
  | .word n => Nat.toDigits 10 n
  | .negative n => '-' :: Nat.toDigits 10 n
  | .float x => floatText x
  | .text s => quoted s
  | _ => "null".toList

mutual

/-- A value without blanks. -/
def compactChars : Json → List Char
  | .list items => '[' :: compactItems items ++ [']']
  | .object fields => '\x7b' :: compactFields fields ++ ['\x7d']
  | v => scalarText v

def compactItems : List Json → List Char
  | [] => []
  | [v] => compactChars v
  | v :: vs => compactChars v ++ ',' :: compactItems vs

def compactFields : List (String × Json) → List Char
  | [] => []
  | [(k, v)] => quoted k ++ ':' :: compactChars v
  | (k, v) :: fs => quoted k ++ ':' :: compactChars v ++ ',' :: compactFields fs

end

/-- A new line at a level. -/
def newline (level : Nat) : List Char := '\n' :: List.replicate (2 * level) ' '

mutual

/-- A value at a level. -/
def prettyChars (level : Nat) : Json → List Char
  | .list [] => "[]".toList
  | .list items => '[' :: prettyItems (level + 1) items ++ newline level ++ [']']
  | .object [] => ['\x7b', '\x7d']
  | .object fields => '\x7b' :: prettyFields (level + 1) fields ++ newline level ++ ['\x7d']
  | v => scalarText v

def prettyItems (level : Nat) : List Json → List Char
  | [] => []
  | [v] => newline level ++ prettyChars level v
  | v :: vs => newline level ++ prettyChars level v ++ ',' :: prettyItems level vs

def prettyFields (level : Nat) : List (String × Json) → List Char
  | [] => []
  | [(k, v)] => newline level ++ quoted k ++ ": ".toList ++ prettyChars level v
  | (k, v) :: fs =>
    newline level ++ quoted k ++ ": ".toList ++ prettyChars level v ++ ',' ::
      prettyFields level fs

end

def compact (v : Json) : String := String.ofList v.compactChars

def pretty (v : Json) : String := String.ofList (v.prettyChars 0)

/-- The value of a field; of repeated ones the last. -/
def field? (v : Json) (key : String) : Option Json :=
  match v with
  | .object fields => (fields.reverse.find? (·.1 == key)).map (·.2)
  | _ => none

end Json

end PhaseSampling
