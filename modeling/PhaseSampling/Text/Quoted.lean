import PhaseSampling.Text.Hidden

/-!
# Quoted text

How a text is shown inside a message: in double quotes, with `"` and `\` escaped by a backslash,
tab, carriage return, newline and NUL by their letters, and hidden characters by `\u` and their
code point in braces.
-/

namespace PhaseSampling.Text

/-- The hexadecimal digits of a number, lower case and without leading zeros. -/
def hexDigits (n : Nat) : String := String.ofList (Nat.toDigits 16 n)

/-- How one character is written inside quotes. -/
def escape (c : Char) : String :=
  if c = '"' then "\\\""
  else if c = '\\' then "\\\\"
  else if c = '\t' then "\\t"
  else if c = '\r' then "\\r"
  else if c = '\n' then "\\n"
  else if c = '\x00' then "\\0"
  else if isHidden c then "\\u\x7b" ++ hexDigits c.toNat ++ "\x7d"
  else c.toString

/-- A text in quotes. -/
def quote (s : String) : String := "\"" ++ String.join (s.toList.map escape) ++ "\""

end PhaseSampling.Text
