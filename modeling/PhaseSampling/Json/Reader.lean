import PhaseSampling.Json.Scalar

/-!
# Reading JSON

Values can be read whole (`readValue`), skipped (`skipValue`) or read as what they are asked to be:
words, texts, lists, records. A record may be written as an object or as the list of its fields.
The first fault from the left is reported.
-/

namespace PhaseSampling.Json

/-- The number of lists and objects that may be open at once, and one more. -/
def maxDepth : Nat := 128

/-- Opens a list or object; the depth left must not run out. -/
def enter (depth : Nat) : Except JsonFault Nat :=
  if depth ≤ 1 then .error .malformed else .ok (depth - 1)

/-- Whether a list goes on with an item. It gives the rest from the item, or from the closing
bracket on. -/
def nextItem (first : Bool) (s : Symbols) : Except JsonFault (Bool × Symbols) :=
  match skipBlank s with
  | [] => .error .truncated
  | some ']' :: r => .ok (false, some ']' :: r)
  | some ',' :: r =>
    if first then .ok (true, some ',' :: r)
    else
      match skipBlank r with
      | [] => .error .truncated
      | some ']' :: _ => .error .malformed
      | r => .ok (true, r)
  | r => if first then .ok (true, r) else .error .malformed

/-- Ends a list. -/
def endItems (s : Symbols) : Except JsonFault Symbols :=
  match skipBlank s with
  | [] => .error .truncated
  | some ']' :: r => .ok r
  | _ => .error .malformed

/-- The next key of an object, if there is one, and the rest from its colon, or from the closing
brace on. -/
def nextKey (first : Bool) (s : Symbols) : Except JsonFault (Option String × Symbols) :=
  match skipBlank s with
  | [] => .error .truncated
  | some '\x7d' :: r => .ok (none, some '\x7d' :: r)
  | some '"' :: r => if first then key r else .error .malformed
  | some ',' :: r =>
    if first then .error .malformed
    else
      match skipBlank r with
      | [] => .error .truncated
      | some '"' :: r => key r
      | _ => .error .malformed
  | _ => .error .malformed
where
  key (r : Symbols) : Except JsonFault (Option String × Symbols) :=
    match readString r with
    | .ok (k, r) => .ok (some k, r)
    | .error f => .error f

/-- The symbols after the colon between a key and its value. -/
def skipColon (s : Symbols) : Except JsonFault Symbols :=
  match skipBlank s with
  | [] => .error .truncated
  | some ':' :: r => .ok r
  | _ => .error .malformed

/-- Ends an object. -/
def endFields (s : Symbols) : Except JsonFault Symbols :=
  match skipBlank s with
  | [] => .error .truncated
  | some '\x7d' :: r => .ok r
  | _ => .error .malformed

/-- Nothing but blanks may follow. -/
def finish (s : Symbols) : Except JsonFault Unit :=
  if skipBlank s = [] then .ok () else .error .malformed

/-! ## Whole values -/

def Number.json : Number → Json
  | .word n => .word n
  | .negative n => .negative n
  | .float x => .float x

mutual

/-- Reads any value. The fuel is a bound on the calls that nest. -/
def readValueFrom : (fuel depth : Nat) → Reader Json
  | 0, _, _ => .error .malformed
  | fuel + 1, depth, s =>
    match skipBlank s with
    | [] => .error .truncated
    | some 'n' :: r => readWordEnd .null "ull".toList r
    | some 't' :: r => readWordEnd (.bool true) "rue".toList r
    | some 'f' :: r => readWordEnd (.bool false) "alse".toList r
    | some '"' :: r => (readString r).map fun (t, r) => (.text t, r)
    | some '[' :: r => do
      let depth ← enter depth
      let (items, r) ← readItemsFrom fuel depth true r
      return (.list items, r)
    | some '\x7b' :: r => do
      let depth ← enter depth
      let (fields, r) ← readFieldsFrom fuel depth true r
      return (.object fields, r)
    | some c :: r =>
      if c = '-' ∨ c.isDigit then (readNumber (some c :: r)).map fun (n, r) => (n.json, r)
      else .error .malformed
    | none :: _ => .error .malformed

/-- Reads the items of a list up to its end. -/
def readItemsFrom : (fuel depth : Nat) → (first : Bool) → Reader (List Json)
  | 0, _, _, _ => .error .malformed
  | fuel + 1, depth, first, s => do
    match ← nextItem first s with
    | (false, r) => return ([], ← endItems r)
    | (true, r) =>
      let (v, r) ← readValueFrom fuel depth r
      let (vs, r) ← readItemsFrom fuel depth false r
      return (v :: vs, r)

/-- Reads the fields of an object up to its end. -/
def readFieldsFrom : (fuel depth : Nat) → (first : Bool) → Reader (List (String × Json))
  | 0, _, _, _ => .error .malformed
  | fuel + 1, depth, first, s => do
    match ← nextKey first s with
    | (none, r) => return ([], ← endFields r)
    | (some k, r) =>
      let (v, r) ← readValueFrom fuel depth (← skipColon r)
      let (fs, r) ← readFieldsFrom fuel depth false r
      return ((k, v) :: fs, r)

end

/-- Reads any value that nests no deeper than allowed. -/
def readValue (depth : Nat) : Reader Json := fun s => readValueFrom (2 * s.length + 2) depth s

/-! ## Skipped values -/

/-- Skips a number, whatever its size. -/
def skipNumber (s : Symbols) : Except JsonFault Symbols :=
  let unsigned := match s with
    | some '-' :: r => r
    | r => r
  let parts : Except JsonFault Symbols := do
    let (_, r) ← readWhole unsigned
    let (_, r) ← readFraction r
    let (_, r) ← readExponent r
    return r
  match parts with
  | .ok r => .ok r
  | .error _ => .error .malformed

/-- Skips a key and its colon. -/
def skipKey (s : Symbols) : Except JsonFault Symbols :=
  match skipBlank s with
  | [] => .error .truncated
  | some '"' :: r => do
    let (_, r) ← skipString r
    skipColon r
  | _ => .error .malformed

mutual

/-- Skips a value inside open lists and objects, given by their closing characters, and goes on to
the end of the outermost. The fuel is a bound on the steps. -/
def skipFrom : (fuel : Nat) → (closers : List Char) → Symbols → Except JsonFault Symbols
  | 0, _, _ => .error .malformed
  | fuel + 1, closers, s =>
    match skipBlank s with
    | [] => .error .truncated
    | some 'n' :: r => do skipAfter fuel closers (← readWordEnd () "ull".toList r).2
    | some 't' :: r => do skipAfter fuel closers (← readWordEnd () "rue".toList r).2
    | some 'f' :: r => do skipAfter fuel closers (← readWordEnd () "alse".toList r).2
    | some '"' :: r => do skipAfter fuel closers (← skipString r).2
    | some '[' :: r =>
      match skipBlank r with
      | [] => .error .truncated
      | some ']' :: r => skipAfter fuel closers r
      | r => skipFrom fuel (']' :: closers) r
    | some '\x7b' :: r =>
      match skipBlank r with
      | [] => .error .truncated
      | some '\x7d' :: r => skipAfter fuel closers r
      | r => do skipFrom fuel ('\x7d' :: closers) (← skipKey r)
    | some c :: r =>
      if c = '-' ∨ c.isDigit then do skipAfter fuel closers (← skipNumber (some c :: r))
      else .error .malformed
    | none :: _ => .error .malformed

/-- Goes on after a skipped value. -/
def skipAfter : (fuel : Nat) → (closers : List Char) → Symbols → Except JsonFault Symbols
  | _, [], s => .ok s
  | 0, _, _ => .error .malformed
  | fuel + 1, closer :: closers, s =>
    match skipBlank s with
    | [] => .error .truncated
    | some ',' :: r =>
      if closer = ']' then skipFrom fuel (closer :: closers) r
      else do skipFrom fuel (closer :: closers) (← skipKey r)
    | s :: r => if s = some closer then skipAfter fuel closers r else .error .malformed

end

/-- Skips any value. -/
def skipValue (s : Symbols) : Except JsonFault Symbols := skipFrom (2 * s.length + 2) [] s

/-! ## Values of a kind -/

/-- The fault of a value of another kind than asked for. One that holds no other is read first. -/
def wrongKind : Symbols → JsonFault
  | some 'n' :: r => after (readWordEnd () "ull".toList r)
  | some 't' :: r => after (readWordEnd () "rue".toList r)
  | some 'f' :: r => after (readWordEnd () "alse".toList r)
  | some '"' :: r => after (readString r)
  | some '[' :: _ => .mismatch
  | some '\x7b' :: _ => .mismatch
  | some c :: r => if c = '-' ∨ c.isDigit then after (readNumber (some c :: r)) else .malformed
  | _ => .malformed
where
  after {α : Type} : Except JsonFault (α × Symbols) → JsonFault
    | .ok _ => .mismatch
    | .error f => f

/-- Reads a number as what `f` makes of it. -/
def readAsNumber {α : Type} (f : Number → Option α) : Reader α := fun s =>
  match skipBlank s with
  | [] => .error .truncated
  | some c :: r =>
    if c = '-' ∨ c.isDigit then
      match readNumber (some c :: r) with
      | .error e => .error e
      | .ok (n, r) =>
        match f n with
        | some a => .ok (a, r)
        | none => .error .mismatch
    else .error (wrongKind (some c :: r))
  | r => .error (wrongKind r)

/-- Reads a word. -/
def readWord : Reader Nat := readAsNumber fun
  | .word n => some n
  | _ => none

/-- Reads any number in floating point. -/
def readFloat : Reader Binary64 := readAsNumber fun
  | .word n => Binary64.ofDecimal? false n 0
  | .negative n => Binary64.ofDecimal? true n 0
  | .float x => some x

/-- Reads a text. -/
def readText : Reader String := fun s =>
  match skipBlank s with
  | [] => .error .truncated
  | some '"' :: r => readString r
  | r => .error (wrongKind r)

/-- Reads a null as nothing, or else a value. -/
def readOption {α : Type} (read : Reader α) : Reader (Option α) := fun s =>
  match skipBlank s with
  | some 'n' :: r => readWordEnd none "ull".toList r
  | r => (read r).map fun (a, r) => (some a, r)

/-- Reads items up to the end of a list. The fuel is a bound on their number. -/
def readAllFrom {α : Type} (read : Reader α) : (fuel : Nat) → (first : Bool) → Reader (List α)
  | 0, _, _ => .error .malformed
  | fuel + 1, first, s => do
    match ← nextItem first s with
    | (false, r) => return ([], ← endItems r)
    | (true, r) =>
      let (a, r) ← read r
      let (as, r) ← readAllFrom read fuel false r
      return (a :: as, r)

/-- Reads a list. -/
def readAll {α : Type} (read : Reader α) : Reader (List α) := fun s =>
  match skipBlank s with
  | [] => .error .truncated
  | some '[' :: r => readAllFrom read (r.length + 1) true r
  | r => .error (wrongKind r)

/-- Reads the next item of a list that has to have one. -/
def readItem {α : Type} (first : Bool) (read : Reader α) : Reader α := fun s => do
  match ← nextItem first s with
  | (true, r) => read r
  | (false, _) => .error .mismatch

/-- Reads the next item of a list if it has one. -/
def readItem? {α : Type} (read : Reader (Option α)) : Reader (Option α) := fun s => do
  match ← nextItem false s with
  | (true, r) => read r
  | (false, r) => return (none, r)

/-- Reads a value after the colon of its field. -/
def readField {α : Type} (read : Reader α) : Reader α := fun s => do read (← skipColon s)

/-- Reads the value of a field that was not given before and puts it into a draft. -/
def readFresh {α β : Type} (old : Option α) (read : Reader α) (put : α → β) : Reader β := fun s =>
  if old.isSome then .error .mismatch else (readField read s).map fun (a, r) => (put a, r)

/-- Skips the value of a field and leaves the draft as it is. -/
def skipField {β : Type} (b : β) : Reader β := fun s => do return (b, ← skipValue (← skipColon s))

/-- Reads the fields of an object up to its end, each by `step`. The fuel is a bound on their
number. -/
def readFields {β : Type} (step : String → β → Reader β) :
    (fuel : Nat) → (first : Bool) → β → Reader β
  | 0, _, _, _ => .error .malformed
  | fuel + 1, first, b, s => do
    match ← nextKey first s with
    | (none, r) => return (b, r)
    | (some k, r) =>
      let (b, r) ← step k b r
      readFields step fuel false b r

/-- Reads a record, from an object whose fields are gathered in a draft or from a list. -/
def readRecord {α β : Type} (draft : β) (step : String → β → Reader β) (finish : β → Option α)
    (items : Reader α) : Reader α := fun s =>
  match skipBlank s with
  | [] => .error .truncated
  | some '[' :: r => do
    let (a, r) ← items r
    return (a, ← endItems r)
  | some '\x7b' :: r => do
    let (b, r) ← readFields step (r.length + 1) true draft r
    match finish b with
    | some a => return (a, ← endFields r)
    | none => .error .mismatch
  | r => .error (wrongKind r)

/-- Reads a whole text with a reader. -/
def readFrom {α : Type} (read : Reader α) (content : Bytes) : Except JsonFault α := do
  let (a, r) ← read (Text.Utf8.symbols content)
  finish r
  return a

end PhaseSampling.Json
