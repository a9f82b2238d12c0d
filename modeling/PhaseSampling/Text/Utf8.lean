/-!
# UTF-8

Bytes are lists of octets.

* `encode`, `decode`: text as bytes and back; `decode_encode` says that nothing is lost.
* `Fault`: where bytes stop being UTF-8, and how many of them are at fault.
* `symbols`: bytes as characters, with a mark for each byte that belongs to none; by
  `symbols_encode` a text has no such mark.
-/

namespace PhaseSampling

abbrev Bytes := List UInt8

namespace Text.Utf8

/-- A text as UTF-8. -/
def encode (s : String) : Bytes := s.toByteArray.data.toList

/-- The first fault of a byte sequence: the offset of the first character that is not whole, and
how many bytes from there cannot start one; `none` when the bytes only end too early. -/
structure Fault where
  offset : Nat
  length : Option Nat
  deriving DecidableEq, Repr

def Fault.message (f : Fault) : String :=
  match f.length with
  | some n => s!"invalid utf-8 sequence of {n} bytes from index {f.offset}"
  | none => s!"incomplete utf-8 byte sequence from index {f.offset}"

/-- What a lead byte asks for: the number of bytes that follow it, and the range of the next one.
`none` for a byte that starts no character. -/
def lead? (b : UInt8) : Option (Nat × UInt8 × UInt8) :=
  if b ≤ 0x7F then some (0, 0, 0)
  else if 0xC2 ≤ b ∧ b ≤ 0xDF then some (1, 0x80, 0xBF)
  else if b = 0xE0 then some (2, 0xA0, 0xBF)
  else if b = 0xED then some (2, 0x80, 0x9F)
  else if 0xE1 ≤ b ∧ b ≤ 0xEF then some (2, 0x80, 0xBF)
  else if b = 0xF0 then some (3, 0x90, 0xBF)
  else if 0xF1 ≤ b ∧ b ≤ 0xF3 then some (3, 0x80, 0xBF)
  else if b = 0xF4 then some (3, 0x80, 0x8F)
  else none

/-- Scans for a fault. `start` is the offset of the current character, `taken` the number of its
bytes seen so far, `owed` the number still to come, `low` and `high` the range of the next one. -/
def scan (start taken owed : Nat) (low high : UInt8) : Bytes → Fault
  | [] => ⟨start, none⟩
  | b :: bs =>
    match owed with
    | 0 =>
      match lead? b with
      | none => ⟨start + taken, some 1⟩
      | some (n, lo, hi) => scan (start + taken) 1 n lo hi bs
    | n + 1 =>
      if low ≤ b ∧ b ≤ high then scan start (taken + 1) n 0x80 0xBF bs
      else ⟨start, some taken⟩

/-- Where bytes that are not UTF-8 first fail to be. -/
def firstFault (bs : Bytes) : Fault := scan 0 0 0 0 0 bs

/-- Bytes as text. -/
def decode (bs : Bytes) : Except Fault String :=
  match String.fromUTF8? ⟨bs.toArray⟩ with
  | some s => .ok s
  | none => .error (firstFault bs)

theorem decode_encode (s : String) : decode (encode s) = .ok s := by
  have h : String.fromUTF8? s.toByteArray = some s := by
    simp [String.fromUTF8?, s.isValidUTF8, String.fromUTF8]
  simp [decode, encode, h]

/-- Whatever decodes to a text is its encoding. -/
theorem eq_encode_of_decode {bs : Bytes} {s : String} (h : decode bs = .ok s) : bs = encode s := by
  simp only [decode, String.fromUTF8?] at h
  split at h
  · rename_i t ht
    split at ht
    · cases ht; cases h; simp [encode, String.fromUTF8]
    · cases ht
  · cases h

/-- The characters of a byte array from an offset on, and `none` for each byte that belongs to no
character. -/
def symbolsFrom (bs : ByteArray) (i : Nat) : List (Option Char) :=
  if _h : i < bs.size then
    match bs.utf8DecodeChar? i with
    | some c => some c :: symbolsFrom bs (i + c.utf8Size)
    | none => none :: symbolsFrom bs (i + 1)
  else []
  termination_by bs.size - i
  decreasing_by
    · have := c.utf8Size_pos; omega
    · omega

/-- Bytes as characters, with `none` for each byte that belongs to no character. -/
def symbols (bs : Bytes) : List (Option Char) := symbolsFrom ⟨bs.toArray⟩ 0

/-- From the end of some bytes on, a text after them is read as its characters. -/
theorem symbolsFrom_size_append (pre : ByteArray) (cs : List Char) :
    symbolsFrom (pre ++ cs.utf8Encode) pre.size = cs.map some := by
  induction cs generalizing pre with
  | nil => rw [symbolsFrom]; simp
  | cons c cs ih =>
    have hd : (pre ++ (c :: cs).utf8Encode).utf8DecodeChar? pre.size = some c := by
      rw [ByteArray.utf8DecodeChar?_eq_utf8DecodeChar?_extract,
        show (pre ++ (c :: cs).utf8Encode).extract pre.size (pre ++ (c :: cs).utf8Encode).size
          = (c :: cs).utf8Encode from
          ByteArray.extract_append_eq_right rfl ByteArray.size_append]
      exact List.utf8DecodeChar?_utf8Encode_cons
    have hs : pre.size < (pre ++ (c :: cs).utf8Encode).size := by
      have := ByteArray.le_size_of_utf8DecodeChar?_eq_some hd
      have := c.utf8Size_pos
      omega
    have hp : (pre ++ [c].utf8Encode).size = pre.size + c.utf8Size := by
      simp [List.utf8Encode_singleton]
    have := ih (pre ++ [c].utf8Encode)
    rw [ByteArray.append_assoc, ← List.utf8Encode_cons, hp] at this
    rw [symbolsFrom, dif_pos hs, hd]
    simp [this]

/-- A text is read as its characters. -/
theorem symbols_encode (s : String) : symbols (encode s) = s.toList.map some := by
  have := symbolsFrom_size_append .empty s.toList
  simpa [symbols, encode] using this

end Text.Utf8

end PhaseSampling
