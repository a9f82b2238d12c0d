/-!
# Numerals of 64-bit words

Counts are natural numbers below `wordLimit`. `readWord?` reads one from decimal text, and
`readWord?_toDigits` says that it reads what decimal printing writes.
-/

namespace PhaseSampling.Text

/-- Words have 64 bits. -/
def wordLimit : Nat := 1 <<< 64

/-- The largest word. -/
def wordMax : Nat := wordLimit - 1

/-- The digits of a numeral: all of it but one `+` in front. -/
def unsigned : List Char → List Char
  | '+' :: ds => ds
  | ds => ds

/-- Reads an optional `+` and then ASCII digits, at least one, whose value is a word. -/
def readWord? (cs : List Char) : Option Nat :=
  let ds := unsigned cs
  let n := Nat.ofDigitChars 10 ds 0
  if ds ≠ [] ∧ ds.all Char.isDigit ∧ n < wordLimit then some n else none

theorem unsigned_toDigits (n : Nat) : unsigned (Nat.toDigits 10 n) = Nat.toDigits 10 n := by
  rcases he : Nat.toDigits 10 n with _ | ⟨c, cs⟩
  · rfl
  · have hd : c.isDigit = true :=
      Nat.isDigit_of_mem_toDigits (by decide) (by decide) (he ▸ List.mem_cons_self ..)
    have : c ≠ '+' := by
      rintro rfl
      exact absurd hd (by decide)
    simp [unsigned, this]

/-- A number as decimal digits reads back if it is a word. -/
theorem readWord?_toDigits_eq (n : Nat) :
    readWord? (Nat.toDigits 10 n) = if n < wordLimit then some n else none := by
  have hd : ∀ c ∈ Nat.toDigits 10 n, c.isDigit = true := fun c hc =>
    Nat.isDigit_of_mem_toDigits (by decide) (by decide) hc
  simp only [readWord?, unsigned_toDigits, Nat.ofDigitChars_ten_toDigits]
  simp [Nat.toDigits_ne_nil, List.all_eq_true.2 hd]

/-- A word as decimal digits reads back. -/
theorem readWord?_toDigits {n : Nat} (h : n < wordLimit) :
    readWord? (Nat.toDigits 10 n) = some n := by
  rw [readWord?_toDigits_eq, if_pos h]

/-- What is read is a word. -/
theorem lt_wordLimit_of_readWord? {cs : List Char} {n : Nat} (h : readWord? cs = some n) :
    n < wordLimit := by
  simp only [readWord?] at h
  split at h
  · rename_i hc; simp at h; omega
  · simp at h

end PhaseSampling.Text
