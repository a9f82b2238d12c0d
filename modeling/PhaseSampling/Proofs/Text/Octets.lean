import PhaseSampling.Text.Numeral
import PhaseSampling.Text.Utf8

/-!
# Texts as octets

* `Utf8.encode_eq_flatMap`: a text is encoded character by character.
* `Utf8.mem_encode_iff`: an octet below 128 stands for the character of its own number, so a newline
  is never a part of another character.
* `Utf8.encode_ascii`: text of such characters has one octet for each.
* `readWord?_take_toDigits`: a numeral that is cut short is read as another number, but not as zero.
-/

namespace PhaseSampling.Text

namespace Utf8

theorem encode_append (s t : String) : encode (s ++ t) = encode s ++ encode t := by
  simp [encode]

theorem encode_ofList (cs : List Char) :
    encode (String.ofList cs) = cs.flatMap String.utf8EncodeChar := by
  simp [encode, List.utf8Encode]

/-- **A text is encoded character by character.** -/
theorem encode_eq_flatMap (s : String) : encode s = s.toList.flatMap String.utf8EncodeChar := by
  have h := encode_ofList s.toList
  rwa [String.ofList_toList] at h

/-- The octets of a text are as many as its size says. -/
theorem length_encode (s : String) : (encode s).length = s.utf8ByteSize := rfl

/-- An ASCII character is its own octet. -/
theorem utf8EncodeChar_ascii {c : Char} (h : c.toNat < 128) :
    String.utf8EncodeChar c = [c.toNat.toUInt8] := by
  have hc : c.val.toNat ≤ 127 := Nat.le_of_lt_succ h
  rw [String.utf8EncodeChar]
  simp only [hc, if_true]
  rfl

/-- In a character beyond ASCII every octet is 128 or more. -/
theorem le_of_mem_utf8EncodeChar {c : Char} (h : 128 ≤ c.toNat) {b : UInt8}
    (hb : b ∈ String.utf8EncodeChar c) : 128 ≤ b.toNat := by
  have hc : ¬ c.val.toNat ≤ 127 := Nat.not_le.2 h
  have hlt := c.val.toNat_lt
  rw [String.utf8EncodeChar] at hb
  simp only [hc, if_false] at hb
  -- two, three or four octets
  split at hb
  · simp only [List.mem_cons, List.not_mem_nil, or_false] at hb
    rcases hb with rfl | rfl <;> rw [UInt8.toNat_ofNat'] <;> omega
  · split at hb
    · simp only [List.mem_cons, List.not_mem_nil, or_false] at hb
      rcases hb with rfl | rfl | rfl <;> rw [UInt8.toNat_ofNat'] <;> omega
    · simp only [List.mem_cons, List.not_mem_nil, or_false] at hb
      rcases hb with rfl | rfl | rfl | rfl <;> rw [UInt8.toNat_ofNat'] <;> omega

/-- **An octet of ASCII** is in a text as often as its character is. -/
theorem mem_encode_iff (s : String) {a : Char} (ha : a.toNat < 128) :
    a.toNat.toUInt8 ∈ encode s ↔ a ∈ s.toList := by
  have hsize : a.toNat.toUInt8.toNat = a.toNat := by
    rw [UInt8.toNat_ofNat']
    omega
  rw [encode_eq_flatMap, List.mem_flatMap]
  constructor
  · rintro ⟨c, hc, hb⟩
    have hlt : c.toNat < 128 := by
      refine Nat.not_le.1 fun hge => ?_
      have hle := le_of_mem_utf8EncodeChar hge hb
      omega
    rw [utf8EncodeChar_ascii hlt, List.mem_singleton] at hb
    -- the two octets are one, so the characters are
    have hn := congrArg UInt8.toNat hb
    rw [hsize, UInt8.toNat_ofNat'] at hn
    have he : a = c := Char.toNat_inj.1 (by omega)
    rwa [he]
  · intro h
    exact ⟨a, h, by rw [utf8EncodeChar_ascii ha]; exact List.mem_singleton.2 rfl⟩

/-- **ASCII text** has one octet for each character. -/
theorem encode_ascii {cs : List Char} (h : ∀ c ∈ cs, c.toNat < 128) :
    encode (String.ofList cs) = cs.map fun c => c.toNat.toUInt8 := by
  rw [encode_ofList]
  induction cs with
  | nil => rfl
  | cons c cs ih =>
    have hc := utf8EncodeChar_ascii (h c (List.mem_cons_self ..))
    have hcs := ih fun d hd => h d (List.mem_cons_of_mem _ hd)
    rw [List.flatMap_cons, hc, hcs]
    rfl

/-- So it can be cut between any two octets. -/
theorem take_encode_ascii {cs : List Char} (h : ∀ c ∈ cs, c.toNat < 128) (k : Nat) :
    (encode (String.ofList cs)).take k = encode (String.ofList (cs.take k)) := by
  have htake : ∀ c ∈ cs.take k, c.toNat < 128 := fun c hc => h c (List.mem_of_mem_take hc)
  rw [encode_ascii h, encode_ascii htake, List.map_take]

end Utf8

/-! ## Digits -/

theorem isDigit_of_mem_toDigits {n : Nat} {c : Char} (h : c ∈ Nat.toDigits 10 n) :
    c.isDigit = true :=
  Nat.isDigit_of_mem_toDigits (by decide) (by decide) h

theorem isDigit_of_mem_numeral {n : Nat} {c : Char} (h : c ∈ (toString n).toList) :
    c.isDigit = true := by
  rw [Nat.toString_eq_repr, Nat.toList_repr] at h
  exact isDigit_of_mem_toDigits h

/-- Digits are all there is to a numeral. -/
theorem notMem_numeral {c : Char} (h : c.isDigit = false) (n : Nat) : c ∉ (toString n).toList := by
  intro hc
  rw [isDigit_of_mem_numeral hc] at h
  cases h

theorem toNat_lt_of_isDigit {c : Char} (h : c.isDigit = true) : c.toNat < 128 := by
  rw [Char.isDigit_iff_toNat] at h
  have h9 : '9'.toNat = 57 := rfl
  omega

/-- A number that is not zero does not begin with a zero. -/
theorem exists_toDigits_eq_cons {n : Nat} (hn : 0 < n) :
    ∃ c cs, Nat.toDigits 10 n = c :: cs ∧ 0 < c.toNat - '0'.toNat := by
  induction n using Nat.base_induction 10 (by decide) with
  | single d hd =>
    refine ⟨d.digitChar, [], Nat.toDigits_of_lt_base hd, ?_⟩
    have hc := Nat.toNat_digitChar_of_lt_ten hd
    have h0 : '0'.toNat = 48 := rfl
    omega
  | digit m d hd hm ih =>
    obtain ⟨c, cs, he, hc⟩ := ih hm
    refine ⟨c, cs ++ Nat.toDigits 10 d, ?_, hc⟩
    rw [← Nat.toDigits_append_toDigits (by decide) hm hd, he, List.cons_append]

/-- **The first digits of a number** that is not zero make one that is not zero either. -/
theorem ofDigitChars_take_pos {n k : Nat} (hn : 0 < n) (hk : 0 < k) :
    0 < Nat.ofDigitChars 10 ((Nat.toDigits 10 n).take k) 0 := by
  obtain ⟨c, cs, he, hc⟩ := exists_toDigits_eq_cons hn
  obtain ⟨k, rfl⟩ := Nat.exists_eq_succ_of_ne_zero (Nat.ne_of_gt hk)
  rw [he, List.take_succ_cons, Nat.ofDigitChars_cons, Nat.ofDigitChars_eq_ofDigitChars_zero]
  have hpow : 0 < 10 ^ (cs.take k).length := Nat.pow_pos (by decide)
  have hmul := Nat.mul_pos hpow (show 0 < 10 * 0 + (c.toNat - '0'.toNat) by omega)
  omega

theorem unsigned_of_isDigit {cs : List Char} (h : ∀ c ∈ cs, c.isDigit = true) :
    unsigned cs = cs := by
  cases cs with
  | nil => rfl
  | cons c cs =>
    have hc : c ≠ '+' := by
      rintro rfl
      exact absurd (h '+' (List.mem_cons_self ..)) (by decide)
    simp [unsigned, hc]

/-- **A numeral that is cut short** is not read as zero, unless it stands for zero. -/
theorem readWord?_take_toDigits {n k : Nat} (hn : 0 < n) :
    readWord? ((Nat.toDigits 10 n).take k) ≠ some 0 := by
  have hdigits : ∀ c ∈ (Nat.toDigits 10 n).take k, c.isDigit = true := fun c hc =>
    isDigit_of_mem_toDigits (List.mem_of_mem_take hc)
  intro hread
  simp only [readWord?, unsigned_of_isDigit hdigits] at hread
  split at hread
  · rename_i hcond
    have hk : 0 < k := by
      refine Nat.pos_of_ne_zero ?_
      rintro rfl
      exact hcond.1 List.take_zero
    have hpos := ofDigitChars_take_pos hn hk
    have hzero := Option.some.inj hread
    omega
  · cases hread

end PhaseSampling.Text
