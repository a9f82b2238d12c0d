import PhaseSampling.Proofs.Text.Octets

/-!
# Octets as symbols

Octets that are not UTF-8 are read as well, with a mark for each that belongs to no character.

* `symbols_cases`: the first symbol, and what the symbols after it are read from.
* `symbols_append`: octets can be cut wherever the second part does not begin inside a character.
* `symbols_encode_append`: a text in front is read as its characters, whatever follows.
* `exists_of_symbols_eq_append`: symbols can be cut anywhere.
-/

namespace PhaseSampling.Text.Utf8

open String (utf8EncodeChar)

/-! ## One symbol after the other -/

theorem utf8DecodeChar?_append_size (a b : ByteArray) (i : Nat) :
    (a ++ b).utf8DecodeChar? (a.size + i) = b.utf8DecodeChar? i := by
  have hrest : (a ++ b).extract (a.size + i) (a ++ b).size = b.extract i b.size := by
    have hpast : a.extract (a.size + i) (a.size + b.size) = .empty :=
      ByteArray.extract_eq_empty_iff.2 (by omega)
    simp [ByteArray.extract_append, ByteArray.size_append, hpast]
  rw [ByteArray.utf8DecodeChar?_eq_utf8DecodeChar?_extract, hrest,
    ← ByteArray.utf8DecodeChar?_eq_utf8DecodeChar?_extract]

/-- From the end of some octets on, the others are read as if they stood alone. -/
theorem symbolsFrom_append_size (a b : ByteArray) (i : Nat) :
    symbolsFrom (a ++ b) (a.size + i) = symbolsFrom b i := by
  fun_induction symbolsFrom b i with
  | case1 i hi c hc ih =>
    have hlt : a.size + i < (a ++ b).size := by simpa using hi
    rw [symbolsFrom, dif_pos hlt, utf8DecodeChar?_append_size, hc]
    simpa [Nat.add_assoc] using ih
  | case2 i hi hn ih =>
    have hlt : a.size + i < (a ++ b).size := by simpa using hi
    rw [symbolsFrom, dif_pos hlt, utf8DecodeChar?_append_size, hn]
    simpa [Nat.add_assoc] using ih
  | case3 i hi =>
    have hge : ¬ a.size + i < (a ++ b).size := by simpa using hi
    rw [symbolsFrom, dif_neg hge]

theorem size_mk_toArray (bs : Bytes) : (⟨bs.toArray⟩ : ByteArray).size = bs.length := rfl

theorem symbols_nil : symbols [] = [] := by
  rw [symbols, symbolsFrom, dif_neg (by simp [size_mk_toArray])]

/-- What is left of some octets after the first ones. -/
theorem symbolsFrom_length (a b : Bytes) :
    symbolsFrom ⟨(a ++ b).toArray⟩ a.length = symbols b := by
  have hsplit : (⟨(a ++ b).toArray⟩ : ByteArray) = ⟨a.toArray⟩ ++ ⟨b.toArray⟩ := by
    apply ByteArray.ext
    simp
  have := symbolsFrom_append_size ⟨a.toArray⟩ ⟨b.toArray⟩ 0
  rw [hsplit]
  simpa [symbols, size_mk_toArray] using this

theorem symbols_utf8EncodeChar_append (c : Char) (b : Bytes) :
    symbols (utf8EncodeChar c ++ b) = some c :: symbols b := by
  have hdecode : (⟨(utf8EncodeChar c ++ b).toArray⟩ : ByteArray).utf8DecodeChar? 0 = some c := by
    have hsplit : (⟨(utf8EncodeChar c ++ b).toArray⟩ : ByteArray) =
        (utf8EncodeChar c).toByteArray ++ ⟨b.toArray⟩ := by
      apply ByteArray.ext
      simp
    rw [hsplit]
    exact ByteArray.utf8DecodeChar?_utf8EncodeChar_append
  have hlen : (utf8EncodeChar c).length = c.utf8Size := String.length_utf8EncodeChar c
  have hpos : 0 < (⟨(utf8EncodeChar c ++ b).toArray⟩ : ByteArray).size := by
    have := c.utf8Size_pos
    rw [size_mk_toArray, List.length_append, hlen]
    omega
  have hrest := symbolsFrom_length (utf8EncodeChar c) b
  rw [hlen] at hrest
  rw [symbols, symbolsFrom, dif_pos hpos, hdecode]
  simp only [Nat.zero_add, hrest]

/-- The first symbol of some octets: a character, or a mark for an octet at which none begins. -/
theorem symbols_cases (bs : Bytes) :
    bs = [] ∨ (∃ c b, bs = utf8EncodeChar c ++ b ∧ symbols bs = some c :: symbols b) ∨
      ∃ x b, bs = x :: b ∧ symbols bs = none :: symbols b ∧
        ∀ c b', bs ≠ utf8EncodeChar c ++ b' := by
  rcases bs with _ | ⟨x, b⟩
  · exact .inl rfl
  by_cases hc : ∃ c b', x :: b = utf8EncodeChar c ++ b'
  · obtain ⟨c, b', hb⟩ := hc
    exact .inr (.inl ⟨c, b', hb, by rw [hb, symbols_utf8EncodeChar_append]⟩)
  · refine .inr (.inr ⟨x, b, rfl, ?_, by simpa using hc⟩)
    have hdecode : (⟨(x :: b).toArray⟩ : ByteArray).utf8DecodeChar? 0 = none := by
      apply Option.eq_none_iff_forall_not_mem.2
      intro c hd
      obtain ⟨l, hl⟩ := ByteArray.exists_of_utf8DecodeChar?_eq_some hd
      refine hc ⟨c, l.data.toList, ?_⟩
      simpa using congrArg (·.data.toList) hl
    have hpos : 0 < (⟨(x :: b).toArray⟩ : ByteArray).size := by simp [size_mk_toArray]
    have hrest := symbolsFrom_length [x] b
    rw [symbols, symbolsFrom, dif_pos hpos, hdecode]
    simpa using hrest

/-! ## Cuts -/

/-- Only the first octet of a character can begin one. -/
theorem not_isUTF8FirstByte_of_utf8EncodeChar_eq_append {c : Char} {a t : Bytes} {x : UInt8}
    (h : utf8EncodeChar c = a ++ x :: t) (ha : a ≠ []) : ¬ x.IsUTF8FirstByte := by
  have hlt : a.length < (utf8EncodeChar c).length := by simp [h]
  have hx : x = (utf8EncodeChar c)[a.length] := by simp [h]
  rw [hx, UInt8.isUTF8FirstByte_getElem_utf8EncodeChar]
  simpa using ha

/-- Octets can be cut wherever the second part does not begin inside a character. -/
theorem symbols_append (a : Bytes) {b : Bytes} (hb : ∀ x ∈ b.head?, x.IsUTF8FirstByte) :
    symbols (a ++ b) = symbols a ++ symbols b := by
  induction hn : a.length using Nat.strongRecOn generalizing a with
  | ind n ih =>
    rcases symbols_cases a with rfl | ⟨c, a', rfl, ha⟩ | ⟨x, a', rfl, ha, hno⟩
    · simp [symbols_nil]
    · have hlen : 0 < (utf8EncodeChar c).length := by
        rw [String.length_utf8EncodeChar]
        exact c.utf8Size_pos
      have := ih a'.length (by rw [← hn, List.length_append]; omega) a' rfl
      rw [ha, List.append_assoc, symbols_utf8EncodeChar_append, this, List.cons_append]
    · have := ih a'.length (by simp at hn; omega) a' rfl
      rcases symbols_cases (x :: a' ++ b) with h | ⟨c, b', h, -⟩ | ⟨y, b', h, hs, -⟩
      · cases h
      · -- a character that reaches over the cut would go on with the first octet after it
        rcases List.append_eq_append_iff.1 h with ⟨t, hc, hbt⟩ | ⟨t, hc, -⟩
        · rcases t with _ | ⟨y, t⟩
          · exact absurd (by simpa using hc.symm) (hno c [])
          · have hy : y.IsUTF8FirstByte := hb y (by simp [hbt])
            exact absurd hy (not_isUTF8FirstByte_of_utf8EncodeChar_eq_append hc (by simp))
        · exact absurd hc (hno c t)
      · obtain ⟨rfl, rfl⟩ : x = y ∧ a' ++ b = b' := by simpa using h
        rw [hs, ha, this, List.cons_append]

/-- A text in front is read as its characters, whatever follows. -/
theorem symbols_encode_append (s : String) (b : Bytes) :
    symbols (encode s ++ b) = s.toList.map some ++ symbols b := by
  have chars : ∀ cs : List Char,
      symbols (cs.flatMap utf8EncodeChar ++ b) = cs.map some ++ symbols b := by
    intro cs
    induction cs with
    | nil => rfl
    | cons c cs ih => simp [symbols_utf8EncodeChar_append, ih]
  rw [encode_eq_flatMap]
  exact chars s.toList

/-- A text that is not empty begins with the first octet of its first character. -/
theorem isUTF8FirstByte_of_mem_head?_encode {s : String} (hs : s ≠ "") (b : Bytes) :
    ∀ x ∈ (encode s ++ b).head?, x.IsUTF8FirstByte := by
  intro x hx
  rcases hcs : s.toList with _ | ⟨c, cs⟩
  · exact absurd (String.toList_eq_nil_iff.1 hcs) hs
  · have hlen : 0 < (utf8EncodeChar c).length := by
      rw [String.length_utf8EncodeChar]
      exact c.utf8Size_pos
    obtain rfl : x = (utf8EncodeChar c)[0] := by
      rw [encode_eq_flatMap, hcs, List.flatMap_cons, List.append_assoc,
        List.head?_eq_getElem?, List.getElem?_append_left hlen, List.getElem?_eq_getElem hlen] at hx
      exact (Option.some.inj hx).symm
    exact UInt8.isUTF8FirstByte_getElem_zero_utf8EncodeChar

/-- A text between octets of any kind is read as its characters. -/
theorem symbols_around (a : Bytes) {s : String} (hs : s ≠ "") (b : Bytes) :
    symbols (a ++ encode s ++ b) = symbols a ++ (s.toList.map some ++ symbols b) := by
  rw [List.append_assoc, symbols_append a (isUTF8FirstByte_of_mem_head?_encode hs b),
    symbols_encode_append]

/-- Symbols can be cut anywhere. -/
theorem exists_of_symbols_eq_append {bs : Bytes} {p r : List (Option Char)}
    (h : symbols bs = p ++ r) : ∃ a b, bs = a ++ b ∧ symbols b = r := by
  induction p generalizing bs with
  | nil => exact ⟨[], bs, rfl, h⟩
  | cons x p ih =>
    rcases symbols_cases bs with rfl | ⟨c, b, rfl, hs⟩ | ⟨y, b, rfl, hs, -⟩
    · simp [symbols_nil] at h
    · obtain ⟨a, b', rfl, hr⟩ := ih (List.cons.inj (hs.symm.trans h)).2
      exact ⟨utf8EncodeChar c ++ a, b', by simp, hr⟩
    · obtain ⟨a, b', rfl, hr⟩ := ih (List.cons.inj (hs.symm.trans h)).2
      exact ⟨y :: a, b', rfl, hr⟩

/-- Characters are read from the octets of their text only. -/
theorem exists_of_symbols_eq_text {s : String} {bs : Bytes} {r : List (Option Char)}
    (h : symbols bs = s.toList.map some ++ r) : ∃ b, bs = encode s ++ b ∧ symbols b = r := by
  have chars : ∀ (cs : List Char) {bs}, symbols bs = cs.map some ++ r →
      ∃ b, bs = cs.flatMap utf8EncodeChar ++ b ∧ symbols b = r := by
    intro cs
    induction cs with
    | nil => exact fun {bs} h => ⟨bs, rfl, h⟩
    | cons c cs ih =>
      intro bs h
      rcases symbols_cases bs with rfl | ⟨d, b, rfl, hs⟩ | ⟨y, b, rfl, hs, -⟩
      · simp [symbols_nil] at h
      · obtain ⟨hc, hrest⟩ := List.cons.inj (hs.symm.trans h)
        obtain rfl := Option.some.inj hc
        obtain ⟨b', rfl, hr⟩ := ih hrest
        exact ⟨b', by simp, hr⟩
      · exact absurd (List.cons.inj (hs.symm.trans h)).1 (by simp)
  rw [encode_eq_flatMap]
  exact chars s.toList h

end PhaseSampling.Text.Utf8
