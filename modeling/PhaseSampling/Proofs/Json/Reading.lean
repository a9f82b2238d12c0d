import PhaseSampling.Proofs.Json.Layout
import PhaseSampling.Proofs.Text.Octets

/-!
# Reading back what was written

* `Takes read cs a`: after blanks and before any rest that no number goes on with, the reader takes
  the text `cs` and gives `a`.
* `takes_text`, `takes_word`, `takes_float`: strings, words and floating-point numbers.
* `takes_all`, `takes_record`: lists and records in every layout, from what takes their items and
  fields.
-/

namespace PhaseSampling

/-- The text of a number reads back to that number. -/
def Binary64.ReadsBack (x : Binary64) : Prop :=
  Json.readFloat ((Json.numberStyle.text x).toList.map some) = .ok (x, [])

namespace Json

open Text (wordLimit isDigit_of_mem_toDigits)

variable {α β : Type} {l : Layout} {i : Nat}

/-- A reader takes a text, after blanks and before any rest that no number goes on with. -/
def Takes (read : Reader α) (cs : List Char) (a : α) : Prop :=
  ∀ ⦃b : List Char⦄, (∀ c ∈ b, Blank (some c)) → ∀ ⦃r : Symbols⦄, Ends r →
    read ((b ++ cs).map some ++ r) = .ok (a, r)

theorem skipBlank_blanks {b : List Char} (h : ∀ c ∈ b, Blank (some c)) (s : Symbols) :
    skipBlank (b.map some ++ s) = skipBlank s :=
  skipBlank_append (by simpa using h) s

/-- Readers that pass over blanks take what they take without them. -/
theorem takes_of_skipBlank {read : Reader α} {cs : List Char} {a : α}
    (hb : ∀ s, read (skipBlank s) = read s)
    (h : ∀ r, Ends r → read (cs.map some ++ r) = .ok (a, r)) : Takes read cs a := by
  intro b hbl r hr
  rw [List.map_append, List.append_assoc, ← hb, skipBlank_blanks hbl, hb]
  exact h r hr

/-! ## Strings -/

theorem hexValue?_hexDigit (n : Nat) : hexValue? (hexDigit n) = some (n % 16) := by
  have table : ∀ d < 16, hexValue? (Nat.digitChar d) = some d := by decide
  exact table (n % 16) (Nat.mod_lt n (by decide))

theorem utf8Size_hexDigit (n : Nat) : (hexDigit n).utf8Size = 1 := by
  have table : ∀ d < 16, (Nat.digitChar d).utf8Size = 1 := by decide
  exact table (n % 16) (Nat.mod_lt n (by decide))

/-- The code unit of a control character. -/
theorem readStringFrom_control {c : Char} (hc : c.toNat < 0x20) (acc : List Char) (r : Symbols) :
    readStringFrom true (.unit 4 (some 0) none) acc false
        (['0', '0', hexDigit (c.toNat / 16), hexDigit c.toNat].map some ++ r) =
      readStringFrom true .plain (c :: acc) false r := by
  have hhigh : hexValue? (hexDigit (c.toNat / 16)) = some (c.toNat / 16) := by
    rw [hexValue?_hexDigit, Nat.mod_eq_of_lt (by omega)]
  have hunit : 16 * (c.toNat / 16) + c.toNat % 16 = c.toNat := Nat.div_add_mod c.toNat 16
  have htake : takeUnit true c.toNat none = .ok (some c, .plain) := by
    have hlow : isLow c.toNat = false := by simp [isLow]; omega
    have hhigh : isHigh c.toNat = false := by simp [isHigh]; omega
    simp [takeUnit, hlow, hhigh, Char.ofNat_toNat]
  have h0 : hexValue? '0' = some 0 := by decide
  have hsize : ('0').utf8Size = 1 := by decide
  simp [readStringFrom, h0, hhigh, hexValue?_hexDigit, utf8Size_hexDigit, hsize, hunit, htake]

/-- A character as it is written reads back. -/
theorem readStringFrom_escape (c : Char) (acc : List Char) (r : Symbols) :
    readStringFrom true .plain acc false ((escape c).map some ++ r) =
      readStringFrom true .plain (c :: acc) false r := by
  by_cases hquote : c = '"'
  · subst hquote; rfl
  by_cases hback : c = '\\'
  · subst hback; rfl
  by_cases hb : c = '\x08'
  · subst hb; rfl
  by_cases hf : c = '\x0c'
  · subst hf; rfl
  by_cases hn : c = '\n'
  · subst hn; rfl
  by_cases hr : c = '\r'
  · subst hr; rfl
  by_cases ht : c = '\t'
  · subst ht; rfl
  by_cases hc : c.toNat < 0x20
  · have := readStringFrom_control hc acc r
    simpa [escape, hquote, hback, hb, hf, hn, hr, ht, hc, readStringFrom] using this
  · simp [escape, hquote, hback, hb, hf, hn, hr, ht, hc, readStringFrom]

theorem readString_quoted (s : String) (r : Symbols) :
    readString ((s.toList.flatMap escape ++ ['"']).map some ++ r) = .ok (s, r) := by
  have chars : ∀ (cs acc : List Char), readStringFrom true .plain acc false
      ((cs.flatMap escape ++ ['"']).map some ++ r) = .ok (String.ofList (acc.reverse ++ cs), r) := by
    intro cs
    induction cs with
    | nil => intro acc; simp [readStringFrom]
    | cons c cs ih =>
      intro acc
      have := readStringFrom_escape c acc ((cs.flatMap escape ++ ['"']).map some ++ r)
      rw [ih] at this
      simpa using this
  simpa [readString] using chars s.toList []

theorem takes_text (s : String) : Takes readText (quoted s) s := by
  apply takes_of_skipBlank
  · intro t
    simp only [readText, skipBlank_skipBlank]
  · intro r _
    have hq : ¬ Blank (some '"') := by decide
    have := readString_quoted s r
    simp only [quoted, List.cons_append, List.map_cons, readText, skipBlank_cons hq]
    exact this

/-! ## Numbers -/

theorem head?_toDigits_ne {n : Nat} (h : 0 < n) : (Nat.toDigits 10 n).head? ≠ some '0' := by
  induction n using Nat.strongRecOn with
  | ind n ih =>
    by_cases hn : n < 10
    · simp [Nat.toDigits_of_lt_base hn]
      omega
    · have := ih (n / 10) (by omega) (by omega)
      rw [Nat.toDigits_of_base_le (by decide) (by omega), List.head?_append]
      rcases hd : Nat.toDigits 10 (n / 10) with _ | ⟨c, cs⟩
      · exact absurd hd Nat.toDigits_ne_nil
      · simpa [hd] using this

/-- Only the numeral of zero begins with a zero. -/
theorem toDigits_ne_zero_cons (n : Nat) (c : Char) (cs : List Char) :
    Nat.toDigits 10 n ≠ '0' :: c :: cs := by
  intro h
  by_cases hn : 0 < n
  · exact head?_toDigits_ne hn (by simp [h])
  · obtain rfl : n = 0 := by omega
    simp at h

theorem readFraction_of_ends {r : Symbols} (hr : Ends r) : readFraction r = .ok ([], r) := by
  unfold readFraction
  split
  · exact absurd (.inr (by simp)) (hr '.' (by simp))
  · rfl

theorem readExponent_of_ends {r : Symbols} (hr : Ends r) : readExponent r = .ok (none, r) := by
  rcases r with _ | ⟨_ | c, r⟩
  · rfl
  · rfl
  · have : ¬ (c = 'e' ∨ c = 'E') := fun hc => hr c (by simp) (.inr (by grind))
    simp [readExponent, this]

theorem readNumber_of_isDigit {c : Char} (h : c.isDigit) (r : Symbols) :
    readNumber (some c :: r) = readUnsigned false (some c :: r) := by
  have : c ≠ '-' := by
    rintro rfl
    exact absurd h (by decide)
  unfold readNumber
  grind

theorem readNumber_toDigits {n : Nat} (hn : n < wordLimit) {r : Symbols} (hr : Ends r) :
    readNumber ((Nat.toDigits 10 n).map some ++ r) = .ok (.word n, r) := by
  have hdigit : ∀ c ∈ Nat.toDigits 10 n, c.isDigit := fun c hc => isDigit_of_mem_toDigits hc
  have htake : takeDigits ((Nat.toDigits 10 n).map some ++ r) = (Nat.toDigits 10 n, r) :=
    takeDigits_append hdigit fun c hc hd => hr c hc (.inl hd)
  have hwhole := readWhole_eq_ok_iff.2
    ⟨htake, Nat.toDigits_ne_nil, fun c cs => toDigits_ne_zero_cons n c cs⟩
  have hmake : makeNumber false (Nat.toDigits 10 n) [] none = some (.word n) := by
    simp [makeNumber, Nat.ofDigitChars_ten_toDigits, hn]
  have hread : readUnsigned false ((Nat.toDigits 10 n).map some ++ r) = .ok (.word n, r) := by
    simp [readUnsigned, hwhole, readFraction_of_ends hr, readExponent_of_ends hr, hmake, bind,
      Except.bind]
  rcases hd : Nat.toDigits 10 n with _ | ⟨c, cs⟩
  · exact absurd hd Nat.toDigits_ne_nil
  · have hc : c.isDigit := hdigit c (by simp [hd])
    rw [hd] at hread
    exact (readNumber_of_isDigit hc _).trans hread

theorem exists_digitChar_eq {c : Char} (h : c.isDigit) :
    ∃ d < 10, Nat.digitChar d = c ∧ c.toNat - 48 = d := by
  obtain ⟨hlow, hhigh⟩ : 48 ≤ c.toNat ∧ c.toNat ≤ 57 := by
    simpa [Char.isDigit, UInt32.le_iff_toNat_le] using h
  have table : ∀ d < 10, Nat.digitChar d = Char.ofNat (48 + d) := by decide
  refine ⟨c.toNat - 48, by omega, ?_, by omega⟩
  rw [table _ (by omega), Nat.add_sub_cancel' hlow, Char.ofNat_toNat]

/-- Digits without a leading zero are the numeral of their number. -/
theorem toDigits_ofDigitChars {ds : List Char} (hne : ds ≠ []) (hd : ∀ c ∈ ds, c.isDigit)
    (hz : ∀ c cs, ds ≠ '0' :: c :: cs) : Nat.toDigits 10 (Nat.ofDigitChars 10 ds 0) = ds := by
  induction hn : ds.length generalizing ds with
  | zero => exact absurd (List.length_eq_zero_iff.1 hn) hne
  | succ n ih =>
    obtain ⟨cs, c, rfl⟩ : ∃ cs c, ds = cs ++ [c] :=
      ⟨_, _, (List.dropLast_concat_getLast hne).symm⟩
    obtain ⟨d, hlt, rfl, hval⟩ := exists_digitChar_eq (hd c (by simp))
    have hlast : Nat.ofDigitChars 10 (cs ++ [Nat.digitChar d]) 0 =
        10 * Nat.ofDigitChars 10 cs 0 + d := by
      simp [Nat.ofDigitChars_append, Nat.ofDigitChars_cons, hval]
    rw [hlast]
    by_cases hcs : cs = []
    · subst hcs
      simp [Nat.toDigits_of_lt_base hlt]
    · have hfront : Nat.toDigits 10 (Nat.ofDigitChars 10 cs 0) = cs := by
        refine ih hcs (fun x hx => hd x (by simp [hx])) (fun x xs h => ?_) (by simpa using hn)
        exact hz x (xs ++ [Nat.digitChar d]) (by simp [h])
      have hpos : Nat.ofDigitChars 10 cs 0 ≠ 0 := by
        intro h0
        rw [h0] at hfront
        exact hz (Nat.digitChar d) [] (by simp [← hfront])
      have hdiv : (10 * Nat.ofDigitChars 10 cs 0 + d) / 10 = Nat.ofDigitChars 10 cs 0 := by omega
      have hmod : (10 * Nat.ofDigitChars 10 cs 0 + d) % 10 = d := by omega
      rw [Nat.toDigits_of_base_le (by decide) (by omega), hdiv, hmod, hfront]

/-- Only a whole number without a sign becomes a word. -/
theorem eq_of_makeNumber {minus : Bool} {whole fraction : List Char} {e : Option Int} {n : Nat}
    (h : makeNumber minus whole fraction e = some (.word n)) :
    minus = false ∧ fraction = [] ∧ e = none ∧ Nat.ofDigitChars 10 whole 0 = n := by
  unfold makeNumber at h
  simp only at h
  split at h
  · rename_i hc
    obtain ⟨rfl, rfl, hm, -⟩ := hc
    exact ⟨by simpa using hm, rfl, rfl, by simpa using h⟩
  split at h
  · cases h
  · simp at h

theorem readFraction_eq_ok_nil {s r : Symbols} (h : readFraction s = .ok ([], r)) : s = r := by
  unfold readFraction at h
  split at h
  · exact absurd rfl (readDigits_eq_ok_iff.1 h).2
  · simpa using h

theorem readExponent_eq_ok_none {s r : Symbols} (h : readExponent s = .ok (none, r)) : s = r := by
  rcases s with _ | ⟨_ | c, s⟩
  · simpa [readExponent] using h
  · simpa [readExponent] using h
  · by_cases hc : c = 'e' ∨ c = 'E'
    · rw [readExponent_cons s hc] at h
      obtain ⟨y, -, hy⟩ := map_eq_ok h
      cases hy
    · simpa [readExponent, hc] using h

/-- A word is read from its digits and nothing else. -/
theorem eq_toDigits_of_readNumber {s r : Symbols} {n : Nat}
    (h : readNumber s = .ok (.word n, r)) : s = (Nat.toDigits 10 n).map some ++ r := by
  have unsigned : ∀ minus q, readUnsigned minus q = .ok (.word n, r) →
      minus = false ∧ q = (Nat.toDigits 10 n).map some ++ r := by
    intro minus q hq
    obtain ⟨⟨whole, t⟩, hw, hq⟩ := bind_eq_ok hq
    obtain ⟨⟨fraction, u⟩, hf, hq⟩ := bind_eq_ok hq
    obtain ⟨⟨e, v⟩, he, hq⟩ := bind_eq_ok hq
    simp only at hq
    split at hq
    · rename_i m hm
      obtain ⟨rfl, rfl⟩ : m = .word n ∧ v = r := by simpa using hq
      obtain ⟨hminus, rfl, rfl, hn⟩ := eq_of_makeNumber hm
      obtain ⟨htake, hne, hz⟩ := readWhole_eq_ok_iff.1 hw
      obtain rfl := readFraction_eq_ok_nil hf
      obtain rfl := readExponent_eq_ok_none he
      obtain ⟨hs, hdigit, -⟩ := takeDigits_spec q
      rw [htake] at hs hdigit
      rw [← hn, toDigits_ofDigitChars hne hdigit hz]
      exact ⟨hminus, hs⟩
    · cases hq
  unfold readNumber at h
  split at h
  · exact absurd (unsigned _ _ h).1 (by decide)
  · exact (unsigned _ _ h).2
theorem not_blank_of_numeral {c : Char} (h : c = '-' ∨ c.isDigit) : ¬ Blank (some c) := by
  intro hb
  rcases h with rfl | hd
  · exact absurd hb (by decide)
  · rcases (by simpa [Blank] using hb : c = ' ' ∨ c = '\n' ∨ c = '\t' ∨ c = '\r')
      with rfl | rfl | rfl | rfl <;> exact absurd hd (by decide)

theorem takes_word {n : Nat} (hn : n < wordLimit) : Takes readWord (Nat.toDigits 10 n) n := by
  intro b hb r hr
  rcases hd : Nat.toDigits 10 n with _ | ⟨c, cs⟩
  · exact absurd hd Nat.toDigits_ne_nil
  have hc : c = '-' ∨ c.isDigit := .inr (isDigit_of_mem_toDigits (by rw [hd]; simp))
  have hread := readNumber_toDigits hn hr
  rw [hd] at hread
  refine readAsNumber_eq_ok_iff.2 ⟨c, cs.map some ++ r, .word n, ?_, hc, hread, rfl⟩
  rw [List.map_append, List.append_assoc, skipBlank_blanks hb]
  exact skipBlank_cons (not_blank_of_numeral hc) _

theorem skipBlank_append_of_cons {s q : Symbols} {x : Option Char} (h : skipBlank s = x :: q)
    (r : Symbols) : skipBlank (s ++ r) = x :: q ++ r := by
  obtain ⟨b, hs, hb, hh⟩ := exists_eq_append_skipBlank s
  rw [h] at hs hh
  have hx : ¬ Blank x := hh x (by simp)
  rw [hs, List.append_assoc, skipBlank_append hb]
  exact skipBlank_cons hx _

/-- A number that reads back, reads back before all rests that do not go on with it. -/
theorem takes_float {x : Binary64} (hx : x.ReadsBack) :
    Takes readFloat (numberStyle.text x).toList x := by
  intro b hb r hr
  obtain ⟨c, q, n, hs, hc, hn, hf⟩ := readAsNumber_eq_ok_iff.1 hx
  obtain ⟨p, hp, hread⟩ := settled_readNumber hn
  obtain rfl : p = some c :: q := by simpa using hp.symm
  refine readAsNumber_eq_ok_iff.2 ⟨c, q ++ r, n, ?_, hc, hread r (.inr hr), hf⟩
  rw [List.map_append, List.append_assoc, skipBlank_blanks hb]
  exact skipBlank_append_of_cons hs r

/-! ## Values that may be missing -/

theorem takes_null (read : Reader α) : Takes (readOption read) "null".toList none := by
  apply takes_of_skipBlank
  · intro s
    simp only [readOption, skipBlank_skipBlank]
  · intro r _
    rfl

theorem takes_some {f : Number → Option α} {cs : List Char} {a : α}
    (h : Takes (readAsNumber f) cs a) : Takes (readOption (readAsNumber f)) cs (some a) := by
  intro b hb r hr
  have hread := h hb hr
  obtain ⟨c, q, n, hs, hc, hn, hf⟩ := readAsNumber_eq_ok_iff.1 hread
  have hne : c ≠ 'n' := by
    rintro rfl
    exact absurd hc (by decide)
  have hagain : readAsNumber f (some c :: q) = .ok (a, r) :=
    readAsNumber_eq_ok_iff.2 ⟨c, q, n, skipBlank_cons (not_blank_of_numeral hc) q, hc, hn, hf⟩
  unfold readOption
  rw [hs]
  split
  · rename_i hq
    exact absurd (by simpa using congrArg List.head? hq) hne
  · simp [hagain, Except.map]

/-! ## Lists -/

/-- A text that begins like an item of a list. -/
def Opens (cs : List Char) : Prop := ∃ c t, cs = c :: t ∧ ¬ Blank (some c) ∧ c ∉ [']', ',']

theorem opens_word (n : Nat) : Opens (Nat.toDigits 10 n) := by
  rcases hd : Nat.toDigits 10 n with _ | ⟨c, t⟩
  · exact absurd hd Nat.toDigits_ne_nil
  · have hc : c.isDigit := isDigit_of_mem_toDigits (by rw [hd]; simp)
    refine ⟨c, t, rfl, not_blank_of_numeral (.inr hc), ?_⟩
    rintro hm
    rcases (by simpa using hm : c = ']' ∨ c = ',') with rfl | rfl <;> exact absurd hc (by decide)

theorem opens_object (fs : List (String × Json)) : Opens (l.chars i (.object fs)) :=
  ⟨'\x7b', _, by rw [Layout.chars, List.append_assoc, List.cons_append], by decide, by decide⟩

theorem ends_blank {b : List Char} (hb : ∀ c ∈ b, Blank (some c)) {r : Symbols} (hr : Ends r) :
    Ends (b.map some ++ r) := by
  cases b with
  | nil => exact hr
  | cons c b =>
    refine ends_cons (fun hn => ?_) _
    have hc : Blank (some c) := hb c List.mem_cons_self
    rcases (by simpa [Blank] using hc : c = ' ' ∨ c = '\n' ∨ c = '\t' ∨ c = '\r')
      with rfl | rfl | rfl | rfl <;> exact absurd hn (by simp [Numeric])

theorem blank_of_mem_close {e : Bool} {c : Char} (h : c ∈ l.close i e) :
    Blank (some c) := by
  cases e with
  | true => simp [Layout.close] at h
  | false => exact l.blank_of_mem_gap h

/-- The next item of a list, after what stands before it. -/
theorem nextItem_lead {cs : List Char} (h : Opens cs) (first : Bool) (r : Symbols) :
    nextItem first ((l.lead i first).map some ++ (cs.map some ++ r)) =
      .ok (true, cs.map some ++ r) := by
  obtain ⟨c, t, rfl, hblank, hne⟩ := h
  have hskip : skipBlank ((l.gap i).map some ++ some c :: (t.map some ++ r)) =
      some c :: (t.map some ++ r) := by
    rw [skipBlank_blanks fun _ => l.blank_of_mem_gap]
    exact skipBlank_cons hblank _
  obtain ⟨hclose, hcomma⟩ : c ≠ ']' ∧ c ≠ ',' := by simpa using hne
  cases first with
  | true => simp [nextItem, Layout.lead, hskip, hclose, hcomma]
  | false =>
    have hc : ¬ Blank (some ',') := by decide
    simp [nextItem, Layout.lead, skipBlank_cons hc, hskip, hclose]

variable {b : List Char}

theorem skipBlank_close (hb : ∀ c ∈ b, Blank (some c)) {x : Char} (hx : ¬ Blank (some x))
    (r : Symbols) : skipBlank (b.map some ++ some x :: r) = some x :: r := by
  rw [skipBlank_blanks hb, skipBlank_cons hx]

theorem nextItem_end (hb : ∀ c ∈ b, Blank (some c)) (first : Bool) (r : Symbols) :
    nextItem first (b.map some ++ some ']' :: r) = .ok (false, some ']' :: r) := by
  simp [nextItem, skipBlank_close hb (x := ']') (by decide)]

theorem endItems_close (hb : ∀ c ∈ b, Blank (some c)) (r : Symbols) :
    endItems (b.map some ++ some ']' :: r) = .ok r := by
  simp [endItems, skipBlank_close hb (x := ']') (by decide)]

/-- What follows an item does not go on with it. -/
theorem ends_items (hb : ∀ c ∈ b, Blank (some c)) (vs : List Json) (r : Symbols) :
    Ends ((l.items i false vs ++ b).map some ++ some ']' :: r) := by
  cases vs with
  | nil => exact ends_blank hb (ends_cons (by simp [Numeric]) r)
  | cons v vs => exact ends_cons (by simp [Numeric]) _

/-- The items of a list, each of which the reader takes. -/
theorem readAllFrom_items {γ : Type} {read : Reader α} {v : γ → Json} {a : γ → α} {xs : List γ}
    (h : ∀ x ∈ xs, Takes read (l.chars i (v x)) (a x) ∧ Opens (l.chars i (v x)))
    (hb : ∀ c ∈ b, Blank (some c)) (r : Symbols) (first : Bool) (fuel : Nat)
    (hf : xs.length < fuel) :
    readAllFrom read fuel first
        ((l.items i first (xs.map v) ++ b).map some ++ some ']' :: r) =
      .ok (xs.map a, r) := by
  induction xs generalizing first fuel with
  | nil =>
    obtain ⟨fuel, rfl⟩ : ∃ n, fuel = n + 1 := ⟨fuel - 1, by omega⟩
    simp [readAllFrom, Layout.items, nextItem_end hb, endItems, skipBlank, bind, Except.bind, pure,
      Except.pure]
  | cons x xs ih =>
    obtain ⟨fuel, rfl⟩ : ∃ n, fuel = n + 1 := ⟨fuel - 1, by simp at hf; omega⟩
    obtain ⟨htake, hopen⟩ := h x List.mem_cons_self
    have hrest := ih (fun y hy => h y (List.mem_cons_of_mem x hy)) false fuel (by simpa using hf)
    have hitem := htake (b := []) (by simp)
      (ends_items (l := l) (i := i) hb (xs.map v) r)
    have hnext := nextItem_lead (l := l) (i := i) hopen first
      ((l.items i false (xs.map v) ++ b).map some ++ some ']' :: r)
    simp only [List.map_append, List.append_assoc, List.nil_append] at hrest hitem hnext
    simp [readAllFrom, Layout.items, hnext, hitem, hrest, bind, Except.bind, pure, Except.pure]

theorem length_le_items {γ : Type} {v : γ → Json} {xs : List γ}
    (h : ∀ x ∈ xs, Opens (l.chars i (v x))) (first : Bool) :
    xs.length ≤ (l.items i first (xs.map v)).length := by
  induction xs generalizing first with
  | nil => simp
  | cons x xs ih =>
    obtain ⟨c, t, hc, -⟩ := h x List.mem_cons_self
    have := ih (fun y hy => h y (List.mem_cons_of_mem x hy)) false
    simp [Layout.items, hc]
    omega

/-- The first of the items that are left. -/
theorem readItem_items {read : Reader α} {v : Json} {a : α} (h : Takes read (l.chars i v) a)
    (ho : Opens (l.chars i v)) (hb : ∀ c ∈ b, Blank (some c)) (first : Bool) (vs : List Json)
    (r : Symbols) :
    readItem first read ((l.items i first (v :: vs) ++ b).map some ++ some ']' :: r) =
      .ok (a, (l.items i false vs ++ b).map some ++ some ']' :: r) := by
  have hread := h (b := []) (by simp) (ends_items (l := l) (i := i) hb vs r)
  have hnext := nextItem_lead (l := l) (i := i) ho first
    ((l.items i false vs ++ b).map some ++ some ']' :: r)
  rw [List.nil_append] at hread
  simp only [List.map_append, List.append_assoc] at hread hnext
  simp [readItem, Layout.items, hnext, hread, bind, Except.bind]

/-- A list of which every item is taken. -/
theorem takes_all {γ : Type} {read : Reader α} {v : γ → Json} {a : γ → α} {xs : List γ}
    (h : ∀ x ∈ xs, Takes read (l.chars (i + 1) (v x)) (a x) ∧
      Opens (l.chars (i + 1) (v x))) :
    Takes (readAll read) (l.chars i (.list (xs.map v))) (xs.map a) := by
  apply takes_of_skipBlank
  · intro s
    simp only [readAll, skipBlank_skipBlank]
  · intro r _
    have hopen : ¬ Blank (some '[') := by decide
    have hlen := length_le_items (fun x hx => (h x hx).2) true
    have hitems := readAllFrom_items h
      (fun _ => blank_of_mem_close (l := l) (i := i) (e := (xs.map v).isEmpty)) r true
    have := hitems (((l.items (i + 1) true (xs.map v) ++
      l.close i (xs.map v).isEmpty).map some ++ some ']' :: r).length + 1)
      (by simp at hlen ⊢; omega)
    simpa [readAll, Layout.chars, skipBlank_cons hopen] using this

/-! ## Records -/

/-- The next key of an object, after what stands before it. -/
theorem nextKey_lead (k : String) (first : Bool) (r : Symbols) :
    nextKey first ((l.lead i first).map some ++ ((quoted k).map some ++ r)) =
      .ok (some k, r) := by
  have hkey := readString_quoted k r
  have hquote : ¬ Blank (some '"') := by decide
  have hskip : ∀ q, skipBlank ((l.gap i).map some ++ some '"' :: q) = some '"' :: q := by
    intro q
    rw [skipBlank_blanks fun _ => l.blank_of_mem_gap, skipBlank_cons hquote]
  simp only [List.map_append, List.append_assoc, List.map_cons, List.map_nil, List.cons_append,
    List.nil_append] at hkey
  cases first with
  | true => simp [nextKey, nextKey.key, Layout.lead, quoted, hskip, hkey]
  | false =>
    have hc : ¬ Blank (some ',') := by decide
    simp [nextKey, nextKey.key, Layout.lead, quoted, skipBlank_cons hc, hskip, hkey]

theorem nextKey_end (hb : ∀ c ∈ b, Blank (some c)) (first : Bool) (r : Symbols) :
    nextKey first (b.map some ++ some '\x7d' :: r) = .ok (none, some '\x7d' :: r) := by
  simp [nextKey, skipBlank_close hb (x := '\x7d') (by decide)]

/-- What follows a field does not go on with its value. -/
theorem ends_fields (hb : ∀ c ∈ b, Blank (some c)) (fs : List (String × Json)) (r : Symbols) :
    Ends ((l.fields i false fs ++ b).map some ++ some '\x7d' :: r) := by
  cases fs with
  | nil => exact ends_blank hb (ends_cons (by simp [Numeric]) r)
  | cons f fs => exact ends_cons (by simp [Numeric]) _

/-- The fields of an object are taken one after the other, and lead from one draft to another. -/
def Gathers (l : Layout) (i : Nat) (step : String → β → Reader β) :
    List (String × Json) → β → β → Prop
  | [], d, d' => d = d'
  | (k, v) :: fs, d, d'' => ∃ d', Takes (step k d) (':' :: l.space ++ l.chars i v) d' ∧
      Gathers l i step fs d' d''

theorem Gathers.append {step : String → β → Reader β} {fs gs : List (String × Json)} {d e d' : β}
    (h : Gathers l i step fs d e) (hg : Gathers l i step gs e d') :
    Gathers l i step (fs ++ gs) d d' := by
  induction fs generalizing d with
  | nil => exact h ▸ hg
  | cons f fs ih =>
    obtain ⟨d₁, htake, hmore⟩ := h
    exact ⟨d₁, htake, ih hmore⟩

theorem readFields_gathers {step : String → β → Reader β} {fs : List (String × Json)} {d d' : β}
    (h : Gathers l i step fs d d') (hb : ∀ c ∈ b, Blank (some c)) (r : Symbols) (first : Bool)
    (fuel : Nat) (hf : fs.length < fuel) :
    readFields step fuel first d ((l.fields i first fs ++ b).map some ++ some '\x7d' :: r) =
      .ok (d', some '\x7d' :: r) := by
  induction fs generalizing d first fuel with
  | nil =>
    obtain ⟨fuel, rfl⟩ : ∃ n, fuel = n + 1 := ⟨fuel - 1, by omega⟩
    obtain rfl : d = d' := h
    simp [readFields, Layout.fields, nextKey_end hb, bind, Except.bind, pure, Except.pure]
  | cons f fs ih =>
    obtain ⟨k, v⟩ := f
    obtain ⟨fuel, rfl⟩ : ∃ n, fuel = n + 1 := ⟨fuel - 1, by simp at hf; omega⟩
    obtain ⟨e, htake, hmore⟩ := h
    have hrest := ih hmore false fuel (by simpa using hf)
    have hvalue := htake (b := []) (by simp) (ends_fields (l := l) (i := i) hb fs r)
    have hkey := nextKey_lead (l := l) (i := i) k first
      ((':' :: l.space ++ l.chars i v).map some ++
        ((l.fields i false fs ++ b).map some ++ some '\x7d' :: r))
    simp only [List.map_append, List.map_cons, List.append_assoc, List.nil_append,
      List.cons_append] at hrest hvalue hkey
    simp [readFields, Layout.fields, hkey, hvalue, hrest, bind, Except.bind]

theorem length_le_fields (fs : List (String × Json)) (first : Bool) :
    fs.length ≤ (l.fields i first fs).length := by
  induction fs generalizing first with
  | nil => simp
  | cons f fs ih =>
    have := ih false
    simp [Layout.fields, quoted]
    omega

/-- A record whose fields are gathered in a draft that is whole. -/
theorem takes_record {draft d : β} {step : String → β → Reader β} {finish : β → Option α}
    {items : Reader α} {fs : List (String × Json)} {a : α}
    (h : Gathers l (i + 1) step fs draft d) (hd : finish d = some a) :
    Takes (readRecord draft step finish items) (l.chars i (.object fs)) a := by
  apply takes_of_skipBlank
  · intro s
    simp only [readRecord, skipBlank_skipBlank]
  · intro r _
    have hopen : ¬ Blank (some '\x7b') := by decide
    have hclose : ¬ Blank (some '\x7d') := by decide
    have hlen := length_le_fields (l := l) (i := i + 1) fs true
    have hfields := readFields_gathers h
      (fun _ => blank_of_mem_close (l := l) (i := i) (e := fs.isEmpty)) r true
    have := hfields (((l.fields (i + 1) true fs ++
      l.close i fs.isEmpty).map some ++ some '\x7d' :: r).length + 1)
      (by simp at hlen ⊢; omega)
    simp only [List.map_append, List.append_assoc, List.length_append, List.length_map,
      List.length_cons] at this
    simp [readRecord, Layout.chars, skipBlank_cons hopen, this, hd, endFields,
      skipBlank_cons hclose, bind, Except.bind, pure, Except.pure]

/-- A field that was not given before. -/
theorem takes_fresh {read : Reader α} {v : Json} {a : α} (h : Takes read (l.chars i v) a)
    (put : α → β) :
    Takes (readFresh none read put) (':' :: l.space ++ l.chars i v) (put a) := by
  intro b hb r hr
  have hcolon : ¬ Blank (some ':') := by decide
  have hvalue := h (fun _ => l.blank_of_mem_space) hr
  simp only [List.map_append, List.append_assoc] at hvalue
  simp [readFresh, readField, skipColon, skipBlank_close hb hcolon, hvalue, bind, Except.bind,
    Except.map]

end Json

end PhaseSampling
