import PhaseSampling.Json.Reader

/-!
# What a reader takes

A reader takes symbols off the front of a text and hands on the rest. What it gives is settled by
the symbols that it takes: before another rest it takes the same ones and gives the same, as long as
the rest is one that it cannot mistake for more of what it reads (`Rests`).

* `Agree R f g`: whatever `f` takes, `g` takes too before all other rests that `R` allows. The two
  readers differ only in their fuel.
* `settled_readNumber`, `settled_readStringFrom`: numbers before rests that do not go on with them,
  strings before all rests.
-/

namespace PhaseSampling.Json

/-! ## Blanks -/

/-- A symbol that stands between the parts of a value. -/
def Blank (x : Option Char) : Prop := x ∈ [some ' ', some '\n', some '\t', some '\r']

instance (x : Option Char) : Decidable (Blank x) := inferInstanceAs (Decidable (x ∈ _))

theorem skipBlank_cons {x : Option Char} (h : ¬ Blank x) (r : Symbols) :
    skipBlank (x :: r) = x :: r := by
  rw [skipBlank, if_neg (show x ∉ _ from h)]

theorem skipBlank_append {b : Symbols} (h : ∀ x ∈ b, Blank x) (s : Symbols) :
    skipBlank (b ++ s) = skipBlank s := by
  induction b with
  | nil => rfl
  | cons x b ih =>
    have hx : Blank x := h x List.mem_cons_self
    rw [List.cons_append, skipBlank, if_pos (show x ∈ _ from hx)]
    exact ih fun y hy => h y (List.mem_cons_of_mem x hy)

/-- Blanks, and what begins with none. -/
theorem exists_eq_append_skipBlank (s : Symbols) :
    ∃ b, s = b ++ skipBlank s ∧ (∀ x ∈ b, Blank x) ∧
      ∀ x ∈ (skipBlank s).head?, ¬ Blank x := by
  induction s with
  | nil => exact ⟨[], rfl, by simp, by simp [skipBlank]⟩
  | cons x s ih =>
    by_cases hx : Blank x
    · obtain ⟨b, hs, hb, hh⟩ := ih
      have he : skipBlank (x :: s) = skipBlank s := skipBlank_append (b := [x]) (by simpa) s
      refine ⟨x :: b, ?_, ?_, he ▸ hh⟩
      · rw [he, List.cons_append, ← hs]
      · simpa using ⟨hx, hb⟩
    · exact ⟨[], by rw [skipBlank_cons hx, List.nil_append], by simp, by simp [skipBlank_cons hx, hx]⟩

theorem skipBlank_skipBlank (s : Symbols) : skipBlank (skipBlank s) = skipBlank s := by
  obtain ⟨b, -, -, hh⟩ := exists_eq_append_skipBlank s
  rcases hs : skipBlank s with _ | ⟨x, r⟩
  · rfl
  · exact skipBlank_cons (hh x (by simp [hs])) r

/-- Blanks are passed over before another rest that begins alike. -/
theorem exists_skipBlank {s r : Symbols} (h : skipBlank s = r) :
    ∃ b, s = b ++ r ∧ ∀ r', r'.head? = r.head? → skipBlank (b ++ r') = r' := by
  obtain ⟨b, hs, hb, hh⟩ := exists_eq_append_skipBlank s
  rw [h] at hs hh
  refine ⟨b, hs, fun r' hr => ?_⟩
  rw [skipBlank_append hb]
  cases r' with
  | nil => rfl
  | cons x r' =>
    rw [← hr] at hh
    exact skipBlank_cons (hh x (by simp)) r'

/-! ## Rests -/

/-- A character that a number can go on with. -/
def Numeric (c : Char) : Prop := c.isDigit ∨ c ∈ ['.', 'e', 'E']

/-- A rest that no number goes on with. -/
def Ends (r : Symbols) : Prop := ∀ c, some c ∈ r.head? → ¬ Numeric c

theorem ends_nil : Ends [] := by simp [Ends]

theorem ends_cons {c : Char} (h : ¬ Numeric c) (r : Symbols) : Ends (some c :: r) := by
  simpa [Ends] using h

/-- Which rests may stand in for which. What stands before a rest stands before both. -/
structure Rests where
  allow : Symbols → Symbols → Prop
  append : ∀ (p : Symbols) {r r' : Symbols}, allow r r' → allow (p ++ r) (p ++ r')

namespace Rests

def any : Rests := ⟨fun _ _ => True, fun _ _ _ _ => trivial⟩

/-- Rests that begin alike, or that no number goes on with. -/
def stopping : Rests where
  allow r r' := r'.head? = r.head? ∨ Ends r'
  append p r r' h := by
    cases p with
    | nil => exact h
    | cons x p => exact .inl rfl

/-- Rests that begin alike, the second no shorter, so that no bound on the length cuts off its
reading. -/
def similar : Rests where
  allow r r' := r'.head? = r.head? ∧ r.length ≤ r'.length
  append p r r' h := by
    obtain ⟨hh, hl⟩ := h
    have : (p ++ r).length ≤ (p ++ r').length := by simpa
    cases p with
    | nil => exact ⟨hh, hl⟩
    | cons x p => exact ⟨rfl, this⟩

end Rests

/-- Whatever the first reader takes, the second takes before all other rests that are allowed. -/
def Agree {α : Type} (R : Rests) (f g : Reader α) : Prop :=
  ∀ ⦃s : Symbols⦄ ⦃a : α⦄ ⦃r : Symbols⦄, f s = .ok (a, r) →
    ∃ p, s = p ++ r ∧ ∀ r', R.allow r r' → g (p ++ r') = .ok (a, r')

/-- What a reader gives is settled by what it takes. -/
abbrev Settled {α : Type} (R : Rests) (f : Reader α) : Prop := Agree R f f

/-- What succeeds, succeeds with its first part. -/
theorem bind_eq_ok {ε α β : Type} {x : Except ε α} {k : α → Except ε β} {b : β}
    (h : x >>= k = .ok b) : ∃ a, x = .ok a ∧ k a = .ok b := by
  cases x with
  | error e => cases h
  | ok a => exact ⟨a, rfl, h⟩

theorem map_eq_ok {ε α β : Type} {x : Except ε α} {k : α → β} {b : β} (h : x.map k = .ok b) :
    ∃ a, x = .ok a ∧ k a = b := by
  cases x with
  | error e => cases h
  | ok a => exact ⟨a, rfl, by simpa [Except.map] using h⟩

/-- A step that only takes symbols. -/
def unit (f : Symbols → Except JsonFault Symbols) : Reader Unit := fun s =>
  (f s).map fun r => ((), r)

theorem unit_eq_ok_iff {f : Symbols → Except JsonFault Symbols} {s r : Symbols} :
    unit f s = .ok ((), r) ↔ f s = .ok r := by
  unfold unit
  cases f s <;> simp [Except.map]

namespace Agree

variable {α β : Type} {R R' : Rests} {f g : Reader α}

theorem mono (h : Agree R f g) (hR : ∀ {r r'}, R'.allow r r' → R.allow r r') : Agree R' f g := by
  intro s a r hs
  obtain ⟨p, rfl, hp⟩ := h hs
  exact ⟨p, rfl, fun r' hr => hp r' (hR hr)⟩

theorem of_any (h : Agree .any f g) : Agree R f g := h.mono fun _ => trivial

theorem similar_of_stopping (h : Agree .stopping f g) : Agree .similar f g :=
  h.mono fun hr => .inl hr.1

theorem eq_ok (h : Agree .similar f g) {s r : Symbols} {a : α} (hs : f s = .ok (a, r)) :
    g s = .ok (a, r) := by
  obtain ⟨p, rfl, hp⟩ := h hs
  exact hp r ⟨rfl, Nat.le_refl _⟩

/-- A reader that gives nothing. -/
theorem refused (h : ∀ s x, f s ≠ .ok x) : Agree R f g := by
  intro s a r hs
  exact absurd hs (h s (a, r))

theorem pure (a : α) : Settled R (fun s => .ok (a, s)) := by
  intro s b r hs
  obtain ⟨rfl, rfl⟩ : a = b ∧ s = r := by simpa using hs
  exact ⟨[], rfl, fun _ _ => rfl⟩

theorem bind {k l : α × Symbols → Except JsonFault (β × Symbols)} (h : Agree R f g)
    (hk : ∀ a, Agree R (fun r => k (a, r)) fun r => l (a, r)) :
    Agree R (fun s => f s >>= k) fun s => g s >>= l := by
  intro s b r hs
  obtain ⟨⟨a, m⟩, hf, hm⟩ := bind_eq_ok hs
  obtain ⟨p, rfl, hp⟩ := h hf
  obtain ⟨q, rfl, hq⟩ := hk a hm
  refine ⟨p ++ q, by rw [List.append_assoc], fun r' hr => ?_⟩
  have hfirst := hp (q ++ r') (R.append q hr)
  simp [hfirst, hq r' hr, Bind.bind, Except.bind]

/-- A step that gives no value, and then a reader. -/
theorem unit_bind {f g : Symbols → Except JsonFault Symbols} {k l : Reader β}
    (h : Agree R (unit f) (unit g)) (hk : Agree R k l) :
    Agree R (fun s => f s >>= k) (fun s => g s >>= l) := by
  intro s b r hs
  obtain ⟨m, hf, hm⟩ := bind_eq_ok hs
  obtain ⟨p, rfl, hp⟩ := h (unit_eq_ok_iff.2 hf)
  obtain ⟨q, rfl, hq⟩ := hk hm
  refine ⟨p ++ q, by rw [List.append_assoc], fun r' hr => ?_⟩
  have := unit_eq_ok_iff.1 (hp (q ++ r') (R.append q hr))
  simp [this, hq r' hr, Bind.bind, Except.bind]

/-- What is made of a value without reading on. -/
theorem map {k : α × Symbols → β × Symbols} (h : Agree R f g) (m : α → β)
    (hk : ∀ a r, k (a, r) = (m a, r)) :
    Agree R (fun s => (f s).map k) fun s => (g s).map k := by
  intro s b r hs
  obtain ⟨⟨a, q⟩, hf, hm⟩ := map_eq_ok hs
  obtain ⟨rfl, rfl⟩ : m a = b ∧ q = r := by simpa [hk] using hm
  obtain ⟨p, rfl, hp⟩ := h hf
  exact ⟨p, rfl, fun r' hr => by simp [hp r' hr, hk, Except.map]⟩

theorem congr {f' g' : Reader α} (h : Agree R f' g') (hf : ∀ s, f s = f' s)
    (hg : ∀ s, g s = g' s) : Agree R f g := by
  obtain rfl : f = f' := funext hf
  obtain rfl : g = g' := funext hg
  exact h

/-- Readers that look at the first symbol. -/
theorem cons (h0 : ∀ x, f [] ≠ .ok x) (h : ∀ x, Agree R (fun r => f (x :: r)) fun r => g (x :: r)) :
    Agree R f g := by
  intro s a r hs
  cases s with
  | nil => exact absurd hs (h0 _)
  | cons x s =>
    obtain ⟨p, rfl, hp⟩ := h x hs
    exact ⟨x :: p, rfl, hp⟩

/-- Readers that look at the first symbol after all blanks. -/
theorem afterBlank (hf : ∀ s, f (skipBlank s) = f s) (hg : ∀ s, g (skipBlank s) = g s)
    (h0 : ∀ x, f [] ≠ .ok x)
    (h : ∀ x, ¬ Blank x → Agree R (fun r => f (x :: r)) fun r => g (x :: r)) :
    Agree R f g := by
  intro s a r hs
  obtain ⟨b, hs', hb, hx⟩ := exists_eq_append_skipBlank s
  rw [← hf s] at hs
  generalize skipBlank s = t at *
  cases t with
  | nil => exact absurd hs (h0 _)
  | cons x t =>
    have hb' : ¬ Blank x := hx x (by simp)
    obtain ⟨p, rfl, hp⟩ := h x hb' hs
    refine ⟨b ++ x :: p, by simp [hs'], fun r' hr => ?_⟩
    rw [← hg, List.append_assoc, skipBlank_append hb, List.cons_append, skipBlank_cons hb']
    exact hp r' hr

/-- A reader that gives nothing without a symbol takes one, so it can be read on after the first
symbol of what it takes. -/
theorem tail (h : Agree .stopping f g) (h0 : ∀ y, g [] ≠ .ok y) (x : Option Char) :
    Agree .stopping (fun r => f (x :: r)) fun r => g (x :: r) := by
  intro s a r hs
  obtain ⟨p, hp, hr⟩ := h hs
  cases p with
  | nil => exact absurd (hr [] (.inr ends_nil)) (h0 _)
  | cons y p =>
    obtain ⟨rfl, rfl⟩ : x = y ∧ s = p ++ r := by simpa using hp
    exact ⟨p, rfl, hr⟩

end Agree

variable {α : Type} {R : Rests}

/-! ## Words, digits and numbers -/

theorem settled_readWordEnd (a : α) (cs : List Char) :
    Settled R (readWordEnd a cs) := by
  induction cs with
  | nil => exact Agree.pure a
  | cons c cs ih =>
    apply Agree.cons
    · simp [readWordEnd]
    · intro x
      by_cases hx : x = some c
      · exact ih.congr (by simp [readWordEnd, hx]) (by simp [readWordEnd, hx])
      · exact .refused (by simp [readWordEnd, hx])

theorem eq_of_readWordEnd {a b : α} {cs : List Char} {s r : Symbols}
    (h : readWordEnd a cs s = .ok (b, r)) : b = a := by
  induction cs generalizing s with
  | nil => exact (congrArg Prod.fst (Except.ok.inj h)).symm
  | cons c cs ih =>
    cases s with
    | nil => cases h
    | cons x s =>
      rw [readWordEnd] at h
      split at h
      · exact ih h
      · cases h

theorem takeDigits_append {ds : List Char} (h : ∀ c ∈ ds, c.isDigit) {r : Symbols}
    (hr : ∀ c, some c ∈ r.head? → ¬ c.isDigit) : takeDigits (ds.map some ++ r) = (ds, r) := by
  induction ds with
  | nil =>
    rcases r with _ | ⟨_ | c, r⟩
    · rfl
    · rfl
    · have : c.isDigit = false := by simpa using hr c (by simp)
      simp [takeDigits, this]
  | cons c ds ih =>
    have hc : c.isDigit := h c List.mem_cons_self
    have := ih fun d hd => h d (List.mem_cons_of_mem c hd)
    simp [takeDigits, hc, this]

theorem takeDigits_spec (s : Symbols) :
    s = (takeDigits s).1.map some ++ (takeDigits s).2 ∧ (∀ c ∈ (takeDigits s).1, c.isDigit) ∧
      ∀ c, some c ∈ (takeDigits s).2.head? → ¬ c.isDigit := by
  induction s with
  | nil => simp [takeDigits]
  | cons x s ih =>
    cases x with
    | none => simp [takeDigits]
    | some c =>
      by_cases hc : c.isDigit
      · obtain ⟨hs, hd, hh⟩ := ih
        refine ⟨?_, ?_, ?_⟩
        · simpa [takeDigits, hc] using hs
        · simpa [takeDigits, hc] using hd
        · simpa [takeDigits, hc] using hh
      · simp [takeDigits, hc]

/-- The digits in front, before another rest that does not go on with them. -/
theorem exists_takeDigits {s r : Symbols} {ds : List Char} (h : takeDigits s = (ds, r)) :
    ∃ p, s = p ++ r ∧ ∀ r', Rests.stopping.allow r r' → takeDigits (p ++ r') = (ds, r') := by
  obtain ⟨hs, hd, hh⟩ := takeDigits_spec s
  rw [h] at hs hd hh
  refine ⟨ds.map some, hs, fun r' hr => takeDigits_append hd fun c hc => ?_⟩
  rcases hr with hr | hr
  · exact hh c (hr ▸ hc)
  · exact fun hdc => hr c hc (.inl hdc)

theorem readDigits_eq_ok_iff {s r : Symbols} {ds : List Char} :
    readDigits s = .ok (ds, r) ↔ takeDigits s = (ds, r) ∧ ds ≠ [] := by
  unfold readDigits
  split
  · simp +contextual [takeDigits]
  · split <;> simp_all
    grind

/-- A zero stands alone. -/
theorem readWhole_eq_ok_iff {s r : Symbols} {ds : List Char} :
    readWhole s = .ok (ds, r) ↔
      takeDigits s = (ds, r) ∧ ds ≠ [] ∧ ∀ c cs, ds ≠ '0' :: c :: cs := by
  unfold readWhole
  split
  · simp +contextual [takeDigits]
  · split <;> simp_all
    · grind
    · rintro rfl rfl
      exact ⟨‹_›, ‹_›⟩

theorem settled_readDigits : Settled .stopping readDigits := by
  intro s ds r h
  obtain ⟨ht, hne⟩ := readDigits_eq_ok_iff.1 h
  obtain ⟨p, hs, hp⟩ := exists_takeDigits ht
  exact ⟨p, hs, fun r' hr => readDigits_eq_ok_iff.2 ⟨hp r' hr, hne⟩⟩

theorem settled_readWhole : Settled .stopping readWhole := by
  intro s ds r h
  obtain ⟨ht, hne⟩ := readWhole_eq_ok_iff.1 h
  obtain ⟨p, hs, hp⟩ := exists_takeDigits ht
  exact ⟨p, hs, fun r' hr => readWhole_eq_ok_iff.2 ⟨hp r' hr, hne⟩⟩

/-- A reader of what need not be there: it looks whether the text begins with something to read, and
else takes nothing. -/
theorem Agree.optional {f : Reader α} {a : α} {m : Option Char → Prop}
    (h : ∀ x, m x → Settled .stopping fun r => f (x :: r))
    (hm : ∀ x, m x → ∃ c, x = some c ∧ Numeric c)
    (h0 : f [] = .ok (a, [])) (hf : ∀ x r, ¬ m x → f (x :: r) = .ok (a, x :: r)) :
    Settled .stopping f := by
  have stay : ∀ r, (∀ x ∈ r.head?, ¬ m x) → f r = .ok (a, r) := by
    intro r hr
    cases r with
    | nil => exact h0
    | cons x r => exact hf x r (hr x (by simp))
  intro s b r hs
  by_cases hx : ∃ x ∈ s.head?, m x
  · obtain ⟨x, hx, hmx⟩ := hx
    obtain ⟨q, rfl⟩ : ∃ q, s = x :: q := List.head?_eq_some_iff.1 hx
    obtain ⟨p, rfl, hp⟩ := h x hmx hs
    exact ⟨x :: p, rfl, hp⟩
  · have hx : ∀ x ∈ s.head?, ¬ m x := by simpa using hx
    obtain ⟨rfl, rfl⟩ : a = b ∧ s = r := by simpa [stay s hx] using hs
    refine ⟨[], rfl, fun r' hr => stay r' fun x hxr hmx => ?_⟩
    rcases hr with hr | hr
    · exact hx x (hr ▸ hxr) hmx
    · obtain ⟨c, rfl, hc⟩ := hm x hmx
      exact hr c hxr hc

theorem settled_readFraction : Settled .stopping readFraction := by
  apply Agree.optional (m := (· = some '.'))
  · rintro x rfl
    exact settled_readDigits
  · rintro x rfl
    exact ⟨'.', rfl, .inr (by simp)⟩
  · rfl
  · intro x r hx
    unfold readFraction
    grind

/-- Reads an exponent after its letter: digits, after a sign if there is one. -/
def readPower : Reader (Option Int) := fun s =>
  let (minus, r) : Bool × Symbols :=
    match s with
    | some '-' :: r => (true, r)
    | some '+' :: r => (false, r)
    | r => (false, r)
  (readDigits r).map fun x =>
    let n : Int := Nat.ofDigitChars 10 x.1 0
    (some (if minus then -n else n), x.2)

theorem settled_readPower : Settled .stopping readPower := by
  have digits : ∀ m : List Char → Option Int, Settled .stopping _ := fun m =>
    settled_readDigits.map (k := fun x => (m x.1, x.2)) m fun _ _ => rfl
  apply Agree.cons
  · simp [readPower, readDigits, Except.map]
  · intro x
    by_cases hm : x = some '-'
    · subst hm
      exact digits fun ds => some (-(Nat.ofDigitChars 10 ds 0 : Int))
    by_cases hp : x = some '+'
    · subst hp
      exact digits fun ds => some (Nat.ofDigitChars 10 ds 0 : Int)
    have he : ∀ r, readPower (x :: r) = (readDigits (x :: r)).map fun y =>
        (some (Nat.ofDigitChars 10 y.1 0 : Int), y.2) := by
      intro r
      unfold readPower
      grind
    have rest := (settled_readDigits.tail (by simp [readDigits]) x).map (k := fun y =>
      (some (Nat.ofDigitChars 10 y.1 0 : Int), y.2)) (some <| Nat.ofDigitChars 10 · 0)
      fun _ _ => rfl
    exact rest.congr he he

theorem readExponent_cons {c : Char} (r : Symbols) (hc : c = 'e' ∨ c = 'E') :
    readExponent (some c :: r) = readPower r := by
  simp only [readExponent, if_pos hc, readPower]
  split
  · rename_i hd
    erw [hd]
    rfl
  · rename_i hd
    erw [hd]
    rfl

theorem settled_readExponent : Settled .stopping readExponent := by
  apply Agree.optional (m := fun x => x = some 'e' ∨ x = some 'E')
  · rintro x hx
    obtain ⟨c, rfl, hc⟩ : ∃ c, x = some c ∧ (c = 'e' ∨ c = 'E') := by grind
    exact settled_readPower.congr (readExponent_cons · hc) (readExponent_cons · hc)
  · rintro x hx
    obtain ⟨c, rfl, hc⟩ : ∃ c, x = some c ∧ (c = 'e' ∨ c = 'E') := by grind
    exact ⟨c, rfl, .inr (by grind)⟩
  · rfl
  · intro x r hx
    cases x with
    | none => rfl
    | some c =>
      have : ¬ (c = 'e' ∨ c = 'E') := by simpa using hx
      simp [readExponent, this]

theorem settled_readUnsigned (minus : Bool) :
    Settled .stopping (readUnsigned minus) := by
  unfold readUnsigned
  refine settled_readWhole.bind fun whole => ?_
  refine settled_readFraction.bind fun fraction => ?_
  refine settled_readExponent.bind fun exponent => ?_
  cases hn : makeNumber minus whole fraction exponent with
  | none => exact .refused (by simp [hn])
  | some n => exact (Agree.pure n).congr (by simp [hn]) (by simp [hn])

theorem readNumber_nil : readNumber [] = .error .truncated := rfl

theorem settled_readNumber : Settled .stopping readNumber := by
  apply Agree.cons
  · simp [readNumber_nil]
  · intro x
    by_cases hx : x = some '-'
    · subst hx
      exact settled_readUnsigned true
    · have he : ∀ r, readNumber (x :: r) = readUnsigned false (x :: r) := by
        intro r
        unfold readNumber
        grind
      have hnil : ∀ y, readUnsigned false [] ≠ .ok y := by
        simp [readUnsigned, readWhole, bind, Except.bind]
      exact ((settled_readUnsigned false).tail hnil x).congr he he

/-- A number of any kind: what begins like one, is one, and can be used. -/
theorem readAsNumber_eq_ok_iff {f : Number → Option α} {s r : Symbols} {a : α} :
    readAsNumber f s = .ok (a, r) ↔ ∃ c q n, skipBlank s = some c :: q ∧ (c = '-' ∨ c.isDigit) ∧
      readNumber (some c :: q) = .ok (n, r) ∧ f n = some a := by
  constructor
  · intro h
    unfold readAsNumber at h
    split at h
    · cases h
    · rename_i c q hs
      split at h
      · rename_i hc
        split at h
        · cases h
        · rename_i n t hn
          split at h
          · rename_i b hb
            obtain ⟨rfl, rfl⟩ : b = a ∧ t = r := by simpa using h
            exact ⟨c, q, n, hs, hc, hn, hb⟩
          · cases h
      · cases h
    · cases h
  · rintro ⟨c, q, n, hs, hc, hn, hf⟩
    simp [readAsNumber, hs, hc, hn, hf]

/-! ## Strings -/

/-- What one symbol of a string leads to, whatever follows it. -/
inductive StringStep (strict : Bool) (f : Reader String) : Prop
  | goesOn (st : StringState) (acc : List Char) (broken : Bool)
      (h : ∀ r, f r = readStringFrom strict st acc broken r)
  | done (a : String) (h : ∀ r, f r = .ok (a, r))
  | fails (e : JsonFault) (h : ∀ r, f r = .error e)

theorem StringStep.ite {strict : Bool} {f g : Reader String} (c : Prop) [Decidable c]
    (hf : StringStep strict f) (hg : StringStep strict g) :
    StringStep strict fun r => if c then f r else g r := by
  by_cases h : c
  · simpa only [if_pos h] using hf
  · simpa only [if_neg h] using hg

theorem readStringFrom_step (strict : Bool) (st : StringState) (acc : List Char) (broken : Bool)
    (x : Option Char) : StringStep strict fun r => readStringFrom strict st acc broken (x :: r) := by
  have goesOn : ∀ st' acc' broken', StringStep strict (readStringFrom strict st' acc' broken') :=
    fun st' acc' broken' => .goesOn st' acc' broken' fun _ => rfl
  have fails : ∀ e, StringStep strict fun _ => .error e := fun e => .fails e fun _ => rfl
  simp only [readStringFrom]
  cases st with
  | plain =>
    cases x with
    | none => exact goesOn ..
    | some c =>
      have quote := StringStep.ite (strict && broken) (fails .malformed)
        (.done (String.ofList acc.reverse) fun _ => rfl)
      exact .ite _ quote (.ite _ (goesOn ..) (.ite _ (fails _) (goesOn ..)))
  | escape =>
    cases x with
    | none => exact fails _
    | some c =>
      refine .ite _ (goesOn ..) ?_
      cases simpleEscape? c with
      | none => exact fails _
      | some d => exact goesOn ..
  | unit missing value high =>
    refine .ite _ (goesOn ..) ?_
    cases value.bind fun v => (x.bind hexValue?).map (16 * v + ·) with
    | none => exact fails _
    | some u =>
      simp only
      rcases takeUnit strict u high with e | ⟨_ | c, st'⟩
      · exact fails _
      · exact goesOn ..
      · exact goesOn ..
  | partner high => exact .ite _ (goesOn ..) (fails _)
  | partnerEscape high => exact .ite _ (goesOn ..) (fails _)

theorem settled_readStringFrom (strict : Bool) (st : StringState) (acc : List Char) (broken : Bool) :
    Settled R (readStringFrom strict st acc broken) := by
  apply Agree.of_any
  intro s a r h
  induction s generalizing st acc broken with
  | nil => simp [readStringFrom] at h
  | cons x s ih =>
    cases readStringFrom_step strict st acc broken x with
    | goesOn st' acc' broken' he =>
      rw [he] at h
      obtain ⟨p, rfl, hp⟩ := ih _ _ _ h
      exact ⟨x :: p, rfl, fun r' hr => (he _).trans (hp r' hr)⟩
    | done b he =>
      obtain ⟨rfl, rfl⟩ : b = a ∧ s = r := by simpa [he] using h
      exact ⟨[x], rfl, fun r' _ => he r'⟩
    | fails e he => simp [he] at h

end PhaseSampling.Json
