import PhaseSampling.Proofs.Json.Rests

/-!
# What readers of values take

The readers of lists, objects, records and skipped values take the same symbols before all rests
that begin alike and are no shorter.

* `nextItem_eq_ok_iff`, `nextKey_eq_ok_iff`: how a list goes on with an item and an object with a
  field.
* `exists_of_readAllFrom`, `exists_of_readFields`, `readRecord_eq_ok_iff`: one more item, one more
  field, and both ways to write a record.
* `settled_skipValue`, `settled_readRecord`: skipped values and records.
* `Gives.all`, `Gives.record`: what holds of all that lists and records give.
-/

namespace PhaseSampling.Json

variable {α β : Type} {R : Rests}

/-! ## Items and keys -/

/-- What follows is an item, and no closing bracket. -/
def ItemNext (r : Symbols) : Prop := ∃ x t, r = x :: t ∧ x ≠ some ']'

theorem ItemNext.of_head? {r r' : Symbols} (h : ItemNext r) (hr : r'.head? = r.head?) :
    ItemNext r' := by
  obtain ⟨x, t, rfl, hx⟩ := h
  obtain ⟨t', rfl⟩ : ∃ t', r' = x :: t' := List.head?_eq_some_iff.1 hr
  exact ⟨x, t', rfl, hx⟩

/-- A list ends at its bracket, and goes on with its first item or with one after a comma. -/
theorem nextItem_eq_ok_iff {first more : Bool} {s r : Symbols} :
    nextItem first s = .ok (more, r) ↔
      (more = false ∧ skipBlank s = r ∧ r.head? = some (some ']')) ∨
      (more = true ∧ first = true ∧ skipBlank s = r ∧ ItemNext r) ∨
      (more = true ∧ first = false ∧ ItemNext r ∧
        ∃ t, skipBlank s = some ',' :: t ∧ skipBlank t = r) := by
  unfold nextItem ItemNext
  rcases hs : skipBlank s with _ | ⟨x, t⟩
  · grind
  by_cases hclose : x = some ']'
  · subst hclose
    grind
  by_cases hcomma : x = some ','
  · subst hcomma
    cases first with
    | true => grind
    | false => rcases ht : skipBlank t with _ | ⟨y, u⟩ <;> grind
  · grind

/-- An object ends at its brace, and goes on with a key in quotes, which stands after a comma
unless it is the first. -/
theorem nextKey_eq_ok_iff {first : Bool} {k : Option String} {s r : Symbols} :
    nextKey first s = .ok (k, r) ↔
      (k = none ∧ skipBlank s = r ∧ r.head? = some (some '\x7d')) ∨
      (∃ name t, k = some name ∧ readString t = .ok (name, r) ∧
        if first then skipBlank s = some '"' :: t
        else ∃ u, skipBlank s = some ',' :: u ∧ skipBlank u = some '"' :: t) := by
  have key : ∀ t, nextKey.key t = .ok (k, r) ↔
      ∃ name, k = some name ∧ readString t = .ok (name, r) := by
    intro t
    unfold nextKey.key
    split <;> grind
  unfold nextKey
  rcases hs : skipBlank s with _ | ⟨x, t⟩
  · grind
  by_cases hclose : x = some '\x7d'
  · subst hclose
    grind
  by_cases hquote : x = some '"'
  · subst hquote
    grind
  by_cases hcomma : x = some ','
  · subst hcomma
    cases first with
    | true => grind
    | false => rcases ht : skipBlank t with _ | ⟨y, u⟩ <;> grind
  · grind

/-- One symbol that has to follow. -/
theorem settled_symbol {f : Symbols → Except JsonFault Symbols} {x : Option Char}
    (h : ∀ s r, f s = .ok r ↔ skipBlank s = x :: r) : Settled R (unit f) := by
  intro s u r hs
  obtain ⟨b, rfl, hb⟩ := exists_skipBlank ((h s r).1 (unit_eq_ok_iff.1 hs))
  refine ⟨b ++ [x], by simp, fun r' _ => unit_eq_ok_iff.2 ((h _ _).2 ?_)⟩
  rw [List.append_assoc]
  exact hb _ rfl

theorem skipColon_eq_ok_iff (s r : Symbols) : skipColon s = .ok r ↔ skipBlank s = some ':' :: r := by
  unfold skipColon
  split <;> simp_all

theorem endItems_eq_ok_iff (s r : Symbols) : endItems s = .ok r ↔ skipBlank s = some ']' :: r := by
  unfold endItems
  split <;> simp_all

theorem endFields_eq_ok_iff (s r : Symbols) :
    endFields s = .ok r ↔ skipBlank s = some '\x7d' :: r := by
  unfold endFields
  split <;> simp_all

theorem settled_skipColon : Settled R (unit skipColon) :=
  settled_symbol skipColon_eq_ok_iff

theorem settled_endItems : Settled R (unit endItems) :=
  settled_symbol endItems_eq_ok_iff

theorem settled_endFields : Settled R (unit endFields) :=
  settled_symbol endFields_eq_ok_iff

theorem settled_nextItem (first : Bool) : Settled .similar (nextItem first) := by
  intro s more r h
  rcases nextItem_eq_ok_iff.1 h with ⟨rfl, hs, hr⟩ | ⟨rfl, rfl, hs, hr⟩ | ⟨rfl, rfl, hr, t, hs, ht⟩
  · obtain ⟨b, rfl, hb⟩ := exists_skipBlank hs
    refine ⟨b, rfl, fun r' hr' => nextItem_eq_ok_iff.2 (.inl ⟨rfl, hb r' hr'.1, ?_⟩)⟩
    exact hr'.1.trans hr
  · obtain ⟨b, rfl, hb⟩ := exists_skipBlank hs
    refine ⟨b, rfl, fun r' hr' => nextItem_eq_ok_iff.2 (.inr (.inl ⟨rfl, rfl, hb r' hr'.1, ?_⟩))⟩
    exact hr.of_head? hr'.1
  · obtain ⟨b, rfl, hb⟩ := exists_skipBlank hs
    obtain ⟨e, rfl, he⟩ := exists_skipBlank ht
    refine ⟨b ++ some ',' :: e, by simp, fun r' hr' => nextItem_eq_ok_iff.2 (.inr (.inr ?_))⟩
    refine ⟨rfl, rfl, hr.of_head? hr'.1, e ++ r', ?_, he r' hr'.1⟩
    rw [List.append_assoc]
    exact hb _ rfl

theorem settled_nextKey (first : Bool) : Settled .similar (nextKey first) := by
  intro s k r h
  rcases nextKey_eq_ok_iff.1 h with ⟨rfl, hs, hr⟩ | ⟨name, t, rfl, ht, hs⟩
  · obtain ⟨b, rfl, hb⟩ := exists_skipBlank hs
    refine ⟨b, rfl, fun r' hr' => nextKey_eq_ok_iff.2 (.inl ⟨rfl, hb r' hr'.1, ?_⟩)⟩
    exact hr'.1.trans hr
  · obtain ⟨p, rfl, hp⟩ := settled_readStringFrom (R := .similar) _ _ _ _ ht
    cases first with
    | true =>
      obtain ⟨b, rfl, hb⟩ := exists_skipBlank (by simpa using hs)
      refine ⟨b ++ some '"' :: p, by simp, fun r' hr' => nextKey_eq_ok_iff.2 (.inr ?_)⟩
      refine ⟨name, p ++ r', rfl, hp r' hr', ?_⟩
      rw [if_pos rfl, List.append_assoc]
      exact hb _ rfl
    | false =>
      obtain ⟨u, hs, hu⟩ : ∃ u, skipBlank s = some ',' :: u ∧ skipBlank u = some '"' :: (p ++ r) := by
        simpa using hs
      obtain ⟨b, rfl, hb⟩ := exists_skipBlank hs
      obtain ⟨e, rfl, he⟩ := exists_skipBlank hu
      refine ⟨b ++ some ',' :: (e ++ some '"' :: p), by simp, fun r' hr' =>
        nextKey_eq_ok_iff.2 (.inr ⟨name, p ++ r', rfl, hp r' hr', ?_⟩)⟩
      rw [if_neg (by decide), List.append_assoc]
      exact ⟨e ++ some '"' :: p ++ r', hb _ rfl, by rw [List.append_assoc]; exact he _ rfl⟩

/-! ## Numbers and texts -/

theorem settled_readAsNumber (f : Number → Option α) :
    Settled .stopping (readAsNumber f) := by
  intro s a r h
  obtain ⟨c, q, n, hs, hc, hn, hf⟩ := readAsNumber_eq_ok_iff.1 h
  obtain ⟨b, rfl, hb⟩ := exists_skipBlank hs
  obtain ⟨p, rfl, hp⟩ := settled_readNumber.tail (by simp [readNumber_nil]) (some c) hn
  refine ⟨b ++ some c :: p, by simp, fun r' hr => readAsNumber_eq_ok_iff.2 ?_⟩
  refine ⟨c, p ++ r', n, ?_, hc, hp r' hr, hf⟩
  rw [List.append_assoc]
  exact hb _ rfl

/-- Readers of what follows one symbol. -/
theorem Agree.after {f g : Reader α} {x : Option Char}
    (hg : ∀ s y, g s = .ok y ↔ ∃ q, skipBlank s = x :: q ∧ f q = .ok y) (h : Settled R f) :
    Settled R g := by
  intro s a r hs
  obtain ⟨q, hq, hf⟩ := (hg _ _).1 hs
  obtain ⟨b, rfl, hb⟩ := exists_skipBlank hq
  obtain ⟨p, rfl, hp⟩ := h hf
  refine ⟨b ++ x :: p, by simp, fun r' hr => (hg _ _).2 ⟨p ++ r', ?_, hp r' hr⟩⟩
  rw [List.append_assoc]
  exact hb _ rfl

theorem readText_eq_ok_iff (s : Symbols) (y : String × Symbols) :
    readText s = .ok y ↔ ∃ q, skipBlank s = some '"' :: q ∧ readString q = .ok y := by
  unfold readText
  split <;> grind

theorem settled_readOption {f : Number → Option α} :
    Settled .stopping (readOption (readAsNumber f)) := by
  apply Agree.afterBlank
  · intro s
    simp only [readOption, skipBlank_skipBlank]
  · intro s
    simp only [readOption, skipBlank_skipBlank]
  · simp [readOption, skipBlank, readAsNumber, Except.map]
  · intro x hx
    by_cases hn : x = some 'n'
    · subst hn
      exact settled_readWordEnd none "ull".toList
    · have he : ∀ r, readOption (readAsNumber f) (x :: r) =
          (readAsNumber f (x :: r)).map fun y => (some y.1, y.2) := by
        intro r
        simp only [readOption, skipBlank_cons hx]
        grind
      have value := (settled_readAsNumber f).tail (by simp [readAsNumber, skipBlank]) x
      exact (value.map some fun _ _ => rfl).congr he he

/-! ## Skipped values -/

theorem map_bind {ε α β γ : Type} (x : Except ε α) (k : α → Except ε β) (f : β → γ) :
    (x >>= k).map f = x >>= fun a => (k a).map f := by
  cases x <;> rfl

/-- Skips a number after its sign. -/
def skipUnsigned (s : Symbols) : Except JsonFault Symbols := do
  let (_, r) ← readWhole s
  let (_, r) ← readFraction r
  let (_, r) ← readExponent r
  return r

theorem settled_skipUnsigned : Settled .stopping (unit skipUnsigned) := by
  unfold unit skipUnsigned
  simp only [map_bind]
  refine settled_readWhole.bind fun _ => ?_
  refine settled_readFraction.bind fun _ => ?_
  exact settled_readExponent.bind fun _ => .pure ()

/-- What follows the sign of a number, if it has one. -/
def dropMinus : Symbols → Symbols
  | some '-' :: r => r
  | r => r

/-- Which fault there is in a skipped number makes no difference. -/
theorem skipNumber_eq_ok_iff {s r : Symbols} :
    skipNumber s = .ok r ↔ skipUnsigned (dropMinus s) = .ok r := by
  unfold skipNumber
  simp only
  split
  · rename_i q hq
    have hparts : skipUnsigned (dropMinus s) = .ok q := hq
    rw [hparts]
  · rename_i e he
    have hparts : skipUnsigned (dropMinus s) = .error e := he
    simp [hparts]

theorem settled_skipNumber (x : Option Char) :
    Settled .stopping (unit fun r => skipNumber (x :: r)) := by
  have hnil : ∀ y, unit skipUnsigned [] ≠ .ok y := by
    simp [unit, skipUnsigned, readWhole, bind, Except.bind, Except.map]
  intro s u r h
  have hs := skipNumber_eq_ok_iff.1 (unit_eq_ok_iff.1 h)
  by_cases hx : x = some '-'
  · subst hx
    obtain ⟨p, rfl, hp⟩ := settled_skipUnsigned (unit_eq_ok_iff.2 hs)
    exact ⟨p, rfl, fun r' hr => unit_eq_ok_iff.2 (skipNumber_eq_ok_iff.2
      (unit_eq_ok_iff.1 (hp r' hr)))⟩
  · have hd : ∀ t, dropMinus (x :: t) = x :: t := by
      intro t
      unfold dropMinus
      split
      · rename_i heq
        exact absurd (List.cons.inj heq).1 hx
      · rfl
    rw [hd] at hs
    obtain ⟨p, rfl, hp⟩ := settled_skipUnsigned.tail hnil x (unit_eq_ok_iff.2 hs)
    refine ⟨p, rfl, fun r' hr => unit_eq_ok_iff.2 (skipNumber_eq_ok_iff.2 ?_)⟩
    rw [hd]
    exact unit_eq_ok_iff.1 (hp r' hr)

/-- A key in quotes and its colon. -/
theorem settled_skipKey : Settled R (unit skipKey) := by
  have key : Settled R (fun s => skipString s >>= fun y => unit skipColon y.2) :=
    (settled_readStringFrom false .plain [] false).bind fun _ => settled_skipColon
  refine Agree.after (x := some '"') (fun s y => ?_) key
  unfold unit skipKey
  split
  · simp_all [Except.map]
  · rename_i q hq
    simp only [map_bind]
    rw [hq]
    simp
  · rename_i hne
    constructor
    · intro h
      cases h
    · rintro ⟨q, hq, -⟩
      exact absurd hq (hne q)

/-- Readers of the rest of a list or object that was opened: it is closed at once, or goes on. -/
theorem agree_opened {f g f' g' : Symbols → Except JsonFault Symbols} {c : Char}
    (h : Agree .stopping (unit f) (unit g))
    (h' : Agree .stopping (unit f') (unit g')) (h0 : ∀ r, g' [] ≠ .ok r) :
    Agree .stopping
      (unit fun r => match skipBlank r with
        | [] => .error .truncated
        | x :: r => if x = some c then f r else f' (x :: r))
      (unit fun r => match skipBlank r with
        | [] => .error .truncated
        | x :: r => if x = some c then g r else g' (x :: r)) := by
  apply Agree.afterBlank
  · intro s
    simp only [unit, skipBlank_skipBlank]
  · intro s
    simp only [unit, skipBlank_skipBlank]
  · simp [unit, skipBlank, Except.map]
  · intro x hx
    by_cases hc : x = some c
    · exact h.congr (fun r => by simp [unit, skipBlank_cons hx, if_pos hc])
        (fun r => by simp [unit, skipBlank_cons hx, if_pos hc])
    · have hnil : ∀ y, unit g' [] ≠ .ok y := fun y hy => h0 y.2 (unit_eq_ok_iff.1 hy)
      exact (h'.tail hnil x).congr (fun r => by simp [unit, skipBlank_cons hx, if_neg hc])
        (fun r => by simp [unit, skipBlank_cons hx, if_neg hc])

theorem agree_skipAfter_nil (n m : Nat) : Agree R (unit (skipAfter n [])) (unit (skipAfter m [])) := by
  have hnil : ∀ n s, unit (skipAfter n []) s = .ok ((), s) := by
    intro n s
    cases n <;> rfl
  exact (Agree.pure ()).congr (hnil n) (hnil m)

theorem agree_skipFrom_step {n m : Nat}
    (hf : ∀ closers, Agree .stopping (unit (skipFrom n closers)) (unit (skipFrom m closers)))
    (ha : ∀ closers, Agree .stopping (unit (skipAfter n closers)) (unit (skipAfter m closers)))
    (h0 : ∀ closers r, skipFrom m closers [] ≠ .ok r) (closers : List Char) :
    Agree .stopping (unit (skipFrom (n + 1) closers)) (unit (skipFrom (m + 1) closers)) := by
  have word : ∀ cs, Agree .stopping
      (unit fun r => do skipAfter n closers (← readWordEnd () cs r).2)
      (unit fun r => do skipAfter m closers (← readWordEnd () cs r).2) := by
    intro cs
    unfold unit
    simp only [map_bind]
    exact (settled_readWordEnd () cs).bind fun _ => ha closers
  apply Agree.afterBlank
  · intro s
    simp only [unit, skipFrom, skipBlank_skipBlank]
  · intro s
    simp only [unit, skipFrom, skipBlank_skipBlank]
  · simp [unit, skipFrom, skipBlank, Except.map]
  · intro x hx
    by_cases hn : x = some 'n'
    · subst hn
      exact word "ull".toList
    by_cases ht : x = some 't'
    · subst ht
      exact word "rue".toList
    by_cases hfalse : x = some 'f'
    · subst hfalse
      exact word "alse".toList
    by_cases hq : x = some '"'
    · subst hq
      have text : Agree .stopping (unit fun r => do skipAfter n closers (← skipString r).2)
          (unit fun r => do skipAfter m closers (← skipString r).2) := by
        unfold unit
        simp only [map_bind]
        exact (settled_readStringFrom false .plain [] false).bind fun _ => ha closers
      exact text
    by_cases hlist : x = some '['
    · subst hlist
      have he : ∀ k r, unit (skipFrom (k + 1) closers) (some '[' :: r) = unit (fun r =>
          match skipBlank r with
          | [] => .error .truncated
          | x :: r =>
            if x = some ']' then skipAfter k closers r
            else skipFrom k (']' :: closers) (x :: r)) r := by
        intro k r
        simp only [unit, skipFrom, skipBlank_cons hx]
        rcases skipBlank r with _ | ⟨y, q⟩
        · rfl
        · by_cases hy : y = some ']'
          · subst hy
            rfl
          · simp only [if_neg hy]
            split <;> simp_all
      exact (agree_opened (c := ']') (ha closers) (hf (']' :: closers)) (h0 _)).congr (he n) (he m)
    by_cases hobject : x = some '\x7b'
    · subst hobject
      have he : ∀ k r, unit (skipFrom (k + 1) closers) (some '\x7b' :: r) = unit (fun r =>
          match skipBlank r with
          | [] => .error .truncated
          | x :: r =>
            if x = some '\x7d' then skipAfter k closers r
            else (do skipFrom k ('\x7d' :: closers) (← skipKey (x :: r)))) r := by
        intro k r
        simp only [unit, skipFrom, skipBlank_cons hx]
        rcases skipBlank r with _ | ⟨y, q⟩
        · rfl
        · by_cases hy : y = some '\x7d'
          · subst hy
            rfl
          · simp only [if_neg hy]
            split <;> simp_all
      have fields : Agree .stopping
          (unit fun r => do skipFrom n ('\x7d' :: closers) (← skipKey r))
          (unit fun r => do skipFrom m ('\x7d' :: closers) (← skipKey r)) := by
        unfold unit
        simp only [map_bind]
        exact settled_skipKey.unit_bind (hf ('\x7d' :: closers))
      have hnil : ∀ r, (do skipFrom m ('\x7d' :: closers) (← skipKey [])) ≠ .ok r := by
        simp [skipKey, skipBlank, bind, Except.bind]
      exact (agree_opened (c := '\x7d') (ha closers) fields hnil).congr (he n) (he m)
    by_cases hnum : ∃ c, x = some c ∧ (c = '-' ∨ c.isDigit)
    · obtain ⟨c, rfl, hc⟩ := hnum
      have he : ∀ k r, unit (skipFrom (k + 1) closers) (some c :: r) =
          skipNumber (some c :: r) >>= unit (skipAfter k closers) := by
        intro k r
        simp only [unit, skipFrom, skipBlank_cons hx]
        split
        case h_8 d q _ _ _ _ _ _ heq =>
          obtain ⟨rfl, rfl⟩ : c = d ∧ r = q := by simpa using heq
          rw [if_pos hc, map_bind]
          rfl
        all_goals simp_all
      exact ((settled_skipNumber (some c)).unit_bind (ha closers)).congr (he n) (he m)
    · refine .refused fun r y => ?_
      simp only [unit, skipFrom, skipBlank_cons hx]
      grind [Except.map]

theorem agree_skipAfter_step {n m : Nat}
    (hf : ∀ closers, Agree .stopping (unit (skipFrom n closers)) (unit (skipFrom m closers)))
    (ha : ∀ closers, Agree .stopping (unit (skipAfter n closers)) (unit (skipAfter m closers)))
    (closers : List Char) :
    Agree .stopping (unit (skipAfter (n + 1) closers)) (unit (skipAfter (m + 1) closers)) := by
  cases closers with
  | nil => exact agree_skipAfter_nil _ _
  | cons closer closers =>
    apply Agree.afterBlank
    · intro s
      simp only [unit, skipAfter, skipBlank_skipBlank]
    · intro s
      simp only [unit, skipAfter, skipBlank_skipBlank]
    · simp [unit, skipAfter, skipBlank, Except.map]
    · intro x hx
      by_cases hcomma : x = some ','
      · subst hcomma
        by_cases hlist : closer = ']'
        · exact (hf (closer :: closers)).congr
            (fun r => by simp [unit, skipAfter, skipBlank_cons hx, hlist])
            (fun r => by simp [unit, skipAfter, skipBlank_cons hx, hlist])
        · exact (settled_skipKey.unit_bind (hf (closer :: closers))).congr
            (fun r => by simp [unit, skipAfter, skipBlank_cons hx, hlist, map_bind]; rfl)
            (fun r => by simp [unit, skipAfter, skipBlank_cons hx, hlist, map_bind]; rfl)
      · by_cases hclose : x = some closer
        · subst hclose
          exact (ha closers).congr (fun r => by simp [unit, skipAfter, skipBlank_cons hx])
            (fun r => by simp [unit, skipAfter, skipBlank_cons hx])
        · refine .refused fun r y => ?_
          simp only [unit, skipAfter, skipBlank_cons hx]
          grind [Except.map]

/-- Skipping goes the same way with more fuel, and before another rest. -/
theorem agree_skip (n : Nat) :
    (∀ m, n ≤ m → ∀ closers, Agree .stopping (unit (skipFrom n closers))
      (unit (skipFrom m closers))) ∧
    (∀ m, n ≤ m → ∀ closers, Agree .stopping (unit (skipAfter n closers))
      (unit (skipAfter m closers))) := by
  induction n with
  | zero =>
    refine ⟨fun m _ closers => .refused (by simp [unit, skipFrom, Except.map]), fun m _ closers => ?_⟩
    cases closers with
    | nil => exact agree_skipAfter_nil _ _
    | cons c closers => exact .refused (by simp [unit, skipAfter, Except.map])
  | succ n ih =>
    refine ⟨fun m hm closers => ?_, fun m hm closers => ?_⟩
    · obtain ⟨m, rfl⟩ : ∃ k, m = k + 1 := ⟨m - 1, by omega⟩
      have hnil : ∀ closers r, skipFrom m closers [] ≠ .ok r := by
        intro closers r
        cases m <;> simp [skipFrom, skipBlank]
      exact agree_skipFrom_step (ih.1 m (by omega)) (ih.2 m (by omega)) hnil closers
    · obtain ⟨m, rfl⟩ : ∃ k, m = k + 1 := ⟨m - 1, by omega⟩
      exact agree_skipAfter_step (ih.1 m (by omega)) (ih.2 m (by omega)) closers

/-- A reader whose fuel comes from the length of the text. -/
theorem Agree.fueled {f : Nat → Reader α} (h : ∀ n m, n ≤ m → Agree .similar (f n) (f m))
    {k : Nat → Nat} (hk : ∀ n m, n ≤ m → k n ≤ k m) :
    Settled .similar (fun s => f (k s.length) s) := by
  intro s a r hs
  obtain ⟨p, rfl, -⟩ := h _ _ (Nat.le_refl _) hs
  refine ⟨p, rfl, fun r' hr => ?_⟩
  have hlen : (p ++ r).length ≤ (p ++ r').length := by simpa using hr.2
  obtain ⟨q, hq, hread⟩ := h _ _ (hk _ _ hlen) hs
  obtain rfl : p = q := List.append_cancel_right hq
  exact hread r' hr

theorem settled_skipValue : Settled .similar (unit skipValue) :=
  Agree.fueled (f := fun n => unit (skipFrom n []))
    (fun n m hnm => ((agree_skip n).1 m hnm []).similar_of_stopping) (k := (2 * · + 2))
    fun _ _ h => by omega

/-! ## Lists and records -/

/-- A value, and then a step that only takes symbols. -/
theorem Agree.return_unit {f : Symbols → Except JsonFault Symbols} (h : Settled R (unit f))
    (a : α) : Settled R fun r => do return (a, ← f r) := by
  have hf : ∀ r, (do return (a, ← f r)) = (unit f r).map fun y => (a, y.2) := by
    intro r
    unfold unit
    cases f r <;> rfl
  exact (h.map (fun _ => a) fun _ _ => rfl).congr hf hf

theorem settled_readItem {read : Reader α} (h : Settled .similar read) (first : Bool) :
    Settled .similar (readItem first read) := by
  unfold readItem
  refine (settled_nextItem first).bind fun more => ?_
  cases more with
  | true => exact h
  | false => exact .refused (by simp)

theorem settled_readItem? {read : Reader (Option α)} (h : Settled .similar read) :
    Settled .similar (readItem? read) := by
  unfold readItem?
  refine (settled_nextItem false).bind fun more => ?_
  cases more with
  | true => exact h
  | false => exact .pure none

theorem settled_readFresh {old : Option α} {read : Reader α} {put : α → β}
    (h : Settled .similar read) : Settled .similar (readFresh old read put) := by
  cases old with
  | some a => exact .refused (by simp [readFresh])
  | none => exact (settled_skipColon.unit_bind h).map put fun _ _ => rfl

theorem settled_skipField (b : β) : Settled .similar (skipField b) := by
  have value : Settled .similar fun r => do return (b, ← skipValue r) :=
    settled_skipValue.return_unit b
  exact settled_skipColon.unit_bind value

/-- A list ends, or goes on with an item. -/
theorem exists_of_readAllFrom {read : Reader α} {n : Nat} {first : Bool} {s r : Symbols}
    {as : List α} (h : readAllFrom read n first s = .ok (as, r)) : ∃ m, n = m + 1 ∧
      ((∃ q, nextItem first s = .ok (false, q) ∧ endItems q = .ok r ∧ as = []) ∨
      ∃ a bs q t, nextItem first s = .ok (true, q) ∧ read q = .ok (a, t) ∧
        readAllFrom read m false t = .ok (bs, r) ∧ as = a :: bs) := by
  cases n with
  | zero => cases h
  | succ m =>
    refine ⟨m, rfl, ?_⟩
    rw [readAllFrom] at h
    obtain ⟨⟨more, q⟩, hnext, h⟩ := bind_eq_ok h
    cases more with
    | false =>
      obtain ⟨t, hend, h⟩ := bind_eq_ok h
      obtain ⟨rfl, rfl⟩ : [] = as ∧ t = r := by simpa [pure, Except.pure] using h
      exact .inl ⟨q, hnext, hend, rfl⟩
    | true =>
      obtain ⟨⟨a, t⟩, ha, h⟩ := bind_eq_ok h
      obtain ⟨⟨bs, u⟩, hbs, h⟩ := bind_eq_ok h
      obtain ⟨rfl, rfl⟩ : a :: bs = as ∧ u = r := by simpa [pure, Except.pure] using h
      exact .inr ⟨a, bs, q, t, hnext, ha, hbs, rfl⟩

/-- An object ends, or goes on with a field. -/
theorem exists_of_readFields {step : String → β → Reader β} {n : Nat} {first : Bool} {d e : β}
    {s r : Symbols} (h : readFields step n first d s = .ok (e, r)) : ∃ m, n = m + 1 ∧
      ((nextKey first s = .ok (none, r) ∧ e = d) ∨
      ∃ k d' q t, nextKey first s = .ok (some k, q) ∧ step k d q = .ok (d', t) ∧
        readFields step m false d' t = .ok (e, r)) := by
  cases n with
  | zero => cases h
  | succ m =>
    refine ⟨m, rfl, ?_⟩
    rw [readFields] at h
    obtain ⟨⟨k, q⟩, hkey, h⟩ := bind_eq_ok h
    cases k with
    | none =>
      obtain ⟨rfl, rfl⟩ : d = e ∧ q = r := by simpa [pure, Except.pure] using h
      exact .inl ⟨hkey, rfl⟩
    | some k =>
      obtain ⟨⟨d', t⟩, hstep, h⟩ := bind_eq_ok h
      exact .inr ⟨k, d', q, t, hkey, hstep, h⟩

/-- A record is the list of its fields, or an object whose draft is whole. -/
theorem readRecord_eq_ok_iff {draft : β} {step : String → β → Reader β} {finish : β → Option α}
    {items : Reader α} {s r : Symbols} {a : α} :
    readRecord draft step finish items s = .ok (a, r) ↔
      (∃ q t, skipBlank s = some '[' :: q ∧ items q = .ok (a, t) ∧ endItems t = .ok r) ∨
      ∃ q d t, skipBlank s = some '\x7b' :: q ∧
        readFields step (q.length + 1) true draft q = .ok (d, t) ∧ finish d = some a ∧
        endFields t = .ok r := by
  unfold readRecord
  constructor
  · intro h
    split at h
    · cases h
    · rename_i q hq
      obtain ⟨⟨b, t⟩, hb, h⟩ := bind_eq_ok h
      obtain ⟨u, hend, h⟩ := bind_eq_ok h
      obtain ⟨rfl, rfl⟩ : b = a ∧ u = r := by simpa [pure, Except.pure] using h
      exact .inl ⟨q, t, hq, hb, hend⟩
    · rename_i q hq
      obtain ⟨⟨d, t⟩, hd, h⟩ := bind_eq_ok h
      simp only at h
      split at h
      · rename_i b hb
        obtain ⟨u, hend, h⟩ := bind_eq_ok h
        obtain ⟨rfl, rfl⟩ : b = a ∧ u = r := by simpa [pure, Except.pure] using h
        exact .inr ⟨q, d, t, hq, hd, hb, hend⟩
      · cases h
    · cases h
  · rintro (⟨q, t, hq, ha, hend⟩ | ⟨q, d, t, hq, hd, ha, hend⟩)
    · simp [hq, ha, hend, bind, Except.bind, pure, Except.pure]
    · simp [hq, hd, ha, hend, bind, Except.bind, pure, Except.pure]

theorem agree_readAllFrom {read : Reader α} (h : Settled .similar read) (n : Nat) :
    ∀ m, n ≤ m → ∀ first, Agree .similar (readAllFrom read n first) (readAllFrom read m first) := by
  induction n with
  | zero => exact fun m _ first => .refused (by simp [readAllFrom])
  | succ n ih =>
    intro m hm first
    obtain ⟨m, rfl⟩ : ∃ k, m = k + 1 := ⟨m - 1, by omega⟩
    have items : Agree .similar (fun s => readAllFrom read (n + 1) first s)
        (fun s => readAllFrom read (m + 1) first s) := by
      simp only [readAllFrom]
      refine (settled_nextItem first).bind fun more => ?_
      cases more with
      | false => exact settled_endItems.return_unit []
      | true =>
        have more : ∀ a, Agree .similar
            (fun r => readAllFrom read n false r >>= fun y => .ok (a :: y.1, y.2))
            (fun r => readAllFrom read m false r >>= fun y => .ok (a :: y.1, y.2)) :=
          fun a => (ih m (by omega) false).bind fun as => .pure (a :: as)
        exact h.bind more
    exact items

theorem agree_readFields {step : String → β → Reader β}
    (h : ∀ k d, Settled .similar (step k d)) (n : Nat) :
    ∀ m, n ≤ m → ∀ first d, Agree .similar (readFields step n first d) (readFields step m first d) := by
  induction n with
  | zero => exact fun m _ first d => .refused (by simp [readFields])
  | succ n ih =>
    intro m hm first d
    obtain ⟨m, rfl⟩ : ∃ k, m = k + 1 := ⟨m - 1, by omega⟩
    have fields : Agree .similar (fun s => readFields step (n + 1) first d s)
        (fun s => readFields step (m + 1) first d s) := by
      simp only [readFields]
      refine (settled_nextKey first).bind fun k => ?_
      cases k with
      | none => exact .pure d
      | some k => exact (h k d).bind fun e => ih m (by omega) false e
    exact fields

theorem settled_readRecord {draft : β} {step : String → β → Reader β} {finish : β → Option α}
    {items : Reader α} (hstep : ∀ k d, Settled .similar (step k d))
    (hitems : Settled .similar items) :
    Settled .similar (readRecord draft step finish items) := by
  apply Agree.afterBlank
  · intro s
    simp only [readRecord, skipBlank_skipBlank]
  · intro s
    simp only [readRecord, skipBlank_skipBlank]
  · simp [readRecord, skipBlank]
  · intro x hx
    by_cases hlist : x = some '['
    · subst hlist
      exact hitems.bind fun a => settled_endItems.return_unit a
    by_cases hobject : x = some '\x7b'
    · subst hobject
      have fields := Agree.fueled (fun n m hnm => agree_readFields hstep n m hnm true draft)
        (k := (· + 1)) fun _ _ h => by omega
      refine fields.bind fun b => ?_
      cases hb : finish b with
      | none => exact .refused (by simp [hb])
      | some a =>
        have closed := settled_endFields (R := .similar).return_unit a
        exact closed.congr (by simp [hb]) (by simp [hb])
    · refine .refused fun r y => ?_
      simp only [readRecord, skipBlank_cons hx]
      grind

/-! ## What readers give -/

/-- All that a reader gives has a property. -/
def Gives (read : Reader α) (P : α → Prop) : Prop :=
  ∀ ⦃s : Symbols⦄ ⦃a : α⦄ ⦃r : Symbols⦄, read s = .ok (a, r) → P a

theorem gives_true (read : Reader α) : Gives read fun _ => True := fun _ _ _ _ => trivial

/-- A number that can be held: its whole part is a word, or it is finite. -/
def Number.Held : Number → Prop
  | .word n => n < Text.wordLimit
  | .negative _ => True
  | .float x => x.isFinite

/-- Bits below the exponent of infinity, and a sign. -/
theorem isFinite_of_lt {n : Nat} (negative : Bool) (hn : n < 2047 * Binary64.leadingOne) :
    (⟨(n + if negative then 1 <<< 63 else 0).toUInt64⟩ : Binary64).isFinite := by
  have hlead : Binary64.leadingOne = 2 ^ 52 := rfl
  obtain ⟨s, hs, hs2⟩ : ∃ s, (if negative then 1 <<< 63 else 0) = s * 2 ^ 63 ∧ s < 2 := by
    cases negative with
    | false => exact ⟨0, rfl, by decide⟩
    | true => exact ⟨1, rfl, by decide⟩
  have hbits : (n + s * 2 ^ 63).toUInt64.toNat = n + s * 2 ^ 63 := by
    rw [Nat.toUInt64_eq, UInt64.toNat_ofNat']
    omega
  have hexp : (n + s * 2 ^ 63) >>> 52 % 2048 ≠ 2047 := by
    rw [Nat.shiftRight_eq_div_pow]
    omega
  unfold Binary64.isFinite Binary64.view
  simp only [hs, hbits, if_neg hexp]
  by_cases hzero : (n + s * 2 ^ 63) >>> 52 % 2048 = 0
  · simp only [if_pos hzero]
  · simp only [if_neg hzero]

theorem isFinite_of_assemble? {negative : Bool} {m : Nat} {e : Int} {x : Binary64}
    (h : Binary64.assemble? negative m e = some x) : x.isFinite := by
  unfold Binary64.assemble? at h
  dsimp only at h
  by_cases hn : (if m < Binary64.leadingOne then m else
      (e - Binary64.minExponent).toNat * Binary64.leadingOne + m) < 2047 * Binary64.leadingOne
  · rw [if_pos hn] at h
    exact Option.some.inj h ▸ isFinite_of_lt negative hn
  · rw [if_neg hn] at h
    cases h

theorem isFinite_of_ofDecimal? {negative : Bool} {digits : Nat} {e : Int} {x : Binary64}
    (h : Binary64.ofDecimal? negative digits e = some x) : x.isFinite := by
  unfold Binary64.ofDecimal? Binary64.ofRatio? at h
  simp only at h
  split at h
  · exact isFinite_of_assemble? h
  split at h
  · cases h
  split at h
  · exact isFinite_of_assemble? h
  · exact isFinite_of_assemble? h

theorem held_of_makeNumber {minus : Bool} {whole fraction : List Char} {e : Option Int} {n : Number}
    (h : makeNumber minus whole fraction e = some n) : n.Held := by
  unfold makeNumber at h
  simp only at h
  split at h
  · rename_i hc
    obtain rfl := Option.some.inj h
    exact hc.2.2.2
  split at h
  · obtain rfl := Option.some.inj h
    trivial
  · obtain ⟨x, hx, rfl⟩ := Option.map_eq_some_iff.1 h
    exact isFinite_of_ofDecimal? hx

theorem gives_readUnsigned (minus : Bool) : Gives (readUnsigned minus) Number.Held := by
  intro s n r hs
  obtain ⟨⟨whole, t⟩, -, hs⟩ := bind_eq_ok hs
  obtain ⟨⟨fraction, u⟩, -, hs⟩ := bind_eq_ok hs
  obtain ⟨⟨e, v⟩, -, hs⟩ := bind_eq_ok hs
  simp only at hs
  split at hs
  · rename_i m hm
    obtain ⟨rfl, -⟩ : m = n ∧ v = r := by simpa using hs
    exact held_of_makeNumber hm
  · cases hs

theorem gives_readAsNumber {f : Number → Option α} {P : α → Prop}
    (h : ∀ n a, n.Held → f n = some a → P a) : Gives (readAsNumber f) P := by
  intro s a r hs
  obtain ⟨c, q, n, -, -, hn, hf⟩ := readAsNumber_eq_ok_iff.1 hs
  refine h n a ?_ hf
  unfold readNumber at hn
  split at hn
  · exact gives_readUnsigned true hn
  · exact gives_readUnsigned false hn

theorem gives_readWord : Gives readWord (· < Text.wordLimit) := by
  refine gives_readAsNumber fun n a hn ha => ?_
  cases n with
  | word n => exact Option.some.inj ha ▸ hn
  | _ => cases ha

theorem gives_readFloat : Gives readFloat (·.isFinite) := by
  refine gives_readAsNumber fun n a hn ha => ?_
  cases n with
  | word n => exact isFinite_of_ofDecimal? ha
  | negative n => exact isFinite_of_ofDecimal? ha
  | float x => exact Option.some.inj ha ▸ hn

theorem Gives.option {read : Reader α} {P : α → Prop} (h : Gives read P) :
    Gives (readOption read) fun o => ∀ a ∈ o, P a := by
  intro s o r hs
  unfold readOption at hs
  split at hs
  · rw [eq_of_readWordEnd hs]
    simp
  · obtain ⟨⟨a, q⟩, ha, hk⟩ := map_eq_ok hs
    obtain ⟨rfl, rfl⟩ : some a = o ∧ q = r := by simpa using hk
    intro b hb
    exact Option.some.inj hb ▸ h ha

theorem Gives.item {read : Reader α} {P : α → Prop} (h : Gives read P) (first : Bool) :
    Gives (readItem first read) P := by
  intro s a r hs
  obtain ⟨⟨more, q⟩, -, hk⟩ := bind_eq_ok hs
  cases more with
  | true => exact h hk
  | false => cases hk

theorem Gives.item? {read : Reader (Option α)} {P : α → Prop}
    (h : Gives read fun o => ∀ a ∈ o, P a) : Gives (readItem? read) fun o => ∀ a ∈ o, P a := by
  intro s o r hs
  obtain ⟨⟨more, q⟩, -, hk⟩ := bind_eq_ok hs
  cases more with
  | true => exact h hk
  | false =>
    obtain ⟨rfl, -⟩ : none = o ∧ q = r := by simpa [pure, Except.pure] using hk
    simp

theorem Gives.fresh {old : Option α} {read : Reader α} {put : α → β} {P : α → Prop} {Q : β → Prop}
    (h : Gives read P) (hput : ∀ a, P a → Q (put a)) : Gives (readFresh old read put) Q := by
  intro s b r hs
  unfold readFresh at hs
  split at hs
  · cases hs
  · obtain ⟨⟨a, q⟩, ha, hk⟩ := map_eq_ok hs
    obtain ⟨t, -, ha⟩ := bind_eq_ok ha
    obtain ⟨rfl, -⟩ : put a = b ∧ q = r := by simpa using hk
    exact hput a (h ha)

theorem gives_skipField {b : β} {Q : β → Prop} (h : Q b) : Gives (skipField b) Q := by
  intro s c r hs
  obtain ⟨t, -, hs⟩ := bind_eq_ok hs
  obtain ⟨u, -, hs⟩ := bind_eq_ok hs
  obtain ⟨rfl, -⟩ : b = c ∧ u = r := by simpa [pure, Except.pure] using hs
  exact h

theorem Gives.all {read : Reader α} {P : α → Prop} (h : Gives read P) :
    Gives (readAll read) fun as => ∀ a ∈ as, P a := by
  have items : ∀ n first, Gives (readAllFrom read n first) fun as => ∀ a ∈ as, P a := by
    intro n
    induction n with
    | zero =>
      intro first s as r hs
      cases hs
    | succ n ih =>
      intro first s as r hs
      obtain ⟨m, hm, hs⟩ := exists_of_readAllFrom hs
      obtain rfl : n = m := by omega
      rcases hs with ⟨-, -, -, rfl⟩ | ⟨a, bs, q, t, -, ha, hbs, rfl⟩
      · simp
      · intro b hb
        rcases List.mem_cons.1 hb with rfl | hb
        · exact h ha
        · exact ih false hbs b hb
  intro s as r hs
  unfold readAll at hs
  split at hs
  · cases hs
  · exact items _ _ hs
  · cases hs

/-- What all fields keep, the whole of them keeps. -/
theorem Gives.fields {step : String → β → Reader β} {Q : β → Prop}
    (hstep : ∀ k d, Q d → Gives (step k d) Q) (n : Nat) (first : Bool) {d : β} (hd : Q d) :
    Gives (readFields step n first d) Q := by
  induction n generalizing first d with
  | zero =>
    intro s e r hs
    cases hs
  | succ n ih =>
    intro s e r hs
    obtain ⟨m, hm, hs⟩ := exists_of_readFields hs
    obtain rfl : n = m := by omega
    rcases hs with ⟨-, rfl⟩ | ⟨k, d', q, t, -, hd', hs⟩
    · exact hd
    · exact ih false (hstep k d hd hd') hs

/-- A record has a property if all drafts of it have one that leads there. -/
theorem Gives.record {draft : β} {step : String → β → Reader β} {finish : β → Option α}
    {items : Reader α} {P : α → Prop} {Q : β → Prop} (hitems : Gives items P) (hdraft : Q draft)
    (hstep : ∀ k d, Q d → Gives (step k d) Q) (hfinish : ∀ d a, Q d → finish d = some a → P a) :
    Gives (readRecord draft step finish items) P := by
  intro s a r hs
  rcases readRecord_eq_ok_iff.1 hs with ⟨q, t, -, ha, -⟩ | ⟨q, d, t, -, hd, ha, -⟩
  · exact hitems ha
  · exact hfinish d a (Gives.fields hstep _ _ hdraft hd) ha

end PhaseSampling.Json
