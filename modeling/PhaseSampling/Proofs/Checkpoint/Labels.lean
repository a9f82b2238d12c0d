import Mathlib.Data.List.Induction
import PhaseSampling.Proofs.Checkpoint.Names
import PhaseSampling.Proofs.Text.Fields

/-!
# What a long name tells

A long name is made of fields behind underscores. Only its label may hold underscores itself, and it
comes first, so the fields can be taken off from the end.

* `Spells`: a text has the form of a long name, with given parts. There is one way to spell a text.
* `longName_inj_iff`: a long name tells everything that is in it.
* `simpointLabel_eq_iff`: a label does not tell the simpoint. Two names have one label if they are
  numerals of one number, as `1` and `01`.
* `labels_tell_values`: **labels tell names up to the number they stand for**, also within long names.
-/

namespace PhaseSampling

open Text

/-! ## Fields -/

/-- Where a separator is the last one in two texts, what is around it is the same. -/
theorem append_cons_inj {sep : Char} {as bs cs ds : List Char} (hb : sep ∉ bs) (hd : sep ∉ ds)
    (h : as ++ sep :: bs = cs ++ sep :: ds) : as = cs ∧ bs = ds := by
  have hrev : bs.reverse ++ sep :: as.reverse = ds.reverse ++ sep :: cs.reverse := by
    simpa using congrArg List.reverse h
  have hsplit := congrArg (splitOnce sep) hrev
  rw [splitOnce_append_cons (by simpa using hb), splitOnce_append_cons (by simpa using hd)] at hsplit
  simp only [Option.some.injEq, Prod.mk.injEq, List.reverse_inj] at hsplit
  exact hsplit.symm

/-- Fields, each behind an underscore. -/
def underscored (fields : List (List Char)) : List Char := fields.flatMap ('_' :: ·)

theorem underscored_concat (fields : List (List Char)) (field : List Char) :
    underscored (fields ++ [field]) = underscored fields ++ '_' :: field := by
  simp [underscored]

/-- **Fields without underscores** can be told, and what stands before them. -/
theorem append_underscored_inj {as bs : List Char} {fs gs : List (List Char)}
    (hf : ∀ f ∈ fs, '_' ∉ f) (hg : ∀ g ∈ gs, '_' ∉ g) (hlen : fs.length = gs.length)
    (h : as ++ underscored fs = bs ++ underscored gs) : as = bs ∧ fs = gs := by
  induction fs using List.reverseRecOn generalizing gs with
  | nil =>
    have hnil : gs = [] := List.eq_nil_of_length_eq_zero hlen.symm
    subst hnil
    exact ⟨by simpa [underscored] using h, rfl⟩
  | append_singleton fs f ih =>
    rcases List.eq_nil_or_concat gs with rfl | ⟨gs, g, rfl⟩
    · simp at hlen
    rw [List.concat_eq_append] at hg hlen h ⊢
    rw [underscored_concat, underscored_concat, ← List.append_assoc, ← List.append_assoc] at h
    -- the last fields are what stands behind the last underscore
    obtain ⟨hrest, rfl⟩ := append_cons_inj (hf f (by simp)) (hg g (by simp)) h
    have hf' : ∀ f ∈ fs, '_' ∉ f := fun f hm => hf f (List.mem_append_left _ hm)
    have hg' : ∀ g ∈ gs, '_' ∉ g := fun g hm => hg g (List.mem_append_left _ hm)
    obtain ⟨has, rfl⟩ := ih hf' hg' (by simpa using hlen) hrest
    exact ⟨has, rfl⟩

/-! ## Long names -/

/-- Decimal digits, and at least one of them. -/
def Digits (s : String) : Prop := s.toList ≠ [] ∧ ∀ c ∈ s.toList, c.isDigit = true

/-- `Spells s label n w m k`: the text is the long name with these parts. Three of them are digits,
and the weight has no underscore. -/
structure Spells (s label n w m k : String) : Prop where
  form : s = "cpt.simpoint_" ++ label ++ "_inst_" ++ n ++ "_weight_" ++ w ++ "_interval_" ++ m ++
    "_warmup_" ++ k
  inst : Digits n
  weight : '_' ∉ w.toList
  interval : Digits m
  warmup : Digits k

/-- The parts of a long name behind its label, as fields. -/
def nameFields (n w m k : List Char) : List (List Char) :=
  ["inst".toList, n, "weight".toList, w, "interval".toList, m, "warmup".toList, k]

theorem toList_form (label n w m k : String) :
    ("cpt.simpoint_" ++ label ++ "_inst_" ++ n ++ "_weight_" ++ w ++ "_interval_" ++ m ++
        "_warmup_" ++ k).toList =
      ("cpt.simpoint_".toList ++ label.toList) ++
        underscored (nameFields n.toList w.toList m.toList k.toList) := by
  have h₁ : "_inst_".toList = '_' :: "inst".toList ++ ['_'] := by decide
  have h₂ : "_weight_".toList = '_' :: "weight".toList ++ ['_'] := by decide
  have h₃ : "_interval_".toList = '_' :: "interval".toList ++ ['_'] := by decide
  have h₄ : "_warmup_".toList = '_' :: "warmup".toList ++ ['_'] := by decide
  simp only [String.toList_append, h₁, h₂, h₃, h₄]
  simp [underscored, nameFields]

theorem Digits.underscore_notMem {s : String} (h : Digits s) : '_' ∉ s.toList := by
  intro hm
  exact absurd (h.2 _ hm) (by decide)

theorem digits_toString (n : Nat) : Digits (toString n) := by
  refine ⟨?_, fun c hc => isDigit_of_mem_numeral hc⟩
  rw [Nat.toString_eq_repr, Nat.toList_repr]
  exact Nat.toDigits_ne_nil

/-- The fields of a long name have no underscores. -/
theorem underscore_notMem_nameFields {n w m k : String} (hn : Digits n) (hw : '_' ∉ w.toList)
    (hm : Digits m) (hk : Digits k) :
    ∀ f ∈ nameFields n.toList w.toList m.toList k.toList, '_' ∉ f := by
  intro f hf
  simp only [nameFields, List.mem_cons, List.not_mem_nil, or_false] at hf
  rcases hf with rfl | rfl | rfl | rfl | rfl | rfl | rfl | rfl
  · decide
  · exact hn.underscore_notMem
  · decide
  · exact hw
  · decide
  · exact hm.underscore_notMem
  · decide
  · exact hk.underscore_notMem

/-- **There is one way to spell a text.** -/
theorem Spells.unique {s label label' n n' w w' m m' k k' : String} (h : Spells s label n w m k)
    (h' : Spells s label' n' w' m' k') :
    label' = label ∧ n' = n ∧ w' = w ∧ m' = m ∧ k' = k := by
  have hl := congrArg String.toList (h'.form.symm.trans h.form)
  rw [toList_form, toList_form] at hl
  obtain ⟨hlabel, hfields⟩ := append_underscored_inj
    (underscore_notMem_nameFields h'.inst h'.weight h'.interval h'.warmup)
    (underscore_notMem_nameFields h.inst h.weight h.interval h.warmup) rfl hl
  simp only [nameFields, List.cons.injEq, true_and, and_true, String.toList_inj] at hfields
  obtain ⟨hn, hw, hm, hk⟩ := hfields
  rw [List.append_right_inj, String.toList_inj] at hlabel
  exact ⟨hlabel, hn, hw, hm, hk⟩

theorem spells_longName (label : String) {w : String} (hw : '_' ∉ w.toList) (n m k : Nat) :
    Spells (longName label n w m k) label (toString n) w (toString m) (toString k) :=
  ⟨longName_eq .., digits_toString n, hw, digits_toString m, digits_toString k⟩

theorem underscore_notMem_weightText (w : Binary64) : '_' ∉ (weightText w).toList := by
  intro h
  exact absurd (mem_weightText h) (by decide)

/-- **A long name tells everything that is in it.** -/
theorem longName_inj_iff {label label' weight weight' : String}
    {inst inst' interval interval' warmup warmup' : Nat} (hw : '_' ∉ weight.toList)
    (hw' : '_' ∉ weight'.toList) :
    longName label inst weight interval warmup = longName label' inst' weight' interval' warmup' ↔
      label = label' ∧ inst = inst' ∧ weight = weight' ∧ interval = interval' ∧
        warmup = warmup' := by
  constructor
  · intro h
    have hspells := spells_longName label hw inst interval warmup
    have hspells' := spells_longName label' hw' inst' interval' warmup'
    rw [← h] at hspells'
    obtain ⟨hlabel, hinst, hweight, hinterval, hwarmup⟩ := hspells'.unique hspells
    exact ⟨hlabel, numeral_injective hinst, hweight, numeral_injective hinterval,
      numeral_injective hwarmup⟩
  · rintro ⟨rfl, rfl, rfl, rfl, rfl⟩
    rfl

theorem single_longName {label weight : String} {inst interval warmup : Nat}
    (hl : '/' ∉ label.toList) (hw : '/' ∉ weight.toList) :
    Single (longName label inst weight interval warmup) := by
  constructor
  · intro he
    have hp := linked_longName label inst weight interval warmup
    rw [he, Linked] at hp
    exact absurd hp (by decide)
  · have h₁ : '/' ∉ "cpt.simpoint_".toList := by decide
    have h₂ : '/' ∉ "_inst_".toList := by decide
    have h₃ : '/' ∉ "_weight_".toList := by decide
    have h₄ : '/' ∉ "_interval_".toList := by decide
    have h₅ : '/' ∉ "_warmup_".toList := by decide
    simp only [longName_eq, String.toList_append, List.mem_append, not_or]
    exact ⟨⟨⟨⟨⟨⟨⟨⟨⟨h₁, hl⟩, h₂⟩, (plain_numeral _).1⟩, h₃⟩, hw⟩, h₄⟩, (plain_numeral _).1⟩, h₅⟩,
      (plain_numeral _).1⟩

/-! ## Labels -/

/-- Zeros in front of a numeral do not change the number it stands for. -/
theorem readWord?_padTwo {n : Nat} (hn : n < wordLimit) :
    readWord? (padTwo (Nat.toDigits 10 n)) = some n := by
  have hdigits : ∀ c ∈ padTwo (Nat.toDigits 10 n), c.isDigit = true := by
    intro c hc
    rw [padTwo, List.mem_append] at hc
    rcases hc with hc | hc
    · rw [List.eq_of_mem_replicate hc]
      decide
    · exact isDigit_of_mem_toDigits hc
  have hzeros : ∀ k, Nat.ofDigitChars 10 (List.replicate k '0' ++ Nat.toDigits 10 n) 0 = n := by
    intro k
    induction k with
    | zero => simp [Nat.ofDigitChars_ten_toDigits]
    | succ k ih => simpa [List.replicate_succ, Nat.ofDigitChars_cons] using ih
  have hne : padTwo (Nat.toDigits 10 n) ≠ [] := by simp [padTwo, Nat.toDigits_ne_nil]
  have hvalue : Nat.ofDigitChars 10 (padTwo (Nat.toDigits 10 n)) 0 = n := hzeros _
  simp only [readWord?, unsigned_of_isDigit hdigits, hvalue]
  rw [if_pos ⟨hne, List.all_eq_true.2 hdigits, hn⟩]

/-- A label stands for the number that its name stands for, if for any. -/
theorem readWord?_simpointLabel (name : String) :
    readWord? (simpointLabel name).toList = readWord? name.toList := by
  rw [simpointLabel]
  split
  · rename_i n hn
    rw [String.toList_ofList, readWord?_padTwo (lt_wordLimit_of_readWord? hn), hn]
  · rfl

/-- Names that are numerals of one number. -/
def SameNumber (a b : String) : Prop :=
  ∃ n, readWord? a.toList = some n ∧ readWord? b.toList = some n

/-- **Two names have one label** if they are the same, or numerals of one number. -/
theorem simpointLabel_eq_iff (a b : String) :
    simpointLabel a = simpointLabel b ↔ a = b ∨ SameNumber a b := by
  constructor
  · intro h
    have hread : readWord? a.toList = readWord? b.toList := by
      rw [← readWord?_simpointLabel a, ← readWord?_simpointLabel b, h]
    cases hn : readWord? a.toList with
    | some n => exact .inr ⟨n, hn, by rw [← hread, hn]⟩
    | none =>
      -- names that are no numerals are their own labels
      have hb : readWord? b.toList = none := by rw [← hread, hn]
      simp only [simpointLabel, hn, hb] at h
      exact .inl h
  · rintro (rfl | ⟨n, ha, hb⟩)
    · rfl
    · simp only [simpointLabel, ha, hb]

theorem slash_notMem_simpointLabel {name : String} (h : '/' ∉ name.toList) :
    '/' ∉ (simpointLabel name).toList := by
  rw [simpointLabel]
  split
  · rename_i n _
    intro hm
    rw [String.toList_ofList, padTwo, List.mem_append] at hm
    rcases hm with hm | hm
    · exact absurd (List.eq_of_mem_replicate hm) (by decide)
    · exact absurd (isDigit_of_mem_toDigits hm) (by decide)
  · exact h

example : simpointLabel "1" = simpointLabel "01" := by decide

/-- A name is a numeral of a word, maybe behind a plus sign, with any zeros in front. -/
def Denotes (name : String) (n : Nat) : Prop := Text.Numeral name.toList n ∧ n < wordLimit

theorem sameNumber_iff (a b : String) : SameNumber a b ↔ ∃ n, Denotes a n ∧ Denotes b n := by
  unfold SameNumber Denotes
  simp only [readWord?_eq_some_iff]

/-- **A label is its own label.** -/
theorem simpointLabel_simpointLabel (name : String) :
    simpointLabel (simpointLabel name) = simpointLabel name := by
  have hread := readWord?_simpointLabel name
  rw [simpointLabel_eq_iff]
  cases hn : readWord? name.toList with
  | some n =>
    rw [hn] at hread
    exact .inr ⟨n, hread, hn⟩
  | none =>
    left
    simp only [simpointLabel, hn]

/-- **Labels tell names up to the number they stand for.** Two names have one label if they are the
same or numerals of one word, and a label is its own label. Long names tell just as much of the names
whose labels are in them, and everything else that is in them. -/
theorem labels_tell_values (a b : String) :
    (simpointLabel a = simpointLabel b ↔ a = b ∨ ∃ n, Denotes a n ∧ Denotes b n) ∧
    simpointLabel (simpointLabel a) = simpointLabel a ∧
    ∀ {inst inst' interval interval' warmup warmup' : Nat} {weight weight' : String},
      '_' ∉ weight.toList → '_' ∉ weight'.toList →
      (longName (simpointLabel a) inst weight interval warmup =
          longName (simpointLabel b) inst' weight' interval' warmup' ↔
        inst = inst' ∧ weight = weight' ∧ interval = interval' ∧ warmup = warmup' ∧
          (a = b ∨ ∃ n, Denotes a n ∧ Denotes b n)) := by
  have hlabel : simpointLabel a = simpointLabel b ↔ a = b ∨ ∃ n, Denotes a n ∧ Denotes b n := by
    rw [simpointLabel_eq_iff, sameNumber_iff]
  refine ⟨hlabel, simpointLabel_simpointLabel a, fun hw hw' => ?_⟩
  rw [longName_inj_iff hw hw', hlabel]
  constructor
  · rintro ⟨hname, hinst, hweight, hinterval, hwarmup⟩
    exact ⟨hinst, hweight, hinterval, hwarmup, hname⟩
  · rintro ⟨hinst, hweight, hinterval, hwarmup, hname⟩
    exact ⟨hname, hinst, hweight, hinterval, hwarmup⟩

/-- Two numerals of seven, and two of a number that is too large for a word. -/
theorem labels_tell_values_seven :
    '_' ∉ "0.25".toList ∧
    longName (simpointLabel "+0007") 5 "0.25" 10 2 = longName (simpointLabel "7") 5 "0.25" 10 2 ∧
    longName (simpointLabel "018446744073709551616") 5 "0.25" 10 2 ≠
      longName (simpointLabel "18446744073709551616") 5 "0.25" 10 2 := by
  have hweight : '_' ∉ "0.25".toList := by decide
  refine ⟨hweight, ?_, fun hlong => ?_⟩
  · have hplus : Denotes "+0007" 7 := readWord?_eq_some_iff.1 (by decide)
    have hseven : Denotes "7" 7 := readWord?_eq_some_iff.1 (by decide)
    refine ((labels_tell_values _ _).2.2 hweight hweight).2 ⟨rfl, rfl, rfl, rfl, .inr ?_⟩
    exact ⟨7, hplus, hseven⟩
  · have hname := ((labels_tell_values _ _).2.2 hweight hweight).1 hlong
    obtain ⟨-, -, -, -, hsame | ⟨n, hn, -⟩⟩ := hname
    · exact absurd hsame (by decide)
    · have hnone : readWord? "018446744073709551616".toList = none := by decide
      have hread := readWord?_eq_some_iff.2 hn
      rw [hnone] at hread
      cases hread

end PhaseSampling
