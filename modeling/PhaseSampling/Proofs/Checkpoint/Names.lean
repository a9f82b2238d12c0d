import PhaseSampling.Checkpoint
import PhaseSampling.Proofs.FileTree.Entry
import PhaseSampling.Proofs.Text.Octets

/-!
# Names of snapshots and links

* `mem_weightText`: the characters a weight is written with.
* `Linked`: long names can be told from the short names of simpoints by how they start.
* `fits_shortName`, `fits_longName`: both are names for entries of the output directory.
-/

namespace PhaseSampling

open Text

/-! ## Weights -/

/-- The characters of a decimal number, `NaN` and `inf`. -/
def WeightChar (c : Char) : Prop := c.isDigit = true ∨ c ∈ ['.', '-', 'N', 'a', 'i', 'n', 'f']

instance (c : Char) : Decidable (WeightChar c) := inferInstanceAs (Decidable (_ ∨ _))

theorem weightChar_toDigits {n : Nat} {c : Char} (h : c ∈ Nat.toDigits 10 n) : WeightChar c :=
  .inl (isDigit_of_mem_toDigits h)

theorem mem_positional {d : Decimal} {c : Char} (h : c ∈ (Decimal.positional "" d).toList) :
    WeightChar c := by
  rw [Decimal.positional] at h
  -- the point stands behind all digits, among them, or before them
  split at h
  · simp only [String.toList_append, String.toList_ofList, List.mem_append] at h
    rcases h with (h | h) | h
    · exact weightChar_toDigits h
    · rw [List.eq_of_mem_replicate h]
      exact .inl (by decide)
    · simp at h
  · split at h
    · simp only [String.toList_ofList, List.mem_append, List.mem_cons] at h
      rcases h with h | rfl | h
      · exact weightChar_toDigits (List.mem_of_mem_take h)
      · exact .inr (by decide)
      · exact weightChar_toDigits (List.mem_of_mem_drop h)
    · simp only [String.toList_ofList, List.mem_append, List.mem_cons] at h
      rcases h with (rfl | rfl | h) | h
      · exact .inl (by decide)
      · exact .inr (by decide)
      · rw [List.eq_of_mem_replicate h]
        exact .inl (by decide)
      · exact weightChar_toDigits h

theorem mem_magnitude {m : Nat} {e : Int} {c : Char}
    (h : c ∈ (weightStyle.magnitude m e).toList) : WeightChar c := by
  rw [Decimal.Style.magnitude] at h
  split at h
  · have hc : c = '0' := by simpa [weightStyle] using h
    rw [hc]
    decide
  · exact mem_positional h

theorem mem_sign {negative : Bool} {c : Char} (h : c ∈ (if negative then "-" else "").toList) :
    WeightChar c := by
  cases negative with
  | false => simp at h
  | true =>
    have hc : c = '-' := by simpa using h
    rw [hc]
    decide

theorem mem_weightStyle_text {w : Binary64} {c : Char} (h : c ∈ (weightStyle.text w).toList) :
    WeightChar c := by
  rw [Decimal.Style.text] at h
  split at h
  · have hc : c = 'N' ∨ c = 'a' ∨ c = 'N' := by simpa using h
    rcases hc with rfl | rfl | rfl <;> decide
  · split at h
    · have hc : c = '-' ∨ c = 'i' ∨ c = 'n' ∨ c = 'f' := by simpa using h
      rcases hc with rfl | rfl | rfl | rfl <;> decide
    · have hc : c = 'i' ∨ c = 'n' ∨ c = 'f' := by simpa using h
      rcases hc with rfl | rfl | rfl <;> decide
  · simp only [String.toList_append, List.mem_append] at h
    rcases h with h | h
    · exact mem_sign h
    · exact mem_magnitude h

/-- **A weight is written with digits and few other characters.** -/
theorem mem_weightText {w : Binary64} {c : Char} (h : c ∈ (weightText w).toList) :
    WeightChar c := by
  rw [weightText] at h
  split at h
  · simp only [String.toList_append, List.mem_append] at h
    rcases h with h | h | h
    · exact mem_sign h
    · exact .inl (isDigit_of_mem_numeral h)
    · have h : c ∈ ".0".toList := h
      have hc : c = '.' ∨ c = '0' := by simpa using h
      rcases hc with rfl | rfl <;> decide
  · exact mem_weightStyle_text h

/-! ## Names -/

/-- A name that can be part of a name in a directory. -/
def Plain (s : String) : Prop := '/' ∉ s.toList ∧ '\x00' ∉ s.toList

instance : DecidablePred Plain := fun s =>
  inferInstanceAs (Decidable ('/' ∉ s.toList ∧ '\x00' ∉ s.toList))

theorem Plain.append {s s' : String} (h : Plain s) (h' : Plain s') : Plain (s ++ s') := by
  simp only [Plain, String.toList_append, List.mem_append, not_or]
  exact ⟨⟨h.1, h'.1⟩, h.2, h'.2⟩

/-- Digits are neither slashes nor nulls. -/
theorem plain_of_isDigit {s : String} (h : ∀ c ∈ s.toList, c.isDigit = true) : Plain s := by
  constructor
  · intro hc
    exact absurd (h _ hc) (by decide)
  · intro hc
    exact absurd (h _ hc) (by decide)

theorem plain_numeral (n : Nat) : Plain (toString n) :=
  plain_of_isDigit fun _ hc => isDigit_of_mem_numeral hc

theorem plain_weightText (w : Binary64) : Plain (weightText w) :=
  ⟨fun h => absurd (mem_weightText h) (by decide), fun h => absurd (mem_weightText h) (by decide)⟩

theorem plain_simpointLabel {name : String} (h : Plain name) : Plain (simpointLabel name) := by
  rw [simpointLabel]
  split
  · rename_i n _
    -- a number is padded with zeros
    refine plain_of_isDigit fun c hc => ?_
    rw [String.toList_ofList, padTwo, List.mem_append] at hc
    rcases hc with hc | hc
    · rw [List.eq_of_mem_replicate hc]
      decide
    · exact isDigit_of_mem_toDigits hc
  · exact h

theorem plain_shortName {name : String} (h : Plain name) : Plain (shortName name) :=
  Plain.append (by simp [Plain]) h

theorem longName_eq (label : String) (inst : Nat) (weight : String) (interval warmup : Nat) :
    longName label inst weight interval warmup =
      "cpt.simpoint_" ++ label ++ "_inst_" ++ toString inst ++ "_weight_" ++ weight ++
        "_interval_" ++ toString interval ++ "_warmup_" ++ toString warmup := rfl

theorem plain_longName {label weight : String} {inst interval warmup : Nat} (hl : Plain label)
    (hw : Plain weight) : Plain (longName label inst weight interval warmup) := by
  have h₁ : Plain "cpt.simpoint_" := by simp [Plain]
  have h₂ : Plain "_inst_" := by simp [Plain]
  have h₃ : Plain "_weight_" := by simp [Plain]
  have h₄ : Plain "_interval_" := by simp [Plain]
  have h₅ : Plain "_warmup_" := by simp [Plain]
  rw [longName_eq]
  exact ((((((((h₁.append hl).append h₂).append (plain_numeral _)).append h₃).append hw).append
    h₄).append (plain_numeral _)).append h₅).append (plain_numeral _)

/-- The names of links. Short names of simpoints can be told from them. -/
def Linked (name : String) : Prop := "cpt.simpoint_".toList <+: name.toList

theorem linked_longName (label : String) (inst : Nat) (weight : String) (interval warmup : Nat) :
    Linked (longName label inst weight interval warmup) := by
  simp only [longName_eq, Linked, String.toList_append, List.append_assoc]
  exact List.prefix_append _ _

theorem linked_shortName_iff (name : String) :
    Linked (shortName name) ↔ "simpoint_".toList <+: name.toList := by
  have h : "cpt.simpoint_".toList = "cpt.".toList ++ "simpoint_".toList := by simp
  rw [Linked, shortName, String.toList_append, h, List.prefix_append_right_inj]

/-! ## Sizes -/

/-- The system has room for a name, and for its path. -/
def Small (dir name : String) : Prop :=
  name.utf8ByteSize ≤ maxName ∧ (joinPath dir name).utf8ByteSize < maxPath

theorem small_of_size {dir name : String} (hn : name.utf8ByteSize ≤ maxName)
    (h : dir.utf8ByteSize + 1 + name.utf8ByteSize < maxPath) : Small dir name := by
  refine ⟨hn, Nat.lt_of_le_of_lt ?_ h⟩
  have hs : "/".utf8ByteSize = 1 := by decide
  rw [joinPath]
  split
  · omega
  · split <;> simp only [String.utf8ByteSize_append] <;> omega

/-- The root has room for any name of the right size. -/
theorem small_root {name : String} (hn : name.utf8ByteSize ≤ maxName) : Small "/" name := by
  have hmax : "/".utf8ByteSize + 1 + maxName < maxPath := by decide
  exact small_of_size hn (by omega)

theorem dots_of_cpt {name : String} (h : "cpt.".toList <+: name.toList) :
    name ≠ "" ∧ name ≠ "." ∧ name ≠ ".." := by
  refine ⟨?_, ?_, ?_⟩ <;> (rintro rfl; exact absurd h (by decide))

/-- Plain names of the right size are names for entries. -/
theorem fits_of_small {dir name : String} (hd : pathFault? dir = none) (hn : Plain name)
    (hc : "cpt.".toList <+: name.toList) (hs : Small dir name) : FileTree.Fits dir name := by
  obtain ⟨hnul, hne, -⟩ := (pathFault?_eq_none_iff dir).1 hd
  have hdots := dots_of_cpt hc
  have hsingle : Single name := ⟨hdots.1, hn.1⟩
  refine ⟨hsingle, ⟨hdots.2.1, hdots.2.2, hs.1⟩, ?_⟩
  rw [pathFault?_eq_none_iff, joinPath_toList hne hsingle]
  refine ⟨?_, joinPath_ne_empty hne hsingle, hs.2⟩
  split <;> simp [hnul, hn.2]

theorem cpt_prefix_shortName (name : String) : "cpt.".toList <+: (shortName name).toList := by
  rw [shortName, String.toList_append]
  exact List.prefix_append _ _

theorem single_shortName {name : String} (h : '/' ∉ name.toList) : Single (shortName name) := by
  refine ⟨(dots_of_cpt (cpt_prefix_shortName name)).1, ?_⟩
  rw [shortName, String.toList_append, List.mem_append, not_or]
  exact ⟨by decide, h⟩

/-- A short name can be the target of a link. -/
theorem pathFault?_shortName {name : String} (hn : Plain name)
    (hs : (shortName name).utf8ByteSize ≤ maxName) : pathFault? (shortName name) = none := by
  rw [pathFault?_eq_none_iff]
  refine ⟨(plain_shortName hn).2, fun he => ?_, Nat.lt_of_le_of_lt hs (by decide)⟩
  have hc := cpt_prefix_shortName name
  rw [he] at hc
  exact absurd hc (by decide)

theorem fits_shortName {dir name : String} (hd : pathFault? dir = none) (hn : Plain name)
    (hs : Small dir (shortName name)) : FileTree.Fits dir (shortName name) :=
  fits_of_small hd (plain_shortName hn) (cpt_prefix_shortName name) hs

theorem fits_longName {dir label weight : String} {inst interval warmup : Nat}
    (hd : pathFault? dir = none) (hl : Plain label) (hw : Plain weight)
    (hs : Small dir (longName label inst weight interval warmup)) :
    FileTree.Fits dir (longName label inst weight interval warmup) := by
  refine fits_of_small hd (plain_longName hl hw) ?_ hs
  have h : "cpt.".toList <+: "cpt.simpoint_".toList := by decide
  exact h.trans (linked_longName ..)

/-! ## Numbered simpoints -/

/-- A numeral is not longer than its label. -/
theorem utf8ByteSize_le_simpointLabel (i : Nat) :
    (toString i).utf8ByteSize ≤ (simpointLabel (toString i)).utf8ByteSize := by
  rw [simpointLabel, Nat.toString_eq_repr, Nat.toList_repr, readWord?_toDigits_eq]
  split
  · rename_i n hn
    split at hn
    · cases hn
      rw [padTwo, String.ofList_append, String.utf8ByteSize_append, Nat.repr_eq_ofList_toDigits]
      exact Nat.le_add_left _ _
    · cases hn
  · exact Nat.le_refl _

theorem utf8ByteSize_shortName_le (i inst : Nat) (weight : String) (interval warmup : Nat) :
    (shortName (toString i)).utf8ByteSize ≤
      (longName (simpointLabel (toString i)) inst weight interval warmup).utf8ByteSize := by
  have hi := utf8ByteSize_le_simpointLabel i
  have hshort : "cpt.".utf8ByteSize ≤ "cpt.simpoint_".utf8ByteSize := by decide
  simp only [shortName, longName_eq, String.utf8ByteSize_append]
  omega

/-- A path is not longer than one to a longer name. -/
theorem utf8ByteSize_joinPath_le {dir a b : String} (ha : Single a) (hb : Single b)
    (h : a.utf8ByteSize ≤ b.utf8ByteSize) :
    (joinPath dir a).utf8ByteSize ≤ (joinPath dir b).utf8ByteSize := by
  rw [joinPath, joinPath, ha.not_startsWith, hb.not_startsWith]
  split
  · exact h
  · split <;> simp only [String.utf8ByteSize_append] <;> omega

/-- There is room for the snapshot of a numbered simpoint where there is room for the link to it. -/
theorem small_shortName {dir weight : String} {i inst interval warmup : Nat}
    (hl : Single (longName (simpointLabel (toString i)) inst weight interval warmup))
    (h : Small dir (longName (simpointLabel (toString i)) inst weight interval warmup)) :
    Small dir (shortName (toString i)) := by
  have hle := utf8ByteSize_shortName_le i inst weight interval warmup
  have hs : Single (shortName (toString i)) := by
    refine ⟨fun he => ?_, (plain_shortName (plain_numeral i)).1⟩
    have hc := cpt_prefix_shortName (toString i)
    rw [he] at hc
    exact absurd hc (by decide)
  exact ⟨Nat.le_trans hle h.1, Nat.lt_of_le_of_lt (utf8ByteSize_joinPath_le hs hl hle) h.2⟩

/-- A numeral does not start like the name of a link. -/
theorem not_simpoint_prefix_numeral (i : Nat) :
    ¬ "simpoint_".toList <+: (toString i).toList := by
  intro h
  have hs : 's' ∈ (toString i).toList := h.subset (by decide)
  exact absurd (isDigit_of_mem_numeral hs) (by decide)

theorem numeral_injective {i j : Nat} (h : toString i = toString j) : i = j := by
  have hd := congrArg String.toList h
  rw [Nat.toString_eq_repr, Nat.toString_eq_repr, Nat.toList_repr, Nat.toList_repr] at hd
  have hn := congrArg (fun ds => Nat.ofDigitChars 10 ds 0) hd
  simpa only [Nat.ofDigitChars_ten_toDigits] using hn

end PhaseSampling
