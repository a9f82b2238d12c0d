import PhaseSampling.Proofs.Text.Octets
import PhaseSampling.Text.Blank

/-!
# Fields of a text

The fields of a text are its longest runs of characters that are not blank. Here they are described
by the text around them, without reading it.

* `fields_eq_nil_iff`, `fields_eq_cons_iff`: the first field of a text, if it has one, with the
  blanks before it and a rest that goes on with a blank.
* `fields_eq_pair_iff`: the texts of two fields.
* `Numeral`: the numerals of a number. Those of words are read (`readWord?_eq_some_iff`).
-/

namespace PhaseSampling.Text

variable {cs bs rest f g : List Char} {fs : List (List Char)}

/-- A text of blanks only. -/
def Blanks (cs : List Char) : Prop := ∀ c ∈ cs, isBlank c = true

/-- A text without blanks, of one character at least. -/
def Solid (cs : List Char) : Prop := cs ≠ [] ∧ ∀ c ∈ cs, isBlank c = false

/-- A text before which a field ends. -/
def Breaks (cs : List Char) : Prop := ∀ c, cs.head? = some c → isBlank c = true

theorem Blanks.breaks (h : Blanks cs) : Breaks cs := fun c hc => h c (List.mem_of_head? hc)

/-- Blanks in front open no field. -/
theorem fields_blanks (h : Blanks bs) (cs : List Char) : fields (bs ++ cs) = fields cs := by
  induction bs with
  | nil => rfl
  | cons b bs ih =>
    have hb : isBlank b = true := h b List.mem_cons_self
    have hbs : Blanks bs := fun c hc => h c (List.mem_cons_of_mem _ hc)
    rw [List.cons_append, fields_blank hb, ih hbs]

/-- **A run of other characters** is one field, if a blank follows it or nothing. -/
theorem fields_solid (hf : Solid f) (hr : Breaks rest) : fields (f ++ rest) = f :: fields rest := by
  obtain ⟨hne, hf⟩ := hf
  induction f with
  | nil => exact absurd rfl hne
  | cons c f ih =>
    have hc : ¬ isBlank c = true := by
      rw [hf c List.mem_cons_self]
      exact Bool.false_ne_true
    have htail : ∀ d ∈ f, isBlank d = false := fun d hd => hf d (List.mem_cons_of_mem _ hd)
    rw [List.cons_append, fields, if_neg hc]
    cases f with
    | nil =>
      -- what follows does not join the field
      have hjoined : rest.head?.any (!isBlank ·) = false := by
        cases hrest : rest.head? with
        | none => rfl
        | some d => simp [hr d hrest]
      rw [List.nil_append, hjoined]
      rfl
    | cons d f =>
      have hd : isBlank d = false := htail d List.mem_cons_self
      have hjoined : (d :: f ++ rest).head?.any (!isBlank ·) = true := by simp [hd]
      rw [hjoined, ih (List.cons_ne_nil d f) htail]
      rfl

/-- A text has blanks only, or a first field. -/
theorem blanks_or_solid (cs : List Char) :
    Blanks cs ∨ ∃ before f rest, cs = before ++ (f ++ rest) ∧ Blanks before ∧ Solid f ∧
      Breaks rest := by
  induction cs with
  | nil => exact .inl fun c hc => absurd hc List.not_mem_nil
  | cons c cs ih =>
    by_cases hc : isBlank c = true
    · rcases ih with hcs | ⟨before, f, rest, rfl, hb, hf, hr⟩
      · exact .inl (List.forall_mem_cons.2 ⟨hc, hcs⟩)
      · exact .inr ⟨c :: before, f, rest, rfl, List.forall_mem_cons.2 ⟨hc, hb⟩, hf, hr⟩
    · have hc : isBlank c = false := Bool.eq_false_iff.2 hc
      have hone : Solid [c] := ⟨List.cons_ne_nil c [], fun d hd => List.mem_singleton.1 hd ▸ hc⟩
      refine .inr ?_
      rcases ih with hcs | ⟨before, f, rest, rfl, hb, hf, hr⟩
      · exact ⟨[], [c], cs, rfl, nofun, hone, hcs.breaks⟩
      · cases before with
        | nil => exact ⟨[], c :: f, rest, rfl, nofun,
            ⟨List.cons_ne_nil c f, List.forall_mem_cons.2 ⟨hc, hf.2⟩⟩, hr⟩
        | cons b before =>
          refine ⟨[], [c], _, rfl, nofun, hone, fun d hd => ?_⟩
          cases hd
          exact hb b List.mem_cons_self

theorem fields_eq_nil_iff : fields cs = [] ↔ Blanks cs := by
  constructor
  · intro h
    rcases blanks_or_solid cs with hcs | ⟨before, f, rest, rfl, hb, hf, hr⟩
    · exact hcs
    · rw [fields_blanks hb, fields_solid hf hr] at h
      cases h
  · intro h
    have hnil := fields_blanks h []
    rwa [List.append_nil, fields_nil] at hnil

/-- **The first field of a text.** -/
theorem fields_eq_cons_iff : fields cs = f :: fs ↔ ∃ before rest, cs = before ++ (f ++ rest) ∧
    Blanks before ∧ Solid f ∧ Breaks rest ∧ fields rest = fs := by
  constructor
  · intro h
    rcases blanks_or_solid cs with hcs | ⟨before, g, rest, rfl, hb, hg, hr⟩
    · rw [fields_eq_nil_iff.2 hcs] at h
      cases h
    · rw [fields_blanks hb, fields_solid hg hr] at h
      cases h
      exact ⟨before, rest, rfl, hb, hg, hr, rfl⟩
  · rintro ⟨before, rest, rfl, hb, hf, hr, rfl⟩
    rw [fields_blanks hb, fields_solid hf hr]

/-- **A text of two fields**: they have blanks between them, and there may be more on both sides. -/
theorem fields_eq_pair_iff : fields cs = [f, g] ↔ ∃ before gap after,
    cs = before ++ f ++ gap ++ g ++ after ∧ Blanks before ∧ Solid f ∧ gap ≠ [] ∧ Blanks gap ∧
      Solid g ∧ Blanks after := by
  rw [fields_eq_cons_iff]
  constructor
  · rintro ⟨before, rest, rfl, hb, hf, hr, h⟩
    obtain ⟨gap, after, rfl, hgap, hg, -, hnil⟩ := fields_eq_cons_iff.1 h
    refine ⟨before, gap, after, by simp, hb, hf, ?_, hgap, hg, fields_eq_nil_iff.1 hnil⟩
    -- the second field would else be part of the first
    rintro rfl
    obtain ⟨c, g, rfl⟩ := List.exists_cons_of_ne_nil hg.1
    have hblank := hr c rfl
    rw [hg.2 c List.mem_cons_self] at hblank
    cases hblank
  · rintro ⟨before, gap, after, rfl, hb, hf, hne, hgap, hg, ha⟩
    obtain ⟨c, gap, rfl⟩ := List.exists_cons_of_ne_nil hne
    refine ⟨before, c :: gap ++ (g ++ after), by simp, hb, hf, fun d hd => ?_, ?_⟩
    · cases hd
      exact hgap c List.mem_cons_self
    · exact fields_eq_cons_iff.2 ⟨c :: gap, after, rfl, hgap, hg, ha.breaks, fields_eq_nil_iff.2 ha⟩

/-- The numerals of a number: decimal digits, behind a plus sign or none. -/
def Numeral (cs : List Char) (n : Nat) : Prop :=
  ∃ ds, (cs = ds ∨ cs = '+' :: ds) ∧ ds ≠ [] ∧ (∀ d ∈ ds, d.isDigit = true) ∧
    n = Nat.ofDigitChars 10 ds 0

/-- **The numerals of words** are read. -/
theorem readWord?_eq_some_iff {n : Nat} :
    readWord? cs = some n ↔ Numeral cs n ∧ n < wordLimit := by
  have hsign : cs = unsigned cs ∨ cs = '+' :: unsigned cs := by
    unfold unsigned
    split
    · exact .inr rfl
    · exact .inl rfl
  constructor
  · intro h
    rw [readWord?] at h
    split at h
    · rename_i hds
      obtain ⟨hne, hall, hlt⟩ := hds
      cases h
      exact ⟨⟨unsigned cs, hsign, hne, List.all_eq_true.1 hall, rfl⟩, hlt⟩
    · cases h
  · rintro ⟨⟨ds, hcs, hne, hall, rfl⟩, hlt⟩
    have hds : unsigned cs = ds := by
      rcases hcs with rfl | rfl
      · exact unsigned_of_isDigit hall
      · rfl
    rw [readWord?, hds, if_pos ⟨hne, List.all_eq_true.2 hall, hlt⟩]

end PhaseSampling.Text
