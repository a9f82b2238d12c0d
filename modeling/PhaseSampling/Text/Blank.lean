/-!
# Blanks, fields and lines

* `isBlank`: the Unicode property White_Space.
* `fields`: the maximal runs of characters that are not blank.
* `trim`, `trimEnd`: a text without the blanks at its ends.
* `closedLines`: the lines of a text in which every line is ended by a newline.
-/

namespace PhaseSampling.Text

/-- The Unicode property White_Space, 25 characters in all. -/
@[irreducible]
def isBlank (c : Char) : Bool :=
  let n := c.toNat
  (0x09 ≤ n && n ≤ 0x0D) || n == 0x20 || n == 0x85 || n == 0xA0 || n == 0x1680 ||
    (0x2000 ≤ n && n ≤ 0x200A) || n == 0x2028 || n == 0x2029 || n == 0x202F || n == 0x205F ||
    n == 0x3000

/-- Puts a character in front of the fields after it: into the first of them when it is joined
to it, else as a field of its own. -/
def extend (c : Char) : (joined : Bool) → List (List Char) → List (List Char)
  | true, f :: fs => (c :: f) :: fs
  | _, fs => [c] :: fs

/-- The maximal runs of characters that are not blank, in order. -/
def fields : List Char → List (List Char)
  | [] => []
  | c :: cs =>
    if isBlank c then fields cs else extend c (cs.head?.any (!isBlank ·)) (fields cs)

/-- A text without the blanks at its end. -/
def trimEnd (cs : List Char) : List Char := (cs.reverse.dropWhile isBlank).reverse

/-- A text without the blanks at either end. -/
def trim (cs : List Char) : List Char := trimEnd (cs.dropWhile isBlank)

/-- The lines of a text in which every line is ended by a newline, without their newlines;
`none` when the last line is left open. -/
def closedLines : List Char → Option (List (List Char))
  | [] => some []
  | c :: cs =>
    match closedLines cs with
    | none => none
    | some ls =>
      if c = '\n' then some ([] :: ls)
      else
        match ls with
        | [] => none
        | l :: ls => some ((c :: l) :: ls)

theorem fields_nil : fields [] = [] := rfl

/-- A text that does not end in a blank. -/
theorem trimEnd_of_getLast? {cs : List Char} (h : ∀ c, cs.getLast? = some c → isBlank c = false) :
    trimEnd cs = cs := by
  rcases List.eq_nil_or_concat cs with rfl | ⟨ds, c, rfl⟩
  · rfl
  · rw [List.concat_eq_append] at h ⊢
    have hc : isBlank c = false := h c (by simp)
    simp [trimEnd, hc]

/-- A text without blanks. -/
theorem trim_of_forall {cs : List Char} (h : ∀ c ∈ cs, isBlank c = false) : trim cs = cs := by
  have hdrop : cs.dropWhile isBlank = cs := by
    cases cs with
    | nil => rfl
    | cons c cs =>
      have hc : isBlank c = false := h c (List.mem_cons_self ..)
      simp [hc]
  rw [trim, hdrop]
  exact trimEnd_of_getLast? fun c hc => h c (List.mem_of_getLast? hc)

theorem isBlank_of_isDigit {c : Char} (h : c.isDigit = true) : isBlank c = false := by
  rw [Char.isDigit_iff_toNat] at h
  have h0 : '0'.toNat = 48 := rfl
  have h9 : '9'.toNat = 57 := rfl
  unfold isBlank
  simp only [Bool.or_eq_false_iff, Bool.and_eq_false_iff, decide_eq_false_iff_not, beq_eq_false_iff_ne]
  omega

/-- A blank in front opens no field. -/
theorem fields_blank {c : Char} (h : isBlank c = true) (cs : List Char) :
    fields (c :: cs) = fields cs := by
  rw [fields, if_pos h]

/-- The lines give the text back when each gets its newline. -/
theorem flatMap_closedLines {cs : List Char} {ls : List (List Char)}
    (h : closedLines cs = some ls) : ls.flatMap (· ++ ['\n']) = cs := by
  induction cs generalizing ls with
  | nil => cases h; rfl
  | cons c cs ih =>
    rw [closedLines] at h
    split at h
    · simp at h
    · rename_i l' hl
      split at h
      · simp at h; subst h; simp [ih hl, *]
      · split at h
        · simp at h
        · rename_i l ls' _
          simp at h; subst h
          have := ih hl
          simp at this
          simp [this]

end PhaseSampling.Text
