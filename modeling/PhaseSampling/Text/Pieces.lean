/-!
# Pieces between separators

`pieces sep` cuts a text at every separator. `pieces_append_cons` says that a text and one more
piece joined by a separator are cut where they were joined.
-/

namespace PhaseSampling.Text

/-- The pieces of a text between separators: one more than there are separators. -/
def pieces (sep : Char) : List Char → List (List Char)
  | [] => [[]]
  | c :: cs =>
    if c = sep then [] :: pieces sep cs
    else
      match pieces sep cs with
      | [] => [[c]]
      | p :: ps => (c :: p) :: ps

theorem pieces_ne_nil (sep : Char) (cs : List Char) : pieces sep cs ≠ [] := by
  cases cs with
  | nil => simp [pieces]
  | cons c cs =>
    rw [pieces]
    split
    · simp
    · split <;> simp

/-- A text without the separator is one piece. -/
theorem pieces_of_notMem {sep : Char} {cs : List Char} (h : sep ∉ cs) : pieces sep cs = [cs] := by
  induction cs with
  | nil => rfl
  | cons c cs ih =>
    obtain ⟨hc, hcs⟩ := not_or.1 (mt List.mem_cons.2 h)
    simp only [pieces, if_neg (Ne.symm hc), ih hcs]

/-- Cutting at a separator. -/
theorem pieces_append_cons (sep : Char) (cs ds : List Char) :
    pieces sep (cs ++ sep :: ds) = pieces sep cs ++ pieces sep ds := by
  induction cs with
  | nil => simp [pieces]
  | cons c cs ih =>
    rw [List.cons_append, pieces, pieces, ih]
    split
    · simp
    · have := pieces_ne_nil sep cs
      split
      · rename_i h
        exact absurd (List.append_eq_nil_iff.1 h).1 this
      · rename_i p ps h
        rcases hp : pieces sep cs with _ | ⟨q, qs⟩
        · exact absurd hp this
        · rw [hp] at h
          simp at h
          simp [h]

/-- What stands before the first separator and what stands after it. -/
def splitOnce (sep : Char) : List Char → Option (List Char × List Char)
  | [] => none
  | c :: cs =>
    if c = sep then some ([], cs)
    else (splitOnce sep cs).map fun (a, b) => (c :: a, b)

theorem splitOnce_append_cons {sep : Char} {cs : List Char} (h : sep ∉ cs) (ds : List Char) :
    splitOnce sep (cs ++ sep :: ds) = some (cs, ds) := by
  induction cs with
  | nil => simp [splitOnce]
  | cons c cs ih =>
    obtain ⟨hc, hcs⟩ := not_or.1 (mt List.mem_cons.2 h)
    simp [splitOnce, Ne.symm hc, ih hcs]

/-- What was split gives the text back around the separator. -/
theorem eq_append_of_splitOnce {sep : Char} {cs a b : List Char}
    (h : splitOnce sep cs = some (a, b)) : cs = a ++ sep :: b := by
  induction cs generalizing a with
  | nil => cases h
  | cons c cs ih =>
    rw [splitOnce] at h
    split at h
    · rename_i hc
      cases h
      rw [hc, List.nil_append]
    · obtain ⟨⟨a', b'⟩, hs, he⟩ := Option.map_eq_some_iff.1 h
      cases he
      rw [ih hs, List.cons_append]

/-- A text without the separator is not split. -/
theorem splitOnce_of_notMem {sep : Char} {cs : List Char} (h : sep ∉ cs) :
    splitOnce sep cs = none := by
  rcases hs : splitOnce sep cs with _ | ⟨a, b⟩
  · rfl
  · rw [eq_append_of_splitOnce hs] at h
    simp at h

end PhaseSampling.Text
