import PhaseSampling.Proofs.Text.Octets
import PhaseSampling.Text.Blank
import PhaseSampling.Text.Pieces

/-!
# Lines and numbers of a text

What readers of a text find in it, and that they find what was printed.

* `MadeOf`: the lines of a text, each ended by a newline (`closedLines_eq_some_iff`).
* `Line`: a text of one line. Such texts are read one by one (`closedLines_join`).
* `decimals?`: the numbers of a text, printed in decimal with a separator between them
  (`decimals?_cons`).
* `Utf8.splitOn_encode_line`: the octets of a text are cut at its newlines. There are as many of
  those as in the text (`Utf8.count_encode_newline`).
-/

namespace PhaseSampling.Text

/-! ## Lines -/

/-- A line without a newline, ended by one, in front of a text. -/
theorem closedLines_append_newline {l : List Char} (h : '\n' ∉ l) (cs : List Char) :
    closedLines (l ++ '\n' :: cs) = (closedLines cs).map (l :: ·) := by
  induction l with
  | nil =>
    rw [List.nil_append, closedLines]
    cases closedLines cs <;> rfl
  | cons c l ih =>
    obtain ⟨hc, hl⟩ := not_or.1 (mt List.mem_cons.2 h)
    rw [List.cons_append, closedLines, ih hl]
    cases closedLines cs with
    | none => rfl
    | some ls => simp [Ne.symm hc]

/-- **Lines that are ended one by one** are read line by line. -/
theorem closedLines_flatMap {ls : List (List Char)} (h : ∀ l ∈ ls, '\n' ∉ l) :
    closedLines (ls.flatMap (· ++ ['\n'])) = some ls := by
  induction ls with
  | nil => rfl
  | cons l ls ih =>
    rw [List.flatMap_cons, List.append_assoc, List.singleton_append,
      closedLines_append_newline (h l List.mem_cons_self),
      ih fun l' hl' => h l' (List.mem_cons_of_mem _ hl')]
    rfl

/-- A text is made of lines, each of them ended by a newline. -/
def MadeOf (cs : List Char) (ls : List (List Char)) : Prop :=
  (∀ l ∈ ls, '\n' ∉ l) ∧ cs = ls.flatMap (· ++ ['\n'])

theorem notMem_of_closedLines {cs : List Char} {ls : List (List Char)}
    (h : closedLines cs = some ls) : ∀ l ∈ ls, '\n' ∉ l := by
  induction cs generalizing ls with
  | nil =>
    cases h
    exact fun l hl => absurd hl List.not_mem_nil
  | cons c cs ih =>
    rw [closedLines] at h
    split at h
    · cases h
    · rename_i ls' hls
      split at h
      · cases h
        exact List.forall_mem_cons.2 ⟨List.not_mem_nil, ih hls⟩
      · rename_i hc
        split at h
        · cases h
        · cases h
          obtain ⟨hl, hls⟩ := List.forall_mem_cons.1 (ih hls)
          refine List.forall_mem_cons.2 ⟨fun hmem => ?_, hls⟩
          rcases List.mem_cons.1 hmem with heq | hmem
          · exact hc heq.symm
          · exact hl hmem

/-- **The lines that a text is made of** are those that are read. -/
theorem closedLines_eq_some_iff {cs : List Char} {ls : List (List Char)} :
    closedLines cs = some ls ↔ MadeOf cs ls := by
  constructor
  · intro h
    exact ⟨notMem_of_closedLines h, (flatMap_closedLines h).symm⟩
  · rintro ⟨hls, rfl⟩
    exact closedLines_flatMap hls

theorem closedLines_concat_newline (cs : List Char) :
    ∃ l ls, closedLines (cs ++ ['\n']) = some (l :: ls) := by
  induction cs with
  | nil => exact ⟨[], [], rfl⟩
  | cons c cs ih =>
    obtain ⟨l, ls, h⟩ := ih
    rw [List.cons_append, closedLines, h]
    by_cases hc : c = '\n'
    · exact ⟨[], l :: ls, by simp [hc]⟩
    · exact ⟨c :: l, ls, by simp [hc]⟩

/-- **A last line is left open** in a text that does not end in a newline. -/
theorem closedLines_eq_none_iff {cs : List Char} :
    closedLines cs = none ↔ cs ≠ [] ∧ cs.getLast? ≠ some '\n' := by
  rcases List.eq_nil_or_concat cs with rfl | ⟨ds, c, rfl⟩
  · simp [closedLines]
  · rw [List.concat_eq_append, List.getLast?_concat]
    by_cases hc : c = '\n'
    · obtain ⟨l, ls, h⟩ := closedLines_concat_newline ds
      subst hc
      simp [h]
    · have hnone : closedLines (ds ++ [c]) = none := by
        refine Option.eq_none_iff_forall_ne_some.2 fun ls h => ?_
        obtain ⟨-, hcs⟩ := closedLines_eq_some_iff.1 h
        rcases List.eq_nil_or_concat ls with rfl | ⟨ls, l, rfl⟩
        · simp at hcs
        -- the last line ends in a newline
        · have hlast := congrArg List.getLast? hcs
          rw [List.concat_eq_append, List.flatMap_append, List.flatMap_singleton,
            ← List.append_assoc, List.getLast?_concat, List.getLast?_concat] at hlast
          exact hc (Option.some.inj hlast)
      simp [hnone, hc]

/-- A text of one line, ended by a newline. -/
def Line (s : String) : Prop := ∃ l, '\n' ∉ l ∧ s.toList = l ++ ['\n']

/-- **Texts of one line each** are read one by one, without their newlines. -/
theorem closedLines_join {lines : List String} (h : ∀ s ∈ lines, Line s) :
    closedLines (String.join lines).toList = some (lines.map fun s => s.toList.dropLast) := by
  have htext : (String.join lines).toList =
      (lines.map fun s => s.toList.dropLast).flatMap (· ++ ['\n']) := by
    rw [String.toList_join, List.flatMap_map, List.flatMap_def, List.flatMap_def]
    refine congrArg List.flatten (List.map_congr_left fun s hs => ?_)
    obtain ⟨l, -, hl⟩ := h s hs
    rw [hl, List.dropLast_concat]
  rw [htext]
  refine closedLines_flatMap fun l hl => ?_
  obtain ⟨s, hs, rfl⟩ := List.mem_map.1 hl
  obtain ⟨l, hn, hl⟩ := h s hs
  rwa [hl, List.dropLast_concat]

theorem closedLines_of_line {s : String} (h : Line s) :
    closedLines s.toList = some [s.toList.dropLast] := by
  have hall : ∀ s' ∈ [s], Line s' := fun s' hs' => List.mem_singleton.1 hs' ▸ h
  have hjoin := closedLines_join hall
  rwa [String.join_cons, String.join_nil, String.append_empty] at hjoin

/-! ## Pieces and numbers -/

/-- Pieces that each come behind a separator. -/
theorem pieces_append_flatMap {α : Type} {sep : Char} {cs : List Char} {f : α → List Char}
    (hcs : sep ∉ cs) {xs : List α} (hxs : ∀ x ∈ xs, sep ∉ f x) :
    pieces sep (cs ++ xs.flatMap fun x => sep :: f x) = cs :: xs.map f := by
  induction xs generalizing cs with
  | nil => rw [List.flatMap_nil, List.append_nil, pieces_of_notMem hcs, List.map_nil]
  | cons x xs ih =>
    rw [List.flatMap_cons, List.cons_append, pieces_append_cons, pieces_of_notMem hcs,
      ih (hxs x List.mem_cons_self) fun y hy => hxs y (List.mem_cons_of_mem _ hy)]
    rfl

/-- The number that decimal digits stand for. -/
def decimal? (cs : List Char) : Option Nat :=
  if cs ≠ [] ∧ cs.all Char.isDigit then some (Nat.ofDigitChars 10 cs 0) else none

/-- The numbers between separators. -/
def decimals? (sep : Char) (cs : List Char) : Option (List Nat) := (pieces sep cs).mapM decimal?

/-- **A numeral** reads back. -/
theorem decimal?_numeral (n : Nat) : decimal? (toString n).toList = some n := by
  rw [Nat.toString_eq_repr, Nat.toList_repr, decimal?, if_pos, Nat.ofDigitChars_ten_toDigits]
  exact ⟨Nat.toDigits_ne_nil, List.all_eq_true.2 fun c hc => isDigit_of_mem_toDigits hc⟩

theorem decimals?_numeral {sep : Char} (h : sep.isDigit = false) (n : Nat) :
    decimals? sep (toString n).toList = some [n] := by
  rw [decimals?, pieces_of_notMem (notMem_numeral h n), List.mapM_cons, decimal?_numeral]
  rfl

/-- **A numeral in front of a separator** is the first number. -/
theorem decimals?_cons {sep : Char} (h : sep.isDigit = false) (n : Nat) {cs : List Char}
    {ns : List Nat} (hcs : decimals? sep cs = some ns) :
    decimals? sep ((toString n).toList ++ sep :: cs) = some (n :: ns) := by
  rw [decimals?] at hcs ⊢
  rw [pieces_append_cons, pieces_of_notMem (notMem_numeral h n), List.singleton_append,
    List.mapM_cons, decimal?_numeral, hcs]
  rfl

/-! ## Octets -/

namespace Utf8

/-- The octet of a newline stands for no other character. -/
theorem newline_mem_encode_iff (s : String) : (10 : UInt8) ∈ encode s ↔ '\n' ∈ s.toList :=
  mem_encode_iff s (a := '\n') (by decide)

theorem count_utf8EncodeChar (c : Char) :
    (String.utf8EncodeChar c).count 10 = [c].count '\n' := by
  by_cases hc : c = '\n'
  · subst hc
    rfl
  · have hnone : (10 : UInt8) ∉ String.utf8EncodeChar c := by
      have h := newline_mem_encode_iff (String.ofList [c])
      rw [encode_ofList, List.flatMap_singleton, String.toList_ofList, List.mem_singleton] at h
      exact mt h.1 (Ne.symm hc)
    rw [List.count_eq_zero.2 hnone, List.count_singleton, if_neg (by simpa using hc)]

/-- **A text has as many octets of newlines** as it has newlines. -/
theorem count_encode_newline (s : String) : (encode s).count 10 = s.toList.count '\n' := by
  rw [encode_eq_flatMap]
  induction s.toList with
  | nil => rfl
  | cons c cs ih =>
    rw [List.flatMap_cons, List.count_append, count_utf8EncodeChar, ih, ← List.count_append,
      List.singleton_append]

/-- **Octets are cut at the newline** behind a line. -/
theorem splitOn_encode_line {s : String} (h : '\n' ∉ s.toList) (bs : List UInt8) :
    (encode (s ++ "\n") ++ bs).splitOn 10 = encode s :: bs.splitOn 10 := by
  have henc : encode (s ++ "\n") = encode s ++ [10] := by
    rw [encode_append]
    rfl
  rw [henc, List.append_assoc, List.singleton_append]
  exact List.splitOn_append_cons_self_of_not_mem (mt (newline_mem_encode_iff s).1 h) bs

end Utf8

end PhaseSampling.Text
