import PhaseSampling.FrequencyVector
import PhaseSampling.Proofs.Output
import PhaseSampling.Proofs.Text.Lines
import PhaseSampling.Proofs.Vector.Numbering

/-!
# The lines of a vector writer

What one writer makes of histograms that come one after the other.

* `vectorKeys`: the blocks that have numbers, in the order in which they were seen.
* `VectorWriter.At`: a writer after some histograms. One entry more keeps it so (`At.entry`), and so
  do several (`At.entries`).
* `readVector?`: the numbers and weights of a full line.
* `vectors_number_blocks`: **numbers are dense, in first-seen order**, and histograms that are too
  heavy do not touch them.
-/

namespace PhaseSampling

open Text

/-! ## Full lines -/

/-- The blocks of the histograms that are not too heavy, in the order in which they were seen. -/
def vectorKeys (limit : Nat) (hs : List Histogram) : List String :=
  (hs.filter (·.total ≤ limit)).flatMap fun h => h.blocks.map Block.key

/-- The numbers and weights of the blocks of a histogram when some keys were seen. -/
def Histogram.vector (h : Histogram) (keys : List String) : List (Nat × Nat) :=
  h.blocks.map fun b => (rank keys b.key, min (b.count * b.length) wordMax)

/-- A line with an entry for each number and weight. -/
def vectorText (v : List (Nat × Nat)) : String :=
  "T" ++ String.join (v.map fun (n, w) => s!" :{n}:{w}") ++ "\n"

/-- Reads an entry: its number and its weight, each behind a colon. -/
def readPair? (field : List Char) : Option (Nat × Nat) :=
  match pieces ':' field with
  | [[], n, w] =>
    match decimal? n, decimal? w with
    | some n, some w => some (n, w)
    | _, _ => none
  | _ => none

/-- Reads a line: a `T` and entries, each behind a space. -/
def readVector? (line : String) : Option (List (Nat × Nat)) :=
  match closedLines line.toList with
  | some [cs] =>
    match pieces ' ' cs with
    | ['T'] :: fields => fields.mapM readPair?
    | _ => none
  | _ => none

/-- The field of an entry. -/
def entryField (x : Nat × Nat) : List Char :=
  ':' :: ((toString x.1).toList ++ ':' :: (toString x.2).toList)

theorem notMem_entryField {c : Char} (hd : c.isDigit = false) (hc : c ≠ ':') (x : Nat × Nat) :
    c ∉ entryField x := by
  have hn := notMem_numeral hd
  simp only [entryField, List.mem_cons, List.mem_append, not_or]
  exact ⟨hc, hn _, hc, hn _⟩

theorem toList_vectorText (v : List (Nat × Nat)) :
    (vectorText v).toList = ('T' :: v.flatMap fun x => ' ' :: entryField x) ++ ['\n'] := by
  have hT : "T".toList = ['T'] := rfl
  have hnewline : "\n".toList = ['\n'] := rfl
  have hopen : (toString " :").toList = [' ', ':'] := rfl
  have hcolon : (toString ":").toList = [':'] := rfl
  rw [vectorText, String.toList_append, String.toList_append, String.toList_join, hT, hnewline,
    List.flatMap_map]
  refine congrArg (fun cs => 'T' :: cs ++ ['\n']) (List.flatMap_congr fun x _ => ?_)
  simp only [String.toList_append, hopen, hcolon, List.append_assoc, List.cons_append,
    List.nil_append, entryField]

theorem readPair?_entryField (x : Nat × Nat) : readPair? (entryField x) = some x := by
  have hcolon := notMem_numeral (c := ':') (by decide)
  have hpieces : pieces ':' (entryField x) = [[], (toString x.1).toList, (toString x.2).toList] := by
    show pieces ':' ([] ++ ':' :: ((toString x.1).toList ++ ':' :: (toString x.2).toList)) = _
    rw [pieces_append_cons, pieces_append_cons, pieces_of_notMem (hcolon _),
      pieces_of_notMem (hcolon _)]
    rfl
  simp only [readPair?, hpieces, decimal?_numeral]

theorem mapM_readPair? (v : List (Nat × Nat)) : (v.map entryField).mapM readPair? = some v := by
  induction v with
  | nil => rfl
  | cons x v ih =>
    rw [List.map_cons, List.mapM_cons, readPair?_entryField, ih]
    rfl

/-- A full line is one line. -/
theorem line_vectorText (v : List (Nat × Nat)) : Line (vectorText v) := by
  refine ⟨'T' :: v.flatMap fun x => ' ' :: entryField x, ?_, toList_vectorText v⟩
  simp only [List.mem_cons, List.mem_flatMap, not_or, not_exists, not_and]
  exact ⟨by decide, fun x _ => ⟨by decide, notMem_entryField (by decide) (by decide) x⟩⟩

/-- **A full line** gives its numbers and weights back. -/
theorem readVector?_vectorText (v : List (Nat × Nat)) : readVector? (vectorText v) = some v := by
  have hclosed := closedLines_of_line (line_vectorText v)
  have hT : ' ' ∉ ['T'] := by decide
  have hpieces : pieces ' ' ('T' :: v.flatMap fun x => ' ' :: entryField x) =
      ['T'] :: v.map entryField :=
    pieces_append_flatMap hT fun x _ => notMem_entryField (by decide) (by decide) x
  rw [toList_vectorText, List.dropLast_concat] at hclosed
  simp only [readVector?, toList_vectorText, hclosed, hpieces, mapM_readPair?]

/-! ## One entry -/

variable {limit : Nat} {h : Histogram} {before hs : List Histogram} {w : VectorWriter} {o : Output}

theorem vectorKeys_append (limit : Nat) (hs hs' : List Histogram) :
    vectorKeys limit (hs ++ hs') = vectorKeys limit hs ++ vectorKeys limit hs' := by
  rw [vectorKeys, List.filter_append, List.flatMap_append]
  rfl

theorem vectorKeys_of_le (hle : h.total ≤ limit) : vectorKeys limit [h] = h.blocks.map Block.key := by
  simp [vectorKeys, hle]

theorem vectorKeys_of_lt (hlt : limit < h.total) : vectorKeys limit [h] = [] := by
  simp [vectorKeys, Nat.not_le.2 hlt]

/-- The line of a vector by a registry that has seen some keys. -/
theorem vectorLine_of_knows {r : Registry} {seen : List String} (hr : r.Knows seen) (h : Histogram) :
    (vectorLine r h).1 = vectorText (h.vector (seen ++ h.blocks.map Block.key)) ∧
      (vectorLine r h).2.Knows (seen ++ h.blocks.map Block.key) := by
  obtain ⟨hnumbers, hknows⟩ := hr.numbers (h.blocks.map Block.key)
  refine ⟨?_, hknows⟩
  have hpairs : (r.numbers (h.blocks.map Block.key)).1.zip h.blocks =
      h.blocks.map fun b => (rank (seen ++ h.blocks.map Block.key) b.key, b) := by
    rw [hnumbers, List.map_map, List.zip_eq_zipWith, List.zipWith_map_left, List.zipWith_self]
    rfl
  show "T" ++ String.join (((r.numbers (h.blocks.map Block.key)).1.zip h.blocks).map fun x =>
    s!" :{x.1}:{x.2.weight}") ++ "\n" = _
  rw [hpairs, vectorText, Histogram.vector, List.map_map, List.map_map]
  rfl

/-- The members of a list at the places that are kept. -/
def pick {α : Type} (keep : Nat → Bool) : List α → List α
  | [] => []
  | x :: xs =>
    if keep 0 then x :: pick (fun i => keep (i + 1)) xs else pick (fun i => keep (i + 1)) xs

theorem pick_map {α β : Type} (keep : Nat → Bool) (f : α → β) (xs : List α) :
    (pick keep xs).map f = pick keep (xs.map f) := by
  induction xs generalizing keep with
  | nil => rfl
  | cons x xs ih =>
    rw [List.map_cons, pick, pick]
    split
    · rw [List.map_cons, ih]
    · exact ih _

namespace VectorWriter

/-- A writer with a limit, after some histograms. -/
structure At (w : VectorWriter) (limit : Nat) (hs : List Histogram) : Prop where
  fits : ∀ h : Histogram, h.total < wordLimit → (w.fits h = true ↔ h.total ≤ limit)
  knows : w.registry.Knows (vectorKeys limit hs)

/-- The limit is exact for totals that are words. -/
theorem at_new (interval tolerance : Nat) : (new interval tolerance).At (interval * tolerance) [] where
  fits h ht := by
    have hmax : wordMax = wordLimit - 1 := rfl
    rw [VectorWriter.fits, new, decide_eq_true_iff, Nat.le_min]
    omega
  knows := Registry.knows_empty

/-- A histogram that is not too heavy has a full line. -/
theorem At.entry_of_le (hw : w.At limit before) (ht : h.total < wordLimit) (hle : h.total ≤ limit) :
    (w.entry h).1.line = vectorText (h.vector (vectorKeys limit (before ++ [h]))) ∧
      (w.entry h).1.wellFormed = true ∧ (w.entry h).2.At limit (before ++ [h]) := by
  obtain ⟨hline, hknows⟩ := vectorLine_of_knows hw.knows h
  have hfits := (hw.fits h ht).2 hle
  rw [vectorKeys_append, vectorKeys_of_le hle, ← hline, VectorWriter.entry, if_pos hfits]
  refine ⟨rfl, rfl, hw.fits, ?_⟩
  rw [vectorKeys_append, vectorKeys_of_le hle]
  exact hknows

/-- **A histogram that is too heavy** has the placeholder and leaves the writer as it was. -/
theorem At.entry_of_lt (hw : w.At limit before) (ht : h.total < wordLimit) (hlt : limit < h.total) :
    (w.entry h).1.line = placeholderLine ∧ (w.entry h).1.wellFormed = false ∧
      (w.entry h).2 = w := by
  have hfits : ¬ w.fits h = true := fun hf => Nat.not_le.2 hlt ((hw.fits h ht).1 hf)
  rw [VectorWriter.entry, if_neg hfits]
  exact ⟨rfl, rfl, rfl⟩

/-- **One entry** more. -/
theorem At.entry (hw : w.At limit before) (ht : h.total < wordLimit) :
    (w.entry h).1.wellFormed = decide (h.total ≤ limit) ∧
      (w.entry h).2.At limit (before ++ [h]) := by
  by_cases hle : h.total ≤ limit
  · obtain ⟨-, hflag, hat⟩ := hw.entry_of_le ht hle
    exact ⟨by rw [hflag, decide_eq_true hle], hat⟩
  · obtain ⟨-, hflag, hsame⟩ := hw.entry_of_lt ht (Nat.not_le.1 hle)
    refine ⟨by rw [hflag, decide_eq_false hle], ?_⟩
    rw [hsame]
    refine ⟨hw.fits, ?_⟩
    rw [vectorKeys_append, vectorKeys_of_lt (Nat.not_le.1 hle), List.append_nil]
    exact hw.knows

/-! ## Several entries -/

/-- The entries of histograms that come one after the other. -/
def entries (w : VectorWriter) : List Histogram → List VectorEntry × VectorWriter
  | [] => ([], w)
  | h :: hs => ((w.entry h).1 :: ((w.entry h).2.entries hs).1, ((w.entry h).2.entries hs).2)

/-- Emits histograms one after the other, up to the first whose line does not fit. -/
def emitAll (w : VectorWriter) (o : Output) :
    List Histogram → Except Fault (List Bool) × VectorWriter × Output
  | [] => (.ok [], w, o)
  | h :: hs =>
    match w.emit o h with
    | (.error f, w, o) => (.error f, w, o)
    | (.ok b, w, o) =>
      match w.emitAll o hs with
      | (.error f, w, o) => (.error f, w, o)
      | (.ok bs, w, o) => (.ok (b :: bs), w, o)

theorem length_entries (w : VectorWriter) (hs : List Histogram) :
    (w.entries hs).1.length = hs.length := by
  induction hs generalizing w with
  | nil => rfl
  | cons h hs ih => rw [entries, List.length_cons, List.length_cons, ih]

/-- One histogram more at the end. -/
theorem entries_concat (w : VectorWriter) (hs : List Histogram) (h : Histogram) :
    (w.entries (hs ++ [h])).1 = (w.entries hs).1 ++ [((w.entries hs).2.entry h).1] ∧
      (w.entries (hs ++ [h])).2 = ((w.entries hs).2.entry h).2 := by
  induction hs generalizing w with
  | nil => exact ⟨rfl, rfl⟩
  | cons h' hs ih =>
    obtain ⟨hentries, hwriter⟩ := ih (w.entry h').2
    rw [List.cons_append, entries, entries, hentries]
    exact ⟨rfl, hwriter⟩

/-- The entry of a histogram is made by the writer that the ones before it leave. -/
theorem getElem?_entries (w : VectorWriter) {hs : List Histogram} {i : Nat} {h : Histogram}
    (hi : hs[i]? = some h) :
    (w.entries hs).1[i]? = some ((w.entries (hs.take i)).2.entry h).1 ∧
      (w.entries (hs.take (i + 1))).2 = ((w.entries (hs.take i)).2.entry h).2 := by
  induction hs generalizing w i with
  | nil => cases hi
  | cons h' hs ih =>
    cases i with
    | zero =>
      cases hi
      exact ⟨rfl, rfl⟩
    | succ i =>
      rw [List.getElem?_cons_succ] at hi
      exact ih (w.entry h').2 hi

/-- **Several entries** more. -/
theorem At.entries (hw : w.At limit before) (ht : ∀ h ∈ hs, h.total < wordLimit) :
    (w.entries hs).1.map VectorEntry.wellFormed = hs.map (fun h => decide (h.total ≤ limit)) ∧
      (w.entries hs).2.At limit (before ++ hs) := by
  induction hs generalizing w before with
  | nil => exact ⟨rfl, by rwa [List.append_nil]⟩
  | cons h hs ih =>
    obtain ⟨hflag, hat⟩ := hw.entry (ht h List.mem_cons_self)
    obtain ⟨hflags, hall⟩ := ih hat fun h' hh' => ht h' (List.mem_cons_of_mem _ hh')
    rw [List.append_assoc, List.singleton_append] at hall
    refine ⟨?_, hall⟩
    rw [VectorWriter.entries, List.map_cons, List.map_cons, hflag, hflags]

/-- The lines of histograms that come one after the other. -/
def lines (w : VectorWriter) (hs : List Histogram) : List String :=
  (w.entries hs).1.map VectorEntry.line

theorem length_lines (w : VectorWriter) (hs : List Histogram) :
    (w.lines hs).length = hs.length := by
  rw [lines, List.length_map, length_entries]

/-- The writer when a histogram comes, and the line that it makes. -/
theorem At.getElem?_lines (hw : w.At limit []) (ht : ∀ h ∈ hs, h.total < wordLimit) {i : Nat}
    (hi : hs[i]? = some h) :
    (w.entries (hs.take i)).2.At limit (hs.take i) ∧
      (w.lines hs)[i]? = some ((w.entries (hs.take i)).2.entry h).1.line := by
  have htake : ∀ h' ∈ hs.take i, h'.total < wordLimit := fun h' hh' =>
    ht h' (List.mem_of_mem_take hh')
  refine ⟨(hw.entries htake).2, ?_⟩
  rw [lines, List.getElem?_map, (w.getElem?_entries hi).1, Option.map_some]

theorem At.getElem?_lines_of_le (hw : w.At limit []) (ht : ∀ h ∈ hs, h.total < wordLimit) {i : Nat}
    (hi : hs[i]? = some h) (hle : h.total ≤ limit) :
    (w.lines hs)[i]? = some (vectorText (h.vector (vectorKeys limit (hs.take (i + 1))))) := by
  obtain ⟨hbefore, hline⟩ := hw.getElem?_lines ht hi
  obtain ⟨htext, -⟩ := hbefore.entry_of_le (ht h (List.mem_of_getElem? hi)) hle
  rw [hline, htext, List.take_add_one, hi]
  rfl

theorem At.getElem?_lines_of_lt (hw : w.At limit []) (ht : ∀ h ∈ hs, h.total < wordLimit) {i : Nat}
    (hi : hs[i]? = some h) (hlt : limit < h.total) :
    (w.lines hs)[i]? = some placeholderLine ∧
      (w.entries (hs.take (i + 1))).2 = (w.entries (hs.take i)).2 := by
  obtain ⟨hbefore, hline⟩ := hw.getElem?_lines ht hi
  obtain ⟨htext, -, hsame⟩ := hbefore.entry_of_lt (ht h (List.mem_of_getElem? hi)) hlt
  exact ⟨by rw [hline, htext], (w.getElem?_entries hi).2.trans hsame⟩

/-- Every line is one line. -/
theorem At.line_lines (hw : w.At limit []) (ht : ∀ h ∈ hs, h.total < wordLimit) :
    ∀ line ∈ w.lines hs, Line line := by
  intro line hline
  obtain ⟨i, hi⟩ := List.getElem?_of_mem hline
  have hlt : i < hs.length := by
    rw [← w.length_lines hs]
    exact (List.getElem?_eq_some_iff.1 hi).1
  have hh := List.getElem?_eq_getElem hlt
  by_cases hle : hs[i].total ≤ limit
  · rw [hw.getElem?_lines_of_le ht hh hle] at hi
    cases hi
    exact line_vectorText _
  · rw [(hw.getElem?_lines_of_lt ht hh (Nat.not_le.1 hle)).1] at hi
    cases hi
    exact ⟨"T :1:1".toList, by decide, rfl⟩

/-- **Histograms that are too heavy can be left out**: the entries of the others stay. -/
theorem At.entries_pick (hw : w.At limit before) (ht : ∀ h ∈ hs, h.total < wordLimit)
    {keep : Nat → Bool} (hk : ∀ i h, hs[i]? = some h → keep i = false → limit < h.total) :
    w.entries (pick keep hs) = (pick keep (w.entries hs).1, (w.entries hs).2) := by
  induction hs generalizing w before keep with
  | nil => rfl
  | cons h hs ih =>
    have htail : ∀ h' ∈ hs, h'.total < wordLimit := fun h' hh' => ht h' (List.mem_cons_of_mem _ hh')
    have hkeep : ∀ i h', hs[i]? = some h' → keep (i + 1) = false → limit < h'.total :=
      fun i h' hi => hk (i + 1) h' hi
    have ih := ih (hw.entry (ht h List.mem_cons_self)).2 htail hkeep
    cases hfirst : keep 0 with
    | true => simp only [pick, VectorWriter.entries, hfirst, if_true, ih]
    | false =>
      -- the writer goes on as if the histogram had not come
      obtain ⟨-, -, hsame⟩ := hw.entry_of_lt (ht h List.mem_cons_self) (hk 0 h rfl hfirst)
      rw [hsame] at ih
      simp only [pick, VectorWriter.entries, hfirst, hsame, Bool.false_eq_true, if_false, ih]

/-- An output without a bound takes all lines. -/
theorem emitAll_of_unbounded (ho : o.capacity = none) (w : VectorWriter) (hs : List Histogram) :
    ∃ o', w.emitAll o hs =
        (.ok ((w.entries hs).1.map VectorEntry.wellFormed), (w.entries hs).2, o') ∧
      o'.toBytes = o.toBytes ++ Utf8.encode (String.join (w.lines hs)) := by
  induction hs generalizing w o with
  | nil => exact ⟨o, rfl, (List.append_nil _).symm⟩
  | cons h hs ih =>
    obtain ⟨o₁, hwrite, ho₁, hbytes₁⟩ := Output.writeText_of_unbounded ho (w.entry h).1.line
    obtain ⟨o₂, hall, hbytes₂⟩ := ih ho₁ (w.entry h).2
    refine ⟨o₂, ?_, ?_⟩
    · rw [emitAll, emit]
      simp only [hwrite, hall]
      rfl
    · rw [hbytes₂, hbytes₁, List.append_assoc, ← Utf8.encode_append, ← String.join_cons]
      rfl

end VectorWriter

/-! ## The lines -/

/-- **Numbers are dense, in first-seen order, and untouched by what is too heavy.** One writer emits
any histograms to an output without a bound.

* A histogram that is heavier than `interval * tolerance` has the placeholder and leaves the writer as
  it was. Any other has an entry for each block, in order: the rank of the block among those seen so
  far, and its weight. Such a line gives these numbers back.
* In the end, the registry numbers the blocks it has seen by their ranks, which are the numbers from 1
  to its size, each once. They are the ranks that these blocks had at any earlier time.
* Without some of the histograms that are too heavy, the others have the same lines. -/
theorem vectors_number_blocks (interval tolerance : Nat) {hs : List Histogram}
    (ht : ∀ h ∈ hs, h.total < wordLimit) {o : Output} (ho : o.capacity = none) :
    ∃ lines w o', (VectorWriter.new interval tolerance).emitAll o hs =
        (.ok (hs.map fun h => decide (h.total ≤ interval * tolerance)), w, o') ∧
      o'.toBytes = o.toBytes ++ Utf8.encode (String.join lines) ∧ lines.length = hs.length ∧
      (∀ i h, hs[i]? = some h →
        (interval * tolerance < h.total → lines[i]? = some "T :1:1\n" ∧
          ((VectorWriter.new interval tolerance).emitAll o (hs.take (i + 1))).2.1 =
            ((VectorWriter.new interval tolerance).emitAll o (hs.take i)).2.1) ∧
        (h.total ≤ interval * tolerance → ∃ line, lines[i]? = some line ∧
          line = vectorText (h.vector (vectorKeys (interval * tolerance) (hs.take (i + 1)))) ∧
          readVector? line =
            some (h.vector (vectorKeys (interval * tolerance) (hs.take (i + 1)))))) ∧
      (∀ key ∈ vectorKeys (interval * tolerance) hs, w.registry.number key =
        (rank (vectorKeys (interval * tolerance) hs) key, w.registry)) ∧
      Set.BijOn (rank (vectorKeys (interval * tolerance) hs))
        {key | key ∈ vectorKeys (interval * tolerance) hs} (Set.Icc 1 w.registry.size) ∧
      (∀ i, ∀ key ∈ vectorKeys (interval * tolerance) (hs.take i),
        rank (vectorKeys (interval * tolerance) hs) key =
          rank (vectorKeys (interval * tolerance) (hs.take i)) key) ∧
      ∀ keep : Nat → Bool,
        (∀ i h, hs[i]? = some h → keep i = false → interval * tolerance < h.total) →
        ∃ o'', (VectorWriter.new interval tolerance).emitAll o (pick keep hs) =
            (.ok ((pick keep hs).map fun h => decide (h.total ≤ interval * tolerance)), w, o'') ∧
          o''.toBytes = o.toBytes ++ Utf8.encode (String.join (pick keep lines)) := by
  have hnew := VectorWriter.at_new interval tolerance
  obtain ⟨hflags, hat⟩ := hnew.entries ht
  rw [List.nil_append] at hat
  have hemitted := VectorWriter.emitAll_of_unbounded ho (VectorWriter.new interval tolerance)
  obtain ⟨o', hemit, hbytes⟩ := hemitted hs
  refine ⟨(VectorWriter.new interval tolerance).lines hs, _, o', hflags ▸ hemit, hbytes,
    VectorWriter.length_lines _ hs, fun i h hi => ⟨fun hlt => ?_, fun hle => ?_⟩, fun key hkey => ?_,
    ?_, fun i key hkey => ?_, fun keep hk => ?_⟩
  · obtain ⟨hline, hsame⟩ := hnew.getElem?_lines_of_lt ht hi hlt
    obtain ⟨_, hafter, -⟩ := hemitted (hs.take (i + 1))
    obtain ⟨_, hbefore, -⟩ := hemitted (hs.take i)
    exact ⟨hline, by rw [hafter, hbefore, hsame]⟩
  · exact ⟨_, hnew.getElem?_lines_of_le ht hi hle, rfl, readVector?_vectorText _⟩
  · exact hat.knows.number_of_mem hkey
  · rw [hat.knows.size]
    exact rank_bijOn _
  · rw [← List.take_append_drop i hs, vectorKeys_append, List.take_append_drop]
    exact rank_append hkey _
  · obtain ⟨o'', hpick, hbytes'⟩ := hemitted (pick keep hs)
    rw [hnew.entries_pick ht hk] at hpick
    rw [VectorWriter.lines, hnew.entries_pick ht hk, pick_map] at hbytes'
    exact ⟨o'', by rw [hpick, pick_map, hflags, pick_map], hbytes'⟩

/-- Three histograms, the second too heavy: it has the placeholder, the third has the number that the
first one gave to their common block, and without the second the other two lines stay. -/
theorem vectors_number_blocks_three :
    ∃ lines : List String, lines[1]? = some "T :1:1\n" ∧ lines[2]? = some "T :2:1 :3:1\n" ∧
      ∃ w o, (VectorWriter.new 2 2).emitAll .unbounded
          [⟨[⟨"a,b", 1⟩, ⟨"c", 2⟩], 4⟩, ⟨[⟨"c", 1⟩, ⟨"d", 1⟩], 2⟩] = (.ok [true, true], w, o) ∧
        o.toBytes = Utf8.encode (String.join (pick (· ≠ 1) lines)) := by
  have ht : ∀ h ∈ [(⟨[⟨"a,b", 1⟩, ⟨"c", 2⟩], 4⟩ : Histogram), ⟨[⟨"x", 9⟩], 9⟩,
      ⟨[⟨"c", 1⟩, ⟨"d", 1⟩], 2⟩], h.total < wordLimit := by decide
  obtain ⟨lines, w, o', -, -, -, hline, -, -, -, hpick⟩ :=
    vectors_number_blocks 2 2 ht (o := .unbounded) rfl
  obtain ⟨line, hthird, rfl, -⟩ := (hline 2 _ rfl).2 (by decide)
  have htext : vectorText (Histogram.vector ⟨[⟨"c", 1⟩, ⟨"d", 1⟩], 2⟩ (vectorKeys (2 * 2)
      [⟨[⟨"a,b", 1⟩, ⟨"c", 2⟩], 4⟩, ⟨[⟨"x", 9⟩], 9⟩, ⟨[⟨"c", 1⟩, ⟨"d", 1⟩], 2⟩])) =
      "T :2:1 :3:1\n" := by decide +kernel
  have hheavy : ∀ i h, [(⟨[⟨"a,b", 1⟩, ⟨"c", 2⟩], 4⟩ : Histogram), ⟨[⟨"x", 9⟩], 9⟩,
      ⟨[⟨"c", 1⟩, ⟨"d", 1⟩], 2⟩][i]? = some h → decide (i ≠ 1) = false → 2 * 2 < h.total := by
    intro i h hi hk
    have hone : i = 1 := by simpa using hk
    subst hone
    cases hi
    decide
  obtain ⟨o'', hemit, hbytes⟩ := hpick (fun i => decide (i ≠ 1)) hheavy
  exact ⟨lines, ((hline 1 _ rfl).1 (by decide)).1, hthird.trans (congrArg some htext), w, o'', hemit,
    hbytes⟩

end PhaseSampling
