import PhaseSampling.Proofs.Vector.Lines

/-!
# Emitting into a full output

A writer may be asked for more vectors after its output is full.

* `VectorWriter.emitEach`: one emission for each of some histograms, whatever became of the others.
* `VectorWriter.emitEach_within`: into an output that is cut off, the numbers and the first bytes are
  those of the whole output, and an emission goes well if all lines up to its own fit.
-/

namespace PhaseSampling.VectorWriter

open Text

variable {w : VectorWriter} {o : Output} {h : Histogram} {hs : List Histogram} {n : Nat}

/-- Emits histograms one after the other, and goes on after a failure. -/
def emitEach (w : VectorWriter) (o : Output) :
    List Histogram → List (Except Fault Bool) × VectorWriter × Output
  | [] => ([], w, o)
  | h :: hs =>
    let (r, w, o) := w.emit o h
    let (rs, w, o) := w.emitEach o hs
    (r :: rs, w, o)

theorem emitEach_cons (w : VectorWriter) (o : Output) (h : Histogram) (hs : List Histogram) :
    w.emitEach o (h :: hs) =
      ((w.emit o h).1 :: ((w.emit o h).2.1.emitEach (w.emit o h).2.2 hs).1,
        ((w.emit o h).2.1.emitEach (w.emit o h).2.2 hs).2) := rfl

theorem emit_eq (w : VectorWriter) (o : Output) (h : Histogram) :
    w.emit o h = ((o.writeText (w.entry h).1.line).1.map fun _ => (w.entry h).1.wellFormed,
      (w.entry h).2, (o.writeText (w.entry h).1.line).2) := by
  unfold emit
  dsimp only
  rcases o.writeText (w.entry h).1.line with ⟨_ | _, o'⟩ <;> rfl

/-- The line of an entry begins with a `T`. -/
theorem encode_line_ne_nil (w : VectorWriter) (h : Histogram) :
    Utf8.encode (w.entry h).1.line ≠ [] := by
  have hT : ∀ s : String, Utf8.encode ("T" ++ s) ≠ [] := by
    intro s
    rw [Utf8.encode_append]
    exact List.append_ne_nil_of_left_ne_nil (by decide) _
  rw [entry]
  split
  · show Utf8.encode (("T" ++ _) ++ "\n") ≠ []
    rw [String.append_assoc]
    exact hT _
  · exact hT " :1:1\n"

theorem emitEach_append (w : VectorWriter) (o : Output) (hs hs' : List Histogram) :
    (w.emitEach o (hs ++ hs')).2 =
      ((w.emitEach o hs).2.1.emitEach (w.emitEach o hs).2.2 hs').2 := by
  induction hs generalizing w o with
  | nil => rfl
  | cons h hs ih =>
    rw [List.cons_append, emitEach_cons, emitEach_cons]
    exact ih _ _

/-- **One emission** into an output without a bound, and into the same output cut off. -/
theorem emit_within (ho : o.capacity = none) (n : Nat) (w : VectorWriter) (h : Histogram) :
    ∃ o', o'.capacity = none ∧ o'.toBytes = o.toBytes ++ Utf8.encode (w.entry h).1.line ∧
      w.emit o h = (.ok (w.entry h).1.wellFormed, (w.entry h).2, o') ∧
      w.emit (o.within n) h = (if o'.toBytes.length ≤ n then .ok (w.entry h).1.wellFormed
        else .error (.system .outputFull), (w.entry h).2, o'.within n) := by
  obtain ⟨o', hwrite, ho', hbytes⟩ := Output.writeText_of_unbounded ho (w.entry h).1.line
  refine ⟨o', ho', hbytes, ?_, ?_⟩
  · rw [emit_eq, hwrite]
    rfl
  · rw [emit_eq, Output.writeText_within ho n (encode_line_ne_nil w h), hwrite, ← hbytes]
    split <;> rfl

/-- **Several emissions** into an output without a bound. -/
theorem emitEach_of_unbounded (ho : o.capacity = none) (w : VectorWriter) (hs : List Histogram) :
    ∃ o', w.emitEach o hs =
        ((w.entries hs).1.map fun x => .ok x.wellFormed, (w.entries hs).2, o') ∧
      o'.capacity = none ∧ o'.toBytes = o.toBytes ++ Utf8.encode (String.join (w.lines hs)) := by
  induction hs generalizing w o with
  | nil => exact ⟨o, rfl, ho, (List.append_nil _).symm⟩
  | cons h hs ih =>
    obtain ⟨o₁, ho₁, hbytes₁, hemit, -⟩ := emit_within ho 0 w h
    obtain ⟨o₂, hall, ho₂, hbytes₂⟩ := ih ho₁ (w.entry h).2
    refine ⟨o₂, ?_, ho₂, ?_⟩
    · rw [emitEach_cons, hemit, hall]
      rfl
    · rw [hbytes₂, hbytes₁, List.append_assoc, ← Utf8.encode_append, ← String.join_cons]
      rfl

/-- **Several emissions** into an output that is cut off: the writer goes on as if it were not, and
every emission goes well that has all its bytes below the bound. -/
theorem emitEach_within (ho : o.capacity = none) (n : Nat) (w : VectorWriter) (hs : List Histogram) :
    (w.emitEach (o.within n) hs).2 =
        ((w.emitEach o hs).2.1, (w.emitEach o hs).2.2.within n) ∧
      (w.emitEach (o.within n) hs).1.length = hs.length ∧
      ∀ i r, (w.emitEach o hs).1[i]? = some r →
        (w.emitEach (o.within n) hs).1[i]? = some
          (if (w.emitEach o (hs.take (i + 1))).2.2.toBytes.length ≤ n then r
            else .error (.system .outputFull)) := by
  induction hs generalizing w o with
  | nil => exact ⟨rfl, rfl, fun i r hr => by simp [emitEach] at hr⟩
  | cons h hs ih =>
    obtain ⟨o', ho', -, hemit, hcut⟩ := emit_within ho n w h
    obtain ⟨hrest, hlength, hresults⟩ := ih ho' (w.entry h).2
    simp only [emitEach_cons, hemit, hcut]
    refine ⟨hrest, by rw [List.length_cons, hlength, List.length_cons], fun i r hr => ?_⟩
    cases i with
    | zero =>
      cases hr
      show some _ = some _
      simp only [List.take_succ_cons, List.take_zero, emitEach, hemit]
    | succ i =>
      rw [List.getElem?_cons_succ] at hr
      rw [List.getElem?_cons_succ, hresults i r hr, List.take_succ_cons, emitEach_cons, hemit]

/-- What a writer emits into an output without a bound begins with what it emits for the first
histograms. -/
theorem emitEach_take_isPrefix (ho : o.capacity = none) (w : VectorWriter) (hs : List Histogram)
    (i : Nat) : (w.emitEach o (hs.take i)).2.2.toBytes <+: (w.emitEach o hs).2.2.toBytes := by
  obtain ⟨o₁, h₁, ho₁, -⟩ := emitEach_of_unbounded ho w (hs.take i)
  obtain ⟨o₂, h₂, -, hbytes⟩ := emitEach_of_unbounded ho₁ (w.entries (hs.take i)).2 (hs.drop i)
  have happend := emitEach_append w o (hs.take i) (hs.drop i)
  rw [List.take_append_drop, h₁, h₂] at happend
  rw [h₁, happend]
  exact ⟨_, hbytes.symm⟩

/-- What a writer emits into `n` bytes, beside what it emits with room for everything. -/
structure CutEmissions (w : VectorWriter) (n : Nat) (hs : List Histogram) : Prop where
  /-- The numbers of the blocks are the same. -/
  writer : (w.emitEach (.bounded n) hs).2.1 = (w.emitEach .unbounded hs).2.1
  bytes : (w.emitEach (.bounded n) hs).2.2.toBytes = (w.emitEach .unbounded hs).2.2.toBytes.take n
  length : (w.emitEach (.bounded n) hs).1.length = hs.length
  /-- An emission goes well if all lines up to its own fit. -/
  results : ∀ (i : Nat) (h : Histogram), hs[i]? = some h → ∃ wellFormed,
    (w.emitEach .unbounded hs).1[i]? = some (Except.ok wellFormed) ∧
      (w.emitEach (.bounded n) hs).1[i]? = some
        (if (w.emitEach .unbounded (hs.take (i + 1))).2.2.toBytes.length ≤ n then .ok wellFormed
          else .error (.system .outputFull))
  /-- Behind one that failed nothing is written. -/
  silent : ∀ i f, (w.emitEach (.bounded n) hs).1[i]? = some (.error f) →
    (w.emitEach (.bounded n) (hs.take (i + 1))).2.2 = (w.emitEach (.bounded n) hs).2.2

theorem cutEmissions (w : VectorWriter) (n : Nat) (hs : List Histogram) : w.CutEmissions n hs := by
  have ho : Output.unbounded.capacity = none := rfl
  obtain ⟨hsame, hlength, hcut⟩ := emitEach_within ho n w hs
  have hsame' := fun i => (emitEach_within ho n w (hs.take i)).1
  rw [Output.unbounded_within] at hsame hlength hcut
  simp only [Output.unbounded_within] at hsame'
  have hresults : ∀ (i : Nat) (h : Histogram), hs[i]? = some h → ∃ wellFormed,
      (w.emitEach .unbounded hs).1[i]? = some (Except.ok wellFormed) := by
    intro i h hi
    obtain ⟨o, hwhole, -⟩ := emitEach_of_unbounded ho w hs
    rw [hwhole, List.getElem?_map, (w.getElem?_entries hi).1]
    exact ⟨_, rfl⟩
  refine ⟨by rw [hsame], by rw [hsame]; rfl, hlength, fun i h hi => ?_, fun i f hf => ?_⟩
  · obtain ⟨wellFormed, hok⟩ := hresults i h hi
    exact ⟨wellFormed, hok, hcut i _ hok⟩
  · have hlt : i < hs.length := hlength ▸ (List.getElem?_eq_some_iff.1 hf).1
    obtain ⟨wellFormed, hok⟩ := hresults i _ (List.getElem?_eq_getElem hlt)
    rw [hcut i _ hok] at hf
    -- it failed, so that the output was full behind it
    have hfull : n ≤ (w.emitEach .unbounded (hs.take (i + 1))).2.2.toBytes.length := by
      by_contra hroom
      rw [if_pos (by omega)] at hf
      cases hf
    rw [hsame, hsame']
    exact (Output.within_eq_of_isPrefix (emitEach_take_isPrefix ho w hs (i + 1)) hfull).symm

end PhaseSampling.VectorWriter
