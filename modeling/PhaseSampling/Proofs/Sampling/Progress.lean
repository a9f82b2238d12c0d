import PhaseSampling.Interval
import PhaseSampling.Proofs.Replay.Timeline
import PhaseSampling.Proofs.Text.Lines

/-!
# Records in the order of a run

* `Climb`: records whose waypoints go up, with the two boundaries that the next one begins with.
* `Waypoints.read?`: the waypoints that the line of a record tells (`read?_infoLine`).
* `validate_select`: every selection of such records, in their order, is a valid list of simpoints.
-/

namespace PhaseSampling

/-- Records whose waypoints go up. -/
structure Progress (rs : List IntervalRecord) : Prop where
  ordered : ∀ r ∈ rs, r.warmup.waypoint ≤ r.begins.waypoint ∧ r.begins.waypoint ≤ r.ends.waypoint
  increasing : rs.Pairwise fun r r' => r.warmup.waypoint ≤ r'.warmup.waypoint ∧
    r.begins.waypoint < r'.begins.waypoint ∧ r.ends.waypoint ≤ r'.ends.waypoint

/-- Records whose waypoints go up, below the next one, which has its warmup from `w` on and begins at
`b`. -/
structure Climb (rs : List IntervalRecord) (w b : Boundary) : Prop where
  progress : Progress rs
  warmup : w.waypoint ≤ b.waypoint
  below : ∀ r ∈ rs, r.warmup.waypoint ≤ w.waypoint ∧ r.begins.waypoint < b.waypoint ∧
    r.ends.waypoint ≤ b.waypoint

theorem Progress.nil : Progress [] := ⟨by simp, by simp⟩

/-- One record more. -/
theorem Climb.file {rs : List IntervalRecord} {w b w' b' : Boundary} (h : Climb rs w b)
    (hw : b.waypoint < w'.waypoint) (hb : w'.waypoint ≤ b'.waypoint) (total : Nat)
    (wellFormed : Bool) : Climb (rs ++ [⟨w, b, b', total, wellFormed⟩]) w' b' := by
  have hwb := h.warmup
  refine ⟨⟨fun r hr => ?_, ?_⟩, hb, fun r hr => ?_⟩
  · rcases List.mem_append.1 hr with hr | hr
    · exact h.progress.ordered r hr
    · rw [List.mem_singleton.1 hr]
      exact ⟨hwb, by show b.waypoint ≤ b'.waypoint; omega⟩
  · rw [List.pairwise_append]
    refine ⟨h.progress.increasing, List.pairwise_singleton _ _, fun r hr r' hr' => ?_⟩
    rw [List.mem_singleton.1 hr']
    obtain ⟨h₁, h₂, h₃⟩ := h.below r hr
    exact ⟨h₁, h₂, by show r.ends.waypoint ≤ b'.waypoint; omega⟩
  · rcases List.mem_append.1 hr with hr | hr
    · obtain ⟨h₁, h₂, h₃⟩ := h.below r hr
      omega
    · rw [List.mem_singleton.1 hr]
      exact ⟨by show w.waypoint ≤ w'.waypoint; omega, by show b.waypoint < b'.waypoint; omega,
        Nat.le_refl _⟩

/-- The waypoints of a record. -/
def IntervalRecord.waypoints (r : IntervalRecord) : Waypoints :=
  ⟨r.warmup.waypoint, r.begins.waypoint, r.ends.waypoint⟩

/-- Reads a line of three numbers with single spaces between them. -/
def Waypoints.read? (line : String) : Option Waypoints :=
  match Text.closedLines line.toList with
  | some [cs] =>
    match Text.decimals? ' ' cs with
    | some [warmup, interval, stop] => some ⟨warmup, interval, stop⟩
    | _ => none
  | _ => none

/-- The line of a record is three numerals. -/
theorem toList_infoLine (r : IntervalRecord) :
    r.infoLine.toList = (toString r.warmup.waypoint).toList ++ ' ' ::
      ((toString r.begins.waypoint).toList ++ ' ' :: (toString r.ends.waypoint).toList) ++ ['\n'] := by
  have hspace : (toString " ").toList = [' '] := rfl
  have hnewline : (toString "\n").toList = ['\n'] := rfl
  rw [IntervalRecord.infoLine]
  simp only [String.toList_append, hspace, hnewline, List.append_assoc, List.cons_append,
    List.nil_append]

theorem line_infoLine (r : IntervalRecord) : Text.Line r.infoLine := by
  have hn : ∀ n, '\n' ∉ (toString n : String).toList := Text.notMem_numeral (by decide)
  refine ⟨_, ?_, toList_infoLine r⟩
  simp only [List.mem_append, List.mem_cons, not_or]
  exact ⟨hn _, by decide, hn _, by decide, hn _⟩

/-- **The line of a record** tells its waypoints. -/
theorem read?_infoLine (r : IntervalRecord) : Waypoints.read? r.infoLine = some r.waypoints := by
  have hdigit : ' '.isDigit = false := by decide
  have hread := Text.decimals?_cons hdigit r.warmup.waypoint
    (Text.decimals?_cons hdigit r.begins.waypoint
      (Text.decimals?_numeral hdigit r.ends.waypoint))
  have hclosed := Text.closedLines_of_line (line_infoLine r)
  rw [toList_infoLine, List.dropLast_concat] at hclosed
  simp only [Waypoints.read?, toList_infoLine, hclosed, hread]
  rfl

/-- The simpoints of some records with their numbers: of each its name, its weight, and whether it
keeps its number. -/
def select (kept : List (IntervalRecord × Nat)) (name : Nat → String) (weight : Nat → Binary64)
    (numbered : Nat → Bool) : List Simpoint :=
  kept.map fun (r, i) => ⟨name i, weight i, r.waypoints, if numbered i then some i else none⟩

/-- **Every selection of records is a valid list of simpoints.** -/
theorem validate_select {rs : List IntervalRecord} (hp : Progress rs)
    {kept : List (IntervalRecord × Nat)} (hk : kept.Sublist rs.zipIdx) {name : Nat → String}
    (hn : (kept.map fun x => name x.2).Nodup) (weight : Nat → Binary64) (numbered : Nat → Bool) :
    Simpoint.validate (select kept name weight numbered) = .ok () := by
  rw [Simpoint.validate_eq_ok_iff, select, List.map_map]
  refine ⟨hn, fun p hmem => ?_, List.Pairwise.isChain ?_⟩
  · obtain ⟨⟨r, i⟩, hr, rfl⟩ := List.mem_map.1 hmem
    have hr := hk.subset hr
    exact hp.ordered r (List.mem_of_getElem? (List.mem_zipIdx_iff_getElem?.1 hr))
  · have hnum := pairwise_zipIdx_snd rs
    have hinc := pairwise_zipIdx_fst hp.increasing
    rw [List.pairwise_map]
    -- two neighbours are compared by their numbers if both kept them, else by their begins
    refine ((hnum.and hinc).sublist hk).imp ?_
    rintro ⟨r, i⟩ ⟨r', j⟩ ⟨hij, -, hlt, -⟩
    cases hi : numbered i with
    | false => simpa [Simpoint.keys, IntervalRecord.waypoints, hi] using hlt
    | true =>
      cases hj : numbered j with
      | false => simpa [Simpoint.keys, IntervalRecord.waypoints, hj] using hlt
      | true => simpa [Simpoint.keys, hi, hj] using hij

end PhaseSampling
