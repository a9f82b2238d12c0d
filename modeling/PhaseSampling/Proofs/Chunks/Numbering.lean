import PhaseSampling.Proofs.Checkpoint.Anchors
import PhaseSampling.Proofs.Checkpoint.Labels
import PhaseSampling.Proofs.Chunks.Simulated
import PhaseSampling.Proofs.Sampling.Steady

/-!
# The numbers of chunks

The chunks of a run are numbered from zero, as they are taken. The number is the name of a chunk, so
it is in the path of its snapshot and in its long name.

* `ChunkConfig.Row.split`: the place of a chunk in the log.
* `chunks_anchored`: a run in chunks leaves its checkpoints anchored, over any engine that takes
  nothing away from the file tree.
* `chunks_numbered`: **numbers, snapshots and links agree**, over any such engine.
-/

namespace PhaseSampling

open PhaseSampling.Flow

def Call.isSnapshot : Call → Bool
  | .checkpoint _ => true
  | _ => false

/-! ## Rows -/

namespace ChunkConfig

variable {c : ChunkConfig} {cps : List Checkpoint} {l : List Exchange} {n : Nat}
  {cp cp' : Checkpoint}

/-- The snapshots of a row have its numbers. -/
theorem Row.snapshots (h : c.Row cps l) :
    l.filter (·.call.isSnapshot) =
      (List.range cps.length).map fun n => ⟨.checkpoint (c.snapshotPath n), some ()⟩ := by
  induction h with
  | nil => rfl
  | @snoc cps l h k inst ih =>
    rw [List.filter_append, ih, List.length_append, List.length_singleton, List.range_succ,
      List.map_append]
    rfl

/-- **The place of a chunk in the log**: behind the chunks before it, the run to its snapshot, the
snapshot, and the count that is its warmup. -/
theorem Row.split (h : c.Row cps l) (hn : cps[n]? = some cp) :
    cp = c.numbered n cp.warmup ∧ ∃ l₀ k l₁, c.Row (cps.take n) l₀ ∧
      l = l₀ ++ (c.run n k .breakpoint ++ c.snap n cp.warmup) ++ l₁ := by
  induction h with
  | nil => simp at hn
  | @snoc cps l h k inst ih =>
    rcases Nat.lt_or_ge n cps.length with hlt | hge
    -- an older chunk: the newest one comes behind it
    · rw [List.getElem?_append_left hlt] at hn
      obtain ⟨hcp, l₀, k₀, l₁, hrow, rfl⟩ := ih hn
      refine ⟨hcp, l₀, k₀, l₁ ++ (c.run cps.length k .breakpoint ++ c.snap cps.length inst), ?_, ?_⟩
      · rwa [List.take_append_of_le_length (Nat.le_of_lt hlt)]
      · simp only [List.append_assoc]
    · have hlen := (List.getElem?_eq_some_iff.1 hn).1
      have hn' : n = cps.length := by
        rw [List.length_append, List.length_singleton] at hlen
        omega
      subst hn'
      rw [List.getElem?_concat_length] at hn
      cases hn
      refine ⟨rfl, l, k, [], ?_, ?_⟩
      · rwa [List.take_left]
      · rw [List.append_nil]
        rfl

theorem Row.snap_infix (h : c.Row cps l) (hn : cps[n]? = some cp) : c.snap n cp.warmup <:+: l := by
  obtain ⟨-, l₀, k, l₁, -, rfl⟩ := h.split hn
  exact ⟨l₀ ++ c.run n k .breakpoint, l₁, by simp only [List.append_assoc]⟩

/-- **The long names of a row are different**, since the numbers are in them. -/
theorem Row.long_nodup (h : c.Row cps l) : (cps.map Checkpoint.long).Nodup := by
  rw [List.Nodup, List.pairwise_map, List.pairwise_iff_getElem]
  intro i j hi hj hij he
  obtain ⟨hcpi, -⟩ := h.split (List.getElem?_eq_getElem hi)
  obtain ⟨hcpj, -⟩ := h.split (List.getElem?_eq_getElem hj)
  have hweight : '_' ∉ "0".toList := by decide
  rw [hcpi, hcpj] at he
  have hname := ((longName_inj_iff hweight hweight).1 he).1
  have heq : i = j := numeral_injective hname
  omega

/-- **A chunk lies a stride behind the one before it**, where the counts go forward. -/
theorem Row.stride_le (h : c.Row cps l) (hs : Steady l) (hn : cps[n]? = some cp)
    (hn' : cps[n + 1]? = some cp') : cp.warmup + c.stride (n + 1) ≤ cp'.warmup := by
  obtain ⟨-, l₀, k, l₁, hrow, rfl⟩ := h.split hn'
  have hlast : (cps.take (n + 1))[n]? = some cp := by
    rw [List.getElem?_take_of_lt (Nat.lt_succ_self n)]
    exact hn
  -- the chunk before it was read off in front of the run to it
  have hread : (⟨.count .inst, some cp.warmup⟩ : Exchange) ∈ l₀ :=
    (hrow.snap_infix hlast).subset (by simp [snap])
  have hfrom : cp.warmup ≤ k :=
    hs.left.le hread rfl (List.mem_append_left _ (List.mem_cons_self ..))
  have hto : k + c.stride (n + 1) ≤ cp'.warmup :=
    hs.left.right.le (x := ⟨.advance .inst (k + c.stride (n + 1)), some .breakpoint⟩)
      (by simp [run]) rfl (by simp [snap])
  omega

end ChunkConfig

/-! ## Runs -/

section Runs

variable {σ : Type} {e : Engine σ} {c : ChunkConfig}

theorem onlyAdds_runFor (he : e.OnlyAdds) (counter : Counter) (n : Nat) :
    Flow.OnlyAdds e (runFor counter n) := by
  unfold runFor
  refine (onlyAdds_call he _).bind fun k => ?_
  split
  · refine (onlyAdds_call he _).bind fun cause => ?_
    cases cause with
    | breakpoint => exact .pure true
    | completed => exact .pure false
    | other text => exact .fail _
  · exact .fail _

theorem ensures_takeCheckpoint (he : e.OnlyAdds) {cps : List Checkpoint} {s : Session σ}
    (index warmup : Nat) (h : Anchored c.outdir cps s.world.files) :
    Ensures e (takeCheckpoint c index warmup) s fun cp s' =>
      Anchored c.outdir (cps ++ [cp]) s'.world.files := by
  unfold takeCheckpoint
  refine (onlyAdds_call he _ s).bind fun _ s₁ h₁ => ?_
  refine (onlyAdds_say _ _ s₁).bind fun _ s₂ h₂ => ?_
  refine (onlyAdds_call he _ s₂).bind fun inst s₃ h₃ => ?_
  refine (ensures_link _ _ _ s₃).bind fun path s₄ h₄ => .pure ?_
  have hzero : '/' ∉ "0".toList := by decide
  have hsingle : Single (c.checkpoint index warmup inst).long :=
    single_longName (plain_numeral index).1 hzero
  exact (h.grown ((h₃.trans h₂).trans h₁)).concat hsingle h₄

theorem ensures_chunksFrom (he : e.OnlyAdds) {taken : Array Checkpoint} {s : Session σ}
    (fuel : Nat) (running : Bool) (h : Anchored c.outdir taken.toList s.world.files) :
    Ensures e (chunksFrom c fuel taken running) s fun cps s' =>
      Anchored c.outdir cps.toList s'.world.files := by
  induction fuel generalizing taken running s with
  | zero =>
    cases running with
    | false => exact .pure h
    | true => exact .fail
  | succ fuel ih =>
    cases running with
    | false => exact .pure h
    | true =>
      unfold chunksFrom
      refine (ensures_takeCheckpoint he _ _ h).bind fun cp s₁ h₁ => ?_
      refine (onlyAdds_runFor he _ _ s₁).bind fun running s₂ h₂ => ?_
      refine ih running ?_
      rw [Array.toList_push]
      exact h₁.grown h₂

/-- **A run in chunks leaves its checkpoints anchored.** -/
theorem chunks_anchored (he : e.OnlyAdds) (fuel : Nat) (s : Session σ) :
    Ensures e (chunks c fuel) s fun cps s' => Anchored c.outdir cps s'.world.files := by
  unfold chunks
  refine .ofExcept_bind fun _ _ => ?_
  refine (onlyAdds_runFor he _ _ s).bind fun running s₁ h₁ => ?_
  cases running with
  | false =>
    refine (onlyAdds_say _ _ s₁).bind fun _ s₂ h₂ => ?_
    exact .pure (.nil _ _)
  | true =>
    refine (ensures_takeCheckpoint he 0 1 (.nil _ _)).bind fun first s₂ h₂ => ?_
    refine (onlyAdds_runFor he _ _ s₂).bind fun running s₃ h₃ => ?_
    refine (ensures_chunksFrom he fuel running (h₂.grown h₃)).bind fun taken s₄ h₄ => ?_
    refine (onlyAdds_say _ _ s₄).bind fun _ s₅ h₅ => ?_
    exact .pure (h₄.grown h₅)

/-- **Numbers, snapshots and links agree.** Over any engine that takes nothing away from the file
tree, a run in chunks that ends well has asked for the snapshots `cpt.0`, `cpt.1` and so on in the
output directory, each once and in this order, one for every checkpoint. The checkpoint with a
number has it as its name, and as its warmup the count answered right after its snapshot. The long
names are different, and each is that of a link to the checkpoint's own snapshot, whatever the file
tree held before. If the counters of the engine go forward, and its breakpoints are reached, then
every chunk begins an interval behind the one before it at least; the second one, an interval less a
warmup. -/
theorem chunks_numbered {fuel : Nat} {s s' : Session σ} {cps : List Checkpoint} (he : e.OnlyAdds)
    (h : (chunks c fuel).run e s = (.ok cps, s')) :
    ∃ l, s'.trace.toList = s.trace.toList ++ l ∧
      l.filter (·.call.isSnapshot) = (List.range cps.length).map (fun n =>
        ⟨.checkpoint (joinPath c.outdir ("cpt." ++ toString n)), some ()⟩) ∧
      (∀ (n : Nat) (cp : Checkpoint), cps[n]? = some cp → cp.name = toString n ∧
        cp.short = "cpt." ++ toString n ∧
        [⟨.checkpoint (joinPath c.outdir cp.short), some ()⟩, ⟨.count .inst, some cp.warmup⟩]
          <:+: l) ∧
      (cps.map Checkpoint.long).Nodup ∧
      (∀ cp ∈ cps, s'.world.files.LinksTo (joinPath c.outdir cp.long) cp.short) ∧
      (e.Steady s.engine → ∀ (n : Nat) (cp cp' : Checkpoint), cps[n]? = some cp →
        cps[n + 1]? = some cp' →
        cp.warmup + (if n = 0 then c.interval - c.warmup else c.interval) ≤ cp'.warmup) := by
  obtain ⟨d, hcourse, htrace, hgives⟩ := exists_course_of_ok h
  obtain ⟨l, k, hrow, hd⟩ := course_chunks hcourse
  have hlong := hrow.long_nodup
  have hanchored : Anchored c.outdir cps s'.world.files := chunks_anchored he fuel s cps s' h
  refine ⟨exchanges d, htrace, ?_, fun n cp hn => ?_, hlong, fun cp hcp => ?_,
    fun hsteady n cp cp' hn hn' => ?_⟩
  · rw [hd, List.filter_append, hrow.snapshots]
    exact List.append_nil _
  · obtain ⟨hcp, -⟩ := hrow.split hn
    have hinfix : c.snap n cp.warmup <:+: exchanges d := by
      rw [hd]
      exact (hrow.snap_infix hn).trans (List.prefix_append l _).isInfix
    have hshort : cp.short = "cpt." ++ toString n := by rw [hcp]; rfl
    refine ⟨by rw [hcp]; rfl, hshort, ?_⟩
    rw [hshort]
    exact hinfix
  · exact hanchored.linksTo hlong hcp
  · have hs := hsteady _ _ hgives
    rw [hd] at hs
    have hle := hrow.stride_le hs.left hn hn'
    by_cases h0 : n = 0
    · subst h0
      exact hle
    · rw [if_neg h0]
      rwa [c.stride_succ h0] at hle

/-- Three chunks of a program of twelve instructions. -/
theorem chunks_numbered_three :
    ∃ cps s', (chunks ⟨"/", 5, 2, 3⟩ 9).run Simulated.engine
        (.fresh (.program 12 1 [])) = (.ok cps, s') ∧
      cps.map (fun cp => (cp.name, cp.short, cp.warmup)) =
        [("0", "cpt.0", 3), ("1", "cpt.1", 6), ("2", "cpt.2", 11)] ∧
      (cps.map Checkpoint.long).Nodup ∧
      (∀ cp ∈ cps, s'.world.files.LinksTo (joinPath "/" cp.long) cp.short) ∧
      (3 + (5 - 2) ≤ 6 ∧ 6 + 5 ≤ 11) := by
  obtain ⟨s', hrun⟩ := chunks_root (c := ⟨"/", 5, 2, 3⟩) 12 rfl (by decide) (by decide) (by decide)
    (by decide : _ ≤ 9) (by decide +kernel)
  obtain ⟨l, -, -, -, hlong, hlinks, hsteady⟩ := chunks_numbered Simulated.onlyAdds hrun
  have hforward : Simulated.engine.Steady (Simulated.program 12 1 []) :=
    Simulated.steady (by decide) (Simulated.free_program 12 1 []) (Nat.zero_le _)
  have hup := hsteady hforward
  exact ⟨_, s', hrun, by decide +kernel, hlong, hlinks, hup 0 _ _ rfl rfl, hup 1 _ _ rfl rfl⟩

end Runs

end PhaseSampling
