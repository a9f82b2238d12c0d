import PhaseSampling.Proofs.Chunks.Simulated

/-!
# Chunks tile a run

The first chunk has a warmup of one instruction and is followed sooner than the others, so that
their measured regions fit together from the second one on.

* `ChunkConfig.begins_one`, `ChunkConfig.begins_succ`: how the region of a chunk begins where that
  of the one before it ends.
* `ChunkConfig.exists_region`: no instruction is left out.
* `chunks_tile`: **the chunks of a simulated program cover it** from the end of the lead-in to its
  own end.
-/

namespace PhaseSampling

open PhaseSampling.Flow

namespace ChunkConfig

variable {c : ChunkConfig} {p n m x length : Nat} {cp : Checkpoint}

/-- Where the measured region of a chunk begins. -/
def begins (c : ChunkConfig) (p n : Nat) : Nat := c.place p n + c.lead n

/-- The first two regions have one instruction in common. -/
theorem begins_one (hc : c.warmup < c.interval) (p : Nat) :
    c.begins p 1 + 1 = c.begins p 0 + c.interval := by
  have hplace : c.place p 1 = c.place p 0 + (c.interval - c.warmup) := place_succ hc p 0
  have hfirst : c.lead 0 = 1 := rfl
  have hsecond : c.lead 1 = c.warmup := rfl
  unfold begins
  omega

/-- **The later regions fit together.** -/
theorem begins_succ (hc : c.warmup < c.interval) (p : Nat) (hn : n ≠ 0) :
    c.begins p (n + 1) = c.begins p n + c.interval := by
  have hplace := place_succ hc p n
  rw [c.stride_succ hn] at hplace
  unfold begins
  rw [c.lead_of_ne_zero hn, c.lead_of_ne_zero (Nat.succ_ne_zero n)]
  omega

/-- **No instruction is left out** up to the end of a region. -/
theorem exists_region (hc : c.warmup < c.interval) (hx : p + 1 ≤ x)
    (hlt : x < c.begins p m + c.interval) :
    ∃ n, n ≤ m ∧ c.begins p n ≤ x ∧ x < c.begins p n + c.interval := by
  have hfirst : c.begins p 0 = p + 1 := rfl
  induction m with
  | zero => exact ⟨0, Nat.le_refl 0, by omega, hlt⟩
  | succ m ih =>
    by_cases hin : x < c.begins p m + c.interval
    · obtain ⟨n, hn, hregion⟩ := ih hin
      exact ⟨n, by omega, hregion⟩
    · refine ⟨m + 1, Nat.le_refl _, ?_, hlt⟩
      by_cases h0 : m = 0
      · subst h0
        have hone := begins_one hc p
        show c.begins p 1 ≤ x
        omega
      · rw [begins_succ hc p h0]
        omega

/-- The region of the last chunk reaches to the end of the program. -/
theorem length_le_begins (hc : c.warmup < c.interval) (hm : c.room p length = m + 1) :
    length ≤ c.begins p m + c.interval := by
  have hend : ¬ c.place p (m + 1) < length := by
    rw [← lt_room_iff hc, hm]
    exact Nat.lt_irrefl _
  have hplace := place_succ hc p m
  have hstride : c.stride (m + 1) ≤ c.interval := by
    cases m with
    | zero => exact Nat.sub_le c.interval c.warmup
    | succ m => exact Nat.le_refl _
  unfold begins
  omega

theorem length_tiling (c : ChunkConfig) (p m : Nat) : (c.tiling p m).length = m := by
  simp [tiling, tilesFrom]

theorem getElem?_tiling :
    (c.tiling p m)[n]? = some cp ↔ n < m ∧ cp = c.numbered n (c.place p n) := by
  unfold tiling tilesFrom
  rw [List.getElem?_map]
  by_cases hn : n < m
  · rw [List.getElem?_range' hn]
    simp [hn, eq_comm]
  · rw [List.getElem?_eq_none (by simpa using hn)]
    simp [hn]

theorem mem_tiling : cp ∈ c.tiling p m ↔ ∃ n, n < m ∧ cp = c.numbered n (c.place p n) := by
  rw [List.mem_iff_getElem?]
  exact exists_congr fun n => getElem?_tiling

/-- **The chunks with room cover a program** from the end of the lead-in on. -/
theorem exists_mem_tiling (hc : c.warmup < c.interval) (hx : p + 1 ≤ x) (hlt : x < length) :
    ∃ cp ∈ c.tiling p (c.room p length), cp.interval ≤ x ∧ x < cp.stop := by
  have hfirst : c.place p 0 < length := by
    show p < length
    omega
  have hpos : 0 < c.room p length := (lt_room_iff hc).2 hfirst
  obtain ⟨m, hm⟩ : ∃ m, c.room p length = m + 1 := ⟨c.room p length - 1, by omega⟩
  have hend := length_le_begins hc hm
  obtain ⟨n, hn, hregion⟩ := exists_region hc hx (Nat.lt_of_lt_of_le hlt hend)
  exact ⟨c.numbered n (c.place p n), mem_tiling.2 ⟨n, by omega, rfl⟩, hregion⟩

/-- The measured region of a chunk has the length of an interval. -/
theorem stop_numbered (c : ChunkConfig) (p n : Nat) :
    (c.numbered n (c.place p n)).interval = c.begins p n ∧
      (c.numbered n (c.place p n)).stop = c.begins p n + c.interval := ⟨rfl, rfl⟩

/-- A region does not begin far behind the end of the program. -/
theorem begins_le (hn : c.place p n < length) : c.begins p n ≤ length + c.warmup := by
  unfold begins
  by_cases h0 : n = 0
  · subst h0
    have hfirst : c.lead 0 = 1 := rfl
    omega
  · rw [c.lead_of_ne_zero h0]
    omega

end ChunkConfig

/-- **Chunks tile the run of a simulated program.** The lead-in ends at `p`, a word, and the program
ends at `length`, far enough from the largest word. The output directory has room. Then a run in
chunks ends well. It takes the snapshots with the numbers whose places lie before the end of the
program, each at its place: the first at `p`, and that with the number `n` a warmup before
`p + n * interval`. In particular it takes none if the program ends in the lead-in. The bounds of all
chunks are words. From the second chunk on, the measured regions fit together, the first two have one
instruction in common, and every instruction behind `p` that the program has is in one of them. -/
theorem chunks_tile {c : ChunkConfig} {s : Session Simulated} {length spacing p : Nat}
    (hf : s.engine.Free length spacing) (hp : s.engine.inst + c.leadIn = p)
    (hc : c.warmup < c.interval) (hword : p < Text.wordLimit)
    (hlen : length + c.interval + c.warmup + 1 < Text.wordLimit)
    (hroom : ∃ t, Stored c.outdir s.world.files (c.tiling p (c.room p length)) t) :
    ∃ cps s', runChunks Simulated.engine c s = (.ok cps, s') ∧
      (∀ n, n < cps.length ↔ (if n = 0 then p else p + n * c.interval - c.warmup) < length) ∧
      s'.engine.checkpoints.toList = s.engine.checkpoints.toList ++
        (List.range cps.length).map (fun n => (joinPath c.outdir ("cpt." ++ toString n),
          if n = 0 then p else p + n * c.interval - c.warmup)) ∧
      (length ≤ p → cps = [] ∧ s'.engine.checkpoints = s.engine.checkpoints) ∧
      (∀ (n : Nat) (cp : Checkpoint), cps[n]? = some cp → cp.name = toString n ∧
        cp.warmup = (if n = 0 then p else p + n * c.interval - c.warmup) ∧
        cp.interval = cp.warmup + (if n = 0 then 1 else c.warmup) ∧
        cp.stop = cp.interval + c.interval ∧ cp.stop < Text.wordLimit) ∧
      (∀ (n : Nat) (cp cp' : Checkpoint), n ≠ 0 → cps[n]? = some cp → cps[n + 1]? = some cp' →
        cp.stop = cp'.interval) ∧
      (∀ cp cp' : Checkpoint, cps[0]? = some cp → cps[1]? = some cp' →
        ∀ x, (cp.interval ≤ x ∧ x < cp.stop) ∧ (cp'.interval ≤ x ∧ x < cp'.stop) ↔
          x = cp'.interval) ∧
      ∀ x, p + 1 ≤ x → x < length → ∃ cp ∈ cps, cp.interval ≤ x ∧ x < cp.stop := by
  obtain ⟨files', hstored⟩ := hroom
  have hfuel : c.room p length ≤ Simulated.engine.budget s.engine := by
    have hle := ChunkConfig.room_le hc p length
    show _ ≤ 2 * (s.engine.length + s.engine.forced.length) + 4
    rw [hf.length]
    omega
  obtain ⟨s', hrun, hs'⟩ := chunks_simulated hc hp hword hlen hfuel hstored
    ⟨hf, rfl, rfl, rfl⟩
  have hlist := hs'.snapshots
  refine ⟨_, s', hrun, ?_, ?_, ?_, ?_, ?_, ?_, ?_⟩
  · intro n
    rw [ChunkConfig.length_tiling]
    exact ChunkConfig.lt_room_iff hc
  · rw [hlist, ChunkConfig.length_tiling, ChunkConfig.shots, List.range_eq_range']
    rfl
  · intro hle
    have hnone : c.room p length = 0 := if_pos hle
    rw [hnone] at hlist ⊢
    refine ⟨rfl, Array.toList_inj.1 ?_⟩
    simpa [ChunkConfig.shots] using hlist
  · intro n cp hn
    obtain ⟨hlt, rfl⟩ := ChunkConfig.getElem?_tiling.1 hn
    have hle := ChunkConfig.begins_le ((ChunkConfig.lt_room_iff hc).1 hlt)
    refine ⟨rfl, rfl, ?_, rfl, ?_⟩
    · by_cases h0 : n = 0
      · subst h0
        rfl
      · rw [if_neg h0, ← c.lead_of_ne_zero h0]
        rfl
    · rw [(c.stop_numbered p n).2]
      omega
  · intro n cp cp' h0 hn hn'
    obtain ⟨-, rfl⟩ := ChunkConfig.getElem?_tiling.1 hn
    obtain ⟨-, rfl⟩ := ChunkConfig.getElem?_tiling.1 hn'
    exact (ChunkConfig.begins_succ hc p h0).symm
  · intro cp cp' hn hn' x
    obtain ⟨-, rfl⟩ := ChunkConfig.getElem?_tiling.1 hn
    obtain ⟨-, rfl⟩ := ChunkConfig.getElem?_tiling.1 hn'
    have hone := ChunkConfig.begins_one hc p
    rw [(c.stop_numbered p 0).1, (c.stop_numbered p 0).2, (c.stop_numbered p 1).1,
      (c.stop_numbered p 1).2]
    omega
  · intro x hx hlt
    exact ChunkConfig.exists_mem_tiling hc hx hlt

/-- A program of twelve instructions that already stands at the first one. The lead-in ends at the
third, and there are three chunks, of which the last one is cut off. -/
theorem chunks_tile_three :
    ∃ cps s', runChunks Simulated.engine ⟨"/", 5, 2, 2⟩
        (.fresh { Simulated.program 12 1 [] with inst := 1 }) = (.ok cps, s') ∧
      cps.length = 3 ∧
      s'.engine.checkpoints.toList = [("/cpt.0", 3), ("/cpt.1", 6), ("/cpt.2", 11)] ∧
      ∀ x, 4 ≤ x → x < 12 → ∃ cp ∈ cps, cp.interval ≤ x ∧ x < cp.stop := by
  have hroom : ∃ t, Stored "/" (.bare []) (ChunkConfig.tiling ⟨"/", 5, 2, 2⟩ 3 3) t :=
    stored_root (c := ⟨"/", 5, 2, 2⟩) rfl (by decide +kernel)
  have hfree : ({ Simulated.program 12 1 [] with inst := 1 } : Simulated).Free 12 1 :=
    (Simulated.free_program 12 1 []).of_same rfl rfl rfl
  obtain ⟨cps, s', hrun, hlen, hsnap, -, -, -, -, hcover⟩ := chunks_tile
    (c := ⟨"/", 5, 2, 2⟩) (s := .fresh { Simulated.program 12 1 [] with inst := 1 }) (p := 3)
    hfree rfl (by decide) (by decide) (by decide) hroom
  have hthree : cps.length = 3 := by
    have h2 := hlen 2
    have h3 := hlen 3
    simp only [Nat.reduceEqDiff, if_false] at h2 h3
    omega
  refine ⟨cps, s', hrun, hthree, ?_, hcover⟩
  rw [hsnap, hthree]
  decide +kernel

end PhaseSampling
