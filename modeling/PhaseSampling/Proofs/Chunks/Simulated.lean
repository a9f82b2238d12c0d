import PhaseSampling.Proofs.Checkpoint.Shelf
import PhaseSampling.Proofs.Chunks.Rows
import PhaseSampling.Proofs.Engine.Simulated

/-!
# Chunks of a simulated program

The breakpoints of a simulated program land where they are set. So a run in chunks takes its
snapshots at places that are known beforehand, as many as lie before the end of the program.

* `ChunkConfig.place`: where the snapshot of a chunk is taken.
* `ChunkConfig.tiling`: the checkpoints of the first so many chunks.
* `Stored`: snapshots and links are put into a directory one after the other. One that was empty has
  room for them (`stored_tilesFrom`, `stored_root`).
* `chunks_simulated`: the run. `chunks_root`: the same into the root of an empty tree.
-/

namespace PhaseSampling

open PhaseSampling.Flow

/-! ## Places -/

namespace ChunkConfig

/-- Where the snapshot of a chunk is taken, if the lead-in ends at `p`. -/
def place (c : ChunkConfig) (p n : Nat) : Nat :=
  if n = 0 then p else p + n * c.interval - c.warmup

/-- How many chunks have their place before the end of a program. -/
def room (c : ChunkConfig) (p length : Nat) : Nat :=
  if length ≤ p then 0 else (length - p + c.warmup - 1) / c.interval + 1

variable {c : ChunkConfig} {p length n : Nat}

theorem place_succ (hc : c.warmup < c.interval) (p n : Nat) :
    c.place p (n + 1) = c.place p n + c.stride (n + 1) := by
  unfold place
  by_cases h0 : n = 0
  · subst h0
    have hstride : c.stride (0 + 1) = c.interval - c.warmup := rfl
    rw [if_pos rfl, if_neg (by omega), hstride, Nat.zero_add, Nat.one_mul]
    omega
  · have hle : 1 * c.interval ≤ n * c.interval := Nat.mul_le_mul_right _ (by omega)
    have hmul : (n + 1) * c.interval = n * c.interval + c.interval := Nat.succ_mul n c.interval
    rw [if_neg h0, if_neg (by omega), c.stride_succ h0, hmul]
    omega

/-- **The chunks with room** are those that begin before the end of the program. -/
theorem lt_room_iff (hc : c.warmup < c.interval) : n < c.room p length ↔ c.place p n < length := by
  unfold room place
  by_cases hp : length ≤ p
  · rw [if_pos hp]
    by_cases h0 : n = 0
    · rw [if_pos h0]
      omega
    · have hle : 1 * c.interval ≤ n * c.interval := Nat.mul_le_mul_right _ (by omega)
      rw [if_neg h0]
      omega
  · rw [if_neg hp, Nat.lt_succ_iff, Nat.le_div_iff_mul_le (by omega)]
    by_cases h0 : n = 0
    · subst h0
      rw [if_pos rfl, Nat.zero_mul]
      omega
    · have hle : 1 * c.interval ≤ n * c.interval := Nat.mul_le_mul_right _ (by omega)
      rw [if_neg h0]
      omega

theorem room_le (hc : c.warmup < c.interval) (p length : Nat) : c.room p length ≤ length := by
  -- a chunk lies before the end, and a step at least behind the one before it
  have hstep : ∀ n, n ≤ c.place p n := by
    intro n
    induction n with
    | zero => exact Nat.zero_le _
    | succ n ih =>
      have hpos : 1 ≤ c.stride (n + 1) := by
        cases n with
        | zero => show 1 ≤ c.interval - c.warmup; omega
        | succ n => show 1 ≤ c.interval; omega
      rw [place_succ hc]
      omega
  rcases Nat.lt_or_ge length (c.room p length) with hlt | hge
  · have hplace := (lt_room_iff hc).1 hlt
    have hle := hstep length
    omega
  · exact hge

/-- The checkpoints of `m` chunks from the number `n` on. -/
def tilesFrom (c : ChunkConfig) (p n m : Nat) : List Checkpoint :=
  (List.range' n m).map fun k => c.numbered k (c.place p k)

/-- The checkpoints of the first chunks. -/
def tiling (c : ChunkConfig) (p m : Nat) : List Checkpoint := c.tilesFrom p 0 m

/-- The snapshots of chunks, with the instructions at which they are taken. -/
def shots (c : ChunkConfig) (p n m : Nat) : List (String × Nat) :=
  (List.range' n m).map fun k => (c.snapshotPath k, c.place p k)

theorem tilesFrom_succ (c : ChunkConfig) (p n m : Nat) :
    c.tilesFrom p n (m + 1) = c.numbered n (c.place p n) :: c.tilesFrom p (n + 1) m := by
  unfold tilesFrom
  rw [List.range'_succ, List.map_cons]

theorem shots_succ (c : ChunkConfig) (p n m : Nat) :
    c.shots p n (m + 1) = (c.snapshotPath n, c.place p n) :: c.shots p (n + 1) m := by
  unfold shots
  rw [List.range'_succ, List.map_cons]

end ChunkConfig

/-! ## Room in a directory -/

/-- The snapshots of checkpoints and the links to them can be put into a directory one after the
other, and change one file tree to another. -/
inductive Stored (outdir : String) : FileTree → List Checkpoint → FileTree → Prop where
  | nil (t : FileTree) : Stored outdir t [] t
  | cons {t t₁ t₂ t' : FileTree} {cp : Checkpoint} {cps : List Checkpoint}
      (hm : t.makeDirs (joinPath outdir cp.short) = (.ok (), t₁))
      (hl : t₁.relink cp.short (joinPath outdir cp.long) = (.ok (), t₂))
      (h : Stored outdir t₂ cps t') : Stored outdir t (cp :: cps) t'

/-- **A directory that was empty has room**, if the names are not too long. -/
theorem stored_tilesFrom {c : ChunkConfig} {t₀ t : FileTree} {d : Place} {p n m : Nat}
    (hd : t₀.Opens c.outdir d) (he : ∀ name, t₀.get? (d ++ [name]) = none) (ht : Shelf t₀ d t)
    (hsmall : ∀ cp ∈ c.tilesFrom p n m, Small c.outdir cp.short ∧ Small c.outdir cp.long) :
    ∃ t', Stored c.outdir t (c.tilesFrom p n m) t' := by
  induction m generalizing n t with
  | zero => exact ⟨t, .nil t⟩
  | succ m ih =>
    rw [ChunkConfig.tilesFrom_succ] at hsmall ⊢
    obtain ⟨hshort, hlong⟩ := hsmall _ (List.mem_cons_self ..)
    have hname : Plain (toString n) := plain_numeral n
    have hapart : ¬ Linked (shortName (toString n)) := by
      rw [linked_shortName_iff]
      exact not_simpoint_prefix_numeral n
    have hweight : Plain "0" := by simp [Plain]
    have hfit := fits_shortName hd.fault hname hshort
    have hfit' := fits_longName hd.fault hname hweight hlong
    have htarget := pathFault?_shortName hname hshort.1
    obtain ⟨t₁, hm, ht₁⟩ := ht.snapshot he hd hfit hapart
    obtain ⟨t₂, hl, ht₂⟩ := ht₁.link he hd hfit' (linked_longName ..) htarget
    obtain ⟨t', hstored⟩ := ih ht₂ fun cp hcp => hsmall cp (List.mem_cons_of_mem _ hcp)
    exact ⟨t', .cons hm hl hstored⟩

/-- The root of an empty tree has room for names of the usual length. -/
theorem stored_root {c : ChunkConfig} {p m : Nat} (hc : c.outdir = "/")
    (hsize : ∀ cp ∈ c.tiling p m, cp.short.utf8ByteSize ≤ maxName ∧
      cp.long.utf8ByteSize ≤ maxName) :
    ∃ t, Stored c.outdir (.bare []) (c.tiling p m) t := by
  have hopens : (FileTree.bare []).Opens c.outdir [] := by
    rw [hc]
    exact FileTree.opens_root _
  have hempty := FileTree.get?_bare_root
  refine stored_tilesFrom hopens hempty (.of_empty hempty) fun cp hcp => ?_
  obtain ⟨hshort, hlong⟩ := hsize cp hcp
  rw [hc]
  exact ⟨small_root hshort, small_root hlong⟩

/-! ## Runs -/

section Runs

variable {c : ChunkConfig} {s : Session Simulated} {length spacing inst p n m : Nat}
  {snapshots : List (String × Nat)} {files files' : FileTree}

theorem runFor_simulated (hs : s.Stands length spacing inst snapshots files)
    (hn : inst + n < Text.wordLimit) :
    Yields Simulated.engine (runFor .inst n) s (decide (inst + n < length))
      (·.Stands length spacing (min (inst + n) length) snapshots files) := by
  have hi := hs.inst
  subst hi
  by_cases hlt : s.engine.inst + n < length
  · rw [decide_eq_true hlt, Nat.min_eq_left (Nat.le_of_lt hlt)]
    exact (hs.free.runs_insts hn hlt).imp fun s' hm => hs.moved hm
  · rw [decide_eq_false hlt, Nat.min_eq_right (Nat.not_lt.1 hlt)]
    exact (hs.free.runs_insts_out hn (Nat.not_lt.1 hlt)).imp fun s' hm => hs.moved hm

theorem takeCheckpoint_simulated (hs : s.Stands length spacing inst snapshots files)
    {t : FileTree} (hm : files.makeDirs (c.snapshotPath n) = (.ok (), t))
    (hl : t.relink (shortName (toString n)) (joinPath c.outdir (c.numbered n inst).long) =
      (.ok (), files')) :
    Yields Simulated.engine (takeCheckpoint c n (c.lead n)) s (c.numbered n inst)
      (·.Stands length spacing inst (snapshots ++ [(c.snapshotPath n, inst)]) files') := by
  unfold takeCheckpoint
  refine (hs.checkpoint hm).bind fun s hs => ?_
  refine (hs.say _ _).bind fun s hs => ?_
  refine hs.count.bind fun s hs => ?_
  exact (hs.link hl).bind fun s hs => .pure hs

/-- **The loop takes the chunks that are left**, when it comes to the place of the next one. -/
theorem chunksFrom_simulated (hc : c.warmup < c.interval)
    (hlen : length + c.interval + c.warmup + 1 < Text.wordLimit) {fuel : Nat} (hfuel : m ≤ fuel)
    {taken : Array Checkpoint} (htaken : taken.size = n) (h0 : n ≠ 0)
    (hleft : ∀ k, n ≤ k → (k < n + m ↔ c.place p k < length))
    (hstored : Stored c.outdir files (c.tilesFrom p n m) files')
    (hs : s.Stands length spacing (min (c.place p n) length) snapshots files) :
    Yields Simulated.engine (chunksFrom c fuel taken (decide (c.place p n < length))) s
      (taken ++ (c.tilesFrom p n m).toArray)
      (·.Stands length spacing length (snapshots ++ c.shots p n m) files') := by
  -- by induction on the number of chunks that are left
  induction m generalizing n fuel taken s snapshots files with
  | zero =>
    have hend : ¬ c.place p n < length :=
      fun hlt => Nat.lt_irrefl n ((hleft n (Nat.le_refl n)).2 hlt)
    cases hstored
    rw [decide_eq_false hend]
    rw [Nat.min_eq_right (Nat.not_lt.1 hend)] at hs
    have hempty : taken ++ (c.tilesFrom p n 0).toArray = taken := by
      simp [ChunkConfig.tilesFrom]
    have hnone : snapshots ++ c.shots p n 0 = snapshots := by simp [ChunkConfig.shots]
    rw [hempty, hnone]
    cases fuel with
    | zero => exact .pure hs
    | succ fuel => exact .pure hs
  | succ m ih =>
    have hlt : c.place p n < length := (hleft n (Nat.le_refl n)).1 (by omega)
    obtain ⟨fuel, rfl⟩ : ∃ f, fuel = f + 1 := ⟨fuel - 1, by omega⟩
    rw [decide_eq_true hlt]
    rw [Nat.min_eq_left (Nat.le_of_lt hlt)] at hs
    rw [ChunkConfig.tilesFrom_succ] at hstored ⊢
    rw [ChunkConfig.shots_succ]
    cases hstored with
    | cons hm hl hstored =>
      have htake := takeCheckpoint_simulated hs hm hl
      rw [c.lead_of_ne_zero h0, ← htaken] at htake
      unfold chunksFrom
      refine htake.bind fun s hs => ?_
      -- the next place is an interval further on, and still a word
      have hnext := ChunkConfig.place_succ hc p n
      rw [c.stride_succ h0] at hnext
      rw [htaken] at hs ⊢
      refine (runFor_simulated hs (by omega)).bind fun s hs => ?_
      rw [← hnext] at hs ⊢
      have hsize : (taken.push (c.numbered n (c.place p n))).size = n + 1 := by
        rw [Array.size_push, htaken]
      have hleft' : ∀ k, n + 1 ≤ k → (k < n + 1 + m ↔ c.place p k < length) := by
        intro k hk
        rw [← hleft k (by omega)]
        omega
      have hloop := ih (Nat.le_of_succ_le_succ hfuel) hsize (Nat.succ_ne_zero n) hleft' hstored hs
      simpa using hloop

/-- **The run of a simulated program in chunks.** -/
theorem chunks_simulated (hc : c.warmup < c.interval) (hp : inst + c.leadIn = p)
    (hword : p < Text.wordLimit) (hlen : length + c.interval + c.warmup + 1 < Text.wordLimit)
    {fuel : Nat} (hfuel : c.room p length ≤ fuel)
    (hstored : Stored c.outdir files (c.tiling p (c.room p length)) files')
    (hs : s.Stands length spacing inst snapshots files) :
    Yields Simulated.engine (chunks c fuel) s (c.tiling p (c.room p length))
      (·.Stands length spacing length (snapshots ++ c.shots p 0 (c.room p length)) files') := by
  have hn : ∀ k, k < c.room p length ↔ c.place p k < length := fun k => ChunkConfig.lt_room_iff hc
  generalize c.room p length = n at *
  have hfirst : c.place p 0 = p := rfl
  have hcheck : checkWarmup c.interval c.warmup = .ok () := by
    unfold checkWarmup
    rw [if_neg (by omega)]
  have hrun := runFor_simulated (n := c.leadIn) hs (by omega)
  unfold chunks
  refine .ofExcept_bind hcheck (hrun.bind fun s hs => ?_)
  rw [hp] at hs ⊢
  cases n with
  | zero =>
    -- the program ends in the lead-in
    have hend : ¬ p < length := by
      rw [← hfirst, ← hn 0]
      omega
    cases hstored
    rw [decide_eq_false hend]
    rw [Nat.min_eq_right (Nat.not_lt.1 hend)] at hs
    refine (hs.say _ _).bind fun s hs => .pure ?_
    have hnone : snapshots ++ c.shots p 0 0 = snapshots := by simp [ChunkConfig.shots]
    rw [hnone]
    exact hs
  | succ m =>
    have hlt : p < length := by
      rw [← hfirst, ← hn 0]
      omega
    rw [decide_eq_true hlt]
    rw [Nat.min_eq_left (Nat.le_of_lt hlt)] at hs
    unfold ChunkConfig.tiling at hstored ⊢
    rw [ChunkConfig.tilesFrom_succ, hfirst] at hstored ⊢
    rw [ChunkConfig.shots_succ, hfirst]
    cases hstored with
    | cons hm hl hstored =>
      refine (takeCheckpoint_simulated hs hm hl).bind fun s hs => ?_
      have hnext : c.place p 1 = p + (c.interval - c.warmup) := ChunkConfig.place_succ hc p 0
      refine (runFor_simulated hs (by omega)).bind fun s hs => ?_
      rw [← hnext] at hs ⊢
      have hleft : ∀ k, 1 ≤ k → (k < 1 + m ↔ c.place p k < length) := by
        intro k hk
        rw [← hn k]
        omega
      have hmore : m ≤ fuel := by omega
      have hone : #[c.numbered 0 p].size = 1 := rfl
      have hloop := chunksFrom_simulated hc hlen hmore hone Nat.one_ne_zero hleft hstored hs
      refine hloop.bind fun s hs => ?_
      refine (hs.say _ _).bind fun s hs => ?_
      have hlist : c.numbered 0 p :: c.tilesFrom p (0 + 1) m =
          (#[c.numbered 0 p] ++ (c.tilesFrom p 1 m).toArray).toList := by simp
      rw [hlist]
      refine .pure ?_
      simpa using hs

/-- **A run into the root of an empty tree**, where names of the right size have room. -/
theorem chunks_root (length : Nat) (ho : c.outdir = "/") (hc : c.warmup < c.interval)
    (hword : c.leadIn < Text.wordLimit) (hlen : length + c.interval + c.warmup + 1 < Text.wordLimit)
    {fuel : Nat} (hfuel : c.room c.leadIn length ≤ fuel)
    (hsize : ∀ cp ∈ c.tiling c.leadIn (c.room c.leadIn length),
      cp.short.utf8ByteSize ≤ maxName ∧ cp.long.utf8ByteSize ≤ maxName) :
    ∃ s', (chunks c fuel).run Simulated.engine (.fresh (.program length 1 [])) =
      (.ok (c.tiling c.leadIn (c.room c.leadIn length)), s') := by
  obtain ⟨t, hstored⟩ := stored_root ho hsize
  obtain ⟨s', hrun, -⟩ := chunks_simulated hc (Nat.zero_add c.leadIn) hword hlen hfuel hstored
    (.fresh length 1 [])
  exact ⟨s', hrun⟩

end Runs

end PhaseSampling
