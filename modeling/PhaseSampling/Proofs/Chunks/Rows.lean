import PhaseSampling.Chunks
import PhaseSampling.Proofs.Sampling.Leg

/-!
# Chunks in a row

What a run in chunks asks its engine, chunk by chunk. The chunks differ only in how far the program
runs to them and in how long their warmup is: both are known from the number of the chunk.

* `ChunkConfig.stride`, `ChunkConfig.lead`: these two numbers.
* `ChunkConfig.Row`: checkpoints taken one after the other, with the exchanges in which they were.
* `course_chunks`: a run that ends well has taken such a row, and then the program has exited.
-/

namespace PhaseSampling

open PhaseSampling.Flow

namespace ChunkConfig

/-- The instructions to run to the snapshot of a chunk: the lead-in to the first one, less than a
whole interval from there to the second, and an interval to any other. -/
def stride (c : ChunkConfig) : Nat → Nat
  | 0 => c.leadIn
  | 1 => c.interval - c.warmup
  | _ => c.interval

/-- The warmup of a chunk. -/
def lead (c : ChunkConfig) : Nat → Nat
  | 0 => 1
  | _ => c.warmup

theorem stride_succ (c : ChunkConfig) {n : Nat} (hn : n ≠ 0) : c.stride (n + 1) = c.interval := by
  cases n with
  | zero => exact absurd rfl hn
  | succ n => rfl

theorem lead_of_ne_zero (c : ChunkConfig) {n : Nat} (hn : n ≠ 0) : c.lead n = c.warmup := by
  cases n with
  | zero => exact absurd rfl hn
  | succ n => rfl

def snapshotPath (c : ChunkConfig) (n : Nat) : String :=
  checkpointPath c.outdir (shortName (toString n))

/-- The exchanges by which the program runs to the snapshot of a chunk, from an instruction. -/
def run (c : ChunkConfig) (n k : Nat) (cause : StopCause) : List Exchange :=
  [⟨.count .inst, some k⟩, ⟨.advance .inst (k + c.stride n), some cause⟩]

/-- The exchanges by which the snapshot of a chunk is taken, at an instruction. -/
def snap (c : ChunkConfig) (n inst : Nat) : List Exchange :=
  [⟨.checkpoint (c.snapshotPath n), some ()⟩, ⟨.count .inst, some inst⟩]

/-- The checkpoint of the chunk with a number. -/
def numbered (c : ChunkConfig) (n inst : Nat) : Checkpoint := c.checkpoint n (c.lead n) inst

/-- `c.Row cps l`: the checkpoints `cps` were taken, numbered from zero, in the exchanges `l`. -/
inductive Row (c : ChunkConfig) : List Checkpoint → List Exchange → Prop where
  | nil : Row c [] []
  | snoc {cps : List Checkpoint} {l : List Exchange} (h : Row c cps l) (k inst : Nat) :
      Row c (cps ++ [c.numbered cps.length inst])
        (l ++ (c.run cps.length k .breakpoint ++ c.snap cps.length inst))

end ChunkConfig

open ChunkConfig

variable {c : ChunkConfig} {l : List Deed} {cp : Checkpoint}

theorem course_takeCheckpoint {index warmup : Nat}
    (h : (takeCheckpoint c index warmup).Course l (.value cp)) :
    ∃ inst, exchanges l = c.snap index inst ∧ cp = c.checkpoint index warmup inst := by
  rw [takeCheckpoint, course_call_bind_value] at h
  obtain ⟨⟨⟩, l, rfl, h⟩ := h
  rw [course_say_bind] at h
  obtain ⟨l, rfl, h⟩ := h
  rw [course_call_bind_value] at h
  obtain ⟨inst, l, rfl, h⟩ := h
  rw [course_link_bind] at h
  obtain ⟨f, -, hf⟩ | ⟨path, l, rfl, h⟩ := h
  · cases hf
  obtain ⟨rfl, hcp⟩ := course_pure.1 h
  cases hcp
  exact ⟨inst, rfl, rfl⟩

/-- The program runs to the snapshot of a chunk, or exits on the way. -/
theorem course_run {n : Nat} {running : Bool}
    (h : (runFor .inst (c.stride n)).Course l (.value running)) :
    ∃ k, exchanges l = c.run n k (if running then .breakpoint else .completed) := by
  have hr := course_runFor h
  generalize exchanges l = l at hr
  cases hr with
  | reached k => exact ⟨k, rfl⟩
  | exited k => exact ⟨k, rfl⟩

/-- **The loop goes on with the row** that it starts from, until the program exits. -/
theorem course_chunksFrom {fuel : Nat} {taken cps : Array Checkpoint} {running : Bool} {k : Nat}
    {l₀ : List Exchange} (ht : c.Row taken.toList l₀) (h0 : taken.size ≠ 0)
    (h : (chunksFrom c fuel taken running).Course l (.value cps)) :
    ∃ l₁ k', c.Row cps.toList l₁ ∧
      l₀ ++ c.run taken.size k (if running then .breakpoint else .completed) ++ exchanges l =
        l₁ ++ c.run cps.size k' .completed := by
  -- by induction on the steps left, each of which takes one checkpoint
  induction fuel generalizing taken running k l₀ l with
  | zero =>
    cases running with
    | false =>
      obtain ⟨rfl, hcps⟩ := course_pure.1 h
      cases hcps
      exact ⟨l₀, k, ht, by simp⟩
    | true => cases (course_fail.1 h).2
  | succ fuel ih =>
    cases running with
    | false =>
      obtain ⟨rfl, hcps⟩ := course_pure.1 h
      cases hcps
      exact ⟨l₀, k, ht, by simp⟩
    | true =>
      rw [chunksFrom, course_bind_value] at h
      obtain ⟨cp, d₁, d, rfl, h₁, h⟩ := h
      rw [course_bind_value] at h
      obtain ⟨running, d₂, d₃, rfl, h₂, h⟩ := h
      obtain ⟨inst, hd₁, rfl⟩ := course_takeCheckpoint h₁
      rw [← c.stride_succ h0] at h₂
      obtain ⟨k', hd₂⟩ := course_run h₂
      have hrow := ht.snoc k inst
      rw [numbered, Array.length_toList, c.lead_of_ne_zero h0, ← Array.toList_push] at hrow
      obtain ⟨l₁, k₁, hrow', hl⟩ := ih (k := k') hrow (by simp) h
      refine ⟨l₁, k₁, hrow', ?_⟩
      rw [← hl, exchanges_append, exchanges_append, hd₁, hd₂, Array.size_push]
      simp

/-- **A run that ends well has taken a row**, and found the program gone on the way to the next
chunk. -/
theorem course_chunks {fuel : Nat} {cps : List Checkpoint}
    (h : (chunks c fuel).Course l (.value cps)) :
    ∃ l₁ k, c.Row cps l₁ ∧ exchanges l = l₁ ++ c.run cps.length k .completed := by
  rw [chunks, course_ofExcept_bind] at h
  obtain ⟨f, -, -, hf⟩ | ⟨⟨⟩, -, h⟩ := h
  · cases hf
  rw [course_bind_value] at h
  obtain ⟨running, d₁, d, rfl, h₁, h⟩ := h
  obtain ⟨k₀, hd₁⟩ := course_run (n := 0) h₁
  cases running with
  | false =>
    simp only [Bool.not_false, if_true] at h
    rw [course_say_bind] at h
    obtain ⟨d, rfl, h⟩ := h
    obtain ⟨rfl, hcps⟩ := course_pure.1 h
    cases hcps
    exact ⟨[], k₀, .nil, by simpa using hd₁⟩
  | true =>
    simp only [Bool.not_true, Bool.false_eq_true, if_false] at h
    rw [course_bind_value] at h
    obtain ⟨cp, d₂, d, rfl, h₂, h⟩ := h
    rw [course_bind_value] at h
    obtain ⟨running, d₃, d, rfl, h₃, h⟩ := h
    rw [course_bind_value] at h
    obtain ⟨taken, d₄, d, rfl, h₄, h⟩ := h
    rw [course_say_bind] at h
    obtain ⟨d, rfl, h⟩ := h
    obtain ⟨rfl, hcps⟩ := course_pure.1 h
    cases hcps
    obtain ⟨inst, hd₂, rfl⟩ := course_takeCheckpoint h₂
    obtain ⟨k₁, hd₃⟩ := course_run (n := 1) h₃
    have hfirst : c.Row #[c.checkpoint 0 1 inst].toList
        (c.run 0 k₀ .breakpoint ++ c.snap 0 inst) := Row.nil.snoc k₀ inst
    obtain ⟨l₁, k, hrow, hl⟩ := course_chunksFrom (k := k₁) hfirst (by simp) h₄
    refine ⟨l₁, k, hrow, ?_⟩
    rw [Array.length_toList, ← hl]
    simp [hd₁, hd₂, hd₃]

end PhaseSampling
