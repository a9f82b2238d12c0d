import PhaseSampling.Chunks
import PhaseSampling.Proofs.Flow.Endings
import PhaseSampling.Proofs.Sampling.Budget

/-!
# Sampling and chunks come to an end

Neither loop counts its rounds. Over an engine that tires they end, since every round runs the program
for an instruction at least: an interval is longer than its warmup.

* `Sampler.toil`: the steps that a sampler can still make. A step takes one of them (`settles_step`).
* `Sampler.ends_sample`, `ends_chunks`: **both loops end**, with steps to spare.
-/

namespace PhaseSampling

open PhaseSampling.Flow

variable {σ : Type} {e : Engine σ} {μ : σ → Nat} {s : Session σ}

/-- A leg lets the measure fall, if it reaches its boundary. -/
theorem Engine.Tires.advance (h : e.Tires μ) (c : SamplingConfig) (n : Nat) :
    Settles e (c.advance n) s fun there s' => μ s'.engine ≤ μ s.engine ∧
      ∀ b, there = .reached b → 0 < n → μ s'.engine < μ s.engine := by
  unfold SamplingConfig.advance
  refine (h.runFor .inst n).bind ?_
  rintro there s₁ ⟨hle₁, hlt₁⟩
  cases there with
  | false => exact .pure ⟨hle₁, by simp⟩
  | true =>
    have hlt : 0 < n → μ s₁.engine < μ s.engine := hlt₁ rfl rfl
    simp only [Bool.not_true, Bool.false_eq_true, if_false]
    split
    · refine (h.runFor .waypoint 1).bind ?_
      rintro there s₂ ⟨hle₂, _⟩
      split
      · exact .pure ⟨Nat.le_trans hle₂ hle₁, by simp⟩
      refine (h.call _).bind fun i s₃ hle₃ => (h.call _).bind fun w s₄ hle₄ => .pure ⟨?_, ?_⟩
      · omega
      · intro b _ hn
        have := hlt hn
        omega
    · refine (h.call _).bind fun i s₂ hle₂ => .pure ⟨Nat.le_trans hle₂ hle₁, fun b _ hn => ?_⟩
      exact Nat.lt_of_le_of_lt hle₂ (hlt hn)

/-! ## Sampling -/

namespace Sampler

variable {c : SamplingConfig} {smp : Sampler}

/-- The steps that are left in a stage, when the measure has a value. A cycle has two. -/
def toil (stage : Stage) (m : Nat) : Nat :=
  match stage with
  | .warming => 2 * m + 2
  | .sampling => 2 * m + 1
  | .dumping => 2 * m + 2
  | .done => 0

theorem settles_record (h : e.Tires μ) (smp : Sampler) (hist : Histogram) :
    Settles e (smp.record hist) s fun smp' s' =>
      smp'.stage = .sampling ∧ μ s'.engine ≤ μ s.engine := by
  unfold record
  refine (h.op (.append _)).bind ?_
  rintro _ s₁ ⟨_, hle₁⟩
  split
  · refine (h.call .reset).bind fun _ s₂ hle₂ => ?_
    refine (h.op (.say _ _)).bind ?_
    rintro _ s₃ ⟨_, hle₃⟩
    refine .pure ⟨rfl, ?_⟩
    omega
  · exact .fail (by simp [mismatch])

theorem settles_warn (h : e.Tires μ) (entry : VectorEntry) :
    Settles e entry.warn s fun _ s' => μ s'.engine ≤ μ s.engine := by
  unfold VectorEntry.warn
  cases entry.warning with
  | none => exact .pure (Nat.le_refl _)
  | some text =>
    refine (h.op (.say .warn text)).imp ?_
    rintro _ s' ⟨_, hle⟩
    exact hle

/-- Filing a complete interval moves the program nowhere. -/
theorem settles_dump (h : e.Tires μ) (smp : Sampler) :
    Settles e smp.dump s fun smp' s' => smp'.stage = .sampling ∧ μ s'.engine ≤ μ s.engine := by
  rw [dump_eq]
  refine (h.call .dump).bind fun text s₁ hle₁ => ?_
  have hparse : Histogram.parse text ≠ .error .unfinished := by
    intro hf
    rcases Histogram.fault_of_parse hf with hf | ⟨line, text, hf⟩ <;> cases hf
  refine (Settles.ofExcept hparse).bind ?_
  rintro hist s₂ ⟨_, hs₂⟩
  subst hs₂
  refine (settles_warn h _).bind fun _ s₃ hle₃ => ?_
  refine (settles_record h smp hist).imp ?_
  rintro smp' s' ⟨hstage, hle⟩
  refine ⟨hstage, ?_⟩
  omega

/-- **A step** takes one of the steps that are left. -/
theorem settles_step (h : e.Tires μ) (hc : c.warmup < c.interval) (hd : smp.stage ≠ .done) :
    Settles e (smp.step c) s fun smp' s' =>
      toil smp'.stage (μ s'.engine) < toil smp.stage (μ s.engine) := by
  unfold step
  cases hs : smp.stage with
  | done => exact absurd hs hd
  | warming =>
    refine (h.advance c c.warmup).bind ?_
    rintro there s₁ ⟨hle₁, _⟩
    cases there with
    | exited => exact .pure (Nat.succ_pos _)
    | reached b =>
      refine (h.call .reset).bind fun _ s₂ hle₂ => .pure ?_
      show 2 * μ s₂.engine + 1 < 2 * μ s.engine + 2
      omega
  | sampling =>
    refine (h.advance c (c.interval - c.warmup)).bind ?_
    rintro there s₁ ⟨_, hlt₁⟩
    cases there with
    | exited => exact .pure (Nat.succ_pos _)
    | reached b =>
      have hlt : μ s₁.engine < μ s.engine := hlt₁ b rfl (Nat.sub_pos_of_lt hc)
      refine (h.advance c c.warmup).bind ?_
      rintro there s₂ ⟨hle₂, _⟩
      cases there with
      | exited => exact .pure (Nat.succ_pos _)
      | reached b =>
        refine .pure ?_
        show 2 * μ s₂.engine + 2 < 2 * μ s.engine + 1
        omega
  | dumping =>
    refine (settles_dump h smp).imp ?_
    rintro smp' s' ⟨hstage, hle⟩
    rw [hstage]
    show 2 * μ s'.engine + 1 < 2 * μ s.engine + 2
    omega

/-- **Steps** that are enough for the toil are not used up, and more of them do the same. -/
theorem settles_steps (h : e.Tires μ) (hc : c.warmup < c.interval) {n m : Nat}
    (hn : toil smp.stage (μ s.engine) ≤ n) (hm : toil smp.stage (μ s.engine) ≤ m) :
    SettlesAs e (steps c n smp) (steps c m smp) s fun _ _ => True := by
  refine settles_loop (steps c) (step c) (fun smp => smp.stage ≠ .done)
    (fun smp s => toil smp.stage (μ s.engine)) ?_ ?_ ?_ hn hm
  · intro smp hd
    exact ⟨smp, fun n => steps_of_done (Decidable.not_not.1 hd) n⟩
  · intro n smp hd
    rw [steps, if_neg hd]
  · intro smp s hd
    refine ⟨?_, settles_step h hc hd⟩
    cases hs : smp.stage with
    | done => exact absurd hs hd
    | _ => exact Nat.succ_pos _

end Sampler

/-- Only a valid configuration goes on. -/
theorem settles_checkWarmup (interval warmup : Nat) :
    Settles e (ofExcept (checkWarmup interval warmup)) s fun _ s' =>
      warmup < interval ∧ s' = s := by
  unfold checkWarmup
  split
  · exact .fail (by simp)
  · exact .pure ⟨by omega, rfl⟩

/-- **A sampling run comes to its end** over an engine that tires. -/
theorem ends_sample (h : e.Tires μ) (hb : 2 * μ s.engine + 2 ≤ e.budget s.engine)
    (c : SamplingConfig) : Ends e (sample c) s := by
  refine ends_of_settlesAs (R := fun _ _ => True) fun n hn => ?_
  unfold sample
  refine (settles_checkWarmup c.interval c.warmup).bind_as ?_
  rintro _ s' ⟨hc, hs'⟩
  subst hs'
  have hsteps : SettlesAs e (Sampler.steps c (e.budget s'.engine) (.start c))
      (Sampler.steps c n (.start c)) s' fun _ _ => True :=
    Sampler.settles_steps h hc hb (Nat.le_trans hb hn)
  refine hsteps.bind fun smp s₁ _ => ?_
  have hcheck : checkBookkeeping smp.warmups.size smp.bounds.size smp.records.size ≠
      .error .unfinished := by
    unfold checkBookkeeping
    split <;> simp
  refine (Settles.ofExcept hcheck).bind fun _ s₂ _ => ?_
  exact (h.op (.say _ _)).bind fun _ s₃ _ => .pure trivial

/-! ## Chunks -/

section Chunks

variable {c : ChunkConfig}

/-- Taking a checkpoint moves the program nowhere. -/
theorem settles_takeCheckpoint (h : e.Tires μ) (index warmup : Nat) :
    Settles e (takeCheckpoint c index warmup) s fun _ s' => μ s'.engine ≤ μ s.engine := by
  unfold takeCheckpoint
  refine (h.call _).bind fun _ s₁ hle₁ => (h.op (.say _ _)).bind ?_
  rintro _ s₂ ⟨_, hle₂⟩
  refine (h.call _).bind fun inst s₃ hle₃ => (h.op (.link _ _ _)).bind ?_
  rintro _ s₄ ⟨_, hle₄⟩
  refine .pure ?_
  omega

/-- One round of the loop: the next checkpoint, and whether the program goes on behind it. -/
def ChunkConfig.round (c : ChunkConfig) (x : Array Checkpoint × Bool) :
    Flow (Array Checkpoint × Bool) := do
  let cp ← takeCheckpoint c x.1.size c.warmup
  let running ← runFor .inst c.interval
  return (x.1.push cp, running)

theorem settles_chunksFrom (h : e.Tires μ) (hc : c.warmup < c.interval) {n m : Nat}
    {taken : Array Checkpoint} {running : Bool} (hn : μ s.engine < n) (hm : μ s.engine < m) :
    SettlesAs e (chunksFrom c n taken running) (chunksFrom c m taken running) s
      fun _ _ => True := by
  refine settles_loop (a := (taken, running)) (fun n x => chunksFrom c n x.1 x.2) c.round
    (fun x => x.2 = true) (fun x s => if x.2 then μ s.engine + 1 else 0) ?_ ?_ ?_ ?_ ?_
  · rintro ⟨taken, running⟩ hr
    refine ⟨taken, fun n => ?_⟩
    rw [Bool.eq_false_iff.2 hr, chunksFrom]
    rfl
  · rintro n ⟨taken, running⟩ hr
    simp only at hr
    subst hr
    rw [chunksFrom, ChunkConfig.round]
    simp only [LawfulMonad.bind_assoc, pure_bind]
  · rintro ⟨taken, running⟩ s hr
    simp only at hr
    subst hr
    refine ⟨Nat.succ_pos _, (settles_takeCheckpoint h _ _).bind fun cp s₁ hle => ?_⟩
    refine (h.runFor .inst c.interval).bind ?_
    rintro running s₂ ⟨_, hlt⟩
    refine .pure ?_
    cases running with
    | false => exact Nat.succ_pos _
    | true =>
      have hfalls := hlt rfl rfl (Nat.zero_lt_of_lt hc)
      show μ s₂.engine + 1 < μ s.engine + 1
      omega
  · show (if running then μ s.engine + 1 else 0) ≤ n
    split <;> omega
  · show (if running then μ s.engine + 1 else 0) ≤ m
    split <;> omega

/-- **A run in chunks comes to its end** over an engine that tires. -/
theorem ends_chunks (h : e.Tires μ) (hb : μ s.engine < e.budget s.engine) (c : ChunkConfig) :
    Ends e (chunks c) s := by
  refine ends_of_settlesAs (R := fun _ _ => True) fun n hn => ?_
  unfold chunks
  refine (settles_checkWarmup c.interval c.warmup).bind_as ?_
  rintro _ s' ⟨hc, hs'⟩
  subst hs'
  refine (h.runFor .inst c.leadIn).bind_as ?_
  rintro there s₁ ⟨hle₁, _⟩
  cases there with
  | false => exact .self ((h.op (.say _ _)).bind fun _ s₂ _ => .pure trivial)
  | true =>
    refine (settles_takeCheckpoint h 0 1).bind_as fun first s₂ hle₂ => ?_
    refine (h.runFor .inst (c.interval - c.warmup)).bind_as ?_
    rintro running s₃ ⟨hle₃, _⟩
    have hloop : SettlesAs e (chunksFrom c (e.budget s'.engine) #[first] running)
        (chunksFrom c n #[first] running) s₃ fun _ _ => True :=
      settles_chunksFrom h hc (by omega) (by omega)
    exact hloop.bind fun taken s₄ _ => (h.op (.say _ _)).bind fun _ s₅ _ => .pure trivial

end Chunks

end PhaseSampling
