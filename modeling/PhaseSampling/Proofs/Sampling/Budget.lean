import PhaseSampling.Chunks
import PhaseSampling.Proofs.Sampling.Steps

/-!
# Budgets

A sampling run and a run in chunks are given a number of steps. Each cycle of theirs asks for a
count, so a run that asked for few counts does not depend on that number.

* `countings`: how often an engine was asked for a count.
* `course_sample_budget`, `course_chunks_budget`: a course that asked for few counts is one with any
  other number of steps that is large enough.
-/

namespace PhaseSampling

open PhaseSampling.Flow

def Call.isCount : Call → Bool
  | .count _ => true
  | _ => false

/-- How often an engine was asked for a count. -/
def countings (l : List Exchange) : Nat := l.countP (·.call.isCount)

theorem countings_append (l l' : List Exchange) :
    countings (l ++ l') = countings l + countings l' := List.countP_append

theorem countings_count (counter : Counter) (r : Option Nat) (l : List Exchange) :
    countings (⟨.count counter, r⟩ :: l) = countings l + 1 := by
  rw [countings, List.countP_cons_of_pos (by rfl)]
  rfl

/-- Every course of a flow asks for a count. -/
def Flow.Counting {α : Type} (x : Flow α) : Prop :=
  ∀ d r, x.Course d r → 1 ≤ countings (exchanges d)

section Counting

variable {α β : Type}

theorem Flow.counting_count (counter : Counter) (k : Nat → Flow α) :
    Counting (call (.count counter) >>= k) := by
  intro d r h
  rw [course_call_bind] at h
  obtain ⟨f, rfl, -⟩ | ⟨n, d, rfl, -⟩ := h
  · simp [countings_count]
  · simp [countings_count]

theorem Flow.Counting.bind {x : Flow α} (hx : x.Counting) (k : α → Flow β) :
    Counting (x >>= k) := by
  intro d r h
  rw [course_bind] at h
  obtain ⟨own, f, h, -⟩ | ⟨a, d₁, d₂, rfl, h, -⟩ := h
  · exact hx d _ h
  · rw [exchanges_append, countings_append]
    have := hx d₁ _ h
    omega

theorem counting_runFor (counter : Counter) (n : Nat) : Counting (runFor counter n) :=
  counting_count counter _

theorem SamplingConfig.counting_advance (c : SamplingConfig) (n : Nat) :
    Counting (c.advance n) := (counting_runFor .inst n).bind _

end Counting

/-! ## Sampling -/

/-- The steps that a run needs in a stage if it goes on to ask for `k` counts. Dumping asks for none,
and it comes only after sampling. -/
def Stage.need (stage : Stage) (k : Nat) : Nat :=
  match stage with
  | .warming => 2 * k + 1
  | .sampling => 2 * k + 1
  | .dumping => 2 * k + 2
  | .done => 0

theorem Stage.need_le (stage : Stage) (k : Nat) : stage.need k ≤ 2 * k + 2 := by
  cases stage <;> simp only [need] <;> omega

theorem Stage.need_pos {stage : Stage} (h : stage ≠ .done) (k : Nat) : 1 ≤ stage.need k := by
  cases stage with
  | done => exact absurd rfl h
  | _ => simp only [need]; omega

namespace Sampler

variable {c : SamplingConfig} {s s' : Sampler} {d : List Deed}

/-- **A step** leaves a need that is smaller by one. -/
theorem need_step (h : (s.step c).Course d (.value s')) (hd : s.stage ≠ .done) (k : Nat) :
    s'.stage.need k + 1 ≤ s.stage.need (countings (exchanges d) + k) := by
  have hle := s'.stage.need_le k
  rw [step] at h
  cases hs : s.stage with
  | warming =>
    rw [hs] at h
    have hc := (c.counting_advance c.warmup).bind _ d _ h
    show _ ≤ 2 * (countings (exchanges d) + k) + 1
    omega
  | sampling =>
    rw [hs] at h
    have hc := (c.counting_advance (c.interval - c.warmup)).bind _ d _ h
    show _ ≤ 2 * (countings (exchanges d) + k) + 1
    omega
  | dumping =>
    rw [hs] at h
    have hst : s'.stage = .sampling := by
      cases course_dump h with
      | filed text hp hw hb => rfl
    rw [hst]
    show 2 * k + 1 + 1 ≤ 2 * (countings (exchanges d) + k) + 2
    omega
  | done => exact absurd hs hd

theorem steps_of_done (hd : s.stage = .done) (n : Nat) : steps c n s = return s := by
  cases n with
  | zero => rw [steps, if_pos hd]
  | succ n => rw [steps, if_pos hd]

/-- Steps that are more than are needed do not matter. -/
theorem course_steps_budget {n n' : Nat} {r : Ending Sampler} (h : (steps c n s).Course d r)
    (hn : s.stage.need (countings (exchanges d)) ≤ n)
    (hn' : s.stage.need (countings (exchanges d)) ≤ n') : (steps c n' s).Course d r := by
  by_cases hd : s.stage = .done
  · rw [steps_of_done hd] at h ⊢
    exact h
  have hpos := Stage.need_pos hd (countings (exchanges d))
  induction n generalizing s d n' with
  | zero => omega
  | succ n ih =>
    obtain ⟨n', rfl⟩ := Nat.exists_eq_add_of_le' (Nat.le_trans hpos hn')
    rw [steps, if_neg hd] at h ⊢
    refine h.bind_right fun s' d₁ d₂ hcat h₁ h₂ => ?_
    have hneed := need_step h₁ hd (countings (exchanges d₂))
    rw [hcat, exchanges_append, countings_append] at hn hn'
    by_cases hd' : s'.stage = .done
    · rw [steps_of_done hd'] at h₂ ⊢
      exact h₂
    · exact ih h₂ (by omega) (by omega) hd' (Stage.need_pos hd' _)

end Sampler

/-- **A sampling run** that asks for few counts does not depend on its number of steps. -/
theorem course_sample_budget {c : SamplingConfig} {n n' : Nat} {d : List Deed}
    {r : Ending (List IntervalRecord)} (h : (sample c n).Course d r)
    (hn : 2 * countings (exchanges d) + 1 ≤ n) (hn' : 2 * countings (exchanges d) + 1 ≤ n') :
    (sample c n').Course d r := by
  rw [sample] at h ⊢
  refine h.bind_right fun _ d₁ d₂ hcat _ h => ?_
  refine h.bind_left fun d₃ d₄ r hcat' h => ?_
  rw [hcat, hcat'] at hn hn'
  simp only [exchanges_append, countings_append] at hn hn'
  have hstart : (Sampler.start c).stage.need (countings (exchanges d₃)) =
      2 * countings (exchanges d₃) + 1 := rfl
  exact Sampler.course_steps_budget h (by omega) (by omega)

/-! ## Chunks -/

section Chunks

variable {c : ChunkConfig} {n n' : Nat} {d : List Deed}

theorem course_chunksFrom_budget {taken : Array Checkpoint} {running : Bool}
    {r : Ending (Array Checkpoint)} (h : (chunksFrom c n taken running).Course d r)
    (hn : countings (exchanges d) < n) (hn' : countings (exchanges d) < n') :
    (chunksFrom c n' taken running).Course d r := by
  induction n generalizing taken running d n' with
  | zero => exact absurd hn (Nat.not_lt_zero _)
  | succ n ih =>
    obtain ⟨n', rfl⟩ := Nat.exists_eq_add_of_le' (Nat.lt_of_le_of_lt (Nat.zero_le _) hn')
    cases running with
    | false => exact h
    | true =>
      rw [chunksFrom] at h ⊢
      refine h.bind_right fun cp d₁ d₂ hcat _ h => ?_
      refine h.bind_right fun running d₃ d₄ hcat' h₃ h => ?_
      -- running an interval asked for a count, which pays for this round
      have hc := counting_runFor .inst c.interval d₃ _ h₃
      rw [hcat, hcat'] at hn hn'
      simp only [exchanges_append, countings_append] at hn hn'
      exact ih h (by omega) (by omega)

/-- **A run in chunks** that asks for few counts does not depend on its number of steps. -/
theorem course_chunks_budget {r : Ending (List Checkpoint)} (h : (chunks c n).Course d r)
    (hn : countings (exchanges d) < n) (hn' : countings (exchanges d) < n') :
    (chunks c n').Course d r := by
  rw [chunks] at h ⊢
  refine h.bind_right fun _ d₁ d₂ hcat₁ _ h => ?_
  refine h.bind_right fun running d₃ d₄ hcat₂ _ h => ?_
  cases running with
  | false => exact h
  | true =>
    simp only [Bool.not_true, Bool.false_eq_true, if_false] at h ⊢
    refine h.bind_right fun first d₅ d₆ hcat₃ _ h => ?_
    refine h.bind_right fun running d₇ d₈ hcat₄ _ h => ?_
    refine h.bind_left fun d₉ d₁₀ r hcat₅ h => ?_
    rw [hcat₁, hcat₂, hcat₃, hcat₄, hcat₅] at hn hn'
    simp only [exchanges_append, countings_append] at hn hn'
    exact course_chunksFrom_budget h (by omega) (by omega)

end Chunks

end PhaseSampling
