import PhaseSampling.Proofs.Sampling.Tour

/-!
# The steps of a sampling run

Every step keeps the history of the sampler, so every run does.

* `Sampler.walk`: a sampler after a number of steps. A run is a walk to the end.
* `Sampler.History.after_step`, `Sampler.History.after_walk`: what one step and what many steps keep.
* `course_sample`: all the ways a sampling run can go.
-/

namespace PhaseSampling

open PhaseSampling.Flow SamplingConfig

variable {c : SamplingConfig} {s : Sampler} {l : List Exchange}

/-- Filing a complete interval ends its tour, or interrupts it. -/
theorem Sampler.Dumped.after {wr : VectorWriter} {rs : List IntervalRecord} {w b w' b' : Boundary}
    {l out back : List Exchange} {d : List Deed} {r : Ending Sampler} (t : c.Tour rs w b l)
    (ho : c.Leg (c.interval - c.warmup) w' out) (hb : c.Leg c.warmup b' back)
    (h : Sampler.Dumped ⟨.dumping, wr, (rs.map (·.warmup) ++ [w, w']).toArray,
      (rs.map (·.begins) ++ [b, b']).toArray, rs.toArray⟩ d r) :
    c.After (l ++ (out ++ back) ++ exchanges d) r := by
  cases h with
  | unanswered f => exact ⟨by simpa [Except.toOption] using Interrupted.dumping t ho hb none, nofun⟩
  | malformed text hp =>
    exact ⟨by simpa [Except.toOption] using Interrupted.dumping t ho hb (some text),
      fun _ => Histogram.not_bookkeeping_of_parse hp⟩
  | full text hp f =>
    refine ⟨?_, nofun⟩
    simpa [Except.toOption, VectorEntry.exchanges_warned] using
      Interrupted.dumping t ho hb (some text)
  | mismatched text hp hs => simp at hs
  | unreset text hp f =>
    refine ⟨?_, nofun⟩
    simpa [Except.toOption, VectorEntry.exchanges_warned] using
      Interrupted.restarting t ho hb text
  | filed text hp hws hbs =>
    rename_i hist
    have := History.sampling (wr.entry hist).2
      (Tour.filed t ho hb text hist.total (wr.entry hist).1.wellFormed)
    simpa [Except.toOption, VectorEntry.exchanges_warned] using this

/-- The first leg, and the reset that opens the first histogram. -/
theorem Sampler.after_warming {wr : VectorWriter} {d : List Deed} {r : Ending Sampler}
    (h : (Sampler.step c ⟨.warming, wr, #[.start], #[], #[]⟩).Course d r) :
    c.After (exchanges d) r := by
  rw [Sampler.step, course_bind] at h
  obtain ⟨own, f, h₁, rfl⟩ | ⟨a, d₁, d₂, rfl, h₁, h⟩ := h
  · cases course_advance h₁ with
    | failed hq hf => exact ⟨.warming hq, hf⟩
  rw [exchanges_append]
  have ha := course_advance h₁
  generalize exchanges d₁ = e₁ at ha
  cases ha with
  | exited he =>
    rw [course_pure] at h
    obtain ⟨rfl, rfl⟩ := h
    simpa using Sampler.History.exitedFirst wr he
  | reached hl =>
    rw [course_call_bind] at h
    obtain ⟨f, rfl, rfl⟩ | ⟨⟨⟩, d, rfl, h⟩ := h
    · exact ⟨.starting hl, nofun⟩
    · rw [course_pure] at h
      obtain ⟨rfl, rfl⟩ := h
      exact .sampling wr (.first hl)

/-- The two legs of a cycle. An exit on either leaves the lists as they are. -/
theorem Sampler.after_sampling {wr : VectorWriter} {rs : List IntervalRecord} {w b : Boundary}
    (t : c.Tour rs w b l) {d : List Deed} {r : Ending Sampler}
    (h : (Sampler.step c ⟨.sampling, wr, (rs.map (·.warmup) ++ [w]).toArray,
      (rs.map (·.begins) ++ [b]).toArray, rs.toArray⟩).Course d r) :
    c.After (l ++ exchanges d) r := by
  rw [Sampler.step, course_bind] at h
  obtain ⟨own, f, h₁, rfl⟩ | ⟨a, d₁, d₂, rfl, h₁, h⟩ := h
  · cases course_advance h₁ with
    | failed hq hf => exact ⟨.sampling t hq, hf⟩
  rw [exchanges_append]
  have ha := course_advance h₁
  generalize exchanges d₁ = e₁ at ha
  cases ha with
  | exited he =>
    rw [course_pure] at h
    obtain ⟨rfl, rfl⟩ := h
    simpa using Sampler.History.exitedOut wr t he
  | reached ho =>
    rw [course_bind] at h
    obtain ⟨own, f, h₂, rfl⟩ | ⟨a, d₃, d₄, rfl, h₂, h⟩ := h
    · cases course_advance h₂ with
      | failed hq hf => exact ⟨.sampling t (quiet_append ho.quiet hq), hf⟩
    rw [exchanges_append]
    have ha := course_advance h₂
    generalize exchanges d₃ = e₂ at ha
    cases ha with
    | exited he =>
      rw [course_pure] at h
      obtain ⟨rfl, rfl⟩ := h
      simpa using Sampler.History.exitedBack wr t ho he
    | reached hb =>
      rw [course_pure] at h
      obtain ⟨rfl, rfl⟩ := h
      simpa using Sampler.History.dumping wr t ho hb

theorem Sampler.step_of_done (hd : s.stage = .done) : s.step c = return s := by
  rw [step, hd]

/-- After the exit nothing happens. -/
theorem Sampler.History.after_done (hs : s.History c l) (hd : s.stage = .done) {d : List Deed}
    {r : Ending Sampler} (h : (s.step c).Course d r) : c.After (l ++ exchanges d) r := by
  rw [Sampler.step_of_done hd, course_pure] at h
  obtain ⟨rfl, rfl⟩ := h
  simpa using hs

/-- **One step** keeps the history. -/
theorem Sampler.History.after_step (hs : s.History c l) {d : List Deed} {r : Ending Sampler}
    (h : (s.step c).Course d r) : c.After (l ++ exchanges d) r := by
  cases hs with
  | warming wr => exact Sampler.after_warming h
  | sampling wr t => exact Sampler.after_sampling t h
  | dumping wr t ho hb => exact (course_dump h).after t ho hb
  | exitedFirst wr he => exact (Sampler.History.exitedFirst wr he).after_done rfl h
  | exitedOut wr t he => exact (Sampler.History.exitedOut wr t he).after_done rfl h
  | exitedBack wr t ho he => exact (Sampler.History.exitedBack wr t ho he).after_done rfl h

/-- A sampler after `n` more steps. -/
def Sampler.walk (c : SamplingConfig) : Nat → Sampler → Flow Sampler
  | 0, s => return s
  | n + 1, s => do walk c n (← s.step c)

theorem Sampler.walk_done {s : Sampler} (hs : s.stage = .done) (n : Nat) :
    walk c n s = return s := by
  induction n with
  | zero => rfl
  | succ n ih => rw [walk, step_of_done hs, pure_bind, ih]

theorem Sampler.walk_add (n m : Nat) (s : Sampler) :
    walk c (n + m) s = walk c n s >>= walk c m := by
  induction n generalizing s with
  | zero => rw [Nat.zero_add, walk, pure_bind]
  | succ n ih =>
    rw [Nat.succ_add, walk, walk, LawfulMonad.bind_assoc]
    exact congrArg (s.step c >>= ·) (funext ih)

/-- A run is a walk that has to have come to its end. -/
theorem Sampler.steps_eq_walk (n : Nat) (s : Sampler) :
    steps c n s =
      walk c n s >>= fun s => if s.stage = .done then return s else fail .unfinished := by
  induction n generalizing s with
  | zero => rw [walk, pure_bind, steps]
  | succ n ih =>
    unfold steps
    split
    · rename_i hs
      rw [walk_done hs, pure_bind, if_pos hs]
    · rw [walk, LawfulMonad.bind_assoc]
      exact congrArg (s.step c >>= ·) (funext ih)

/-- **Every walk** keeps the history. -/
theorem Sampler.History.after_walk (hs : s.History c l) {n : Nat} {d : List Deed} {r : Ending Sampler}
    (h : (Sampler.walk c n s).Course d r) : c.After (l ++ exchanges d) r := by
  induction n generalizing s l d with
  | zero =>
    rw [Sampler.walk, course_pure] at h
    obtain ⟨rfl, rfl⟩ := h
    simpa using hs
  | succ n ih =>
    rw [Sampler.walk, course_bind] at h
    obtain ⟨own, f, h₁, rfl⟩ | ⟨s', d₁, d₂, rfl, h₁, h⟩ := h
    · exact hs.after_step h₁
    · have := ih (hs.after_step h₁) h
      rwa [List.append_assoc, ← exchanges_append] at this

/-- **Every course of a sampling run** ends with the records of a sampler whose program exited, or is
interrupted. It finds no fault in its own lists. -/
theorem course_sample {fuel : Nat} {d : List Deed} {r : Ending (List IntervalRecord)}
    (h : (sample c fuel).Course d r) :
    (∃ s : Sampler, s.History c (exchanges d) ∧ s.stage = .done ∧ r = .value s.records.toList) ∨
      ∃ own f, c.Interrupted (exchanges d) ∧ (own = true → ¬ f.Bookkeeping) ∧ r = .fault own f := by
  rw [sample, course_ofExcept_bind] at h
  obtain ⟨f, hf, rfl, rfl⟩ | ⟨⟨⟩, -, h⟩ := h
  · refine .inr ⟨true, f, .warming (by simp), fun _ => ?_, rfl⟩
    unfold SamplingConfig.validate checkWarmup at hf
    split at hf <;> cases hf
    simp [Fault.Bookkeeping]
  -- the run is a walk from the start, and what comes behind its end
  rw [Sampler.steps_eq_walk, LawfulMonad.bind_assoc, course_bind] at h
  obtain ⟨own, f, h₁, rfl⟩ | ⟨s, d₁, d, rfl, h₁, h⟩ := h
  · obtain ⟨hi, hf⟩ := (Sampler.history_start c).after_walk h₁
    exact .inr ⟨own, f, hi, hf, rfl⟩
  have hs : s.History c (exchanges d₁) := by simpa using (Sampler.history_start c).after_walk h₁
  split at h
  · rename_i hd
    -- the check of the books passes, since the lists are in step
    rw [pure_bind, hs.balanced.check hd, course_ofExcept_bind] at h
    obtain ⟨f, hf, -, -⟩ | ⟨⟨⟩, -, h⟩ := h
    · cases hf
    rw [course_say_bind] at h
    obtain ⟨d, rfl, h⟩ := h
    rw [course_pure] at h
    obtain ⟨rfl, rfl⟩ := h
    exact .inl ⟨s, by simpa using hs, hd, rfl⟩
  -- the steps were used up before the program exited
  · rw [course_bind] at h
    obtain ⟨own, f, h, rfl⟩ | ⟨a, d₁, d₂, rfl, h, -⟩ := h
    · rw [course_fail] at h
      obtain ⟨rfl, h⟩ := h
      cases h
      exact .inr ⟨_, _, by simpa using hs.interrupted, by simp [Fault.Bookkeeping], rfl⟩
    · rw [course_fail] at h
      cases h.2

/-- Only a valid configuration gets as far as records. -/
theorem warmup_lt_interval_of_sample {σ : Type} {e : Engine σ} {fuel : Nat} {s s' : Session σ}
    {rs : List IntervalRecord} (h : (sample c fuel).run e s = (.ok rs, s')) :
    c.warmup < c.interval := by
  refine Nat.not_le.1 fun hle => ?_
  have he : (sample c fuel).run e s =
      (.error (.intervalNotAboveWarmup c.interval c.warmup), s) := by
    rw [sample, SamplingConfig.validate, checkWarmup, if_pos hle]
    rfl
  rw [he] at h
  cases h

end PhaseSampling
