import PhaseSampling.Engine.Simulated
import PhaseSampling.Proofs.Sampling.Steps

/-!
# The bookkeeping of a sampling run

* `sampler_lists_in_step`: over any engine, the lists of a sampler are in step with its stage
  wherever its run stands, so that a complete interval always has its boundaries and the check at
  the end passes. The records then **tile the run**: each begins where the one before it ends.
-/

namespace PhaseSampling

open PhaseSampling.Flow

/-- Records without a gap between them, in the order in which the log has their boundaries. -/
structure SamplingConfig.Tiled (c : SamplingConfig) (rs : List IntervalRecord)
    (l : List Exchange) : Prop where
  first : ∀ r, rs[0]? = some r → r.warmup = ⟨0, 0⟩
  abut : ∀ i r r', rs[i]? = some r → rs[i + 1]? = some r' → r'.begins = r.ends
  /-- The warmup of a record was read off between the begin and the end of the one before it. -/
  between : ∀ i r r', rs[i]? = some r → rs[i + 1]? = some r' →
    ∃ before out back after, l = before ++ out ++ back ++ after ∧ c.Newest r.begins before ∧
      c.Leg (c.interval - c.warmup) r'.warmup out ∧ c.Leg c.warmup r.ends back

namespace SamplingConfig

variable {c : SamplingConfig} {rs : List IntervalRecord} {w b : Boundary} {l : List Exchange}

theorem Tiled.append (h : c.Tiled rs l) (l' : List Exchange) : c.Tiled rs (l ++ l') := by
  refine ⟨h.first, h.abut, fun i r r' hr hr' => ?_⟩
  obtain ⟨before, out, back, after, rfl, hb, hw, he⟩ := h.between i r r' hr hr'
  exact ⟨before, out, back, after ++ l', by simp, hb, hw, he⟩

theorem Tour.tiled (t : c.Tour rs w b l) : c.Tiled rs l where
  first r hr := by
    obtain ⟨-, l₀, -, -, -, -, ht, -⟩ := t.split hr
    exact (ht.of_nil List.take_zero).1
  abut i r r' hr hr' := by
    obtain ⟨-, -, -, -, -, -, -, -, -, -, -, he⟩ := t.split hr
    rw [List.getElem?_append_left (by simpa using (List.getElem?_eq_some_iff.1 hr').1)] at he
    simpa [hr'] using he
  between i r r' hr hr' := by
    obtain ⟨w', l₀, out, back, text, after, ht, ho, hb, rfl, hw, -⟩ := t.split hr
    rw [List.getElem?_append_left (by simpa using (List.getElem?_eq_some_iff.1 hr').1)] at hw
    have hw : r'.warmup = w' := by simpa [hr'] using hw
    exact ⟨l₀, out, back, ⟨.dump, some text⟩ :: after, by simp, ht.newest, hw ▸ ho, hb⟩

end SamplingConfig

/-- The records of a sampler tile the run so far. -/
theorem Sampler.History.tiled {c : SamplingConfig} {s : Sampler} {l : List Exchange}
    (hs : s.History c l) : c.Tiled s.records.toList l := by
  cases hs with
  | warming wr => exact ⟨by simp, by simp, by simp⟩
  | sampling wr t => exact t.tiled
  | dumping wr t ho hb => exact t.tiled.append _
  | exitedFirst wr h => exact ⟨by simp, by simp, by simp⟩
  | exitedOut wr t h => exact t.tiled.append _
  | exitedBack wr t ho h => exact t.tiled.append _

theorem Sampler.Balanced.complete {s : Sampler} (hs : s.Balanced) (hd : s.stage = .dumping) :
    s.records.size < s.warmups.size ∧ s.records.size + 1 < s.bounds.size := by
  simp only [Balanced, hd] at hs
  omega

/-- **The lists of a sampler are in step** after any number of steps over any engine: a complete
interval has its boundaries noted, and a run never finds its own lists out of step. (A fault of that
kind can only be an answer of the engine.) When the run ends well its records tile it. -/
theorem sampler_lists_in_step {σ : Type} (e : Engine σ) (c : SamplingConfig) (s : Session σ) :
    (∀ n smp s', (Sampler.walk c n (.start c)).run e s = (.ok smp, s') →
      smp.Balanced ∧ (smp.stage = .dumping →
        smp.records.size < smp.warmups.size ∧ smp.records.size + 1 < smp.bounds.size)) ∧
    (∀ fuel f s', (sample c fuel).run e s = (.error f, s') → f.Bookkeeping →
      ∃ call a w, (e.answer call a w).1 = .error f) ∧
    (∀ fuel rs s', (sample c fuel).run e s = (.ok rs, s') →
      ∃ l, s'.trace.toList = s.trace.toList ++ l ∧ c.Tiled rs l) := by
  refine ⟨fun n smp s' h => ?_, fun fuel f s' h hf => ?_, fun fuel rs s' h => ?_⟩
  -- at any point of the run
  · obtain ⟨d, hc, -⟩ := exists_course_of_ok h
    have hb := Sampler.History.balanced ((Sampler.history_start c).after_walk hc)
    exact ⟨hb, hb.complete⟩
  · obtain ⟨d, r, hc, hr, hd, -⟩ := exists_course e (sample c fuel) s
    rw [h] at hr
    obtain ⟨smp, -, -, rfl⟩ | ⟨own, g, -, hg, rfl⟩ := course_sample hc
    · cases hr
    cases hr
    -- the fault is not the sampler's own, so it is that of an operation
    have hown : own = false := by
      cases own with
      | true => exact absurd hf (hg rfl)
      | false => rfl
    subst hown
    obtain ⟨o, ho⟩ := hc.broken_mem rfl
    obtain ha | ⟨cause, rfl⟩ := (hd _ ho).fault
    · exact ha
    · obtain ⟨_, _, _, hf⟩ := hf
      cases hf
  · obtain ⟨d, hc, ht, -⟩ := exists_course_of_ok h
    obtain ⟨smp, hs, -, hr⟩ | ⟨own, g, -, -, hr⟩ := course_sample hc
    · cases hr
      exact ⟨_, ht, hs.tiled⟩
    · cases hr

/-- A program of ten instructions: its sampler after two steps, and the records of its run. An engine
that answers with a fault of the books is the only source of one. -/
theorem sampler_lists_in_step_ten :
    (∃ smp s', (Sampler.walk ⟨1, 3, 2, false⟩ 2 (.start ⟨1, 3, 2, false⟩)).run Simulated.engine
        (.fresh (.program 10 1 ["3 a\n", "2 b\n"])) = (.ok smp, s') ∧
      smp.Balanced ∧ smp.records.size + 1 < smp.bounds.size) ∧
    (∃ call a w, (({ answer := fun _ a w => (.error (.bookkeeping 1 0 0), a, w), budget := id } :
        Engine Nat).answer call a w).1 = .error (.bookkeeping 1 0 0)) ∧
    ∃ l, (SamplingConfig.mk 1 3 2 false).Tiled
      [⟨⟨0, 0⟩, ⟨1, 1⟩, ⟨4, 4⟩, 3, true⟩, ⟨⟨3, 3⟩, ⟨4, 4⟩, ⟨7, 7⟩, 2, true⟩] l := by
  refine ⟨?_, ?_, ?_⟩
  · have hstage : ((Sampler.walk ⟨1, 3, 2, false⟩ 2 (.start ⟨1, 3, 2, false⟩)).run
        Simulated.engine (.fresh (.program 10 1 ["3 a\n", "2 b\n"]))).1.toOption.map
          Sampler.stage = some .dumping := by decide +kernel
    obtain ⟨smp, hrun, hd⟩ := Option.map_eq_some_iff.1 hstage
    obtain ⟨hb, hc⟩ := (sampler_lists_in_step _ _ _).1 2 smp _ (run_of_toOption hrun)
    exact ⟨smp, _, run_of_toOption hrun, hb, (hc hd).2⟩
  · exact (sampler_lists_in_step _ ⟨1, 3, 2, false⟩ (.fresh 0)).2.1 1 _ _ rfl ⟨_, _, _, rfl⟩
  · have hrun : ((sample ⟨1, 3, 2, false⟩ 10).run Simulated.engine
        (.fresh (.program 10 1 ["3 a\n", "2 b\n"]))).1.toOption = some
        [⟨⟨0, 0⟩, ⟨1, 1⟩, ⟨4, 4⟩, 3, true⟩, ⟨⟨3, 3⟩, ⟨4, 4⟩, ⟨7, 7⟩, 2, true⟩] := by
      decide +kernel
    obtain ⟨l, -, ht⟩ := (sampler_lists_in_step _ _ _).2.2 10 _ _ (run_of_toOption hrun)
    exact ⟨l, ht⟩

end PhaseSampling
