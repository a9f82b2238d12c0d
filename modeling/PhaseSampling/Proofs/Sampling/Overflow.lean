import PhaseSampling.Proofs.Flow.Bounded
import PhaseSampling.Proofs.Sampling.Vectors
import PhaseSampling.Proofs.Vector.Overflow

/-!
# Sampling into a full output

* `SamplingConfig.Due`: a line is that of the last dump, and nothing was written since. A sampling run
  writes only such lines (`writes_sample`).
* `SamplingConfig.EndsFull`: a run ended at the first dump whose line does not fit.
* `full_output_keeps_prefix`: **a full output holds a clean prefix**, of the vectors of a run, of those
  of a writer that goes on after a failure, and of the lines that tell the records.
-/

namespace PhaseSampling

open PhaseSampling.Flow Text

variable {σ α : Type} {e : Engine σ} {s s₀ : Session σ} {P : Session σ → String → Prop}

/-! ## What is written, and when -/

theorem Flow.writes_call (c : Call) : (Flow.call c).Writes e P s := .op (by simp)

theorem Flow.writes_say (level : Level) (text : String) : (Flow.say level text).Writes e P s :=
  .op (by simp)

/-- Legs write nothing. -/
theorem writes_runFor (counter : Counter) (n : Nat) : (runFor counter n).Writes e P s := by
  unfold runFor
  refine Writes.seq (writes_call _) fun k s₁ => ?_
  split
  · refine Writes.seq (writes_call _) fun cause s₂ => ?_
    cases cause <;> trivial
  · trivial

theorem SamplingConfig.writes_advance (c : SamplingConfig) (n : Nat) :
    (c.advance n).Writes e P s := by
  unfold SamplingConfig.advance
  refine Writes.seq (writes_runFor .inst n) fun there s₁ => ?_
  split
  · trivial
  split
  · refine Writes.seq (writes_runFor .waypoint 1) fun there s₂ => ?_
    split
    · trivial
    · exact Writes.seq (writes_call _) fun i s₃ => Writes.seq (writes_call _) fun w s₄ => trivial
  · exact Writes.seq (writes_call _) fun i s₂ => trivial

/-- A warning goes to the log only. -/
theorem writes_warn (entry : VectorEntry) : entry.warn.Writes e P s := by
  unfold VectorEntry.warn
  cases entry.warning with
  | none => trivial
  | some text => exact writes_say .warn text

theorem ensures_warn (entry : VectorEntry) :
    Ensures e entry.warn s fun _ s' => s'.trace = s.trace ∧ s'.output = s.output := by
  unfold VectorEntry.warn
  cases entry.warning with
  | none => exact Ensures.pure ⟨rfl, rfl⟩
  | some text =>
    refine Ensures.op fun _ s' hsay => ?_
    cases hsay
    exact ⟨rfl, rfl⟩

variable {c : SamplingConfig} {smp : Sampler} {texts : List String} {hs : List Histogram}

/-- Of an entry only its line is written, before anything else. -/
theorem writes_record {h : Histogram} (hline : P s (smp.writer.entry h).1.line) :
    (smp.record h).Writes e P s := by
  unfold Sampler.record
  refine Writes.seq (.op fun line heq => ?_) fun _ s₁ => ?_
  · cases heq
    exact hline
  split
  · exact Writes.seq (writes_call _) fun _ s₂ => Writes.seq (writes_say _ _) fun _ s₃ => trivial
  · trivial

/-- `c.Due s₀ s line`: since `s₀` some histograms were dumped, and the lines of all but the last one
were written. The log ends with that dump, and `line` is its line. -/
def SamplingConfig.Due (c : SamplingConfig) (s₀ s : Session σ) (line : String) : Prop :=
  ∃ before text hs h, s.trace.toList = s₀.trace.toList ++ before ++ [⟨.dump, some text⟩] ∧
    Dumps (dumpTexts before) hs ∧ Histogram.parse text = .ok h ∧
    s.output.toBytes = s₀.output.toBytes ++ Utf8.encode (String.join (c.lines hs)) ∧
    c.lines (hs ++ [h]) = c.lines hs ++ [line]

namespace Sampler.Filed

/-- Filing a complete interval writes the line of its dump. -/
theorem writes_dump (h : smp.Filed c s₀ texts hs s) (hp : s₀.Precedes s) :
    smp.dump.Writes e (c.Due s₀) s := by
  rw [Sampler.dump_eq]
  -- the log once the dump is answered, and the line that is due then
  have hlog : Ensures e (Flow.call .dump) s fun text s₁ =>
      s₁.trace.toList = s.trace.toList ++ [⟨.dump, some text⟩] ∧ s₁.output = s.output := by
    refine Ensures.op fun text s₁ hperform => ?_
    have hask : s.ask e .dump = (.ok text, s₁) := hperform
    rw [Session.ask] at hask
    simp only [Prod.mk.injEq] at hask
    obtain ⟨hanswer, rfl⟩ := hask
    refine ⟨?_, rfl⟩
    simp only [Array.toList_push, hanswer]
    rfl
  refine Writes.bind (writes_call _) hlog ?_
  rintro text s₁ ⟨htrace, hout⟩
  refine Writes.ofExcept_bind fun hist hparse => ?_
  refine Writes.bind (writes_warn _) (ensures_warn _) ?_
  rintro _ s₂ ⟨htrace₂, hout₂⟩
  have hdue : c.Due s₀ s₂ (smp.writer.entry hist).1.line := by
    obtain ⟨before, hbefore⟩ := hp.trace
    refine ⟨before, text, hs, hist, ?_, ?_, hparse, ?_, ?_⟩
    · rw [htrace₂, htrace, ← hbefore]
    · have hdumps := h.grew.dumps
      rw [← hbefore, dumpTexts_append] at hdumps
      rw [List.append_cancel_left hdumps]
      exact h.dumped
    · rw [hout₂, hout, h.grew.output]
    · rw [c.lines_concat, h.writer]
  exact writes_record hdue

/-- **One step** writes only what is due. -/
theorem writes_step (h : smp.Filed c s₀ texts hs s) (hp : s₀.Precedes s) :
    (smp.step c).Writes e (c.Due s₀) s := by
  unfold Sampler.step
  split
  · refine Writes.seq (c.writes_advance _) fun there s₁ => ?_
    cases there with
    | exited => trivial
    | reached b => exact Writes.seq (writes_call _) fun _ s₂ => trivial
  · refine Writes.seq (c.writes_advance _) fun there s₁ => ?_
    cases there with
    | exited => trivial
    | reached w =>
      refine Writes.seq (c.writes_advance _) fun there s₂ => ?_
      cases there <;> trivial
  · exact h.writes_dump hp
  · trivial

/-- **All steps** do. -/
theorem writes_steps (fuel : Nat) (h : smp.Filed c s₀ texts hs s) (hp : s₀.Precedes s) :
    (Sampler.steps c fuel smp).Writes e (c.Due s₀) s := by
  induction fuel generalizing smp texts hs s with
  | zero =>
    unfold Sampler.steps
    split <;> trivial
  | succ fuel ih =>
    unfold Sampler.steps
    split
    · trivial
    · have hlater : Ensures e (smp.step c) s fun _ s' => s₀.Precedes s' := by
        intro smp' s' hrun
        have hnext := run_precedes e (smp.step c) hp.unbounded
        rw [hrun] at hnext
        exact hp.trans hnext
      refine Writes.bind (h.writes_step hp) (h.step.and hlater) ?_
      rintro smp' s' ⟨⟨texts', hs', h'⟩, hp'⟩
      exact ih h' hp'

end Sampler.Filed

/-- **A sampling run** writes only what is due. -/
theorem writes_sample (h : s₀.output.capacity = none) (c : SamplingConfig) (fuel : Nat) :
    (sample c fuel).Writes e (c.Due s₀) s₀ := by
  unfold sample
  refine Writes.ofExcept_bind fun _ _ => ?_
  refine Writes.seq ((Sampler.Filed.start h c).writes_steps fuel (.refl h)) fun smp s₁ => ?_
  refine Writes.ofExcept_bind fun _ _ => ?_
  exact Writes.seq (writes_say _ _) fun _ s₂ => trivial

/-! ## The runs side by side -/

/-- `c.EndsFull n s₀ whole cut`: of two runs from `s₀`, one has ended while the other one went on. Its
log ends with a dump. The lines of the dumps before that one fit into `n` bytes, and with its own line
they do not. The other run has written them all. -/
def SamplingConfig.EndsFull (c : SamplingConfig) (n : Nat) (s₀ whole cut : Session σ) : Prop :=
  cut.trace.toList <+: whole.trace.toList ∧
    ∃ before text hs h, cut.trace.toList = s₀.trace.toList ++ before ++ [⟨.dump, some text⟩] ∧
      Dumps (dumpTexts before) hs ∧ Histogram.parse text = .ok h ∧
      (Utf8.encode (String.join (c.lines hs))).length ≤ n ∧
      n < (Utf8.encode (String.join (c.lines (hs ++ [h])))).length ∧
      Utf8.encode (String.join (c.lines (hs ++ [h]))) <+: whole.output.toBytes

/-- The bytes of the lines with one more that is due. -/
theorem SamplingConfig.encode_lines_concat {line : String} {h : Histogram}
    (hline : c.lines (hs ++ [h]) = c.lines hs ++ [line]) :
    Utf8.encode (String.join (c.lines (hs ++ [h]))) =
      Utf8.encode (String.join (c.lines hs)) ++ Utf8.encode line := by
  rw [hline, String.join_append, String.join_cons, String.join_nil, String.append_empty,
    Utf8.encode_append]

/-- How a run from `s₀` into `n` bytes ends beside the run with room for everything: with the same
bytes, cut off. If all of them fit it ends the same, after the same calls. Else it fails at the first
dump whose line does not fit. -/
structure SamplingConfig.CutRun (c : SamplingConfig) (n : Nat) (s₀ : Session σ)
    (whole cut : Except Fault α × Session σ) : Prop where
  bytes : cut.2.output.toBytes = whole.2.output.toBytes.take n
  same : whole.2.output.toBytes.length ≤ n → cut.1 = whole.1 ∧ cut.2.trace = whole.2.trace ∧
    cut.2.engine = whole.2.engine ∧ cut.2.world = whole.2.world
  full : n < whole.2.output.toBytes.length →
    cut.1 = .error (.system .outputFull) ∧ c.EndsFull n s₀ whole.2 cut.2

theorem SamplingConfig.cutRun (c : SamplingConfig) (e : Engine σ) (s : Session σ) (fuel n : Nat) :
    c.CutRun n s ((sample c fuel).run e { s with output := .unbounded })
      ((sample c fuel).run e { s with output := .bounded n }) := by
  set s₀ : Session σ := { s with output := .unbounded } with hs₀
  have hempty : s₀.output.toBytes = [] := rfl
  have hbounded : s₀.within n = { s with output := .bounded n } := by
    rw [Session.within, hs₀, Output.unbounded_within]
  have hwrites : (sample c fuel).Writes e (c.Due s₀) s₀ := writes_sample rfl c fuel
  rw [← hbounded]
  cases run_within (show s₀.output.capacity = none from rfl) (Nat.zero_le n) hwrites with
  | whole hfit hrun =>
    rw [hrun]
    refine ⟨Output.toBytes_within _ n, fun _ => ⟨rfl, rfl, rfl, rfl⟩, fun hlong => ?_⟩
    exact absurd hfit (Nat.not_le.2 hlong)
  | cut s₁ line hdue hfit hfull hout htrace hrun =>
    rw [hrun]
    obtain ⟨before, text, hs, h, hlog, hdumps, hparse, hbytes, hline⟩ := hdue
    rw [hempty, List.nil_append] at hbytes
    rw [hbytes] at hfit hfull hout
    rw [← encode_lines_concat hline] at hfull hout
    refine ⟨Output.toBytes_within _ n, fun hshort => ?_, fun _ => ⟨rfl, htrace, ?_⟩⟩
    · exact absurd (hout.length_le.trans hshort) (Nat.not_le.2 hfull)
    · exact ⟨before, text, hs, h, hlog, hdumps, hparse, hfit, hfull, hout⟩

/-- **A full output holds a clean prefix.** What a bounded output takes is compared with what an
output without a bound takes.

* A sampling run over any engine, which may end well or not.
* A writer that goes on after a failure. The numbers are the same. An emission goes well if the lines
  up to its own fit, and behind one that failed nothing is written.
* The lines that tell the records. They go well if all of them fit. -/
theorem full_output_keeps_prefix (e : Engine σ) (s : Session σ) (c : SamplingConfig) (fuel n : Nat)
    (w : VectorWriter) (hs : List Histogram) (rs : List IntervalRecord) :
    c.CutRun n s ((sample c fuel).run e { s with output := .unbounded })
      ((sample c fuel).run e { s with output := .bounded n }) ∧
    w.CutEmissions n hs ∧
    (IntervalRecord.writeInfo .unbounded rs).1 = .ok () ∧
    (IntervalRecord.writeInfo (.bounded n) rs).2.toBytes =
      (IntervalRecord.writeInfo .unbounded rs).2.toBytes.take n ∧
    (IntervalRecord.writeInfo (.bounded n) rs).1 =
      if (IntervalRecord.writeInfo .unbounded rs).2.toBytes.length ≤ n then .ok ()
      else .error (.system .outputFull) := by
  have hunbounded : Output.unbounded.capacity = none := rfl
  obtain ⟨o, hwhole, -⟩ := Output.writeAll_of_unbounded hunbounded (rs.map IntervalRecord.infoLine)
  have hcut := Output.writeAll_within hunbounded (Nat.zero_le n) (rs.map IntervalRecord.infoLine)
  rw [Output.unbounded_within] at hcut
  refine ⟨c.cutRun e s fuel n, w.cutEmissions n hs, congrArg Prod.fst hwhole, ?_, ?_⟩
  · rw [IntervalRecord.writeInfo, hcut]
    exact Output.toBytes_within _ n
  · rw [IntervalRecord.writeInfo, hcut]
    rfl

end PhaseSampling
