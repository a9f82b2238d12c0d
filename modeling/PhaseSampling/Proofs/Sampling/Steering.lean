import Mathlib.Data.List.Forall2
import PhaseSampling.Engine.Scripted
import PhaseSampling.Engine.Simulated
import PhaseSampling.Proofs.Flow.Pairs
import PhaseSampling.Proofs.Sampling.Filing

/-!
# What does not steer a sampling run

Where boundaries fall depends on the engine's counts and stops alone. The histograms fill the vectors,
and the tolerance decides which of them are kept; neither is read on the way.

* `IntervalRecord.Beside`, `Sampler.Beside`: what two runs with other histograms have in common.
* `inStep_sample`: **sampling runs are in step** over engines that differ in their dumps.
* `Unsteered`, `dumps_do_not_steer`: so are runs over simulated programs and over scripts.
-/

namespace PhaseSampling

open PhaseSampling.Flow

/-- A dump that can be read. -/
def Readable (dump : String) : Prop := ∃ h, Histogram.parse dump = .ok h

/-- Dumps that can be read. If the dumps of two runs are the `same`, so are they. -/
def Histogram.Beside (same : Prop) (dump dump' : String) : Prop :=
  Readable dump ∧ Readable dump' ∧ (same → dump = dump')

/-- Records of the same interval, where the second run has the greater tolerance. -/
structure IntervalRecord.Beside (same : Prop) (r r' : IntervalRecord) : Prop where
  warmup : r.warmup = r'.warmup
  begins : r.begins = r'.begins
  ends : r.ends = r'.ends
  total : same → r.total = r'.total
  wellFormed : same → r.wellFormed = true → r'.wellFormed = true

/-- Samplers at the same point. -/
structure Sampler.Beside (same : Prop) (x y : Sampler) : Prop where
  stage : x.stage = y.stage
  warmups : x.warmups = y.warmups
  bounds : x.bounds = y.bounds
  records : List.Forall₂ (IntervalRecord.Beside same) x.records.toList y.records.toList
  limit : x.writer.limit ≤ y.writer.limit

variable {σ : Type} {e : Engine σ} {E : σ → σ → Prop} {same : Prop} {x y : Sampler}
  {h h' : Histogram}

theorem Sampler.Beside.size (hxy : x.Beside same y) : x.records.size = y.records.size := by
  have hlen := hxy.records.length_eq
  rwa [Array.length_toList, Array.length_toList] at hlen

/-! ## Legs -/

variable (hb : e.Blind E (Histogram.Beside same))

include hb

theorem inStep_runFor (counter : Counter) (n : Nat) :
    InStep e E (runFor counter n) (runFor counter n) Eq := by
  unfold runFor
  refine (inStep_call hb (.count counter)).bind ?_
  rintro k _ rfl
  by_cases hlt : k + n < Text.wordLimit
  · simp only [if_pos hlt]
    refine (inStep_call hb (.advance counter (k + n))).bind ?_
    rintro cause _ rfl
    cases cause with
    | breakpoint => exact .pure rfl
    | completed => exact .pure rfl
    | other text => exact .fail _
  · simp only [if_neg hlt]
    exact .fail _

theorem SamplingConfig.inStep_advance (c : SamplingConfig) (n : Nat) :
    InStep e E (c.advance n) (c.advance n) Eq := by
  unfold SamplingConfig.advance
  refine (inStep_runFor hb .inst n).bind ?_
  rintro there _ rfl
  cases there with
  | false => exact .pure rfl
  | true =>
    simp only [Bool.not_true, Bool.false_eq_true, if_false]
    split
    · refine (inStep_runFor hb .waypoint 1).bind ?_
      rintro there _ rfl
      cases there with
      | false => exact .pure rfl
      | true =>
        refine (inStep_call hb (.count .inst)).bind ?_
        rintro i _ rfl
        refine (inStep_call hb (.count .waypoint)).bind ?_
        rintro w _ rfl
        exact .pure rfl
    · refine (inStep_call hb (.count .inst)).bind ?_
      rintro i _ rfl
      exact .pure rfl

/-! ## Filing -/

omit hb

theorem VectorWriter.limit_entry (w : VectorWriter) (h : Histogram) :
    (w.entry h).2.limit = w.limit := by
  unfold VectorWriter.entry
  split <;> rfl

theorem VectorWriter.wellFormed_entry (w : VectorWriter) (h : Histogram) :
    (w.entry h).1.wellFormed = w.fits h := by
  unfold VectorWriter.entry
  split <;> simp [*]

/-- What fits under a limit fits under a greater one. -/
theorem VectorWriter.fits_mono {w w' : VectorWriter} (hle : w.limit ≤ w'.limit)
    (hfits : w.fits h = true) : w'.fits h = true := by
  unfold fits at hfits ⊢
  have hle' : h.total ≤ w.limit := of_decide_eq_true hfits
  exact decide_eq_true (Nat.le_trans hle' hle)

/-- The same histogram under a greater tolerance, or another histogram, makes a record beside. -/
theorem Sampler.beside_record (hxy : x.Beside same y) (hsame : same → h = h')
    (warmup begins ends : Boundary) :
    IntervalRecord.Beside same
      ⟨warmup, begins, ends, h.total, (x.writer.entry h).1.wellFormed⟩
      ⟨warmup, begins, ends, h'.total, (y.writer.entry h').1.wellFormed⟩ where
  warmup := rfl
  begins := rfl
  ends := rfl
  total hs := by rw [hsame hs]
  wellFormed hs hfits := by
    rw [VectorWriter.wellFormed_entry] at hfits ⊢
    rw [← hsame hs]
    exact VectorWriter.fits_mono hxy.limit hfits

/-- A warning goes to the log only. -/
theorem run_warn (entry : VectorEntry) (e : Engine σ) (s : Session σ) :
    ∃ w, entry.warn.run e s = (.ok (), { s with world := w }) := by
  unfold VectorEntry.warn
  cases entry.warning with
  | none => exact ⟨s.world, rfl⟩
  | some text => exact ⟨s.world.say .warn text, rfl⟩

theorem inStep_warn (entry entry' : VectorEntry) :
    InStep e E entry.warn entry'.warn fun _ _ => True := by
  intro s t hst
  obtain ⟨w, hw⟩ := run_warn entry e s
  obtain ⟨w', hw'⟩ := run_warn entry' e t
  rw [hw, hw']
  exact ⟨.ok trivial, hst.engine, hst.unbounded, hst.trace⟩

include hb

theorem Sampler.inStep_record (hxy : x.Beside same y) (hsame : same → h = h') :
    InStep e E (x.record h) (y.record h') (Sampler.Beside same) := by
  unfold Sampler.record
  rw [← hxy.size, ← hxy.warmups, ← hxy.bounds]
  refine (inStep_append _ _).bind fun _ _ _ => ?_
  rcases x.warmups[x.records.size]?, x.bounds[x.records.size]?, x.bounds[x.records.size + 1]?
    with ⟨_ | warmup, _ | begins, _ | ends⟩
  case some.some.some =>
    refine (inStep_call hb .reset).bind fun _ _ _ => ?_
    refine (inStep_say _ _ _).bind fun _ _ _ => .pure ?_
    refine ⟨rfl, rfl, rfl, ?_, ?_⟩
    · simp only [Array.toList_push]
      exact List.rel_append hxy.records (.cons (beside_record hxy hsame _ _ _) .nil)
    · rw [VectorWriter.limit_entry, VectorWriter.limit_entry]
      exact hxy.limit
  -- lists that are out of step are so in both runs
  all_goals
    have hmismatch : x.mismatch = y.mismatch := by
      unfold Sampler.mismatch
      rw [hxy.warmups, hxy.bounds, hxy.size]
    rw [hmismatch]
    exact .fail _

theorem Sampler.inStep_dump (hxy : x.Beside same y) :
    InStep e E x.dump y.dump (Sampler.Beside same) := by
  rw [Sampler.dump_eq, Sampler.dump_eq]
  refine (Flow.inStep_dump hb).bind ?_
  rintro dump dump' ⟨⟨h, hp⟩, ⟨h', hp'⟩, hsame⟩
  have hsame' : same → h = h' := by
    intro hs
    rw [← hsame hs, hp] at hp'
    exact Except.ok.inj hp'
  rw [hp, hp']
  have hread : InStep e E (ofExcept (.ok h)) (ofExcept (.ok h')) fun a b => same → a = b :=
    .ofExcept (.ok hsame')
  refine hread.bind fun h h' hsame => ?_
  refine (inStep_warn _ _).bind fun _ _ _ => ?_
  exact inStep_record hb hxy hsame

/-! ## Whole runs -/

/-- **A step** takes samplers at the same point to the same point. -/
theorem Sampler.inStep_step (hxy : x.Beside same y) (c : SamplingConfig) (tolerance : Nat) :
    InStep e E (x.step c) (y.step { c with tolerance }) (Sampler.Beside same) := by
  unfold Sampler.step
  rw [← hxy.stage]
  cases hstage : x.stage with
  | warming =>
    refine (c.inStep_advance hb c.warmup).bind ?_
    rintro there _ rfl
    cases there with
    | exited => exact .pure { hxy with stage := rfl }
    | reached b =>
      refine (inStep_call hb .reset).bind fun _ _ _ => .pure ?_
      exact { hxy with stage := rfl, bounds := congrArg (·.push b) hxy.bounds }
  | sampling =>
    refine (c.inStep_advance hb (c.interval - c.warmup)).bind ?_
    rintro there _ rfl
    cases there with
    | exited => exact .pure { hxy with stage := rfl }
    | reached b =>
      have hwarmups : x.warmups.push b = y.warmups.push b := congrArg (·.push b) hxy.warmups
      refine (c.inStep_advance hb c.warmup).bind ?_
      rintro there _ rfl
      cases there with
      | exited => exact .pure { hxy with stage := rfl, warmups := hwarmups }
      | reached b' =>
        exact .pure
          { hxy with stage := rfl, warmups := hwarmups, bounds := congrArg (·.push b') hxy.bounds }
  | dumping => exact inStep_dump hb hxy
  | done => exact .pure hxy

/-- **All steps** do. -/
theorem Sampler.inStep_steps (hxy : x.Beside same y) (c : SamplingConfig) (tolerance fuel : Nat) :
    InStep e E (Sampler.steps c fuel x) (Sampler.steps { c with tolerance } fuel y)
      (Sampler.Beside same) := by
  induction fuel generalizing x y with
  | zero =>
    unfold Sampler.steps
    rw [← hxy.stage]
    by_cases hd : x.stage = .done
    · simp only [if_pos hd]
      exact .pure hxy
    · simp only [if_neg hd]
      exact .fail _
  | succ fuel ih =>
    unfold Sampler.steps
    rw [← hxy.stage]
    by_cases hd : x.stage = .done
    · simp only [if_pos hd]
      exact .pure hxy
    · simp only [if_neg hd]
      exact (inStep_step hb hxy c tolerance).bind fun x' y' hxy' => ih hxy'

omit hb in
theorem Sampler.beside_start (c : SamplingConfig) {tolerance : Nat} (ht : c.tolerance ≤ tolerance) :
    (Sampler.start c).Beside same (.start { c with tolerance }) where
  stage := rfl
  warmups := rfl
  bounds := rfl
  records := .nil
  limit := by
    have hmul : c.interval * c.tolerance ≤ c.interval * tolerance := Nat.mul_le_mul_left _ ht
    show min (c.interval * c.tolerance) Text.wordMax ≤ min (c.interval * tolerance) Text.wordMax
    omega

/-- **Sampling runs are in step** over engines that differ in their dumps. -/
theorem inStep_sample (c : SamplingConfig) {tolerance : Nat} (ht : c.tolerance ≤ tolerance)
    (fuel : Nat) :
    InStep e E (sample c fuel) (sample { c with tolerance } fuel)
      (List.Forall₂ (IntervalRecord.Beside same)) := by
  unfold sample
  refine (InStep.ofExcept (alike_refl c.validate)).bind fun _ _ _ => ?_
  refine (Sampler.inStep_steps hb (Sampler.beside_start c ht) c tolerance fuel).bind
    fun x y hxy => ?_
  rw [← hxy.warmups, ← hxy.bounds, ← hxy.size]
  refine (InStep.ofExcept (alike_refl _)).bind fun _ _ _ => ?_
  exact (inStep_say _ _ _).bind fun _ _ _ => .pure hxy.records

omit hb

/-! ## Simulated programs and scripts -/

/-- Scripted dumps beside each other: two texts that can be read, or the same fault. -/
inductive Scripted.Entry.Beside : Entry String → Entry String → Prop where
  | dump {dump dump' : String} (h : Readable dump) (h' : Readable dump') : Beside (.ok dump) (.ok dump')
  | fault (text : String) : Beside (.error text) (.error text)

/-- Programs that differ in their dumps only. -/
def Simulated.Beside (same : Prop) (a b : Simulated) : Prop :=
  (∀ dump ∈ a.dumps, Readable dump) ∧
    ∃ dumps, b = { a with dumps } ∧ (∀ dump ∈ dumps, Readable dump) ∧ (same → a.dumps = dumps)

/-- Scripts that differ in their dumps only. -/
def Scripted.Beside (same : Prop) (a b : Scripted) : Prop :=
  ∃ dumps, b = { a with dumps } ∧ List.Forall₂ Entry.Beside a.dumps dumps ∧
    (same → a.dumps = dumps)

theorem readable_empty : Readable "" := ⟨_, rfl⟩

theorem readable_headD {dumps : List String} (hd : ∀ dump ∈ dumps, Readable dump) :
    Readable (dumps.headD "") := by
  cases dumps with
  | nil => exact readable_empty
  | cons dump dumps => exact hd dump (List.mem_cons_self ..)

/-- An advance leaves the dumps alone and does not read them. -/
theorem Simulated.advance_dumps (a : Simulated) (dumps : List String) (counter : Counter)
    (target : Nat) : Simulated.advance { a with dumps } counter target =
      ((a.advance counter target).1, { (a.advance counter target).2 with dumps }) := by
  obtain ⟨length, spacing, inst, _, forced, checkpoints, statsDumps, resets, breakpoints⟩ := a
  cases forced with
  | cons cause forced => rfl
  | nil =>
    cases counter with
    | inst =>
      by_cases hend : length ≤ target
      · simp [advance, position, hend]
      · simp [advance, position, hend]
    | waypoint =>
      by_cases hend : length ≤ target * spacing
      · simp [advance, position, hend]
      · simp [advance, position, hend]

theorem Simulated.advance_keeps_dumps (a : Simulated) (counter : Counter) (target : Nat) :
    (a.advance counter target).2.dumps = a.dumps :=
  congrArg (fun r => r.2.dumps) (a.advance_dumps a.dumps counter target)

theorem Simulated.blind (same : Prop) :
    Simulated.engine.Blind (Simulated.Beside same) (Histogram.Beside same) where
  steering := by
    rintro c hc a b w w' ⟨ha, dumps, rfl, hb, hsame⟩
    cases hc with
    | count counter =>
      refine ⟨?_, ha, dumps, rfl, hb, hsame⟩
      cases counter <;> rfl
    | advance counter target =>
      have hkept := a.advance_keeps_dumps counter target
      show (Except.ok (a.advance counter target).1 : Except Fault StopCause) =
          .ok (Simulated.advance { a with dumps } counter target).1 ∧
        Simulated.Beside same (a.advance counter target).2
          (Simulated.advance { a with dumps } counter target).2
      rw [a.advance_dumps dumps]
      refine ⟨rfl, ?_, dumps, rfl, hb, ?_⟩
      · rw [hkept]
        exact ha
      · rw [hkept]
        exact hsame
    | reset => exact ⟨rfl, ha, dumps, rfl, hb, hsame⟩
  dump := by
    rintro a b w w' ⟨ha, dumps, rfl, hb, hsame⟩
    refine ⟨.ok ⟨readable_headD ha, readable_headD hb, fun hs => ?_⟩,
      fun dump hmem => ha dump (List.mem_of_mem_tail hmem), dumps.tail, rfl,
      fun dump hmem => hb dump (List.mem_of_mem_tail hmem), fun hs => ?_⟩
    · rw [hsame hs]
    · exact congrArg List.tail (hsame hs)

theorem Scripted.blind (same : Prop) :
    Scripted.engine.Blind (Scripted.Beside same) (Histogram.Beside same) where
  steering := by
    rintro c hc a b w w' ⟨dumps, rfl, hd, hsame⟩
    cases hc with
    | count counter => exact ⟨rfl, dumps, rfl, hd, hsame⟩
    | advance counter target => exact ⟨rfl, dumps, rfl, hd, hsame⟩
    | reset =>
      obtain ⟨counts, causes, _, acks⟩ := a
      cases acks with
      | nil => exact ⟨rfl, dumps, rfl, hd, hsame⟩
      | cons ack acks => exact ⟨rfl, dumps, rfl, hd, hsame⟩
  dump := by
    rintro ⟨counts, causes, queue, acks⟩ b w w' ⟨dumps, rfl, hd, hsame⟩
    cases hd with
    | nil => exact ⟨.error _, [], rfl, .nil, fun _ => rfl⟩
    | @cons entry entry' queue dumps hentry hd =>
      have htail : same → queue = dumps := fun hs => (List.cons.inj (hsame hs)).2
      cases hentry with
      | dump h h' =>
        refine ⟨.ok ⟨h, h', fun hs => ?_⟩, dumps, rfl, hd, htail⟩
        exact Except.ok.inj (List.cons.inj (hsame hs)).1
      | fault text => exact ⟨.error _, dumps, rfl, hd, htail⟩

/-- Two sampling runs that an onlooker cannot tell apart who does not see their dumps: they made the same
calls, with the same answers but for the texts of dumps, and they ended with the same fault, or with
as many records at the same boundaries. -/
structure Unsteered (same : Prop) (r r' : Except Fault (List IntervalRecord) × Session σ) :
    Prop where
  calls : r.2.trace.toList.map Exchange.veiled = r'.2.trace.toList.map Exchange.veiled
  result : Alike (List.Forall₂ (IntervalRecord.Beside same)) r.1 r'.1

/-- **Histograms and tolerance never steer a run.** Two sampling runs start alike, with room for all
they write; they differ in their dumps, all of which can be read, and in their tolerance. They make the
same calls and end the same. If the dumps do not differ, the totals are the same, and what is well
formed under one tolerance is so under a greater one. -/
theorem dumps_do_not_steer (c : SamplingConfig) {tolerance : Nat} (ht : c.tolerance ≤ tolerance) :
    (∀ (s : Session Simulated) (dumps : List String), s.output.capacity = none →
      (∀ dump ∈ s.engine.dumps, Readable dump) → (∀ dump ∈ dumps, Readable dump) →
      Unsteered (s.engine.dumps = dumps) (runSampling Simulated.engine c s)
        (runSampling Simulated.engine { c with tolerance }
          { s with engine := { s.engine with dumps } })) ∧
    (∀ (s : Session Scripted) (dumps : List (Scripted.Entry String)), s.output.capacity = none →
      List.Forall₂ Scripted.Entry.Beside s.engine.dumps dumps →
      Unsteered (s.engine.dumps = dumps) (runSampling Scripted.engine c s)
        (runSampling Scripted.engine { c with tolerance }
          { s with engine := { s.engine with dumps } })) := by
  constructor
  · intro s dumps hs hd hd'
    have htwins : s.Twins (Simulated.Beside (s.engine.dumps = dumps))
        { s with engine := { s.engine with dumps } } :=
      ⟨⟨hd, dumps, rfl, hd', id⟩, ⟨hs, hs⟩, rfl⟩
    obtain ⟨halike, hend⟩ := inStep_sample (Simulated.blind _) c ht
      (Simulated.engine.budget s.engine) _ _ htwins
    exact ⟨hend.trace, halike⟩
  · intro s dumps hs hd
    have htwins : s.Twins (Scripted.Beside (s.engine.dumps = dumps))
        { s with engine := { s.engine with dumps } } :=
      ⟨⟨dumps, rfl, hd, id⟩, ⟨hs, hs⟩, rfl⟩
    obtain ⟨halike, hend⟩ := inStep_sample (Scripted.blind _) c ht
      (Scripted.engine.budget s.engine) _ _ htwins
    exact ⟨hend.trace, halike⟩

/-- A program of ten instructions that dumps two histograms, of which a tolerance of one lets the first
pass and a tolerance of three lets both; and a script whose second stop is a signal. -/
theorem dumps_do_not_steer_ten :
    ((runSampling Simulated.engine ⟨1, 3, 1, false⟩
        (.fresh (.program 10 1 ["3 a\n", "9 b\n"]))).1.toOption.map (·.map IntervalRecord.wellFormed)
      = some [true, false]) ∧
    Unsteered (["3 a\n", "9 b\n"] = ["3 a\n", "9 b\n"])
      (runSampling Simulated.engine ⟨1, 3, 1, false⟩ (.fresh (.program 10 1 ["3 a\n", "9 b\n"])))
      (runSampling Simulated.engine ⟨1, 3, 3, false⟩ (.fresh (.program 10 1 ["3 a\n", "9 b\n"]))) ∧
    Unsteered ([.ok "3 a\n"] = [Except.ok (ε := String) ""])
      (runSampling Scripted.engine ⟨1, 3, 1, false⟩ (.fresh ⟨[.ok 0, .ok 1, .ok 1],
        [.ok .breakpoint, .ok (.other "signal 11")], [.ok "3 a\n"], []⟩))
      (runSampling Scripted.engine ⟨1, 3, 9, false⟩ (.fresh ⟨[.ok 0, .ok 1, .ok 1],
        [.ok .breakpoint, .ok (.other "signal 11")], [.ok ""], []⟩)) := by
  have hreadable : ∀ dump ∈ ["3 a\n", "9 b\n"], Readable dump := by
    intro dump hd
    simp only [List.mem_cons, List.not_mem_nil, or_false] at hd
    rcases hd with rfl | rfl
    · exact ⟨⟨[⟨"a", 3⟩], 3⟩, by decide +kernel⟩
    · exact ⟨⟨[⟨"b", 9⟩], 9⟩, by decide +kernel⟩
  refine ⟨by decide +kernel, ?_, ?_⟩
  · have ht : (SamplingConfig.mk 1 3 1 false).tolerance ≤ 3 := by decide
    exact (dumps_do_not_steer ⟨1, 3, 1, false⟩ ht).1 (.fresh (.program 10 1 ["3 a\n", "9 b\n"]))
      ["3 a\n", "9 b\n"] rfl hreadable hreadable
  · have ht : (SamplingConfig.mk 1 3 1 false).tolerance ≤ 9 := by decide
    exact (dumps_do_not_steer ⟨1, 3, 1, false⟩ ht).2 (.fresh ⟨[.ok 0, .ok 1, .ok 1],
        [.ok .breakpoint, .ok (.other "signal 11")], [.ok "3 a\n"], []⟩) [.ok ""] rfl
      (.cons (.dump (hreadable _ (by simp)) readable_empty) .nil)

end PhaseSampling
