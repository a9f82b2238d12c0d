import PhaseSampling.Engine.Simulated
import PhaseSampling.Proofs.Sampling.Steps

/-!
# What a histogram covers

A histogram belongs to the instructions between the reset that opened it and its dump. These are the
instructions of one interval.

* `SamplingConfig.Timed`: the order of calls around dumps and resets. It holds of every log of a
  sampling run, wherever the run was cut off (`Interrupted.timed`).
* `histograms_cover_intervals`: over any engine **every histogram covers exactly the interval it is
  filed under**.
-/

namespace PhaseSampling

open PhaseSampling.Flow SamplingConfig

/-- The order of calls around dumps and resets. A leg ends with the count calls for its boundary, so
nothing comes between these and the dump. -/
structure SamplingConfig.Timed (c : SamplingConfig) (l : List Exchange) : Prop where
  /-- A dump comes when one full cycle was run since the last reset. -/
  dump : ∀ pre x, pre ++ [x] <+: l → x.call = .dump →
    ∃ before w b out back, pre = before ++ ⟨.reset, some ()⟩ :: (out ++ back) ∧
      c.Leg (c.interval - c.warmup) w out ∧ c.Leg c.warmup b back
  /-- A reset comes directly after the first leg or directly after a dump. -/
  reset : ∀ pre x, pre ++ [x] <+: l → x.call = .reset →
    (∃ b, c.Leg c.warmup b pre) ∨ ∃ before text, pre = before ++ [⟨.dump, some text⟩]

/-- The number of resets in a log. -/
def resets (l : List Exchange) : Nat := l.countP fun x => x.call = .reset

/-- The number of dumps in a log. -/
def dumps (l : List Exchange) : Nat := l.countP fun x => x.call = .dump

/-- The instruction count that an exchange gave. -/
def Exchange.inst? : Exchange → Option Nat
  | ⟨.count .inst, answer⟩ => answer
  | _ => none

/-- The newest instruction count in a log. -/
def newestInst (l : List Exchange) : Option Nat := (l.filterMap Exchange.inst?).getLast?

/-- Each record has its histogram: opened when the program stood where the interval begins, and
dumped when it stood where the interval ends. -/
def Covered (rs : List IntervalRecord) (l : List Exchange) : Prop :=
  ∀ i r, rs[i]? = some r → ∃ before run text after,
    l = before ++ ⟨.reset, some ()⟩ :: (run ++ ⟨.dump, some text⟩ :: after) ∧
    dumps before = i ∧ (∀ x ∈ run, x.Quiet) ∧
    newestInst before = some r.begins.inst ∧
    newestInst (before ++ ⟨.reset, some ()⟩ :: run) = some r.ends.inst

variable {c : SamplingConfig} {l q : List Exchange} {rs : List IntervalRecord} {w b : Boundary}

theorem resets_append (l l' : List Exchange) : resets (l ++ l') = resets l + resets l' :=
  List.countP_append

theorem dumps_append (l l' : List Exchange) : dumps (l ++ l') = dumps l + dumps l' :=
  List.countP_append

theorem resets_eq_zero (hq : ∀ x ∈ q, x.Quiet) : resets q = 0 :=
  List.countP_eq_zero.2 fun x hx => by simpa using (hq x hx).2

theorem dumps_eq_zero (hq : ∀ x ∈ q, x.Quiet) : dumps q = 0 :=
  List.countP_eq_zero.2 fun x hx => by simpa using (hq x hx).1

namespace SamplingConfig

theorem Timed.nil : c.Timed [] where
  dump pre x h := by simp at h
  reset pre x h := by simp at h

/-- One more exchange keeps the order if it comes when it may. -/
theorem Timed.snoc (h : c.Timed l) {x : Exchange}
    (hd : x.call = .dump → ∃ before w b out back, l = before ++ ⟨.reset, some ()⟩ :: (out ++ back) ∧
      c.Leg (c.interval - c.warmup) w out ∧ c.Leg c.warmup b back)
    (hr : x.call = .reset →
      (∃ b, c.Leg c.warmup b l) ∨ ∃ before text, l = before ++ [⟨.dump, some text⟩]) :
    c.Timed (l ++ [x]) where
  dump pre y hp hy := by
    obtain hp | hp := List.prefix_concat_iff.1 hp
    · obtain ⟨rfl, hxy⟩ := List.append_inj' hp rfl
      cases hxy
      exact hd hy
    · exact h.dump pre y hp hy
  reset pre y hp hy := by
    obtain hp | hp := List.prefix_concat_iff.1 hp
    · obtain ⟨rfl, hxy⟩ := List.append_inj' hp rfl
      cases hxy
      exact hr hy
    · exact h.reset pre y hp hy

theorem Timed.append_quiet (h : c.Timed l) (hq : ∀ x ∈ q, x.Quiet) : c.Timed (l ++ q) := by
  -- exchange by exchange, none of which is a dump or a reset
  induction q generalizing l with
  | nil => simpa using h
  | cons x q ih =>
    have hx := hq x List.mem_cons_self
    have := ih (h.snoc (fun hd => absurd hd hx.1) fun hr => absurd hr hx.2)
      fun y hy => hq y (List.mem_cons_of_mem _ hy)
    rwa [List.append_assoc] at this

theorem Leg.newestInst {n : Nat} {leg : List Exchange} (h : c.Leg n b leg) (l : List Exchange) :
    newestInst (l ++ leg) = some b.inst := by
  rw [PhaseSampling.newestInst, List.filterMap_append, List.getLast?_append]
  cases h <;> rfl

/-- A tour ends with the reset that opens the next histogram. -/
theorem Tour.ends_with_reset (t : c.Tour rs w b l) :
    ∃ before, l = before ++ [⟨.reset, some ()⟩] ∧ PhaseSampling.newestInst before = some b.inst := by
  cases t with
  | first h => exact ⟨_, rfl, h.newestInst []⟩
  | @filed _ _ _ _ _ l₀ out back t ho hb text total wellFormed =>
    refine ⟨l₀ ++ (out ++ back ++ [⟨.dump, some text⟩]), by simp, ?_⟩
    have := hb.newestInst (l₀ ++ out)
    rw [← this, ← List.append_assoc, ← List.append_assoc, PhaseSampling.newestInst,
      List.filterMap_append]
    exact congrArg List.getLast? (List.append_nil _)

/-- The dump at the end of a cycle comes when it may. -/
theorem Tour.timed_dump {out back : List Exchange} {w' b' : Boundary} (t : c.Tour rs w b l)
    (h : c.Timed l) (ho : c.Leg (c.interval - c.warmup) w' out) (hb : c.Leg c.warmup b' back)
    (answer : Option String) : c.Timed (l ++ (out ++ back ++ [⟨.dump, answer⟩])) := by
  obtain ⟨before, rfl, -⟩ := t.ends_with_reset
  have hq : ∀ x ∈ out ++ back, x.Quiet := quiet_append ho.quiet hb.quiet
  have := (h.append_quiet hq).snoc (x := ⟨.dump, answer⟩)
    (fun _ => ⟨before, w', b', out, back, by simp, ho, hb⟩) nofun
  rwa [List.append_assoc] at this

theorem Tour.timed (t : c.Tour rs w b l) : c.Timed l := by
  induction t with
  | first h => exact (Timed.nil.append_quiet h.quiet).snoc nofun fun _ => .inl ⟨_, h⟩
  | filed t ho hb text total wellFormed ih =>
    have := (t.timed_dump ih ho hb (some text)).snoc (x := ⟨.reset, some ()⟩) nofun
      fun _ => .inr ⟨_, text, (List.append_assoc ..).symm⟩
    simpa using this

/-- **Every log of a sampling run** has the order of calls, wherever the run was cut off. -/
theorem Interrupted.timed (h : c.Interrupted l) : c.Timed l := by
  cases h with
  | warming hq => exact Timed.nil.append_quiet hq
  | starting h => exact (Timed.nil.append_quiet h.quiet).snoc nofun fun _ => .inl ⟨_, h⟩
  | sampling t hq => exact t.timed.append_quiet hq
  | dumping t ho hb answer => exact t.timed_dump t.timed ho hb answer
  | restarting t ho hb text =>
    have := (t.timed_dump t.timed ho hb (some text)).snoc (x := ⟨.reset, none⟩) nofun
      fun _ => .inr ⟨_, text, (List.append_assoc ..).symm⟩
    simpa using this

/-- Between a reset and the next dump lie the exchanges of one full cycle and nothing else. -/
theorem Timed.cycle (h : c.Timed l) {before run : List Exchange} {a : Option Unit} {x : Exchange}
    (hp : before ++ ⟨.reset, a⟩ :: run ++ [x] <+: l) (hx : x.call = .dump)
    (hr : ∀ y ∈ run, y.call ≠ .dump) :
    ∃ w b out back, run = out ++ back ∧ c.Leg (c.interval - c.warmup) w out ∧
      c.Leg c.warmup b back := by
  obtain ⟨before', w, b, out, back, he, ho, hb⟩ := h.dump _ x hp hx
  refine ⟨w, b, out, back, ?_, ho, hb⟩
  have hq : ∀ y ∈ out ++ back, y.Quiet := quiet_append ho.quiet hb.quiet
  -- the reset before the dump is the one the cycle began at
  obtain ⟨m, rfl, hm⟩ | ⟨m, rfl, hm⟩ := List.append_eq_append_iff.1 he
  · obtain ⟨rfl, hm⟩ | ⟨m, rfl, rfl⟩ := List.cons_eq_append_iff.1 hm
    · exact (List.cons.inj hm).2
    -- else a reset comes later, and a dump before that
    have hp' : before ++ ⟨.reset, a⟩ :: m ++ [⟨.reset, some ()⟩] <+: l := by
      refine List.IsPrefix.trans ?_ hp
      exact ⟨out ++ back ++ [x], by simp⟩
    obtain ⟨b, hb⟩ | ⟨before', text, he⟩ := h.reset _ _ hp' rfl
    · exact absurd rfl (hb.quiet ⟨.reset, a⟩ (by simp)).2
    · have hd : (⟨.dump, some text⟩ : Exchange) ∈ ⟨.reset, a⟩ :: m := by
        have := congrArg List.getLast? he
        rw [List.getLast?_append, List.getLast?_concat, List.getLast?_cons, Option.some_or,
          ← List.getLast?_cons] at this
        exact List.mem_of_getLast? this
      obtain hd | hd := List.mem_cons.1 hd
      · cases hd
      · exact absurd rfl (hr _ (List.mem_append_left _ hd))
  · obtain ⟨rfl, hm⟩ | ⟨m, rfl, hm'⟩ := List.cons_eq_append_iff.1 hm
    · exact (List.cons.inj hm).2.symm
    · exact absurd rfl (hq ⟨.reset, a⟩ (by rw [hm']; simp)).2

/-- A tour has a dump for every record, and one reset more. -/
theorem Tour.counts (t : c.Tour rs w b l) : dumps l = rs.length ∧ resets l = rs.length + 1 := by
  induction t with
  | first h =>
    rw [dumps_append, resets_append, dumps_eq_zero h.quiet, resets_eq_zero h.quiet]
    exact ⟨rfl, rfl⟩
  | filed t ho hb text total wellFormed ih =>
    simp only [dumps_append, resets_append, dumps_eq_zero ho.quiet, dumps_eq_zero hb.quiet,
      resets_eq_zero ho.quiet, resets_eq_zero hb.quiet, ih.1, ih.2, List.length_append]
    exact ⟨rfl, rfl⟩

theorem Tour.covered (t : c.Tour rs w b l) : Covered rs l := by
  intro i r hr
  obtain ⟨w', l₀, out, back, text, after, ht, ho, hb, rfl, -⟩ := t.split hr
  obtain ⟨before, rfl, hn⟩ := ht.ends_with_reset
  refine ⟨before, out ++ back, text, after, by simp, ?_, ?_, hn, ?_⟩
  · have hd : dumps (before ++ [⟨.reset, some ()⟩]) = dumps before := dumps_append ..
    rw [← hd, ht.counts.1, List.length_take]
    exact Nat.min_eq_left (Nat.le_of_lt (List.getElem?_eq_some_iff.1 hr).1)
  · exact quiet_append ho.quiet hb.quiet
  · have := hb.newestInst (before ++ ⟨.reset, some ()⟩ :: out)
    rwa [List.append_assoc] at this

end SamplingConfig

theorem Covered.append (h : Covered rs l) (l' : List Exchange) : Covered rs (l ++ l') := by
  intro i r hr
  obtain ⟨before, run, text, after, rfl, hi, hq, hb, he⟩ := h i r hr
  exact ⟨before, run, text, after ++ l', by simp, hi, hq, hb, he⟩

namespace Sampler

variable {s : Sampler}

theorem History.covered (hs : s.History c l) : Covered s.records.toList l := by
  cases hs with
  | warming wr => exact fun i r hr => by simp at hr
  | sampling wr t => exact t.covered
  | dumping wr t ho hb => exact t.covered.append _
  | exitedFirst wr h => exact fun i r hr => by simp at hr
  | exitedOut wr t h => exact t.covered.append _
  | exitedBack wr t ho h => exact t.covered.append _

/-- When the program has exited there was one reset more than there are records, but none when it
exited in the first leg. -/
theorem History.resets (hs : s.History c l) (hd : s.stage = .done) :
    (c.Exit c.warmup l ∧ s.records.toList = [] ∧ resets l = 0) ∨
      (¬ c.Exit c.warmup l ∧ resets l = s.records.toList.length + 1) := by
  -- a tour has a reset, so its log is not that of an exit in the first leg
  have key : ∀ {rs : List IntervalRecord} {w b : Boundary} {l q : List Exchange},
      c.Tour rs w b l → (∀ x ∈ q, x.Quiet) →
        ¬ c.Exit c.warmup (l ++ q) ∧ PhaseSampling.resets (l ++ q) = rs.length + 1 := by
    intro rs w b l q t hq
    have hr : PhaseSampling.resets (l ++ q) = rs.length + 1 := by
      rw [resets_append, t.counts.2, resets_eq_zero hq]
    refine ⟨fun he => ?_, hr⟩
    rw [resets_eq_zero he.quiet] at hr
    cases hr
  cases hs with
  | warming wr => cases hd
  | sampling wr t => cases hd
  | dumping wr t ho hb => cases hd
  | exitedFirst wr h => exact .inl ⟨h, rfl, resets_eq_zero h.quiet⟩
  | exitedOut wr t h => exact .inr (key t h.quiet)
  | exitedBack wr t ho h => exact .inr (key t (quiet_append ho.quiet h.quiet))

end Sampler

/-- **Every histogram covers exactly the interval it is filed under**, over any engine and whether
the run ends well or not. Dumps and resets are timed as they have to be, with the exchanges of one
full cycle between a reset and the next dump; so the records filed at any point of a run have their
histograms, and those of a run that ended well have one reset more, save that there is none when
the program exited in the first leg. -/
theorem histograms_cover_intervals {σ : Type} (e : Engine σ) (c : SamplingConfig)
    (s : Session σ) :
    (∀ fuel, ∃ l, ((sample c fuel).run e s).2.trace.toList = s.trace.toList ++ l ∧ c.Timed l ∧
      (∀ before a run x, before ++ ⟨.reset, a⟩ :: run ++ [x] <+: l → x.call = .dump →
        (∀ y ∈ run, y.call ≠ .dump) → ∃ w b out back, run = out ++ back ∧
          c.Leg (c.interval - c.warmup) w out ∧ c.Leg c.warmup b back) ∧
      ∀ rs, ((sample c fuel).run e s).1 = .ok rs → Covered rs l ∧
        ((c.Exit c.warmup l ∧ rs = [] ∧ resets l = 0) ∨
          (¬ c.Exit c.warmup l ∧ resets l = rs.length + 1))) ∧
    ∀ n smp s', (Sampler.walk c n (.start c)).run e s = (.ok smp, s') →
      ∃ l, s'.trace.toList = s.trace.toList ++ l ∧ Covered smp.records.toList l := by
  refine ⟨fun fuel => ?_, fun n smp s' h => ?_⟩
  · obtain ⟨d, r, hc, hr, -, ht, -⟩ := exists_course e (sample c fuel) s
    refine ⟨exchanges d, ht, ?_⟩
    obtain ⟨smp, hs, hd, rfl⟩ | ⟨own, f, hi, -, rfl⟩ := course_sample hc
    · have hm := hs.interrupted.timed
      refine ⟨hm, fun before a run x hp hx hn => hm.cycle hp hx hn, fun rs h => ?_⟩
      rw [hr] at h
      cases h
      exact ⟨hs.covered, hs.resets hd⟩
    · refine ⟨hi.timed, fun before a run x hp hx hn => hi.timed.cycle hp hx hn, fun rs h => ?_⟩
      rw [hr] at h
      cases h
  · obtain ⟨d, hc, ht, -⟩ := exists_course_of_ok h
    have hs := (Sampler.history_start c).after_walk hc
    exact ⟨_, ht, Sampler.History.covered hs⟩

/-- A program of ten instructions: its two histograms, the cycle that the first of them covers, and a
sampler after three steps. -/
theorem histograms_cover_intervals_ten :
    (∃ l, Covered [⟨⟨0, 0⟩, ⟨1, 1⟩, ⟨4, 4⟩, 3, true⟩, ⟨⟨3, 3⟩, ⟨4, 4⟩, ⟨7, 7⟩, 2, true⟩] l ∧
      resets l = 3 ∧ ∃ run w b out back, run = out ++ back ∧
        (SamplingConfig.mk 1 3 2 false).Leg 2 w out ∧
        (SamplingConfig.mk 1 3 2 false).Leg 1 b back) ∧
    ∃ smp l, Covered (Sampler.records smp).toList l := by
  constructor
  · have hrun : ((sample ⟨1, 3, 2, false⟩ 10).run Simulated.engine
        (.fresh (.program 10 1 ["3 a\n", "2 b\n"]))).1.toOption = some
        [⟨⟨0, 0⟩, ⟨1, 1⟩, ⟨4, 4⟩, 3, true⟩, ⟨⟨3, 3⟩, ⟨4, 4⟩, ⟨7, 7⟩, 2, true⟩] := by
      decide +kernel
    have hrun := congrArg Prod.fst (run_of_toOption hrun)
    obtain ⟨l, -, -, hcycle, hok⟩ := (histograms_cover_intervals _ _ _).1 10
    obtain ⟨hcov, hres⟩ := hok _ hrun
    refine ⟨l, hcov, ?_, ?_⟩
    · obtain ⟨-, h, -⟩ | ⟨-, h⟩ := hres
      · cases h
      · exact h
    · obtain ⟨before, run, text, after, hl, -, hq, -, -⟩ := hcov 0 _ rfl
      obtain ⟨w, b, out, back, h⟩ := hcycle before (some ()) run ⟨.dump, some text⟩
        ⟨after, by simp [hl]⟩ rfl fun y hy => (hq y hy).1
      exact ⟨run, w, b, out, back, h⟩
  · have hwalk : ((Sampler.walk ⟨1, 3, 2, false⟩ 3 (.start ⟨1, 3, 2, false⟩)).run
        Simulated.engine (.fresh (.program 10 1 ["3 a\n", "2 b\n"]))).1.toOption.isSome := by
      decide +kernel
    obtain ⟨smp, hrun⟩ := Option.isSome_iff_exists.1 hwalk
    obtain ⟨l, -, hcov⟩ := (histograms_cover_intervals _ _ _).2 3 smp _ (run_of_toOption hrun)
    exact ⟨smp, l, hcov⟩

end PhaseSampling
