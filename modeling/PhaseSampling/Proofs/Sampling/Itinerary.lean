import Mathlib.Data.Nat.Find
import Mathlib.Order.WellFounded
import PhaseSampling.Proofs.Output
import PhaseSampling.Proofs.Sampling.Simulated
import PhaseSampling.Proofs.Sampling.Steering

/-!
# The itinerary of a sampling run

The boundaries of a sampling run of a simulated program are known beforehand. The run files the
intervals that end before the end of the program, and comes to that end.

* `SamplingConfig.begins`, `SamplingConfig.lead`: where intervals and their warmups begin.
* `Session.Paused`: a session with such a program between two steps, and what a leg and a dump do
  there.
* `Sampler.Between`: the sampler when some intervals are filed. A cycle files one more
  (`Between.cycle`), and the steps file all that are left (`Between.steps`).
* `sample_itinerary`: the run.
-/

namespace PhaseSampling

open PhaseSampling.Flow
open Simulated (Free unit)

/-! ## Boundaries -/

namespace SamplingConfig

/-- Where the intervals of a run begin that starts at an instruction. Each but the first one begins
where the one before it ends. -/
def begins (c : SamplingConfig) (spacing start : Nat) : Nat → Nat
  | 0 => c.landing spacing c.warmup start
  | i + 1 => c.landing spacing c.warmup
      (c.landing spacing (c.interval - c.warmup) (begins c spacing start i))

/-- Where the warmup of the interval behind the one with a number begins. -/
def turn (c : SamplingConfig) (spacing start i : Nat) : Nat :=
  c.landing spacing (c.interval - c.warmup) (c.begins spacing start i)

/-- Where the warmups begin, the first one at the start of the program. -/
def lead (c : SamplingConfig) (spacing start : Nat) : Nat → Boundary
  | 0 => .start
  | i + 1 => c.boundary spacing (c.turn spacing start i)

/-- Where the intervals begin, as a boundary. -/
def mark (c : SamplingConfig) (spacing start i : Nat) : Boundary :=
  c.boundary spacing (c.begins spacing start i)

/-- The boundaries of the record with a number. -/
structure Planned (c : SamplingConfig) (spacing start i : Nat) (r : IntervalRecord) : Prop where
  warmup : r.warmup = c.lead spacing start i
  begins : r.begins = c.mark spacing start i
  ends : r.ends = c.mark spacing start (i + 1)

variable {c : SamplingConfig} {length spacing start : Nat}

theorem begins_succ (c : SamplingConfig) (spacing start i : Nat) :
    c.begins spacing start (i + 1) = c.landing spacing c.warmup (c.turn spacing start i) := rfl

section Order

variable (hs : c.waypoints = true → 1 ≤ spacing) (hc : c.warmup < c.interval)

include hs

theorem begins_le_turn (start i : Nat) :
    c.begins spacing start i + (c.interval - c.warmup) ≤ c.turn spacing start i :=
  c.le_landing hs _ _

theorem turn_le_begins (start i : Nat) :
    c.turn spacing start i + c.warmup ≤ c.begins spacing start (i + 1) :=
  c.le_landing hs _ _

include hc

/-- An interval is as long as it has to be. -/
theorem begins_add_interval_le (start i : Nat) :
    c.begins spacing start i + c.interval ≤ c.begins spacing start (i + 1) := by
  have hout := begins_le_turn hs start i
  have hback := turn_le_begins hs start i
  omega

theorem strictMono_begins (start : Nat) : StrictMono (c.begins spacing start) := by
  apply strictMono_nat_of_lt_succ
  intro i
  have hle := begins_add_interval_le hs hc start i
  omega

/-- **The intervals that end before the end of the program** are the first so many. -/
theorem exists_room (start length : Nat) :
    ∃ m ≤ length, ∀ i, i < m ↔ c.begins spacing start (i + 1) < length := by
  have hmono := strictMono_begins hs hc start
  have hlate : length + 1 ≤ c.begins spacing start (length + 1) := hmono.le_apply
  have hend : ∃ i, length ≤ c.begins spacing start (i + 1) := ⟨length, by omega⟩
  refine ⟨Nat.find hend, ?_, fun i => ⟨fun hi => ?_, fun hi => ?_⟩⟩
  · apply Nat.find_min'
    omega
  · exact Nat.not_le.1 (Nat.find_min hend hi)
  · apply Nat.lt_of_not_le
    intro hle
    have hfind := Nat.find_spec hend
    have hup : c.begins spacing start (Nat.find hend + 1) ≤ c.begins spacing start (i + 1) :=
      hmono.monotone (Nat.succ_le_succ hle)
    omega

end Order

end SamplingConfig

/-! ## Sessions -/

/-- A session with a program that moves by itself and stands at an instruction, after some resets of
its histogram. Its dumps can be read, and its output takes everything. -/
structure Session.Paused (s : Session Simulated) (length spacing inst resets : Nat) : Prop where
  free : s.engine.Free length spacing
  inst : s.engine.inst = inst
  resets : s.engine.resets = resets
  readable : ∀ dump ∈ s.engine.dumps, Readable dump
  unbounded : s.output.capacity = none

namespace Session.Paused

variable {s s' : Session Simulated} {length spacing inst resets n : Nat} {c : SamplingConfig}

theorem fresh {dumps : List String} (hd : ∀ dump ∈ dumps, Readable dump) :
    (Session.fresh (Simulated.program length spacing dumps)).Paused length spacing 0 0 :=
  ⟨Simulated.free_program length spacing dumps, rfl, rfl, hd, rfl⟩

/-- Running takes a session elsewhere. -/
theorem moved (h : s.Paused length spacing inst resets) {inst' : Nat} (hm : s.Moved s' inst') :
    s'.Paused length spacing inst' resets := by
  obtain ⟨breakpoints, he⟩ := hm.engine
  refine ⟨h.free.moved hm, hm.inst, ?_, ?_, ?_⟩
  · rw [he]
    exact h.resets
  · rw [he]
    exact h.readable
  · rw [hm.output]
    exact h.unbounded

theorem count (h : s.Paused length spacing inst resets) (counter : Counter) :
    Yields Simulated.engine (call (.count counter)) s (inst / unit spacing counter)
      (·.Paused length spacing inst resets) := by
  have hcount := h.free.yields_count counter
  rw [h.inst] at hcount
  exact hcount.imp fun s' hm => h.moved hm

theorem reset (h : s.Paused length spacing inst resets) :
    Yields Simulated.engine (call .reset) s () (·.Paused length spacing inst (resets + 1)) := by
  refine .op rfl ⟨h.free.of_same rfl rfl rfl, h.inst, ?_, h.readable, h.unbounded⟩
  exact congrArg (· + 1) h.resets

theorem say (h : s.Paused length spacing inst resets) (level : Level) (text : String) :
    Yields Simulated.engine (Flow.say level text) s () (·.Paused length spacing inst resets) :=
  .op rfl ⟨h.free, h.inst, h.resets, h.readable, h.unbounded⟩

theorem warn (h : s.Paused length spacing inst resets) (entry : VectorEntry) :
    Yields Simulated.engine entry.warn s () (·.Paused length spacing inst resets) := by
  obtain ⟨w, hw⟩ := run_warn entry Simulated.engine s
  exact ⟨_, hw, h.free, h.inst, h.resets, h.readable, h.unbounded⟩

theorem append (h : s.Paused length spacing inst resets) (text : String) :
    Yields Simulated.engine (Flow.append text) s () (·.Paused length spacing inst resets) := by
  obtain ⟨o, ho, hcapacity, -⟩ := Output.writeText_of_unbounded h.unbounded text
  refine .op ?_ ?_
  · rw [Session.perform_append, ho]
  · rw [Session.perform_append, ho]
    exact ⟨h.free, h.inst, h.resets, h.readable, hcapacity⟩

/-- The next dump can be read, and so can those behind it. -/
theorem dump (h : s.Paused length spacing inst resets) :
    ∃ text hist, Histogram.parse text = .ok hist ∧
      Yields Simulated.engine (call .dump) s text (·.Paused length spacing inst resets) := by
  obtain ⟨hist, hparse⟩ := readable_headD h.readable
  refine ⟨_, hist, hparse, .op rfl ?_⟩
  refine ⟨h.free.of_same rfl rfl rfl, h.inst, h.resets, ?_, h.unbounded⟩
  intro dump hdump
  exact h.readable dump (List.mem_of_mem_tail hdump)

/-! ## Legs -/

/-- Instructions before the end of the program are run. -/
theorem runs (h : s.Paused length spacing inst resets) (hn : inst + n < Text.wordLimit)
    (hlt : inst + n < length) :
    Yields Simulated.engine (runFor .inst n) s true
      (·.Paused length spacing (inst + n) resets) := by
  have hi := h.inst
  subst hi
  exact (h.free.runs_insts hn hlt).imp fun s' hm => h.moved hm

theorem runs_out (h : s.Paused length spacing inst resets) (hn : inst + n < Text.wordLimit)
    (hle : length ≤ inst + n) :
    Yields Simulated.engine (runFor .inst n) s false (·.Paused length spacing length resets) := by
  have hi := h.inst
  subst hi
  exact (h.free.runs_insts_out hn hle).imp fun s' hm => h.moved hm

/-- The next waypoint is never where the program stands, but behind it. -/
theorem aligns (h : s.Paused length spacing inst resets) (hs : 1 ≤ spacing)
    (hn : inst / spacing + 1 < Text.wordLimit) (hlt : spacing * (inst / spacing + 1) < length) :
    Yields Simulated.engine (runFor .waypoint 1) s true
      (·.Paused length spacing (spacing * (inst / spacing + 1)) resets) := by
  have htarget : s.engine.inst / unit spacing .waypoint + 1 = inst / spacing + 1 := by
    rw [h.inst, unit]
  have hbehind : inst < spacing * (inst / spacing + 1) := Nat.lt_mul_div_succ inst hs
  refine (h.free.runs_on htarget hn hlt).imp fun s' hm => ?_
  rw [unit, h.inst, Nat.max_eq_right (Nat.le_of_lt hbehind)] at hm
  exact h.moved hm

theorem aligns_out (h : s.Paused length spacing inst resets)
    (hn : inst / spacing + 1 < Text.wordLimit) (hle : length ≤ spacing * (inst / spacing + 1)) :
    Yields Simulated.engine (runFor .waypoint 1) s false
      (·.Paused length spacing length resets) := by
  have htarget : s.engine.inst / unit spacing .waypoint + 1 = inst / spacing + 1 := by
    rw [h.inst, unit]
  exact (h.free.runs_out htarget hn hle).imp fun s' hm => h.moved hm

section Legs

variable (hlength : length < Text.wordLimit) (hn : inst + n < Text.wordLimit)

include hlength hn

/-- **A leg reaches its landing** before the end of the program. -/
theorem reaches (h : s.Paused length spacing inst resets) (hs : c.waypoints = true → 1 ≤ spacing)
    (hlt : c.landing spacing n inst < length) :
    Yields Simulated.engine (c.advance n) s
      (.reached (c.boundary spacing (c.landing spacing n inst)))
      (·.Paused length spacing (c.landing spacing n inst) resets) := by
  have hle := c.le_landing hs n inst
  unfold SamplingConfig.advance
  refine (h.runs hn (by omega)).bind fun s₁ h₁ => ?_
  cases hw : c.waypoints with
  | false =>
    rw [c.landing_plain hw, c.boundary_plain hw]
    refine (h₁.count .inst).bind fun s₂ h₂ => ?_
    rw [unit, Nat.div_one]
    exact .pure h₂
  | true =>
    have hword : (inst + n) / spacing + 1 < Text.wordLimit := by
      have hdiv := Nat.div_le_self (inst + n) spacing
      omega
    rw [c.landing_aligned hw] at hlt ⊢
    rw [c.boundary_aligned hw]
    refine (h₁.aligns (hs hw) hword hlt).bind fun s₂ h₂ => ?_
    refine (h₂.count .inst).bind fun s₃ h₃ => ?_
    refine (h₃.count .waypoint).bind fun s₄ h₄ => ?_
    rw [unit, unit, Nat.div_one]
    exact .pure h₄

/-- **Else the program exits**, on the way through the instructions or to the waypoint. -/
theorem exits (h : s.Paused length spacing inst resets)
    (hle : length ≤ c.landing spacing n inst) :
    Yields Simulated.engine (c.advance n) s .exited (·.Paused length spacing length resets) := by
  unfold SamplingConfig.advance
  by_cases hout : length ≤ inst + n
  · exact (h.runs_out hn hout).bind fun s₁ h₁ => .pure h₁
  · refine (h.runs hn (Nat.not_le.1 hout)).bind fun s₁ h₁ => ?_
    cases hw : c.waypoints with
    | false =>
      -- without waypoints the leg would have ended where the instructions do
      rw [c.landing_plain hw] at hle
      exact absurd hle hout
    | true =>
      have hword : (inst + n) / spacing + 1 < Text.wordLimit := by
        have hdiv := Nat.div_le_self (inst + n) spacing
        omega
      rw [c.landing_aligned hw] at hle
      exact (h₁.aligns_out hword hle).bind fun s₂ h₂ => .pure h₂

end Legs

end Session.Paused

/-! ## Steps -/

theorem toList_push_of_toList {a : Array Boundary} {f : Nat → Boundary} {n : Nat}
    (h : a.toList = (List.range n).map f) : (a.push (f n)).toList = (List.range (n + 1)).map f := by
  rw [Array.toList_push, h, List.range_succ, List.map_append]
  rfl

theorem getElem?_of_toList {a : Array Boundary} {f : Nat → Boundary} {n i : Nat}
    (h : a.toList = (List.range n).map f) (hi : i < n) : a[i]? = some (f i) := by
  rw [← Array.getElem?_toList, h, List.getElem?_map, List.getElem?_range hi]
  rfl

/-- A sampler that has filed the first `k` intervals and begun the next one. -/
structure Sampler.Between (smp : Sampler) (c : SamplingConfig) (spacing start k : Nat) : Prop where
  stage : smp.stage = .sampling
  warmups : smp.warmups.toList = (List.range (k + 1)).map (c.lead spacing start)
  bounds : smp.bounds.toList = (List.range (k + 1)).map (c.mark spacing start)
  filed : smp.records.size = k
  planned : ∀ i r, smp.records[i]? = some r → c.Planned spacing start i r

/-- A sampler with two boundaries more, and the interval between them due. -/
def Sampler.arrived (smp : Sampler) (warmup bound : Boundary) : Sampler :=
  { smp with
    stage := .dumping
    warmups := smp.warmups.push warmup
    bounds := smp.bounds.push bound }

/-- A sampler whose program has exited, with `k` intervals filed. -/
structure Sampler.Finished (smp : Sampler) (c : SamplingConfig) (spacing start k : Nat) : Prop where
  stage : smp.stage = .done
  filed : smp.records.size = k
  planned : ∀ i r, smp.records[i]? = some r → c.Planned spacing start i r

namespace Sampler

variable {smp : Sampler} {c : SamplingConfig} {s : Session Simulated}
  {length spacing start inst resets k m fuel : Nat}

/-- Filing an interval whose boundaries are known. -/
theorem yields_dump (smp : Sampler) (h : s.Paused length spacing inst resets)
    {warmup begins ends : Boundary} (hw : smp.warmups[smp.records.size]? = some warmup)
    (hb : smp.bounds[smp.records.size]? = some begins)
    (he : smp.bounds[smp.records.size + 1]? = some ends) :
    ∃ writer total wellFormed, Yields Simulated.engine smp.dump s
      { smp with
        stage := .sampling
        writer
        records := smp.records.push ⟨warmup, begins, ends, total, wellFormed⟩ }
      (·.Paused length spacing inst (resets + 1)) := by
  obtain ⟨text, hist, hparse, hdump⟩ := h.dump
  refine ⟨(smp.writer.entry hist).2, hist.total, (smp.writer.entry hist).1.wellFormed, ?_⟩
  rw [dump_eq]
  refine hdump.bind fun s₁ h₁ => .ofExcept_bind hparse ?_
  refine (h₁.warn _).bind fun s₂ h₂ => ?_
  unfold record
  rw [hw, hb, he]
  refine (h₂.append _).bind fun s₃ h₃ => ?_
  refine h₃.reset.bind fun s₄ h₄ => ?_
  exact (h₄.say _ _).bind fun s₅ h₅ => .pure h₅

section Steps

variable (hs : c.waypoints = true → 1 ≤ spacing) (hc : c.warmup < c.interval)
  (hlength : length + c.interval < Text.wordLimit)

include hs hc hlength

/-- **A cycle files one more interval**, if it ends before the end of the program. -/
theorem Between.cycle (hsmp : smp.Between c spacing start k)
    (h : s.Paused length spacing (c.begins spacing start k) resets)
    (hlt : c.begins spacing start (k + 1) < length) :
    ∃ smp', smp'.Between c spacing start (k + 1) ∧
      Yields Simulated.engine (walk c 2 smp) s smp'
        (·.Paused length spacing (c.begins spacing start (k + 1)) (resets + 1)) := by
  have hout := c.begins_le_turn hs start k
  have hback := c.turn_le_begins hs start k
  -- the two legs
  have hlegs : Yields Simulated.engine (smp.step c) s
      (smp.arrived (c.lead spacing start (k + 1)) (c.mark spacing start (k + 1)))
      (·.Paused length spacing (c.begins spacing start (k + 1)) resets) := by
    unfold step
    rw [hsmp.stage]
    have hturn : c.turn spacing start k < length := by omega
    refine (h.reaches (by omega) (by omega) hs hturn).bind fun s₁ h₁ => ?_
    have hword : c.turn spacing start k + c.warmup < Text.wordLimit := by omega
    exact (h₁.reaches (by omega) hword hs hlt).bind fun s₂ h₂ => .pure h₂
  obtain ⟨s₁, hrun, h₁⟩ := hlegs
  -- the dump, for which the lists are complete
  have hwarmups := toList_push_of_toList hsmp.warmups
  have hbounds := toList_push_of_toList hsmp.bounds
  have hfiled := hsmp.filed
  subst hfiled
  have hw := getElem?_of_toList hwarmups (Nat.lt_succ_of_lt (Nat.lt_succ_self _))
  have hb := getElem?_of_toList hbounds (Nat.lt_succ_of_lt (Nat.lt_succ_self _))
  have he := getElem?_of_toList hbounds (Nat.lt_succ_self _)
  obtain ⟨writer, total, wellFormed, hdump⟩ :=
    yields_dump (smp.arrived _ _) h₁ hw hb he
  refine ⟨_, ⟨rfl, hwarmups, hbounds, Array.size_push _, ?_⟩,
    .after hrun (hdump.bind fun s₂ h₂ => .pure h₂)⟩
  intro i r hr
  rw [Array.getElem?_push] at hr
  split at hr
  · rename_i hi
    cases hr
    rw [hi]
    exact ⟨rfl, rfl, rfl⟩
  · exact hsmp.planned i r hr

/-- **The last cycle** is cut off by the exit of the program. -/
theorem Between.last (hsmp : smp.Between c spacing start k)
    (h : s.Paused length spacing (c.begins spacing start k) resets)
    (hk : c.begins spacing start k < length) (hle : length ≤ c.begins spacing start (k + 1)) :
    ∃ smp', smp'.Finished c spacing start k ∧
      Yields Simulated.engine (walk c 1 smp) s smp' (·.Paused length spacing length resets) := by
  have hlast : ∃ smp', smp'.Finished c spacing start k ∧
      Yields Simulated.engine (smp.step c) s smp' (·.Paused length spacing length resets) := by
    unfold step
    rw [hsmp.stage]
    by_cases hturn : length ≤ c.turn spacing start k
    · refine ⟨{ smp with stage := .done }, ⟨rfl, hsmp.filed, hsmp.planned⟩, ?_⟩
      exact (h.exits (by omega) (by omega) hturn).bind fun s₁ h₁ => .pure h₁
    -- the next warmup begins, and no interval behind it
    · have hturn := Nat.not_le.1 hturn
      have hword : c.turn spacing start k + c.warmup < Text.wordLimit := by omega
      refine ⟨{ smp with
        stage := .done
        warmups := smp.warmups.push (c.lead spacing start (k + 1)) },
        ⟨rfl, hsmp.filed, hsmp.planned⟩, ?_⟩
      refine (h.reaches (by omega) (by omega) hs hturn).bind fun s₁ h₁ => ?_
      exact (h₁.exits (by omega) hword hle).bind fun s₂ h₂ => .pure h₂
  obtain ⟨smp', hsmp', hrun⟩ := hlast
  exact ⟨smp', hsmp', hrun.bind fun s₁ h₁ => .pure h₁⟩

/-- **All cycles** file the intervals that are left, by induction on how many these are. -/
theorem Between.cycles (hsmp : smp.Between c spacing start k)
    (h : s.Paused length spacing (c.begins spacing start k) resets)
    (hk : c.begins spacing start k < length)
    (hleft : ∀ i, i < k + m ↔ c.begins spacing start (i + 1) < length) :
    ∃ smp', smp'.Finished c spacing start (k + m) ∧
      Yields Simulated.engine (walk c (2 * m + 1) smp) s smp'
        (·.Paused length spacing length (resets + m)) := by
  induction m generalizing smp s k resets with
  | zero =>
    have hle : length ≤ c.begins spacing start (k + 1) := by
      have hend := hleft k
      omega
    exact hsmp.last hs hc hlength h hk hle
  | succ m ih =>
    have hlt : c.begins spacing start (k + 1) < length := (hleft k).1 (by omega)
    obtain ⟨smp₁, hsmp₁, s₁, hrun, h₁⟩ := hsmp.cycle hs hc hlength h hlt
    have hcount : k + 1 + m = k + (m + 1) := by omega
    obtain ⟨smp₂, hsmp₂, hrest⟩ := ih hsmp₁ h₁ hlt fun i => hcount ▸ hleft i
    refine ⟨smp₂, hcount ▸ hsmp₂, ?_⟩
    have hsteps : 2 * (m + 1) + 1 = 2 + (2 * m + 1) := by omega
    have hresets : resets + (m + 1) = resets + 1 + m := by omega
    rw [hsteps, walk_add, hresets]
    exact .after hrun hrest

/-- **The walk from the start.** If the program exits in the first leg no histogram was started. -/
theorem walk_start {inst : Nat} (h : s.Paused length spacing inst resets)
    (hfirst : inst + c.warmup < Text.wordLimit)
    (hm : ∀ i, i < m ↔ c.begins spacing inst (i + 1) < length) :
    ∃ smp, smp.Finished c spacing inst m ∧
      Yields Simulated.engine (walk c (2 * m + 2) (.start c)) s smp
        (·.Paused length spacing length
          (resets + if length ≤ c.begins spacing inst 0 then 0 else m + 1)) := by
  by_cases hexit : length ≤ c.begins spacing inst 0
  · have hnone : m = 0 := by
      have hup := c.begins_add_interval_le hs hc inst 0
      have hzero := hm 0
      omega
    subst hnone
    rw [if_pos hexit]
    refine ⟨{ Sampler.start c with stage := .done }, ⟨rfl, rfl, fun i r hr => by cases hr⟩, ?_⟩
    have hleg : Yields Simulated.engine (step c (.start c)) s
        { Sampler.start c with stage := .done } (·.Paused length spacing length resets) :=
      (h.exits (by omega) hfirst hexit).bind fun s₁ h₁ => .pure h₁
    refine hleg.bind fun s₁ h₁ => ?_
    rw [walk_done rfl]
    exact .pure h₁
  · have hlt := Nat.not_le.1 hexit
    rw [if_neg hexit]
    have hleg : Yields Simulated.engine (step c (.start c)) s
        { Sampler.start c with stage := .sampling, bounds := #[c.mark spacing inst 0] }
        (·.Paused length spacing (c.begins spacing inst 0) (resets + 1)) := by
      refine (h.reaches (by omega) hfirst hs hlt).bind fun s₁ h₁ => ?_
      exact h₁.reset.bind fun s₂ h₂ => .pure h₂
    obtain ⟨s₁, hrun, h₁⟩ := hleg
    have hbetween : Sampler.Between
        { Sampler.start c with stage := .sampling, bounds := #[c.mark spacing inst 0] }
        c spacing inst 0 :=
      ⟨rfl, rfl, rfl, rfl, fun i r hr => by cases hr⟩
    have hleft : ∀ i, i < 0 + m ↔ c.begins spacing inst (i + 1) < length := by
      intro i
      rw [Nat.zero_add, hm]
    obtain ⟨smp, hsmp, hrest⟩ := hbetween.cycles hs hc hlength h₁ hlt hleft
    rw [Nat.zero_add] at hsmp
    have hresets : resets + (m + 1) = resets + 1 + m := by omega
    rw [hresets]
    exact ⟨smp, hsmp, .after hrun hrest⟩

end Steps

end Sampler

/-! ## Runs -/

/-- **The run of a simulated program.** It files the intervals that end before the end of the
program, with the boundaries of its itinerary, and comes to that end. The histogram was started once
more than there are records, but not at all if the program exits in the first leg. -/
theorem sample_itinerary {c : SamplingConfig} {length spacing inst resets fuel : Nat}
    {s : Session Simulated} (hs : c.waypoints = true → 1 ≤ spacing) (hc : c.warmup < c.interval)
    (hfirst : inst + c.warmup < Text.wordLimit) (hlength : length + c.interval < Text.wordLimit)
    (hfuel : 2 * length + 2 ≤ fuel) (h : s.Paused length spacing inst resets) :
    ∃ rs, (∀ i, i < rs.length ↔ c.begins spacing inst (i + 1) < length) ∧
      (∀ i r, rs[i]? = some r → c.Planned spacing inst i r) ∧
      Yields Simulated.engine (sample c fuel) s rs
        (·.Paused length spacing length
          (resets + if length ≤ c.begins spacing inst 0 then 0 else rs.length + 1)) := by
  obtain ⟨m, hle, hm⟩ := c.exists_room hs hc inst length
  obtain ⟨smp, hsmp, s₁, hrun, h₁⟩ := Sampler.walk_start hs hc hlength h hfirst hm
  have hlist : smp.records.toList.length = m := by rw [Array.length_toList, hsmp.filed]
  refine ⟨smp.records.toList, ?_, ?_, ?_⟩
  · rw [hlist]
    exact hm
  · intro i r hr
    rw [Array.getElem?_toList] at hr
    exact hsmp.planned i r hr
  rw [hlist]
  -- the lists of the sampler are in step, as those of any walk are
  obtain ⟨d, hcourse, -⟩ := exists_course_of_ok hrun
  have hhistory : smp.History c ([] ++ exchanges d) :=
    (Sampler.history_start c).after_walk hcourse
  have hvalid : c.validate = .ok () := by
    unfold SamplingConfig.validate checkWarmup
    rw [if_neg (Nat.not_le.2 hc)]
  unfold sample
  refine .ofExcept_bind hvalid ?_
  obtain ⟨extra, rfl⟩ := Nat.exists_eq_add_of_le (show 2 * m + 2 ≤ fuel by omega)
  rw [Sampler.steps_eq_walk, Sampler.walk_add, LawfulMonad.bind_assoc, LawfulMonad.bind_assoc]
  refine .after hrun ?_
  rw [Sampler.walk_done hsmp.stage, pure_bind, if_pos hsmp.stage, pure_bind,
    hhistory.balanced.check hsmp.stage]
  refine .ofExcept_bind rfl ?_
  exact (h₁.say _ _).bind fun s₂ h₂ => .pure h₂

end PhaseSampling
