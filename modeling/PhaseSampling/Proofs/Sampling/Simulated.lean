import PhaseSampling.Proofs.Engine.Simulated
import PhaseSampling.Proofs.Sampling.Progress
import PhaseSampling.Proofs.Sampling.Steps

/-!
# Sampling a simulated program

The legs of a sampling run of a simulated program, and where they end.

* `SamplingConfig.Leg.simulated`: a leg ends at its landing.
* `sample_simulated`: the records of a run go up, and all their boundaries lie before the end of the
  program, at the waypoints that they name.
-/

namespace PhaseSampling

open PhaseSampling.Flow
open Simulated (Free unit)

namespace SamplingConfig

variable {c : SamplingConfig} {length spacing n : Nat} {a a' : Simulated} {b w : Boundary}
  {rs : List IntervalRecord} {l : List Exchange}

/-- What the boundaries of a run are counted in. -/
def counter (c : SamplingConfig) : Counter := if c.waypoints then .waypoint else .inst

/-- Where a leg of `n` instructions from `x` ends: at the next waypoint behind it, if boundaries are
aligned. -/
def landing (c : SamplingConfig) (spacing n x : Nat) : Nat :=
  if c.waypoints then ((x + n) / spacing + 1) * spacing else x + n

/-- The boundary at an instruction. -/
def boundary (c : SamplingConfig) (spacing x : Nat) : Boundary :=
  ⟨x / unit spacing c.counter, x⟩

theorem landing_plain (hw : c.waypoints = false) (spacing n x : Nat) :
    c.landing spacing n x = x + n := by
  rw [landing, hw]
  rfl

/-- The waypoint behind `x + n` is the next one. -/
theorem landing_aligned (hw : c.waypoints = true) (spacing n x : Nat) :
    c.landing spacing n x = spacing * ((x + n) / spacing + 1) := by
  rw [landing, hw, if_pos rfl, Nat.mul_comm]

theorem boundary_plain (hw : c.waypoints = false) (spacing x : Nat) :
    c.boundary spacing x = ⟨x, x⟩ := by
  simp [boundary, counter, hw, unit]

theorem boundary_aligned (hw : c.waypoints = true) (spacing x : Nat) :
    c.boundary spacing x = ⟨x / spacing, x⟩ := by
  simp [boundary, counter, hw, unit]

theorem le_landing (hs : c.waypoints = true → 1 ≤ spacing) (n x : Nat) :
    x + n ≤ c.landing spacing n x := by
  rw [landing]
  split
  · rename_i hw
    exact Nat.le_of_lt ((Nat.div_lt_iff_lt_mul (hs hw)).1 (Nat.lt_succ_self _))
  · exact Nat.le_refl _

/-- **A leg of a simulated program** ends at its landing, before the end of the program. -/
theorem Leg.simulated (hs : 1 ≤ spacing) (h : c.Leg n b l) (hf : a.Free length spacing)
    (hg : Simulated.engine.Gives a l a') :
    a'.Free length spacing ∧ a'.inst = c.landing spacing n a.inst ∧ a'.inst < length ∧
      b = c.boundary spacing a'.inst := by
  cases h with
  | plain hw k i =>
    obtain ⟨hk, g₁⟩ := Simulated.gives_count hg
    subst hk
    obtain ⟨hlt, a₁, hf₁, hi₁, g₂⟩ := hf.gives_advance g₁
    obtain ⟨hi, g₃⟩ := Simulated.gives_count g₂
    subst hi
    cases g₃
    have hi : a'.inst = a.inst + n := by
      rw [hi₁, unit, Simulated.count, Nat.one_mul]
      exact Nat.max_eq_right (Nat.le_add_right _ _)
    rw [unit, Simulated.count, Nat.one_mul, ← hi] at hlt
    refine ⟨hf₁, ?_, hlt, ?_⟩
    · rw [hi, landing_plain hw]
    · exact (boundary_plain hw spacing a'.inst).symm
  | aligned hw k m i w =>
    obtain ⟨hk, g₁⟩ := Simulated.gives_count hg
    subst hk
    obtain ⟨-, a₁, hf₁, hi₁, g₂⟩ := hf.gives_advance g₁
    obtain ⟨hm, g₃⟩ := Simulated.gives_count g₂
    subst hm
    obtain ⟨hlt, a₂, hf₂, hi₂, g₄⟩ := hf₁.gives_advance g₃
    obtain ⟨hi, g₅⟩ := Simulated.gives_count g₄
    obtain ⟨hw', g₆⟩ := Simulated.gives_count g₅
    subst hi hw'
    cases g₆
    have hi : a₁.inst = a.inst + n := by
      rw [hi₁, unit, Simulated.count, Nat.one_mul]
      exact Nat.max_eq_right (Nat.le_add_right _ _)
    -- the waypoint asked for is the next one behind `a.inst + n`
    have hland : unit spacing .waypoint * (a₁.count .waypoint + 1) =
        c.landing spacing n a.inst := by
      rw [landing_aligned hw, unit, Simulated.count, hf₁.spacing, hi]
    have hle := c.le_landing (fun _ => hs) n a.inst
    rw [hland] at hlt hi₂
    have hi' : a'.inst = c.landing spacing n a.inst := by
      rw [hi₂, hi]
      exact Nat.max_eq_right hle
    refine ⟨hf₂, hi', hi' ▸ hlt, ?_⟩
    rw [boundary_aligned hw, Simulated.count, Simulated.count, hf₂.spacing]

/-- A boundary before the end of the program, at the waypoint that it names. -/
structure Placed (c : SamplingConfig) (length spacing : Nat) (b : Boundary) : Prop where
  inst : unit spacing c.counter * b.waypoint = b.inst
  before : b.inst < length

theorem unit_pos (hs : 1 ≤ spacing) (counter : Counter) : 0 < unit spacing counter := by
  cases counter with
  | inst => exact Nat.one_pos
  | waypoint => exact hs

theorem Placed.le (hs : 1 ≤ spacing) {b b' : Boundary} (h : c.Placed length spacing b)
    (h' : c.Placed length spacing b') (hi : b.inst ≤ b'.inst) : b.waypoint ≤ b'.waypoint := by
  rw [← h.inst, ← h'.inst] at hi
  exact Nat.le_of_mul_le_mul_left hi (unit_pos hs _)

theorem Placed.lt {b b' : Boundary} (h : c.Placed length spacing b)
    (h' : c.Placed length spacing b') (hi : b.inst < b'.inst) : b.waypoint < b'.waypoint := by
  rw [← h.inst, ← h'.inst] at hi
  exact Nat.lt_of_mul_lt_mul_left hi

theorem unit_mul_landing (n x : Nat) :
    unit spacing c.counter * (c.landing spacing n x / unit spacing c.counter) =
      c.landing spacing n x := by
  refine Nat.mul_div_cancel' ?_
  rw [landing, counter]
  split
  · exact Nat.dvd_mul_left _ _
  · exact Nat.one_dvd _

/-- A leg ends at a placed boundary. -/
theorem Leg.placed (hs : 1 ≤ spacing) (h : c.Leg n b l) (hf : a.Free length spacing)
    (hg : Simulated.engine.Gives a l a') :
    a'.Free length spacing ∧ a'.inst = b.inst ∧ a.inst + n ≤ b.inst ∧
      c.Placed length spacing b := by
  obtain ⟨hf', hi, hlt, rfl⟩ := h.simulated hs hf hg
  refine ⟨hf', rfl, ?_, ⟨?_, hlt⟩⟩
  · show a.inst + n ≤ a'.inst
    rw [hi]
    exact c.le_landing (fun _ => hs) n a.inst
  · show unit spacing c.counter * (a'.inst / unit spacing c.counter) = a'.inst
    rw [hi]
    exact unit_mul_landing n a.inst

/-- **The log of a simulated program.** -/
theorem Tour.simulated (hs : 1 ≤ spacing) (hc : c.warmup < c.interval) (t : c.Tour rs w b l)
    (hf : a.Free length spacing) (hg : Simulated.engine.Gives a l a') :
    a'.Free length spacing ∧ a'.inst = b.inst ∧ Climb rs w b ∧
      c.Placed length spacing w ∧ c.Placed length spacing b ∧
      ∀ r ∈ rs, c.Placed length spacing r.warmup ∧ c.Placed length spacing r.begins ∧
        c.Placed length spacing r.ends := by
  induction t generalizing a' with
  | @first b l h =>
    -- the start of the program is a boundary, and one leg leads on from it
    obtain ⟨m, hg, hr⟩ := hg.of_append
    obtain ⟨hf₁, hi, hle, hb⟩ := h.placed hs hf hg
    obtain ⟨a₂, hf₂, hi₂, hg⟩ := hf₁.gives_reset hr
    cases hg
    have hstart : c.Placed length spacing .start :=
      ⟨Nat.mul_zero _, Nat.lt_of_le_of_lt (Nat.zero_le _) hb.before⟩
    refine ⟨hf₂, hi₂.trans hi, ⟨.nil, ?_, by simp⟩, hstart, hb, by simp⟩
    exact Nat.zero_le _
  | @filed rs w b w' b' l out back t ho hbk text total wellFormed ih =>
    -- the tour to `a₁`, the legs to `a₂` and `a₃`, then the dump and the reset
    obtain ⟨a₁, hg, hg'⟩ := hg.of_append
    obtain ⟨hf₁, hi₁, hclimb, hw, hb, hall⟩ := ih hg
    obtain ⟨a₃, hg, hd⟩ := hg'.of_append
    obtain ⟨a₂, hout, hback⟩ := hg.of_append
    obtain ⟨hf₂, hi₂, hle₂, hw'⟩ := ho.placed hs hf₁ hout
    obtain ⟨hf₃, hi₃, hle₃, hb'⟩ := hbk.placed hs hf₂ hback
    obtain ⟨a₄, hf₄, hi₄, hd⟩ := hf₃.gives_dump hd
    obtain ⟨a₅, hf₅, hi₅, hd⟩ := hf₄.gives_reset hd
    cases hd
    refine ⟨hf₅, by omega, ?_, hw', hb', fun r hr => ?_⟩
    · exact hclimb.file (hb.lt hw' (by omega)) (hw'.le hs hb' (by omega)) total wellFormed
    · rcases List.mem_append.1 hr with hr | hr
      · exact hall r hr
      · rw [List.mem_singleton.1 hr]
        exact ⟨hw, hb, hb'⟩

end SamplingConfig

/-- **The records of a simulated program** go up, and their boundaries are placed. -/
theorem sample_simulated {c : SamplingConfig} {length spacing fuel : Nat} (hs : 1 ≤ spacing)
    {s s' : Session Simulated} (hf : s.engine.Free length spacing) {rs : List IntervalRecord}
    (h : (sample c fuel).run Simulated.engine s = (.ok rs, s')) :
    Progress rs ∧ ∀ r ∈ rs, c.Placed length spacing r.warmup ∧ c.Placed length spacing r.begins ∧
      c.Placed length spacing r.ends := by
  have hc := warmup_lt_interval_of_sample h
  obtain ⟨d, hcourse, -, hg⟩ := exists_course_of_ok h
  obtain ⟨smp, hist, -, hr⟩ | ⟨own, f, -, -, hr⟩ := course_sample hcourse
  · cases hr
    rcases hist.tour with hnil | ⟨w, b, l₀, l₁, hl, t⟩
    · rw [hnil]
      exact ⟨.nil, by simp⟩
    · rw [hl] at hg
      obtain ⟨a, hg, -⟩ := hg.of_append
      obtain ⟨-, -, hclimb, -, -, hall⟩ := t.simulated hs hc hf hg
      exact ⟨hclimb.progress, hall⟩
  · cases hr

end PhaseSampling
