import PhaseSampling.Proofs.Sampling.Itinerary

/-!
# How far apart the boundaries of a sampling run are

The itinerary of a simulated program in closed form.

* `sample_in_steps`: without waypoints the intervals of a run lie one behind the other, and how many
  there are is a division.
* `sample_between_waypoints`: aligned boundaries drift. Each of the two legs of a cycle ends
  an instruction behind its target at least, and a spacing behind it at most.
-/

namespace PhaseSampling

open PhaseSampling.Flow

namespace SamplingConfig

variable {c : SamplingConfig} {length spacing start i : Nat}

/-! ## Without waypoints -/

theorem begins_plain (hw : c.waypoints = false) (hc : c.warmup < c.interval)
    (spacing start i : Nat) : c.begins spacing start i = start + c.warmup + i * c.interval := by
  induction i with
  | zero => rw [begins, landing_plain hw, Nat.zero_mul, Nat.add_zero]
  | succ i ih =>
    have hstep : (i + 1) * c.interval = i * c.interval + c.interval := Nat.succ_mul i c.interval
    rw [begins, landing_plain hw, landing_plain hw, ih, hstep]
    omega

theorem turn_plain (hw : c.waypoints = false) (hc : c.warmup < c.interval) (spacing start i : Nat) :
    c.turn spacing start i = start + (i + 1) * c.interval := by
  have hstep : (i + 1) * c.interval = i * c.interval + c.interval := Nat.succ_mul i c.interval
  rw [turn, landing_plain hw, begins_plain hw hc, hstep]
  omega

theorem lead_plain (hw : c.waypoints = false) (hc : c.warmup < c.interval) (spacing start i : Nat) :
    c.lead spacing start i =
      if i = 0 then .start else ⟨start + i * c.interval, start + i * c.interval⟩ := by
  cases i with
  | zero => rfl
  | succ i =>
    rw [lead, turn_plain hw hc, boundary_plain hw, if_neg (Nat.succ_ne_zero i)]

/-- **How many intervals end before the end of the program.** -/
theorem room_plain (hw : c.waypoints = false) (hc : c.warmup < c.interval) {m : Nat}
    (hm : ∀ i, i < m ↔ c.begins spacing start (i + 1) < length) :
    m = if length ≤ start + c.warmup then 0
      else (length - 1 - start - c.warmup) / c.interval := by
  apply eq_of_forall_lt_iff
  intro i
  have hstep : (i + 1) * c.interval = i * c.interval + c.interval := Nat.succ_mul i c.interval
  rw [hm, begins_plain hw hc]
  by_cases hnone : length ≤ start + c.warmup
  · rw [if_pos hnone]
    omega
  · have hdiv : i + 1 ≤ (length - 1 - start - c.warmup) / c.interval ↔
        (i + 1) * c.interval ≤ length - 1 - start - c.warmup :=
      Nat.le_div_iff_mul_le (Nat.zero_lt_of_lt hc)
    rw [if_neg hnone]
    omega

/-! ## With waypoints -/

/-- A leg ends behind its target, at most a spacing behind it. -/
theorem landing_drift (hw : c.waypoints = true) (hs : 1 ≤ spacing) (n x : Nat) :
    x + n + 1 ≤ c.landing spacing n x ∧ c.landing spacing n x ≤ x + n + spacing := by
  have hup := Nat.lt_mul_div_succ (x + n) hs
  have hdown := Nat.mul_div_le (x + n) spacing
  have hsplit : spacing * ((x + n) / spacing + 1) = spacing * ((x + n) / spacing) + spacing :=
    Nat.mul_succ _ _
  rw [landing_aligned hw]
  omega

/-- A landing is at a waypoint, and its boundary names that waypoint. -/
theorem boundary_landing (hw : c.waypoints = true) (spacing n x : Nat) :
    (c.boundary spacing (c.landing spacing n x)).inst =
      (c.boundary spacing (c.landing spacing n x)).waypoint * spacing := by
  have hunit : Simulated.unit spacing c.counter * (c.landing spacing n x /
      Simulated.unit spacing c.counter) = c.landing spacing n x := unit_mul_landing n x
  rw [counter, if_pos hw, Nat.mul_comm] at hunit
  rw [boundary_aligned hw]
  exact hunit.symm

theorem mark_aligned (hw : c.waypoints = true) (spacing start i : Nat) :
    (c.mark spacing start i).inst = (c.mark spacing start i).waypoint * spacing := by
  cases i with
  | zero => exact boundary_landing hw _ _ _
  | succ i => exact boundary_landing hw _ _ _

theorem lead_aligned (hw : c.waypoints = true) (spacing start i : Nat) :
    (c.lead spacing start i).inst = (c.lead spacing start i).waypoint * spacing := by
  cases i with
  | zero => exact (Nat.zero_mul _).symm
  | succ i => exact boundary_landing hw _ _ _

/-- The next interval begins two legs further on. -/
theorem begins_drift (hw : c.waypoints = true) (hs : 1 ≤ spacing) (hc : c.warmup < c.interval)
    (start i : Nat) :
    c.begins spacing start i + c.interval + 2 ≤ c.begins spacing start (i + 1) ∧
      c.begins spacing start (i + 1) ≤ c.begins spacing start i + c.interval + 2 * spacing := by
  have hout : c.begins spacing start i + (c.interval - c.warmup) + 1 ≤ c.turn spacing start i ∧
      c.turn spacing start i ≤ c.begins spacing start i + (c.interval - c.warmup) + spacing :=
    landing_drift hw hs _ _
  have hback := landing_drift hw hs c.warmup (c.turn spacing start i)
  rw [begins_succ]
  omega

/-- And one leg behind its warmup. -/
theorem lead_drift (hw : c.waypoints = true) (hs : 1 ≤ spacing) (start i : Nat) :
    (c.lead spacing start (i + 1)).inst + c.warmup + 1 ≤ (c.mark spacing start (i + 1)).inst ∧
      (c.mark spacing start (i + 1)).inst ≤
        (c.lead spacing start (i + 1)).inst + c.warmup + spacing :=
  landing_drift hw hs c.warmup (c.turn spacing start i)

end SamplingConfig

/-! ## Runs -/

section Runs

variable {c : SamplingConfig} {length spacing inst resets : Nat} {s : Session Simulated}

/-- The run of a program for as long as it can need. -/
theorem runSampling_itinerary (hs : c.waypoints = true → 1 ≤ spacing) (hc : c.warmup < c.interval)
    (hfirst : inst + c.warmup < Text.wordLimit) (hlength : length + c.interval < Text.wordLimit)
    (h : s.Paused length spacing inst resets) :
    ∃ rs s', runSampling Simulated.engine c s = (.ok rs, s') ∧
      (∀ i, i < rs.length ↔ c.begins spacing inst (i + 1) < length) ∧
      (∀ i r, rs[i]? = some r → c.Planned spacing inst i r) ∧
      s'.Paused length spacing length
        (resets + if length ≤ c.begins spacing inst 0 then 0 else rs.length + 1) := by
  have hfuel : 2 * length + 2 ≤ Simulated.engine.budget s.engine := by
    show 2 * length + 2 ≤ 2 * (s.engine.length + s.engine.forced.length) + 4
    rw [h.free.length]
    omega
  obtain ⟨rs, hroom, hplanned, s', hrun, h'⟩ := sample_itinerary hs hc hfirst hlength hfuel h
  exact ⟨rs, s', hrun, hroom, hplanned, h'⟩

/-- **Sampling without waypoints.** A program whose histograms can be read is run to its end. The
intervals lie one behind the other from the end of the first warmup on, and the run has a record of
each that ends before the end of the program. The histogram was started once more than there are
records, but not at all if the program exits in the first warmup. -/
theorem sample_in_steps (hw : c.waypoints = false) (hc : c.warmup < c.interval)
    (hfirst : inst + c.warmup < Text.wordLimit) (hlength : length + c.interval < Text.wordLimit)
    (h : s.Paused length spacing inst resets) :
    ∃ rs s', runSampling Simulated.engine c s = (.ok rs, s') ∧
      rs.length = (if length ≤ inst + c.warmup then 0
        else (length - 1 - inst - c.warmup) / c.interval) ∧
      (∀ i r, rs[i]? = some r →
        r.warmup =
          (if i = 0 then ⟨0, 0⟩ else ⟨inst + i * c.interval, inst + i * c.interval⟩) ∧
        r.begins =
          ⟨inst + c.warmup + i * c.interval, inst + c.warmup + i * c.interval⟩ ∧
        r.ends = ⟨r.begins.waypoint + c.interval, r.begins.inst + c.interval⟩) ∧
      s'.engine.inst = length ∧
      s'.engine.resets =
        s.engine.resets + if length ≤ inst + c.warmup then 0 else rs.length + 1 := by
  have hspacing : c.waypoints = true → 1 ≤ spacing := fun h => absurd (hw.symm.trans h) (by decide)
  obtain ⟨rs, s', hrun, hroom, hplanned, h'⟩ :=
    runSampling_itinerary hspacing hc hfirst hlength h
  have hzero : c.begins spacing inst 0 = inst + c.warmup := c.landing_plain hw _ _ _
  refine ⟨rs, s', hrun, c.room_plain hw hc hroom, fun i r hr => ?_, h'.inst, ?_⟩
  · obtain ⟨hwarmup, hbegins, hends⟩ := hplanned i r hr
    rw [SamplingConfig.mark, c.boundary_plain hw, c.begins_plain hw hc] at hbegins hends
    have hstep : (i + 1) * c.interval = i * c.interval + c.interval := Nat.succ_mul i c.interval
    refine ⟨hwarmup.trans (c.lead_plain hw hc spacing inst i), hbegins, ?_⟩
    rw [hends, hbegins, hstep, ← Nat.add_assoc]
  · rw [h'.resets, h.resets, hzero]

/-- A program of ten instructions: two intervals of three end before it does, and a third one would
end exactly where the program ends. -/
theorem sample_in_steps_ten :
    ∃ rs s', runSampling Simulated.engine ⟨1, 3, 2, false⟩
        (.fresh (.program 10 1 ["3 a\n"])) = (.ok rs, s') ∧
      rs.length = 2 ∧ s'.engine.inst = 10 ∧ s'.engine.resets = 3 := by
  have hreadable : ∀ dump ∈ ["3 a\n"], Readable dump :=
    List.forall_mem_singleton.2 ⟨⟨[⟨"a", 3⟩], 3⟩, by decide +kernel⟩
  have hpaused : (Session.fresh (Simulated.program 10 1 ["3 a\n"])).Paused 10 1 0 0 :=
    .fresh hreadable
  obtain ⟨rs, s', hrun, hlen, -, hinst, hresets⟩ :=
    sample_in_steps (c := ⟨1, 3, 2, false⟩) rfl (by decide) (by decide) (by decide) hpaused
  have hlen : rs.length = 2 := hlen
  rw [hlen] at hresets
  exact ⟨rs, s', hrun, hlen, hinst, hresets⟩

/-- **Sampling with waypoints.** Every leg ends at the waypoint behind its target, the next one if
the target is itself at one. So the boundaries are known beforehand, all of them at the waypoints
that they name, and the run has a record of each interval that ends before the end of the program. An
interval is too long by two instructions at least and by two spacings at most. A warmup is too long
by one instruction at least and by one spacing at most, but for the first, whose begin is noted as
the start of the program. -/
theorem sample_between_waypoints (hw : c.waypoints = true) (hs : 1 ≤ spacing)
    (hc : c.warmup < c.interval) (hfirst : inst + c.warmup < Text.wordLimit)
    (hlength : length + c.interval < Text.wordLimit) (h : s.Paused length spacing inst resets) :
    ∃ (b w : Nat → Nat) (rs : List IntervalRecord),
      b 0 = ((inst + c.warmup) / spacing + 1) * spacing ∧
      (∀ i, w (i + 1) = ((b i + (c.interval - c.warmup)) / spacing + 1) * spacing) ∧
      (∀ i, b (i + 1) = ((w (i + 1) + c.warmup) / spacing + 1) * spacing) ∧
      (runSampling Simulated.engine c s).1 = .ok rs ∧
      (∀ i, i < rs.length ↔ b (i + 1) < length) ∧
      (∀ i r, rs[i]? = some r →
        r.warmup = (if i = 0 then ⟨0, 0⟩ else ⟨w i / spacing, w i⟩) ∧
        r.begins = ⟨b i / spacing, b i⟩ ∧ r.ends = ⟨b (i + 1) / spacing, b (i + 1)⟩) ∧
      (∀ r ∈ rs, r.warmup.inst = r.warmup.waypoint * spacing ∧
        r.begins.inst = r.begins.waypoint * spacing ∧ r.ends.inst = r.ends.waypoint * spacing) ∧
      (∀ r ∈ rs, r.begins.inst + c.interval + 2 ≤ r.ends.inst ∧
        r.ends.inst ≤ r.begins.inst + c.interval + 2 * spacing) ∧
      ∀ i r, rs[i + 1]? = some r → r.warmup.inst + c.warmup + 1 ≤ r.begins.inst ∧
        r.begins.inst ≤ r.warmup.inst + c.warmup + spacing := by
  obtain ⟨rs, s', hrun, hroom, hplanned, -⟩ :=
    runSampling_itinerary (fun _ => hs) hc hfirst hlength h
  have hland : ∀ n x, c.landing spacing n x = ((x + n) / spacing + 1) * spacing := by
    intro n x
    rw [c.landing_aligned hw, Nat.mul_comm]
  refine ⟨c.begins spacing inst, fun i => c.turn spacing inst (i - 1), rs, hland _ _,
    fun i => hland _ _, fun i => hland _ _, by rw [hrun], hroom, ?_, ?_, ?_, ?_⟩
  · intro i r hr
    obtain ⟨hwarmup, hbegins, hends⟩ := hplanned i r hr
    rw [SamplingConfig.mark, c.boundary_aligned hw] at hbegins hends
    refine ⟨?_, hbegins, hends⟩
    cases i with
    | zero => exact hwarmup
    | succ i => rw [hwarmup, SamplingConfig.lead, c.boundary_aligned hw, if_neg i.succ_ne_zero]; rfl
  · intro r hr
    obtain ⟨i, hi⟩ := List.getElem?_of_mem hr
    obtain ⟨hwarmup, hbegins, hends⟩ := hplanned i r hi
    rw [hwarmup, hbegins, hends]
    exact ⟨c.lead_aligned hw _ _ _, c.mark_aligned hw _ _ _, c.mark_aligned hw _ _ _⟩
  · intro r hr
    obtain ⟨i, hi⟩ := List.getElem?_of_mem hr
    obtain ⟨-, hbegins, hends⟩ := hplanned i r hi
    rw [hbegins, hends]
    exact c.begins_drift hw hs hc inst i
  · intro i r hr
    obtain ⟨hwarmup, hbegins, -⟩ := hplanned (i + 1) r hr
    rw [hwarmup, hbegins]
    exact c.lead_drift hw hs inst i

/-- A program of twenty instructions with a waypoint at every second one: a third interval would end
with the program. -/
theorem sample_between_waypoints_twenty :
    ∃ rs, (runSampling Simulated.engine ⟨1, 3, 2, true⟩
        (.fresh (.program 20 2 ["3 a\n"]))).1 = .ok rs ∧
      rs.length = 2 ∧
      ∀ r ∈ rs, r.begins.inst + 5 ≤ r.ends.inst ∧ r.ends.inst ≤ r.begins.inst + 7 := by
  have hreadable : ∀ dump ∈ ["3 a\n"], Readable dump :=
    List.forall_mem_singleton.2 ⟨⟨[⟨"a", 3⟩], 3⟩, by decide +kernel⟩
  have hpaused : (Session.fresh (Simulated.program 20 2 ["3 a\n"])).Paused 20 2 0 0 :=
    .fresh hreadable
  obtain ⟨b, w, rs, hb, hout, hback, hrun, hroom, -, -, hdrift, -⟩ :=
    sample_between_waypoints (c := ⟨1, 3, 2, true⟩) rfl (by decide) (by decide) (by decide)
      (by decide) hpaused
  refine ⟨rs, hrun, ?_, hdrift⟩
  -- from boundary to boundary, as far as the end
  have hb : b 0 = 2 := hb
  have hout : ∀ i, w (i + 1) = ((b i + 2) / 2 + 1) * 2 := hout
  have hback : ∀ i, b (i + 1) = ((w (i + 1) + 1) / 2 + 1) * 2 := hback
  have hw₁ : w 1 = 6 := by rw [hout, hb]
  have hb₁ : b 1 = 8 := by rw [hback, hw₁]
  have hw₂ : w 2 = 12 := by rw [hout, hb₁]
  have hb₂ : b 2 = 14 := by rw [hback, hw₂]
  have hw₃ : w 3 = 18 := by rw [hout, hb₂]
  have hb₃ : b 3 = 20 := by rw [hback, hw₃]
  have htwo : 1 < rs.length ↔ b 2 < 20 := hroom 1
  have hthree : 2 < rs.length ↔ b 3 < 20 := hroom 2
  omega

end Runs

end PhaseSampling
