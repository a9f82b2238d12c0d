import PhaseSampling.Proofs.Sampling.Simulated

/-!
# Sampling a program that goes forward

An engine may run past a breakpoint as far as it likes. If only its counters never go back, and a
breakpoint that was reached lies behind the program, then the boundaries of a sampling run go up.

* `Steady`, `Engine.Steady`: a log, and an engine, whose counters go forward. Simulated programs are
  of this kind (`Simulated.steady`).
* `SamplingConfig.Ascent`: one boundary lies at least so many instructions behind another. Legs are
  such ascents (`Leg.ascent`), and a record is a chain of them (`Tour.cycle`).
* `samples_go_forward`: **the records of a run go up**, and every selection of them, in their order,
  is a valid list of simpoints.
-/

namespace PhaseSampling

open PhaseSampling.Flow

/-- Where a counter was seen to stand: it was counted, or its breakpoint was reached. -/
def Exchange.standing? : Exchange → Option (Counter × Nat)
  | ⟨.count counter, some k⟩ => some (counter, k)
  | ⟨.advance counter target, some .breakpoint⟩ => some (counter, target)
  | _ => none

/-- A count is never below where its counter was seen to stand before. -/
def Steady (l : List Exchange) : Prop :=
  l.Pairwise fun x y => ∀ counter j k, x.standing? = some (counter, j) →
    y = ⟨.count counter, some k⟩ → j ≤ k

/-- An engine that can only give steady logs. -/
def Engine.Steady {σ : Type} (e : Engine σ) (a : σ) : Prop :=
  ∀ l b, e.Gives a l b → PhaseSampling.Steady l

theorem Steady.sublist {l l' : List Exchange} (h : Steady l') (hl : l.Sublist l') : Steady l :=
  List.Pairwise.sublist hl h

theorem Steady.left {l l' : List Exchange} (h : Steady (l ++ l')) : Steady l :=
  h.sublist (List.sublist_append_left l l')

theorem Steady.right {l l' : List Exchange} (h : Steady (l ++ l')) : Steady l' :=
  h.sublist (List.sublist_append_right l l')

/-- A count against what was seen before it. -/
theorem Steady.le {l l' : List Exchange} (h : Steady (l ++ l')) {x : Exchange} (hx : x ∈ l)
    {counter : Counter} {j k : Nat} (hj : x.standing? = some (counter, j))
    (hk : (⟨.count counter, some k⟩ : Exchange) ∈ l') : j ≤ k :=
  (List.pairwise_append.1 h).2.2 x hx _ hk counter j k hj rfl

namespace SamplingConfig

variable {c : SamplingConfig} {n : Nat} {w b w' b' : Boundary} {l l' leg out back : List Exchange}
  {rs : List IntervalRecord}

/-! ## Legs -/

/-- A boundary that no count of a log falls behind. -/
structure Passed (c : SamplingConfig) (b : Boundary) (l : List Exchange) : Prop where
  inst : ∀ k, (⟨.count .inst, some k⟩ : Exchange) ∈ l → b.inst ≤ k
  waypoint : c.waypoints = true →
    ∀ k, (⟨.count .waypoint, some k⟩ : Exchange) ∈ l → b.waypoint ≤ k

theorem passed_start (c : SamplingConfig) (l : List Exchange) : c.Passed .start l :=
  ⟨fun k _ => Nat.zero_le k, fun _ k _ => Nat.zero_le k⟩

theorem Passed.mono (h : c.Passed b l') (hl : l ⊆ l') : c.Passed b l :=
  ⟨fun k hk => h.inst k (hl hk), fun hw k hk => h.waypoint hw k (hl hk)⟩

/-- The second boundary lies at least `n` instructions behind the first one, and one waypoint if
boundaries are aligned. -/
structure Ascent (c : SamplingConfig) (n : Nat) (b b' : Boundary) : Prop where
  inst : b.inst + n ≤ b'.inst
  aligned : c.waypoints = true → b.waypoint < b'.waypoint

/-- Without waypoints both counts of a boundary are that of instructions. -/
def Level (c : SamplingConfig) (b : Boundary) : Prop :=
  c.waypoints = false → b.waypoint = b.inst

theorem level_start (c : SamplingConfig) : c.Level .start := fun _ => rfl

theorem Leg.level (h : c.Leg n b leg) : c.Level b := by
  cases h with
  | plain h k i => exact fun _ => rfl
  | aligned h k m i w => exact fun hw => absurd (h.symm.trans hw) (by decide)

/-- **A leg goes forward** from any boundary that the program has passed. -/
theorem Leg.ascent (h : c.Leg n b' leg) (hs : Steady leg) (hb : c.Passed b leg) :
    c.Ascent n b b' := by
  cases h with
  | plain h k i =>
    have hk : b.inst ≤ k := hb.inst k (by simp)
    have hs : Steady ([⟨.count .inst, some k⟩, ⟨.advance .inst (k + n), some .breakpoint⟩] ++
      [⟨.count .inst, some i⟩]) := hs
    have hi : k + n ≤ i :=
      hs.le (x := ⟨.advance .inst (k + n), some .breakpoint⟩) (by simp) rfl (by simp)
    refine ⟨?_, fun hw => absurd (h.symm.trans hw) (by decide)⟩
    show b.inst + n ≤ i
    omega
  | aligned h k m i w =>
    have hk : b.inst ≤ k := hb.inst k (by simp)
    have hm : b.waypoint ≤ m := hb.waypoint h m (by simp)
    have hs : Steady ([⟨.count .inst, some k⟩, ⟨.advance .inst (k + n), some .breakpoint⟩,
      ⟨.count .waypoint, some m⟩, ⟨.advance .waypoint (m + 1), some .breakpoint⟩] ++
        [⟨.count .inst, some i⟩, ⟨.count .waypoint, some w⟩]) := hs
    have hi : k + n ≤ i :=
      hs.le (x := ⟨.advance .inst (k + n), some .breakpoint⟩) (by simp) rfl (by simp)
    have hw : m + 1 ≤ w :=
      hs.le (x := ⟨.advance .waypoint (m + 1), some .breakpoint⟩) (by simp) rfl (by simp)
    refine ⟨?_, fun _ => ?_⟩
    · show b.inst + n ≤ i
      omega
    · show b.waypoint < w
      omega

/-- What comes behind a leg does not fall behind its boundary. -/
theorem Leg.passed (h : c.Leg n b leg) (hs : Steady (leg ++ l)) : c.Passed b l := by
  cases h with
  | plain h k i =>
    refine ⟨fun j hj => hs.le (x := ⟨.count .inst, some i⟩) (by simp) rfl hj, fun hw => ?_⟩
    exact absurd (h.symm.trans hw) (by decide)
  | aligned h k m i w =>
    exact ⟨fun j hj => hs.le (x := ⟨.count .inst, some i⟩) (by simp) rfl hj,
      fun _ j hj => hs.le (x := ⟨.count .waypoint, some w⟩) (by simp) rfl hj⟩

theorem Ascent.waypoint_le (h : c.Ascent n b b') (hb : c.Level b) (hb' : c.Level b') :
    b.waypoint ≤ b'.waypoint := by
  have hinst := h.inst
  cases hw : c.waypoints with
  | true => exact Nat.le_of_lt (h.aligned hw)
  | false =>
    rw [hb hw, hb' hw]
    omega

theorem Ascent.waypoint_lt (h : c.Ascent n b b') (hb : c.Level b) (hb' : c.Level b') (hn : 0 < n) :
    b.waypoint < b'.waypoint := by
  have hinst := h.inst
  cases hw : c.waypoints with
  | true => exact h.aligned hw
  | false =>
    rw [hb hw, hb' hw]
    omega

/-! ## Tours -/

/-- What comes behind a tour does not fall behind the begin of the next interval. -/
theorem Tour.passed (t : c.Tour rs w b l) (hs : Steady (l ++ l')) : c.Passed b l' := by
  cases t with
  | @first b l₀ h =>
    rw [List.append_assoc] at hs
    exact (h.passed hs).mono (List.subset_append_right _ _)
  | @filed _ _ _ _ _ l₀ out back t ho hb text total wellFormed =>
    have hs : Steady (l₀ ++ out ++ (back ++ ([⟨.dump, some text⟩, ⟨.reset, some ()⟩] ++ l'))) := by
      simpa using hs
    exact (hb.passed hs.right).mono (List.subset_append_right _ _)

/-- **The two legs of a cycle** behind a tour. -/
theorem Tour.legs (t : c.Tour rs w b l) (ho : c.Leg (c.interval - c.warmup) w' out)
    (hb : c.Leg c.warmup b' back) (hs : Steady (l ++ (out ++ back))) :
    c.Ascent (c.interval - c.warmup) b w' ∧ c.Ascent c.warmup w' b' := by
  have hpass : c.Passed b out := (t.passed hs).mono (List.subset_append_left _ _)
  exact ⟨ho.ascent hs.right.left hpass, hb.ascent hs.right.right (ho.passed hs.right)⟩

/-- The boundaries that the next interval starts from. -/
theorem Tour.pending (t : c.Tour rs w b l) (hs : Steady l) :
    c.Ascent c.warmup w b ∧ c.Level w ∧ c.Level b := by
  cases t with
  | first h => exact ⟨h.ascent hs.left (passed_start c _), level_start c, h.level⟩
  | filed t ho hb text total wellFormed =>
    rw [← List.append_assoc] at hs
    exact ⟨(t.legs ho hb hs.left).2, ho.level, hb.level⟩

/-- **The cycle of a record**: from its warmup to its begin, to the next warmup, and to its end. -/
theorem Tour.cycle (t : c.Tour rs w b l) (hs : Steady l) {i : Nat} {r : IntervalRecord}
    (hr : rs[i]? = some r) :
    c.Ascent c.warmup r.warmup r.begins ∧ c.Level r.begins ∧ c.Level r.ends ∧
      ∃ w', (rs.map (·.warmup) ++ [w])[i + 1]? = some w' ∧ c.Level w' ∧
        c.Ascent (c.interval - c.warmup) r.begins w' ∧ c.Ascent c.warmup w' r.ends := by
  obtain ⟨w', l₀, out, back, text, after, ht, ho, hb, rfl, hw, -⟩ := t.split hr
  obtain ⟨hup, -, hbegins⟩ := ht.pending hs.left
  rw [← List.append_assoc] at hs
  obtain ⟨hout, hback⟩ := ht.legs ho hb hs.left
  exact ⟨hup, hbegins, hb.level, w', hw, ho.level, hout, hback⟩

/-- The waypoints of the records go up. -/
theorem Tour.climb (hc : c.warmup < c.interval) (t : c.Tour rs w b l) (hs : Steady l) :
    Climb rs w b := by
  induction t with
  | first h => exact ⟨.nil, Nat.zero_le _, by simp⟩
  | @filed rs w b w' b' l out back t ho hb text total wellFormed ih =>
    obtain ⟨-, -, hlevel⟩ := t.pending hs.left
    have hclimb := ih hs.left
    rw [← List.append_assoc] at hs
    obtain ⟨hout, hback⟩ := t.legs ho hb hs.left
    have hlt : b.waypoint < w'.waypoint := hout.waypoint_lt hlevel ho.level (by omega)
    exact hclimb.file hlt (hback.waypoint_le ho.level hb.level) total wellFormed

end SamplingConfig

/-! ## Simulated programs -/

namespace Simulated

variable {a b : Simulated} {length spacing : Nat} {l : List Exchange}

/-- **A call** leaves a program free, moves it forward at most to its end, and tells of its counters
no more than where they stand then. -/
theorem Free.answer (hs : 1 ≤ spacing) (hf : a.Free length spacing) (hi : a.inst ≤ length)
    (c : Call) (w : World) :
    (engine.answer c a w).2.1.Free length spacing ∧ a.inst ≤ (engine.answer c a w).2.1.inst ∧
      (engine.answer c a w).2.1.inst ≤ length ∧
      ∀ counter j, Exchange.standing? ⟨c, (engine.answer c a w).1.toOption⟩ = some (counter, j) →
        j ≤ (engine.answer c a w).2.1.count counter := by
  cases c with
  | count counter =>
    refine ⟨hf, Nat.le_refl _, hi, fun counter' j hj => ?_⟩
    cases hj
    exact Nat.le_refl _
  | advance counter target =>
    have he : engine.answer (.advance counter target) a w =
        (.ok (a.advance counter target).1, (a.advance counter target).2, w) := rfl
    rw [he, hf.advance]
    split
    · exact ⟨hf.of_same rfl rfl rfl, hi, Nat.le_refl _, fun counter' j hj => by cases hj⟩
    · rename_i hlt
      refine ⟨hf.of_same rfl rfl rfl, Nat.le_max_left _ _, ?_, fun counter' j hj => ?_⟩
      · exact Nat.max_le.2 ⟨hi, Nat.le_of_lt (Nat.not_le.1 hlt)⟩
      -- the breakpoint was reached
      · cases hj
        cases counter with
        | inst =>
          rw [unit, Nat.one_mul]
          exact Nat.le_max_right _ _
        | waypoint =>
          show target ≤ max a.inst (spacing * target) / a.spacing
          rw [hf.spacing, Nat.le_div_iff_mul_le hs, Nat.mul_comm]
          exact Nat.le_max_right _ _
  | complete =>
    have he : engine.answer .complete a w = (.ok a.complete.1, a.complete.2, w) := rfl
    rw [he, hf.complete]
    exact ⟨hf.of_same rfl rfl rfl, hi, Nat.le_refl _, fun counter j hj => by cases hj⟩
  | checkpoint path =>
    have he : engine.answer (.checkpoint path) a w = a.checkpoint w path := rfl
    rw [he, Simulated.checkpoint]
    split
    · exact ⟨hf.of_same rfl rfl rfl, Nat.le_refl _, hi, fun counter j hj => by cases hj⟩
    · exact ⟨hf, Nat.le_refl _, hi, fun counter j hj => by cases hj⟩
  | stats => exact ⟨hf.of_same rfl rfl rfl, Nat.le_refl _, hi, fun counter j hj => by cases hj⟩
  | dump => exact ⟨hf.of_same rfl rfl rfl, Nat.le_refl _, hi, fun counter j hj => by cases hj⟩
  | reset => exact ⟨hf.of_same rfl rfl rfl, Nat.le_refl _, hi, fun counter j hj => by cases hj⟩

theorem Free.count_le (hf : a.Free length spacing) (hf' : b.Free length spacing)
    (hi : a.inst ≤ b.inst) (counter : Counter) : a.count counter ≤ b.count counter := by
  cases counter with
  | inst => exact hi
  | waypoint =>
    rw [Simulated.count, Simulated.count, hf.spacing, hf'.spacing]
    exact Nat.div_le_div_right hi

/-- No later count is below where a counter stands. -/
theorem Free.le_of_gives (hs : 1 ≤ spacing) (hf : a.Free length spacing) (hi : a.inst ≤ length)
    (h : engine.Gives a l b) {counter : Counter} {k : Nat}
    (hk : (⟨.count counter, some k⟩ : Exchange) ∈ l) : a.count counter ≤ k := by
  induction h with
  | nil a => cases hk
  | @cons a b l c w h ih =>
    obtain ⟨hf', hle, hi', -⟩ := hf.answer hs hi c w
    rcases List.mem_cons.1 hk with hk | hk
    · cases hk
      exact Nat.le_refl _
    · exact Nat.le_trans (hf.count_le hf' hle counter) (ih hf' hi' hk)

/-- **A simulated program goes forward.** -/
theorem steady (hs : 1 ≤ spacing) (hf : a.Free length spacing) (hi : a.inst ≤ length) :
    engine.Steady a := by
  intro l b h
  induction h with
  | nil a => exact .nil
  | @cons a b l c w h ih =>
    obtain ⟨hf', -, hi', hstand⟩ := hf.answer hs hi c w
    refine .cons (fun y hy counter j k hj hk => ?_) (ih hf' hi')
    subst hk
    exact Nat.le_trans (hstand counter j hj) (hf'.le_of_gives hs hi' h hy)

end Simulated

/-! ## Records -/

section Records

variable {σ : Type} {e : Engine σ} {c : SamplingConfig} {fuel : Nat} {s s' : Session σ}
  {rs : List IntervalRecord}

/-- The records of a run over an engine that goes forward come out of a steady tour. -/
theorem exists_tour_of_sample (he : e.Steady s.engine)
    (h : (sample c fuel).run e s = (.ok rs, s')) :
    rs = [] ∨ ∃ w b l, c.Tour rs w b l ∧ Steady l := by
  obtain ⟨d, hcourse, -, hgives⟩ := exists_course_of_ok h
  obtain ⟨smp, hist, -, hr⟩ | ⟨own, f, -, -, hr⟩ := course_sample hcourse
  · cases hr
    obtain hnil | ⟨w, b, l₀, l₁, hl, t⟩ := hist.tour
    · exact .inl hnil
    · have hs := he _ _ hgives
      rw [hl] at hs
      exact .inr ⟨w, b, l₀, t, hs.left⟩
  · cases hr

/-- What a record and the warmup of the next one are to each other. -/
theorem SamplingConfig.Tour.next {w b : Boundary} {l : List Exchange} (t : c.Tour rs w b l)
    (hs : Steady l) {i : Nat} {r r' : IntervalRecord} (hr : rs[i]? = some r)
    (hr' : rs[i + 1]? = some r') :
    c.Level r.begins ∧ c.Level r'.warmup ∧ c.Level r.ends ∧
      c.Ascent (c.interval - c.warmup) r.begins r'.warmup ∧
      c.Ascent c.warmup r'.warmup r.ends := by
  obtain ⟨-, hbegins, hends, w', hw, hlevel, hout, hback⟩ := t.cycle hs hr
  rw [List.getElem?_append_left (by simpa using (List.getElem?_eq_some_iff.1 hr').1),
    List.getElem?_map, hr'] at hw
  cases hw
  exact ⟨hbegins, hlevel, hends, hout, hback⟩

/-- **The records of a run go up**, over any engine whose counters go forward and whose breakpoints
are reached. From the warmup of a record to its begin there are at least as many instructions as a
warmup has, and from there to its end as many as an interval. The next warmup lies between these two.
If boundaries are aligned each of the four is at a waypoint of its own. So **every selection of the
records**, in their order and with names of their own, is a valid list of simpoints at the waypoints
that their lines tell, whether or not they keep their numbers. -/
theorem samples_go_forward (he : e.Steady s.engine)
    (h : (sample c fuel).run e s = (.ok rs, s')) :
    (∀ r ∈ rs, r.warmup.inst + c.warmup ≤ r.begins.inst ∧
      r.begins.inst + c.interval ≤ r.ends.inst) ∧
    (∀ i r r', rs[i]? = some r → rs[i + 1]? = some r' →
      (r.begins.inst ≤ r'.warmup.inst ∧ r'.warmup.inst ≤ r.ends.inst) ∧
      (r.begins.waypoint ≤ r'.warmup.waypoint ∧ r'.warmup.waypoint ≤ r.ends.waypoint)) ∧
    (c.waypoints = true →
      (∀ r ∈ rs, r.warmup.waypoint < r.begins.waypoint ∧ r.begins.waypoint < r.ends.waypoint) ∧
      ∀ i r r', rs[i]? = some r → rs[i + 1]? = some r' →
        r.begins.waypoint < r'.warmup.waypoint ∧ r'.warmup.waypoint < r.ends.waypoint) ∧
    ∀ (kept : List (IntervalRecord × Nat)) (name : Nat → String) (weight : Nat → Binary64)
      (numbered : Nat → Bool), kept.Sublist rs.zipIdx → (kept.map fun x => name x.2).Nodup →
      Simpoint.validate (select kept name weight numbered) = .ok () ∧
        (select kept name weight numbered).map (fun p => some p.waypoints) =
          kept.map fun x => Waypoints.read? x.1.infoLine := by
  have hc := warmup_lt_interval_of_sample h
  have hlines : ∀ (kept : List (IntervalRecord × Nat)) name weight numbered,
      (select kept name weight numbered).map (fun p => some p.waypoints) =
        kept.map fun x => Waypoints.read? x.1.infoLine := by
    intro kept name weight numbered
    rw [select, List.map_map]
    exact List.map_congr_left fun x _ => (read?_infoLine x.1).symm
  obtain rfl | ⟨w, b, l, t, hs⟩ := exists_tour_of_sample he h
  · refine ⟨by simp, by simp, fun _ => ⟨by simp, by simp⟩, fun kept name weight numbered hk hn => ?_⟩
    exact ⟨validate_select .nil hk hn weight numbered, hlines ..⟩
  refine ⟨fun r hr => ?_, fun i r r' hr hr' => ?_, fun hw => ⟨fun r hr => ?_, fun i r r' hr hr' => ?_⟩,
    fun kept name weight numbered hk hn => ?_⟩
  · obtain ⟨i, hi⟩ := List.getElem?_of_mem hr
    obtain ⟨hup, -, -, w', -, -, hout, hback⟩ := t.cycle hs hi
    have hout := hout.inst
    have hback := hback.inst
    exact ⟨hup.inst, by omega⟩
  · obtain ⟨hbegins, hwarmup, hends, hout, hback⟩ := t.next hs hr hr'
    have hi := hout.inst
    have hi' := hback.inst
    exact ⟨⟨by omega, by omega⟩, hout.waypoint_le hbegins hwarmup, hback.waypoint_le hwarmup hends⟩
  · obtain ⟨i, hi⟩ := List.getElem?_of_mem hr
    obtain ⟨hup, -, -, w', -, -, hout, hback⟩ := t.cycle hs hi
    exact ⟨hup.aligned hw, Nat.lt_trans (hout.aligned hw) (hback.aligned hw)⟩
  · obtain ⟨-, -, -, hout, hback⟩ := t.next hs hr hr'
    exact ⟨hout.aligned hw, hback.aligned hw⟩
  · exact ⟨validate_select (t.climb hc hs).progress hk hn weight numbered, hlines ..⟩

/-- A program of twenty instructions with a waypoint at every second one: the next warmup lies inside
the first record, and the second record alone is a valid list. -/
theorem samples_go_forward_twenty :
    ((sample ⟨1, 3, 2, true⟩ 10).run Simulated.engine
        (.fresh (.program 20 2 ["3 a\n", "2 b\n"]))).1.toOption = some
        [⟨⟨0, 0⟩, ⟨1, 2⟩, ⟨4, 8⟩, 3, true⟩, ⟨⟨3, 6⟩, ⟨4, 8⟩, ⟨7, 14⟩, 2, true⟩] ∧
      ((1 : Nat) < 3 ∧ (3 : Nat) < 4) ∧
      Simpoint.validate (select [(⟨⟨3, 6⟩, ⟨4, 8⟩, ⟨7, 14⟩, 2, true⟩, 1)] toString
        (fun _ => ⟨0⟩) fun _ => true) = .ok () := by
  have hrun : ((sample ⟨1, 3, 2, true⟩ 10).run Simulated.engine
      (.fresh (.program 20 2 ["3 a\n", "2 b\n"]))).1.toOption = some
      [⟨⟨0, 0⟩, ⟨1, 2⟩, ⟨4, 8⟩, 3, true⟩, ⟨⟨3, 6⟩, ⟨4, 8⟩, ⟨7, 14⟩, 2, true⟩] := by
    decide +kernel
  have hsteady : Simulated.engine.Steady
      (Session.fresh (.program 20 2 ["3 a\n", "2 b\n"]) : Session Simulated).engine :=
    Simulated.steady (by decide) (Simulated.free_program 20 2 _) (Nat.zero_le _)
  obtain ⟨-, -, haligned, hkept⟩ := samples_go_forward hsteady (run_of_toOption hrun)
  refine ⟨hrun, (haligned rfl).2 0 _ _ rfl rfl, ?_⟩
  refine (hkept _ toString (fun _ => ⟨0⟩) (fun _ => true) ?_ ?_).1
  · exact List.Sublist.cons _ (List.Sublist.refl _)
  · simp

end Records

end PhaseSampling
