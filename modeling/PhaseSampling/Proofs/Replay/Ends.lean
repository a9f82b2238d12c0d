import PhaseSampling.Proofs.Engine.Stops

/-!
# The ends of a replay

The visits of several simpoints may interleave in any way, but those of one simpoint keep the order of
its marks. So an end finds the readings of its own warmup and interval, and the timeline closes with
an end: only there may the program have exited, and only there the slack is taken off.

* `filter_index_timeline`: **the visits of one simpoint** are its warmup, its interval and its end.
* `ReplayConfig.VisitedAll.ne_endedTooSoon`: visits that keep to the timeline find their readings.
* `ReplayConfig.ClosedByEnd`: what the last visit is to a replay.
* `ends_close_replay`: all of this for every engine.
-/

namespace PhaseSampling

open PhaseSampling.Flow

variable {ps : List Simpoint} {p : Simpoint} {i : Nat}

theorem mem_filter_index_timeline_iff {v : Visit} (hp : ps[i]? = some p) :
    v ∈ (timeline ps).filter (·.index = i) ↔ v ∈ Visit.all i p := by
  rw [List.mem_filter, mem_timeline_iff, decide_eq_true_eq, Visit.all_eq]
  constructor
  · rintro ⟨⟨hpoint, hv⟩, rfl⟩
    have hpoint : p = v.point := Option.some.inj (hp.symm.trans hpoint)
    rw [hv, ← hpoint]
    cases v.mark <;> simp [Visit.of]
  · intro hv
    simp only [List.mem_cons, List.not_mem_nil, or_false] at hv
    rcases hv with rfl | rfl | rfl <;> exact ⟨⟨hp, rfl⟩, rfl⟩

/-- **The visits of one simpoint** in the timeline are those to its warmup, its interval and its end, in
this order, wherever those of others stand among them. -/
theorem filter_index_timeline (ho : ∀ p ∈ ps, p.waypoints.Ordered) (hp : ps[i]? = some p) :
    (timeline ps).filter (·.index = i) = Visit.all i p := by
  have hnodup : ((timeline ps).filter (·.index = i)).Nodup := by
    have h := (nodup_keys_timeline ps).of_map
    exact h.filter _
  have hall : (Visit.all i p).Nodup := by
    rw [Visit.all_eq]
    simp [Visit.of]
  have hperm : ((timeline ps).filter (·.index = i)).Perm (Visit.all i p) :=
    (List.perm_ext_iff_of_nodup hnodup hall).2 fun v => mem_filter_index_timeline_iff hp
  have hleft : ((timeline ps).filter (·.index = i)).Pairwise fun u v =>
      u.mark.rank < v.mark.rank := by
    refine ((timeline_marks ho).filter _).imp_of_mem fun {u v} hu hv h => ?_
    have hu : u.index = i := of_decide_eq_true (List.mem_filter.1 hu).2
    have hv : v.index = i := of_decide_eq_true (List.mem_filter.1 hv).2
    exact h (hu.trans hv.symm)
  have hright : (Visit.all i p).Pairwise fun u v => u.mark.rank < v.mark.rank := by
    rw [Visit.all_eq]
    simp [Visit.of, Mark.rank]
  -- two lists of the same visits, both in the order of their marks
  exact List.Perm.eq_of_pairwise (fun u v _ _ h h' => absurd h (Nat.lt_asymm h')) hleft hright hperm

/-! ## Ends find their readings -/

theorem Pass.exists_reading? {s : Pass} {m : Mark} (h : (i, m) ∈ s.readings.map Reading.key) :
    ∃ n, s.reading? i m = some n := by
  obtain ⟨r, hr, hkey⟩ := List.mem_map.1 h
  rw [Reading.key, Prod.mk.injEq] at hkey
  have hfound : (s.readings.find? fun r => r.index == i && r.mark == m).isSome := by
    rw [List.find?_isSome]
    exact ⟨r, hr, by simp [hkey]⟩
  obtain ⟨r', hr'⟩ := Option.isSome_iff_exists.1 hfound
  exact ⟨r'.inst, by rw [reading?, hr', Option.map_some]⟩

namespace ReplayConfig

variable {c : ReplayConfig} {s s' : Pass} {v : Visit} {vs us : List Visit} {l : List Exchange}

/-- With all its readings a checkpoint is not too soon. -/
theorem course_nameCheckpoint_ne {d : List Deed} {f : Fault} {name : String}
    (h : (nameCheckpoint c s v).Course d (.fault true f))
    (hread : ∀ m, (v.index, m) ∈ s.readings.map Reading.key) : f ≠ .endedTooSoon name := by
  obtain ⟨w, hw⟩ := Pass.exists_reading? (hread .warmup)
  obtain ⟨k, hk⟩ := Pass.exists_reading? (hread .interval)
  obtain ⟨n, hn⟩ := Pass.exists_reading? (hread .stop)
  rw [nameCheckpoint, hw, hk, hn] at h
  by_cases hle : w ≤ k ∧ k ≤ n
  · simp only [if_pos hle] at h
    rw [course_link_bind] at h
    obtain ⟨g, -, hg⟩ | ⟨long, d, -, h⟩ := h
    · cases hg
    · obtain ⟨-, hvalue⟩ := course_pure.1 h
      cases hvalue
  · simp only [if_neg hle] at h
    obtain ⟨-, hf⟩ := course_fail.1 h
    cases hf
    intro heq
    cases heq

/-- A visit whose simpoint was read at all marks before it does not find one missing. -/
theorem Visited.ne_endedTooSoon {last : Bool} {f : Fault} {name : String}
    (h : c.Visited last s v l (.fault true f))
    (hread : ∀ m, m.rank ≤ v.mark.rank → m ≠ v.mark → (v.index, m) ∈ s.readings.map Reading.key) :
    f ≠ .endedTooSoon name := by
  cases h with
  | early => nofun
  | stopped => nofun
  | unnamed exited he inst hm hn =>
    refine course_nameCheckpoint_ne hn fun m => ?_
    rw [Pass.arrive, List.map_cons, List.mem_cons]
    by_cases hmark : m = v.mark
    · exact .inl (by rw [Reading.key, hmark])
    · have hrank : m.rank ≤ v.mark.rank := by rw [hm]; cases m <;> decide
      exact .inr (hread m hrank hmark)

/-- **Visits that keep to the timeline** find their readings. -/
theorem VisitedAll.ne_endedTooSoon {r : Ending Pass} {name : String} (h : c.VisitedAll s vs l r)
    (ho : ∀ p ∈ ps, p.waypoints.Ordered) (hvs : PhaseSampling.timeline ps = us ++ vs)
    (hs : ∀ u ∈ us, u.key ∈ s.readings.map Reading.key) :
    r ≠ .fault true (.endedTooSoon name) := by
  induction h generalizing us with
  | nil s => nofun
  | @cut s v vs l own f h =>
    intro heq
    cases heq
    refine h.ne_endedTooSoon (fun m hm hne => ?_) rfl
    have hprefix : us ++ [v] <+: PhaseSampling.timeline ps := ⟨vs, by rw [hvs]; simp⟩
    have hmem : Visit.of v.point v.index m ∈ us ++ [v] := mem_of_prefix_timeline ho hprefix hm
    rw [List.mem_append, List.mem_singleton] at hmem
    rcases hmem with hmem | hself
    · exact hs _ hmem
    · exact absurd (congrArg Visit.mark hself) hne
  | @cons s s' v vs l l' r h t ih =>
    obtain ⟨inst, hreadings⟩ := h.made_readings
    have hsplit : PhaseSampling.timeline ps = us ++ [v] ++ vs := by
      rw [hvs]
      simp
    refine ih hsplit fun u hu => ?_
    rw [hreadings, List.map_cons, List.mem_cons]
    rw [List.mem_append, List.mem_singleton] at hu
    rcases hu with hu | rfl
    · exact .inr (hs u hu)
    · exact .inl rfl

/-- A replay never ends before its own marks were read. -/
theorem Replayed.ne_endedTooSoon {r : Ending (List Checkpoint)} {name : String}
    (h : c.Replayed ps l r) : r ≠ .fault true (.endedTooSoon name) := by
  cases h with
  | rejected hv =>
    intro heq
    cases heq
    unfold Simpoint.validate at hv
    split at hv
    · cases hv
    split at hv
    · cases hv
    split at hv <;> cases hv
  | cut hv t =>
    have ho := (Simpoint.validate_eq_ok_iff.1 hv).2.1
    intro heq
    cases heq
    have hall : PhaseSampling.timeline ps = [] ++ PhaseSampling.timeline ps := rfl
    exact t.ne_endedTooSoon ho hall (by simp) rfl
  | stopped hv t he hc => nofun
  | exited | unfinished | completed => nofun

/-! ## The last visit -/

theorem length_targets (l : List Exchange) : (targets l).length = advances l := by
  induction l with
  | nil => rfl
  | cons x l ih =>
    obtain ⟨call, answer⟩ := x
    cases call with
    | advance counter target =>
      rw [advances_cons_advance, ← ih]
      rfl
    | _ => exact ih

/-- A replay that made the exchanges `l` and ended with `r` takes the exit of the program at the last
visit only, which is that of an end. Counted in instructions, this end is drawn back by the slack, and
nothing else is. -/
structure ClosedByEnd (c : ReplayConfig) (ps : List Simpoint) (l : List Exchange)
    (r : Except Fault (List Checkpoint)) : Prop where
  exits : ∀ before counter target after,
    l = before ++ ⟨.advance counter target, some .completed⟩ :: after →
      (after = [] ∧ r = .error (.exitedEarly counter target)) ∨
      ∃ us v, timeline ps = us ++ [v] ∧ advances before = us.length ∧ v.mark = .stop
  slack : c.counter = .inst → ∀ us v, timeline ps = us ++ [v] →
    targets l <+: us.map Visit.waypoint ++ [v.waypoint - c.slack]

theorem Replayed.closedByEnd {r : Ending (List Checkpoint)} (hv : Simpoint.validate ps = .ok ())
    (h : c.Replayed ps l r) : c.ClosedByEnd ps l r.result := by
  have ho := (Simpoint.validate_eq_ok_iff.1 hv).2.1
  constructor
  · intro before counter target after hl
    by_cases hn : advances before + 1 < 3 * ps.length
    · obtain ⟨hafter, hr⟩ := h.early hl hn
      exact .inl ⟨hafter, by rw [hr]; rfl⟩
    -- all visits but one were made before, so this is the last
    · have hle : advances l ≤ 3 * ps.length := by
        have hle := h.targets.length_le
        rw [length_targets, length_aims, length_timeline] at hle
        exact hle
      rw [hl, advances_append, advances_cons_advance] at hle
      have hlen := length_timeline ps
      rcases List.eq_nil_or_concat (timeline ps) with hnil | ⟨us, v, hlast⟩
      · rw [hnil, List.length_nil] at hlen
        omega
      · rw [List.concat_eq_append] at hlast
        have hmark : v.mark = .stop := mark_of_getLast?_timeline ho (by rw [hlast]; simp)
        rw [hlast, List.length_append, List.length_singleton] at hlen
        exact .inr ⟨us, v, hlast, by omega, hmark⟩
  · intro hc us v hlast
    have htargets := h.targets
    rw [hlast, aims_concat, aim, if_pos ⟨rfl, hc⟩] at htargets
    exact htargets

end ReplayConfig

/-- **A simpoint never ends before it began, and only an end closes a replay.** In the timeline of a
valid list each simpoint's warmup comes before its interval, and that before its end; the last visit
is an end. So over every engine a replay does not end for want of a reading (unless the engine itself
gives that fault), the exit of the program is taken at an end only, and the slack is always taken off
the last target where instructions are counted. -/
theorem ends_close_replay {σ : Type} (hv : Simpoint.validate ps = .ok ()) (e : Engine σ)
    (c : ReplayConfig) (s : Session σ) :
    (∀ i p, ps[i]? = some p → (timeline ps).filter (·.index = i) = Visit.all i p) ∧
    (∀ v, (timeline ps).getLast? = some v → v.mark = .stop) ∧
    (∀ name, ((replay c ps).run e s).1 = .error (.endedTooSoon name) →
      ∃ call a w, (e.answer call a w).1 = .error (.endedTooSoon name)) ∧
    ∃ l, ((replay c ps).run e s).2.trace.toList = s.trace.toList ++ l ∧
      c.ClosedByEnd ps l ((replay c ps).run e s).1 := by
  have ho := (Simpoint.validate_eq_ok_iff.1 hv).2.1
  obtain ⟨d, r, hc, hr, hd, ht, -⟩ := exists_course e (replay c ps) s
  have hreplayed := course_replay hc
  refine ⟨fun i p hp => filter_index_timeline ho hp, fun v => mark_of_getLast?_timeline ho,
    fun name hname => ?_, exchanges d, ht, ?_⟩
  · rw [hr] at hname
    cases r with
    | value cps => cases hname
    | fault own f =>
      cases hname
      -- the fault is not the replay's own, so it is that of an operation
      have hown : own = false := by
        cases own with
        | true => exact absurd rfl hreplayed.ne_endedTooSoon
        | false => rfl
      subst hown
      obtain ⟨o, hmem⟩ := hc.broken_mem rfl
      obtain hanswer | ⟨cause, hsystem⟩ := (hd _ hmem).fault
      · exact hanswer
      · cases hsystem
  · rw [hr]
    exact hreplayed.closedByEnd hv

/-- Two simpoints that overlap, in the order of their places but not of their waypoints; and one with
all its marks at one waypoint. A script lets the program exit on its last visit, which is aimed at the
end less the slack. -/
theorem ends_close_replay_scripts :
    (timeline [⟨"0", ⟨0⟩, ⟨5, 6, 9⟩, some 4⟩, ⟨"1", ⟨0⟩, ⟨1, 6, 9⟩, some 5⟩]).filter (·.index = 1) =
      Visit.all 1 ⟨"1", ⟨0⟩, ⟨1, 6, 9⟩, some 5⟩ ∧
    ∃ l, ReplayConfig.ClosedByEnd ⟨"/", .inst, 1⟩ [⟨"0", ⟨0⟩, ⟨3, 3, 3⟩, none⟩] l
        ((replay ⟨"/", .inst, 1⟩ [⟨"0", ⟨0⟩, ⟨3, 3, 3⟩, none⟩]).run Scripted.engine
          (.fresh ⟨[.ok 3, .ok 3], [.ok .breakpoint, .ok .breakpoint, .ok .completed], [], []⟩)).1 ∧
      targets l = [3, 3, 2] := by
  constructor
  · have hv : Simpoint.validate
        [⟨"0", ⟨0⟩, ⟨5, 6, 9⟩, some 4⟩, ⟨"1", ⟨0⟩, ⟨1, 6, 9⟩, some 5⟩] = .ok () := rfl
    exact (ends_close_replay hv Scripted.engine ⟨"/", .inst, 1⟩ (.fresh ⟨[], [], [], []⟩)).1 1 _ rfl
  · have hv : Simpoint.validate [⟨"0", ⟨0⟩, ⟨3, 3, 3⟩, none⟩] = .ok () := rfl
    obtain ⟨-, -, -, l, hl, h⟩ := ends_close_replay hv Scripted.engine ⟨"/", .inst, 1⟩
      (.fresh ⟨[.ok 3, .ok 3], [.ok .breakpoint, .ok .breakpoint, .ok .completed], [], []⟩)
    refine ⟨l, h, ?_⟩
    have ht : timeline [⟨"0", ⟨0⟩, ⟨3, 3, 3⟩, none⟩] = Visit.all 0 ⟨"0", ⟨0⟩, ⟨3, 3, 3⟩, none⟩ :=
      timeline_eq_visits (by decide)
    rw [replay, ht] at hl
    have htargets : targets _ = targets l := congrArg targets hl
    rw [← htargets]
    decide +kernel

end PhaseSampling
