import PhaseSampling.Proofs.Replay.Simulated

/-!
# The schedule of a replay

The calls of a replay are fixed before it begins: `ReplayConfig.schedule` lists them. An engine
decides by its answers only how far along the schedule the replay gets.

* `replay_keeps_schedule`: over any engine the calls are a prefix of the schedule. A replay that ends
  well made all of them and has one checkpoint for every simpoint, with the counts answered at its
  own three visits.
-/

namespace PhaseSampling

open PhaseSampling.Flow

namespace ReplayConfig

/-- Where a visit is meant to go: to its waypoint, except that the last one, counted in
instructions, stops short of it by the slack. -/
def aim (c : ReplayConfig) (last : Bool) (v : Visit) : Nat :=
  if last ∧ c.counter = .inst then v.waypoint - c.slack else v.waypoint

/-- The calls of visits in turn. -/
def schedule (c : ReplayConfig) : List Visit → List Call
  | [] => []
  | v :: vs =>
    .advance c.counter (c.aim vs.isEmpty v) :: .count .inst ::
      ((if v.mark = .warmup then [.checkpoint (c.snapshotPath v), .stats] else []) ++ c.schedule vs)

/-- The exchanges of visits that were all made. The program may have exited on the last of them. -/
def log (c : ReplayConfig) (count : Nat → Mark → Nat) (exited : Bool) :
    List Visit → List Exchange
  | [] => []
  | v :: vs =>
    ⟨.advance c.counter (c.aim vs.isEmpty v),
        some (if vs.isEmpty && exited then .completed else .breakpoint)⟩ ::
      ⟨.count .inst, some (count v.index v.mark)⟩ :: (c.snapshot v ++ c.log count exited vs)

/-- The checkpoints of the simpoints whose ends are visited. -/
def endings (count : Nat → Mark → Nat) (vs : List Visit) : List Checkpoint :=
  (vs.filter (·.mark = .stop)).map fun v =>
    v.point.checkpoint (count v.index .warmup) (count v.index .interval) (count v.index .stop)

variable {c : ReplayConfig} {s s' : Pass} {v : Visit} {vs : List Visit} {l : List Exchange}

/-- Visits that end with an end. -/
def Closed (vs : List Visit) : Prop := ∀ v, vs.getLast? = some v → v.mark = .stop

theorem Closed.tail (h : Closed (v :: vs)) : Closed vs := by
  intro u hu
  cases vs with
  | nil => simp at hu
  | cons w vs => exact h u (by rwa [List.getLast?_cons_cons])

theorem Closed.target (h : Closed (v :: vs)) : c.target vs.isEmpty v = c.aim vs.isEmpty v := by
  cases vs with
  | nil =>
    have hm : v.mark = .stop := h v (by simp)
    simp [ReplayConfig.target, aim, hm]
  | cons w vs => simp [ReplayConfig.target, aim]

theorem snapshot_calls (c : ReplayConfig) (v : Visit) :
    (c.snapshot v).map Exchange.call =
      if v.mark = .warmup then [.checkpoint (c.snapshotPath v), .stats] else [] := by
  rw [snapshot]
  split <;> rfl

/-- A visit that was made has all its calls. -/
theorem Visited.made_calls {last : Bool} (h : c.Visited last s v l (.value s')) :
    l.map Exchange.call =
      .advance c.counter (c.target last v) :: .count .inst :: (c.snapshot v).map Exchange.call := by
  cases h with
  | passed exited he inst hm => simp [arrival]
  | named exited he inst hm hn => simp [arrival, snapshot, hm]

/-- The calls of a visit that was cut off are its first ones. -/
theorem Visited.cut_calls {last : Bool} {own : Bool} {f : Fault}
    (h : c.Visited last s v l (.fault own f)) :
    l.map Exchange.call <+:
      .advance c.counter (c.target last v) :: .count .inst :: (c.snapshot v).map Exchange.call := by
  cases h with
  | unanswered | early | stopped | uncounted => simp
  | unsaved exited he inst hm => simp [arrival, snapshot, hm]
  | unlogged exited he inst hm => simp [arrival, snapshot, hm]
  | unnamed exited he inst hm hn => simp [arrival, snapshot, hm]

theorem schedule_cons (h : Closed (v :: vs)) :
    c.schedule (v :: vs) = (.advance c.counter (c.target vs.isEmpty v) :: .count .inst ::
      (c.snapshot v).map Exchange.call) ++ c.schedule vs := by
  rw [schedule, h.target, snapshot_calls]
  rfl

/-- **Visits keep to their schedule** however far they get. -/
theorem VisitedAll.calls {r : Ending Pass} (h : c.VisitedAll s vs l r) (hc : Closed vs) :
    l.map Exchange.call <+: c.schedule vs := by
  induction h with
  | nil s => exact List.prefix_refl _
  | cut h =>
    rw [schedule_cons hc]
    exact h.cut_calls.trans (List.prefix_append _ _)
  | cons h t ih =>
    rw [schedule_cons hc, List.map_append, h.made_calls, List.prefix_append_right_inj]
    exact ih hc.tail

end ReplayConfig

/-! ## What a replay keeps of the answers -/

/-- The readings of a pass are taken from a table of counts. -/
def Pass.Counts (s : Pass) (count : Nat → Mark → Nat) : Prop :=
  ∀ r ∈ s.readings, r.inst = count r.index r.mark

theorem Pass.Counts.reading? {s : Pass} {count : Nat → Mark → Nat} (h : s.Counts count) {i n : Nat}
    {m : Mark} (hr : s.reading? i m = some n) : n = count i m := by
  obtain ⟨r, hf, rfl⟩ := Option.map_eq_some_iff.1 hr
  have hk := List.find?_some hf
  simp only [Bool.and_eq_true, beq_iff_eq] at hk
  rw [h r (List.mem_of_find?_eq_some hf), hk.1, hk.2]

/-- Readings of different marks are taken from a table. -/
theorem Pass.exists_counts {s : Pass} (hn : (s.readings.map Reading.key).Nodup) :
    ∃ count, s.Counts count := by
  refine ⟨fun i m => (s.reading? i m).getD 0, fun r hr => ?_⟩
  show r.inst = (s.reading? r.index r.mark).getD 0
  rw [Pass.reading?_of_mem hn hr, Option.getD_some]

namespace ReplayConfig

variable {c : ReplayConfig} {s s' : Pass} {v : Visit} {vs : List Visit} {l : List Exchange}

/-- A visit that was made leaves a reading. -/
theorem Visited.made_readings {last : Bool} (h : c.Visited last s v l (.value s')) :
    ∃ inst, s'.readings = ⟨v.index, v.mark, inst⟩ :: s.readings := by
  cases h with
  | passed exited he inst hm => exact ⟨inst, rfl⟩
  | named exited he inst hm hn => exact ⟨inst, rfl⟩

theorem Visited.made_exited {last : Bool} (h : c.Visited last s v l (.value s')) :
    s'.exited = true → last = true := by
  cases h with
  | passed exited he inst hm => exact he
  | named exited he inst hm hn => exact he

theorem Visited.made_log {last : Bool} {count : Nat → Mark → Nat}
    (h : c.Visited last s v l (.value s')) (hs : s'.Counts count) :
    l = c.arrival last v s'.exited (count v.index v.mark) ++ c.snapshot v ∧
      s'.checkpoints.toList = s.checkpoints.toList ++ endings count [v] := by
  cases h with
  | passed exited he inst hm =>
    have hi : inst = count v.index v.mark := hs ⟨v.index, v.mark, inst⟩ (List.mem_cons_self ..)
    subst hi
    exact ⟨rfl, by simp [Pass.arrive, endings, hm]⟩
  | @named exited he inst hm d cp hn =>
    have hi : inst = count v.index v.mark := hs ⟨v.index, v.mark, inst⟩ (List.mem_cons_self ..)
    subst hi
    have hs₁ : (s.arrive v exited (count v.index v.mark)).Counts count := hs
    obtain ⟨w, i, e, hw, hi, he, -, -, rfl⟩ := course_nameCheckpoint_value hn
    rw [hs₁.reading? hw, hs₁.reading? hi, hs₁.reading? he]
    exact ⟨by simp [Pass.arrive, snapshot, hm], by simp [endings, hm]⟩

theorem VisitedAll.readings_suffix (h : c.VisitedAll s vs l (.value s')) :
    s.readings <:+ s'.readings := by
  generalize hr : Ending.value s' = r at h
  induction h with
  | nil s => cases hr; exact List.suffix_refl _
  | cut h => cases hr
  | cons h t ih =>
    obtain ⟨inst, hi⟩ := h.made_readings
    refine List.IsSuffix.trans ?_ (ih hr)
    rw [hi]
    exact List.suffix_cons _ _

/-- There is one reading for each visit that was made. -/
theorem VisitedAll.keys (h : c.VisitedAll s vs l (.value s')) :
    s'.readings.map Reading.key = (vs.map Visit.key).reverse ++ s.readings.map Reading.key := by
  generalize hr : Ending.value s' = r at h
  induction h with
  | nil s => cases hr; simp
  | cut h => cases hr
  | cons h t ih =>
    obtain ⟨inst, hi⟩ := h.made_readings
    rw [ih hr, hi]
    simp [Reading.key, Visit.key]

theorem VisitedAll.exited (h : c.VisitedAll s vs l (.value s')) (he : s'.exited = true) :
    s.exited = true ∨ vs ≠ [] := by
  cases h with
  | nil s => exact .inl he
  | cons h t => exact .inr (List.cons_ne_nil _ _)

/-- **Visits that were all made** have the whole log, and the ends among them their checkpoints. -/
theorem VisitedAll.log_eq {count : Nat → Mark → Nat} (h : c.VisitedAll s vs l (.value s'))
    (hc : Closed vs) (hs : s'.Counts count) :
    l = c.log count s'.exited vs ∧
      s'.checkpoints.toList = s.checkpoints.toList ++ endings count vs := by
  generalize hr : Ending.value s' = r at h
  induction h with
  | nil s =>
    cases hr
    exact ⟨rfl, by simp [endings]⟩
  | cut h => cases hr
  | @cons s s₁ v vs l₁ l₂ r h t ih =>
    subst hr
    -- readings are only added, so the table of the last pass is one for all before it
    have hs₁ : s₁.Counts count := fun r hr => hs r (t.readings_suffix.subset hr)
    obtain ⟨rfl, hcp₁⟩ := h.made_log hs₁
    obtain ⟨rfl, hcp⟩ := ih hc.tail rfl
    -- the program can have exited on this visit only if it is the last
    have hcause : s₁.exited = (vs.isEmpty && s'.exited) := by
      cases vs with
      | nil => cases t; simp
      | cons w vs =>
        cases hx : s₁.exited with
        | false => rfl
        | true => exact absurd (h.made_exited hx) (by simp)
    constructor
    · rw [log, arrival, hc.target, hcause]
      simp
    · rw [hcp, hcp₁, List.append_assoc]
      simp only [endings, ← List.map_append, ← List.filter_append, List.singleton_append]

theorem log_calls (c : ReplayConfig) (count : Nat → Mark → Nat) (exited : Bool) (vs : List Visit) :
    (c.log count exited vs).map Exchange.call = c.schedule vs := by
  induction vs with
  | nil => rfl
  | cons v vs ih => simp [log, schedule, snapshot_calls, ih]

/-- Where the program did not exit, every visit was answered by its breakpoint. -/
theorem completed_not_mem_log (count : Nat → Mark → Nat) (target : Nat) (vs : List Visit) :
    ⟨.advance c.counter target, some .completed⟩ ∉ c.log count false vs := by
  induction vs with
  | nil => simp [log]
  | cons v vs ih =>
    rw [log, Bool.and_false, if_neg Bool.false_ne_true, snapshot]
    split <;> simp [ih]

/-- What a replay that ended well has done, with the counts found at the visits. -/
structure Finished (c : ReplayConfig) (ps : List Simpoint) (count : Nat → Mark → Nat)
    (exited : Bool) (l : List Exchange) (cps : List Checkpoint) : Prop where
  /-- Only a visit can find the program gone. -/
  ne_nil : exited = true → ps ≠ []
  log : l = c.log count exited (timeline ps) ++
    (if exited then [] else [⟨.complete, some .completed⟩])
  calls : l.map Exchange.call = c.schedule (timeline ps) ++ (if exited then [] else [.complete])
  checkpoints : cps = ((timeline ps).filter (·.mark = .stop)).map fun v =>
    v.point.checkpoint (count v.index .warmup) (count v.index .interval) (count v.index .stop)
  names : (cps.map Checkpoint.name).Perm (ps.map Simpoint.name)

theorem closed_timeline {ps : List Simpoint} (hv : Simpoint.validate ps = .ok ()) :
    Closed (timeline ps) := fun _ hl =>
  mark_of_getLast?_timeline (Simpoint.validate_eq_ok_iff.1 hv).2.1 hl

theorem endings_timeline_names (ps : List Simpoint) (count : Nat → Mark → Nat) :
    ((endings count (timeline ps)).map Checkpoint.name).Perm (ps.map Simpoint.name) := by
  rw [endings, List.map_map, ← map_visitsAt ps .stop]
  exact (filter_timeline_perm ps .stop).map _

variable {ps : List Simpoint}

/-- A pass over the whole timeline has counts to take its readings from. -/
theorem VisitedAll.timeline (hv : Simpoint.validate ps = .ok ())
    (h : c.VisitedAll .start (timeline ps) l (.value s)) :
    ∃ count, l = c.log count s.exited (timeline ps) ∧
      s.checkpoints.toList = endings count (timeline ps) := by
  have hn : (s.readings.map Reading.key).Nodup := by
    rw [h.keys]
    simpa [Pass.start, List.nodup_reverse] using nodup_keys_timeline ps
  -- no mark was read twice, so the readings at the end are a table
  obtain ⟨count, hs⟩ := Pass.exists_counts hn
  obtain ⟨hl, hcp⟩ := h.log_eq (closed_timeline hv) hs
  exact ⟨count, hl, by simpa [Pass.start] using hcp⟩

theorem Replayed.calls {r : Ending (List Checkpoint)} (h : c.Replayed ps l r) :
    l.map Exchange.call <+: c.schedule (PhaseSampling.timeline ps) ++ [.complete] := by
  cases h with
  | rejected h => simp
  | cut hv t => exact (t.calls (closed_timeline hv)).trans (List.prefix_append _ _)
  | exited hv t he => exact (t.calls (closed_timeline hv)).trans (List.prefix_append _ _)
  | unfinished hv t | stopped hv t | completed hv t =>
    obtain ⟨count, rfl, -⟩ := t.timeline hv
    rw [List.map_append, log_calls]
    exact List.prefix_refl _

/-- After the exit of the program nothing is run to its end. -/
theorem Replayed.calls_of_completed {r : Ending (List Checkpoint)} (h : c.Replayed ps l r)
    {target : Nat} (hx : ⟨.advance c.counter target, some .completed⟩ ∈ l) :
    l.map Exchange.call <+: c.schedule (PhaseSampling.timeline ps) := by
  cases h with
  | rejected h => simp
  | cut hv t => exact t.calls (closed_timeline hv)
  | exited hv t he => exact t.calls (closed_timeline hv)
  | unfinished hv t he | stopped hv t he | completed hv t he =>
    obtain ⟨count, rfl, -⟩ := t.timeline hv
    rw [he] at hx
    rcases List.mem_append.1 hx with hx | hx
    · exact absurd hx (completed_not_mem_log _ _ _)
    · simp at hx

theorem Replayed.finished {cps : List Checkpoint} (h : c.Replayed ps l (.value cps)) :
    ∃ count exited, c.Finished ps count exited l cps := by
  generalize hr : Ending.value cps = r at h
  cases h with
  | rejected h => cases hr
  | cut hv t => cases hr
  | unfinished hv t he => cases hr
  | stopped hv t he => cases hr
  | exited hv t he =>
    cases hr
    obtain ⟨count, rfl, hcp⟩ := t.timeline hv
    refine ⟨count, true, fun _ => ?_, by simp [he], by simp [log_calls], hcp, ?_⟩
    -- a pass starts with the program running, so a visit found it gone
    · rintro rfl
      rcases t.exited he with h | h
      · cases h
      · exact h (by simp [PhaseSampling.timeline, visits])
    · rw [hcp]
      exact endings_timeline_names ps count
  | completed hv t he =>
    cases hr
    obtain ⟨count, rfl, hcp⟩ := t.timeline hv
    refine ⟨count, false, by simp, by simp [he], by simp [log_calls], hcp, ?_⟩
    rw [hcp]
    exact endings_timeline_names ps count

end ReplayConfig

/-- **A replay keeps to its schedule.** The timeline has every visit once, by their waypoints, and those
at one waypoint in the order of the list. A list that is not valid is rejected before any call.
Otherwise the calls are a prefix of the schedule of the timeline with the run to the end behind it,
and that run is left out once a visit was answered by the exit of the program. A replay that ends
well has made all of them. Its checkpoints are those of the simpoints in the order of their ends, one
for each, with the counts answered at the simpoint's own three visits. -/
theorem replay_keeps_schedule {σ : Type} (e : Engine σ) (c : ReplayConfig) (ps : List Simpoint)
    (s : Session σ) :
    ((timeline ps).Perm (visits ps) ∧ (timeline ps).Pairwise Visit.Ahead) ∧
    (∀ f, Simpoint.validate ps = .error f → (replay c ps).run e s = (.error f, s)) ∧
    (Simpoint.validate ps = .ok () →
      ∃ l, ((replay c ps).run e s).2.trace.toList = s.trace.toList ++ l ∧
        l.map Exchange.call <+: c.schedule (timeline ps) ++ [.complete] ∧
        (∀ target, ⟨.advance c.counter target, some .completed⟩ ∈ l →
          l.map Exchange.call <+: c.schedule (timeline ps)) ∧
        ∀ cps, ((replay c ps).run e s).1 = .ok cps →
          ∃ count exited, c.Finished ps count exited l cps) := by
  refine ⟨⟨timeline_perm ps, timeline_pairwise ps⟩, fun f hf => ?_, fun hv => ?_⟩
  · rw [replay, hf]
    rfl
  obtain ⟨d, r, hc, hr, -, ht, -⟩ := exists_course e (replay c ps) s
  have hl := course_replay hc
  refine ⟨exchanges d, ht, hl.calls, fun target hx => hl.calls_of_completed hx, fun cps hok => ?_⟩
  rw [hr] at hok
  cases r with
  | value a => cases hok; exact hl.finished
  | fault own f => cases hok

/-- Two simpoints that overlap, in a program of ten instructions; and one that is listed twice. -/
theorem replay_keeps_schedule_two :
    (∃ count exited l cps, ReplayConfig.Finished ⟨"/", .inst, 0⟩
        [⟨"0", ⟨0⟩, ⟨1, 2, 4⟩, none⟩, ⟨"1", ⟨0⟩, ⟨2, 3, 5⟩, none⟩] count exited l cps) ∧
    (replay ⟨"/", .inst, 0⟩ [⟨"0", ⟨0⟩, ⟨1, 2, 4⟩, none⟩, ⟨"0", ⟨0⟩, ⟨1, 2, 4⟩, none⟩]).run
        Simulated.engine (.fresh (.program 10 1 [])) =
      (.error (.duplicateName "0"), .fresh (.program 10 1 [])) := by
  constructor
  · have hv : Simpoint.validate
        [⟨"0", ⟨0⟩, ⟨1, 2, 4⟩, none⟩, ⟨"1", ⟨0⟩, ⟨2, 3, 5⟩, none⟩] = .ok () := by rfl
    obtain ⟨s', hrun⟩ := replay_root 10 hv (by decide) (by decide +kernel)
    obtain ⟨l, -, -, -, hfin⟩ := (replay_keeps_schedule Simulated.engine _ _ _).2.2 hv
    obtain ⟨count, exited, h⟩ := hfin _ (congrArg Prod.fst hrun)
    exact ⟨count, exited, l, _, h⟩
  · exact (replay_keeps_schedule _ _ _ _).2.1 _ rfl

end PhaseSampling
