import PhaseSampling.Proofs.Replay.Links

/-!
# The outcome of a replay

What becomes of the replay of a simulated program is fixed by its length and the timeline.

* `matched_replay`: however a replay ends, it has dumped the statistics once for each snapshot.
* `replay_outcome`: a replay that can fail at its last visit only does not fail, and its checkpoints
  have a closed form. Any other ends at the first visit that the program does not reach.
-/

namespace PhaseSampling

open PhaseSampling.Flow
open Simulated (unit)

/-! ## Statistics -/

/-- Between two sessions the statistics were dumped as often as a snapshot was taken. -/
def Session.Matched (s s' : Session Simulated) : Prop :=
  s'.engine.statsDumps + s.engine.checkpoints.size =
    s.engine.statsDumps + s'.engine.checkpoints.size

theorem Session.Matched.trans {s s' s'' : Session Simulated} (h : s.Matched s')
    (h' : s'.Matched s'') : s.Matched s'' := by
  unfold Matched at h h' ⊢
  omega

/-- The statistics that were dumped, from the snapshots that were taken. -/
theorem Session.Matched.statsDumps {s s' : Session Simulated} {l : List (String × Nat)}
    (h : s.Matched s')
    (hl : s'.engine.checkpoints.toList = s.engine.checkpoints.toList ++ l) :
    s'.engine.statsDumps = s.engine.statsDumps + l.length := by
  have hsize : s'.engine.checkpoints.size = s.engine.checkpoints.size + l.length := by
    rw [← Array.length_toList, hl, List.length_append, Array.length_toList]
  unfold Matched at h
  omega

/-- A flow that dumps the statistics once for each snapshot, however it ends. -/
def Flow.Matched {α : Type} (x : Flow α) : Prop :=
  ∀ s : Session Simulated, s.Matched (x.run Simulated.engine s).2

namespace Flow

variable {α β : Type}

theorem matched_pure (a : α) : Matched (pure a) := fun _ => rfl

theorem matched_fail (f : Fault) : Matched (.fail f : Flow α) := fun _ => rfl

theorem matched_ofExcept (x : Except Fault α) : Matched (ofExcept x) := by
  cases x with
  | ok a => exact matched_pure a
  | error f => exact matched_fail f

theorem Matched.bind {x : Flow α} {k : α → Flow β} (hx : x.Matched) (hk : ∀ a, (k a).Matched) :
    Matched (x >>= k) := by
  intro s
  have h := hx s
  show s.Matched ((x.bind k).run Simulated.engine s).2
  rw [run_bind]
  rcases hrun : x.run Simulated.engine s with ⟨r, s'⟩
  rw [hrun] at h
  cases r with
  | ok a => exact h.trans (hk a s')
  | error f => exact h

theorem matched_op {o : Op}
    (h : ∀ s : Session Simulated, s.Matched (s.perform Simulated.engine o).2) :
    Matched (op o) := by
  intro s
  have ho := h s
  rw [Flow.op, run]
  rcases hp : s.perform Simulated.engine o with ⟨r, s'⟩
  rw [hp] at ho
  cases r with
  | ok r => exact ho
  | error f => exact ho

theorem matched_say (level : Level) (text : String) : Matched (say level text) :=
  matched_op fun _ => rfl

theorem matched_link (outdir short long : String) : Matched (link outdir short long) := by
  refine matched_op fun s => ?_
  rw [Session.perform_link]
  rfl

theorem matched_count (counter : Counter) : Matched (call (.count counter)) :=
  matched_op fun _ => rfl

/-- A program that runs takes no snapshot and dumps nothing. -/
theorem matched_advance (counter : Counter) (target : Nat) :
    Matched (call (.advance counter target)) := by
  refine matched_op fun s => ?_
  show (s.engine.advance counter target).2.statsDumps + s.engine.checkpoints.size =
    s.engine.statsDumps + (s.engine.advance counter target).2.checkpoints.size
  unfold Simulated.advance
  dsimp only
  split
  · rfl
  · split
    · rfl
    · rfl

theorem matched_complete : Matched (call .complete) := by
  refine matched_op fun s => ?_
  show s.engine.complete.2.statsDumps + s.engine.checkpoints.size =
    s.engine.statsDumps + s.engine.complete.2.checkpoints.size
  unfold Simulated.complete
  split
  · rfl
  · rfl

/-- A snapshot is followed by its statistics, and one that cannot be taken by nothing. -/
theorem matched_snapshot {k : Unit → Flow α} (path : String) (hk : Matched (k ())) :
    Matched (call (.checkpoint path) >>= fun _ => call .stats >>= k) := by
  rw [← LawfulMonad.bind_assoc]
  refine Matched.bind (fun s => ?_) fun _ => hk
  have hask : s.perform Simulated.engine (.call (.checkpoint path)) =
      ((s.engine.checkpoint s.world path).1,
        { s with
          engine := (s.engine.checkpoint s.world path).2.1
          world := (s.engine.checkpoint s.world path).2.2
          trace := s.trace.push
            ⟨.checkpoint path, (s.engine.checkpoint s.world path).1.toOption⟩ }) := rfl
  show s.Matched (((call (.checkpoint path)).bind fun _ => call .stats).run Simulated.engine s).2
  rw [run_bind, call, Flow.op, run, hask, Simulated.checkpoint]
  rcases s.world.change (·.makeDirs path) with ⟨⟨⟩ | ⟨⟩, w⟩
  · rfl
  · show s.engine.statsDumps + 1 + s.engine.checkpoints.size =
      s.engine.statsDumps + (s.engine.checkpoints.push (path, s.engine.inst)).size
    rw [Array.size_push]
    omega

end Flow

section Statistics

variable (c : ReplayConfig)

theorem matched_reach (last : Bool) (v : Visit) : Matched (reach c last v) := by
  unfold reach
  refine (matched_say _ _).bind fun _ => ?_
  refine (matched_advance _ _).bind fun cause => ?_
  cases cause with
  | breakpoint => exact matched_pure true
  | completed =>
    cases last with
    | true => exact (matched_say _ _).bind fun _ => matched_pure false
    | false => exact matched_fail _
  | other text => exact matched_fail _

theorem matched_nameCheckpoint (p : Pass) (v : Visit) : Matched (nameCheckpoint c p v) := by
  unfold nameCheckpoint
  split
  · split
    · exact (matched_link _ _ _).bind fun _ => matched_pure _
    · exact matched_fail _
  · exact matched_fail _

theorem matched_settle (p : Pass) (v : Visit) : Matched (settle c p v) := by
  unfold settle
  cases v.mark with
  | warmup => exact matched_snapshot _ ((matched_say _ _).bind fun _ => matched_pure p)
  | interval => exact matched_pure p
  | stop => exact (matched_nameCheckpoint c p v).bind fun cp => matched_pure _

theorem matched_visit (last : Bool) (p : Pass) (v : Visit) : Matched (visit c last p v) := by
  rw [visit_eq]
  refine (matched_reach c last v).bind fun running => ?_
  exact (matched_count .inst).bind fun inst => matched_settle c _ v

theorem matched_visitAll (p : Pass) (vs : List Visit) : Matched (visitAll c p vs) := by
  induction vs generalizing p with
  | nil => exact matched_pure p
  | cons v vs ih => exact (matched_visit c vs.isEmpty p v).bind ih

/-- **Statistics are dumped once for each snapshot**, however a replay ends. -/
theorem matched_replay (ps : List Simpoint) : Matched (replay c ps) := by
  unfold replay
  refine (matched_ofExcept _).bind fun _ => ?_
  refine (matched_visitAll c .start (timeline ps)).bind fun p => ?_
  split
  · refine matched_complete.bind fun cause => ?_
    exact (matched_ofExcept _).bind fun _ => matched_pure _
  · exact matched_pure _

end Statistics

/-! ## Checkpoints and snapshots -/

variable {c : ReplayConfig} {ps : List Simpoint}

/-- **A replay has a checkpoint for each simpoint**, in the order of their ends. -/
theorem ReplayConfig.found_names (ho : ∀ p ∈ ps, p.waypoints.Ordered) (unit length : Nat) :
    (c.found unit length (timeline ps)).map Checkpoint.name =
      (ps.mergeSort fun p q => p.waypoints.stop ≤ q.waypoints.stop).map Simpoint.name := by
  have hnames : (c.found unit length (timeline ps)).map Checkpoint.name =
      ((timeline ps).filter (·.mark = .stop)).map fun v => v.point.name := by
    rcases List.eq_nil_or_concat (timeline ps) with hnil | ⟨us, v, hcat⟩
    · rw [hnil]
      rfl
    · rw [List.concat_eq_append] at hcat
      have hm : v.mark = .stop := mark_of_getLast?_timeline ho (by simp [hcat])
      rw [hcat, found_concat, List.filter_append, List.map_append, List.map_append, List.map_map]
      simp only [hm, List.filter_cons, decide_true, if_true, List.filter_nil]
      rfl
  rw [hnames]
  exact map_filter_timeline ps .stop Simpoint.name

/-! ## Outcomes -/

/-- What a replay that ended well has done to a simulated program, and left in the output
directory. -/
structure ReplayConfig.Carried (c : ReplayConfig) (ps : List Simpoint) (unit length : Nat)
    (cps : List Checkpoint) (s s' : Session Simulated) : Prop where
  inst : s'.engine.inst = length
  snapshots : s'.engine.checkpoints.toList = s.engine.checkpoints.toList ++
    (ps.mergeSort fun p q => p.waypoints.warmup ≤ q.waypoints.warmup).map fun p =>
      (checkpointPath c.outdir (shortName p.name), unit * p.waypoints.warmup)
  statsDumps : s'.engine.statsDumps = s.engine.statsDumps + ps.length
  names : cps.map Checkpoint.name =
    (ps.mergeSort fun p q => p.waypoints.stop ≤ q.waypoints.stop).map Simpoint.name
  long_nodup : (cps.map Checkpoint.long).Nodup
  links : ∀ cp ∈ cps, s'.world.files.LinksTo (joinPath c.outdir cp.long) cp.short

/-- What a replay has done to a simulated program that did not reach a visit behind others. -/
structure ReplayConfig.CutShort (c : ReplayConfig) (us : List Visit) (unit length : Nat)
    (s s' : Session Simulated) : Prop where
  inst : s'.engine.inst = length
  snapshots : s'.engine.checkpoints.toList = s.engine.checkpoints.toList ++ c.snapshots unit us
  statsDumps : s'.engine.statsDumps = s.engine.statsDumps + (c.snapshots unit us).length

/-- **The outcome of a replay** of a simulated program that stands at its start, with an empty
output directory where the names of the snapshots and links fit and no two labels are the same.

If the program reaches all visits but possibly the last, the replay ends well, wherever the last
visit lies. The checkpoint of every simpoint has its own marks, each at the waypoint times the
instructions to one of them, except that the simpoint of the last visit ends where the program then
stands: at its end if the target lies there or behind it, and otherwise at the target, or at the
visit before if that is further on. There is one snapshot for each simpoint at its warmup, one dump
of statistics for each, and one link for each checkpoint to its own snapshot, and the program has
run to its end.

Otherwise the replay fails at the first visit that the program does not reach, and keeps the
snapshots taken before. -/
theorem replay_outcome {c : ReplayConfig} {ps : List Simpoint} {s : Session Simulated}
    {length spacing : Nat} {d : Place} (hv : Simpoint.validate ps = .ok ())
    (hfree : s.engine.Free length spacing) (hstart : s.engine.inst = 0)
    (hc : c.Vacant s.world.files d) (hp : ∀ p ∈ ps, p.Storable c.outdir)
    (hlabels : (ps.map fun p => simpointLabel p.name).Nodup)
    (hsmall : ∀ cp ∈ c.found (unit spacing c.counter) length (timeline ps),
      Small c.outdir cp.long) :
    ((∀ v ∈ (timeline ps).dropLast, unit spacing c.counter * v.waypoint < length) →
      ∃ s', (replay c ps).run Simulated.engine s =
          (.ok (c.found (unit spacing c.counter) length (timeline ps)), s') ∧
        c.Carried ps (unit spacing c.counter) length
          (c.found (unit spacing c.counter) length (timeline ps)) s s') ∧
    ∀ us v vs, timeline ps = us ++ v :: vs → vs ≠ [] →
      (∀ u ∈ us, unit spacing c.counter * u.waypoint < length) →
      length ≤ unit spacing c.counter * v.waypoint →
      ∃ s', (replay c ps).run Simulated.engine s =
          (.error (.exitedEarly c.counter v.waypoint), s') ∧
        c.CutShort us (unit spacing c.counter) length s s' := by
  have hs : s.Shelved length spacing 0 s.engine.checkpoints.toList s.world.files d :=
    ⟨_, ⟨hfree, hstart, rfl, rfl⟩, .of_empty hc.empty⟩
  have ho := (Simpoint.validate_eq_ok_iff.1 hv).2.1
  have hmatched := matched_replay c ps s
  refine ⟨fun hl => ?_, fun us v vs hcat hvs hl hend => ?_⟩
  · obtain ⟨s', hrun, files, hst, -⟩ := replay_found hv hc hl hp hsmall hs
    rw [hrun] at hmatched
    have hslash : ∀ p ∈ ps, '/' ∉ p.name.toList := fun p hmem => (hp p hmem).plain.1
    have hanchored : Anchored c.outdir _ s'.world.files :=
      replay_anchored Simulated.onlyAdds hslash s _ s' hrun
    obtain ⟨l, hcourse, -, -⟩ := exists_course_of_ok hrun
    obtain ⟨count, exited, hfin⟩ := (course_replay hcourse).finished
    have hlong := hfin.long_nodup hlabels
    have hsnap := hst.snapshots
    rw [ReplayConfig.snapshots_sorted] at hsnap
    have hdumps := hmatched.statsDumps hsnap
    rw [List.length_map, List.length_mergeSort] at hdumps
    exact ⟨s', hrun, hst.inst, hsnap, hdumps, ReplayConfig.found_names ho _ _, hlong,
      fun cp hcp => hanchored.linksTo hlong hcp⟩
  · have hbefore : ∀ u ∈ us, u.mark = .stop →
        Small c.outdir (u.point.exact (unit spacing c.counter)).long := by
      intro u hu hm
      refine hsmall _ ?_
      rw [hcat]
      exact c.exact_mem_found _ _ hu hm v vs
    obtain ⟨s', hrun, files, hst, -⟩ := replay_early hv hc hcat hvs hl hend hp hbefore hs
    rw [hrun] at hmatched
    exact ⟨s', hrun, hst.inst, hst.snapshots, hmatched.statsDumps hst.snapshots⟩

/-- Two simpoints, the second of which begins where the first ends, replayed with slack. In a program
of ten instructions the last visit is drawn back to before the interval of the second simpoint, and so
made where that begins. A program of five has exited there. -/
theorem replay_outcome_two :
    (∃ s', (replay ⟨"/", .inst, 5⟩
        [⟨"a", ⟨0⟩, ⟨1, 2, 4⟩, none⟩, ⟨"b", ⟨0⟩, ⟨4, 6, 8⟩, none⟩]).run
        Simulated.engine (.fresh (.program 10 1 [])) =
      (.ok [Simpoint.checkpoint ⟨"a", ⟨0⟩, ⟨1, 2, 4⟩, none⟩ 1 2 4,
        Simpoint.checkpoint ⟨"b", ⟨0⟩, ⟨4, 6, 8⟩, none⟩ 4 6 6], s') ∧
      s'.engine.statsDumps = 2) ∧
    ∃ s', (replay ⟨"/", .inst, 5⟩
        [⟨"a", ⟨0⟩, ⟨1, 2, 4⟩, none⟩, ⟨"b", ⟨0⟩, ⟨4, 6, 8⟩, none⟩]).run
        Simulated.engine (.fresh (.program 5 1 [])) = (.error (.exitedEarly .inst 6), s') ∧
      s'.engine.checkpoints.toList = [("/cpt.a", 1), ("/cpt.b", 4)] ∧
      s'.engine.statsDumps = 2 := by
  have hv : Simpoint.validate
      [⟨"a", ⟨0⟩, ⟨1, 2, 4⟩, none⟩, ⟨"b", ⟨0⟩, ⟨4, 6, 8⟩, none⟩] = .ok () := by rfl
  have hc := ReplayConfig.vacant_root .inst 5
  have hhandy : ∀ p ∈ ([⟨"a", ⟨0⟩, ⟨1, 2, 4⟩, none⟩, ⟨"b", ⟨0⟩, ⟨4, 6, 8⟩, none⟩] :
      List Simpoint), p.Handy 1 := by decide +kernel
  have hp : ∀ p ∈ ([⟨"a", ⟨0⟩, ⟨1, 2, 4⟩, none⟩, ⟨"b", ⟨0⟩, ⟨4, 6, 8⟩, none⟩] :
      List Simpoint), p.Storable "/" := fun p hmem => (hhandy p hmem).storable
  have hlabels : ([⟨"a", ⟨0⟩, ⟨1, 2, 4⟩, none⟩, ⟨"b", ⟨0⟩, ⟨4, 6, 8⟩, none⟩].map
      fun p : Simpoint => simpointLabel p.name).Nodup := by decide +kernel
  have ht : timeline [⟨"a", ⟨0⟩, ⟨1, 2, 4⟩, none⟩, ⟨"b", ⟨0⟩, ⟨4, 6, 8⟩, none⟩] =
      Visit.all 0 ⟨"a", ⟨0⟩, ⟨1, 2, 4⟩, none⟩ ++ Visit.all 1 ⟨"b", ⟨0⟩, ⟨4, 6, 8⟩, none⟩ :=
    timeline_eq_visits (by decide)
  -- both programs are longer than the target of the last visit
  have hfound : ∀ length, 3 < length →
      (ReplayConfig.mk "/" .inst 5).found (unit 1 .inst) length (timeline
        [⟨"a", ⟨0⟩, ⟨1, 2, 4⟩, none⟩, ⟨"b", ⟨0⟩, ⟨4, 6, 8⟩, none⟩]) =
      [Simpoint.checkpoint ⟨"a", ⟨0⟩, ⟨1, 2, 4⟩, none⟩ 1 2 4,
        Simpoint.checkpoint ⟨"b", ⟨0⟩, ⟨4, 6, 8⟩, none⟩ 4 6 6] := by
    intro length hlt
    have hhalt : (ReplayConfig.mk "/" .inst 5).halt (unit 1 .inst) length 6
        ⟨8, .stop, 1, ⟨"b", ⟨0⟩, ⟨4, 6, 8⟩, none⟩⟩ = 6 := if_neg (Nat.not_le.2 hlt)
    rw [ht]
    exact congrArg (fun n => [Simpoint.checkpoint ⟨"a", ⟨0⟩, ⟨1, 2, 4⟩, none⟩ 1 2 4,
      Simpoint.checkpoint ⟨"b", ⟨0⟩, ⟨4, 6, 8⟩, none⟩ 4 6 n]) hhalt
  have hsmall : ∀ length, 3 < length →
      ∀ cp ∈ (ReplayConfig.mk "/" .inst 5).found (unit 1 .inst) length (timeline
        [⟨"a", ⟨0⟩, ⟨1, 2, 4⟩, none⟩, ⟨"b", ⟨0⟩, ⟨4, 6, 8⟩, none⟩]), Small "/" cp.long := by
    intro length hlt
    rw [hfound length hlt, List.forall_mem_cons, List.forall_mem_singleton]
    exact ⟨small_root (by decide +kernel), small_root (by decide +kernel)⟩
  constructor
  · obtain ⟨hfull, -⟩ := replay_outcome (s := .fresh (.program 10 1 [])) hv
      (Simulated.free_program ..) rfl hc hp hlabels (hsmall 10 (by decide))
    rw [hfound 10 (by decide), ht] at hfull
    obtain ⟨s', hrun, hcarried⟩ := hfull (by decide)
    exact ⟨s', hrun, hcarried.statsDumps⟩
  · obtain ⟨-, hshort⟩ := replay_outcome (s := .fresh (.program 5 1 [])) hv
      (Simulated.free_program ..) rfl hc hp hlabels (hsmall 5 (by decide))
    obtain ⟨s', hrun, hcut⟩ := hshort [_, _, _, _] _ [_] ht (by simp) (by decide) (by decide)
    exact ⟨s', hrun, hcut.snapshots.trans (by decide +kernel), hcut.statsDumps⟩

end PhaseSampling
