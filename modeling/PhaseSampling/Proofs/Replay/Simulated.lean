import Mathlib.Data.List.Induction
import Mathlib.Data.List.Nodup
import PhaseSampling.Proofs.Checkpoint.Shelf
import PhaseSampling.Proofs.Engine.Simulated
import PhaseSampling.Proofs.Replay.Timeline
import PhaseSampling.Proofs.Replay.Visits

/-!
# Replays of a simulated program

A simulated program is found at every waypoint exactly, as far as it reaches. So its replay, with an
output directory that was empty, has a closed form.

* `foldlM_visit_simulated`: visits in the order of the timeline, one after the other.
* `ReplayConfig.found`, `replay_found`: a whole replay, of which the last visit may meet the end of the
  program.
* `replay_early`: a replay of which another visit meets it.
* `replay_simulated`: the replay of a program that goes on behind the last visit.
* `replay_root`: the same into the root of an empty tree, with what is asked of the names alone.
-/

namespace PhaseSampling

open PhaseSampling.Flow
open Simulated (unit)

/-- A session with a simulated program, and with a directory for snapshots and links that was
empty. -/
def Session.Shelved (s : Session Simulated) (length spacing inst : Nat)
    (snapshots : List (String × Nat)) (files₀ : FileTree) (d : Place) : Prop :=
  ∃ files, s.Stands length spacing inst snapshots files ∧ Shelf files₀ d files

/-- An output directory that is empty. -/
structure ReplayConfig.Vacant (c : ReplayConfig) (files₀ : FileTree) (d : Place) : Prop where
  opens : files₀.Opens c.outdir d
  empty : ∀ name, files₀.get? (d ++ [name]) = none

/-- A simpoint whose snapshot and link can be put into a directory, and told apart there. -/
structure Simpoint.Storable (p : Simpoint) (outdir : String) : Prop where
  plain : Plain p.name
  apart : ¬ "simpoint_".toList <+: p.name.toList
  small : Small outdir (shortName p.name)

section Visits

variable {c : ReplayConfig} {files₀ : FileTree} {d : Place} {length spacing inst : Nat}
  {snapshots : List (String × Nat)} {s : Session Simulated} {last : Bool} {v : Visit} {p : Pass}

theorem reach_simulated (hs : s.Shelved length spacing inst snapshots files₀ d)
    (ht : unit spacing c.counter * c.target last v < length) :
    Yields Simulated.engine (reach c last v) s true
      (·.Shelved length spacing (max inst (unit spacing c.counter * c.target last v)) snapshots
        files₀ d) := by
  obtain ⟨files, hs, hf⟩ := hs
  refine (hs.say _ _).bind fun s hs => ?_
  refine (hs.advance ht).bind fun s hs => ?_
  exact .pure ⟨files, hs, hf⟩

/-- Where the program stands after the last visit, if it stood at `inst` before. -/
def ReplayConfig.halt (c : ReplayConfig) (unit length inst : Nat) (v : Visit) : Nat :=
  if length ≤ unit * c.target true v then length else max inst (unit * c.target true v)

/-- **The last visit is reached** wherever it lies, at the latest by the exit of the program. -/
theorem reach_last (hs : s.Shelved length spacing inst snapshots files₀ d) :
    Yields Simulated.engine (reach c true v) s
      (decide (unit spacing c.counter * c.target true v < length))
      (·.Shelved length spacing (c.halt (unit spacing c.counter) length inst v) snapshots
        files₀ d) := by
  unfold ReplayConfig.halt
  by_cases ht : unit spacing c.counter * c.target true v < length
  · rw [decide_eq_true ht, if_neg (Nat.not_le.2 ht)]
    exact reach_simulated hs ht
  · rw [decide_eq_false ht, if_pos (Nat.not_lt.1 ht)]
    obtain ⟨files, hs, hf⟩ := hs
    refine (hs.say _ _).bind fun s hs => ?_
    refine (hs.advance_end (Nat.not_lt.1 ht)).bind fun s hs => ?_
    refine (hs.say _ _).bind fun s hs => ?_
    exact .pure ⟨files, hs, hf⟩

/-- Another visit at the end of the program or behind it is not. -/
theorem reach_early (hs : s.Shelved length spacing inst snapshots files₀ d)
    (ht : length ≤ unit spacing c.counter * c.target false v) :
    Fails Simulated.engine (reach c false v) s (.exitedEarly c.counter (c.target false v))
      (·.Shelved length spacing length snapshots files₀ d) := by
  obtain ⟨files, hs, hf⟩ := hs
  refine (hs.say _ _).fails fun s hs => ?_
  refine (hs.advance_end ht).fails fun s hs => ?_
  exact .fail ⟨files, hs, hf⟩

/-- What a visit does where it has arrived. -/
def settle (c : ReplayConfig) (p : Pass) (v : Visit) : Flow Pass :=
  match v.mark with
  | .warmup => do
    call (.checkpoint (c.snapshotPath v))
    call .stats
    say .info s!"pin-cpt: dumped checkpoint {v.point.name}"
    return p
  | .interval => return p
  | .stop => do
    let cp ← nameCheckpoint c p v
    return { p with checkpoints := p.checkpoints.push cp }

theorem visit_eq (c : ReplayConfig) (last : Bool) (p : Pass) (v : Visit) :
    visit c last p v =
      (do
        let running ← reach c last v
        let inst ← call (.count .inst)
        settle c (p.arrive v (!running) inst) v) := rfl

/-- A visit, from how it is reached and what is done there. -/
theorem visit_of_reach {running : Bool} {a : Pass} {Q : Session Simulated → Prop}
    (hr : Yields Simulated.engine (reach c last v) s running
      (·.Shelved length spacing inst snapshots files₀ d))
    (h : ∀ s : Session Simulated, s.Shelved length spacing inst snapshots files₀ d →
      Yields Simulated.engine (settle c (p.arrive v (!running) inst) v) s a Q) :
    Yields Simulated.engine (visit c last p v) s a Q := by
  rw [visit_eq]
  refine hr.bind fun s hs => ?_
  obtain ⟨files, hs, hf⟩ := hs
  exact hs.count.bind fun s hs => h s ⟨files, hs, hf⟩

theorem settle_warmup (hc : c.Vacant files₀ d)
    (hs : s.Shelved length spacing inst snapshots files₀ d) (hm : v.mark = .warmup)
    (hp : v.point.Storable c.outdir) :
    Yields Simulated.engine (settle c p v) s p
      (·.Shelved length spacing inst (snapshots ++ [(c.snapshotPath v, inst)]) files₀ d) := by
  obtain ⟨files, hs, hf⟩ := hs
  have hfit := fits_shortName hc.opens.fault hp.plain hp.small
  have hl : ¬ Linked (shortName v.point.name) := by
    rw [linked_shortName_iff]
    exact hp.apart
  obtain ⟨files', hmake, hf'⟩ := hf.snapshot hc.empty hc.opens hfit hl
  rw [settle, hm]
  refine (hs.checkpoint hmake).bind fun s hs => ?_
  refine hs.stats.bind fun s hs => ?_
  refine (hs.say _ _).bind fun s hs => ?_
  exact .pure ⟨files', hs, hf'⟩

theorem settle_interval (hs : s.Shelved length spacing inst snapshots files₀ d)
    (hm : v.mark = .interval) :
    Yields Simulated.engine (settle c p v) s p
      (·.Shelved length spacing inst snapshots files₀ d) := by
  rw [settle, hm]
  exact .pure hs

theorem settle_stop (hc : c.Vacant files₀ d)
    (hs : s.Shelved length spacing inst snapshots files₀ d) (hm : v.mark = .stop)
    (hp : v.point.Storable c.outdir) {warmup interval stop : Nat}
    (hw : p.reading? v.index .warmup = some warmup)
    (hi : p.reading? v.index .interval = some interval)
    (he : p.reading? v.index .stop = some stop) (hle : warmup ≤ interval ∧ interval ≤ stop)
    (hsmall : Small c.outdir (v.point.checkpoint warmup interval stop).long) :
    Yields Simulated.engine (settle c p v) s
      { p with checkpoints := p.checkpoints.push (v.point.checkpoint warmup interval stop) }
      (·.Shelved length spacing inst snapshots files₀ d) := by
  obtain ⟨files, hs, hf⟩ := hs
  have hlong := fits_longName hc.opens.fault (plain_simpointLabel hp.plain)
    (plain_weightText v.point.weight) hsmall
  have hshort := fits_shortName hc.opens.fault hp.plain hp.small
  have htarget := pathFault?_shortName hp.plain hp.small.1
  obtain ⟨files', hlink, hf'⟩ :=
    hf.link hc.empty hc.opens hlong (linked_longName ..) htarget
  rw [settle, hm]
  refine Yields.bind (P := (·.Shelved length spacing inst snapshots files₀ d)) ?_
    fun s hs => .pure hs
  rw [nameCheckpoint, hw, hi, he]
  simp only [hle, and_self, if_true]
  refine (hs.link hlink).bind fun s hs => ?_
  exact .pure ⟨files', hs, hf'⟩

end Visits

/-! ## Visits in turn -/

/-- The checkpoint of a simpoint whose marks were found where they are, at so many instructions to a
waypoint. -/
def Simpoint.exact (p : Simpoint) (unit : Nat) : Checkpoint :=
  p.checkpoint (unit * p.waypoints.warmup) (unit * p.waypoints.interval) (unit * p.waypoints.stop)

/-- A pass after visits that were all found where they are. -/
def Pass.after (unit : Nat) (vs : List Visit) : Pass where
  readings := (vs.map fun v => ⟨v.index, v.mark, unit * v.waypoint⟩).reverse
  checkpoints := ((vs.filter (·.mark = .stop)).map fun v => v.point.exact unit).toArray
  exited := false

/-- The snapshots taken at visits. -/
def ReplayConfig.snapshots (c : ReplayConfig) (unit : Nat) (vs : List Visit) :
    List (String × Nat) :=
  (vs.filter (·.mark = .warmup)).map fun v => (c.snapshotPath v, unit * v.waypoint)

/-- Where a program stands after visits. -/
def standing (unit : Nat) (vs : List Visit) : Nat := (vs.getLast?.map (unit * ·.waypoint)).getD 0

variable {c : ReplayConfig} {ps : List Simpoint} {us : List Visit} {v : Visit}

theorem standing_le (h : us ++ [v] <+: timeline ps) (unit : Nat) :
    standing unit us ≤ unit * v.waypoint := by
  rw [standing]
  cases hl : us.getLast? with
  | none => exact Nat.zero_le _
  | some u =>
    have hs := (timeline_sorted ps).sublist h.sublist
    rw [List.pairwise_append] at hs
    exact Nat.mul_le_mul_left _ (hs.2.2 u (List.mem_of_getLast? hl) v (List.mem_singleton.2 rfl))

/-- Visits go up to the last of them. -/
theorem le_standing (h : us <+: timeline ps) (hv : v ∈ us) (unit : Nat) :
    unit * v.waypoint ≤ standing unit us := by
  rcases List.eq_nil_or_concat us with rfl | ⟨us, u, rfl⟩
  · cases hv
  rw [List.concat_eq_append] at h hv ⊢
  have hstand : standing unit (us ++ [u]) = unit * u.waypoint := by simp [standing]
  rw [hstand]
  rcases List.mem_append.1 hv with hv | hv
  · have hs := (timeline_sorted ps).sublist h.sublist
    rw [List.pairwise_append] at hs
    exact Nat.mul_le_mul_left _ (hs.2.2 v hv u (List.mem_singleton.2 rfl))
  · rw [List.mem_singleton.1 hv]

theorem Pass.reading?_arrive (p : Pass) (v : Visit) (exited : Bool) (inst i : Nat) (m : Mark) :
    (p.arrive v exited inst).reading? i m =
      if v.index = i ∧ v.mark = m then some inst else p.reading? i m := by
  unfold Pass.reading? Pass.arrive
  rw [List.find?_cons]
  by_cases h : v.index = i ∧ v.mark = m
  · rw [if_pos h]
    simp [h]
  · rw [if_neg h]
    have hne : (v.index == i && v.mark == m) = false := by simpa using h
    simp [hne]

/-- What was visited was read where it is. -/
theorem Pass.reading?_after (h : us <+: timeline ps) (hv : v ∈ us) (unit : Nat) :
    (Pass.after unit us).reading? v.index v.mark = some (unit * v.waypoint) := by
  have hkeys : ((Pass.after unit us).readings.map Reading.key).Nodup := by
    have hn : (us.map Visit.key).Nodup := (nodup_keys_timeline ps).sublist (h.sublist.map _)
    rw [Pass.after, List.map_reverse, List.nodup_reverse, List.map_map]
    exact hn
  have hr : (⟨v.index, v.mark, unit * v.waypoint⟩ : Reading) ∈ (Pass.after unit us).readings := by
    rw [Pass.after, List.mem_reverse]
    exact List.mem_map_of_mem hv
  exact Pass.reading?_of_mem hkeys hr

/-- Before a simpoint's end is visited, its other marks were. -/
theorem mem_of_stop (ho : ∀ p ∈ ps, p.waypoints.Ordered) (h : us ++ [v] <+: timeline ps)
    (hm : v.mark = .stop) {m : Mark} (hne : m ≠ .stop) : Visit.of v.point v.index m ∈ us := by
  have hmem : Visit.of v.point v.index m ∈ us ++ [v] :=
    mem_of_prefix_timeline ho h (by rw [hm]; cases m <;> decide)
  rcases List.mem_append.1 hmem with hmem | hmem
  · exact hmem
  · have hv := List.mem_singleton.1 hmem
    exact absurd ((congrArg Visit.mark hv).trans hm) hne

/-- **When a simpoint's end is visited**, its other marks were found where they are. -/
theorem Pass.reading?_stop (ho : ∀ p ∈ ps, p.waypoints.Ordered) (h : us ++ [v] <+: timeline ps)
    (hm : v.mark = .stop) (unit : Nat) (exited : Bool) (inst : Nat) :
    let p := (Pass.after unit us).arrive v exited inst
    p.reading? v.index .warmup = some (unit * v.point.waypoints.warmup) ∧
      p.reading? v.index .interval = some (unit * v.point.waypoints.interval) ∧
      p.reading? v.index .stop = some inst := by
  have hpre : us <+: timeline ps := (List.prefix_append us [v]).trans h
  have hold : ∀ m, m ≠ .stop → ((Pass.after unit us).arrive v exited inst).reading? v.index m =
      some (unit * v.point.waypoints.at_ m) := by
    intro m hne
    rw [Pass.reading?_arrive, if_neg (fun ⟨_, hv⟩ => hne (hv.symm.trans hm))]
    exact Pass.reading?_after hpre (mem_of_stop ho h hm hne) unit
  refine ⟨hold .warmup (by decide), hold .interval (by decide), ?_⟩
  rw [Pass.reading?_arrive, if_pos ⟨rfl, hm⟩]

theorem ReplayConfig.snapshots_concat (c : ReplayConfig) (unit : Nat) (us : List Visit)
    (v : Visit) : c.snapshots unit (us ++ [v]) = c.snapshots unit us ++
      (if v.mark = .warmup then [(c.snapshotPath v, unit * v.waypoint)] else []) := by
  rw [snapshots, snapshots, List.filter_append, List.map_append]
  by_cases hm : v.mark = .warmup
  · simp [hm]
  · simp [hm]

/-- A pass after one more visit, but for the checkpoint of an end. -/
theorem Pass.after_concat (unit : Nat) (us : List Visit) (v : Visit) :
    Pass.after unit (us ++ [v]) =
      { (Pass.after unit us).arrive v false (unit * v.waypoint) with
        checkpoints := (Pass.after unit us).checkpoints ++
          (if v.mark = .stop then #[v.point.exact unit] else #[]) } := by
  by_cases hm : v.mark = .stop
  · simp [after, arrive, hm]
  · simp [after, arrive, hm]

section Pass

variable {files₀ : FileTree} {d : Place} {length spacing : Nat} {taken : List (String × Nat)}
  {s : Session Simulated}

/-- A visit that is found where it is. -/
theorem visit_after (ho : ∀ p ∈ ps, p.waypoints.Ordered) (hc : c.Vacant files₀ d)
    (h : us ++ [v] <+: timeline ps) (hl : unit spacing c.counter * v.waypoint < length)
    (hp : v.point.Storable c.outdir)
    (hsmall : v.mark = .stop → Small c.outdir (v.point.exact (unit spacing c.counter)).long)
    (hs : s.Shelved length spacing (standing (unit spacing c.counter) us)
      (taken ++ c.snapshots (unit spacing c.counter) us) files₀ d) :
    Yields Simulated.engine (visit c false (.after (unit spacing c.counter) us) v) s
      (.after (unit spacing c.counter) (us ++ [v]))
      (·.Shelved length spacing (standing (unit spacing c.counter) (us ++ [v]))
        (taken ++ c.snapshots (unit spacing c.counter) (us ++ [v])) files₀ d) := by
  have ht : c.target false v = v.waypoint := by simp [ReplayConfig.target]
  have hr : Yields Simulated.engine (reach c false v) s true _ :=
    reach_simulated hs (by rw [ht]; exact hl)
  rw [ht] at hr
  generalize hu : unit spacing c.counter = u at *
  rw [Nat.max_eq_right (standing_le h u)] at hr
  have hstand : standing u (us ++ [v]) = u * v.waypoint := by simp [standing]
  rw [hstand, Pass.after_concat, ReplayConfig.snapshots_concat, ← List.append_assoc]
  refine visit_of_reach hr fun s hs => ?_
  cases hm : v.mark with
  | warmup =>
    simp only [reduceCtorEq, if_true, if_false, Array.append_empty]
    exact settle_warmup hc hs hm hp
  | interval =>
    simp only [reduceCtorEq, if_false, Array.append_empty, List.append_nil]
    exact settle_interval hs hm
  | stop =>
    -- all three marks were found, so the checkpoint can be named
    simp only [reduceCtorEq, if_true, if_false, Array.append_singleton, List.append_nil]
    have hv : v ∈ timeline ps := h.mem (by simp)
    have hord := ho _ (point_mem hv)
    have hstop : v.waypoint = v.point.waypoints.stop := by
      rw [waypoint_eq hv, hm]
      rfl
    obtain ⟨hw, hi, he⟩ := Pass.reading?_stop ho h hm u false (u * v.waypoint)
    rw [hstop] at hw hi he hs ⊢
    exact settle_stop hc hs hm hp hw hi he
      ⟨Nat.mul_le_mul_left _ hord.1, Nat.mul_le_mul_left _ hord.2⟩ (hsmall hm)

/-- **Visits in the order of the timeline.** -/
theorem foldlM_visit_simulated (ho : ∀ p ∈ ps, p.waypoints.Ordered) (hc : c.Vacant files₀ d)
    (h : us <+: timeline ps) (hl : ∀ v ∈ us, unit spacing c.counter * v.waypoint < length)
    (hp : ∀ v ∈ us, v.point.Storable c.outdir)
    (hsmall : ∀ v ∈ us, v.mark = .stop →
      Small c.outdir (v.point.exact (unit spacing c.counter)).long)
    (hs : s.Shelved length spacing 0 taken files₀ d) :
    Yields Simulated.engine (us.foldlM (visit c false) .start) s
      (.after (unit spacing c.counter) us)
      (·.Shelved length spacing (standing (unit spacing c.counter) us)
        (taken ++ c.snapshots (unit spacing c.counter) us) files₀ d) := by
  induction us using List.reverseRecOn with
  | nil =>
    refine .pure ?_
    show s.Shelved length spacing 0 (taken ++ []) files₀ d
    rwa [List.append_nil]
  | append_singleton us v ih =>
    have hus : us <+: timeline ps := (List.prefix_append us [v]).trans h
    rw [List.foldlM_append]
    refine (ih hus (fun v hv => hl v (List.mem_append_left _ hv))
      (fun v hv => hp v (List.mem_append_left _ hv))
      (fun v hv => hsmall v (List.mem_append_left _ hv))).bind fun s hs => ?_
    rw [List.foldlM_cons]
    refine (visit_after ho hc h (hl v (by simp)) (hp v (by simp)) (hsmall v (by simp))
      hs).bind fun s hs => ?_
    exact .pure hs

theorem visitAll_append (c : ReplayConfig) (p : Pass) (us : List Visit) {vs : List Visit}
    (hvs : vs ≠ []) :
    visitAll c p (us ++ vs) = us.foldlM (visit c false) p >>= fun p => visitAll c p vs := by
  induction us generalizing p with
  | nil =>
    rw [List.nil_append, List.foldlM_nil, pure_bind]
  | cons u us ih =>
    have he : (us ++ vs).isEmpty = false := by
      rw [List.isEmpty_eq_false_iff]
      simp [hvs]
    rw [List.cons_append, visitAll, he, List.foldlM_cons, LawfulMonad.bind_assoc]
    exact congrArg (visit c false p u >>= ·) (funext fun p => ih p)

theorem visitAll_single (c : ReplayConfig) (p : Pass) (v : Visit) :
    visitAll c p [v] = visit c true p v := by
  rw [visitAll]
  exact bind_pure _

/-! ## Whole replays -/

/-- The checkpoints of a replay of a simulated program: those of visits that are found where they
are, and that of the last visit, which is found where the program then stands. -/
def ReplayConfig.found (c : ReplayConfig) (unit length : Nat) (vs : List Visit) :
    List Checkpoint :=
  match vs.getLast? with
  | none => []
  | some v => (vs.dropLast.filter (·.mark = .stop)).map (·.point.exact unit) ++
      [v.point.checkpoint (unit * v.point.waypoints.warmup) (unit * v.point.waypoints.interval)
        (c.halt unit length (standing unit vs.dropLast) v)]

theorem ReplayConfig.found_concat (c : ReplayConfig) (unit length : Nat) (us : List Visit)
    (v : Visit) : c.found unit length (us ++ [v]) =
      (us.filter (·.mark = .stop)).map (·.point.exact unit) ++
        [v.point.checkpoint (unit * v.point.waypoints.warmup) (unit * v.point.waypoints.interval)
          (c.halt unit length (standing unit us) v)] := by
  simp [found]

/-- An end that is visited before the last one is found where it is. -/
theorem ReplayConfig.exact_mem_found (c : ReplayConfig) (unit length : Nat) {u : Visit}
    (hu : u ∈ us) (hm : u.mark = .stop) (v : Visit) (vs : List Visit) :
    u.point.exact unit ∈ c.found unit length (us ++ v :: vs) := by
  obtain ⟨ws, w, hcat⟩ := (List.eq_nil_or_concat (v :: vs)).resolve_left (List.cons_ne_nil v vs)
  rw [hcat, List.concat_eq_append, ← List.append_assoc, found_concat, List.filter_append,
    List.map_append]
  refine List.mem_append_left _ (List.mem_append_left _ ?_)
  exact List.mem_map.2 ⟨u, List.mem_filter.2 ⟨hu, by simp [hm]⟩, rfl⟩

/-- **The last visit**, after others that were found where they are. -/
theorem visit_last (ho : ∀ p ∈ ps, p.waypoints.Ordered) (hc : c.Vacant files₀ d)
    (h : us ++ [v] <+: timeline ps) (hm : v.mark = .stop)
    (hl : ∀ u ∈ us, unit spacing c.counter * u.waypoint < length)
    (hp : v.point.Storable c.outdir)
    (hsmall : ∀ cp ∈ c.found (unit spacing c.counter) length (us ++ [v]), Small c.outdir cp.long)
    (hs : s.Shelved length spacing (standing (unit spacing c.counter) us)
      (taken ++ c.snapshots (unit spacing c.counter) us) files₀ d) :
    ∃ p : Pass, p.exited = !decide (unit spacing c.counter * c.target true v < length) ∧
      p.checkpoints.toList = c.found (unit spacing c.counter) length (us ++ [v]) ∧
      Yields Simulated.engine (visit c true (.after (unit spacing c.counter) us) v) s p
        (·.Shelved length spacing
          (c.halt (unit spacing c.counter) length (standing (unit spacing c.counter) us) v)
          (taken ++ c.snapshots (unit spacing c.counter) (us ++ [v])) files₀ d) := by
  have hr := reach_last (c := c) (v := v) hs
  generalize hu : unit spacing c.counter = u at *
  generalize hE : c.halt u length (standing u us) v = stop at *
  have hsnap : c.snapshots u (us ++ [v]) = c.snapshots u us := by
    rw [ReplayConfig.snapshots_concat, hm]
    exact List.append_nil _
  obtain ⟨hw, hi, he⟩ := Pass.reading?_stop ho h hm u (!decide (u * c.target true v < length)) stop
  -- the interval was found before the end of the program, and not behind this visit
  have hv : v ∈ timeline ps := h.mem (by simp)
  have hord := ho _ (point_mem hv)
  have hmem := mem_of_stop ho h hm (m := .interval) (by decide)
  have hle : u * v.point.waypoints.interval ≤ stop := by
    have hbefore : u * v.point.waypoints.interval < length := hl _ hmem
    have hstand : u * v.point.waypoints.interval ≤ standing u us :=
      le_standing ((List.prefix_append us [v]).trans h) hmem u
    rw [← hE]
    unfold ReplayConfig.halt
    split
    · omega
    · exact Nat.le_trans hstand (Nat.le_max_left _ _)
  rw [ReplayConfig.found_concat, hE] at hsmall ⊢
  rw [hsnap]
  have hlong := hsmall _ (List.mem_append_right _ (List.mem_singleton.2 rfl))
  refine ⟨_, ?_, ?_, visit_of_reach hr fun s hs => settle_stop hc hs hm hp hw hi he
    ⟨Nat.mul_le_mul_left _ hord.1, hle⟩ hlong⟩
  · rfl
  · simp [Pass.after, Pass.arrive]

/-- **The replay of a simulated program**, where only the last visit can meet its end. -/
theorem replay_found (hv : Simpoint.validate ps = .ok ()) (hc : c.Vacant files₀ d)
    (hl : ∀ v ∈ (timeline ps).dropLast, unit spacing c.counter * v.waypoint < length)
    (hp : ∀ p ∈ ps, p.Storable c.outdir)
    (hsmall : ∀ cp ∈ c.found (unit spacing c.counter) length (timeline ps),
      Small c.outdir cp.long)
    (hs : s.Shelved length spacing 0 taken files₀ d) :
    Yields Simulated.engine (replay c ps) s
      (c.found (unit spacing c.counter) length (timeline ps))
      (·.Shelved length spacing length
        (taken ++ c.snapshots (unit spacing c.counter) (timeline ps)) files₀ d) := by
  have ho := (Simpoint.validate_eq_ok_iff.1 hv).2.1
  have hpoint : ∀ v ∈ timeline ps, v.point.Storable c.outdir := fun v hv => hp _ (point_mem hv)
  unfold replay
  refine .ofExcept_bind hv ?_
  rcases List.eq_nil_or_concat (timeline ps) with hnil | ⟨us, v, hcat⟩
  -- without visits there is the run to the end only
  · rw [hnil]
    obtain ⟨files, hs, hf⟩ := hs
    refine Yields.bind (P := (·.Stands length spacing 0 taken files)) (.pure hs) fun s hs => ?_
    refine hs.complete.bind fun s hs => ?_
    refine .ofExcept_bind rfl (.pure ⟨files, ?_, hf⟩)
    show s.Stands length spacing length (taken ++ []) files
    rwa [List.append_nil]
  rw [List.concat_eq_append] at hcat
  have hpre : us <+: timeline ps := hcat ▸ List.prefix_append us [v]
  have hmark : v.mark = .stop := mark_of_getLast?_timeline ho (by simp [hcat])
  have hsub : ∀ u ∈ us, u ∈ timeline ps := fun u hu => hpre.mem hu
  rw [hcat] at hsmall hl ⊢
  rw [List.dropLast_concat] at hl
  have hbefore : ∀ u ∈ us, u.mark = .stop →
      Small c.outdir (u.point.exact (unit spacing c.counter)).long := fun u hu hm =>
    hsmall _ (c.exact_mem_found _ _ hu hm v [])
  rw [visitAll_append c _ us (List.cons_ne_nil v []), LawfulMonad.bind_assoc]
  refine (foldlM_visit_simulated ho hc hpre hl (fun u hu => hpoint u (hsub u hu)) hbefore
    hs).bind fun s hs => ?_
  have hv : v ∈ timeline ps := by simp [hcat]
  obtain ⟨p, hexit, hcps, hvisit⟩ := visit_last ho hc (hcat ▸ List.prefix_refl _) hmark hl
    (hpoint v hv) hsmall hs
  rw [visitAll_single]
  refine hvisit.bind fun s hs => ?_
  rw [hexit, hcps, Bool.not_not]
  by_cases ht : unit spacing c.counter * c.target true v < length
  -- where the program still runs, it is run to its end
  · rw [if_pos (decide_eq_true ht)]
    obtain ⟨files, hs, hf⟩ := hs
    refine hs.complete.bind fun s hs => ?_
    exact .ofExcept_bind rfl (.pure ⟨files, hs, hf⟩)
  · have hhalt : c.halt (unit spacing c.counter) length
        (standing (unit spacing c.counter) us) v = length := if_pos (Nat.not_lt.1 ht)
    rw [if_neg (by simpa using ht)]
    rw [hhalt] at hs
    exact .pure hs

/-- **A replay ends early** at a visit that the program does not reach, if it is not the last. -/
theorem replay_early {vs : List Visit} (hv : Simpoint.validate ps = .ok ()) (hc : c.Vacant files₀ d)
    (hcat : timeline ps = us ++ v :: vs) (hvs : vs ≠ [])
    (hl : ∀ u ∈ us, unit spacing c.counter * u.waypoint < length)
    (hend : length ≤ unit spacing c.counter * v.waypoint)
    (hp : ∀ p ∈ ps, p.Storable c.outdir)
    (hsmall : ∀ u ∈ us, u.mark = .stop →
      Small c.outdir (u.point.exact (unit spacing c.counter)).long)
    (hs : s.Shelved length spacing 0 taken files₀ d) :
    Fails Simulated.engine (replay c ps) s (.exitedEarly c.counter v.waypoint)
      (·.Shelved length spacing length
        (taken ++ c.snapshots (unit spacing c.counter) us) files₀ d) := by
  have ho := (Simpoint.validate_eq_ok_iff.1 hv).2.1
  have hpre : us <+: timeline ps := hcat ▸ List.prefix_append us (v :: vs)
  have hpoint : ∀ u ∈ us, u.point.Storable c.outdir := fun u hu => hp _ (point_mem (hpre.mem hu))
  have htarget : c.target false v = v.waypoint := by simp [ReplayConfig.target]
  unfold replay
  refine .ofExcept_bind hv (.bind ?_ _)
  rw [hcat, visitAll_append c _ us (List.cons_ne_nil v vs)]
  refine (foldlM_visit_simulated ho hc hpre hl hpoint hsmall hs).fails fun s hs => ?_
  rw [visitAll, visit_eq, List.isEmpty_eq_false_iff.2 hvs]
  refine .bind (.bind ?_ _) _
  rw [← htarget] at hend ⊢
  exact reach_early hs hend

/-- Where the program goes on behind the last visit, that is found where it is too. -/
theorem ReplayConfig.found_exact (ho : ∀ p ∈ ps, p.waypoints.Ordered) (hslack : c.slack = 0)
    {unit : Nat} (hl : ∀ v ∈ timeline ps, unit * v.waypoint < length) :
    c.found unit length (timeline ps) =
      ((timeline ps).filter (·.mark = .stop)).map (·.point.exact unit) := by
  rcases List.eq_nil_or_concat (timeline ps) with hnil | ⟨us, v, hcat⟩
  · rw [hnil]
    rfl
  rw [List.concat_eq_append] at hcat
  have hm : v.mark = .stop := mark_of_getLast?_timeline ho (by simp [hcat])
  have hv : v ∈ timeline ps := by simp [hcat]
  have hstop : v.waypoint = v.point.waypoints.stop := by
    rw [waypoint_eq hv, hm]
    rfl
  have htarget : c.target true v = v.waypoint := by simp [ReplayConfig.target, hslack]
  have hpre : us ++ [v] <+: timeline ps := hcat ▸ List.prefix_refl _
  have hhalt : c.halt unit length (standing unit us) v = unit * v.point.waypoints.stop := by
    rw [ReplayConfig.halt, htarget, if_neg (Nat.not_le.2 (hl v hv)),
      Nat.max_eq_right (standing_le hpre unit), hstop]
  rw [hcat, ReplayConfig.found_concat, hhalt, List.filter_append, List.map_append]
  simp [hm, Simpoint.exact]

/-- **The replay of a program that is long enough** finds every mark where it is. -/
theorem replay_simulated (hv : Simpoint.validate ps = .ok ()) (hc : c.Vacant files₀ d)
    (hslack : c.slack = 0)
    (hl : ∀ p ∈ ps, unit spacing c.counter * p.waypoints.stop < length)
    (hp : ∀ p ∈ ps, p.Storable c.outdir ∧
      Small c.outdir (p.exact (unit spacing c.counter)).long)
    (hs : s.Shelved length spacing 0 [] files₀ d) :
    Yields Simulated.engine (replay c ps) s
      (((timeline ps).filter (·.mark = .stop)).map fun v =>
        v.point.exact (unit spacing c.counter))
      (·.Shelved length spacing length (c.snapshots (unit spacing c.counter) (timeline ps))
        files₀ d) := by
  have ho := (Simpoint.validate_eq_ok_iff.1 hv).2.1
  have hvisit : ∀ v ∈ timeline ps, unit spacing c.counter * v.waypoint < length := by
    intro v hv
    have hle : v.waypoint ≤ v.point.waypoints.stop := by
      have hm : v.mark.rank ≤ Mark.stop.rank := by cases v.mark <;> decide
      rw [waypoint_eq hv]
      exact (ho _ (point_mem hv)).at_le hm
    exact Nat.lt_of_le_of_lt (Nat.mul_le_mul_left _ hle) (hl _ (point_mem hv))
  have hfound := ReplayConfig.found_exact ho hslack hvisit
  have hsmall : ∀ cp ∈ c.found (unit spacing c.counter) length (timeline ps),
      Small c.outdir cp.long := by
    rw [hfound]
    intro cp hcp
    obtain ⟨v, hv, rfl⟩ := List.mem_map.1 hcp
    exact (hp _ (point_mem (List.mem_filter.1 hv).1)).2
  have h := replay_found hv hc (fun v hv => hvisit v (List.dropLast_subset _ hv))
    (fun p hmem => (hp p hmem).1) hsmall hs
  rwa [hfound, List.nil_append] at h

end Pass

/-! ## Replays into the root -/

/-- A program at its start, with an empty tree. -/
theorem Session.shelved_fresh (length spacing : Nat) (dumps : List String) :
    (Session.fresh (.program length spacing dumps)).Shelved length spacing 0 [] (.bare []) [] :=
  ⟨_, .fresh length spacing dumps, .of_empty FileTree.get?_bare_root⟩

theorem ReplayConfig.vacant_root (counter : Counter) (slack : Nat) :
    (ReplayConfig.mk "/" counter slack).Vacant (.bare []) [] :=
  ⟨FileTree.opens_root _, FileTree.get?_bare_root⟩

/-- A simpoint whose names have the size of one. -/
structure Simpoint.Handy (p : Simpoint) (unit : Nat) : Prop where
  plain : Plain p.name
  apart : ¬ "simpoint_".toList <+: p.name.toList
  short : (shortName p.name).utf8ByteSize ≤ maxName
  long : (p.exact unit).long.utf8ByteSize ≤ maxName

instance (unit : Nat) : DecidablePred (Simpoint.Handy · unit) := fun p =>
  decidable_of_iff (Plain p.name ∧ ¬ "simpoint_".toList <+: p.name.toList ∧
      (shortName p.name).utf8ByteSize ≤ maxName ∧ (p.exact unit).long.utf8ByteSize ≤ maxName)
    ⟨fun ⟨h₁, h₂, h₃, h₄⟩ => ⟨h₁, h₂, h₃, h₄⟩, fun h => ⟨h.1, h.2, h.3, h.4⟩⟩

theorem Simpoint.Handy.storable {p : Simpoint} {unit : Nat} (h : p.Handy unit) :
    p.Storable "/" :=
  ⟨h.plain, h.apart, small_root h.short⟩

/-- **A replay into the root of an empty tree**, where names of the right size have room. -/
theorem replay_root {ps : List Simpoint} (length : Nat) (hv : Simpoint.validate ps = .ok ())
    (hl : ∀ p ∈ ps, p.waypoints.stop < length) (hp : ∀ p ∈ ps, p.Handy 1) :
    ∃ s', (replay ⟨"/", .inst, 0⟩ ps).run Simulated.engine (.fresh (.program length 1 [])) =
      (.ok (((timeline ps).filter (·.mark = .stop)).map (·.point.exact 1)), s') := by
  have hlong : ∀ p ∈ ps, unit 1 .inst * p.waypoints.stop < length := by
    intro p hmem
    rw [unit, Nat.one_mul]
    exact hl p hmem
  obtain ⟨s', hrun, -⟩ := replay_simulated hv (ReplayConfig.vacant_root .inst 0) rfl hlong
    (fun p hmem => ⟨(hp p hmem).storable, small_root (hp p hmem).long⟩)
    (Session.shelved_fresh length 1 [])
  exact ⟨s', hrun⟩

/-! ## Simpoints in order -/

/-- Where the ends are in the order of the list, so are the checkpoints. -/
theorem exact_timeline (h : ps.Pairwise fun p q => p.waypoints.stop ≤ q.waypoints.stop)
    (unit : Nat) :
    ((timeline ps).filter (·.mark = .stop)).map (fun v => v.point.exact unit) =
      ps.map (·.exact unit) := by
  rw [map_filter_timeline ps .stop (·.exact unit)]
  exact congrArg _ (List.mergeSort_of_pairwise (h.imp fun hle => decide_eq_true hle))

/-- **A replay takes a snapshot for each simpoint**, in the order of their warmups. -/
theorem ReplayConfig.snapshots_sorted (c : ReplayConfig) (ps : List Simpoint) (unit : Nat) :
    c.snapshots unit (timeline ps) =
      (ps.mergeSort fun p q => p.waypoints.warmup ≤ q.waypoints.warmup).map fun p =>
        (checkpointPath c.outdir (shortName p.name), unit * p.waypoints.warmup) := by
  refine Eq.trans ?_ (map_filter_timeline ps .warmup _)
  unfold snapshots
  refine List.map_congr_left fun v hv => ?_
  obtain ⟨hv, hm⟩ := List.mem_filter.1 hv
  have hwaypoint : v.waypoint = v.point.waypoints.warmup := by
    rw [waypoint_eq hv, of_decide_eq_true hm]
    rfl
  rw [hwaypoint]
  rfl

/-- Where the warmups are in the order of the list, so are the snapshots. -/
theorem ReplayConfig.snapshots_timeline
    (h : ps.Pairwise fun p q => p.waypoints.warmup ≤ q.waypoints.warmup) (unit : Nat) :
    c.snapshots unit (timeline ps) = ps.map fun p =>
      (checkpointPath c.outdir (shortName p.name), unit * p.waypoints.warmup) := by
  rw [snapshots_sorted, List.mergeSort_of_pairwise (h.imp fun hle => decide_eq_true hle)]

end PhaseSampling
