import PhaseSampling.Engine.Scripted
import PhaseSampling.Proofs.Replay.Schedule

/-!
# The targets of a replay

A replay sends its engine from one visit to the next, and the timeline is in order. Only the slack
changes a target after the visits were put in order, so only the last end can lie behind the visit
before it.

* `targets`: where an engine was sent, in turn.
* `ReplayConfig.SlackFits`: the slack leaves the last end where the visit before it was, or ahead.
* `replay_targets_increase`: over any engine the targets go up, but perhaps for the last end, and for
  that one too exactly if the slack fits.
-/

namespace PhaseSampling

open PhaseSampling.Flow

/-- Where a call sends the engine. -/
def Call.target? : Call → Option Nat
  | .advance _ target => some target
  | _ => none

/-- Where an engine was sent, in turn. -/
def targets (l : List Exchange) : List Nat := l.filterMap fun x => x.call.target?

theorem targets_eq (l : List Exchange) :
    targets l = (l.map Exchange.call).filterMap Call.target? := by
  rw [targets, List.filterMap_map]
  rfl

namespace ReplayConfig

variable {c : ReplayConfig} {v : Visit} {us vs : List Visit}

/-- Where visits send the engine. -/
def aims (c : ReplayConfig) (vs : List Visit) : List Nat := (c.schedule vs).filterMap Call.target?

theorem aims_cons (c : ReplayConfig) (v : Visit) (vs : List Visit) :
    c.aims (v :: vs) = c.aim vs.isEmpty v :: c.aims vs := by
  unfold aims
  rw [schedule]
  by_cases hm : v.mark = .warmup
  · rw [if_pos hm]
    rfl
  · rw [if_neg hm]
    rfl

/-- Visits are aimed at where they are, but for the last. -/
theorem aims_concat (c : ReplayConfig) (us : List Visit) (v : Visit) :
    c.aims (us ++ [v]) = us.map Visit.waypoint ++ [c.aim true v] := by
  induction us with
  | nil => exact aims_cons c v []
  | cons u us ih =>
    have he : (us ++ [v]).isEmpty = false := by cases us <;> rfl
    rw [List.cons_append, aims_cons, ih, he]
    simp [aim]

theorem length_aims (c : ReplayConfig) (vs : List Visit) : (c.aims vs).length = vs.length := by
  induction vs with
  | nil => rfl
  | cons v vs ih => rw [aims_cons, List.length_cons, ih, List.length_cons]

/-- The slack does not draw the last visit back behind the one before it. -/
def SlackFits (c : ReplayConfig) (vs : List Visit) : Prop :=
  ∀ us u v, vs = us ++ [u, v] → u.waypoint ≤ c.aim true v

/-- Waypoints are never drawn back. -/
theorem slackFits_of_waypoint (hc : c.counter = .waypoint)
    (hs : vs.Pairwise fun u v => u.waypoint ≤ v.waypoint) : c.SlackFits vs := by
  rintro us u v rfl
  have hle : u.waypoint ≤ v.waypoint := by
    rw [List.pairwise_append] at hs
    simpa using hs.2.1
  simpa [aim, hc] using hle

/-- Before the last one the aims are in order. -/
theorem aims_take_pairwise (hs : vs.Pairwise fun u v => u.waypoint ≤ v.waypoint) :
    ((c.aims vs).take (vs.length - 1)).Pairwise (· ≤ ·) := by
  rcases List.eq_nil_or_concat vs with rfl | ⟨us, v, rfl⟩
  · exact .nil
  rw [List.concat_eq_append] at hs ⊢
  rw [List.pairwise_append] at hs
  have hlen : (us ++ [v]).length - 1 = (us.map Visit.waypoint).length := by simp
  rw [aims_concat, hlen, List.take_left]
  exact List.pairwise_map.2 hs.1

/-- **All the aims are in order** exactly if the slack fits. -/
theorem aims_pairwise_iff (hs : vs.Pairwise fun u v => u.waypoint ≤ v.waypoint) :
    (c.aims vs).Pairwise (· ≤ ·) ↔ c.SlackFits vs := by
  rcases List.eq_nil_or_concat vs with rfl | ⟨us, v, rfl⟩
  · simp [aims, schedule, SlackFits]
  rw [List.concat_eq_append] at hs ⊢
  rw [List.pairwise_append] at hs
  obtain ⟨hus, -, -⟩ := hs
  have hmap : (us.map Visit.waypoint).Pairwise (· ≤ ·) := List.pairwise_map.2 hus
  rw [aims_concat, List.pairwise_append]
  constructor
  · rintro ⟨-, -, h⟩ us' u w heq
    obtain ⟨rfl, rfl⟩ : us = us' ++ [u] ∧ v = w := by
      have heq : us ++ [v] = us' ++ [u] ++ [w] := by simpa using heq
      simpa using List.append_inj' heq rfl
    exact h _ (by simp) _ (by simp)
  · intro h
    refine ⟨hmap, List.pairwise_singleton _ _, fun a ha b hb => ?_⟩
    rw [List.mem_singleton.1 hb]
    -- the visit just before the last is the furthest of those before it
    rcases List.eq_nil_or_concat us with rfl | ⟨us', u, rfl⟩
    · cases ha
    rw [List.concat_eq_append] at ha hus h
    have hu : u.waypoint ≤ c.aim true v := h us' u v (by simp)
    rw [List.map_append, List.mem_append] at ha
    rcases ha with ha | ha
    · obtain ⟨w, hw, rfl⟩ := List.mem_map.1 ha
      rw [List.pairwise_append] at hus
      exact Nat.le_trans (hus.2.2 w hw u (by simp)) hu
    · rw [List.map_singleton, List.mem_singleton] at ha
      rw [ha]
      exact hu

/-- Where the calls of a replay are a prefix of its schedule, so are its targets of the aims. -/
theorem Replayed.targets {ps : List Simpoint} {l : List Exchange} {r : Ending (List Checkpoint)}
    (h : c.Replayed ps l r) : PhaseSampling.targets l <+: c.aims (PhaseSampling.timeline ps) := by
  have hp := h.calls.filterMap Call.target?
  have hend : [Call.complete].filterMap Call.target? = [] := rfl
  rw [List.filterMap_append, hend, List.append_nil] at hp
  rw [targets_eq]
  exact hp

end ReplayConfig

theorem length_timeline (ps : List Simpoint) : (timeline ps).length = 3 * ps.length := by
  have h : ∀ (f : Simpoint × Nat → List Visit) (l : List (Simpoint × Nat)),
      (∀ x, (f x).length = 3) → (l.flatMap f).length = 3 * l.length := by
    intro f l hf
    induction l with
    | nil => rfl
    | cons x l ih =>
      rw [List.flatMap_cons, List.length_append, hf, ih, List.length_cons]
      omega
  rw [(timeline_perm ps).length_eq, visits, h, List.length_zipIdx]
  rintro ⟨p, i⟩
  rfl

/-- **A replay goes forward, but perhaps to its last end.** Over any engine the targets before that of
the last end go up. With that one they do exactly if the replay does not get that far, or the slack
does not draw the last end back behind the visit before it; waypoints are never drawn back. -/
theorem replay_targets_increase {σ : Type} (e : Engine σ) (c : ReplayConfig) (ps : List Simpoint)
    (s : Session σ) :
    ∃ l, ((replay c ps).run e s).2.trace.toList = s.trace.toList ++ l ∧
      ((targets l).take (3 * ps.length - 1)).Pairwise (· ≤ ·) ∧
      ((targets l).Pairwise (· ≤ ·) ↔
        ((targets l).length = 3 * ps.length → c.SlackFits (timeline ps))) ∧
      (c.counter = .waypoint → (targets l).Pairwise (· ≤ ·)) := by
  obtain ⟨d, r, hc, -, -, ht, -⟩ := exists_course e (replay c ps) s
  have hpre : targets (exchanges d) <+: c.aims (timeline ps) := (course_replay hc).targets
  have hs := timeline_sorted ps
  have hlen : (c.aims (timeline ps)).length = 3 * ps.length := by
    rw [ReplayConfig.length_aims, length_timeline]
  have htake : ((targets (exchanges d)).take (3 * ps.length - 1)).Pairwise (· ≤ ·) := by
    have h := ReplayConfig.aims_take_pairwise (c := c) hs
    obtain ⟨rest, hrest⟩ := hpre
    rw [length_timeline, ← hrest, List.take_append, List.pairwise_append] at h
    exact h.1
  have hiff : (targets (exchanges d)).Pairwise (· ≤ ·) ↔
      ((targets (exchanges d)).length = 3 * ps.length → c.SlackFits (timeline ps)) := by
    rw [← ReplayConfig.aims_pairwise_iff hs]
    constructor
    · intro h hl
      rw [← hpre.eq_of_length (by rw [hl, hlen])]
      exact h
    · intro h
      by_cases hl : (targets (exchanges d)).length = 3 * ps.length
      · rw [hpre.eq_of_length (by rw [hl, hlen])]
        exact h hl
      -- a replay that made fewer calls did not get to the last end
      · have hle := hpre.length_le
        rw [hlen] at hle
        rw [List.take_of_length_le (by omega)] at htake
        exact htake
  refine ⟨exchanges d, ht, htake, hiff, fun hw => ?_⟩
  rw [hiff]
  exact fun _ => ReplayConfig.slackFits_of_waypoint hw hs

/-- A replay goes back where the slack is greater than the last interval. -/
theorem replay_targets_decrease :
    Simpoint.validate [⟨"0", ⟨0⟩, ⟨0, 100, 200⟩, none⟩] = .ok () ∧
    targets ((replay ⟨"/", .inst, 150⟩ [⟨"0", ⟨0⟩, ⟨0, 100, 200⟩, none⟩]).run Scripted.engine
      (.fresh ⟨[.ok 0, .ok 100, .ok 50], [.ok .breakpoint, .ok .breakpoint, .ok .breakpoint], [],
        []⟩)).2.trace.toList = [0, 100, 50] ∧
    ¬ [0, 100, 50].Pairwise (· ≤ ·) := by
  have ht : timeline [⟨"0", ⟨0⟩, ⟨0, 100, 200⟩, none⟩] =
      Visit.all 0 ⟨"0", ⟨0⟩, ⟨0, 100, 200⟩, none⟩ := by
    rw [timeline]
    exact List.mergeSort_of_pairwise (by decide)
  refine ⟨rfl, ?_, by decide⟩
  rw [replay, ht]
  rfl

end PhaseSampling
