import Mathlib.Data.List.Chain
import PhaseSampling.Replay

/-!
# The timeline of a replay

The visits of a list of simpoints in the order of their waypoints.

* `Simpoint.validate_eq_ok_iff`: the lists that can be replayed.
* `timeline_pairwise`: the order of the visits, down to those at one waypoint.
* `timeline_marks`: each simpoint's warmup comes before its interval, and that before its end, also
  where waypoints are equal. So the last visit is an end (`mark_of_getLast?_timeline`).
* `nodup_keys_timeline`, `filter_timeline_perm`: every simpoint has one visit at each mark.
* `map_filter_timeline`: the simpoints in the order in which they are visited at a mark.
-/

namespace PhaseSampling

/-! ## Numbered lists -/

section Numbered

variable {α : Type}

/-- The numbers go up. -/
theorem pairwise_zipIdx_snd (l : List α) : l.zipIdx.Pairwise fun x y => x.2 < y.2 := by
  have h : (l.zipIdx.map Prod.snd).Pairwise (· < ·) := by
    rw [List.zipIdx_map_snd]
    exact List.pairwise_lt_range'
  exact List.pairwise_map.1 h

/-- What holds of any two entries still does when they are numbered. -/
theorem pairwise_zipIdx_fst {R : α → α → Prop} {l : List α} (h : l.Pairwise R) :
    l.zipIdx.Pairwise fun x y => R x.1 y.1 := by
  rw [← List.zipIdx_map_fst 0 l] at h
  exact List.pairwise_map.1 h

end Numbered

/-! ## Valid lists -/

namespace Simpoint

theorem firstRepeated_eq_none_iff {seen : List String} {ps : List Simpoint} :
    firstRepeated seen ps = none ↔
      (∀ p ∈ ps, p.name ∉ seen) ∧ (ps.map Simpoint.name).Nodup := by
  induction ps generalizing seen with
  | nil => simp [firstRepeated]
  | cons p ps ih =>
    rw [firstRepeated]
    split
    · rename_i hp
      simp [hp]
    · rename_i hp
      rw [ih]
      simp only [List.mem_cons, not_or, List.map_cons, List.nodup_cons, List.mem_map, not_exists,
        not_and, forall_eq_or_imp]
      constructor
      · rintro ⟨h, hn⟩
        exact ⟨⟨hp, fun q hq => (h q hq).2⟩, fun q hq => (h q hq).1, hn⟩
      · rintro ⟨⟨-, h⟩, h', hn⟩
        exact ⟨fun q hq => ⟨h' q hq, h q hq⟩, hn⟩

theorem firstNotIncreasing_eq_none_iff {ps : List Simpoint} :
    firstNotIncreasing ps = none ↔ ps.IsChain fun p q => (p.keys q).1 < (p.keys q).2 := by
  induction ps with
  | nil => simp [firstNotIncreasing]
  | cons p ps ih =>
    cases ps with
    | nil => simp [firstNotIncreasing]
    | cons q ps =>
      rw [firstNotIncreasing, List.isChain_cons_cons]
      split
      · rename_i h
        simp [Nat.not_lt.2 h]
      · rename_i h
        rw [ih, and_iff_right (Nat.not_le.1 h)]

theorem firstRepeated_nil_eq_none_iff {ps : List Simpoint} :
    firstRepeated [] ps = none ↔ (ps.map Simpoint.name).Nodup := by
  rw [firstRepeated_eq_none_iff]
  exact and_iff_right fun p hp => List.not_mem_nil

theorem firstUnordered_eq_none_iff {ps : List Simpoint} :
    firstUnordered ps = none ↔ ∀ p ∈ ps, p.waypoints.Ordered := by
  simp [firstUnordered]

/-- **The lists that can be replayed.** -/
theorem validate_eq_ok_iff {ps : List Simpoint} :
    validate ps = .ok () ↔ (ps.map Simpoint.name).Nodup ∧ (∀ p ∈ ps, p.waypoints.Ordered) ∧
      ps.IsChain fun p q => (p.keys q).1 < (p.keys q).2 := by
  rw [← firstRepeated_nil_eq_none_iff, ← firstUnordered_eq_none_iff,
    ← firstNotIncreasing_eq_none_iff, validate]
  split
  · simp [*]
  · split
    · simp [*]
    · split <;> simp [*]

end Simpoint

/-! ## Visits -/

/-- The place of a mark among the three of its simpoint. -/
def Mark.rank : Mark → Nat
  | .warmup => 0
  | .interval => 1
  | .stop => 2

/-- The waypoint that a mark is at. -/
def Waypoints.at_ (w : Waypoints) : Mark → Nat
  | .warmup => w.warmup
  | .interval => w.interval
  | .stop => w.stop

theorem Waypoints.Ordered.at_le {w : Waypoints} (h : w.Ordered) {m m' : Mark}
    (hm : m.rank ≤ m'.rank) : w.at_ m ≤ w.at_ m' := by
  obtain ⟨h₁, h₂⟩ := h
  cases m <;> cases m' <;> simp [at_, Mark.rank] at hm ⊢ <;> omega

/-- The visit of a simpoint at a mark. -/
def Visit.of (p : Simpoint) (i : Nat) (m : Mark) : Visit := ⟨p.waypoints.at_ m, m, i, p⟩

/-- What tells a visit from the others of its timeline. -/
def Visit.key (v : Visit) : Nat × Mark := (v.index, v.mark)

/-- Visits by simpoints, and those of one simpoint by marks. -/
def Visit.Before (u v : Visit) : Prop :=
  u.index < v.index ∨ u.index = v.index ∧ u.mark.rank < v.mark.rank

theorem Visit.all_eq (i : Nat) (p : Simpoint) :
    Visit.all i p = [Visit.of p i .warmup, Visit.of p i .interval, Visit.of p i .stop] := rfl

variable {ps : List Simpoint} {u v : Visit}

theorem index_of_mem_all {i : Nat} {p : Simpoint} (h : v ∈ Visit.all i p) : v.index = i := by
  simp only [Visit.all_eq, List.mem_cons, List.not_mem_nil, or_false] at h
  rcases h with rfl | rfl | rfl <;> rfl

theorem mem_visits_iff :
    v ∈ visits ps ↔ ps[v.index]? = some v.point ∧ v = Visit.of v.point v.index v.mark := by
  simp only [visits, List.mem_flatMap, Prod.exists, List.mem_zipIdx_iff_getElem?]
  constructor
  · rintro ⟨p, i, hp, hv⟩
    rw [Visit.all_eq] at hv
    simp only [List.mem_cons, List.not_mem_nil, or_false] at hv
    rcases hv with rfl | rfl | rfl <;> exact ⟨hp, rfl⟩
  · rintro ⟨hp, hv⟩
    refine ⟨_, _, hp, ?_⟩
    rw [hv]
    cases v.mark <;> simp [Visit.all_eq, Visit.of]

theorem visits_pairwise (ps : List Simpoint) : (visits ps).Pairwise Visit.Before := by
  rw [visits, List.pairwise_flatMap]
  constructor
  -- the visits of one simpoint
  · rintro ⟨p, i⟩ -
    simp [Visit.all_eq, Visit.of, Visit.Before, Mark.rank]
  -- those of two
  · refine (pairwise_zipIdx_snd ps).imp ?_
    rintro ⟨p, i⟩ ⟨q, j⟩ hij u hu v hv
    have hi : u.index = i := index_of_mem_all hu
    have hj : v.index = j := index_of_mem_all hv
    exact .inl (by rw [hi, hj]; exact hij)

/-! ## The timeline -/

theorem timeline_perm (ps : List Simpoint) : (timeline ps).Perm (visits ps) :=
  List.mergeSort_perm _ _

theorem mem_timeline_iff :
    v ∈ timeline ps ↔ ps[v.index]? = some v.point ∧ v = Visit.of v.point v.index v.mark := by
  rw [(timeline_perm ps).mem_iff, mem_visits_iff]

/-- A visit is one of a simpoint of the list. -/
theorem point_mem (h : v ∈ timeline ps) : v.point ∈ ps :=
  List.mem_of_getElem? (mem_timeline_iff.1 h).1

/-- A visit lies where its simpoint has the mark. -/
theorem waypoint_eq (h : v ∈ timeline ps) : v.waypoint = v.point.waypoints.at_ v.mark :=
  congrArg Visit.waypoint (mem_timeline_iff.1 h).2

/-- **No visit is made twice.** -/
theorem nodup_keys_timeline (ps : List Simpoint) : ((timeline ps).map Visit.key).Nodup := by
  rw [((timeline_perm ps).map Visit.key).nodup_iff, List.Nodup, List.pairwise_map]
  refine (visits_pairwise ps).imp fun {u v} h => ?_
  simp only [Visit.key, ne_eq, Prod.mk.injEq]
  rintro ⟨hi, hm⟩
  rcases h with h | ⟨-, h⟩
  · omega
  · rw [hm] at h
    exact absurd h (Nat.lt_irrefl _)

theorem Visit.waypoint_le_trans (u v w : Visit) (h : decide (u.waypoint ≤ v.waypoint) = true)
    (h' : decide (v.waypoint ≤ w.waypoint) = true) : decide (u.waypoint ≤ w.waypoint) = true := by
  simp only [decide_eq_true_eq] at h h' ⊢
  omega

theorem Visit.waypoint_le_total (u v : Visit) :
    (decide (u.waypoint ≤ v.waypoint) || decide (v.waypoint ≤ u.waypoint)) = true := by
  simp only [Bool.or_eq_true, decide_eq_true_eq]
  omega

/-- Visits by waypoints, where those at one waypoint keep their order. -/
def byWaypoint (vs : List Visit) : List Visit := vs.mergeSort fun a b => a.waypoint ≤ b.waypoint

theorem byWaypoint_sorted (vs : List Visit) :
    (byWaypoint vs).Pairwise fun u v => u.waypoint ≤ v.waypoint := by
  have h := List.pairwise_mergeSort Visit.waypoint_le_trans Visit.waypoint_le_total vs
  exact h.imp fun {u v} h => of_decide_eq_true h

theorem timeline_sorted (ps : List Simpoint) :
    (timeline ps).Pairwise fun u v => u.waypoint ≤ v.waypoint := byWaypoint_sorted (visits ps)

/-- Where the visits are in order as the list has them, they stay so. -/
theorem timeline_eq_visits (h : (visits ps).Pairwise fun u v => u.waypoint ≤ v.waypoint) :
    timeline ps = visits ps :=
  List.mergeSort_of_pairwise (h.imp fun hle => decide_eq_true hle)

/-- Visits at one waypoint keep their order. -/
theorem filter_waypoint_byWaypoint (vs : List Visit) (n : Nat) :
    (byWaypoint vs).filter (·.waypoint = n) = vs.filter (·.waypoint = n) := by
  have hsub : (vs.filter (·.waypoint = n)).Sublist (byWaypoint vs) := by
    refine List.sublist_mergeSort Visit.waypoint_le_trans Visit.waypoint_le_total ?_
      List.filter_sublist
    refine List.pairwise_of_forall_mem_list fun u hu v hv => ?_
    have hu := of_decide_eq_true (List.mem_filter.1 hu).2
    have hv := of_decide_eq_true (List.mem_filter.1 hv).2
    simp [hu, hv]
  -- both sides have as many visits, so the sublist is all of it
  have hsub := hsub.filter (·.waypoint = n)
  have hperm : (byWaypoint vs).Perm vs := List.mergeSort_perm _ _
  rw [List.filter_filter, List.filter_congr (fun _ _ => Bool.and_self _)] at hsub
  exact (hsub.eq_of_length (hperm.filter _).length_eq.symm).symm

/-- Visits by waypoints, and those at one waypoint in the order of the list. -/
def Visit.Ahead (u v : Visit) : Prop :=
  u.waypoint < v.waypoint ∨ u.waypoint = v.waypoint ∧ u.Before v

theorem Visit.Ahead.asymm (h : u.Ahead v) : ¬ v.Ahead u := by
  intro h'
  unfold Ahead Before at h h'
  omega

theorem byWaypoint_pairwise {vs : List Visit} (h : vs.Pairwise Visit.Before) :
    (byWaypoint vs).Pairwise Visit.Ahead := by
  rw [List.pairwise_iff_forall_sublist]
  intro u v huv
  have hle : u.waypoint ≤ v.waypoint :=
    List.pairwise_iff_forall_sublist.1 (byWaypoint_sorted vs) huv
  rcases Nat.lt_or_eq_of_le hle with hlt | he
  · exact .inl hlt
  · have hs := huv.filter (·.waypoint = v.waypoint)
    simp only [List.filter_cons, he, decide_true, if_true, List.filter_nil] at hs
    rw [filter_waypoint_byWaypoint] at hs
    have hs := hs.trans List.filter_sublist
    exact .inr ⟨he, List.pairwise_iff_forall_sublist.1 h hs⟩

/-- **The timeline is in order**, down to the visits at one waypoint. -/
theorem timeline_pairwise (ps : List Simpoint) : (timeline ps).Pairwise Visit.Ahead :=
  byWaypoint_pairwise (visits_pairwise ps)

/-- **Each simpoint's marks come in order**, also where their waypoints are equal. -/
theorem timeline_marks (ho : ∀ p ∈ ps, p.waypoints.Ordered) :
    (timeline ps).Pairwise fun u v => u.index = v.index → u.mark.rank < v.mark.rank := by
  refine (timeline_pairwise ps).imp_of_mem fun {u v} hu hv h hi => ?_
  rcases h with h | ⟨-, h⟩
  -- a mark that is not later has no later waypoint
  · obtain ⟨hpu, hu⟩ := mem_timeline_iff.1 hu
    obtain ⟨hpv, hv⟩ := mem_timeline_iff.1 hv
    have hp : u.point = v.point := by
      rw [hi, hpv] at hpu
      exact (Option.some.inj hpu).symm
    by_contra hm
    have hle := (ho _ (List.mem_of_getElem? hpv)).at_le (Nat.not_lt.1 hm)
    rw [hu, hv, hp] at h
    exact absurd h (Nat.not_lt.2 hle)
  · rcases h with h | ⟨-, h⟩
    · omega
    · exact h

/-- **The last visit is an end.** -/
theorem mark_of_getLast?_timeline (ho : ∀ p ∈ ps, p.waypoints.Ordered)
    (hv : (timeline ps).getLast? = some v) : v.mark = .stop := by
  obtain ⟨us, hus⟩ := List.getLast?_eq_some_iff.1 hv
  have hp := (mem_timeline_iff.1 (List.mem_of_getLast? hv)).1
  have hmem : Visit.of v.point v.index .stop ∈ timeline ps := mem_timeline_iff.2 ⟨hp, rfl⟩
  rw [hus, List.mem_append, List.mem_singleton] at hmem
  rcases hmem with hmem | hmem
  -- the end of its simpoint cannot have come before it
  · have hpw := timeline_marks ho
    rw [hus, List.pairwise_append] at hpw
    have hlt : Mark.stop.rank < v.mark.rank := hpw.2.2 _ hmem v (List.mem_singleton.2 rfl) rfl
    have hle : v.mark.rank ≤ Mark.stop.rank := by cases v.mark <;> decide
    omega
  · rw [← hmem, Visit.of]

/-- Before a visit its simpoint was visited at the marks before it. -/
theorem mem_of_prefix_timeline (ho : ∀ p ∈ ps, p.waypoints.Ordered) {us : List Visit}
    (h : us ++ [v] <+: timeline ps) {m : Mark} (hm : m.rank ≤ v.mark.rank) :
    Visit.of v.point v.index m ∈ us ++ [v] := by
  obtain ⟨rest, hr⟩ := h
  have hv : v ∈ timeline ps := by simp [← hr]
  have hmem : Visit.of v.point v.index m ∈ timeline ps :=
    mem_timeline_iff.2 ⟨(mem_timeline_iff.1 hv).1, rfl⟩
  rw [← hr, List.mem_append] at hmem
  rcases hmem with hmem | hmem
  · exact hmem
  -- a visit behind `v` has a later mark
  · have hpw := timeline_marks ho
    rw [← hr, List.pairwise_append] at hpw
    have hlt : v.mark.rank < m.rank := hpw.2.2 v (by simp) _ hmem rfl
    omega

/-! ## The visits at one mark -/

/-- The visits at a mark, in the order of the simpoints. -/
def visitsAt (ps : List Simpoint) (m : Mark) : List Visit :=
  ps.zipIdx.map fun (p, i) => Visit.of p i m

theorem filter_visits (ps : List Simpoint) (m : Mark) :
    (visits ps).filter (·.mark = m) = visitsAt ps m := by
  rw [visits, List.filter_flatMap, visitsAt, List.map_eq_flatMap]
  congr 1
  funext ⟨p, i⟩
  cases m <;> rfl

/-- **Every simpoint has one visit at each mark.** -/
theorem filter_timeline_perm (ps : List Simpoint) (m : Mark) :
    ((timeline ps).filter (·.mark = m)).Perm (visitsAt ps m) := by
  rw [← filter_visits]
  exact (timeline_perm ps).filter _

theorem visitsAt_pairwise (ps : List Simpoint) (m : Mark) :
    (visitsAt ps m).Pairwise Visit.Before := by
  rw [← filter_visits]
  exact (visits_pairwise ps).filter _

/-- **The visits at a mark** come by their waypoints too. -/
theorem filter_timeline (ps : List Simpoint) (m : Mark) :
    (timeline ps).filter (·.mark = m) = byWaypoint (visitsAt ps m) := by
  have hanti : ∀ u v : Visit, u ∈ (timeline ps).filter (·.mark = m) →
      v ∈ byWaypoint (visitsAt ps m) → u.Ahead v → v.Ahead u → u = v :=
    fun u v _ _ h h' => absurd h' h.asymm
  have hperm : (byWaypoint (visitsAt ps m)).Perm (visitsAt ps m) := List.mergeSort_perm _ _
  -- two lists of the same visits in one strict order
  refine List.Perm.eq_of_pairwise hanti ?_ ?_ ((filter_timeline_perm ps m).trans hperm.symm)
  · exact (timeline_pairwise ps).filter _
  · exact byWaypoint_pairwise (visitsAt_pairwise ps m)

theorem map_visitsAt {β : Type} (ps : List Simpoint) (m : Mark) (g : Simpoint → β) :
    (visitsAt ps m).map (fun v => g v.point) = ps.map g := by
  rw [visitsAt, List.map_map]
  show ps.zipIdx.map (g ∘ Prod.fst) = _
  rw [← List.map_map, List.zipIdx_map_fst]

/-- **At a mark the simpoints are visited by its waypoint**, and those at one waypoint in the order
of the list. -/
theorem map_filter_timeline {β : Type} (ps : List Simpoint) (m : Mark) (g : Simpoint → β) :
    ((timeline ps).filter (·.mark = m)).map (fun v => g v.point) =
      (ps.mergeSort fun p q => p.waypoints.at_ m ≤ q.waypoints.at_ m).map g := by
  have hpoints : (byWaypoint (visitsAt ps m)).map Visit.point =
      ps.mergeSort fun p q => p.waypoints.at_ m ≤ q.waypoints.at_ m := by
    have hall : (visitsAt ps m).map Visit.point = ps :=
      (map_visitsAt ps m id).trans (List.map_id ps)
    unfold byWaypoint
    rw [List.map_mergeSort, hall]
    intro u hu v hv
    obtain ⟨⟨p, i⟩, -, rfl⟩ := List.mem_map.1 hu
    obtain ⟨⟨q, j⟩, -, rfl⟩ := List.mem_map.1 hv
    rfl
  rw [filter_timeline, ← hpoints, List.map_map]
  rfl

end PhaseSampling
