import PhaseSampling.Proofs.Checkpoint.Anchors
import PhaseSampling.Proofs.Checkpoint.Labels
import PhaseSampling.Proofs.Replay.Schedule

/-!
# The links of a replay

The long names of the checkpoints of a replay tell them apart by their labels.

* `replay_anchored`: a replay that ends well leaves its checkpoints anchored, over any engine that
  takes nothing away from the file tree.
* `replay_links_own`: where no two names are numerals of one number, every checkpoint has a long name
  and a link of its own.
-/

namespace PhaseSampling

open PhaseSampling.Flow

theorem Simpoint.single_long {p : Simpoint} (h : '/' ∉ p.name.toList) (warmup interval stop : Nat) :
    Single (p.checkpoint warmup interval stop).long :=
  single_longName (slash_notMem_simpointLabel h) (plain_weightText p.weight).1

/-! ## Replays -/

section Replay

variable {σ : Type} {e : Engine σ} {c : ReplayConfig} {p : Pass} {v : Visit} {s : Session σ}
  {ps : List Simpoint}

theorem onlyAdds_reach (he : e.OnlyAdds) (c : ReplayConfig) (last : Bool) (v : Visit) :
    Flow.OnlyAdds e (reach c last v) := by
  rw [reach]
  refine (onlyAdds_say _ _).bind fun _ => ?_
  refine (onlyAdds_call he _).bind fun cause => ?_
  cases cause with
  | breakpoint => exact .pure true
  | completed =>
    cases last with
    | true => exact (onlyAdds_say _ _).bind fun _ => .pure false
    | false => exact .fail _
  | other text => exact .fail _

theorem ensures_nameCheckpoint (c : ReplayConfig) (p : Pass) (v : Visit) (s : Session σ) :
    Ensures e (nameCheckpoint c p v) s fun cp s' =>
      (∃ warmup interval stop, cp = v.point.checkpoint warmup interval stop) ∧
        s.world.files.relink cp.short (joinPath c.outdir cp.long) = (.ok (), s'.world.files) := by
  rw [nameCheckpoint]
  split
  · rename_i warmup interval stop _ _ _
    split
    · refine (ensures_link _ _ _ s).bind fun path s' h => ?_
      exact .pure ⟨⟨warmup, interval, stop, rfl⟩, h⟩
    · exact .fail
  · exact .fail

theorem ensures_visit (he : e.OnlyAdds) (last : Bool) (hn : '/' ∉ v.point.name.toList)
    (h : Anchored c.outdir p.checkpoints.toList s.world.files) :
    Ensures e (visit c last p v) s fun p' s' =>
      Anchored c.outdir p'.checkpoints.toList s'.world.files := by
  rw [visit_eq]
  refine (onlyAdds_reach he c last v s).bind fun running s₁ h₁ => ?_
  refine (onlyAdds_call he (.count .inst) s₁).bind fun inst s₂ h₂ => ?_
  have h := h.grown (h₂.trans h₁)
  rw [settle]
  cases v.mark with
  | warmup =>
    refine (onlyAdds_call he _ s₂).bind fun _ s₃ h₃ => ?_
    refine (onlyAdds_call he _ s₃).bind fun _ s₄ h₄ => ?_
    refine (onlyAdds_say _ _ s₄).bind fun _ s₅ h₅ => ?_
    exact .pure (h.grown ((h₅.trans h₄).trans h₃))
  | interval => exact .pure h
  | stop =>
    refine (ensures_nameCheckpoint c _ v s₂).bind fun cp s₃ h₃ => ?_
    obtain ⟨⟨warmup, interval, stop, rfl⟩, hr⟩ := h₃
    refine .pure ?_
    rw [Array.toList_push]
    exact h.concat (Simpoint.single_long hn warmup interval stop) hr

theorem ensures_visitAll (he : e.OnlyAdds) {vs : List Visit}
    (hn : ∀ v ∈ vs, '/' ∉ v.point.name.toList)
    (h : Anchored c.outdir p.checkpoints.toList s.world.files) :
    Ensures e (visitAll c p vs) s fun p' s' =>
      Anchored c.outdir p'.checkpoints.toList s'.world.files := by
  induction vs generalizing p s with
  | nil => exact .pure h
  | cons v vs ih =>
    rw [visitAll]
    refine (ensures_visit he vs.isEmpty (hn v (List.mem_cons_self ..)) h).bind fun p' s' h' => ?_
    exact ih (fun u hu => hn u (List.mem_cons_of_mem _ hu)) h'

/-- **A replay leaves its checkpoints anchored.** -/
theorem replay_anchored (he : e.OnlyAdds) (hn : ∀ p ∈ ps, '/' ∉ p.name.toList) (s : Session σ) :
    Ensures e (replay c ps) s fun cps s' => Anchored c.outdir cps s'.world.files := by
  have hvisits : ∀ v ∈ timeline ps, '/' ∉ v.point.name.toList := fun v hv => hn _ (point_mem hv)
  rw [replay]
  refine .ofExcept_bind fun _ _ => ?_
  refine (ensures_visitAll he hvisits (.nil _ _)).bind fun p s' h => ?_
  split
  · refine (onlyAdds_call he .complete s').bind fun cause s₂ h₂ => ?_
    exact .ofExcept_bind fun _ _ => .pure (h.grown h₂)
  · exact .pure h

end Replay

/-! ## Long names -/

theorem Simpoint.labels_nodup {ps : List Simpoint} (hn : (ps.map Simpoint.name).Nodup)
    (hnum : ps.Pairwise fun p q => ¬ SameNumber p.name q.name) :
    (ps.map fun p => simpointLabel p.name).Nodup := by
  rw [List.Nodup, List.pairwise_map] at hn ⊢
  refine (hn.and hnum).imp fun {p q} ⟨hne, hns⟩ he => ?_
  rcases (simpointLabel_eq_iff _ _).1 he with h | h
  · exact hne h
  · exact hns h

/-- The checkpoints of a replay have different long names if their labels are different. -/
theorem ReplayConfig.Finished.long_nodup {c : ReplayConfig} {ps : List Simpoint}
    {count : Nat → Mark → Nat} {exited : Bool} {l : List Exchange} {cps : List Checkpoint}
    (h : c.Finished ps count exited l cps)
    (hl : (ps.map fun p => simpointLabel p.name).Nodup) : (cps.map Checkpoint.long).Nodup := by
  have hlabels : (cps.map fun cp => simpointLabel cp.name).Nodup := by
    have hp := h.names.map simpointLabel
    rw [List.map_map, List.map_map] at hp
    exact hp.nodup_iff.2 hl
  have hform : ∀ cp ∈ cps, ∃ p warmup interval stop,
      cp = Simpoint.checkpoint p warmup interval stop := by
    intro cp hcp
    rw [h.checkpoints] at hcp
    obtain ⟨v, -, rfl⟩ := List.mem_map.1 hcp
    exact ⟨_, _, _, _, rfl⟩
  rw [List.Nodup, List.pairwise_map] at hlabels ⊢
  refine hlabels.imp_of_mem fun {a b} ha hb hne he => hne ?_
  obtain ⟨p, _, _, _, rfl⟩ := hform a ha
  obtain ⟨q, _, _, _, rfl⟩ := hform b hb
  exact ((longName_inj_iff (underscore_notMem_weightText _) (underscore_notMem_weightText _)).1
    he).1

/-- **Every simpoint has its own link.** In a valid list whose names have no slash, and of which no
two are numerals of one number, the long names of the checkpoints of a replay that ended well are
different, and each is that of a link to the checkpoint's own snapshot, whatever the file tree held
before. -/
theorem replay_links_own {c : ReplayConfig} {ps : List Simpoint} {s s' : Session Simulated}
    {cps : List Checkpoint} (hv : Simpoint.validate ps = .ok ())
    (hslash : ∀ p ∈ ps, '/' ∉ p.name.toList)
    (hnum : ps.Pairwise fun p q => ¬ SameNumber p.name q.name)
    (h : (replay c ps).run Simulated.engine s = (.ok cps, s')) :
    (cps.map Checkpoint.long).Nodup ∧
      ∀ cp ∈ cps, s'.world.files.LinksTo (joinPath c.outdir cp.long) cp.short := by
  have hanchored : Anchored c.outdir cps s'.world.files :=
    replay_anchored Simulated.onlyAdds hslash s cps s' h
  obtain ⟨l, hc, -, -⟩ := exists_course_of_ok h
  obtain ⟨count, exited, hfin⟩ := (course_replay hc).finished
  have hnames := (Simpoint.validate_eq_ok_iff.1 hv).1
  have hlong := hfin.long_nodup (Simpoint.labels_nodup hnames hnum)
  exact ⟨hlong, fun cp hcp => hanchored.linksTo hlong hcp⟩

/-- Two simpoints at the same waypoints. -/
theorem replay_links_own_two :
    ∃ cps s', (replay ⟨"/", .inst, 0⟩
        [⟨"a", ⟨0⟩, ⟨1, 2, 4⟩, some 0⟩, ⟨"01", ⟨0⟩, ⟨1, 2, 4⟩, some 1⟩]).run
        Simulated.engine (.fresh (.program 10 1 [])) = (.ok cps, s') ∧
      (cps.map Checkpoint.long).Nodup ∧
      ∀ cp ∈ cps, s'.world.files.LinksTo (joinPath "/" cp.long) cp.short := by
  have hv : Simpoint.validate
      [⟨"a", ⟨0⟩, ⟨1, 2, 4⟩, some 0⟩, ⟨"01", ⟨0⟩, ⟨1, 2, 4⟩, some 1⟩] = .ok () := by rfl
  obtain ⟨s', hrun⟩ := replay_root 10 hv (by decide) (by decide +kernel)
  have hnum : ¬ SameNumber "a" "01" := by
    rintro ⟨n, ha, -⟩
    have hnone : Text.readWord? "a".toList = none := by decide
    rw [hnone] at ha
    cases ha
  obtain ⟨hlong, hlinks⟩ := replay_links_own hv (by simp) (by simpa using hnum) hrun
  exact ⟨_, s', hrun, hlong, hlinks⟩

end PhaseSampling
