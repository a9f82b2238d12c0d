import PhaseSampling.Proofs.FileTree.Directories
import PhaseSampling.Proofs.Replay.Links
import PhaseSampling.Proofs.Replay.Headway

/-!
# What survives a replay

A replay may fail at any of its visits. Whatever was in the file tree is still there then, and so are
the snapshots and links of the visits that were completed.

* `ReplayConfig.Held`: a file tree with some snapshots and links, and otherwise as it was.
* `ReplayConfig.Apart`: snapshots and links that do not get in each other's way.
* `ReplayConfig.Kept.effect`, `ReplayConfig.Kept.headway`: **one visit**, and visits in turn, keep all
  that was there.
* `replay_keeps_work`: **a replay** does, however it ends.
-/

namespace PhaseSampling

open PhaseSampling.Flow

variable {c : ReplayConfig} {t t' t'' : FileTree} {ps saved : List Simpoint}
  {cps : List Checkpoint} {cp : Checkpoint}

namespace ReplayConfig

/-- A file tree `t'` that holds the snapshots of some simpoints and the links of some checkpoints, and
is otherwise as `t`, but for the directories on the way. The links may stand in place of files and of
other links. -/
structure Held (c : ReplayConfig) (t t' : FileTree) (saved : List Simpoint)
    (cps : List Checkpoint) : Prop where
  home : t'.home = t.home
  straight : t'.Straight c.outdir
  /-- Every snapshot is a directory. -/
  snapshots : ∀ p ∈ saved, t'.Holds (joinPath c.outdir (shortName p.name))
    (t.lexical c.outdir ++ [shortName p.name]) .dir
  /-- Every checkpoint has its link. -/
  links : ∀ cp ∈ cps, t'.Holds (joinPath c.outdir cp.long) (t.lexical c.outdir ++ [cp.long])
    (.link cp.short)
  /-- What was there is there unchanged, or a link has taken its place. Directories are. -/
  kept : ∀ q n, t.get? q = some n →
    t'.get? q = some n ∨ n ≠ .dir ∧ ∃ cp ∈ cps, q = t.lexical c.outdir ++ [cp.long]
  /-- Nothing else is new. -/
  new : ∀ q n, t'.get? q = some n → t.get? q = some n ∨
    n = .dir ∧ (t.OnWay c.outdir q ∨ ∃ p ∈ saved, q = t.lexical c.outdir ++ [shortName p.name]) ∨
    ∃ cp ∈ cps, q = t.lexical c.outdir ++ [cp.long]

theorem Held.refl (hs : t.Straight c.outdir) : c.Held t t [] [] where
  home := rfl
  straight := hs
  snapshots := by simp
  links := by simp
  kept _ _ h := .inl h
  new _ _ h := .inl h

/-- More directories, on the way to the output directory and for more snapshots. -/
theorem Held.paved (more : List Simpoint) {places : Place → Prop} (h : c.Held t t' saved cps)
    (hp : t''.Paved t' places)
    (hplaces : ∀ q, places q →
      t.OnWay c.outdir q ∨ ∃ p ∈ more, q = t.lexical c.outdir ++ [shortName p.name])
    (hmore : ∀ p ∈ more, t''.Holds (joinPath c.outdir (shortName p.name))
      (t.lexical c.outdir ++ [shortName p.name]) .dir) :
    c.Held t t'' (saved ++ more) cps where
  home := hp.grown.home.trans h.home
  straight := hp.straight h.straight
  snapshots p hmem := by
    rcases List.mem_append.1 hmem with hmem | hmem
    · exact (h.snapshots p hmem).grown hp.grown
    · exact hmore p hmem
  links cp hcp := (h.links cp hcp).grown hp.grown
  kept q n hq := (h.kept q n hq).imp (hp.grown.more q n) id
  new q n hq := by
    rcases hp.only q n hq with hold | ⟨hn, hplace⟩
    · rcases h.new q n hold with hold | ⟨hn, hplace⟩ | hlink
      · exact .inl hold
      · refine .inr (.inl ⟨hn, hplace.imp id ?_⟩)
        rintro ⟨p, hmem, rfl⟩
        exact ⟨p, List.mem_append_left _ hmem, rfl⟩
      · exact .inr (.inr hlink)
    · refine .inr (.inl ⟨hn, (hplaces q hplace).imp id ?_⟩)
      rintro ⟨p, hmem, rfl⟩
      exact ⟨p, List.mem_append_right _ hmem, rfl⟩

/-- One more link, under a name that none of the others has. -/
theorem Held.linked (h : c.Held t t' saved cps) (hs : Single cp.long)
    (hsaved : ∀ p ∈ saved, Single (shortName p.name) ∧ shortName p.name ≠ cp.long)
    (hlong : ∀ cp' ∈ cps, Single cp'.long ∧ cp'.long ≠ cp.long)
    (hl : t'.relink cp.short (joinPath c.outdir cp.long) = (.ok (), t'')) :
    c.Held t t'' saved (cps ++ [cp]) := by
  obtain ⟨hf, hproper, d, hd, hd', hget⟩ := FileTree.relink_eq_ok hs hl
  have hplace : d = t.lexical c.outdir := by
    rw [hd.eq_lexical h.straight, FileTree.lexical_congr h.home]
  subst hplace
  have hfree := FileTree.get?_ne_dir_of_relink hs hl hd
  have hput : t''.Holds (joinPath c.outdir cp.long) (t.lexical c.outdir ++ [cp.long])
      (.link cp.short) :=
    (FileTree.holds_entry_iff hs).2 ⟨hf, hproper, _, hd', rfl, by rw [hget, if_pos rfl]⟩
  refine ⟨(FileTree.relink_home hl).trans h.home, h.straight.relink hs hl, ?_, ?_, ?_, ?_⟩
  · intro p hmem
    exact (h.snapshots p hmem).relink hs (hsaved p hmem).1 (hsaved p hmem).2 hl
  · intro cp' hmem
    rcases List.mem_append.1 hmem with hmem | hmem
    · exact (h.links cp' hmem).relink hs (hlong cp' hmem).1 (hlong cp' hmem).2 hl
    · rw [List.mem_singleton.1 hmem]
      exact hput
  · intro q n hq
    rcases h.kept q n hq with hq | ⟨hn, cp', hmem, rfl⟩
    · by_cases hplace : q = t.lexical c.outdir ++ [cp.long]
      · refine .inr ⟨?_, cp, by simp, hplace⟩
        rintro rfl
        exact hfree (hplace ▸ hq)
      · rw [hget, if_neg hplace]
        exact .inl hq
    · exact .inr ⟨hn, cp', List.mem_append_left _ hmem, rfl⟩
  · intro q n hq
    rw [hget] at hq
    split at hq
    · rename_i hplace
      exact .inr (.inr ⟨cp, by simp, hplace⟩)
    · rcases h.new q n hq with hq | hq | ⟨cp', hmem, rfl⟩
      · exact .inl hq
      · exact .inr (.inl hq)
      · exact .inr (.inr ⟨cp', List.mem_append_left _ hmem, rfl⟩)

/-- Simpoints whose snapshots and links do not get in each other's way, in an output directory to
which a straight path leads and which has no link in the place of a snapshot. -/
structure Apart (c : ReplayConfig) (ps : List Simpoint) (t : FileTree) : Prop where
  plain : ∀ p ∈ ps, Plain p.name
  /-- No snapshot has the name of a link. -/
  unlike : ∀ p ∈ ps, ¬ "simpoint_".toList <+: p.name.toList
  labels : (ps.map fun p => simpointLabel p.name).Nodup
  straight : t.Straight c.outdir
  unlinked : ∀ p ∈ ps, ∀ target,
    t.get? (t.lexical c.outdir ++ [shortName p.name]) ≠ some (.link target)

end ReplayConfig

/-- The simpoints that were visited at a mark. -/
def pointsAt (vs : List Visit) (m : Mark) : List Simpoint :=
  (vs.filter (·.mark = m)).map Visit.point

variable {v : Visit} {m : Mark}

theorem pointsAt_concat_of_eq (vs : List Visit) (hm : v.mark = m) :
    pointsAt (vs ++ [v]) m = pointsAt vs m ++ [v.point] := by
  unfold pointsAt
  rw [List.filter_append, List.map_append, List.filter_cons_of_pos (by simpa using hm)]
  rfl

theorem pointsAt_concat_of_ne (vs : List Visit) (hm : v.mark ≠ m) :
    pointsAt (vs ++ [v]) m = pointsAt vs m := by
  unfold pointsAt
  rw [List.filter_append, List.filter_cons_of_neg (by simpa using hm), List.filter_nil,
    List.append_nil]

theorem mem_pointsAt_iff {vs : List Visit} {p : Simpoint} :
    p ∈ pointsAt vs m ↔ ∃ v ∈ vs, v.mark = m ∧ v.point = p := by
  simp [pointsAt, and_assoc]

theorem mem_of_pointsAt {vs : List Visit} {p : Simpoint} (hvs : vs <+: timeline ps)
    (hp : p ∈ pointsAt vs m) : p ∈ ps := by
  obtain ⟨v, hv, -, rfl⟩ := mem_pointsAt_iff.1 hp
  exact point_mem (hvs.subset hv)

/-- The checkpoint of a simpoint, from any counts. -/
def Simpoint.Made (p : Simpoint) (cp : Checkpoint) : Prop :=
  ∃ warmup interval stop, cp = p.checkpoint warmup interval stop

namespace ReplayConfig

/-- What was kept when some visits were completed. -/
structure Kept (c : ReplayConfig) (t : FileTree) (done : List Visit) (p : Pass) (t' : FileTree) :
    Prop where
  held : c.Held t t' (pointsAt done .warmup) p.checkpoints.toList
  made : List.Forall₂ Simpoint.Made (pointsAt done .stop) p.checkpoints.toList
  /-- What was read was visited. -/
  read : ∀ i m n, p.reading? i m = some n → ∃ v ∈ done, v.index = i ∧ v.mark = m

variable {done : List Visit} {p : Pass} {r : Except Fault Pass} {exited : Bool} {inst : Nat}

theorem Kept.of_mem (h : c.Kept t done p t') (hcp : cp ∈ p.checkpoints.toList) :
    ∃ u ∈ done, u.mark = .stop ∧ u.point.Made cp := by
  obtain ⟨i, hi, rfl⟩ := List.getElem_of_mem hcp
  have hlen : i < (pointsAt done .stop).length := by
    rw [h.made.length_eq]
    exact hi
  obtain ⟨u, hu, hm, hpoint⟩ := mem_pointsAt_iff.1 (List.getElem_mem hlen)
  refine ⟨u, hu, hm, ?_⟩
  rw [hpoint]
  exact h.made.get hlen hi

theorem Kept.read_arrive (h : c.Kept t done p t') (exited : Bool) (inst : Nat) {i n : Nat}
    {m : Mark} (hr : (p.arrive v exited inst).reading? i m = some n) :
    ∃ u ∈ done ++ [v], u.index = i ∧ u.mark = m := by
  rw [Pass.reading?_arrive] at hr
  split at hr
  · exact ⟨v, by simp, by assumption⟩
  · obtain ⟨u, hu, hk⟩ := h.read i m n hr
    exact ⟨u, List.mem_append_left _ hu, hk⟩

theorem Apart.short_ne_long (hc : c.Apart ps t) {q q' : Simpoint} (hq : q ∈ ps)
    (hcp : q'.Made cp) : shortName q.name ≠ cp.long := by
  obtain ⟨warmup, interval, stop, rfl⟩ := hcp
  intro he
  refine hc.unlike q hq ((linked_shortName_iff q.name).1 ?_)
  rw [he]
  exact linked_longName ..

/-- No snapshot's place is taken by a link. -/
theorem Kept.get?_ne_link (h : c.Kept t done p t') (hc : c.Apart ps t) {q : Simpoint} (hq : q ∈ ps)
    (target : String) :
    t'.get? (t'.lexical c.outdir ++ [shortName q.name]) ≠ some (.link target) := by
  rw [FileTree.lexical_congr h.held.home]
  intro hg
  rcases h.held.new _ _ hg with hg | ⟨hn, -⟩ | ⟨cp, hcp, hplace⟩
  · exact hc.unlinked q hq target hg
  · cases hn
  · obtain ⟨u, -, -, hmade⟩ := h.of_mem hcp
    exact hc.short_ne_long hq hmade (by simpa using hplace)

/-- A simpoint that can be named has a snapshot. -/
theorem Kept.mem_of_names (h : c.Kept t done p t') (hpre : done ++ [v] <+: timeline ps)
    (hm : v.mark = .stop) (hcp : (p.arrive v exited inst).Names v cp) : v.point ∈ pointsAt done .warmup := by
  obtain ⟨warmup, interval, stop, hr, -⟩ := hcp
  rw [Pass.reading?_arrive, if_neg (by simp [hm])] at hr
  obtain ⟨u, hu, hi, hmark⟩ := h.read _ _ _ hr
  refine mem_pointsAt_iff.2 ⟨u, hu, hmark, ?_⟩
  have hup := (mem_timeline_iff.1 (hpre.subset (List.mem_append_left _ hu))).1
  have hvp := (mem_timeline_iff.1 (hpre.subset (by simp : v ∈ done ++ [v]))).1
  rw [hi, hvp] at hup
  exact (Option.some.inj hup).symm

/-- The snapshot of a simpoint can be the target of a link. -/
theorem Kept.target (h : c.Kept t done p t') (hc : c.Apart ps t) {q : Simpoint} (hq : q ∈ ps)
    (hmem : q ∈ pointsAt done .warmup) : pathFault? (shortName q.name) = none := by
  have hholds := h.held.snapshots q hmem
  obtain ⟨-, hproper, -⟩ :=
    (FileTree.holds_entry_iff (single_shortName (hc.plain q hq).1)).1 hholds
  exact pathFault?_shortName (hc.plain q hq) hproper.2.2

/-- The links so far have other names than the one of a visit that comes after them. -/
theorem Kept.long_ne (h : c.Kept t done p t') (hc : c.Apart ps t)
    (hpre : done ++ [v] <+: timeline ps) (hm : v.mark = .stop) {cp' : Checkpoint}
    (hcp : v.point.Made cp) (hcp' : cp' ∈ p.checkpoints.toList) :
    Single cp'.long ∧ cp'.long ≠ cp.long := by
  obtain ⟨u, hu, hmu, hmade⟩ := h.of_mem hcp'
  have hu' : u ∈ timeline ps := hpre.subset (List.mem_append_left _ hu)
  have hv' : v ∈ timeline ps := hpre.subset (by simp)
  obtain ⟨_, _, _, rfl⟩ := hcp
  obtain ⟨_, _, _, rfl⟩ := hmade
  refine ⟨Simpoint.single_long (hc.plain _ (point_mem hu')).1 .., fun he => ?_⟩
  have hlabel : simpointLabel u.point.name = simpointLabel v.point.name :=
    ((longName_inj_iff (underscore_notMem_weightText _) (underscore_notMem_weightText _)).1 he).1
  -- so they are visits of one simpoint at one mark
  have hindex : u.index = v.index := by
    have hgu := congrArg (Option.map fun p => simpointLabel p.name) (mem_timeline_iff.1 hu').1
    have hgv := congrArg (Option.map fun p => simpointLabel p.name) (mem_timeline_iff.1 hv').1
    rw [← List.getElem?_map, Option.map_some] at hgu hgv
    obtain ⟨hlt, -⟩ := List.getElem?_eq_some_iff.1 hgu
    refine (List.getElem?_inj hlt hc.labels).1 ?_
    rw [hgu, hgv, hlabel]
  have hkeys := (nodup_keys_timeline ps).sublist (hpre.sublist.map _)
  rw [List.map_append, List.nodup_append] at hkeys
  exact hkeys.2.2 u.key (List.mem_map_of_mem hu) v.key (by simp) (Prod.ext hindex (hmu.trans hm.symm))

/-- Making the directory of a snapshot adds it, and directories on the way to it. -/
theorem Kept.paved (h : c.Kept t done p t') (hc : c.Apart ps t) (hpoint : v.point ∈ ps)
    {r : Except SystemFault Unit} (hmake : t'.makeDirs (c.snapshotPath v) = (r, t'')) :
    (t''.Paved t' fun q => (r = .ok () ∧ q = t.lexical c.outdir ++ [shortName v.point.name]) ∨
      t.OnWay c.outdir q) ∧
    (r = .ok () → t''.Holds (joinPath c.outdir (shortName v.point.name))
      (t.lexical c.outdir ++ [shortName v.point.name]) .dir) := by
  have hshort : Single (shortName v.point.name) := single_shortName (hc.plain _ hpoint).1
  have hdots := (dots_of_cpt (cpt_prefix_shortName v.point.name)).2
  have hfree := h.get?_ne_link hc hpoint
  obtain ⟨hpaved, hholds⟩ := FileTree.makeDirs_entry hshort hdots h.held.straight hfree hmake
  rw [FileTree.lexical_congr h.held.home] at hpaved hholds
  refine ⟨hpaved.imp fun q hq => hq.imp id ?_, hholds⟩
  exact (FileTree.onWay_congr h.held.home c.outdir q).1

/-- A snapshot that fails may leave directories on the way to it. -/
theorem Kept.of_unsaved (h : c.Kept t done p t') (hc : c.Apart ps t) (hpoint : v.point ∈ ps)
    {cause : SystemFault} (hmake : t'.makeDirs (c.snapshotPath v) = (.error cause, t'')) :
    c.Kept t done p t'' := by
  obtain ⟨hpaved, -⟩ := h.paved hc hpoint hmake
  refine ⟨?_, h.made, h.read⟩
  have hheld := h.held.paved [] hpaved ?_ (by simp)
  · rwa [List.append_nil] at hheld
  · rintro q (⟨hok, -⟩ | hway)
    · cases hok
    · exact .inl hway

/-- A snapshot that was taken is there. -/
theorem Kept.of_saved (h : c.Kept t done p t') (hc : c.Apart ps t) (hpoint : v.point ∈ ps)
    (hm : v.mark = .warmup) (hmake : t'.makeDirs (c.snapshotPath v) = (.ok (), t'')) :
    c.Kept t (done ++ [v]) (p.arrive v exited inst) t'' := by
  obtain ⟨hpaved, hholds⟩ := h.paved hc hpoint hmake
  refine ⟨?_, ?_, fun i m n => h.read_arrive exited inst⟩
  · rw [pointsAt_concat_of_eq done hm]
    refine h.held.paved [v.point] hpaved ?_ ?_
    · rintro q (⟨-, rfl⟩ | hway)
      · exact .inr ⟨v.point, by simp, rfl⟩
      · exact .inl hway
    · intro q hq
      rw [List.mem_singleton.1 hq]
      exact hholds rfl
  · rw [pointsAt_concat_of_ne done (by simp [hm])]
    exact h.made

/-- Passing the beginning of an interval changes nothing. -/
theorem Kept.of_passed (h : c.Kept t done p t') (hm : v.mark = .interval) :
    c.Kept t (done ++ [v]) (p.arrive v exited inst) t' := by
  refine ⟨?_, ?_, fun i m n => h.read_arrive exited inst⟩
  · rw [pointsAt_concat_of_ne done (by simp [hm])]
    exact h.held
  · rw [pointsAt_concat_of_ne done (by simp [hm])]
    exact h.made

/-- A link that cannot be put leaves everything as it was. -/
theorem Kept.of_unlinked (h : c.Kept t done p t') (hc : c.Apart ps t)
    (hpre : done ++ [v] <+: timeline ps) (hm : v.mark = .stop)
    (hcp : (p.arrive v exited inst).Names v cp) {cause : SystemFault}
    (hl : t'.relink cp.short (joinPath c.outdir cp.long) = (.error cause, t'')) :
    c.Kept t done p t'' := by
  have hpoint : v.point ∈ ps := point_mem (hpre.subset (by simp))
  have htarget := h.target hc hpoint (h.mem_of_names hpre hm hcp)
  obtain ⟨warmup, interval, stop, -, rfl⟩ := hcp
  have hlong := Simpoint.single_long (hc.plain _ hpoint).1 warmup interval stop
  rw [FileTree.relink_eq_error hlong htarget h.held.straight hl]
  exact h

/-- A link that was put is there, and those of the other simpoints stay. -/
theorem Kept.of_linked (h : c.Kept t done p t') (hc : c.Apart ps t)
    (hpre : done ++ [v] <+: timeline ps) (hm : v.mark = .stop)
    (hcp : (p.arrive v exited inst).Names v cp)
    (hl : t'.relink cp.short (joinPath c.outdir cp.long) = (.ok (), t'')) :
    c.Kept t (done ++ [v]) { p.arrive v exited inst with checkpoints := p.checkpoints.push cp }
      t'' := by
  have hpoint : v.point ∈ ps := point_mem (hpre.subset (by simp))
  obtain ⟨warmup, interval, stop, -, hcp⟩ := hcp
  have hmade : v.point.Made cp := ⟨warmup, interval, stop, hcp⟩
  have hlong : Single cp.long :=
    hcp ▸ Simpoint.single_long (hc.plain _ hpoint).1 warmup interval stop
  refine ⟨?_, ?_, fun i m n => h.read_arrive exited inst⟩
  · rw [pointsAt_concat_of_ne done (by simp [hm]), Array.toList_push]
    refine h.held.linked hlong ?_ (fun cp' hcp' => h.long_ne hc hpre hm hmade hcp') hl
    intro q hq
    have hq := mem_of_pointsAt ((List.prefix_append _ _).trans hpre) hq
    exact ⟨single_shortName (hc.plain q hq).1, hc.short_ne_long hq hmade⟩
  · rw [pointsAt_concat_of_eq done hm, Array.toList_push]
    exact List.rel_append h.made (.cons hmade .nil)

/-- **One visit** keeps all that was there. If it is completed, it adds its snapshot or its link. -/
theorem Kept.effect (h : c.Kept t done p t') (hc : c.Apart ps t)
    (hpre : done ++ [v] <+: timeline ps) (he : c.Effect p v t' r t'') :
    (∀ f, r = .error f → c.Kept t done p t'') ∧
      ∀ p', r = .ok p' → c.Kept t (done ++ [v]) p' t'' := by
  have hpoint : v.point ∈ ps := point_mem (hpre.subset (by simp))
  cases he with
  | failed f =>
    refine ⟨fun _ _ => h, fun p' hp' => ?_⟩
    cases hp'
  | unsaved hm hmake =>
    refine ⟨fun _ _ => h.of_unsaved hc hpoint hmake, fun p' hp' => ?_⟩
    cases hp'
  | unlinked exited inst hm hcp hl =>
    refine ⟨fun _ _ => h.of_unlinked hc hpre hm hcp hl, fun p' hp' => ?_⟩
    cases hp'
  | saved exited inst hm hmake =>
    refine ⟨fun f hf => ?_, fun p' hp' => ?_⟩
    · cases hf
    · cases hp'
      exact h.of_saved hc hpoint hm hmake
  | passed exited inst hm =>
    refine ⟨fun f hf => ?_, fun p' hp' => ?_⟩
    · cases hf
    · cases hp'
      exact h.of_passed hm
  | linked exited inst hm hcp hl =>
    refine ⟨fun f hf => ?_, fun p' hp' => ?_⟩
    · cases hf
    · cases hp'
      exact h.of_linked hc hpre hm hcp hl

/-- **Visits in turn** keep all that was there, up to the one that fails. -/
theorem Kept.headway {s : Session Simulated} {vs : List Visit}
    (h : c.Kept t done p s.world.files) (hc : c.Apart ps t) (hcat : done ++ vs = timeline ps) :
    c.Kept t (done ++ (c.headway Simulated.engine p s vs).done)
      (c.headway Simulated.engine p s vs).pass
      (c.headway Simulated.engine p s vs).session.world.files := by
  induction vs generalizing done p s with
  | nil =>
    rw [ReplayConfig.headway, List.append_nil]
    exact h
  | cons v vs ih =>
    have hpre : done ++ [v] <+: timeline ps := ⟨vs, by simpa using hcat⟩
    obtain ⟨herror, hok⟩ := h.effect hc hpre (effect_visit c vs.isEmpty p v s)
    rcases hrun : (visit c vs.isEmpty p v).run Simulated.engine s with ⟨f | p', s'⟩
    · rw [hrun] at herror
      rw [headway_of_error hrun, List.append_nil]
      exact herror f rfl
    · rw [hrun] at hok
      rw [headway_of_ok hrun]
      have hrest := ih (hok p' rfl) (by simpa using hcat)
      rwa [List.append_assoc] at hrest

end ReplayConfig

open ReplayConfig

/-- **Work already in the file tree survives any failure of a replay.** -/
theorem replay_keeps_work {s s' : Session Simulated} {r : Except Fault (List Checkpoint)}
    (hv : Simpoint.validate ps = .ok ()) (hc : c.Apart ps s.world.files)
    (h : (replay c ps).run Simulated.engine s = (r, s')) :
    (c.headwayOf ps s).done <+: timeline ps ∧
      (∀ cps, r = .ok cps → (c.headwayOf ps s).done = timeline ps ∧
        (c.headwayOf ps s).pass.checkpoints.toList = cps) ∧
      List.Forall₂ Simpoint.Made (pointsAt (c.headwayOf ps s).done .stop)
        (c.headwayOf ps s).pass.checkpoints.toList ∧
      c.Held s.world.files s'.world.files (pointsAt (c.headwayOf ps s).done .warmup)
        (c.headwayOf ps s).pass.checkpoints.toList := by
  obtain ⟨hfiles, hok⟩ := run_replay hv h
  have hstart : c.Kept s.world.files [] .start s.world.files :=
    ⟨.refl hc.straight, .nil, fun _ _ _ hr => by simp [Pass.reading?, Pass.start] at hr⟩
  have hkept := hstart.headway hc (List.nil_append (timeline ps))
  rw [List.nil_append] at hkept
  rw [hfiles]
  exact ⟨c.done_isPrefix _ _ _ _, hok, hkept.made, hkept.held⟩

/-- Two simpoints, the second of which begins where the first one ends. -/
def neighbours : List Simpoint :=
  [⟨"0", ⟨0⟩, ⟨0, 1, 2⟩, some 0⟩, ⟨"1", ⟨0⟩, ⟨2, 3, 4⟩, some 1⟩]

theorem handy_neighbours : ∀ p ∈ neighbours, p.Handy 1 := by decide +kernel

/-- A program that exits behind the warmup of the second one. -/
theorem replay_keeps_work_early :
    ∃ s', (replay ⟨"/", .inst, 0⟩ neighbours).run Simulated.engine
        (.fresh (.program 3 1 [])) = (.error (.exitedEarly .inst 3), s') ∧
      ∃ m, m = (⟨"/", .inst, 0⟩ : ReplayConfig).headwayOf neighbours (.fresh (.program 3 1 [])) ∧
        m.done <+: timeline neighbours ∧
        List.Forall₂ Simpoint.Made (pointsAt m.done .stop) m.pass.checkpoints.toList ∧
        (⟨"/", .inst, 0⟩ : ReplayConfig).Held (.bare []) s'.world.files (pointsAt m.done .warmup)
          m.pass.checkpoints.toList := by
  have hv : Simpoint.validate neighbours = .ok () := by rfl
  have hnone : ∀ p target, (FileTree.bare []).get? p ≠ some (.link target) := by
    intro p target hg
    unfold FileTree.get? at hg
    split at hg <;> cases hg
  have hc : (⟨"/", .inst, 0⟩ : ReplayConfig).Apart neighbours (.bare []) :=
    ⟨fun p hp => (handy_neighbours p hp).plain, fun p hp => (handy_neighbours p hp).apart,
      by decide +kernel, fun p _ => hnone p, fun p _ => hnone _⟩
  have htimeline : timeline neighbours =
      (visits neighbours).take 4 ++ ⟨3, .interval, 1, neighbours[1]⟩ :: (visits neighbours).drop 5 :=
    timeline_eq_visits (by decide)
  have hsmall : ∀ u ∈ (visits neighbours).take 4, u.mark = .stop →
      Small "/" (u.point.exact 1).long := by
    intro u hu _
    have hu : u ∈ timeline neighbours := by
      rw [htimeline]
      exact List.mem_append_left _ hu
    exact small_root (handy_neighbours _ (point_mem hu)).long
  obtain ⟨s', hrun, -⟩ := replay_early hv (ReplayConfig.vacant_root .inst 0) htimeline (by decide)
    (by decide) (by decide) (fun p hp => (handy_neighbours p hp).storable) hsmall
    (Session.shelved_fresh 3 1 [])
  obtain ⟨hpre, -, hmade, hheld⟩ := replay_keeps_work hv hc hrun
  exact ⟨s', hrun, _, rfl, hpre, hmade, hheld⟩

end PhaseSampling
