import PhaseSampling.Proofs.Checkpoint.Anchors
import PhaseSampling.Proofs.Replay.Simulated

/-!
# How far a replay got

A replay over a simulated program may end at any visit. Those before it were completed, and each of
them, as well as the one that was not, has done something to the file tree.

* `Headway`, `ReplayConfig.headway`: the visits that were completed, by making them one at a time.
* `run_visitAll`: visits in turn end where their headway does.
* `ReplayConfig.Effect`: all that a visit can do to the file tree, completed or not, by
  `effect_visit`.
-/

namespace PhaseSampling

open PhaseSampling.Flow

/-- How far visits in turn got. -/
structure Headway (σ : Type) where
  /-- The visits that were completed. -/
  done : List Visit
  /-- The pass behind them. -/
  pass : Pass
  /-- The session in which the next visit failed, if there was one. -/
  session : Session σ

section Headway

variable {σ : Type}

/-- Makes visits one at a time, until one fails. -/
def ReplayConfig.headway (c : ReplayConfig) (e : Engine σ) (p : Pass) (s : Session σ) :
    List Visit → Headway σ
  | [] => ⟨[], p, s⟩
  | v :: vs =>
    match (visit c vs.isEmpty p v).run e s with
    | (.ok p', s') =>
      let rest := c.headway e p' s' vs
      { rest with done := v :: rest.done }
    | (.error _, s') => ⟨[], p, s'⟩

variable {c : ReplayConfig} {e : Engine σ} {p p' : Pass} {s s' : Session σ} {v : Visit}
  {vs : List Visit}

theorem ReplayConfig.headway_of_ok (h : (visit c vs.isEmpty p v).run e s = (.ok p', s')) :
    c.headway e p s (v :: vs) =
      ⟨v :: (c.headway e p' s' vs).done, (c.headway e p' s' vs).pass,
        (c.headway e p' s' vs).session⟩ := by
  rw [headway, h]

theorem ReplayConfig.headway_of_error {f : Fault}
    (h : (visit c vs.isEmpty p v).run e s = (.error f, s')) :
    c.headway e p s (v :: vs) = ⟨[], p, s'⟩ := by
  rw [headway, h]

theorem ReplayConfig.done_isPrefix (c : ReplayConfig) (e : Engine σ) (p : Pass) (s : Session σ)
    (vs : List Visit) : (c.headway e p s vs).done <+: vs := by
  induction vs generalizing p s with
  | nil => exact List.prefix_refl _
  | cons v vs ih =>
    rcases hv : (visit c vs.isEmpty p v).run e s with ⟨f | p', s'⟩
    · rw [headway_of_error hv]
      exact List.nil_prefix
    · rw [headway_of_ok hv]
      exact List.cons_prefix_cons.2 ⟨rfl, ih p' s'⟩

/-- **Visits in turn** end in the session of their headway. If they end well, all were
completed. -/
theorem run_visitAll (c : ReplayConfig) (e : Engine σ) (p : Pass) (s : Session σ)
    (vs : List Visit) :
    ((visitAll c p vs).run e s).2 = (c.headway e p s vs).session ∧
      ∀ q, ((visitAll c p vs).run e s).1 = .ok q →
        (c.headway e p s vs).done = vs ∧ (c.headway e p s vs).pass = q := by
  induction vs generalizing p s with
  | nil =>
    refine ⟨rfl, fun q hq => ?_⟩
    cases hq
    exact ⟨rfl, rfl⟩
  | cons v vs ih =>
    have hrun := run_bind e (visit c vs.isEmpty p v) (fun p' => visitAll c p' vs) s
    rw [visitAll]
    show ((Flow.bind _ _).run e s).2 = _ ∧ ∀ q, ((Flow.bind _ _).run e s).1 = _ → _
    rw [hrun]
    rcases hv : (visit c vs.isEmpty p v).run e s with ⟨f | p', s'⟩
    · rw [ReplayConfig.headway_of_error hv]
      refine ⟨rfl, fun q hq => ?_⟩
      cases hq
    · rw [ReplayConfig.headway_of_ok hv]
      obtain ⟨hs, hok⟩ := ih p' s'
      refine ⟨hs, fun q hq => ?_⟩
      obtain ⟨hdone, hpass⟩ := hok q hq
      exact ⟨congrArg (v :: ·) hdone, hpass⟩

end Headway

/-! ## What a visit does to the files -/

/-- A flow over a simulated program that leaves the files alone, also if it fails. -/
def Flow.Spares {α : Type} (x : Flow α) : Prop :=
  ∀ s : Session Simulated, (x.run Simulated.engine s).2.world.files = s.world.files

section Spares

variable {α β : Type}

theorem Flow.Spares.pure (a : α) : Flow.Spares (pure a : Flow α) := fun _ => rfl

theorem Flow.Spares.fail (f : Fault) : Flow.Spares (.fail f : Flow α) := fun _ => rfl

theorem Flow.Spares.bind {x : Flow α} {k : α → Flow β} (hx : x.Spares) (hk : ∀ a, (k a).Spares) :
    (x >>= k).Spares := by
  intro s
  have hs := hx s
  show ((x.bind k).run Simulated.engine s).2.world.files = _
  rw [run_bind]
  rcases hr : x.run Simulated.engine s with ⟨f | a, s'⟩
  · rw [hr] at hs
    exact hs
  · rw [hr] at hs
    exact (hk a s').trans hs

theorem spares_say (level : Level) (text : String) : (say level text).Spares := fun _ => rfl

theorem spares_advance (counter : Counter) (target : Nat) :
    (call (.advance counter target)).Spares := fun _ => rfl

/-- Running to a visit leaves the files alone. -/
theorem spares_reach (c : ReplayConfig) (last : Bool) (v : Visit) : (reach c last v).Spares := by
  unfold reach
  refine (spares_say _ _).bind fun _ => (spares_advance _ _).bind fun cause => ?_
  cases cause with
  | breakpoint => exact .pure true
  | completed =>
    dsimp only
    split
    · exact (spares_say _ _).bind fun _ => .pure false
    · exact .fail _
  | other text => exact .fail _

end Spares

section Operations

variable {s : Session Simulated} {t : FileTree} {cause : SystemFault} {path : String}

/-- A snapshot that can be taken is a new directory. -/
theorem yields_checkpoint (h : s.world.files.makeDirs path = (.ok (), t)) :
    Yields Simulated.engine (call (.checkpoint path)) s () (·.world.files = t) := by
  have ha : s.engine.checkpoint s.world path =
      (.ok (), { s.engine with checkpoints := s.engine.checkpoints.push (path, s.engine.inst) },
        { s.world with files := t }) := by
    rw [Simulated.checkpoint, World.change, h]
  refine .op ?_ ?_
  · show (s.engine.checkpoint s.world path).1 = _
    rw [ha]
  · show (s.engine.checkpoint s.world path).2.2.files = t
    rw [ha]

/-- One that cannot be taken may have made some of the directories above. -/
theorem fails_checkpoint (h : s.world.files.makeDirs path = (.error cause, t)) :
    Fails Simulated.engine (call (.checkpoint path)) s (.system cause) (·.world.files = t) := by
  have ha : s.engine.checkpoint s.world path =
      (.error (.system cause), s.engine, { s.world with files := t }) := by
    rw [Simulated.checkpoint, World.change, h]
  refine .op ?_ ?_
  · show (s.engine.checkpoint s.world path).1 = _
    rw [ha]
  · show (s.engine.checkpoint s.world path).2.2.files = t
    rw [ha]

variable {outdir short long : String}

theorem yields_link (h : s.world.files.relink short (joinPath outdir long) = (.ok (), t)) :
    Yields Simulated.engine (link outdir short long) s (joinPath outdir long)
      (·.world.files = t) := by
  have hw := World.link_of_relink h
  refine .op ?_ ?_
  · rw [Session.perform_link, hw]
  · rw [Session.perform_link, hw]
    rfl

theorem fails_link (h : s.world.files.relink short (joinPath outdir long) = (.error cause, t)) :
    Fails Simulated.engine (link outdir short long) s (.system cause) (·.world.files = t) := by
  have hw := World.link_of_relink_error h
  refine .op ?_ ?_
  · rw [Session.perform_link, hw]
  · rw [Session.perform_link, hw]

end Operations

/-- A checkpoint by which a simpoint is named whose warmup was read. -/
def Pass.Names (p : Pass) (v : Visit) (cp : Checkpoint) : Prop :=
  ∃ warmup interval stop, p.reading? v.index .warmup = some warmup ∧
    cp = v.point.checkpoint warmup interval stop

/-- All that a visit can do to the file tree. -/
inductive ReplayConfig.Effect (c : ReplayConfig) (p : Pass) (v : Visit) (t : FileTree) :
    Except Fault Pass → FileTree → Prop where
  /-- It fails before it comes to the files. -/
  | failed (f : Fault) : Effect c p v t (.error f) t
  | unsaved {cause : SystemFault} {t' : FileTree} (hm : v.mark = .warmup)
      (h : t.makeDirs (c.snapshotPath v) = (.error cause, t')) :
      Effect c p v t (.error (.system cause)) t'
  | saved (exited : Bool) (inst : Nat) {t' : FileTree} (hm : v.mark = .warmup)
      (h : t.makeDirs (c.snapshotPath v) = (.ok (), t')) :
      Effect c p v t (.ok (p.arrive v exited inst)) t'
  | passed (exited : Bool) (inst : Nat) (hm : v.mark = .interval) :
      Effect c p v t (.ok (p.arrive v exited inst)) t
  | unlinked (exited : Bool) (inst : Nat) {cp : Checkpoint} {cause : SystemFault} {t' : FileTree}
      (hm : v.mark = .stop) (hcp : (p.arrive v exited inst).Names v cp)
      (h : t.relink cp.short (joinPath c.outdir cp.long) = (.error cause, t')) :
      Effect c p v t (.error (.system cause)) t'
  | linked (exited : Bool) (inst : Nat) {cp : Checkpoint} {t' : FileTree}
      (hm : v.mark = .stop) (hcp : (p.arrive v exited inst).Names v cp)
      (h : t.relink cp.short (joinPath c.outdir cp.long) = (.ok (), t')) :
      Effect c p v t
        (.ok { p.arrive v exited inst with checkpoints := p.checkpoints.push cp }) t'

namespace ReplayConfig

variable {c : ReplayConfig} {p : Pass} {v : Visit} {s : Session Simulated} {r : Except Fault Pass}

/-- What is done where a visit has arrived. -/
theorem effect_settle (c : ReplayConfig) (p : Pass) (v : Visit) (exited : Bool) (inst : Nat)
    (s : Session Simulated) :
    ∃ r s', (settle c (p.arrive v exited inst) v).run Simulated.engine s = (r, s') ∧
      c.Effect p v s.world.files r s'.world.files := by
  unfold settle
  cases hm : v.mark with
  | warmup =>
    rcases hmake : s.world.files.makeDirs (c.snapshotPath v) with ⟨cause | ⟨⟩, t⟩
    · obtain ⟨s', hrun, rfl⟩ := Fails.bind (fails_checkpoint hmake) _
      exact ⟨_, s', hrun, .unsaved hm hmake⟩
    · have hdone : Yields Simulated.engine (do
            call (.checkpoint (c.snapshotPath v))
            call .stats
            say .info s!"pin-cpt: dumped checkpoint {v.point.name}"
            return p.arrive v exited inst) s (p.arrive v exited inst) (·.world.files = t) :=
        (yields_checkpoint hmake).bind fun s₁ hs₁ => ⟨_, rfl, hs₁⟩
      obtain ⟨s', hrun, rfl⟩ := hdone
      exact ⟨_, s', hrun, .saved exited inst hm hmake⟩
  | interval => exact ⟨_, s, rfl, .passed exited inst hm⟩
  | stop =>
    dsimp only
    unfold nameCheckpoint
    split
    · rename_i warmup interval stop hw _ _
      split
      · have hcp : (p.arrive v exited inst).Names v (v.point.checkpoint warmup interval stop) :=
          ⟨warmup, interval, stop, hw, rfl⟩
        generalize v.point.checkpoint warmup interval stop = cp at hcp
        rcases hl : s.world.files.relink cp.short (joinPath c.outdir cp.long) with ⟨cause | ⟨⟩, t⟩
        · obtain ⟨s', hrun, rfl⟩ := ((fails_link hl).bind _).bind _
          exact ⟨_, s', hrun, .unlinked exited inst hm hcp hl⟩
        · have hdone : Yields Simulated.engine (do
              let cp ← (do
                let _ ← link c.outdir cp.short cp.long
                return cp : Flow Checkpoint)
              return { p.arrive v exited inst with
                checkpoints := (p.arrive v exited inst).checkpoints.push cp }) s
              { p.arrive v exited inst with checkpoints := p.checkpoints.push cp }
              (·.world.files = t) :=
            .bind (.bind (yields_link hl) fun s₁ hs₁ => .pure hs₁) fun s₁ hs₁ => .pure hs₁
          obtain ⟨s', hrun, rfl⟩ := hdone
          exact ⟨_, s', hrun, .linked exited inst hm hcp hl⟩
      · exact ⟨_, s, rfl, .failed _⟩
    · exact ⟨_, s, rfl, .failed _⟩

/-- **A visit** has one of these effects on the files. -/
theorem effect_visit (c : ReplayConfig) (last : Bool) (p : Pass) (v : Visit)
    (s : Session Simulated) :
    c.Effect p v s.world.files ((visit c last p v).run Simulated.engine s).1
      ((visit c last p v).run Simulated.engine s).2.world.files := by
  have hreach := spares_reach c last v s
  rw [visit_eq]
  show c.Effect p v _ ((Flow.bind _ _).run _ _).1 ((Flow.bind _ _).run _ _).2.world.files
  rw [run_bind]
  rcases hr : (reach c last v).run Simulated.engine s with ⟨f | running, s₁⟩
  · rw [hr] at hreach
    rw [← hreach]
    exact .failed f
  · rw [hr] at hreach
    rw [← hreach]
    -- the count is answered, and then the visit has arrived
    have hcount : ∀ k : Nat → Flow Pass, ∃ s₂ : Session Simulated,
        s₂.world.files = s₁.world.files ∧
          (Flow.bind (call (.count .inst)) k).run Simulated.engine s₁ =
            (k s₁.engine.inst).run Simulated.engine s₂ := fun k =>
      ⟨(s₁.perform Simulated.engine (.call (.count .inst))).2, rfl, rfl⟩
    obtain ⟨s₂, hs₂, hrun⟩ := hcount fun inst => settle c (p.arrive v (!running) inst) v
    obtain ⟨r, s₃, hsettle, heffect⟩ := effect_settle c p v (!running) s₁.engine.inst s₂
    show c.Effect p v _ ((Flow.bind _ _).run _ _).1 ((Flow.bind _ _).run _ _).2.world.files
    rw [hrun, hsettle, ← hs₂]
    exact heffect

end ReplayConfig

/-! ## Whole replays -/

/-- What a replay does behind its last visit. -/
def finish (p : Pass) : Flow (List Checkpoint) := do
  if !p.exited then
    ofExcept ((← call .complete).expect .completed)
  return p.checkpoints.toList

theorem replay_eq {ps : List Simpoint} (hv : Simpoint.validate ps = .ok ()) (c : ReplayConfig) :
    replay c ps = visitAll c .start (timeline ps) >>= finish := by
  unfold replay
  rw [hv]
  rfl

theorem spares_finish (p : Pass) : (finish p).Spares := by
  unfold finish
  split
  · have hcomplete : (call .complete).Spares := fun _ => rfl
    refine hcomplete.bind fun cause => ?_
    unfold StopCause.expect
    split
    · exact .pure _
    · exact .fail _
  · exact .pure _

theorem ensures_finish (p : Pass) (s : Session Simulated) :
    Ensures Simulated.engine (finish p) s fun cps _ => cps = p.checkpoints.toList := by
  unfold finish
  split
  · refine Ensures.bind (R := fun _ _ => True) (fun _ _ _ => trivial) fun cause s₁ _ => ?_
    exact .ofExcept_bind fun _ _ => .pure rfl
  · exact .pure rfl

/-- The headway of a replay. -/
def ReplayConfig.headwayOf (c : ReplayConfig) (ps : List Simpoint) (s : Session Simulated) :
    Headway Simulated :=
  c.headway Simulated.engine .start s (timeline ps)

/-- **A replay** leaves the files as its headway does. If it ends well, all of its visits were
completed. -/
theorem run_replay {c : ReplayConfig} {ps : List Simpoint} {s s' : Session Simulated}
    {r : Except Fault (List Checkpoint)} (hv : Simpoint.validate ps = .ok ())
    (h : (replay c ps).run Simulated.engine s = (r, s')) :
    s'.world.files = (c.headwayOf ps s).session.world.files ∧
      ∀ cps, r = .ok cps → (c.headwayOf ps s).done = timeline ps ∧
        (c.headwayOf ps s).pass.checkpoints.toList = cps := by
  obtain ⟨hsession, hok⟩ := run_visitAll c Simulated.engine .start s (timeline ps)
  rw [replay_eq hv] at h
  have h : ((visitAll c .start (timeline ps)).bind finish).run Simulated.engine s = (r, s') := h
  rw [run_bind] at h
  unfold ReplayConfig.headwayOf
  rcases hrun : (visitAll c .start (timeline ps)).run Simulated.engine s with ⟨f | p, s₁⟩
  · rw [hrun] at h hsession
    cases h
    refine ⟨congrArg (·.world.files) hsession, fun cps hr => ?_⟩
    cases hr
  · rw [hrun] at h hsession hok
    obtain ⟨hdone, hpass⟩ := hok p rfl
    rw [← hsession, hpass]
    have hfiles := spares_finish p s₁
    have h : (finish p).run Simulated.engine s₁ = (r, s') := h
    rw [h] at hfiles
    refine ⟨hfiles, fun cps hr => ⟨hdone, ?_⟩⟩
    subst hr
    exact (ensures_finish p s₁ cps s' h).symm

end PhaseSampling
