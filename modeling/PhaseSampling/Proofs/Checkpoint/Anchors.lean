import PhaseSampling.Checkpoint
import PhaseSampling.Proofs.Engine.Simulated
import PhaseSampling.Proofs.FileTree.Links

/-!
# Checkpoints and their links

A driver puts a link for every checkpoint, in place of any that has the same long name.

* `Engine.OnlyAdds`: an engine that takes nothing away from the file tree. Simulated programs are of
  this kind (`Simulated.onlyAdds`).
* `Anchored`: the newest checkpoint of each long name has its link.
-/

namespace PhaseSampling

open PhaseSampling.Flow

/-! ## Engines that take nothing away -/

/-- An engine that takes nothing away from the file tree. -/
def Engine.OnlyAdds {σ : Type} (e : Engine σ) : Prop :=
  ∀ c a w, (e.answer c a w).2.2.files.Grown w.files

theorem Simulated.onlyAdds : Simulated.engine.OnlyAdds := by
  intro c a w
  cases c with
  | checkpoint path =>
    have hg := FileTree.makeDirs_grown w.files path
    show (a.checkpoint w path).2.2.files.Grown w.files
    rw [Simulated.checkpoint, World.change]
    rcases hm : w.files.makeDirs path with ⟨⟨⟩ | f, t⟩
    · rw [hm] at hg
      exact hg
    · rw [hm] at hg
      exact hg
  | _ => exact .refl _

section OnlyAdds

variable {σ α β : Type} {e : Engine σ}

/-- A flow that takes nothing away from the file tree. -/
def Flow.OnlyAdds (e : Engine σ) (x : Flow α) : Prop :=
  ∀ s, Ensures e x s fun _ s' => s'.world.files.Grown s.world.files

theorem Flow.OnlyAdds.pure (a : α) : Flow.OnlyAdds e (pure a) := fun _ => .pure (.refl _)

theorem Flow.OnlyAdds.fail (f : Fault) : Flow.OnlyAdds e (.fail f : Flow α) := fun _ => .fail

theorem Flow.OnlyAdds.bind {x : Flow α} {k : α → Flow β} (hx : Flow.OnlyAdds e x)
    (hk : ∀ a, Flow.OnlyAdds e (k a)) : Flow.OnlyAdds e (x >>= k) := by
  intro s
  refine (hx s).bind fun a s₁ h₁ => ?_
  exact (hk a s₁).imp fun b s₂ h₂ => h₂.trans h₁

theorem Flow.onlyAdds_call (he : e.OnlyAdds) (c : Call) : Flow.OnlyAdds e (call c) := by
  intro s
  refine .op fun r s' h => ?_
  have hs : s' = (s.ask e c).2 := (congrArg Prod.snd h).symm
  subst hs
  exact he c s.engine s.world

theorem Flow.onlyAdds_say (level : Level) (text : String) : Flow.OnlyAdds e (say level text) := by
  intro s
  refine .op fun r s' h => ?_
  cases h
  exact .refl _

end OnlyAdds

/-! ## Links -/

theorem World.link_eq_ok {w w' : World} {outdir short long path : String}
    (h : w.link outdir short long = (.ok path, w')) :
    w.files.relink short (joinPath outdir long) = (.ok (), w'.files) := by
  rcases hr : w.files.relink short (joinPath outdir long) with ⟨⟨⟩ | cause, t⟩
  · rw [link_of_relink_error hr] at h
    cases h
  · rw [link_of_relink hr] at h
    cases h
    rfl

theorem Flow.ensures_link {σ : Type} {e : Engine σ} (outdir short long : String) (s : Session σ) :
    Ensures e (link outdir short long) s fun _ s' =>
      s.world.files.relink short (joinPath outdir long) = (.ok (), s'.world.files) := by
  refine .op fun path s' h => ?_
  rw [Session.perform_link] at h
  rcases hw : s.world.link outdir short long with ⟨r, w⟩
  rw [hw] at h
  cases h
  exact World.link_eq_ok hw

/-! ## Anchored checkpoints -/

/-- In an output directory the newest checkpoint of each long name is reached by it. -/
structure Anchored (outdir : String) (cps : List Checkpoint) (t : FileTree) : Prop where
  single : ∀ cp ∈ cps, Single cp.long
  links : ∀ us cp vs, cps = us ++ cp :: vs → (∀ later ∈ vs, later.long ≠ cp.long) →
    t.LinksTo (joinPath outdir cp.long) cp.short

namespace Anchored

variable {outdir : String} {cps : List Checkpoint} {cp : Checkpoint} {t t' : FileTree}

theorem nil (outdir : String) (t : FileTree) : Anchored outdir [] t :=
  ⟨by simp, fun us cp vs h => by simp at h⟩

theorem grown (h : Anchored outdir cps t) (hg : t'.Grown t) : Anchored outdir cps t' :=
  ⟨h.single, fun us cp vs hcat hlast => (h.links us cp vs hcat hlast).grown hg⟩

/-- **A checkpoint more**, with its link. -/
theorem concat (h : Anchored outdir cps t) (hs : Single cp.long)
    (hr : t.relink cp.short (joinPath outdir cp.long) = (.ok (), t')) :
    Anchored outdir (cps ++ [cp]) t' := by
  refine ⟨?_, fun us other vs hcat hlast => ?_⟩
  · intro other ho
    rcases List.mem_append.1 ho with ho | ho
    · exact h.single other ho
    · rw [List.mem_singleton.1 ho]
      exact hs
  rcases List.eq_nil_or_concat vs with rfl | ⟨vs, last, rfl⟩
  -- the new one itself
  · obtain ⟨-, hcp⟩ := List.append_inj' hcat rfl
    cases hcp
    exact FileTree.linksTo_of_relink hs hr
  -- one that was there, with another long name than the new one
  · rw [List.concat_eq_append] at hcat hlast
    have hcat : cps ++ [cp] = (us ++ other :: vs) ++ [last] := by simpa using hcat
    obtain ⟨hcps, hcp⟩ := List.append_inj' hcat rfl
    cases hcp
    have hother : t.LinksTo (joinPath outdir other.long) other.short :=
      h.links us other vs hcps fun later hl => hlast later (List.mem_append_left _ hl)
    have hne : other.long ≠ cp.long := (hlast cp (by simp)).symm
    exact hother.relink hs (h.single other (by simp [hcps])) hne hr

/-- Where the long names are different, every checkpoint is reached by its own. -/
theorem linksTo (h : Anchored outdir cps t) (hn : (cps.map Checkpoint.long).Nodup)
    (hcp : cp ∈ cps) : t.LinksTo (joinPath outdir cp.long) cp.short := by
  obtain ⟨us, vs, hcat⟩ := List.append_of_mem hcp
  refine h.links us cp vs hcat fun later hl he => ?_
  rw [hcat, List.map_append, List.map_cons, List.nodup_append, List.nodup_cons] at hn
  exact hn.2.1.1 (he ▸ List.mem_map_of_mem hl)

end Anchored

end PhaseSampling
