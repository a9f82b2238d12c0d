import PhaseSampling.Proofs.Checkpoint.Names

/-!
# Snapshots and links in an output directory

A `Shelf` is an output directory that was empty and now holds snapshots and links to them. Another
snapshot can be put there, and another link in place of any link that is there.
-/

namespace PhaseSampling

open FileTree

/-- The tree `t` is `t₀` with snapshots and links in the directory `d`. -/
structure Shelf (t₀ : FileTree) (d : Place) (t : FileTree) : Prop where
  home : t.home = t₀.home
  more : t.Extends t₀
  entry : ∀ name, t.get? (d ++ [name]) = none ∨
    (t.get? (d ++ [name]) = some .dir ∧ ¬ Linked name) ∨
    ((∃ target, t.get? (d ++ [name]) = some (.link target)) ∧ Linked name)

namespace Shelf

variable {t₀ t : FileTree} {d : Place} {dir name target : String}

theorem of_empty (he : ∀ name, t₀.get? (d ++ [name]) = none) : Shelf t₀ d t₀ :=
  ⟨rfl, fun _ _ h => h, fun name => .inl (he name)⟩

theorem opens (hs : Shelf t₀ d t) (h : t₀.Opens dir d) : t.Opens dir d := h.mono hs.more hs.home

/-- A change of one entry, which was not there at first. -/
theorem change (hs : Shelf t₀ d t) (he : ∀ name, t₀.get? (d ++ [name]) = none) {t' : FileTree}
    (hh : t'.home = t.home) {n : Option Node}
    (hg : ∀ q, t'.get? q = if q = d ++ [name] then n else t.get? q)
    (hn : n = none ∨ (n = some .dir ∧ ¬ Linked name) ∨
      ((∃ target, n = some (.link target)) ∧ Linked name)) : Shelf t₀ d t' := by
  refine ⟨hh.trans hs.home, fun q m hq => ?_, fun other => ?_⟩
  · have hne : q ≠ d ++ [name] := by
      rintro rfl
      rw [he] at hq
      cases hq
    rw [hg, if_neg hne]
    exact hs.more q m hq
  · rw [hg]
    by_cases ho : other = name
    · rw [ho, if_pos rfl]
      exact hn
    · rw [if_neg (by simpa using ho)]
      exact hs.entry other

/-- A snapshot or a link more. -/
theorem put (hs : Shelf t₀ d t) (he : ∀ name, t₀.get? (d ++ [name]) = none) {n : Node}
    (hn : (n = .dir ∧ ¬ Linked name) ∨ ((∃ target, n = .link target) ∧ Linked name)) :
    Shelf t₀ d (t.put (d ++ [name]) n) := by
  refine hs.change he rfl (get?_put t (by simp) n) (.inr ?_)
  simpa using hn

/-- A link less. -/
theorem erase (hs : Shelf t₀ d t) (he : ∀ name, t₀.get? (d ++ [name]) = none) (name : String) :
    Shelf t₀ d (t.erase (d ++ [name])) :=
  hs.change he rfl (get?_erase t (by simp)) (.inl rfl)

/-- **A snapshot can be put there.** -/
theorem snapshot (hs : Shelf t₀ d t) (he : ∀ name, t₀.get? (d ++ [name]) = none)
    (h : t₀.Opens dir d) (hf : Fits dir name) (hl : ¬ Linked name) :
    ∃ t', t.makeDirs (joinPath dir name) = (.ok (), t') ∧ Shelf t₀ d t' := by
  rcases hs.entry name with hg | ⟨hg, -⟩ | ⟨-, hl'⟩
  · exact ⟨_, makeDirs_joinPath (hs.opens h) hf hg, hs.put he (.inl ⟨rfl, hl⟩)⟩
  · exact ⟨_, makeDirs_joinPath_of_dir (hs.opens h) hf hg, hs⟩
  · exact absurd hl' hl

/-- **A link can be put there.** -/
theorem link (hs : Shelf t₀ d t) (he : ∀ name, t₀.get? (d ++ [name]) = none)
    (h : t₀.Opens dir d) (hf : Fits dir name) (hl : Linked name)
    (ht : pathFault? target = none) :
    ∃ t', t.relink target (joinPath dir name) = (.ok (), t') ∧ Shelf t₀ d t' := by
  rcases hs.entry name with hg | ⟨-, hl'⟩ | ⟨⟨old, hg⟩, -⟩
  · exact ⟨_, relink_joinPath (hs.opens h) hf ht hg, hs.put he (.inr ⟨⟨target, rfl⟩, hl⟩)⟩
  · exact absurd hl hl'
  · have hs' := hs.erase he name
    exact ⟨_, relink_joinPath_of_link (hs.opens h) (hs'.opens h) hf ht hg,
      hs'.put he (.inr ⟨⟨target, rfl⟩, hl⟩)⟩

end Shelf

end PhaseSampling
