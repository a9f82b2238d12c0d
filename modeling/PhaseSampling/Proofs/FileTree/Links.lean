import PhaseSampling.Proofs.FileTree.Entry

/-!
# Links in a directory

* `FileTree.LinksTo`: the link that stands at a path, and what to.
* `FileTree.Grown`: a tree with more nodes. Links stay in it.
* `FileTree.MadeDirs`: the ways that making directories can go, by `FileTree.madeDirs`. It leads to a
  tree with more nodes.
* `FileTree.relink_steps`, `FileTree.relink_eq_ok`: what putting a link does, and what it has done when
  it did not fail.
* `FileTree.LinksTo.relink`: the other links of the directory stay.
-/

namespace PhaseSampling

open Text

variable {dir name : String}

/-- The route of an entry, also of the directory that paths start from. -/
theorem Route.of_entry (h : Single name) :
    Route.of (joinPath dir name) =
      ⟨(Route.of dir).absolute, (Route.of dir).names ++ [name], false⟩ := by
  by_cases hd : dir = ""
  · subst hd
    have hjoin : joinPath "" name = name := by simp [joinPath]
    have hslash : name.endsWith "/" = false := by
      rw [← Bool.not_eq_true, endsWith_slash_iff]
      exact fun hs => h.2 (hs.subset (List.mem_singleton.2 rfl))
    have hempty : "".startsWith "/" = false := by
      rw [← Bool.not_eq_true, startsWith_slash_iff]
      decide
    have hnames : ((pieces '/' name.toList).filter (· ≠ [])).map String.ofList = [name] := by
      show (pathNames name.toList).map String.ofList = [name]
      rw [pathNames_single h]
      simp
    rw [hjoin, Route.of, Route.of, h.not_startsWith, hslash, hempty, hnames]
    rfl
  · exact Route.of_joinPath hd h

namespace FileTree

variable {t t' t'' : FileTree} {d d' : Place} {path target : String}

/-! ## Trees that grow -/

/-- A tree with the nodes of another one and the same place to start from. -/
structure Grown (t' t : FileTree) : Prop where
  home : t'.home = t.home
  more : t'.Extends t

theorem Grown.refl (t : FileTree) : t.Grown t := ⟨rfl, fun _ _ h => h⟩

theorem Grown.trans (h' : t''.Grown t') (h : t'.Grown t) : t''.Grown t :=
  ⟨h'.home.trans h.home, fun p n hp => h'.more p n (h.more p n hp)⟩

theorem ne_nil_of_get? {p : Place} (h : t.get? p = none) : p ≠ [] := by
  rintro rfl
  simp [get?] at h

theorem grown_put {p : Place} (h : t.get? p = none) (n : Node) : (t.put p n).Grown t := by
  refine ⟨rfl, fun q m hq => ?_⟩
  have hne : q ≠ p := by
    rintro rfl
    rw [h] at hq
    cases hq
  rw [get?_put t (ne_nil_of_get? h), if_neg hne]
  exact hq

theorem grown_erase {p : Place} (hp : p ≠ []) : t.Grown (t.erase p) := by
  refine ⟨rfl, fun q m hq => ?_⟩
  rw [get?_erase t hp] at hq
  split at hq
  · cases hq
  · exact hq

/-! ## Where a path enters a directory -/

theorem entrance_eq_some_iff {name : String} {slash : Bool} :
    t.entrance path = .ok (some (d, name, slash)) ↔
      pathFault? path = none ∧
      (∃ links, t.Walk maxLinks (t.origin (Route.of path)) (Route.of path).names.dropLast links d) ∧
      t.isDir d = true ∧ (Route.of path).names.getLast? = some name ∧ Proper name ∧
      (Route.of path).slash = slash := by
  constructor
  · intro h
    rw [entrance] at h
    split at h
    · cases h
    rename_i hf
    simp only at h
    split at h
    · cases h
    rename_i e hw
    split at h
    · cases h
    rename_i hd
    split at h
    · cases h
    rename_i last hlast
    split at h
    · cases h
    rename_i hdots
    split at h
    · cases h
    rename_i hsize
    cases h
    simp only [Bool.or_eq_true, decide_eq_true_eq, not_or] at hdots
    have hp : Proper name := ⟨hdots.1, hdots.2, Nat.not_lt.1 hsize⟩
    exact ⟨hf, follow_eq_ok_iff.1 hw, by simpa using hd, hlast, hp, rfl⟩
  · rintro ⟨hf, hw, hd, hlast, hp, rfl⟩
    rw [entrance, hf]
    simp only [follow_eq_ok_iff.2 hw, hd, hlast]
    simp [hp.1, hp.2.1, hp.2.2]

/-- A path still enters the same directory in a tree that has grown. -/
theorem entrance_grown {name : String} {slash : Bool} (hg : t'.Grown t)
    (h : t.entrance path = .ok (some (d, name, slash))) :
    t'.entrance path = .ok (some (d, name, slash)) := by
  rw [entrance_eq_some_iff] at h ⊢
  obtain ⟨hf, ⟨links, hw⟩, hd, hrest⟩ := h
  refine ⟨hf, ⟨links, ?_⟩, hg.more.isDir hd, hrest⟩
  rw [origin, hg.home]
  exact hw.mono hg.more

/-- The directory that the names of a path lead to. -/
def Leads (t : FileTree) (dir : String) (d : Place) : Prop :=
  (∃ links, t.Walk maxLinks (t.origin (Route.of dir)) (Route.of dir).names links d) ∧
    t.isDir d = true

theorem Leads.unique (h : t.Leads dir d) (h' : t.Leads dir d') : d = d' := by
  have hf := follow_eq_ok_iff.2 h.1
  rw [follow_eq_ok_iff.2 h'.1] at hf
  exact (Except.ok.inj hf).symm

theorem Leads.grown (hg : t'.Grown t) (h : t.Leads dir d) : t'.Leads dir d := by
  obtain ⟨⟨links, hw⟩, hd⟩ := h
  refine ⟨⟨links, ?_⟩, hg.more.isDir hd⟩
  rw [origin, hg.home]
  exact hw.mono hg.more

/-- **The path of an entry** enters the directory. -/
theorem entrance_entry_iff (hs : Single name) {last : String} {slash : Bool} :
    t.entrance (joinPath dir name) = .ok (some (d, last, slash)) ↔
      pathFault? (joinPath dir name) = none ∧ t.Leads dir d ∧ Proper name ∧ last = name ∧
        slash = false := by
  rw [entrance_eq_some_iff, Route.of_entry hs, Leads]
  simp only [List.dropLast_concat, List.getLast?_concat, Option.some.injEq, origin]
  constructor
  · rintro ⟨hf, hw, hd, rfl, hp, rfl⟩
    exact ⟨hf, ⟨hw, hd⟩, hp, rfl, rfl⟩
  · rintro ⟨hf, ⟨hw, hd⟩, hp, rfl, rfl⟩
    exact ⟨hf, hw, hd, rfl, hp, rfl⟩

/-! ## Links -/

/-- A path is that of a link to a target. -/
def LinksTo (t : FileTree) (path target : String) : Prop :=
  ∃ d name, t.entrance path = .ok (some (d, name, false)) ∧
    t.get? (d ++ [name]) = some (.link target)

/-- Links stay in a tree that grows. -/
theorem LinksTo.grown (hg : t'.Grown t) (h : t.LinksTo path target) : t'.LinksTo path target := by
  obtain ⟨d, name, he, hl⟩ := h
  exact ⟨d, name, entrance_grown hg he, hg.more _ _ hl⟩

theorem linksTo_entry_iff (hs : Single name) :
    t.LinksTo (joinPath dir name) target ↔
      pathFault? (joinPath dir name) = none ∧ Proper name ∧
        ∃ d, t.Leads dir d ∧ t.get? (d ++ [name]) = some (.link target) := by
  constructor
  · rintro ⟨d, last, he, hl⟩
    obtain ⟨hf, hd, hp, rfl, -⟩ := (entrance_entry_iff hs).1 he
    exact ⟨hf, hp, d, hd, hl⟩
  · rintro ⟨hf, hp, d, hd, hl⟩
    exact ⟨d, name, (entrance_entry_iff hs).2 ⟨hf, hd, hp, rfl, rfl⟩, hl⟩

theorem remove_eq_ok (h : t.remove path = .ok t') :
    ∃ d name, t.entrance path = .ok (some (d, name, false)) ∧ t' = t.erase (d ++ [name]) := by
  rw [remove] at h
  split at h
  · cases h
  · cases h
  · rename_i d name slash he
    simp only at h
    split at h
    · cases h
    · cases h
    · cases slash with
      | true => cases h
      | false =>
        cases h
        exact ⟨d, name, he, rfl⟩

theorem makeLink_eq_ok (h : t.makeLink target path = .ok t') :
    ∃ d name, t.entrance path = .ok (some (d, name, false)) ∧ t.get? (d ++ [name]) = none ∧
      t' = t.put (d ++ [name]) (.link target) := by
  rw [makeLink] at h
  split at h
  · cases h
  · split at h
    · cases h
    · cases h
    · rename_i d name slash he
      simp only at h
      split at h
      · cases h
      · rename_i hnone
        cases slash with
        | true => cases h
        | false =>
          cases h
          exact ⟨d, name, he, by simpa using hnone, rfl⟩

/-- What putting a link does: a node may be removed, and then the link is made. -/
theorem relink_steps {r : Except SystemFault Unit} (h : t.relink target path = (r, t')) :
    ∃ t₁, (t₁ = t ∨ t.remove path = .ok t₁) ∧
      (r = .ok () ∧ t₁.makeLink target path = .ok t' ∨
        ∃ f, r = .error f ∧ t₁.makeLink target path = .error f ∧ t' = t₁) := by
  rw [relink] at h
  cases hr : t.remove path with
  | error cause =>
    refine ⟨t, .inl rfl, ?_⟩
    simp only [hr] at h
    split at h <;> cases h
    · exact .inl ⟨rfl, ‹_›⟩
    · exact .inr ⟨_, rfl, ‹_›, rfl⟩
  | ok t₁ =>
    refine ⟨t₁, .inr rfl, ?_⟩
    simp only [hr] at h
    split at h <;> cases h
    · exact .inl ⟨rfl, ‹_›⟩
    · exact .inr ⟨_, rfl, ‹_›, rfl⟩

/-- **A link that was put** stands in the directory, and nothing else has changed. -/
theorem relink_eq_ok (hs : Single name)
    (h : t.relink target (joinPath dir name) = (.ok (), t')) :
    pathFault? (joinPath dir name) = none ∧ Proper name ∧ ∃ d, t.Leads dir d ∧ t'.Leads dir d ∧
      ∀ q, t'.get? q = if q = d ++ [name] then some (.link target) else t.get? q := by
  -- `t₁` is the tree after the removal
  obtain ⟨t₁, hfrom, hmake⟩ := relink_steps h
  have hlink : t₁.makeLink target (joinPath dir name) = .ok t' := by
    rcases hmake with ⟨-, hl⟩ | ⟨f, hr, -⟩
    · exact hl
    · cases hr
  obtain ⟨d, last, he, hnone, rfl⟩ := makeLink_eq_ok hlink
  obtain ⟨hf, hd, hp, rfl, -⟩ := (entrance_entry_iff hs).1 he
  have hne : d ++ [last] ≠ [] := by simp
  refine ⟨hf, hp, d, ?_, hd.grown (grown_put hnone _), fun q => ?_⟩
  · rcases hfrom with rfl | hr
    · exact hd
    · obtain ⟨e, name, -, rfl⟩ := remove_eq_ok hr
      exact hd.grown (grown_erase (by simp))
  · rw [get?_put _ hne]
    rcases hfrom with rfl | hr
    · rfl
    -- what was removed stood where the link is now
    · obtain ⟨e, name, he', rfl⟩ := remove_eq_ok hr
      obtain ⟨-, hd', -, rfl, -⟩ := (entrance_entry_iff hs).1 he'
      have hde : d = e := (hd.grown (grown_erase (by simp))).unique hd'
      subst hde
      rw [get?_erase _ hne]
      by_cases hq : q = d ++ [name]
      · rw [if_pos hq, if_pos hq]
      · rw [if_neg hq, if_neg hq, if_neg hq]

/-- A link that was put is there. -/
theorem linksTo_of_relink (hs : Single name)
    (h : t.relink target (joinPath dir name) = (.ok (), t')) :
    t'.LinksTo (joinPath dir name) target := by
  obtain ⟨hf, hp, d, -, hd, hg⟩ := relink_eq_ok hs h
  exact (linksTo_entry_iff hs).2 ⟨hf, hp, d, hd, by rw [hg, if_pos rfl]⟩

/-- **The other links stay** when a link is put in their directory. -/
theorem LinksTo.relink {other old : String} (hs : Single name) (ho : Single other)
    (hne : other ≠ name) (hl : t.LinksTo (joinPath dir other) old)
    (h : t.relink target (joinPath dir name) = (.ok (), t')) :
    t'.LinksTo (joinPath dir other) old := by
  obtain ⟨-, -, d, hd, hd', hg⟩ := relink_eq_ok hs h
  obtain ⟨hf, hp, e, he, hl⟩ := (linksTo_entry_iff ho).1 hl
  have hde : d = e := hd.unique he
  subst hde
  refine (linksTo_entry_iff ho).2 ⟨hf, hp, d, hd', ?_⟩
  rw [hg, if_neg (by simpa using hne)]
  exact hl

/-! ## Directories -/

theorem makeDir_grown (h : t.makeDir path = .ok t') : t'.Grown t := by
  rw [makeDir] at h
  split at h
  · cases h
  · cases h
  · simp only at h
    split at h
    · cases h
    · rename_i hnone
      cases h
      exact grown_put (by simpa using hnone) _

/-- The ways that making a directory and those above it can go. -/
inductive MadeDirs (t : FileTree) :
    String → List String → Except SystemFault Unit → FileTree → Prop where
  | made {path : String} {t' : FileTree} (above : List String) (h : t.makeDir path = .ok t') :
      MadeDirs t path above (.ok ()) t'
  /-- Nothing is made. This is no failure if the directory was there. -/
  | kept {path : String} {r : Except SystemFault Unit} (above : List String)
      (h : r = .ok () → t.isDirPath path = true) : MadeDirs t path above r t
  | madeAfter {path parent : String} {above : List String} {r₁ : Except SystemFault Unit}
      {t₁ t' : FileTree} (hup : MadeDirs t parent above r₁ t₁) (h : t₁.makeDir path = .ok t') :
      MadeDirs t path (parent :: above) (.ok ()) t'
  /-- Only those above it are made. -/
  | keptAfter {path parent : String} {above : List String} {r r₁ : Except SystemFault Unit}
      {t₁ : FileTree} (hup : MadeDirs t parent above r₁ t₁)
      (h : r = .ok () → t₁.isDirPath path = true) : MadeDirs t path (parent :: above) r t₁

theorem isDirPath_of_ok {f : SystemFault}
    (h : (if t.isDirPath path then .ok () else .error f : Except SystemFault Unit) = .ok ()) :
    t.isDirPath path = true := by
  split at h
  · assumption
  · cases h

theorem madeDirs (t : FileTree) (path : String) (above : List String) :
    t.MadeDirs path above (t.makeDirsBelow path above).1 (t.makeDirsBelow path above).2 := by
  induction above generalizing path with
  | nil =>
    rw [makeDirsBelow]
    split
    · exact .made _ ‹_›
    · exact .kept _ (by simp)
    · exact .kept _ isDirPath_of_ok
  | cons parent above ih =>
    rw [makeDirsBelow]
    split
    · exact .made _ ‹_›
    · by_cases hp : parent = ""
      -- the place that paths start from is not made
      · simp only [if_pos hp]
        split
        · exact .made _ ‹_›
        · exact .kept _ isDirPath_of_ok
      · simp only [if_neg hp]
        have hup := ih parent
        split
        · rename_i hfail
          rw [hfail] at hup
          exact .keptAfter hup (by simp)
        · rename_i hdone
          rw [hdone] at hup
          split
          · exact .madeAfter hup ‹_›
          · exact .keptAfter hup isDirPath_of_ok
    · exact .kept _ isDirPath_of_ok

theorem MadeDirs.grown {above : List String} {r : Except SystemFault Unit}
    (h : t.MadeDirs path above r t') : t'.Grown t := by
  induction h with
  | made above h => exact makeDir_grown h
  | kept above h => exact .refl t
  | madeAfter hup h ih => exact (makeDir_grown h).trans ih
  | keptAfter hup h ih => exact ih

/-- **Making directories** takes nothing away, also where it fails on the way. -/
theorem makeDirs_grown (t : FileTree) (path : String) : (t.makeDirs path).2.Grown t := by
  rw [makeDirs]
  split
  · exact .refl t
  · exact (t.madeDirs path (parents path)).grown

end FileTree

end PhaseSampling
