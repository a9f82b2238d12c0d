import PhaseSampling.Proofs.FileTree.Straight

/-!
# Making directories

What making a directory with all that is missing above it does to a tree, also where it fails on the
way.

* `FileTree.Paved`: a tree with more directories, and nothing else that is new.
* `FileTree.MadeDirs.paved`: only the directories above a path are made, and at last the one at its
  end.
* `FileTree.makeDirs_entry`: **a new entry of a directory**. If there was no link, it is a directory.
-/

namespace PhaseSampling

open Text

variable {dir name : String}

namespace FileTree

variable {t t' : FileTree} {links : Nat} {p q d : Place}

/-- A tree with more directories, all of them at certain places. -/
structure Paved (t' t : FileTree) (places : Place → Prop) : Prop where
  grown : t'.Grown t
  only : ∀ q n, t'.get? q = some n → t.get? q = some n ∨ n = .dir ∧ places q

theorem Paved.refl (t : FileTree) (places : Place → Prop) : t.Paved t places :=
  ⟨.refl t, fun _ _ h => .inl h⟩

theorem Paved.trans {t'' : FileTree} {places places' : Place → Prop} (h' : t''.Paved t' places')
    (h : t'.Paved t places) : t''.Paved t fun p => places p ∨ places' p := by
  refine ⟨h'.grown.trans h.grown, fun q n hq => ?_⟩
  rcases h'.only q n hq with hq | ⟨hn, hp⟩
  · rcases h.only q n hq with hq | ⟨hn, hp⟩
    · exact .inl hq
    · exact .inr ⟨hn, .inl hp⟩
  · exact .inr ⟨hn, .inr hp⟩

theorem Paved.imp {places places' : Place → Prop} (h : t'.Paved t places)
    (hp : ∀ p, places p → places' p) : t'.Paved t places' :=
  ⟨h.grown, fun q n hq => (h.only q n hq).imp id fun ⟨hn, hq⟩ => ⟨hn, hp q hq⟩⟩

/-- No link is new. -/
theorem Paved.get?_ne_link {places : Place → Prop} (h : t'.Paved t places)
    (hp : ∀ target, t.get? p ≠ some (.link target)) (target : String) :
    t'.get? p ≠ some (.link target) := by
  intro hg
  rcases h.only p _ hg with hg | ⟨hn, -⟩
  · exact hp target hg
  · cases hn

theorem Paved.straight {places : Place → Prop} (h : t'.Paved t places) (hs : t.Straight dir) :
    t'.Straight dir := by
  intro p hp target
  rw [onWay_congr h.grown.home] at hp
  exact h.get?_ne_link (hs p hp) target

/-- No link stands on the way of a path, but for its end. -/
def Passable (t : FileTree) (path : String) : Prop :=
  t.Clear (t.origin (Route.of path)) (Route.of path).names.dropLast

theorem Paved.passable {path : String} {places : Place → Prop} (h : t'.Paved t places)
    (ho : t.Passable path) : t'.Passable path := by
  intro names hn target
  have horigin : t'.origin (Route.of path) = t.origin (Route.of path) := by
    rw [origin, origin, h.grown.home]
  rw [horigin]
  exact h.get?_ne_link (ho names hn) target

/-- A directory is made at the end of its path. -/
theorem makeDir_paved {path : String} (h : t.makeDir path = .ok t') (ho : t.Passable path) :
    t'.Paved t (· = t.lexical path) := by
  rw [makeDir] at h
  split at h
  · cases h
  · cases h
  rename_i d name slash he
  simp only at h
  split at h
  · cases h
  rename_i hnone
  cases h
  obtain ⟨-, ⟨links, hw⟩, -, hlast, hp, -⟩ := entrance_eq_some_iff.1 he
  have hplace : t.lexical path = d ++ [name] := by
    obtain ⟨names, hnames⟩ := List.getLast?_eq_some_iff.1 hlast
    have hd := hw.eq_along ho
    rw [hnames, List.dropLast_concat] at hd
    rw [lexical, hnames, along_concat, ← hd, onward_of_proper hp]
  have hnone : t.get? (d ++ [name]) = none := by simpa using hnone
  refine ⟨grown_put hnone _, fun q n hq => ?_⟩
  rw [get?_put _ (by simp)] at hq
  split at hq
  · rename_i hqd
    cases hq
    exact .inr ⟨rfl, hqd.trans hplace.symm⟩
  · exact .inl hq

/-- **Making directories** makes some of those above a path, and at last the one at its end. -/
theorem MadeDirs.paved {path : String} {above : List String} {r : Except SystemFault Unit}
    (h : t.MadeDirs path above r t') (ho : ∀ u ∈ path :: above, t.Passable u) :
    t'.Paved t fun p => (r = .ok () ∧ p = t.lexical path) ∨ ∃ u ∈ above, p = t.lexical u := by
  induction h with
  | made above h =>
    have hpath := ho _ (List.mem_cons_self ..)
    exact (makeDir_paved h hpath).imp fun p hp => .inl ⟨rfl, hp⟩
  | kept above h => exact .refl t _
  | @madeAfter path parent above r₁ t₁ t' hup h ih =>
    have hpath := ho path (List.mem_cons_self ..)
    have hup := ih fun u hu => ho u (List.mem_cons_of_mem _ hu)
    have hlast := makeDir_paved h (hup.passable hpath)
    rw [lexical_congr hup.grown.home] at hlast
    refine (hlast.trans hup).imp ?_
    rintro p ((⟨-, rfl⟩ | ⟨u, hu, rfl⟩) | hp)
    · exact .inr ⟨parent, List.mem_cons_self .., rfl⟩
    · exact .inr ⟨u, List.mem_cons_of_mem _ hu, rfl⟩
    · exact .inl ⟨rfl, hp⟩
  | @keptAfter path parent above r r₁ t₁ hup h ih =>
    refine (ih fun u hu => ho u (List.mem_cons_of_mem _ hu)).imp ?_
    rintro p (⟨-, rfl⟩ | ⟨u, hu, rfl⟩)
    · exact .inr ⟨parent, List.mem_cons_self .., rfl⟩
    · exact .inr ⟨u, List.mem_cons_of_mem _ hu, rfl⟩

theorem holds_of_makeDir (hs : Single name) (h : t.makeDir (joinPath dir name) = .ok t') :
    ∃ d, t'.Leads dir d ∧ t'.Holds (joinPath dir name) (d ++ [name]) .dir := by
  have hg := makeDir_grown h
  rw [makeDir] at h
  split at h
  · cases h
  · cases h
  rename_i d last slash he
  simp only at h
  split at h
  · cases h
  cases h
  obtain ⟨-, hd, -, rfl, rfl⟩ := (entrance_entry_iff hs).1 he
  refine ⟨d, hd.grown hg, d, last, rfl, entrance_grown hg he, ?_⟩
  rw [get?_put _ (by simp), if_pos rfl]

/-- An entry that is found to be a directory is one, if no link is there. -/
theorem holds_of_isDirPath (hs : Single name) (hdots : name ≠ "." ∧ name ≠ "..")
    (hstraight : t.Straight dir)
    (hl : ∀ target, t.get? (t.lexical dir ++ [name]) ≠ some (.link target))
    (h : t.isDirPath (joinPath dir name) = true) :
    t.Holds (joinPath dir name) (t.lexical dir ++ [name]) .dir := by
  rw [isDirPath] at h
  split at h
  · rename_i p hfind
    rw [find] at hfind
    split at hfind
    · cases hfind
    rename_i hf
    simp only [Route.of_entry hs, Route.steps, Bool.false_eq_true, if_false] at hfind
    obtain ⟨links, hw⟩ := follow_eq_ok_iff.1 hfind
    obtain ⟨links', d, hdir, hlast⟩ := hw.of_append
    have hd : d = t.lexical dir := hdir.eq_along hstraight.clear
    rw [← hd] at hl ⊢
    obtain ⟨hd', hp, rfl⟩ := hlast.of_singleton hdots hl
    rw [isDir, beq_iff_eq] at h
    exact (holds_entry_iff hs).2 ⟨hf, hp, d, ⟨⟨_, hdir⟩, hd'⟩, rfl, h⟩
  · cases h

/-- Where making directories succeeds, the last one was made or was there. -/
theorem MadeDirs.made_or_there {path : String} {above : List String}
    (h : t.MadeDirs path above (.ok ()) t') :
    t'.isDirPath path = true ∨ ∃ t₁ : FileTree, t₁.makeDir path = .ok t' := by
  cases h with
  | made above h => exact .inr ⟨t, h⟩
  | kept above h => exact .inl (h rfl)
  | madeAfter hup h => exact .inr ⟨_, h⟩
  | keptAfter hup h => exact .inl (h rfl)

/-! ## The directories above an entry -/

/-- The names of a path that is put together from names. -/
theorem pathNames_intercalate {names : List String} (hn : ∀ name ∈ names, Single name) :
    pathNames (String.intercalate "/" names).toList = names.map String.toList := by
  induction names with
  | nil => rfl
  | cons name names ih =>
    have hname := pathNames_single (hn name (List.mem_cons_self ..))
    cases names with
    | nil => simpa using hname
    | cons next names =>
      have ih := ih fun x hx => hn x (List.mem_cons_of_mem _ hx)
      have hsplit : (String.intercalate "/" (name :: next :: names)).toList =
          name.toList ++ '/' :: (String.intercalate "/" (next :: names)).toList := by
        rw [String.intercalate_cons_cons]
        simp
      rw [hsplit, pathNames_append_cons, hname, ih]
      rfl

theorem notMem_of_mem_pieces {sep : Char} {cs piece : List Char} (h : piece ∈ pieces sep cs) :
    sep ∉ piece := by
  induction cs generalizing piece with
  | nil =>
    rw [pieces, List.mem_singleton] at h
    simp [h]
  | cons c cs ih =>
    rw [pieces] at h
    split at h
    · rcases List.mem_cons.1 h with rfl | h
      · simp
      · exact ih h
    · rename_i hc
      split at h
      · rw [List.mem_singleton.1 h]
        simpa using Ne.symm hc
      · rename_i q qs hq
        rcases List.mem_cons.1 h with rfl | h
        · have := ih (hq ▸ List.mem_cons_self ..)
          simp [this, Ne.symm hc]
        · exact ih (hq ▸ List.mem_cons_of_mem _ h)

theorem single_of_mem_names {path name : String} (h : name ∈ (Route.of path).names) :
    Single name := by
  obtain ⟨cs, hcs, rfl⟩ := List.mem_map.1 h
  obtain ⟨hmem, hne⟩ := List.mem_filter.1 hcs
  refine ⟨by simpa using hne, ?_⟩
  rw [String.toList_ofList]
  exact notMem_of_mem_pieces hmem

theorem not_startsWith_intercalate {names : List String} (hn : ∀ name ∈ names, Single name) :
    (String.intercalate "/" names).startsWith "/" = false := by
  rw [← Bool.not_eq_true, startsWith_slash_iff]
  cases names with
  | nil => decide
  | cons name names =>
    obtain ⟨hne, hslash⟩ := hn name (List.mem_cons_self ..)
    obtain ⟨ch, cs, hcs⟩ := List.exists_cons_of_ne_nil (l := name.toList) (by simpa using hne)
    have hhead : ∃ ds, (String.intercalate "/" (name :: names)).toList = ch :: ds := by
      cases names with
      | nil => exact ⟨cs, by simpa using hcs⟩
      | cons next names =>
        rw [String.intercalate_cons_cons]
        exact ⟨_, by simp [hcs]; rfl⟩
    obtain ⟨ds, hds⟩ := hhead
    rw [hds, List.cons_prefix_cons]
    rintro ⟨rfl, -⟩
    exact hslash (by simp [hcs])

/-- A path that is put together from names has them. -/
theorem route_intercalate (abs : Bool) {names : List String} (hn : ∀ name ∈ names, Single name) :
    (Route.of ((if abs then "/" else "") ++ String.intercalate "/" names)).absolute = abs ∧
      (Route.of ((if abs then "/" else "") ++ String.intercalate "/" names)).names = names := by
  have hnames : (pathNames (String.intercalate "/" names).toList).map String.ofList = names := by
    rw [pathNames_intercalate hn, List.map_map]
    exact (List.map_congr_left fun x _ => String.ofList_toList).trans (List.map_id _)
  cases abs with
  | false =>
    have hempty : (if false = true then "/" else "") ++ String.intercalate "/" names =
        String.intercalate "/" names := by simp
    rw [hempty]
    exact ⟨not_startsWith_intercalate hn, hnames⟩
  | true =>
    have hroot : ((if true = true then "/" else "") ++ String.intercalate "/" names).toList =
        [] ++ '/' :: (String.intercalate "/" names).toList := by simp
    refine ⟨(startsWith_slash_iff _).2 ?_, ?_⟩
    · rw [hroot]
      simp
    · show (pathNames _).map String.ofList = names
      rw [hroot, pathNames_append_cons]
      exact hnames

/-- The names of the directories above an entry are the first ones of its directory, without
dots. -/
theorem names_of_parents (hs : Single name) (hdot : name ≠ ".") {u : String}
    (hu : u ∈ parents (joinPath dir name)) :
    (Route.of u).absolute = (Route.of dir).absolute ∧
      (Route.of u).names <+: (Route.of dir).names.filter (· ≠ ".") := by
  have hnames : ((Route.of dir).names ++ [name]).filter (· ≠ ".") =
      (Route.of dir).names.filter (· ≠ ".") ++ [name] := by
    rw [List.filter_append, List.filter_cons_of_pos (by simpa using hdot), List.filter_nil]
  unfold parents at hu
  simp only [Route.of_entry hs, hnames] at hu
  obtain ⟨i, hi, rfl⟩ := List.mem_map.1 hu
  rw [List.length_append, List.length_singleton, List.take_append_of_le_length (by omega)]
  have hpre := List.take_prefix
    (((Route.of dir).names.filter (· ≠ ".")).length + 1 - 1 - i)
    ((Route.of dir).names.filter (· ≠ "."))
  obtain ⟨habs, heq⟩ := route_intercalate (Route.of dir).absolute fun x hx =>
    single_of_mem_names (List.mem_filter.1 (hpre.subset hx)).1
  refine ⟨habs, ?_⟩
  rw [heq]
  exact hpre

/-! ## A new entry -/

/-- The path of a directory above an entry stays on the way to the directory of the entry. -/
theorem onWay_of_parents (t : FileTree) (hs : Single name) (hdot : name ≠ ".") {u : String}
    (hu : u ∈ parents (joinPath dir name)) {names : List String}
    (hn : names <+: (Route.of u).names) :
    t.OnWay dir (along (t.origin (Route.of u)) names) := by
  obtain ⟨habs, hpre⟩ := names_of_parents hs hdot hu
  obtain ⟨before, hbefore, rfl⟩ := List.prefix_filter_iff.1 (hn.trans hpre)
  refine ⟨before, hbefore, ?_⟩
  rw [along_filter, origin, origin, habs]

theorem Straight.passable (h : t.Straight dir) (hs : Single name) (hdot : name ≠ ".") {u : String}
    (hu : u ∈ joinPath dir name :: parents (joinPath dir name)) : t.Passable u := by
  intro names hn target
  rcases List.mem_cons.1 hu with rfl | hu
  · simp only [Route.of_entry hs, List.dropLast_concat] at hn ⊢
    exact h.clear names hn target
  · exact h _ (t.onWay_of_parents hs hdot hu (hn.trans (List.dropLast_prefix _))) target

theorem lexical_entry (t : FileTree) (hs : Single name) (hdots : name ≠ "." ∧ name ≠ "..") :
    t.lexical (joinPath dir name) = t.lexical dir ++ [name] := by
  rw [lexical, Route.of_entry hs, along_concat, onward, if_neg hdots.1, if_neg hdots.2]
  rfl

/-- **A new entry of a directory**, with all that is missing above it. Only directories are made, on
the way to the entry. If it succeeds, the entry is one, unless a link was there. -/
theorem makeDirs_entry {r : Except SystemFault Unit} (hs : Single name)
    (hdots : name ≠ "." ∧ name ≠ "..") (hstraight : t.Straight dir)
    (hl : ∀ target, t.get? (t.lexical dir ++ [name]) ≠ some (.link target))
    (h : t.makeDirs (joinPath dir name) = (r, t')) :
    (t'.Paved t fun p => (r = .ok () ∧ p = t.lexical dir ++ [name]) ∨ t.OnWay dir p) ∧
      (r = .ok () → t'.Holds (joinPath dir name) (t.lexical dir ++ [name]) .dir) := by
  have hne : joinPath dir name ≠ "" := by
    intro he
    have hnames : (Route.of (joinPath dir name)).names = (Route.of dir).names ++ [name] :=
      congrArg Route.names (Route.of_entry hs)
    rw [he] at hnames
    exact absurd hnames.symm (by simp [Route.of, pieces])
  rw [makeDirs, if_neg hne] at h
  have hmade := t.madeDirs (joinPath dir name) (parents (joinPath dir name))
  rw [h] at hmade
  have hpaved := hmade.paved fun u hu => hstraight.passable hs hdots.1 hu
  rw [lexical_entry t hs hdots] at hpaved
  refine ⟨hpaved.imp fun p hp => hp.imp id ?_, fun hr => ?_⟩
  · rintro ⟨u, hu, rfl⟩
    exact t.onWay_of_parents hs hdots.1 hu (List.prefix_refl _)
  · subst hr
    have hlexical := lexical_congr hpaved.grown.home dir
    have hstraight' := hpaved.straight hstraight
    rcases hmade.made_or_there with hthere | ⟨t₁, hmade⟩
    · rw [← hlexical]
      refine holds_of_isDirPath hs hdots hstraight' (fun target => ?_) hthere
      rw [hlexical]
      exact hpaved.get?_ne_link hl target
    · obtain ⟨d, hd, hholds⟩ := holds_of_makeDir hs hmade
      rwa [hd.eq_lexical hstraight', hlexical] at hholds

end FileTree

end PhaseSampling
