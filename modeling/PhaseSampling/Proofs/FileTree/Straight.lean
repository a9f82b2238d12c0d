import PhaseSampling.Proofs.FileTree.Links

/-!
# Paths without links

A path that meets no link leads where its names say.

* `FileTree.along`, `FileTree.lexical`: where names, and a path, lead if there is no link on the way.
* `FileTree.Straight`: there is none.
* `FileTree.Holds`: the node that stands at a path, and where.
* `FileTree.relink_eq_error`: **a link that cannot be put** changes nothing.
* `FileTree.Holds.relink`, `FileTree.Straight.relink`: one that is put leaves the other entries of its
  directory, and the way to it.
-/

namespace PhaseSampling

open Text

variable {dir name : String}

namespace FileTree

variable {t t' : FileTree} {links links' : Nat} {p q d : Place} {names : List String}

/-! ## Walks without links -/

/-- The place behind a name that is not that of a link. -/
def onward (p : Place) (name : String) : Place :=
  if name = "." then p else if name = ".." then p.dropLast else p ++ [name]

/-- The place behind names, none of which is that of a link. -/
def along (p : Place) (names : List String) : Place := names.foldl onward p

theorem onward_of_proper (h : Proper name) (p : Place) : onward p name = p ++ [name] := by
  rw [onward, if_neg h.1, if_neg h.2.1]

theorem along_concat (p : Place) (names : List String) (name : String) :
    along p (names ++ [name]) = onward (along p names) name := by
  rw [along, List.foldl_append]
  rfl

/-- A dot leads nowhere. -/
theorem along_filter (p : Place) (names : List String) :
    along p (names.filter (· ≠ ".")) = along p names := by
  induction names generalizing p with
  | nil => rfl
  | cons name names ih =>
    by_cases hn : name = "."
    · subst hn
      exact ih p
    · rw [List.filter_cons_of_pos (by simpa using hn)]
      exact ih (onward p name)

/-- No link stands where some of the names lead, from the first one on. -/
def Clear (t : FileTree) (p : Place) (names : List String) : Prop :=
  ∀ pre, pre <+: names → ∀ target, t.get? (along p pre) ≠ some (.link target)

theorem Clear.of_prefix {names' : List String} (h : t.Clear p names) (hp : names' <+: names) :
    t.Clear p names' :=
  fun pre hpre => h pre (hpre.trans hp)

theorem Clear.of_cons (h : t.Clear p (name :: names)) : t.Clear (onward p name) names :=
  fun pre hpre => h (name :: pre) ((List.cons_prefix_cons).2 ⟨rfl, hpre⟩)

/-- **A walk without links** ends where the names say. -/
theorem Walk.eq_along (h : t.Walk links p names links' q) (hc : t.Clear p names) :
    q = along p names := by
  induction h with
  | nil => rfl
  | dot hd h ih => exact ih hc.of_cons
  | up hd h ih => exact ih hc.of_cons
  | @link _ _ p _ name target _ hd hn hg =>
    have hplace : along p [name] = p ++ [name] := onward_of_proper hn p
    exact absurd hg (hplace ▸ hc [name] (by simp) target)
  | @down _ _ p _ name _ _ hd hn hg hl h ih =>
    have hc := hc.of_cons
    rw [onward_of_proper hn] at hc
    rw [ih hc]
    show _ = along (onward p name) _
    rw [onward_of_proper hn]

/-- A walk of one step that is not through a link. -/
theorem Walk.of_singleton (h : t.Walk links p [name] links' q) (hdots : name ≠ "." ∧ name ≠ "..")
    (hl : ∀ target, t.get? (p ++ [name]) ≠ some (.link target)) :
    t.isDir p = true ∧ Proper name ∧ q = p ++ [name] := by
  generalize hnames : [name] = names at h
  cases h with
  | nil => cases hnames
  | dot hd h => exact absurd (List.cons.inj hnames).1 hdots.1
  | up hd h => exact absurd (List.cons.inj hnames).1 hdots.2
  | link hd hn hg h =>
    cases hnames
    exact absurd hg (hl _)
  | down hd hn hg hl h =>
    cases hnames
    cases h
    exact ⟨hd, hn, rfl⟩

theorem Walk.isDir (h : t.Walk links p names links' q) (hq : t.isDir q = true) :
    t.isDir p = true := by
  cases h <;> assumption

/-- A walk without links to a directory meets directories only. They are all that it needs. -/
theorem Walk.of_isDir (h : t.Walk links p names links' q) (hc : t.Clear p names)
    (hq : t.isDir q = true) (hd : ∀ r, t.isDir r = true → t'.isDir r = true) :
    t'.Walk links p names links' q := by
  induction h with
  | nil => exact .nil _ _
  | dot hp h ih => exact .dot (hd _ hp) (ih hc.of_cons hq)
  | up hp h ih => exact .up (hd _ hp) (ih hc.of_cons hq)
  | @link _ _ p _ name target _ hp hn hg =>
    have hplace : along p [name] = p ++ [name] := onward_of_proper hn p
    exact absurd hg (hplace ▸ hc [name] (by simp) target)
  | @down _ _ p _ name _ _ hp hn hg hl h ih =>
    have hnext : t'.get? (p ++ [name]) = some .dir := by
      have := hd _ (h.isDir hq)
      rwa [FileTree.isDir, beq_iff_eq] at this
    have hc := hc.of_cons
    rw [onward_of_proper hn] at hc
    exact .down (hd _ hp) hn hnext (by simp) (ih hc hq)

/-! ## Straight paths -/

/-- The place that a path leads to, if it meets no link. -/
def lexical (t : FileTree) (path : String) : Place :=
  along (t.origin (Route.of path)) (Route.of path).names

/-- A place that a path comes to, if it meets no link. The last one is among them. -/
def OnWay (t : FileTree) (path : String) (p : Place) : Prop :=
  ∃ names, names <+: (Route.of path).names ∧ p = along (t.origin (Route.of path)) names

/-- A path that meets no link, also not at its end. -/
def Straight (t : FileTree) (path : String) : Prop :=
  ∀ p, t.OnWay path p → ∀ target, t.get? p ≠ some (.link target)

theorem Straight.clear (h : t.Straight dir) :
    t.Clear (t.origin (Route.of dir)) (Route.of dir).names :=
  fun names hn => h _ ⟨names, hn, rfl⟩

theorem onWay_congr (hh : t'.home = t.home) (path : String) (p : Place) :
    t'.OnWay path p ↔ t.OnWay path p := by
  rw [OnWay, OnWay, origin, origin, hh]

theorem lexical_congr (hh : t'.home = t.home) (path : String) :
    t'.lexical path = t.lexical path := by
  rw [lexical, lexical, origin, origin, hh]

theorem Leads.eq_lexical (h : t.Leads dir d) (hs : t.Straight dir) : d = t.lexical dir := by
  obtain ⟨⟨links, hw⟩, -⟩ := h
  exact hw.eq_along hs.clear

/-- All that a straight path comes to on the way to a directory are directories. -/
theorem Leads.isDir_of_onWay (h : t.Leads dir d) (hs : t.Straight dir) (hp : t.OnWay dir p) :
    t.isDir p = true := by
  obtain ⟨⟨links, hw⟩, hd⟩ := h
  obtain ⟨names, ⟨rest, hrest⟩, rfl⟩ := hp
  rw [← hrest] at hw
  obtain ⟨links', q, hw₁, hw₂⟩ := hw.of_append
  have hclear := hs.clear.of_prefix ⟨rest, hrest⟩
  rw [← hw₁.eq_along hclear]
  exact hw₂.isDir hd

/-- A straight path needs no more than the directories. -/
theorem Leads.of_isDir (h : t.Leads dir d) (hs : t.Straight dir) (hh : t'.home = t.home)
    (hd : ∀ r, t.isDir r = true → t'.isDir r = true) : t'.Leads dir d := by
  obtain ⟨⟨links, hw⟩, hdir⟩ := h
  refine ⟨⟨links, ?_⟩, hd _ hdir⟩
  rw [origin, hh]
  exact hw.of_isDir hs.clear hdir hd

/-! ## Nodes at paths -/

/-- A path is that of a node, which stands at a place. If the node is a link, it is not followed. -/
def Holds (t : FileTree) (path : String) (p : Place) (n : Node) : Prop :=
  ∃ d name, p = d ++ [name] ∧ t.entrance path = .ok (some (d, name, false)) ∧ t.get? p = some n

theorem holds_entry_iff (hs : Single name) {n : Node} :
    t.Holds (joinPath dir name) p n ↔ pathFault? (joinPath dir name) = none ∧ Proper name ∧
      ∃ d, t.Leads dir d ∧ p = d ++ [name] ∧ t.get? p = some n := by
  constructor
  · rintro ⟨d, last, rfl, he, hg⟩
    obtain ⟨hf, hd, hp, rfl, -⟩ := (entrance_entry_iff hs).1 he
    exact ⟨hf, hp, d, hd, rfl, hg⟩
  · rintro ⟨hf, hp, d, hd, rfl, hg⟩
    exact ⟨d, name, rfl, (entrance_entry_iff hs).2 ⟨hf, hd, hp, rfl, rfl⟩, hg⟩

theorem Holds.grown {path : String} {n : Node} (hg : t'.Grown t) (h : t.Holds path p n) :
    t'.Holds path p n := by
  obtain ⟨d, name, rfl, he, hn⟩ := h
  exact ⟨d, name, rfl, entrance_grown hg he, hg.more _ _ hn⟩

/-! ## Links -/

theorem remove_of_dir {path : String} (he : t.entrance path = .ok (some (d, name, false)))
    (hg : t.get? (d ++ [name]) = some .dir) : t.remove path = .error .isDirectory := by
  rw [remove, he]
  simp [hg]

/-- What is removed is no directory, so all directories stay. -/
theorem isDir_of_remove {path : String} (h : t.remove path = .ok t') (hp : t.isDir p = true) :
    t'.isDir p = true := by
  obtain ⟨d, name, he, rfl⟩ := remove_eq_ok h
  rw [isDir, beq_iff_eq] at hp ⊢
  have hne : p ≠ d ++ [name] := by
    rintro rfl
    rw [remove_of_dir he hp] at h
    cases h
  rw [get?_erase _ (by simp), if_neg hne]
  exact hp

theorem relink_home {target path : String} {r : Except SystemFault Unit}
    (h : t.relink target path = (r, t')) : t'.home = t.home := by
  obtain ⟨t₁, hremove, hmake⟩ := relink_steps h
  have hhome : t₁.home = t.home := by
    rcases hremove with rfl | hr
    · rfl
    · obtain ⟨d, name, -, rfl⟩ := remove_eq_ok hr
      rfl
  rw [← hhome]
  rcases hmake with ⟨-, hl⟩ | ⟨f, -, -, rfl⟩
  · obtain ⟨d, name, -, -, rfl⟩ := makeLink_eq_ok hl
    rfl
  · rfl

/-- A directory does not give way to a link. -/
theorem get?_ne_dir_of_relink {target : String} (hs : Single name)
    (h : t.relink target (joinPath dir name) = (.ok (), t')) (hd : t.Leads dir d) :
    t.get? (d ++ [name]) ≠ some .dir := by
  intro hdir
  obtain ⟨hf, hp, -⟩ := relink_eq_ok hs h
  have he : t.entrance (joinPath dir name) = .ok (some (d, name, false)) :=
    (entrance_entry_iff hs).2 ⟨hf, hd, hp, rfl, rfl⟩
  obtain ⟨t₁, hremove, hmake⟩ := relink_steps h
  -- a directory is not removed, and then no link can be made in its place
  have ht₁ : t₁ = t := by
    rcases hremove with ht | hr
    · exact ht
    · rw [remove_of_dir he hdir] at hr
      cases hr
  subst ht₁
  rcases hmake with ⟨-, hl⟩ | ⟨f, hr, -⟩
  · obtain ⟨e, last, he', hnone, -⟩ := makeLink_eq_ok hl
    rw [he] at he'
    cases he'
    rw [hdir] at hnone
    cases hnone
  · cases hr

/-- **A link that cannot be put** leaves everything as it was, if the path to it is straight. -/
theorem relink_eq_error {target : String} {f : SystemFault} (hs : Single name)
    (ht : pathFault? target = none) (hstraight : t.Straight dir)
    (h : t.relink target (joinPath dir name) = (.error f, t')) : t' = t := by
  obtain ⟨t₁, hremove, hmake⟩ := relink_steps h
  rcases hmake with ⟨hr, -⟩ | ⟨f', -, hl, rfl⟩
  · cases hr
  rcases hremove with ht | hr
  · exact ht
  -- after a removal nothing is in the way of the link
  exfalso
  obtain ⟨d, last, he, ht₁⟩ := remove_eq_ok hr
  obtain ⟨hf, hd, hp, rfl, -⟩ := (entrance_entry_iff hs).1 he
  have hd₁ : t'.Leads dir d :=
    hd.of_isDir hstraight (by rw [ht₁]; rfl) fun r hr' => isDir_of_remove hr hr'
  have he₁ : t'.entrance (joinPath dir last) = .ok (some (d, last, false)) :=
    (entrance_entry_iff hs).2 ⟨hf, hd₁, hp, rfl, rfl⟩
  have hnone : t'.get? (d ++ [last]) = none := by
    rw [ht₁, get?_erase _ (by simp), if_pos rfl]
  rw [makeLink_of_entrance he₁ ht hnone] at hl
  cases hl

/-- **The other entries stay** when a link is put in their directory. -/
theorem Holds.relink {other target : String} {n : Node} (hs : Single name) (ho : Single other)
    (hne : other ≠ name) (h : t.Holds (joinPath dir other) p n)
    (hl : t.relink target (joinPath dir name) = (.ok (), t')) :
    t'.Holds (joinPath dir other) p n := by
  obtain ⟨-, -, d, hd, hd', hget⟩ := relink_eq_ok hs hl
  obtain ⟨hf, hp, e, he, rfl, hn⟩ := (holds_entry_iff ho).1 h
  have hde : d = e := hd.unique he
  subst hde
  refine (holds_entry_iff ho).2 ⟨hf, hp, d, hd', rfl, ?_⟩
  rw [hget, if_neg (by simpa using hne)]
  exact hn

/-- **A straight path stays straight** when a link is put in its directory. -/
theorem Straight.relink {target : String} (hs : Single name) (h : t.Straight dir)
    (hl : t.relink target (joinPath dir name) = (.ok (), t')) : t'.Straight dir := by
  obtain ⟨-, -, d, hd, -, hget⟩ := relink_eq_ok hs hl
  intro q hq target' hg
  rw [onWay_congr (relink_home hl)] at hq
  rw [hget] at hg
  split at hg
  -- the places on the way are directories, and none of them gives way to the link
  · rename_i hplace
    have hdir := hd.isDir_of_onWay h hq
    rw [isDir, beq_iff_eq, hplace] at hdir
    exact get?_ne_dir_of_relink hs hl hd hdir
  · exact h q hq target' hg

end FileTree

end PhaseSampling
