import PhaseSampling.Proofs.FileTree.Straight

/-!
# Entries that give way to links

What making a link does, in a directory to which a straight path leads.

* `FileTree.Admits`: there is a place for a link under a name.
* `FileTree.relink_of_admits`, `FileTree.relink_of_not_admits`: then the link is put there, and else
  nothing is different.
* `LinkRequest.Made`: the link is there, and nothing else is different.
* `World.Series`: links that are asked for one after the other. `World.Series.get?` says where they
  lead in the end.
* `links_replace_or_keep`: **a request replaces one entry or nothing**, and of several ones with the
  same place the last one that was met counts.
-/

namespace PhaseSampling

open Text

variable {dir name target : String}

/-! ## Names of no entry -/

/-- An empty name leaves a slash at the end of a path. -/
theorem endsWith_joinPath_empty (hd : dir ≠ "") : (joinPath dir "").endsWith "/" = true := by
  have hempty : "".startsWith "/" = false := by
    rw [← Bool.not_eq_true, startsWith_slash_iff]
    decide
  rw [joinPath, hempty]
  simp only [hd, decide_false, Bool.or_self, Bool.false_eq_true, if_false]
  split
  · rwa [String.append_empty]
  · rw [endsWith_slash_iff, String.append_empty, String.toList_append]
    exact List.suffix_append _ _

namespace FileTree

variable {t t' : FileTree} {p d : Place}

/-- A path enters a directory by a name that is not empty. -/
theorem single_of_entrance {last : String} (hn : '/' ∉ name.toList)
    (h : t.entrance (joinPath dir name) = .ok (some (d, last, false))) : Single name := by
  refine ⟨?_, hn⟩
  rintro rfl
  obtain ⟨hf, -, -, -, -, hslash⟩ := entrance_eq_some_iff.1 h
  by_cases hd : dir = ""
  · subst hd
    have hjoin : joinPath "" "" = "" := by simp [joinPath]
    rw [hjoin] at hf
    exact absurd hf (by decide)
  · have hends : (Route.of (joinPath dir "")).slash = true := endsWith_joinPath_empty hd
    rw [hends] at hslash
    cases hslash

/-- Directories stay where another node changes. -/
theorem isDir_elsewhere {r : Place} (hp : t.get? p ≠ some .dir)
    (hg : ∀ q, q ≠ p → t'.get? q = t.get? q) (hr : t.isDir r = true) : t'.isDir r = true := by
  rw [isDir, beq_iff_eq] at hr ⊢
  have hne : r ≠ p := by
    rintro rfl
    exact hp hr
  rwa [hg r hne]

/-- A straight path that leads somewhere stays straight while directories stay. -/
theorem Straight.of_isDir (hs : t.Straight dir) (hd : t.Leads dir d) (hh : t'.home = t.home)
    (hdirs : ∀ r, t.isDir r = true → t'.isDir r = true) : t'.Straight dir := by
  intro q hq target hlink
  have hdir := hdirs q (hd.isDir_of_onWay hs ((onWay_congr hh dir q).1 hq))
  rw [isDir, beq_iff_eq, hlink] at hdir
  cases hdir

/-! ## One link -/

/-- **There is a place for a link**: in a directory that is there, under a name that is neither empty
nor of dots and not too long, where no directory stands. -/
structure Admits (t : FileTree) (dir name : String) : Prop where
  leads : t.Leads dir (t.lexical dir)
  named : name ≠ "" ∧ name ≠ "." ∧ name ≠ ".."
  size : name.utf8ByteSize ≤ maxName
  path : '\x00' ∉ (joinPath dir name).toList ∧ (joinPath dir name).utf8ByteSize < maxPath
  free : t.get? (t.lexical dir ++ [name]) ≠ some .dir

theorem Admits.entrance (h : t.Admits dir name) (hn : '/' ∉ name.toList) :
    t.entrance (joinPath dir name) = .ok (some (t.lexical dir, name, false)) := by
  have hs : Single name := ⟨h.named.1, hn⟩
  have hne : joinPath dir name ≠ "" := by
    by_cases hd : dir = ""
    · subst hd
      simpa [joinPath] using h.named.1
    · exact joinPath_ne_empty hd hs
  have hf : pathFault? (joinPath dir name) = none :=
    (pathFault?_eq_none_iff _).2 ⟨h.path.1, hne, h.path.2⟩
  have hp : Proper name := ⟨h.named.2.1, h.named.2.2, h.size⟩
  exact (entrance_entry_iff hs).2 ⟨hf, h.leads, hp, rfl, rfl⟩

/-- It is reached in the same way while directories stay. -/
theorem Admits.entrance_of_isDir (h : t.Admits dir name) (hn : '/' ∉ name.toList)
    (hs : t.Straight dir) (hh : t'.home = t.home)
    (hdirs : ∀ r, t.isDir r = true → t'.isDir r = true) :
    t'.entrance (joinPath dir name) = .ok (some (t.lexical dir, name, false)) := by
  have hsingle : Single name := ⟨h.named.1, hn⟩
  obtain ⟨hf, hd, hp, -, -⟩ := (entrance_entry_iff hsingle).1 (h.entrance hn)
  exact (entrance_entry_iff hsingle).2 ⟨hf, hd.of_isDir hs hh hdirs, hp, rfl, rfl⟩

/-- **A link that has a place** is put there, whatever file or link it takes the place of. -/
theorem relink_of_admits (hn : '/' ∉ name.toList) (ht : pathFault? target = none)
    (hs : t.Straight dir) (h : t.Admits dir name) :
    t.relink target (joinPath dir name) =
      (.ok (), t.put (t.lexical dir ++ [name]) (.link target)) := by
  have he := h.entrance hn
  cases hg : t.get? (t.lexical dir ++ [name]) with
  | none => exact relink_of_none he ht hg
  | some n =>
    have hnode : n ≠ .dir := by
      rintro rfl
      exact h.free hg
    -- what is removed is no directory, and the way needs only directories
    have hdirs : ∀ r, t.isDir r = true → (t.erase (t.lexical dir ++ [name])).isDir r = true :=
      fun r => isDir_elsewhere h.free fun q hq => by rw [get?_erase _ (by simp), if_neg hq]
    exact relink_of_some he (h.entrance_of_isDir hn hs rfl hdirs) ht hg hnode

theorem admits_of_relink (hn : '/' ∉ name.toList) (hs : t.Straight dir)
    (h : t.relink target (joinPath dir name) = (.ok (), t')) : t.Admits dir name := by
  have hsingle : Single name := by
    obtain ⟨t₁, -, ⟨-, hl⟩ | ⟨f, hr, -⟩⟩ := relink_steps h
    · obtain ⟨d, last, he, -⟩ := makeLink_eq_ok hl
      exact single_of_entrance hn he
    · cases hr
  obtain ⟨hf, hp, d, hd, -⟩ := relink_eq_ok hsingle h
  have hplace := hd.eq_lexical hs
  subst hplace
  obtain ⟨hnul, -, hsize⟩ := (pathFault?_eq_none_iff _).1 hf
  exact ⟨hd, ⟨hsingle.1, hp.1, hp.2.1⟩, hp.2.2, ⟨hnul, hsize⟩, get?_ne_dir_of_relink hsingle h hd⟩

/-- **A link that has no place** is not put anywhere, and nothing is removed for it. -/
theorem relink_of_not_admits (hn : '/' ∉ name.toList) (ht : pathFault? target = none)
    (hs : t.Straight dir) (h : ¬ t.Admits dir name) :
    ∃ f, t.relink target (joinPath dir name) = (.error f, t) := by
  rcases hrun : t.relink target (joinPath dir name) with ⟨f | _, t'⟩
  · refine ⟨f, ?_⟩
    by_cases hsingle : Single name
    · rw [relink_eq_error hsingle ht hs hrun]
    -- a path that ends in a slash is that of no node that could be removed
    · obtain ⟨t₁, rfl | hremove, ⟨hr, -⟩ | ⟨f', -, -, rfl⟩⟩ := relink_steps hrun
      · cases hr
      · rfl
      · cases hr
      · obtain ⟨d, last, he, -⟩ := remove_eq_ok hremove
        exact absurd (single_of_entrance hn he) hsingle
  · exact absurd (admits_of_relink hn hs hrun) h

end FileTree

/-! ## Requests -/

/-- A link that is asked for: in a directory, under a name, to a target. -/
structure LinkRequest where
  outdir : String
  long : String
  short : String

namespace LinkRequest

variable {c : LinkRequest} {t t' : FileTree} {w w' : World}

/-- The name is that of no deeper path, and the target can be one. -/
structure Valid (c : LinkRequest) : Prop where
  long : '/' ∉ c.long.toList
  short : c.short ≠ "" ∧ '\x00' ∉ c.short.toList ∧ c.short.utf8ByteSize < maxPath

def path (c : LinkRequest) : String := joinPath c.outdir c.long

/-- The place of the link, if the path to its directory is straight. -/
def place (c : LinkRequest) (t : FileTree) : Place := t.lexical c.outdir ++ [c.long]

def make (c : LinkRequest) (w : World) : Except Fault String × World :=
  w.link c.outdir c.short c.long

/-- **The link is there**, and nothing else is different. -/
structure Made (c : LinkRequest) (t t' : FileTree) : Prop where
  home : t'.home = t.home
  link : t'.LinksTo c.path c.short
  get? : ∀ p, t'.get? p = if p = c.place t then some (.link c.short) else t.get? p

theorem Valid.pathFault (h : c.Valid) : pathFault? c.short = none :=
  (pathFault?_eq_none_iff _).2 ⟨h.short.2.1, h.short.1, h.short.2.2⟩

/-- **A request that has a place** is met. -/
theorem make_of_admits (hc : c.Valid) (hs : w.files.Straight c.outdir)
    (h : w.files.Admits c.outdir c.long) :
    ∃ w', c.make w = (.ok c.path, w') ∧
      w'.files = w.files.put (c.place w.files) (.link c.short) :=
  ⟨_, World.link_of_relink (FileTree.relink_of_admits hc.long hc.pathFault hs h), rfl⟩

/-- **A request that has none** leaves the world as it was. -/
theorem make_of_not_admits (hc : c.Valid) (hs : w.files.Straight c.outdir)
    (h : ¬ w.files.Admits c.outdir c.long) : ∃ f, c.make w = (.error f, w) := by
  obtain ⟨f, hf⟩ := FileTree.relink_of_not_admits hc.long hc.pathFault hs h
  exact ⟨.system f, World.link_of_relink_error hf⟩

theorem place_ne_nil (c : LinkRequest) (t : FileTree) : c.place t ≠ [] :=
  List.append_ne_nil_of_right_ne_nil _ (List.cons_ne_nil _ _)

/-- The link takes the place of no directory. -/
theorem isDir_put (h : t.Admits c.outdir c.long) (r : Place) (hr : t.isDir r = true) :
    (t.put (c.place t) (.link c.short)).isDir r = true := by
  refine FileTree.isDir_elsewhere h.free (fun q hq => ?_) hr
  have hplace : q ≠ c.place t := hq
  rw [FileTree.get?_put _ (c.place_ne_nil t), if_neg hplace]

/-- The path to its directory stays straight. -/
theorem straight_put (hs : t.Straight c.outdir) (h : t.Admits c.outdir c.long) :
    (t.put (c.place t) (.link c.short)).Straight c.outdir :=
  hs.of_isDir h.leads rfl (isDir_put h)

/-- The place of a link admits another one. -/
theorem admits_put (hs : t.Straight c.outdir) (h : t.Admits c.outdir c.long) :
    (t.put (c.place t) (.link c.short)).Admits c.outdir c.long where
  leads := h.leads.of_isDir hs rfl (isDir_put h)
  named := h.named
  size := h.size
  path := h.path
  free := by
    show (t.put (c.place t) (.link c.short)).get? (c.place t) ≠ _
    rw [FileTree.get?_put _ (c.place_ne_nil t), if_pos rfl]
    nofun

theorem made_put (hc : c.Valid) (hs : t.Straight c.outdir) (h : t.Admits c.outdir c.long) :
    c.Made t (t.put (c.place t) (.link c.short)) where
  home := rfl
  link := by
    refine ⟨_, _, (admits_put hs h).entrance hc.long, ?_⟩
    show (t.put (c.place t) (.link c.short)).get? (c.place t) = _
    rw [FileTree.get?_put _ (c.place_ne_nil t), if_pos rfl]
  get? := FileTree.get?_put t (c.place_ne_nil t) _

/-- **A request that was met** is met again, and that changes nothing. -/
theorem make_again (hc : c.Valid) (hs : w.files.Straight c.outdir)
    (h : w.files.Admits c.outdir c.long)
    (hw : w'.files = w.files.put (c.place w.files) (.link c.short)) :
    ∃ w'', c.make w' = (.ok c.path, w'') ∧ w''.files = w'.files := by
  have hs' : w'.files.Straight c.outdir := by
    rw [hw]
    exact straight_put hs h
  have h' : w'.files.Admits c.outdir c.long := by
    rw [hw]
    exact admits_put hs h
  obtain ⟨w'', hmake, hfiles⟩ := make_of_admits hc hs' h'
  refine ⟨w'', hmake, ?_⟩
  have hplace : c.place w'.files = c.place w.files := by
    rw [hw]
    rfl
  rw [hfiles, hplace, hw, FileTree.put_put]

end LinkRequest

/-! ## Series of requests -/

open LinkRequest

/-- Requests that are made one after the other, each with what it comes to. When a request is made it
is valid and the path to its directory is straight. It may be met or not. -/
inductive World.Series : World → List (LinkRequest × Except Fault String) → World → Prop where
  | nil (w : World) : Series w [] w
  | cons {w w₁ w' : World} {c : LinkRequest} {r : Except Fault String}
      {l : List (LinkRequest × Except Fault String)} (hc : c.Valid)
      (hs : w.files.Straight c.outdir) (h : c.make w = (r, w₁)) (t : Series w₁ l w') :
      Series w ((c, r) :: l) w'

/-- The last one of some requests that was met with a link at a place. -/
def lastAt (t : FileTree) (p : Place) (l : List (LinkRequest × Except Fault String)) :
    Option LinkRequest :=
  l.reverse.findSome? fun (c, r) => if r.isOk ∧ c.place t = p then some c else none

theorem lastAt_cons (t : FileTree) (p : Place) (c : LinkRequest) (r : Except Fault String)
    (l : List (LinkRequest × Except Fault String)) :
    lastAt t p ((c, r) :: l) =
      (lastAt t p l).or (if r.isOk ∧ c.place t = p then some c else none) := by
  unfold lastAt
  rw [List.reverse_cons, List.findSome?_append, List.findSome?_singleton]

theorem exists_of_lastAt {t : FileTree} {p : Place} {c : LinkRequest}
    {l : List (LinkRequest × Except Fault String)} (h : lastAt t p l = some c) :
    ∃ r, (c, r) ∈ l ∧ r.isOk = true ∧ c.place t = p := by
  obtain ⟨⟨c', r⟩, hmem, hsome⟩ := List.exists_of_findSome?_eq_some h
  dsimp only at hsome
  split at hsome
  · rename_i hmet
    cases hsome
    exact ⟨r, List.mem_reverse.1 hmem, hmet⟩
  · cases hsome

namespace LinkRequest

variable {w w' : World} {c : LinkRequest} {r : Except Fault String} {t t' : FileTree}

theorem place_congr (hh : t'.home = t.home) (c : LinkRequest) : c.place t' = c.place t := by
  unfold place
  rw [FileTree.lexical_congr hh]

theorem lastAt_congr (hh : t'.home = t.home) (p : Place)
    (l : List (LinkRequest × Except Fault String)) : lastAt t' p l = lastAt t p l := by
  unfold lastAt
  simp only [place_congr hh]

/-- **One request**: nothing is different, or one entry is a link. -/
theorem step (hc : c.Valid) (hs : w.files.Straight c.outdir) (h : c.make w = (r, w')) :
    (r.isOk = false ∧ w' = w) ∨
      (r.isOk = true ∧ w.files.Admits c.outdir c.long ∧
        w'.files = w.files.put (c.place w.files) (.link c.short)) := by
  by_cases ha : w.files.Admits c.outdir c.long
  · obtain ⟨w₁, hmake, hfiles⟩ := make_of_admits hc hs ha
    rw [h] at hmake
    cases hmake
    exact .inr ⟨rfl, ha, hfiles⟩
  · obtain ⟨f, hmake⟩ := make_of_not_admits hc hs ha
    rw [h] at hmake
    cases hmake
    exact .inl ⟨rfl, rfl⟩

end LinkRequest

namespace World.Series

variable {w w' : World} {c : LinkRequest} {r : Except Fault String} {p : Place}
  {l : List (LinkRequest × Except Fault String)}

/-- **All requests** keep the directories. -/
theorem keeps (h : w.Series l w') :
    w'.files.home = w.files.home ∧ ∀ p, w.files.isDir p = true → w'.files.isDir p = true := by
  induction h with
  | nil w => exact ⟨rfl, fun p hp => hp⟩
  | cons hc hs h t ih =>
    obtain ⟨hhome, hdirs⟩ := ih
    rcases step hc hs h with ⟨-, rfl⟩ | ⟨-, ha, hfiles⟩
    · exact ⟨hhome, hdirs⟩
    · rw [hfiles] at hhome hdirs
      exact ⟨hhome, fun p hp => hdirs p (isDir_put ha p hp)⟩

/-- **What stands at a place in the end**: the link of the last request for it that was met, and
without one what stood there before. -/
theorem get? (h : w.Series l w') (p : Place) :
    w'.files.get? p =
      ((lastAt w.files p l).map fun c => Node.link c.short).or (w.files.get? p) := by
  induction h with
  | nil w => rfl
  | @cons w w₁ w' c r l hc hs h t ih =>
    rw [ih, lastAt_cons]
    rcases step hc hs h with ⟨hr, rfl⟩ | ⟨hr, ha, hfiles⟩
    · simp [hr]
    · have hlast : lastAt w₁.files p l = lastAt w.files p l :=
        lastAt_congr (by rw [hfiles]; rfl) p l
      rw [hlast, hfiles, FileTree.get?_put _ (c.place_ne_nil _), hr]
      -- the link of the first request is seen only where no later one was put
      cases lastAt w.files p l with
      | some c' => rfl
      | none =>
        by_cases hp : c.place w.files = p
        · simp [hp]
        · simp [hp, Ne.symm hp]

/-- The directory of a request that was met is reached ever after. -/
theorem entrance_of_mem (h : w.Series l w') (hmem : (c, r) ∈ l) (hr : r.isOk = true) :
    w'.files.entrance c.path = .ok (some (w.files.lexical c.outdir, c.long, false)) := by
  induction h with
  | nil w => cases hmem
  | @cons w w₁ w' c' r' l hc hs h t ih =>
    have hhome : w₁.files.home = w.files.home := (cons hc hs h (.nil _)).keeps.1
    rcases List.mem_cons.1 hmem with hhead | hmem
    · cases hhead
      obtain ⟨hhome', hdirs⟩ := (cons hc hs h t).keeps
      rcases step hc hs h with ⟨hr', -⟩ | ⟨-, ha, -⟩
      · rw [hr] at hr'
        cases hr'
      · exact ha.entrance_of_isDir hc.long hs hhome' hdirs
    · rw [ih hmem, FileTree.lexical_congr hhome]

/-- **The path of a request** leads to the link of the last one that was met. -/
theorem linksTo (h : w.Series l w') (hlast : lastAt w.files p l = some c) :
    w'.files.LinksTo c.path c.short := by
  obtain ⟨r, hmem, hr, hplace⟩ := exists_of_lastAt hlast
  refine ⟨_, _, h.entrance_of_mem hmem hr, ?_⟩
  have hget := h.get? p
  rw [hlast, ← hplace] at hget
  exact hget

end World.Series

/-- In one directory a straight path is enough, at the start of a series. -/
theorem World.exists_series {w : World} {outdir : String} (hs : w.files.Straight outdir)
    {cs : List LinkRequest} (hcs : ∀ c ∈ cs, c.Valid ∧ c.outdir = outdir) :
    ∃ l w', l.map Prod.fst = cs ∧ w.Series l w' := by
  induction cs generalizing w with
  | nil => exact ⟨[], w, rfl, .nil w⟩
  | cons c cs ih =>
    obtain ⟨⟨hc, rfl⟩, hcs⟩ := List.forall_mem_cons.1 hcs
    have hs' : (c.make w).2.files.Straight c.outdir := by
      rcases step hc hs (Prod.eta (c.make w)).symm with ⟨-, hw⟩ | ⟨-, ha, hfiles⟩
      · rwa [hw]
      · rw [hfiles]
        exact straight_put hs ha
    obtain ⟨l, w', hl, hseries⟩ := ih hs' hcs
    refine ⟨(c, (c.make w).1) :: l, w', ?_, .cons hc hs rfl hseries⟩
    rw [List.map_cons, hl]

/-- **A request replaces one entry or nothing.** If a link has a place where a straight path leads, the
link is there afterwards, whatever it took the place of, and nothing else is different; asking again
changes nothing. If it has none, nothing is different. After any series of requests the path of each
leads to the target of the last one that was met there, and all that no link was put in place of is as
it was. -/
theorem links_replace_or_keep (w : World) :
    (∀ c : LinkRequest, c.Valid → w.files.Straight c.outdir →
      (w.files.Admits c.outdir c.long ∧ ∃ w', c.make w = (.ok c.path, w') ∧
        c.Made w.files w'.files ∧ ∃ w'', c.make w' = (.ok c.path, w'') ∧ w''.files = w'.files) ∨
      (¬ w.files.Admits c.outdir c.long ∧ ∃ f, c.make w = (.error f, w))) ∧
    (∀ outdir cs, w.files.Straight outdir → (∀ c ∈ cs, c.Valid ∧ c.outdir = outdir) →
      ∃ l w', l.map Prod.fst = cs ∧ w.Series l w') ∧
    ∀ l w', w.Series l w' → w'.files.home = w.files.home ∧
      ∀ p, (lastAt w.files p l = none → w'.files.get? p = w.files.get? p) ∧
        ∀ c, lastAt w.files p l = some c →
          w'.files.get? p = some (.link c.short) ∧ w'.files.LinksTo c.path c.short := by
  refine ⟨fun c hc hs => ?_, fun outdir cs hs hcs => w.exists_series hs hcs, fun l w' h => ?_⟩
  · by_cases ha : w.files.Admits c.outdir c.long
    · obtain ⟨w', hmake, hfiles⟩ := make_of_admits hc hs ha
      have hmade : c.Made w.files w'.files := by
        rw [hfiles]
        exact made_put hc hs ha
      exact .inl ⟨ha, w', hmake, hmade, make_again hc hs ha hfiles⟩
    · exact .inr ⟨ha, make_of_not_admits hc hs ha⟩
  · refine ⟨h.keeps.1, fun p => ⟨fun hlast => ?_, fun c hlast => ⟨?_, h.linksTo hlast⟩⟩⟩
    · rw [h.get? p, hlast]
      rfl
    · rw [h.get? p, hlast]
      rfl

/-- A root with a file and a directory. -/
def drawer : FileTree := ((FileTree.bare []).put ["old"] (.file .plain [104])).put ["sub"] .dir

theorem straight_drawer : drawer.Straight "/" := by
  intro p _ target hg
  unfold drawer at hg
  rw [FileTree.get?_put _ (by decide), FileTree.get?_put _ (by decide), FileTree.get?] at hg
  by_cases hsub : p = ["sub"]
  · simp [hsub] at hg
  by_cases hold : p = ["old"]
  · simp [hold] at hg
  · by_cases hp : p = [] <;> simp [hsub, hold, hp, FileTree.bare] at hg

theorem leads_drawer : drawer.Leads "/" [] :=
  ⟨(FileTree.opens_root _).walk, (FileTree.opens_root _).2⟩

theorem lexical_drawer : drawer.lexical "/" = [] :=
  (leads_drawer.eq_lexical straight_drawer).symm

/-- The file gives way to a link, now and when the link is asked for again. The directory does not. -/
theorem links_replace_or_keep_old :
    drawer.Straight "/" ∧ drawer.get? ["old"] = some (.file .plain [104]) ∧
      drawer.get? ["sub"] = some .dir ∧
      ∃ f w', World.Series ⟨drawer, #[]⟩
          [(⟨"/", "sub", "cpt.1"⟩, .error f), (⟨"/", "old", "cpt.0"⟩, .ok (joinPath "/" "old"))] w' ∧
        (∃ w'', w'.link "/" "cpt.0" "old" = (.ok (joinPath "/" "old"), w'') ∧ w''.files = w'.files) ∧
        LinkRequest.Made ⟨"/", "old", "cpt.0"⟩ drawer w'.files ∧
        w'.files.get? ["old"] = some (.link "cpt.0") ∧
        w'.files.LinksTo (joinPath "/" "old") "cpt.0" ∧ w'.files.get? ["sub"] = some .dir := by
  obtain ⟨hone, -, hseries⟩ := links_replace_or_keep ⟨drawer, #[]⟩
  have hold : (⟨"/", "old", "cpt.0"⟩ : LinkRequest).Valid := ⟨by decide, by decide⟩
  have hsub : (⟨"/", "sub", "cpt.1"⟩ : LinkRequest).Valid := ⟨by decide, by decide⟩
  have hadmits : drawer.Admits "/" "old" := by
    refine ⟨?_, by decide, by decide, by decide +kernel, ?_⟩
    · rw [lexical_drawer]
      exact leads_drawer
    · rw [lexical_drawer]
      decide
  have hfull : ¬ drawer.Admits "/" "sub" := by
    intro h
    refine h.free ?_
    rw [lexical_drawer]
    rfl
  obtain ⟨ha, -⟩ | ⟨-, f, hrefused⟩ := hone ⟨"/", "sub", "cpt.1"⟩ hsub straight_drawer
  · exact absurd ha hfull
  obtain ⟨-, w', hmet, hmade, hagain⟩ | ⟨ha, -⟩ := hone ⟨"/", "old", "cpt.0"⟩ hold straight_drawer
  · have hboth := World.Series.cons hsub straight_drawer hrefused
      (.cons hold straight_drawer hmet (.nil _))
    obtain ⟨-, hends⟩ := hseries _ _ hboth
    have hlink := (hends ["old"]).2 ⟨"/", "old", "cpt.0"⟩ (by
      simp [lastAt, LinkRequest.place, lexical_drawer, Except.isOk, Except.toBool])
    have hdir := (hends ["sub"]).1 (by
      simp [lastAt, LinkRequest.place, lexical_drawer, Except.isOk, Except.toBool])
    exact ⟨straight_drawer, rfl, rfl, f, w', hboth, hagain, hmade, hlink.1, hlink.2, hdir⟩
  · exact absurd hadmits ha

end PhaseSampling
