import PhaseSampling.Proofs.FileTree.Walk
import PhaseSampling.World

/-!
# Entries of a directory

A path that is put together from a directory and a name leads to an entry of the directory.

* `Route.of_joinPath`: the names of such a path.
* `FileTree.entrance_joinPath`, `FileTree.find_joinPath`: where it leads.
* `FileTree.makeDirs_joinPath`, `FileTree.relink_joinPath`: what a new directory and a new link do.
* `FileTree.relink_of_none`, `FileTree.relink_of_some`: the same for a link at any path by which a
  directory is entered.
-/

namespace PhaseSampling

open Text

variable {dir name : String}

theorem startsWith_slash_iff (s : String) : s.startsWith "/" = true ↔ ['/'] <+: s.toList := by
  rw [String.startsWith_string_iff]
  rfl

theorem endsWith_slash_iff (s : String) : s.endsWith "/" = true ↔ ['/'] <:+ s.toList := by
  rw [← String.endsWith_toSlice, String.Slice.endsWith_string_iff, String.copy_toSlice]
  rfl

/-- The paths that are looked up. -/
theorem pathFault?_eq_none_iff (path : String) :
    pathFault? path = none ↔ '\x00' ∉ path.toList ∧ path ≠ "" ∧ path.utf8ByteSize < maxPath := by
  rw [pathFault?, hasNul]
  split
  · rename_i h
    have hm : '\x00' ∈ path.toList := by simpa using h
    simp [hm]
  · rename_i h
    split
    · rename_i he
      simp [he]
    · rename_i he
      split
      · rename_i hs
        simp only [reduceCtorEq, false_iff, not_and, Nat.not_lt]
        exact fun _ _ => hs
      · rename_i hs
        simp only [true_iff]
        exact ⟨by simpa using h, he, Nat.not_le.1 hs⟩

/-- A name for an entry: not empty, and without a slash. -/
def Single (name : String) : Prop := name ≠ "" ∧ '/' ∉ name.toList

theorem Single.not_startsWith (h : Single name) : name.startsWith "/" = false := by
  rw [← Bool.not_eq_true, startsWith_slash_iff]
  exact fun hp => h.2 (hp.subset (List.mem_singleton.2 rfl))

theorem joinPath_toList (hd : dir ≠ "") (h : Single name) :
    (joinPath dir name).toList =
      if dir.endsWith "/" then dir.toList ++ name.toList else dir.toList ++ '/' :: name.toList := by
  rw [joinPath, h.not_startsWith]
  simp only [hd, decide_false, Bool.or_self, Bool.false_eq_true, if_false]
  split <;> simp

theorem joinPath_ne_empty (hd : dir ≠ "") (h : Single name) : joinPath dir name ≠ "" := by
  intro he
  have := joinPath_toList hd h
  rw [he] at this
  have hn : dir.toList ≠ [] := by simpa using hd
  split at this <;> simp_all

/-- The names of a path. -/
def pathNames (cs : List Char) : List (List Char) := (pieces '/' cs).filter (· ≠ [])

theorem pathNames_append_cons (cs ds : List Char) :
    pathNames (cs ++ '/' :: ds) = pathNames cs ++ pathNames ds := by
  rw [pathNames, pieces_append_cons, List.filter_append]
  rfl

theorem pathNames_single (h : Single name) : pathNames name.toList = [name.toList] := by
  have hn : name.toList ≠ [] := by simpa using h.1
  rw [pathNames, pieces_of_notMem h.2]
  simp [hn]

/-- **The route of an entry** is that of its directory with one more name. -/
theorem Route.of_joinPath (hd : dir ≠ "") (h : Single name) :
    Route.of (joinPath dir name) =
      ⟨(Route.of dir).absolute, (Route.of dir).names ++ [name], false⟩ := by
  have hdl : dir.toList ≠ [] := by simpa using hd
  have hnl : name.toList ≠ [] := by simpa using h.1
  have hl := joinPath_toList hd h
  have habs : (joinPath dir name).startsWith "/" = dir.startsWith "/" := by
    rw [Bool.eq_iff_iff, startsWith_slash_iff, startsWith_slash_iff, hl]
    obtain ⟨c, cs, hc⟩ := List.exists_cons_of_ne_nil hdl
    split <;> simp [hc]
  have hslash : (joinPath dir name).endsWith "/" = false := by
    rw [← Bool.not_eq_true, endsWith_slash_iff, hl]
    intro hs
    -- a slash at the end would be the last character of the name
    obtain ⟨cs, c, hc⟩ := (List.eq_nil_or_concat name.toList).resolve_left hnl
    rw [List.concat_eq_append] at hc
    have hlast : c = '/' := by
      rw [List.singleton_suffix_iff_getLast?_eq_some, hc] at hs
      split at hs
      · rw [← List.append_assoc, List.getLast?_concat] at hs
        exact Option.some.inj hs
      · rw [← List.cons_append, ← List.append_assoc, List.getLast?_concat] at hs
        exact Option.some.inj hs
    exact h.2 (by simp [hc, hlast])
  have hnames : pathNames (joinPath dir name).toList = pathNames dir.toList ++ [name.toList] := by
    rw [hl]
    split
    -- the directory's own slash ends its last name
    · rename_i he
      obtain ⟨cs, hcs⟩ := (endsWith_slash_iff dir).1 he
      rw [← hcs, List.append_assoc, List.singleton_append, pathNames_append_cons,
        pathNames_append_cons, pathNames_single h]
      simp [pathNames, pieces]
    · rw [pathNames_append_cons, pathNames_single h]
  rw [Route.of, Route.of, habs, hslash]
  simp only [Route.mk.injEq, true_and, and_true]
  show (pathNames _).map String.ofList = (pathNames _).map String.ofList ++ _
  rw [hnames]
  simp

namespace FileTree

variable {t t' : FileTree} {d : Place}

/-- A directory is opened by a path. -/
def Opens (t : FileTree) (dir : String) (d : Place) : Prop :=
  t.find dir = .ok d ∧ t.isDir d = true

/-- A name for an entry of a directory that the system accepts. -/
structure Fits (dir name : String) : Prop where
  single : Single name
  proper : Proper name
  path : pathFault? (joinPath dir name) = none

/-- The root is opened by a slash. -/
theorem opens_root (t : FileTree) : t.Opens "/" [] := by
  have hroot : t.isDir [] = true := by simp [isDir, get?]
  have habs : "/".startsWith "/" = true := (startsWith_slash_iff "/").2 (by decide)
  have hslash : "/".endsWith "/" = true := (endsWith_slash_iff "/").2 (by decide)
  have hr : Route.of "/" = ⟨true, [], true⟩ := by
    rw [Route.of, habs, hslash]
    rfl
  have hf : pathFault? "/" = none := by decide
  refine ⟨?_, hroot⟩
  rw [find, hf, hr]
  exact follow_eq_ok_iff.2 ⟨maxLinks, .dot hroot (.nil _ _)⟩

/-- There is nothing in the root of an empty tree. -/
theorem get?_bare_root (name : String) : (bare []).get? ([] ++ [name]) = none := rfl

theorem Opens.fault (h : t.Opens dir d) : pathFault? dir = none := by
  obtain ⟨h, -⟩ := h
  rw [find] at h
  split at h
  · cases h
  · assumption

theorem Opens.ne_empty (h : t.Opens dir d) : dir ≠ "" := by
  rintro rfl
  exact absurd h.fault (by decide)

/-- The names of a directory lead to it, with or without a slash at the end. -/
theorem Opens.walk (h : t.Opens dir d) :
    ∃ links, t.Walk maxLinks (t.origin (Route.of dir)) (Route.of dir).names links d := by
  have hf := h.1
  rw [find, h.fault] at hf
  obtain ⟨links, hw⟩ := follow_eq_ok_iff.1 hf
  rw [Route.steps] at hw
  split at hw
  -- a slash at the end asks for one step more, from the directory to itself
  · obtain ⟨links', q, hw, hdot⟩ := hw.of_append
    rw [hdot.of_dot]
    exact ⟨_, hw⟩
  · exact ⟨links, hw⟩

theorem Opens.mono (h : t.Opens dir d) (ht : t'.Extends t) (hh : t'.home = t.home) :
    t'.Opens dir d := by
  refine ⟨?_, ht.isDir h.2⟩
  have hf := h.1
  rw [find, h.fault] at hf ⊢
  obtain ⟨links, hw⟩ := follow_eq_ok_iff.1 hf
  refine follow_eq_ok_iff.2 ⟨links, ?_⟩
  rw [origin, hh]
  exact hw.mono ht

/-- **The path of an entry** leads into its directory, whether the entry is there or not. -/
theorem entrance_joinPath (h : t.Opens dir d) (hf : Fits dir name) :
    t.entrance (joinPath dir name) = .ok (some (d, name, false)) := by
  obtain ⟨links, hw⟩ := h.walk
  have hfollow : t.follow false maxLinks (t.origin (Route.of dir)) (Route.of dir).names = .ok d :=
    follow_eq_ok_iff.2 ⟨links, hw⟩
  rw [entrance, hf.path, Route.of_joinPath h.ne_empty hf.single]
  simp only [origin] at hfollow ⊢
  simp [hfollow, h.2, hf.proper.1, hf.proper.2.1, Nat.not_lt.2 hf.proper.2.2]

/-- An entry that is a directory is found. -/
theorem find_joinPath (h : t.Opens dir d) (hf : Fits dir name)
    (he : t.get? (d ++ [name]) = some .dir) : t.Opens (joinPath dir name) (d ++ [name]) := by
  refine ⟨?_, by rw [isDir, he]; rfl⟩
  obtain ⟨links, hw⟩ := h.walk
  rw [find, hf.path, Route.of_joinPath h.ne_empty hf.single]
  refine follow_eq_ok_iff.2 ⟨links, ?_⟩
  exact hw.append (.down h.2 hf.proper he (by simp) (.nil _ _))

/-- An entry that is a file is read. -/
theorem contents_joinPath {packing : Packing} {content : Bytes} (h : t.Opens dir d)
    (hf : Fits dir name) (he : t.get? (d ++ [name]) = some (.file packing content)) :
    t.contents (joinPath dir name) = .ok (some content) := by
  have hfind : t.find (joinPath dir name) = .ok (d ++ [name]) := by
    obtain ⟨links, hw⟩ := h.walk
    rw [find, hf.path, Route.of_joinPath h.ne_empty hf.single]
    refine follow_eq_ok_iff.2 ⟨links, ?_⟩
    exact hw.append (.down h.2 hf.proper he (by simp) (.nil _ _))
  rw [contents, hfind]
  simp only [he]

/-- Making a directory that is missing. -/
theorem makeDirs_joinPath (h : t.Opens dir d) (hf : Fits dir name)
    (he : t.get? (d ++ [name]) = none) :
    t.makeDirs (joinPath dir name) = (.ok (), t.put (d ++ [name]) .dir) := by
  have hm : t.makeDir (joinPath dir name) = .ok (t.put (d ++ [name]) .dir) := by
    rw [makeDir, entrance_joinPath h hf]
    simp [he]
  rw [makeDirs, if_neg (joinPath_ne_empty h.ne_empty hf.single)]
  cases parents (joinPath dir name) <;> simp [makeDirsBelow, hm]

/-- Making a directory that is there already. -/
theorem makeDirs_joinPath_of_dir (h : t.Opens dir d) (hf : Fits dir name)
    (he : t.get? (d ++ [name]) = some .dir) : t.makeDirs (joinPath dir name) = (.ok (), t) := by
  have hm : t.makeDir (joinPath dir name) = .error .occupied := by
    rw [makeDir, entrance_joinPath h hf]
    simp [he]
  have hd : t.isDirPath (joinPath dir name) = true := by
    obtain ⟨hfind, hd⟩ := find_joinPath h hf he
    rw [isDirPath, hfind]
    exact hd
  rw [makeDirs, if_neg (joinPath_ne_empty h.ne_empty hf.single)]
  cases parents (joinPath dir name) <;> simp [makeDirsBelow, hm, hd]

/-! ## Links -/

theorem put_erase (t : FileTree) (p : Place) (n : Node) : (t.erase p).put p n = t.put p n := by
  simp only [put, erase, List.filter_filter, Bool.and_self]

theorem put_put (t : FileTree) (p : Place) (m n : Node) : (t.put p m).put p n = t.put p n := by
  simp [put]

/-- Making a link where nothing is. -/
theorem makeLink_of_entrance {path target : String}
    (h : t.entrance path = .ok (some (d, name, false))) (ht : pathFault? target = none)
    (he : t.get? (d ++ [name]) = none) :
    t.makeLink target path = .ok (t.put (d ++ [name]) (.link target)) := by
  have hn : hasNul path = false := by
    rw [entrance, pathFault?] at h
    cases hn : hasNul path with
    | false => rfl
    | true => rw [hn] at h; cases h
  rw [makeLink, hn, ht, h]
  simp [he]

/-- Putting a link where nothing is. -/
theorem relink_of_none {path target : String} (h : t.entrance path = .ok (some (d, name, false)))
    (ht : pathFault? target = none) (he : t.get? (d ++ [name]) = none) :
    t.relink target path = (.ok (), t.put (d ++ [name]) (.link target)) := by
  have hr : t.remove path = .error .noEntry := by
    rw [remove, h]
    simp [he]
  rw [relink, hr]
  simp [makeLink_of_entrance h ht he]

/-- Putting a link in place of what is no directory, and by which the directory is not reached. -/
theorem relink_of_some {path target : String} {n : Node}
    (h : t.entrance path = .ok (some (d, name, false)))
    (h' : (t.erase (d ++ [name])).entrance path = .ok (some (d, name, false)))
    (ht : pathFault? target = none) (he : t.get? (d ++ [name]) = some n) (hn : n ≠ .dir) :
    t.relink target path = (.ok (), t.put (d ++ [name]) (.link target)) := by
  have hr : t.remove path = .ok (t.erase (d ++ [name])) := by
    rw [remove, h]
    cases n with
    | dir => exact absurd rfl hn
    | file | link => simp [he]
  have hg : (t.erase (d ++ [name])).get? (d ++ [name]) = none := by
    rw [get?_erase _ (by simp), if_pos rfl]
  rw [relink, hr]
  simp [makeLink_of_entrance h' ht hg, put_erase]

theorem relink_joinPath {target : String} (h : t.Opens dir d) (hf : Fits dir name)
    (ht : pathFault? target = none) (he : t.get? (d ++ [name]) = none) :
    t.relink target (joinPath dir name) = (.ok (), t.put (d ++ [name]) (.link target)) :=
  relink_of_none (entrance_joinPath h hf) ht he

theorem relink_joinPath_of_link {target old : String} (h : t.Opens dir d)
    (h' : (t.erase (d ++ [name])).Opens dir d) (hf : Fits dir name)
    (ht : pathFault? target = none) (he : t.get? (d ++ [name]) = some (.link old)) :
    t.relink target (joinPath dir name) =
      (.ok (), (t.erase (d ++ [name])).put (d ++ [name]) (.link target)) := by
  rw [put_erase]
  exact relink_of_some (entrance_joinPath h hf) (entrance_joinPath h' hf) ht he nofun

end FileTree

end PhaseSampling
