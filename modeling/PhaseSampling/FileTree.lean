import PhaseSampling.Text.Utf8

/-!
# File trees

A tree of directories, files and symbolic links. A `Place` is the list of names on the way from
the root; each place holds at most one node. `get?_put` and `get?_erase` say what a change does:
one place gets or loses its node, and no other changes.
-/

namespace PhaseSampling

/-- How the content of a file is packed. -/
inductive Packing where
  | plain
  | zstd
  | gzip
  deriving DecidableEq, Repr

inductive Node where
  | dir
  /-- A file with its content before packing. -/
  | file (packing : Packing) (content : Bytes)
  | link (target : String)
  deriving DecidableEq, Repr

/-- The names from the root to a node. -/
abbrev Place := List String

structure FileTree where
  /-- Where paths that do not start at the root start. -/
  home : Place
  nodes : List (Place × Node)
  deriving DecidableEq, Repr

namespace FileTree

/-- The node at a place. The root is always a directory. -/
def get? (t : FileTree) (p : Place) : Option Node :=
  if p = [] then some .dir else t.nodes.lookup p

def isDir (t : FileTree) (p : Place) : Bool := t.get? p == some .dir

/-- Puts a node at a place, in place of the one there. -/
def put (t : FileTree) (p : Place) (n : Node) : FileTree :=
  { t with nodes := (p, n) :: t.nodes.filter (·.1 ≠ p) }

/-- Removes the node at a place. -/
def erase (t : FileTree) (p : Place) : FileTree :=
  { t with nodes := t.nodes.filter (·.1 ≠ p) }

/-- A tree with nothing but the directories down to `home`. -/
def bare (home : Place) : FileTree :=
  ⟨home, (List.range home.length).map fun i => (home.take (i + 1), .dir)⟩

private theorem lookup_filter_ne (l : List (Place × Node)) (p q : Place) :
    (l.filter (·.1 ≠ p)).lookup q = if q = p then none else l.lookup q := by
  induction l with
  | nil => simp
  | cons e l ih =>
    obtain ⟨r, n⟩ := e
    by_cases hr : r = p
    · subst hr
      by_cases hq : q = r
      · subst hq; simp at ih; simpa using ih
      · have : (q == r) = false := by simpa using hq
        simp [List.lookup_cons, this, hq] at ih ⊢; exact ih
    · by_cases hq : q = r
      · subst hq; simp [hr]
      · have : (q == r) = false := by simpa using hq
        simp [List.lookup_cons, this, hr] at ih ⊢; exact ih

theorem get?_put (t : FileTree) {p : Place} (hp : p ≠ []) (n : Node) (q : Place) :
    (t.put p n).get? q = if q = p then some n else t.get? q := by
  by_cases hq : q = []
  · subst hq; simp [get?, hp.symm]
  · by_cases h : q = p
    · subst h; simp [get?, put, hq]
    · have hb : (q == p) = false := by simpa using h
      have := lookup_filter_ne t.nodes p q
      simp only [h, if_false] at this
      simp only [get?, put, hq, h, if_false, List.lookup_cons, hb, this]

theorem get?_erase (t : FileTree) {p : Place} (hp : p ≠ []) (q : Place) :
    (t.erase p).get? q = if q = p then none else t.get? q := by
  by_cases hq : q = []
  · subst hq; simp [get?, hp.symm]
  · simp only [get?, erase, hq, if_false]
    exact lookup_filter_ne t.nodes p q

/-- Everything below a directory, with paths from there, in the order of the paths. -/
def listing (t : FileTree) (p : Place) : List (String × Node) :=
  let below := t.nodes.filterMap fun (q, n) =>
    if q.length > p.length ∧ q.take p.length = p then
      some (String.intercalate "/" (q.drop p.length), n)
    else none
  below.mergeSort fun a b => !(b.1 < a.1)

end FileTree

end PhaseSampling
