import PhaseSampling.FileTree.Change

/-!
# Walks through a file tree

* `FileTree.Walk`: the walks that lead to a node, step by step.
* `FileTree.follow_eq_ok_iff`: `follow` finds them.
* `FileTree.Walk.append`, `FileTree.Walk.mono`: walks can be put together, and they are still there
  in a tree with more nodes.
-/

namespace PhaseSampling.FileTree

/-- A name that stands for itself. -/
def Proper (name : String) : Prop := name ≠ "." ∧ name ≠ ".." ∧ name.utf8ByteSize ≤ maxName

/-- `t.Walk links p names links' q`: a walk from `p` along `names` ends at `q`, with `links'` of
`links` links left. -/
inductive Walk (t : FileTree) : Nat → Place → List String → Nat → Place → Prop where
  | nil (links : Nat) (p : Place) : Walk t links p [] links p
  | dot {links links' : Nat} {p q : Place} {names : List String} (hd : t.isDir p = true)
      (h : Walk t links p names links' q) : Walk t links p ("." :: names) links' q
  | up {links links' : Nat} {p q : Place} {names : List String} (hd : t.isDir p = true)
      (h : Walk t links p.dropLast names links' q) : Walk t links p (".." :: names) links' q
  | link {links links' : Nat} {p q : Place} {name target : String} {names : List String}
      (hd : t.isDir p = true) (hn : Proper name) (hg : t.get? (p ++ [name]) = some (.link target))
      (h : Walk t links (if (Route.of target).absolute then [] else p)
        ((Route.of target).steps ++ names) links' q) :
      Walk t (links + 1) p (name :: names) links' q
  | down {links links' : Nat} {p q : Place} {name : String} {n : Node} {names : List String}
      (hd : t.isDir p = true) (hn : Proper name) (hg : t.get? (p ++ [name]) = some n)
      (hl : ∀ target, n ≠ .link target) (h : Walk t links (p ++ [name]) names links' q) :
      Walk t links p (name :: names) links' q

variable {t t' : FileTree} {links links' : Nat} {p q r : Place} {names more : List String}

/-- **A path that is followed is a walk.** -/
theorem follow_eq_ok_iff :
    t.follow false links p names = .ok q ↔ ∃ links', t.Walk links p names links' q := by
  constructor
  -- by the recursion of `follow`; its other cases are the errors
  · intro h
    fun_induction follow t false links p names with
    | case1 => cases h; exact ⟨_, .nil _ _⟩
    | case2 => cases h
    | case3 _ _ _ hd ih =>
      obtain ⟨l, h⟩ := ih h
      exact ⟨l, .dot (by simpa using hd) h⟩
    | case4 _ _ _ hd _ ih =>
      obtain ⟨l, h⟩ := ih h
      exact ⟨l, .up (by simpa using hd) h⟩
    | case5 => cases h
    | case6 _ _ _ _ _ _ _ _ _ hf => simp at hf
    | case7 => cases h
    | case8 => cases h
    | case9 _ _ _ hd hn hn' hs target _ hg r ih =>
      obtain ⟨l, h⟩ := ih h
      exact ⟨l, .link (by simpa using hd) ⟨hn, hn', Nat.not_lt.1 hs⟩ hg h⟩
    | case10 p name rest hd hn hn' hs n links hl hl' hg ih =>
      obtain ⟨l, h⟩ := ih h
      refine ⟨l, .down (by simpa using hd) ⟨hn, hn', Nat.not_lt.1 hs⟩ hg (fun target ht => ?_) h⟩
      cases links with
      | zero => exact hl target rfl ht
      | succ links => exact hl' target links rfl ht
  · rintro ⟨links', h⟩
    induction h with
    | nil => rw [follow]
    | dot hd h ih => unfold follow; simpa [hd] using ih
    | up hd h ih => unfold follow; simpa [hd] using ih
    | link hd hn hg h ih =>
      unfold follow
      simpa [hd, hn.1, hn.2.1, Nat.not_lt.2 hn.2.2, hg] using ih
    | @down links links' p q name n names hd hn hg hl h ih =>
      unfold follow
      cases n with
      | link target => exact absurd rfl (hl target)
      | dir | file => simpa [hd, hn.1, hn.2.1, Nat.not_lt.2 hn.2.2, hg] using ih

/-- A walk and one from where it ends. -/
theorem Walk.append {links'' : Nat} (h : t.Walk links p names links' q)
    (h' : t.Walk links' q more links'' r) : t.Walk links p (names ++ more) links'' r := by
  induction h with
  | nil => exact h'
  | dot hd h ih => exact .dot hd (ih h')
  | up hd h ih => exact .up hd (ih h')
  | link hd hn hg h ih =>
    rw [List.cons_append]
    refine .link hd hn hg ?_
    rw [← List.append_assoc]
    exact ih h'
  | down hd hn hg hl h ih => exact .down hd hn hg hl (ih h')

/-- The first part of a walk. -/
theorem Walk.of_append {links'' : Nat} (h : t.Walk links p (names ++ more) links'' r) :
    ∃ links' q, t.Walk links p names links' q ∧ t.Walk links' q more links'' r := by
  generalize hl : names ++ more = all at h
  -- on the walk; a link puts its own names before `names`, and the rest is still `more`
  induction h generalizing names with
  | nil =>
    obtain ⟨rfl, rfl⟩ := List.append_eq_nil_iff.1 hl
    exact ⟨_, _, .nil _ _, .nil _ _⟩
  | dot hd h ih =>
    cases names with
    | nil => cases hl; exact ⟨_, _, .nil _ _, .dot hd h⟩
    | cons name names =>
      cases hl
      obtain ⟨l, q, h₁, h₂⟩ := ih rfl
      exact ⟨l, q, .dot hd h₁, h₂⟩
  | up hd h ih =>
    cases names with
    | nil => cases hl; exact ⟨_, _, .nil _ _, .up hd h⟩
    | cons name names =>
      cases hl
      obtain ⟨l, q, h₁, h₂⟩ := ih rfl
      exact ⟨l, q, .up hd h₁, h₂⟩
  | link hd hn hg h ih =>
    cases names with
    | nil => cases hl; exact ⟨_, _, .nil _ _, .link hd hn hg h⟩
    | cons name names =>
      cases hl
      obtain ⟨l, q, h₁, h₂⟩ := ih (List.append_assoc _ _ _)
      exact ⟨l, q, .link hd hn hg h₁, h₂⟩
  | down hd hn hg hln h ih =>
    cases names with
    | nil => cases hl; exact ⟨_, _, .nil _ _, .down hd hn hg hln h⟩
    | cons name names =>
      cases hl
      obtain ⟨l, q, h₁, h₂⟩ := ih rfl
      exact ⟨l, q, .down hd hn hg hln h₁, h₂⟩

theorem Walk.of_dot (h : t.Walk links p ["."] links' q) : q = p := by
  generalize hl : ["."] = l at h
  cases h with
  | nil => cases hl
  | dot hd h => cases hl; cases h; rfl
  | up hd h => exact absurd (List.cons.inj hl).1 (by decide)
  | link hd hn => exact absurd (List.cons.inj hl).1.symm hn.1
  | down hd hn => exact absurd (List.cons.inj hl).1.symm hn.1

/-- A tree with the nodes of another one, and maybe more. -/
def Extends (t' t : FileTree) : Prop := ∀ p n, t.get? p = some n → t'.get? p = some n

theorem Extends.isDir (ht : t'.Extends t) (h : t.isDir p = true) : t'.isDir p = true := by
  rw [FileTree.isDir, beq_iff_eq] at h ⊢
  exact ht p _ h

/-- **Walks are still there** in a tree with more nodes. -/
theorem Walk.mono (h : t.Walk links p names links' q) (ht : t'.Extends t) :
    t'.Walk links p names links' q := by
  induction h with
  | nil => exact .nil _ _
  | dot hd h ih => exact .dot (ht.isDir hd) ih
  | up hd h ih => exact .up (ht.isDir hd) ih
  | link hd hn hg h ih => exact .link (ht.isDir hd) hn (ht _ _ hg) ih
  | down hd hn hg hl h ih => exact .down (ht.isDir hd) hn (ht _ _ hg) hl ih

end PhaseSampling.FileTree
