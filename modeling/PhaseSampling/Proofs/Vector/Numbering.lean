import Mathlib.Data.Finset.Card
import Mathlib.Data.Set.Function
import Mathlib.Order.Interval.Set.Defs
import PhaseSampling.Registry

/-!
# The numbers of blocks

* `rank`: the number of a block in a sequence of blocks, by the different ones that were seen before
  it. It stays when the sequence goes on (`rank_append`).
* `rank_bijOn`: ranks are dense.
* `Registry.Knows`: a registry that has seen some blocks. It numbers them by their ranks
  (`Knows.numbers`).
-/

namespace PhaseSampling

/-- One more than there are different keys before the first occurrence of a key. -/
def rank (keys : List String) (key : String) : Nat :=
  (keys.takeWhile (· ≠ key)).toFinset.card + 1

variable {r : Registry} {keys seen : List String} {key : String}

/-! ## Keys in first-seen order -/

theorem eraseDups_concat (keys : List String) (key : String) :
    (keys ++ [key]).eraseDups =
      if key ∈ keys then keys.eraseDups else keys.eraseDups ++ [key] := by
  rw [List.eraseDups_append, List.removeAll, List.filter_singleton]
  by_cases h : key ∈ keys <;> simp [h, List.eraseDups_cons]

theorem nodup_eraseDups (keys : List String) : keys.eraseDups.Nodup := by
  induction keys using List.reverseRecOn with
  | nil => exact List.nodup_nil
  | append_singleton keys key ih =>
    rw [eraseDups_concat]
    split
    · exact ih
    · rename_i h
      rw [List.nodup_append]
      refine ⟨ih, List.nodup_singleton _, fun a ha b hb => ?_⟩
      rw [List.mem_singleton.1 hb]
      rintro rfl
      exact h (List.mem_eraseDups.1 ha)

theorem length_eraseDups (keys : List String) : keys.eraseDups.length = keys.toFinset.card := by
  have hset : keys.eraseDups.toFinset = keys.toFinset := by
    ext key
    simp
  rw [← hset, List.toFinset_card_of_nodup (nodup_eraseDups keys)]

/-- A key stays where it is when more are seen. -/
theorem idxOf_eraseDups_append (h : key ∈ keys) (more : List String) :
    (keys ++ more).eraseDups.idxOf key = keys.eraseDups.idxOf key := by
  rw [List.eraseDups_append, List.idxOf_append, if_pos (List.mem_eraseDups.2 h)]

/-! ## Ranks -/

/-- The keys before the first occurrence decide. -/
theorem rank_append_cons {before : List String} (h : key ∉ before) (after : List String) :
    rank (before ++ key :: after) key = before.toFinset.card + 1 := by
  have hall : ∀ k ∈ before, decide (k ≠ key) = true := fun k hk =>
    decide_eq_true fun he => h (he ▸ hk)
  rw [rank, List.takeWhile_append_of_pos hall, List.takeWhile_cons_of_neg (by simp),
    List.append_nil]

/-- **The rank of a key stays** when more are seen. -/
theorem rank_append (h : key ∈ keys) (more : List String) :
    rank (keys ++ more) key = rank keys key := by
  obtain ⟨before, after, rfl, hn⟩ := List.eq_append_cons_of_mem h
  rw [List.append_assoc, List.cons_append, rank_append_cons hn, rank_append_cons hn]

/-- **The rank of a key** is its place among the keys in first-seen order. -/
theorem rank_eq (h : key ∈ keys) : rank keys key = keys.eraseDups.idxOf key + 1 := by
  obtain ⟨before, after, rfl, hn⟩ := List.eq_append_cons_of_mem h
  have hsplit : before ++ key :: after = before ++ [key] ++ after := by simp
  rw [rank_append_cons hn, hsplit, idxOf_eraseDups_append (by simp), eraseDups_concat, if_neg hn,
    List.idxOf_append, if_neg (mt List.mem_eraseDups.1 hn), List.idxOf_cons_self, Nat.zero_add,
    length_eraseDups]

/-- **Ranks are dense**: they number the different keys from 1 on, each with a number of its own. -/
theorem rank_bijOn (keys : List String) :
    Set.BijOn (rank keys) {key | key ∈ keys} (Set.Icc 1 keys.toFinset.card) := by
  rw [← length_eraseDups]
  refine ⟨fun key h => ?_, fun key h key' h' he => ?_, fun n hn => ?_⟩
  · rw [rank_eq h]
    exact ⟨Nat.le_add_left 1 _, List.idxOf_lt_length_of_mem (List.mem_eraseDups.2 h)⟩
  · rw [rank_eq h, rank_eq h'] at he
    exact (List.idxOf_inj (List.mem_eraseDups.2 h)).1 (Nat.succ.inj he)
  · -- the key at place `n - 1`
    obtain ⟨hpos, hle⟩ := hn
    have hlt : n - 1 < keys.eraseDups.length := by omega
    have hmem : keys.eraseDups[n - 1] ∈ keys := List.mem_eraseDups.1 (List.getElem_mem hlt)
    refine ⟨keys.eraseDups[n - 1], hmem, ?_⟩
    rw [rank_eq hmem, (nodup_eraseDups keys).idxOf_getElem]
    omega

/-! ## Registries -/

namespace Registry

/-- A registry that has seen some keys. -/
def Knows (r : Registry) (seen : List String) : Prop := r.keys = seen.eraseDups

theorem knows_empty : Registry.empty.Knows [] := rfl

theorem Knows.size (h : r.Knows seen) : r.size = seen.toFinset.card := by
  rw [Registry.size, h, length_eraseDups]

/-- **One key more** gets its rank. -/
theorem Knows.number (h : r.Knows seen) (key : String) :
    (r.number key).1 = rank (seen ++ [key]) key ∧ (r.number key).2.Knows (seen ++ [key]) := by
  have hkeys : (r.number key).2.Knows (seen ++ [key]) := by
    rw [Knows, eraseDups_concat, Registry.number, h]
    simp only [List.mem_eraseDups]
    split
    · exact h
    · rfl
  refine ⟨?_, hkeys⟩
  -- the number is the place of the key in the registry that has it
  have hnumber := congrArg Prod.fst (r.number_number key)
  rw [rank_eq (by simp), ← hkeys, ← hnumber]
  rfl

/-- A key that was seen keeps its rank as its number, and the registry stays. -/
theorem Knows.number_of_mem (h : r.Knows seen) (hk : key ∈ seen) :
    r.number key = (rank seen key, r) := by
  rw [Registry.number, rank_eq hk, ← h, if_pos]
  rw [h, List.mem_eraseDups]
  exact hk

/-- **A registry numbers keys by their ranks**, among all it has seen. -/
theorem Knows.numbers (h : r.Knows seen) (keys : List String) :
    (r.numbers keys).1 = keys.map (rank (seen ++ keys)) ∧
      (r.numbers keys).2.Knows (seen ++ keys) := by
  induction keys generalizing r seen with
  | nil => exact ⟨rfl, by rwa [List.append_nil]⟩
  | cons key keys ih =>
    obtain ⟨hnumber, hkeys⟩ := h.number key
    obtain ⟨hnumbers, hall⟩ := ih hkeys
    rw [List.append_assoc, List.singleton_append] at hnumbers hall
    refine ⟨?_, hall⟩
    have hrank : rank (seen ++ key :: keys) key = rank (seen ++ [key]) key := by
      have hsplit : seen ++ key :: keys = seen ++ [key] ++ keys := by simp
      rw [hsplit, rank_append (by simp)]
    rw [List.map_cons, hrank, ← hnumber, ← hnumbers]
    rfl

end Registry

end PhaseSampling
