/-!
# Block numbers

Every block gets a number when it is first seen: 1, 2, 3, … in that order. So the numbers of a
registry are dense and serve as the dimensions of a vector.
-/

namespace PhaseSampling

/-- The blocks seen so far, in first-seen order and each once. -/
structure Registry where
  keys : List String
  deriving DecidableEq, Repr

namespace Registry

def empty : Registry := ⟨[]⟩

def size (r : Registry) : Nat := r.keys.length

/-- The number of a block, one more than its place among the blocks seen. A block not seen before
goes to the end. -/
def number (r : Registry) (key : String) : Nat × Registry :=
  (r.keys.idxOf key + 1, if key ∈ r.keys then r else ⟨r.keys ++ [key]⟩)

/-- The numbers of several blocks, one after the other. -/
def numbers (r : Registry) : List String → List Nat × Registry
  | [] => ([], r)
  | key :: keys =>
    let (n, r) := r.number key
    let (ns, r) := r.numbers keys
    (n :: ns, r)

/-- A block keeps the number it got. -/
theorem number_number (r : Registry) (key : String) :
    (r.number key).2.number key = r.number key := by
  by_cases h : key ∈ r.keys
  · simp [number, h]
  · have hi : (r.keys ++ [key]).idxOf key = r.keys.idxOf key := by
      rw [List.idxOf_append, if_neg h, List.idxOf_cons_self, List.idxOf_eq_length h, Nat.zero_add]
    simp [number, h, hi]

end Registry

end PhaseSampling
