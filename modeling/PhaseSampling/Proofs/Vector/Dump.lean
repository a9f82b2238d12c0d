import Mathlib.Algebra.Order.BigOperators.Group.List
import Mathlib.Algebra.Order.Ring.Nat
import Mathlib.Data.List.Forall2
import PhaseSampling.Proofs.Vector.Lines

/-!
# What a dump says

* `Histogram.Reads`: the blocks that a dump lists line by line, and the instructions they retired.
* `Histogram.parse_eq_ok_iff`: a dump is read if its lines are in order and its total is a word, and
  what is read is what it says.
* `Histogram.Reads.weights`: the weights of a vector add up to the total of the dump. None of them is
  cut off at the largest word.
-/

namespace PhaseSampling

open Text

/-- A block of `n` instructions has `n` parts between commas. -/
theorem blockLength_eq (key : String) : blockLength key = (pieces ',' key.toList).length := by
  rw [blockLength]
  induction key.toList with
  | nil => rfl
  | cons c cs ih =>
    rw [pieces]
    split
    · rename_i hc
      rw [hc, List.count_cons_self, List.length_cons, ih]
    · rename_i hc
      rw [List.count_cons_of_ne hc, ih]
      split
      · rename_i hnil
        exact absurd hnil (pieces_ne_nil ',' cs)
      · rename_i hcons
        rw [hcons]
        rfl

/-- The instructions that a block retired, however many. -/
def Block.retired (b : Block) : Nat := b.count * (pieces ',' b.key.toList).length

theorem Block.retired_eq (b : Block) : b.retired = b.count * b.length := by
  rw [retired, Block.length, blockLength_eq]

/-- A line with the count of a block, which is not zero, and its instructions. -/
def Block.ReadFrom (b : Block) (line : List Char) : Prop :=
  ∃ count, fields line = [count, b.key.toList] ∧ readWord? count = some b.count ∧ 0 < b.count

namespace Histogram

/-- **What a dump says**: a block on every line, each line ended, and their instructions. -/
structure Reads (dump : String) (h : Histogram) : Prop where
  blocks : ∃ ls, closedLines dump.toList = some ls ∧ List.Forall₂ Block.ReadFrom h.blocks ls
  total : h.total = (h.blocks.map Block.retired).sum

theorem parseLine?_eq_some_iff {line : List Char} {b : Block} :
    parseLine? line = some b ↔ b.ReadFrom line := by
  rw [parseLine?, Block.ReadFrom]
  constructor
  · intro h
    split at h
    · rename_i count key hfields
      split at h
      · rename_i n hn
        cases h
        exact ⟨count, by rw [hfields, String.toList_ofList], hn, Nat.succ_pos n⟩
      · cases h
    · cases h
  · rintro ⟨count, hfields, hread, hpos⟩
    obtain ⟨key, n⟩ := b
    obtain ⟨n, rfl⟩ := Nat.exists_eq_succ_of_ne_zero (Nat.ne_of_gt hpos)
    simp only [hfields, hread, Nat.succ_eq_add_one, String.ofList_toList]

/-- Lines are read if each has a block and the sum does not leave the words. -/
theorem parseLines_eq_ok_iff {k total : Nat} {ls : List (List Char)} {h : Histogram}
    (ht : total < wordLimit) :
    parseLines k total ls = .ok h ↔ List.Forall₂ Block.ReadFrom h.blocks ls ∧
      h.total = total + (h.blocks.map Block.retired).sum ∧ h.total < wordLimit := by
  induction ls generalizing k total h with
  | nil =>
    obtain ⟨blocks, sum⟩ := h
    rw [parseLines, List.forall₂_nil_right_iff]
    constructor
    · intro heq
      cases heq
      exact ⟨rfl, rfl, ht⟩
    · rintro ⟨rfl, rfl, -⟩
      rfl
  | cons line ls ih =>
    rw [parseLines, List.forall₂_cons_right_iff]
    constructor
    · intro heq
      split at heq
      · rename_i b hb
        simp only at heq
        split at heq
        · rename_i hlt
          split at heq
          · rename_i h' hrest
            cases heq
            obtain ⟨hblocks, hsum, hword⟩ := (ih hlt).1 hrest
            refine ⟨⟨b, h'.blocks, parseLine?_eq_some_iff.1 hb, hblocks, rfl⟩, ?_, hword⟩
            rw [List.map_cons, List.sum_cons, Block.retired_eq, hsum, Nat.add_assoc]
          · cases heq
        · cases heq
      · cases heq
    · rintro ⟨⟨b, bs, hb, hblocks, he⟩, hsum, hword⟩
      rw [he, List.map_cons, List.sum_cons, Block.retired_eq, ← Nat.add_assoc] at hsum
      -- the sum at this line is below the whole one
      have hlt : total + b.count * b.length < wordLimit := by omega
      have hrest := (ih (k := k + 1) (h := ⟨bs, h.total⟩) hlt).2 ⟨hblocks, hsum, hword⟩
      simp only [parseLine?_eq_some_iff.2 hb, hlt, if_true, hrest]
      rw [← he]

/-- **A dump is read** just if it says something whose total is a word. -/
theorem parse_eq_ok_iff {dump : String} {h : Histogram} :
    parse dump = .ok h ↔ Reads dump h ∧ h.total < wordLimit := by
  have hpos : 0 < wordLimit := by decide
  rw [parse]
  constructor
  · intro heq
    split at heq
    · rename_i ls hls
      obtain ⟨hblocks, hsum, hword⟩ := (parseLines_eq_ok_iff hpos).1 heq
      exact ⟨⟨⟨ls, hls, hblocks⟩, by rw [hsum, Nat.zero_add]⟩, hword⟩
    · cases heq
  · rintro ⟨⟨⟨ls, hls, hblocks⟩, hsum⟩, hword⟩
    rw [hls]
    exact (parseLines_eq_ok_iff hpos).2 ⟨hblocks, by rw [hsum, Nat.zero_add], hword⟩

/-- **No weight is cut off**, since each is a part of a total that is a word. -/
theorem Reads.weight {dump : String} {h : Histogram} (hr : Reads dump h) (ht : h.total < wordLimit)
    {b : Block} (hb : b ∈ h.blocks) : b.weight = b.retired := by
  have hle : b.retired ≤ h.total := by
    rw [hr.total]
    exact List.le_sum_of_mem (List.mem_map_of_mem hb)
  have hmax : wordMax = wordLimit - 1 := rfl
  rw [Block.weight, ← Block.retired_eq, Nat.min_eq_left (by omega)]

theorem Reads.vector {dump : String} {h : Histogram} (hr : Reads dump h) (ht : h.total < wordLimit)
    (keys : List String) :
    h.vector keys = h.blocks.map fun b => (rank keys b.key, b.retired) := by
  rw [Histogram.vector]
  exact List.map_congr_left fun b hb => congrArg (rank keys b.key, ·) (hr.weight ht hb)

/-- **The weights of a vector add up** to the total of its dump. -/
theorem Reads.weights {dump : String} {h : Histogram} (hr : Reads dump h) (ht : h.total < wordLimit)
    (keys : List String) : ((h.vector keys).map Prod.snd).sum = h.total := by
  rw [hr.vector ht, List.map_map, hr.total]
  rfl

end Histogram

end PhaseSampling
