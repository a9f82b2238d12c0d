import Mathlib.Order.Bounds.Basic
import PhaseSampling.Proofs.Text.Fields
import PhaseSampling.Proofs.Vector.Dump

/-!
# The verdict on a dump

* `Block.On`: the lines that tell of a block, by what stands on them.
* `Histogram.Faulty`: a line of a dump that cannot be taken in, because of what stands on it or
  because of the sum of what was taken in.
* `Histogram.Verdict`: the verdict on a dump, in terms of its lines.
* `Histogram.parse_verdict`: **a dump is refused for its first fault**, and the total of one that is
  read is exact.
-/

namespace PhaseSampling

open Text

/-- A line with two fields: the count of a block, which is a word other than zero, and its key. -/
def Block.On (b : Block) (line : List Char) : Prop :=
  ∃ before count gap after, line = before ++ count ++ gap ++ b.key.toList ++ after ∧
    Blanks before ∧ Solid count ∧ gap ≠ [] ∧ Blanks gap ∧ Solid b.key.toList ∧ Blanks after ∧
    Numeral count b.count ∧ 0 < b.count ∧ b.count < wordLimit

theorem Block.on_iff {b : Block} {line : List Char} : b.On line ↔ b.ReadFrom line := by
  rw [Block.ReadFrom]
  constructor
  · rintro ⟨before, count, gap, after, hline, hb, hc, hne, hg, hk, ha, hnum, hpos, hlt⟩
    refine ⟨count, ?_, readWord?_eq_some_iff.2 ⟨hnum, hlt⟩, hpos⟩
    exact fields_eq_pair_iff.2 ⟨before, gap, after, hline, hb, hc, hne, hg, hk, ha⟩
  · rintro ⟨count, hfields, hread, hpos⟩
    obtain ⟨before, gap, after, hline, hb, hc, hne, hg, hk, ha⟩ := fields_eq_pair_iff.1 hfields
    obtain ⟨hnum, hlt⟩ := readWord?_eq_some_iff.1 hread
    exact ⟨before, count, gap, after, hline, hb, hc, hne, hg, hk, ha, hnum, hpos, hlt⟩

/-- A line tells of one block at most. -/
theorem Block.On.unique {b b' : Block} {line : List Char} (h : b.On line) (h' : b'.On line) :
    b = b' := by
  have hb := Histogram.parseLine?_eq_some_iff.2 (on_iff.1 h)
  rw [Histogram.parseLine?_eq_some_iff.2 (on_iff.1 h')] at hb
  exact (Option.some.inj hb).symm

/-- The instructions that some blocks retired: of each its count times one more than its commas. -/
def retired (bs : List Block) : Nat := (bs.map fun b => b.count * (1 + b.key.toList.count ',')).sum

theorem retired_eq (bs : List Block) : retired bs = (bs.map Block.retired).sum := by
  refine congrArg List.sum (List.map_congr_left fun b _ => ?_)
  rw [Block.retired_eq, Nat.add_comm]
  rfl

theorem retired_append (bs bs' : List Block) : retired (bs ++ bs') = retired bs + retired bs' := by
  rw [retired, List.map_append, List.sum_append]
  rfl

theorem retired_singleton (b : Block) : retired [b] = b.count * b.length := by
  rw [retired_eq, List.map_singleton, List.sum_singleton, Block.retired_eq]

namespace Histogram

variable {ls : List (List Char)} {bs : List Block} {i j k total : Nat} {dump : String} {f : Fault}

/-- A line that cannot be taken in: it tells of no block, or the lines up to it retired more
instructions than a word counts. -/
def Faulty (ls : List (List Char)) (i : Nat) : Prop :=
  ∃ line, ls[i]? = some line ∧ ((∀ b : Block, ¬ b.On line) ∨
    ∃ bs, List.Forall₂ Block.On bs (ls.take (i + 1)) ∧ wordLimit ≤ retired bs)

/-- **The verdict on a dump.** -/
inductive Verdict (dump : String) : Except Fault Histogram → Prop where
  | read {ls : List (List Char)} {h : Histogram} (hl : MadeOf dump.toList ls)
      (hb : List.Forall₂ Block.On h.blocks ls) (ht : h.total = retired h.blocks)
      (hw : h.total < wordLimit) : Verdict dump (.ok h)
  | unterminated (hne : dump ≠ "") (hl : dump.toList.getLast? ≠ some '\n') :
      Verdict dump (.error .unterminatedHistogram)
  | malformed {ls : List (List Char)} {i : Nat} {line : List Char} (hl : MadeOf dump.toList ls)
      (hi : IsLeast {j | Faulty ls j} i) (hline : ls[i]? = some line) :
      Verdict dump (.error (.malformedHistogram (i + 1) (String.ofList line)))

theorem forall₂_readFrom_iff :
    List.Forall₂ Block.ReadFrom bs ls ↔ List.Forall₂ Block.On bs ls := by
  constructor
  · exact List.Forall₂.imp fun b line => Block.on_iff.2
  · exact List.Forall₂.imp fun b line => Block.on_iff.1

/-- Lines that are in order have no fault. -/
theorem not_faulty (hb : List.Forall₂ Block.On bs ls) (ht : retired bs < wordLimit) (i : Nat) :
    ¬ Faulty ls i := by
  rintro ⟨line, hline, hnone | ⟨bs', hbs', hge⟩⟩
  · obtain ⟨hi, rfl⟩ := List.getElem?_eq_some_iff.1 hline
    have hi' : i < bs.length := by rwa [hb.length_eq]
    exact hnone bs[i] (hb.get hi' hi)
  · have htake : List.Forall₂ Block.On (bs.take (i + 1)) (ls.take (i + 1)) :=
      List.forall₂_take (i + 1) hb
    have hsame : bs' = bs.take (i + 1) :=
      List.left_unique_forall₂' (fun b b' line h h' => h.unique h') hbs' htake
    have hsum : retired bs = retired (bs.take (i + 1)) + retired (bs.drop (i + 1)) := by
      rw [← retired_append, List.take_append_drop]
    rw [hsame] at hge
    omega

/-- Whether a line is at fault is seen from the lines up to it. -/
theorem faulty_take (h : j < i) : Faulty (ls.take i) j ↔ Faulty ls j := by
  rw [Faulty, Faulty, List.getElem?_take_of_lt h, List.take_take, Nat.min_eq_left h]

/-- **The line at which reading stops**: those before it are in order, and it cannot be taken in. -/
theorem exists_of_parseLines_error (ht : total < wordLimit) (h : parseLines k total ls = .error f) :
    ∃ i line bs, ls[i]? = some line ∧ f = .malformedHistogram (k + i) (String.ofList line) ∧
      List.Forall₂ Block.On bs (ls.take i) ∧ total + retired bs < wordLimit ∧
      ((∀ b : Block, ¬ b.On line) ∨
        ∃ b : Block, b.On line ∧ wordLimit ≤ total + retired (bs ++ [b])) := by
  induction ls generalizing k total with
  | nil => cases h
  | cons line ls ih =>
    rw [parseLines] at h
    cases hb : parseLine? line with
    | none =>
      rw [hb] at h
      cases h
      refine ⟨0, line, [], rfl, rfl, .nil, ht, .inl fun b hon => ?_⟩
      rw [parseLine?_eq_some_iff.2 (Block.on_iff.1 hon)] at hb
      cases hb
    | some b =>
      rw [hb] at h
      have hon : b.On line := Block.on_iff.2 (parseLine?_eq_some_iff.1 hb)
      by_cases hlt : total + b.count * b.length < wordLimit
      -- the fault lies further on
      · simp only [if_pos hlt] at h
        cases hrest : parseLines (k + 1) (total + b.count * b.length) ls with
        | ok h' =>
          rw [hrest] at h
          cases h
        | error f' =>
          rw [hrest] at h
          cases h
          obtain ⟨i, line', bs, hline, rfl, hbs, hsum, hfault⟩ := ih hlt hrest
          have hcons : ∀ bs, retired (b :: bs) = b.count * b.length + retired bs := by
            intro bs
            rw [← List.singleton_append, retired_append, retired_singleton]
          refine ⟨i + 1, line', b :: bs, hline, ?_, .cons hon hbs, ?_, ?_⟩
          · rw [Nat.add_assoc, Nat.add_comm 1 i]
          · rw [hcons]
            omega
          · refine hfault.imp id ?_
            rintro ⟨b', hon', hge⟩
            refine ⟨b', hon', ?_⟩
            rw [List.cons_append, hcons]
            omega
      · simp only [if_neg hlt] at h
        cases h
        refine ⟨0, line, [], rfl, rfl, .nil, ht, .inr ⟨b, hon, ?_⟩⟩
        rw [List.nil_append, retired_singleton]
        exact Nat.not_lt.1 hlt

/-- Reading stops at the first line with a fault. -/
theorem isLeast_of_parseLines_error (h : parseLines 1 0 ls = .error f) :
    ∃ i line, IsLeast {j | Faulty ls j} i ∧ ls[i]? = some line ∧
      f = .malformedHistogram (i + 1) (String.ofList line) := by
  obtain ⟨i, line, bs, hline, rfl, hbs, hsum, hfault⟩ :=
    exists_of_parseLines_error (by decide) h
  rw [Nat.zero_add] at hsum
  refine ⟨i, line, ⟨⟨line, hline, hfault.imp id ?_⟩, fun j hj => ?_⟩, hline, by rw [Nat.add_comm]⟩
  · rintro ⟨b, hon, hge⟩
    refine ⟨bs ++ [b], ?_, by rwa [Nat.zero_add] at hge⟩
    rw [List.take_add_one, hline]
    exact List.rel_append hbs (.cons hon .nil)
  · refine Nat.not_lt.1 fun hlt => ?_
    exact not_faulty hbs hsum j ((faulty_take hlt).2 hj)

/-- Reading a dump gives a verdict. -/
theorem verdict_parse (dump : String) : Verdict dump (parse dump) := by
  rw [parse]
  cases hls : closedLines dump.toList with
  | none =>
    obtain ⟨hne, hlast⟩ := closedLines_eq_none_iff.1 hls
    exact .unterminated (fun h => hne (by rw [h]; rfl)) hlast
  | some ls =>
    have hl := closedLines_eq_some_iff.1 hls
    show Verdict dump (parseLines 1 0 ls)
    cases hread : parseLines 1 0 ls with
    | ok h =>
      obtain ⟨hb, ht, hw⟩ := (parseLines_eq_ok_iff (by decide)).1 hread
      refine .read hl (forall₂_readFrom_iff.1 hb) ?_ hw
      rw [ht, Nat.zero_add, retired_eq]
    | error f =>
      obtain ⟨i, line, hi, hline, rfl⟩ := isLeast_of_parseLines_error hread
      exact .malformed hl hi hline

/-- There is no other verdict. -/
theorem Verdict.parse_eq {v : Except Fault Histogram} (h : Verdict dump v) : parse dump = v := by
  cases h with
  | @read ls h hl hb ht hw =>
    have hreads : Reads dump h :=
      ⟨⟨ls, closedLines_eq_some_iff.2 hl, forall₂_readFrom_iff.2 hb⟩, by rw [ht, retired_eq]⟩
    exact parse_eq_ok_iff.2 ⟨hreads, hw⟩
  | unterminated hne hl =>
    have hnil : dump.toList ≠ [] := fun h => hne (String.toList_inj.1 h)
    rw [parse, closedLines_eq_none_iff.2 ⟨hnil, hl⟩]
  | @malformed ls i line hl hi hline =>
    rw [parse, closedLines_eq_some_iff.2 hl]
    show parseLines 1 0 ls = _
    cases hread : parseLines 1 0 ls with
    | ok h =>
      obtain ⟨hb, ht, hw⟩ := (parseLines_eq_ok_iff (by decide)).1 hread
      rw [ht, Nat.zero_add, ← retired_eq] at hw
      exact absurd hi.1 (not_faulty (forall₂_readFrom_iff.1 hb) hw i)
    | error f =>
      obtain ⟨i', line', hi', hline', rfl⟩ := isLeast_of_parseLines_error hread
      rw [hi'.unique hi] at hline' ⊢
      rw [hline] at hline'
      cases hline'
      rfl

/-- No weight of a dump that is read is cut off at the largest word. -/
theorem weight_of_parse {h : Histogram} (hp : parse dump = .ok h) {b : Block} (hb : b ∈ h.blocks) :
    b.weight = b.count * b.length := by
  obtain ⟨hr, hlt⟩ := parse_eq_ok_iff.1 hp
  rw [hr.weight hlt hb, Block.retired_eq]

/-- **A dump is refused for its first fault**, which is that its last line is left open, whatever the
lines hold, or else the first line that tells of no block or takes the sum beyond the words. A dump
that is read lists its blocks in the order of its lines. Its total is exact, and it is the sum of the
weights. -/
theorem parse_verdict (dump : String) :
    (∀ v, parse dump = v ↔ Verdict dump v) ∧
    ∀ h, parse dump = .ok h → h.total = (h.blocks.map Block.weight).sum ∧
      ∀ b ∈ h.blocks, b.weight = b.count * b.length := by
  refine ⟨fun v => ⟨fun h => ?_, Verdict.parse_eq⟩, fun h hp => ⟨?_, fun b hb => ?_⟩⟩
  · rw [← h]
    exact verdict_parse dump
  · have hweights : h.blocks.map Block.weight = h.blocks.map Block.retired :=
      List.map_congr_left fun b hb => by rw [weight_of_parse hp hb, Block.retired_eq]
    rw [hweights]
    exact (parse_eq_ok_iff.1 hp).1.total
  · exact weight_of_parse hp hb

/-- A dump of two blocks, and one whose second line has a fault that the third one has too. -/
theorem parse_verdict_two :
    (11 = ([⟨"a,b", 4⟩, ⟨"c", 3⟩].map Block.weight).sum ∧
      ∀ b ∈ [(⟨"a,b", 4⟩ : Block), ⟨"c", 3⟩], b.weight = b.count * b.length) ∧
    Verdict "+04 a,b
	0 c
3
" (.error (.malformedHistogram 2 "	0 c")) := by
  have hread : parse "+04 a,b
  3	c 
" = .ok ⟨[⟨"a,b", 4⟩, ⟨"c", 3⟩], 11⟩ := by decide +kernel
  have hrefused : parse "+04 a,b
	0 c
3
" = .error (.malformedHistogram 2 "	0 c") := by
    decide +kernel
  exact ⟨(parse_verdict _).2 _ hread, ((parse_verdict _).1 _).1 hrefused⟩

end Histogram

end PhaseSampling
