import PhaseSampling.Checkpoint.Table
import PhaseSampling.Proofs.Chunks.Numbering
import PhaseSampling.Proofs.Replay.Schedule
import PhaseSampling.Proofs.Text.Lines

/-!
# Reading long names

A long name is read from its end: eight fields behind underscores, and what is left in front of them.
A label may hold anything, also what looks like such fields.

* `LongName.read?`: the reader. It reads exactly what is spelled (`read?_eq_some_iff`).
* `Checkpoint.Tells`: the boundary of a checkpoint, its long name and its cells in a table agree.
* `checkpoints_tell_one_story`: **all checkpoints of a replay and of a run in chunks** do.
-/

namespace PhaseSampling

open PhaseSampling.Flow Text

/-! ## Reading from the end -/

/-- Cuts at the last separator. -/
def splitLast (sep : Char) (cs : List Char) : Option (List Char × List Char) :=
  (splitOnce sep cs.reverse).map fun (back, front) => (front.reverse, back.reverse)

/-- Takes a number of fields off the end, each with the underscore before it. -/
def lastFields : Nat → List Char → Option (List Char × List (List Char))
  | 0, cs => some (cs, [])
  | n + 1, cs => do
    let (front, field) ← splitLast '_' cs
    let (front, fields) ← lastFields n front
    return (front, fields ++ [field])

theorem notMem_of_splitOnce {sep : Char} {cs a b : List Char}
    (h : splitOnce sep cs = some (a, b)) : sep ∉ a := by
  induction cs generalizing a with
  | nil => cases h
  | cons c cs ih =>
    rw [splitOnce] at h
    split at h
    · cases h
      exact List.not_mem_nil
    · rename_i hc
      obtain ⟨⟨a', b'⟩, hs, he⟩ := Option.map_eq_some_iff.1 h
      cases he
      rw [List.mem_cons, not_or]
      exact ⟨Ne.symm hc, ih hs⟩

theorem splitLast_eq_some_iff {sep : Char} {cs front back : List Char} :
    splitLast sep cs = some (front, back) ↔ cs = front ++ sep :: back ∧ sep ∉ back := by
  rw [splitLast, Option.map_eq_some_iff]
  constructor
  · rintro ⟨⟨a, b⟩, hs, he⟩
    cases he
    have hcs := congrArg List.reverse (eq_append_of_splitOnce hs)
    rw [List.reverse_reverse] at hcs
    refine ⟨by rw [hcs]; simp, ?_⟩
    rw [List.mem_reverse]
    exact notMem_of_splitOnce hs
  · rintro ⟨rfl, hback⟩
    refine ⟨(back.reverse, front.reverse), ?_, by simp⟩
    have hrev : (front ++ sep :: back).reverse = back.reverse ++ sep :: front.reverse := by simp
    rw [hrev]
    exact splitOnce_append_cons (by rwa [List.mem_reverse]) _

/-- **The last fields** are what stands behind the last underscores. -/
theorem lastFields_eq_some_iff {n : Nat} {cs front : List Char} {fields : List (List Char)} :
    lastFields n cs = some (front, fields) ↔
      fields.length = n ∧ (∀ f ∈ fields, '_' ∉ f) ∧ cs = front ++ underscored fields := by
  induction n generalizing cs fields with
  | zero =>
    rw [lastFields, Option.some.injEq, Prod.mk.injEq]
    constructor
    · rintro ⟨rfl, rfl⟩
      exact ⟨rfl, by simp, by simp [underscored]⟩
    · rintro ⟨hlen, -, rfl⟩
      rw [List.eq_nil_of_length_eq_zero hlen]
      exact ⟨by simp [underscored], rfl⟩
  | succ n ih =>
    constructor
    · intro h
      simp only [lastFields, Option.bind_eq_bind, Option.bind_eq_some_iff] at h
      obtain ⟨⟨front₁, field⟩, hsplit, ⟨front₂, fields₂⟩, hfields, he⟩ := h
      cases he
      obtain ⟨rfl, hfield⟩ := splitLast_eq_some_iff.1 hsplit
      obtain ⟨hlen, hnot, hcs⟩ := ih.1 hfields
      refine ⟨by simp [hlen], ?_, ?_⟩
      · intro f hf
        rcases List.mem_append.1 hf with hf | hf
        · exact hnot f hf
        · rw [List.mem_singleton.1 hf]
          exact hfield
      · rw [underscored_concat, ← List.append_assoc, ← hcs]
    · rintro ⟨hlen, hnot, rfl⟩
      obtain ⟨fields, field, rfl⟩ : ∃ fs f, fields = fs ++ [f] := by
        rcases List.eq_nil_or_concat fields with rfl | ⟨fs, f, h⟩
        · simp at hlen
        · exact ⟨fs, f, by rw [h, List.concat_eq_append]⟩
      have hlast : splitLast '_' (front ++ underscored (fields ++ [field])) =
          some (front ++ underscored fields, field) := by
        refine splitLast_eq_some_iff.2 ⟨?_, hnot field (by simp)⟩
        rw [underscored_concat, List.append_assoc]
      have hrest : lastFields n (front ++ underscored fields) = some (front, fields) := by
        refine ih.2 ⟨by simpa using hlen, fun f hf => hnot f (by simp [hf]), rfl⟩
      simp [lastFields, hlast, hrest]

/-- What a long name tells. -/
structure LongName where
  label : String
  inst : Nat
  weight : String
  interval : Nat
  warmup : Nat
  deriving DecidableEq, Repr

/-- Reads a long name from its end. -/
def LongName.read? (s : String) : Option LongName :=
  match lastFields 8 s.toList with
  | some (front, [inst, n, weight, w, interval, m, warmup, k]) =>
    let label := front.drop "cpt.simpoint_".length
    if front = "cpt.simpoint_".toList ++ label ∧
        [inst, n, weight, w, interval, m, warmup, k] = nameFields n w m k then
      match decimal? n, decimal? m, decimal? k with
      | some n, some m, some k => some ⟨.ofList label, n, .ofList w, m, k⟩
      | _, _, _ => none
    else none
  | _ => none

theorem digits_of_decimal? {s : String} {n : Nat} (h : decimal? s.toList = some n) : Digits s := by
  rw [decimal?] at h
  split at h
  · rename_i hd
    exact ⟨hd.1, List.all_eq_true.1 hd.2⟩
  · cases h

/-- **Reading accepts exactly what is spelled.** -/
theorem LongName.read?_eq_some_iff {s : String} {x : LongName} :
    read? s = some x ↔ ∃ n m k, Spells s x.label n x.weight m k ∧ decimal? n.toList = some x.inst ∧
      decimal? m.toList = some x.interval ∧ decimal? k.toList = some x.warmup := by
  constructor
  · intro h
    rw [read?] at h
    split at h
    · rename_i front inst n weight w interval m warmup k hfields
      simp only at h
      split at h
      · rename_i hform
        split at h
        · rename_i n' m' k' hn hm hk
          cases h
          obtain ⟨hfront, hnames⟩ := hform
          obtain ⟨-, hnot, hs⟩ := lastFields_eq_some_iff.1 hfields
          rw [← String.toList_ofList (l := n)] at hn
          rw [← String.toList_ofList (l := m)] at hm
          rw [← String.toList_ofList (l := k)] at hk
          refine ⟨.ofList n, .ofList m, .ofList k, ⟨?_, digits_of_decimal? hn, ?_,
            digits_of_decimal? hm, digits_of_decimal? hk⟩, hn, hm, hk⟩
          · rw [← String.toList_inj, toList_form, hs, hnames]
            simp only [String.toList_ofList]
            rw [← hfront]
          · rw [String.toList_ofList]
            exact hnot w (by simp)
        · cases h
      · cases h
    · cases h
  · rintro ⟨n, m, k, h, hn, hm, hk⟩
    have hfields : lastFields 8 s.toList = some ("cpt.simpoint_".toList ++ x.label.toList,
        nameFields n.toList x.weight.toList m.toList k.toList) := by
      refine lastFields_eq_some_iff.2 ⟨rfl, ?_, ?_⟩
      · exact underscore_notMem_nameFields h.inst h.weight h.interval h.warmup
      · rw [h.form, toList_form]
    have hlabel : ("cpt.simpoint_".toList ++ x.label.toList).drop "cpt.simpoint_".length =
        x.label.toList := List.drop_left' rfl
    rw [read?, hfields]
    simp only [nameFields, hlabel, if_true, and_self, hn, hm, hk, String.ofList_toList]

theorem LongName.read?_longName (label : String) {w : String} (hw : '_' ∉ w.toList) (n m k : Nat) :
    read? (longName label n w m k) = some ⟨label, n, w, m, k⟩ :=
  read?_eq_some_iff.2 ⟨_, _, _, spells_longName label hw n m k, decimal?_numeral n,
    decimal?_numeral m, decimal?_numeral k⟩

/-! ## Checkpoints -/

/-- The cell of a checkpoint in the column with a title. -/
def Checkpoint.column? (cp : Checkpoint) (title : String) : Option String :=
  (Checkpoint.titles.zip cp.cells).lookup title

/-- The boundary of a checkpoint is in order, so that its lengths are those of its warmup and of its
interval. Its long name is read as what the boundary says, and can be spelled in one way only, with
the numbers that stand in a table. -/
structure Checkpoint.Tells (cp : Checkpoint) (label weight : String) : Prop where
  ordered : cp.warmup ≤ cp.interval ∧ cp.interval ≤ cp.stop
  read : LongName.read? cp.long =
    some ⟨label, cp.warmup, weight, cp.stop - cp.interval, cp.interval - cp.warmup⟩
  spelled : ∀ label' n w m k, Spells cp.long label' n w m k ↔ label' = label ∧ w = weight ∧
    cp.column? "Warmup Inst" = some n ∧ cp.column? "Interval Length" = some m ∧
    cp.column? "Warmup Length" = some k

theorem Checkpoint.column?_eq (cp : Checkpoint) :
    cp.column? "Warmup Inst" = some (toString cp.warmup) ∧
      cp.column? "Interval Length" = some (toString (cp.stop - cp.interval)) ∧
      cp.column? "Warmup Length" = some (toString (cp.interval - cp.warmup)) := ⟨rfl, rfl, rfl⟩

/-- A checkpoint tells one story if its long name has its own lengths. -/
theorem Checkpoint.tells_of_long {cp : Checkpoint} {label weight : String}
    (ho : cp.warmup ≤ cp.interval ∧ cp.interval ≤ cp.stop) (hw : '_' ∉ weight.toList)
    (hl : cp.long = longName label cp.warmup weight (cp.stop - cp.interval)
      (cp.interval - cp.warmup)) : cp.Tells label weight := by
  obtain ⟨hn, hm, hk⟩ := cp.column?_eq
  have hspells := spells_longName label hw cp.warmup (cp.stop - cp.interval)
    (cp.interval - cp.warmup)
  rw [← hl] at hspells
  refine ⟨ho, ?_, fun label' n w m k => ?_⟩
  · rw [hl]
    exact LongName.read?_longName label hw _ _ _
  · rw [hn, hm, hk]
    constructor
    · intro h
      obtain ⟨rfl, rfl, rfl, rfl, rfl⟩ := hspells.unique h
      exact ⟨rfl, rfl, rfl, rfl, rfl⟩
    · rintro ⟨rfl, rfl, hn', hm', hk'⟩
      cases hn'
      cases hm'
      cases hk'
      exact hspells

/-- The checkpoint of a simpoint tells what was counted at its marks. -/
theorem Simpoint.tells_checkpoint (p : Simpoint) {warmup interval stop : Nat}
    (hw : warmup ≤ interval) (hs : interval ≤ stop) :
    (p.checkpoint warmup interval stop).Tells (simpointLabel p.name) (weightText p.weight) :=
  Checkpoint.tells_of_long ⟨hw, hs⟩ (underscore_notMem_weightText _) rfl

/-- The checkpoint of a chunk has the lengths of its configuration. -/
theorem ChunkConfig.tells_checkpoint (c : ChunkConfig) (index warmup inst : Nat) :
    (c.checkpoint index warmup inst).Tells (toString index) "0" := by
  refine Checkpoint.tells_of_long ⟨Nat.le_add_right _ _, Nat.le_add_right _ _⟩ (by decide) ?_
  have hinterval : inst + warmup + c.interval - (inst + warmup) = c.interval :=
    Nat.add_sub_cancel_left _ _
  have hwarmup : inst + warmup - inst = warmup := Nat.add_sub_cancel_left _ _
  show longName (toString index) inst "0" c.interval warmup = longName (toString index) inst "0"
    (inst + warmup + c.interval - (inst + warmup)) (inst + warmup - inst)
  rw [hinterval, hwarmup]

namespace ReplayConfig

variable {c : ReplayConfig} {s s' : Pass} {v : Visit} {vs : List Visit} {l : List Exchange}

/-- The checkpoints of a pass are those of visited simpoints, with counts in order. -/
def Told (vs : List Visit) (cp : Checkpoint) : Prop :=
  ∃ v ∈ vs, ∃ warmup interval stop, warmup ≤ interval ∧ interval ≤ stop ∧
    cp = v.point.checkpoint warmup interval stop

/-- **One visit** adds such a checkpoint at most. -/
theorem Visited.told {last : Bool} (h : c.Visited last s v l (.value s')) :
    ∀ cp ∈ s'.checkpoints, cp ∈ s.checkpoints ∨ Told [v] cp := by
  intro cp hcp
  cases h with
  | passed exited he inst hm => exact .inl hcp
  | @named exited he inst hm d cp' hn =>
    obtain ⟨w, i, e, -, -, -, hw, hi, rfl⟩ := course_nameCheckpoint_value hn
    rcases Array.mem_push.1 hcp with hcp | rfl
    · exact .inl hcp
    · exact .inr ⟨v, List.mem_singleton_self v, w, i, e, hw, hi, rfl⟩

/-- **All visits** do. -/
theorem VisitedAll.told (h : c.VisitedAll s vs l (.value s')) :
    ∀ cp ∈ s'.checkpoints, cp ∈ s.checkpoints ∨ Told vs cp := by
  generalize hr : Ending.value s' = r at h
  induction h with
  | nil s =>
    cases hr
    exact fun cp hcp => .inl hcp
  | cut h => cases hr
  | @cons s s₁ v vs l₁ l₂ r h t ih =>
    intro cp hcp
    rcases ih hr cp hcp with hcp | ⟨u, hu, hform⟩
    · rcases h.told cp hcp with hcp | ⟨u, hu, hform⟩
      · exact .inl hcp
      · exact .inr ⟨u, List.mem_cons.2 (.inl (List.mem_singleton.1 hu)), hform⟩
    · exact .inr ⟨u, List.mem_cons_of_mem _ hu, hform⟩

theorem Replayed.told {ps : List Simpoint} {cps : List Checkpoint}
    (h : c.Replayed ps l (.value cps)) : ∀ cp ∈ cps, Told (PhaseSampling.timeline ps) cp := by
  have hpass : ∀ {s : Pass} {l : List Exchange},
      c.VisitedAll .start (PhaseSampling.timeline ps) l (.value s) →
      ∀ cp ∈ s.checkpoints.toList, Told (PhaseSampling.timeline ps) cp := by
    intro s l t cp hcp
    rcases t.told cp (by simpa using hcp) with h | h
    · simp [Pass.start] at h
    · exact h
  cases h with
  | exited hv t he => exact hpass t
  | completed hv t he => exact hpass t

end ReplayConfig

/-- **All checkpoints tell one story.** Over any engine, the boundary of every checkpoint of a replay
or of a run in chunks is in order, and its long name and its cells in a table say the same of it. A
replay labels it by its simpoint, whose name may hold what looks like fields of a long name, and a run
in chunks by its number. -/
theorem checkpoints_tell_one_story {σ : Type} (e : Engine σ) (s : Session σ) :
    (∀ (c : ReplayConfig) (ps : List Simpoint) cps, ((replay c ps).run e s).1 = .ok cps →
      ∀ cp ∈ cps, ∃ p ∈ ps, cp.name = p.name ∧
        cp.Tells (simpointLabel p.name) (weightText p.weight)) ∧
    ∀ (c : ChunkConfig) (fuel : Nat) cps, ((chunks c fuel).run e s).1 = .ok cps →
      ∀ (i : Nat) (cp : Checkpoint), cps[i]? = some cp → cp.Tells (toString i) "0" := by
  constructor
  · intro c ps cps h cp hcp
    obtain ⟨l, hcourse, -, -⟩ := exists_course_of_ok (Prod.ext h rfl)
    obtain ⟨v, hv, warmup, interval, stop, hw, hi, rfl⟩ := (course_replay hcourse).told cp hcp
    exact ⟨v.point, point_mem hv, rfl, v.point.tells_checkpoint hw hi⟩
  · intro c fuel cps h i cp hi
    obtain ⟨l, hcourse, -, -⟩ := exists_course_of_ok (Prod.ext h rfl)
    obtain ⟨l₁, k, hrow, -⟩ := course_chunks hcourse
    obtain ⟨hcp, -⟩ := hrow.split hi
    rw [hcp]
    exact c.tells_checkpoint i _ _

/-- A simpoint whose name looks like the fields of a long name, and the second of three chunks. -/
theorem checkpoints_tell_one_story_two :
    (∃ cps, ((replay ⟨"/", .inst, 0⟩ [⟨"0_inst_5_weight_", ⟨0⟩, ⟨1, 2, 4⟩, none⟩]).run
        Simulated.engine (.fresh (.program 10 1 []))).1 = .ok cps ∧
      ∃ cp ∈ cps, cp.long = "cpt.simpoint_0_inst_5_weight__inst_1_weight_0.0_interval_2_warmup_1" ∧
        LongName.read? cp.long = some ⟨"0_inst_5_weight_", 1, "0.0", 2, 1⟩) ∧
    ∃ cps, ((chunks ⟨"/", 5, 2, 3⟩ 9).run Simulated.engine (.fresh (.program 12 1 []))).1 = .ok cps ∧
      ∃ cp ∈ cps, cp.long = "cpt.simpoint_1_inst_6_weight_0_interval_5_warmup_2" ∧
        LongName.read? cp.long = some ⟨"1", 6, "0", 5, 2⟩ := by
  constructor
  · have hv : Simpoint.validate [⟨"0_inst_5_weight_", ⟨0⟩, ⟨1, 2, 4⟩, none⟩] = .ok () := by rfl
    obtain ⟨s', hrun⟩ := replay_root 10 hv (by decide) (by decide +kernel)
    -- one simpoint has one end
    have hends := List.perm_singleton.1
      (filter_timeline_perm [⟨"0_inst_5_weight_", ⟨0⟩, ⟨1, 2, 4⟩, none⟩] .stop)
    rw [hends] at hrun
    have hok := congrArg Prod.fst hrun
    obtain ⟨p, hp, -, htells⟩ := (checkpoints_tell_one_story Simulated.engine _).1 _ _ _ hok _
      (List.mem_singleton_self _)
    rw [List.mem_singleton.1 hp] at htells
    have hweight : weightText ⟨0⟩ = "0.0" := by decide +kernel
    have hread := htells.read
    simp only [hweight] at hread
    refine ⟨_, hok, _, List.mem_singleton_self _, by decide +kernel, hread⟩
  · obtain ⟨s', hrun⟩ := chunks_root (c := ⟨"/", 5, 2, 3⟩) 12 rfl (by decide) (by decide)
      (by decide) (by decide : _ ≤ 9) (by decide +kernel)
    have hok := congrArg Prod.fst hrun
    have hread := ((checkpoints_tell_one_story Simulated.engine _).2 _ _ _ hok 1 _ rfl).read
    exact ⟨_, hok, _, List.mem_of_getElem? (i := 1) rfl, by decide +kernel, hread⟩

end PhaseSampling
