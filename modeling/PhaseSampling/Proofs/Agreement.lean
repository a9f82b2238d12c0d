import PhaseSampling.Proofs.Replay.Simulated
import PhaseSampling.Proofs.Sampling.Simulated

/-!
# Sampling and replay agree

* `replay_finds_samples`: simpoints that are made of some records of a sampling run are found by a
  replay of the same program exactly where they were sampled.
-/

namespace PhaseSampling

open PhaseSampling.Flow
open Simulated (unit)

/-- The name of the link to the snapshot of a record. -/
def IntervalRecord.linkName (r : IntervalRecord) (i : Nat) (weight : Binary64) : String :=
  longName (simpointLabel (toString i)) r.warmup.inst (weightText weight)
    (r.ends.inst - r.begins.inst) (r.begins.inst - r.warmup.inst)

section Selected

variable {c : SamplingConfig} {length spacing : Nat} {rs : List IntervalRecord}
  {kept : List (IntervalRecord × Nat)} {weight : Nat → Binary64} {numbered : Nat → Bool}

theorem mem_of_kept (hk : kept.Sublist rs.zipIdx) {r : IntervalRecord} {i : Nat}
    (h : (r, i) ∈ kept) : r ∈ rs :=
  List.mem_of_getElem? (List.mem_zipIdx_iff_getElem?.1 (hk.subset h))

/-- Records are numbered differently. -/
theorem nodup_numerals (hk : kept.Sublist rs.zipIdx) :
    (kept.map fun x => toString x.2).Nodup := by
  have hlt := (pairwise_zipIdx_snd rs).sublist hk
  rw [List.Nodup, List.pairwise_map]
  refine hlt.imp fun {x y} h he => ?_
  have hxy := numeral_injective he
  omega

/-- The simpoint of a record. -/
def IntervalRecord.simpoint (r : IntervalRecord) (i : Nat) (weight : Binary64) (numbered : Bool) :
    Simpoint :=
  ⟨toString i, weight, r.waypoints, if numbered then some i else none⟩

theorem select_numerals (kept : List (IntervalRecord × Nat)) (weight : Nat → Binary64)
    (numbered : Nat → Bool) :
    select kept toString weight numbered =
      kept.map fun (r, i) => r.simpoint i (weight i) (numbered i) := rfl

/-- A record whose boundaries are placed. -/
def Placed (c : SamplingConfig) (length spacing : Nat) (r : IntervalRecord) : Prop :=
  c.Placed length spacing r.warmup ∧ c.Placed length spacing r.begins ∧
    c.Placed length spacing r.ends

/-- What is found of a placed record is the record. -/
theorem exact_simpoint {r : IntervalRecord} (h : Placed c length spacing r) (i : Nat)
    (w : Binary64) (b : Bool) :
    (r.simpoint i w b).exact (unit spacing c.counter) =
      (r.simpoint i w b).checkpoint r.warmup.inst r.begins.inst r.ends.inst := by
  obtain ⟨hw, hb, he⟩ := h
  rw [Simpoint.exact]
  simp only [IntervalRecord.simpoint, IntervalRecord.waypoints, hw.inst, hb.inst, he.inst]

/-- A record with room for its link has room for its snapshot. -/
theorem storable_simpoint {outdir : String} (hd : pathFault? outdir = none) {r : IntervalRecord}
    {i : Nat} {w : Binary64} (hsmall : Small outdir (r.linkName i w)) (b : Bool) :
    (r.simpoint i w b).Storable outdir := by
  refine ⟨plain_numeral i, not_simpoint_prefix_numeral i, ?_⟩
  refine small_shortName ?_ hsmall
  exact (fits_longName hd (plain_simpointLabel (plain_numeral i)) (plain_weightText w)
    hsmall).single

end Selected

/-- **Sampling and replay agree.** Take any records of a sampling run of a simulated program, in
their order, and make a simpoint of each, named by its number. A replay of the same program from its
start ends well. It finds every simpoint at the very instructions of its record, in the order of the
records, and has taken its snapshot where the warmup of the record begins. -/
theorem replay_finds_samples {c : SamplingConfig} {length spacing fuel : Nat} (hs : 1 ≤ spacing)
    {dumps dumps' : List String} {s s' t : Session Simulated}
    (hse : s.engine = .program length spacing dumps)
    (hte : t.engine = .program length spacing dumps') {rs : List IntervalRecord}
    (hrun : (sample c fuel).run Simulated.engine s = (.ok rs, s'))
    {kept : List (IntervalRecord × Nat)} (hk : kept.Sublist rs.zipIdx) (weight : Nat → Binary64)
    (numbered : Nat → Bool) {outdir : String} {d : Place} (ho : t.world.files.Opens outdir d)
    (hd : ∀ name, t.world.files.get? (d ++ [name]) = none)
    (hsmall : ∀ r i, (r, i) ∈ kept → Small outdir (r.linkName i (weight i))) :
    ∃ cps t', (replay ⟨outdir, c.counter, 0⟩ (select kept toString weight numbered)).run
        Simulated.engine t = (.ok cps, t') ∧
      cps.map (fun cp => (cp.name, cp.warmup, cp.interval, cp.stop)) =
        kept.map (fun (r, i) => (toString i, r.warmup.inst, r.begins.inst, r.ends.inst)) ∧
      t'.engine.checkpoints.toList = kept.map fun (r, i) =>
        (checkpointPath outdir (shortName (toString i)), r.warmup.inst) := by
  obtain ⟨hprog, hplaced⟩ := sample_simulated hs (hse ▸ Simulated.free_program ..) hrun
  have hvalid := validate_select hprog hk (nodup_numerals hk) weight numbered
  have hc : (⟨outdir, c.counter, 0⟩ : ReplayConfig).Vacant t.world.files d := ⟨ho, hd⟩
  have hstart : t.Shelved length spacing 0 [] t.world.files d :=
    ⟨_, ⟨hte ▸ Simulated.free_program .., by rw [hte]; rfl, by rw [hte]; rfl, rfl⟩, .of_empty hd⟩
  have hfound : ∀ r i, (r, i) ∈ kept → Placed c length spacing r := fun r i h =>
    hplaced r (mem_of_kept hk h)
  rw [select_numerals] at hvalid ⊢
  generalize hps : (kept.map fun (r, i) => r.simpoint i (weight i) (numbered i)) = ps at hvalid ⊢
  -- no simpoint ends behind the program, and there is room for each of them
  have hlong : ∀ p ∈ ps, unit spacing c.counter * p.waypoints.stop < length := by
    subst hps
    intro p hp
    obtain ⟨⟨r, i⟩, hmem, rfl⟩ := List.mem_map.1 hp
    obtain ⟨-, -, he⟩ := hfound r i hmem
    show unit spacing c.counter * r.ends.waypoint < length
    rw [he.inst]
    exact he.before
  have hroom : ∀ p ∈ ps, p.Storable outdir ∧
      Small outdir (p.exact (unit spacing c.counter)).long := by
    subst hps
    intro p hp
    obtain ⟨⟨r, i⟩, hmem, rfl⟩ := List.mem_map.1 hp
    refine ⟨storable_simpoint ho.fault (hsmall r i hmem) _, ?_⟩
    show Small outdir ((r.simpoint i (weight i) (numbered i)).exact (unit spacing c.counter)).long
    rw [exact_simpoint (hfound r i hmem)]
    exact hsmall r i hmem
  -- the records are in the order of their warmups and in that of their ends
  have horder : ps.Pairwise fun p q => p.waypoints.warmup ≤ q.waypoints.warmup ∧
      p.waypoints.stop ≤ q.waypoints.stop := by
    have hinc := (pairwise_zipIdx_fst hprog.increasing).sublist hk
    rw [← hps, List.pairwise_map]
    exact hinc.imp fun h => ⟨h.1, h.2.2⟩
  obtain ⟨t', hr, files, hst, -⟩ := replay_simulated hvalid hc rfl hlong hroom hstart
  refine ⟨_, t', hr, ?_, ?_⟩
  · rw [exact_timeline (horder.imp And.right), ← hps, List.map_map, List.map_map]
    refine List.map_congr_left fun ⟨r, i⟩ hmem => ?_
    show (fun cp : Checkpoint => (cp.name, cp.warmup, cp.interval, cp.stop))
      ((r.simpoint i (weight i) (numbered i)).exact (unit spacing c.counter)) = _
    rw [exact_simpoint (hfound r i hmem)]
    rfl
  · rw [hst.snapshots, ReplayConfig.snapshots_timeline (horder.imp And.left), ← hps, List.map_map]
    refine List.map_congr_left fun ⟨r, i⟩ hmem => ?_
    obtain ⟨hw, -, -⟩ := hfound r i hmem
    show (_, unit spacing c.counter * r.warmup.waypoint) = (_, r.warmup.inst)
    rw [hw.inst]
    rfl

/-- A program of ten instructions: both of its records are found again. -/
theorem replay_finds_samples_ten :
    ∃ cps t', (replay ⟨"/", .inst, 0⟩ (select
        [(⟨⟨0, 0⟩, ⟨1, 1⟩, ⟨4, 4⟩, 3, true⟩, 0), (⟨⟨3, 3⟩, ⟨4, 4⟩, ⟨7, 7⟩, 2, true⟩, 1)] toString
        (fun _ => ⟨0⟩) fun i => i = 0)).run Simulated.engine (.fresh (.program 10 1 [])) =
          (.ok cps, t') ∧
      cps.map (fun cp => (cp.name, cp.warmup, cp.interval, cp.stop)) =
        [("0", 0, 1, 4), ("1", 3, 4, 7)] ∧
      t'.engine.checkpoints.toList = [(checkpointPath "/" "cpt.0", 0), (checkpointPath "/" "cpt.1", 3)] := by
  have hrun : ((sample ⟨1, 3, 2, false⟩ 10).run Simulated.engine
      (.fresh (.program 10 1 ["3 a\n", "2 b\n"]))).1.toOption = some
      [⟨⟨0, 0⟩, ⟨1, 1⟩, ⟨4, 4⟩, 3, true⟩, ⟨⟨3, 3⟩, ⟨4, 4⟩, ⟨7, 7⟩, 2, true⟩] := by
    decide +kernel
  have hsmall : ∀ r i, (r, i) ∈ [((⟨⟨0, 0⟩, ⟨1, 1⟩, ⟨4, 4⟩, 3, true⟩ : IntervalRecord), 0),
      (⟨⟨3, 3⟩, ⟨4, 4⟩, ⟨7, 7⟩, 2, true⟩, 1)] → Small "/" (r.linkName i ⟨0⟩) := by
    intro r i h
    simp only [List.mem_cons, Prod.mk.injEq, List.not_mem_nil, or_false] at h
    rcases h with ⟨rfl, rfl⟩ | ⟨rfl, rfl⟩
    · exact small_root (by decide +kernel)
    · exact small_root (by decide +kernel)
  exact replay_finds_samples (Nat.le_refl 1) rfl rfl (run_of_toOption hrun)
    (List.Sublist.refl _) (fun _ => ⟨0⟩) (fun i => i = 0) (t := .fresh (.program 10 1 []))
    (FileTree.opens_root _) FileTree.get?_bare_root hsmall

end PhaseSampling
