import PhaseSampling.Proofs.Engine.Requests
import PhaseSampling.Proofs.Replay.Schedule

/-!
# The requests of a replay

A replay puts the names of its simpoints into the paths of their snapshots, and so into its requests.

* `ReplayConfig.Replayed.exists_of_checkpoint`: a replay asks for the snapshots of its own simpoints
  only.
* `replay_sends_lines`: over any stream **a replay sends one line for each command**, unless the name
  of a simpoint whose snapshot it asks for holds a newline.
-/

namespace PhaseSampling

open PhaseSampling.Flow Text

/-- The snapshot of a simpoint was asked for. -/
def Simpoint.Asked (p : Simpoint) (outdir : String) (l : List Exchange) : Prop :=
  ∃ answer, ⟨.checkpoint (checkpointPath outdir (shortName p.name)), answer⟩ ∈ l

namespace ReplayConfig

variable {c : ReplayConfig} {ps : List Simpoint} {l : List Exchange} {path : String}

/-- A schedule has the snapshots of its own visits. -/
theorem exists_of_mem_schedule {vs : List Visit} (h : .checkpoint path ∈ c.schedule vs) :
    ∃ v ∈ vs, path = c.snapshotPath v := by
  induction vs with
  | nil => cases h
  | cons v vs ih =>
    simp only [schedule, List.mem_cons, List.mem_append, reduceCtorEq, false_or] at h
    rcases h with h | h
    · split at h
      · simp only [List.mem_cons, Call.checkpoint.injEq, reduceCtorEq, List.not_mem_nil,
          or_false] at h
        exact ⟨v, List.mem_cons_self, h⟩
      · cases h
    · obtain ⟨u, hu, hp⟩ := ih h
      exact ⟨u, List.mem_cons_of_mem _ hu, hp⟩

/-- **A snapshot that a replay asks for** is that of one of its simpoints. -/
theorem Replayed.exists_of_checkpoint {r : Ending (List Checkpoint)} (h : c.Replayed ps l r)
    {answer : Option Unit} (hx : ⟨.checkpoint path, answer⟩ ∈ l) :
    ∃ p ∈ ps, path = checkpointPath c.outdir (shortName p.name) := by
  have hcall : .checkpoint path ∈ l.map Exchange.call := List.mem_map_of_mem hx
  rcases List.mem_append.1 (h.calls.subset hcall) with hmem | hmem
  · obtain ⟨v, hv, rfl⟩ := exists_of_mem_schedule hmem
    exact ⟨v.point, point_mem hv, rfl⟩
  · simp at hmem

end ReplayConfig

/-- A snapshot has a newline in its path from the name of its simpoint. -/
theorem newline_mem_checkpointPath_iff {outdir : String} (ho : '\n' ∉ outdir.toList) (name : String) :
    '\n' ∈ (checkpointPath outdir (shortName name)).toList ↔ '\n' ∈ name.toList := by
  unfold checkpointPath joinPath shortName
  split
  · simp
  · split <;> simp [ho]

/-- **A replay sends one line for each command**, over any stream and whether it ends well or not. The
commands are those of its calls, in order, none of them is empty, and one response is read for each.
There are as many newlines as commands just if no snapshot was asked for whose simpoint has a newline
in its name. Then what was sent is cut at the newlines into these commands. -/
theorem replay_sends_lines (c : ReplayConfig) (ho : '\n' ∉ c.outdir.toList) (ps : List Simpoint)
    (s : Session Controller) :
    ∃ l cmds, ((replay c ps).run Controller.engine s).2.trace.toList = s.trace.toList ++ l ∧
      Issued l cmds ∧ (∀ cmd ∈ cmds, cmd ≠ "") ∧
      ((replay c ps).run Controller.engine s).2.engine.sent =
        s.engine.sent ++ sending cmds ∧
      ((replay c ps).run Controller.engine s).2.engine.unread =
        (Response.readMany cmds.length s.engine.unread).2 ∧
      ((Utf8.encode (sending cmds)).count 10 = cmds.length ↔
        ∀ p ∈ ps, p.Asked c.outdir l → '\n' ∉ p.name.toList) ∧
      ((∀ p ∈ ps, p.Asked c.outdir l → '\n' ∉ p.name.toList) →
        (Utf8.encode (sending cmds)).splitOn 10 = cmds.map Utf8.encode ++ [[]]) := by
  obtain ⟨d, r, hcourse, -, -, htrace, hgives⟩ := exists_course Controller.engine (replay c ps) s
  obtain ⟨cmds, hissued, hafter⟩ := Controller.issued hgives
  have hreplayed := course_replay hcourse
  -- a newline in a command comes from the name of a simpoint
  have hlines : (∀ cmd ∈ cmds, '\n' ∉ cmd.toList) ↔
      ∀ p ∈ ps, p.Asked c.outdir (exchanges d) → '\n' ∉ p.name.toList := by
    constructor
    · rintro h p - ⟨answer, hx⟩ hname
      have hcmd := hissued.mem_checkpoint hx
      refine h _ hcmd ?_
      rw [String.toList_append, List.mem_append]
      exact .inr ((newline_mem_checkpointPath_iff ho p.name).2 hname)
    · intro h cmd hcmd hnewline
      obtain ⟨⟨call, answer⟩, hx, hmem⟩ := hissued.exists_of_mem hcmd
      obtain ⟨path, hcall, hpath⟩ := (newline_mem_lines_iff hmem).1 hnewline
      have hcall : call = .checkpoint path := hcall
      subst hcall
      obtain ⟨p, hp, rfl⟩ := hreplayed.exists_of_checkpoint hx
      exact h p hp ⟨answer, hx⟩ ((newline_mem_checkpointPath_iff ho p.name).1 hpath)
  refine ⟨exchanges d, cmds, htrace, hissued, fun cmd hcmd => ?_, ?_, ?_, ?_, fun h => ?_⟩
  · obtain ⟨x, -, hmem⟩ := hissued.exists_of_mem hcmd
    exact ne_empty_of_mem_lines hmem
  · exact congrArg Controller.sent hafter
  · exact congrArg Controller.unread hafter
  · rw [count_sending_eq_iff, hlines]
  · exact splitOn_sending (hlines.2 h)

/-- The replay of one simpoint of this name, over a stream that answers each of its calls. -/
def replayNamed (name : String) : Session Controller :=
  ((replay ⟨"out", .inst, 0⟩ [⟨name, ⟨0⟩, ⟨0, 100, 200⟩, none⟩]).run Controller.engine
    (.fresh ⟨spoken ["", StopCause.breakpoint.text, "0", ""], ""⟩)).2

/-- A simpoint whose name has a newline: its snapshot is asked for, and with that more lines are sent
than commands. With a plain name the same stream is sent one line for each. -/
theorem replay_sends_lines_newline :
    (∃ cmds, Issued (replayNamed "0\nstats dump").trace.toList cmds ∧
      (replayNamed "0\nstats dump").engine.sent = sending cmds ∧
      (Utf8.encode (replayNamed "0\nstats dump").engine.sent).count 10 ≠ cmds.length) ∧
    ∃ cmds, Issued (replayNamed "0").trace.toList cmds ∧
      (Utf8.encode (replayNamed "0").engine.sent).splitOn 10 = cmds.map Utf8.encode ++ [[]] := by
  have ho : '\n' ∉ (ReplayConfig.mk "out" .inst 0).outdir.toList := by decide
  -- nothing is traced or sent before the replay
  have htrace : (Session.fresh (⟨spoken ["", StopCause.breakpoint.text, "0", ""], ""⟩ :
      Controller)).trace.toList = [] := rfl
  have hsent : (Session.fresh (⟨spoken ["", StopCause.breakpoint.text, "0", ""], ""⟩ :
      Controller)).engine.sent = "" := rfl
  constructor
  · have ht : timeline [⟨"0\nstats dump", ⟨0⟩, ⟨0, 100, 200⟩, none⟩] =
        Visit.all 0 ⟨"0\nstats dump", ⟨0⟩, ⟨0, 100, 200⟩, none⟩ := by
      rw [timeline]
      exact List.mergeSort_of_pairwise (by decide)
    have hasked : ⟨.checkpoint "out/cpt.0\nstats dump", some ()⟩ ∈
        (replayNamed "0\nstats dump").trace.toList := by
      rw [replayNamed, replay, ht]
      decide +kernel
    have hpath : checkpointPath "out" (shortName "0\nstats dump") = "out/cpt.0\nstats dump" := by
      decide +kernel
    obtain ⟨l, cmds, hl, hissued, -, hsending, -, hcount, -⟩ :=
      replay_sends_lines ⟨"out", .inst, 0⟩ ho [⟨"0\nstats dump", ⟨0⟩, ⟨0, 100, 200⟩, none⟩]
        (.fresh ⟨spoken ["", StopCause.breakpoint.text, "0", ""], ""⟩)
    rw [htrace, List.nil_append, ← replayNamed] at hl
    rw [hsent, String.empty_append, ← replayNamed] at hsending
    rw [hl, ← hpath] at hasked
    refine ⟨cmds, hl ▸ hissued, hsending, fun he => ?_⟩
    rw [hsending] at he
    exact hcount.1 he _ List.mem_cons_self ⟨some (), hasked⟩ (by decide)
  · obtain ⟨l, cmds, hl, hissued, -, hsending, -, -, hsplit⟩ :=
      replay_sends_lines ⟨"out", .inst, 0⟩ ho [⟨"0", ⟨0⟩, ⟨0, 100, 200⟩, none⟩]
        (.fresh ⟨spoken ["", StopCause.breakpoint.text, "0", ""], ""⟩)
    rw [htrace, List.nil_append, ← replayNamed] at hl
    rw [hsent, String.empty_append, ← replayNamed] at hsending
    rw [hsending]
    refine ⟨cmds, hl ▸ hissued, hsplit fun p hp _ => ?_⟩
    rw [List.mem_singleton.1 hp]
    decide

end PhaseSampling
