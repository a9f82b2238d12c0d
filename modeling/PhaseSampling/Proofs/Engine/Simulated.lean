import PhaseSampling.Engine.RunFor
import PhaseSampling.Engine.Simulated
import PhaseSampling.Proofs.Flow.Course
import PhaseSampling.Proofs.Flow.Yields

/-!
# Sessions with a simulated program

* `Simulated.Free`: a program that moves by itself.
* `Session.Moved`: running it, to a breakpoint or to its end.
* `Session.Stands`: where a session with such a program stands.
* `Session.Stands.advance` and the lemmas after it: what each operation of a replay does there.
-/

namespace PhaseSampling

open PhaseSampling.Flow

namespace Simulated

/-- A program with nothing to force its stops. -/
structure Free (a : Simulated) (length spacing : Nat) : Prop where
  length : a.length = length
  spacing : a.spacing = spacing
  forced : a.forced = []

theorem free_program (length spacing : Nat) (dumps : List String) :
    (program length spacing dumps).Free length spacing := ⟨rfl, rfl, rfl⟩

/-- The instructions from one value of a counter to the next. -/
def unit (spacing : Nat) : Counter → Nat
  | .inst => 1
  | .waypoint => spacing

theorem Free.position {a : Simulated} {length spacing : Nat} (h : a.Free length spacing)
    (target : Nat) (counter : Counter) :
    a.position target counter = unit spacing counter * target := by
  cases counter with
  | inst => exact (Nat.one_mul _).symm
  | waypoint => rw [Simulated.position, h.spacing, unit, Nat.mul_comm]

/-- A breakpoint is reached if it lies before the end of the program. -/
theorem Free.advance {a : Simulated} {length spacing : Nat} (h : a.Free length spacing)
    (counter : Counter) (target : Nat) :
    a.advance counter target =
      if length ≤ unit spacing counter * target then
        (.completed, { a with
          breakpoints := a.breakpoints.push (counter, target)
          inst := length })
      else
        (.breakpoint, { a with
          breakpoints := a.breakpoints.push (counter, target)
          inst := max a.inst (unit spacing counter * target) }) := by
  have hp := h.position target counter
  simp only [Simulated.position] at hp
  simp only [Simulated.advance, h.forced, h.length, Simulated.position]
  rw [hp]

theorem Free.complete {a : Simulated} {length spacing : Nat} (h : a.Free length spacing) :
    a.complete = (.completed, { a with inst := length }) := by
  rw [Simulated.complete]
  simp [h.forced, h.length]

/-! ## Exchanges -/

variable {a b : Simulated} {length spacing : Nat} {l : List Exchange}

/-- A program that only moves. -/
theorem Free.of_same {a' : Simulated} (h : a.Free length spacing) (hl : a'.length = a.length)
    (hs : a'.spacing = a.spacing) (hf : a'.forced = a.forced) : a'.Free length spacing :=
  ⟨hl.trans h.length, hs.trans h.spacing, hf.trans h.forced⟩

theorem gives_count {counter : Counter} {k : Nat}
    (h : engine.Gives a (⟨.count counter, some k⟩ :: l) b) :
    k = a.count counter ∧ engine.Gives a l b := by
  obtain ⟨w, hk, h⟩ := h.of_cons
  exact ⟨Option.some.inj hk, h⟩

theorem Free.gives_advance (hf : a.Free length spacing) {counter : Counter} {target : Nat}
    (h : engine.Gives a (⟨.advance counter target, some .breakpoint⟩ :: l) b) :
    unit spacing counter * target < length ∧ ∃ a', a'.Free length spacing ∧
      a'.inst = max a.inst (unit spacing counter * target) ∧ engine.Gives a' l b := by
  obtain ⟨w, hk, h⟩ := h.of_cons
  have ha := hf.advance counter target
  have hk : StopCause.breakpoint = (a.advance counter target).1 := Option.some.inj hk
  have h : engine.Gives (a.advance counter target).2 l b := h
  rw [ha] at hk h
  split at hk
  -- behind the end the answer is not a breakpoint
  · cases hk
  · rename_i hlt
    rw [if_neg hlt] at h
    refine ⟨Nat.not_le.1 hlt, _, ?_, ?_, h⟩
    · exact hf.of_same rfl rfl rfl
    · rfl

/-- A dump and a reset do not move the program. -/
theorem Free.gives_dump (hf : a.Free length spacing) {r : Option String}
    (h : engine.Gives a (⟨.dump, r⟩ :: l) b) :
    ∃ a', a'.Free length spacing ∧ a'.inst = a.inst ∧ engine.Gives a' l b := by
  obtain ⟨w, -, h⟩ := h.of_cons
  refine ⟨_, ?_, ?_, h⟩
  · exact hf.of_same rfl rfl rfl
  · rfl

theorem Free.gives_reset (hf : a.Free length spacing) {r : Option Unit}
    (h : engine.Gives a (⟨.reset, r⟩ :: l) b) :
    ∃ a', a'.Free length spacing ∧ a'.inst = a.inst ∧ engine.Gives a' l b := by
  obtain ⟨w, -, h⟩ := h.of_cons
  refine ⟨_, ?_, ?_, h⟩
  · exact hf.of_same rfl rfl rfl
  · rfl

end Simulated

open Simulated (Free unit)

/-! ## Running -/

/-- The program ran to an instruction. But for the breakpoints that were asked for nothing else is
new. -/
structure Session.Moved (s s' : Session Simulated) (inst : Nat) : Prop where
  engine : ∃ breakpoints, s'.engine = { s.engine with breakpoints, inst }
  world : s'.world = s.world
  output : s'.output = s.output

theorem Session.Moved.inst {s s' : Session Simulated} {inst : Nat} (h : s.Moved s' inst) :
    s'.engine.inst = inst := by
  obtain ⟨breakpoints, he⟩ := h.engine
  rw [he]

theorem Session.Moved.trans {s s₁ s₂ : Session Simulated} {i₁ i₂ : Nat} (h₁ : s.Moved s₁ i₁)
    (h₂ : s₁.Moved s₂ i₂) : s.Moved s₂ i₂ := by
  obtain ⟨breakpoints₁, he₁⟩ := h₁.engine
  obtain ⟨breakpoints₂, he₂⟩ := h₂.engine
  refine ⟨⟨breakpoints₂, ?_⟩, h₂.world.trans h₁.world, h₂.output.trans h₁.output⟩
  rw [he₂, he₁]

namespace Simulated.Free

variable {s s' : Session Simulated} {length spacing inst n target : Nat} {counter : Counter}

theorem moved (hf : s.engine.Free length spacing) (hm : s.Moved s' inst) :
    s'.engine.Free length spacing := by
  obtain ⟨breakpoints, he⟩ := hm.engine
  rw [he]
  exact hf.of_same rfl rfl rfl

theorem count (hf : s.engine.Free length spacing) (counter : Counter) :
    s.engine.count counter = s.engine.inst / unit spacing counter := by
  cases counter with
  | inst => exact (Nat.div_one _).symm
  | waypoint => rw [Simulated.count, hf.spacing, unit]

theorem yields_count (hf : s.engine.Free length spacing) (counter : Counter) :
    Yields engine (call (.count counter)) s (s.engine.inst / unit spacing counter)
      (s.Moved · s.engine.inst) := by
  refine .op ?_ ⟨⟨s.engine.breakpoints, rfl⟩, rfl, rfl⟩
  rw [← hf.count]
  rfl

/-- **A breakpoint before the end of the program is reached.** -/
theorem yields_breakpoint (hf : s.engine.Free length spacing)
    (ht : unit spacing counter * target < length) :
    Yields engine (call (.advance counter target)) s .breakpoint
      (s.Moved · (max s.engine.inst (unit spacing counter * target))) := by
  have ha := hf.advance counter target
  rw [if_neg (Nat.not_le.2 ht)] at ha
  refine .op ?_ ⟨⟨s.engine.breakpoints.push (counter, target), ?_⟩, rfl, rfl⟩
  · show Except.ok (s.engine.advance counter target).1 = _
    rw [ha]
  · show (s.engine.advance counter target).2 = _
    rw [ha]

/-- Else the program exits. -/
theorem yields_exit (hf : s.engine.Free length spacing)
    (ht : length ≤ unit spacing counter * target) :
    Yields engine (call (.advance counter target)) s .completed (s.Moved · length) := by
  have ha := hf.advance counter target
  rw [if_pos ht] at ha
  refine .op ?_ ⟨⟨s.engine.breakpoints.push (counter, target), ?_⟩, rfl, rfl⟩
  · show Except.ok (s.engine.advance counter target).1 = _
    rw [ha]
  · show (s.engine.advance counter target).2 = _
    rw [ha]

theorem yields_complete (hf : s.engine.Free length spacing) :
    Yields engine (call .complete) s .completed (s.Moved · length) := by
  have ha := hf.complete
  refine .op ?_ ⟨⟨s.engine.breakpoints, ?_⟩, rfl, rfl⟩
  · show Except.ok s.engine.complete.1 = _
    rw [ha]
  · show s.engine.complete.2 = _
    rw [ha]

/-- **Running for a while** reaches a target before the end of the program. -/
theorem runs_on (hf : s.engine.Free length spacing)
    (hn : s.engine.inst / unit spacing counter + n = target) (hword : target < Text.wordLimit)
    (ht : unit spacing counter * target < length) :
    Yields engine (runFor counter n) s true
      (s.Moved · (max s.engine.inst (unit spacing counter * target))) := by
  unfold runFor
  refine (hf.yields_count counter).bind fun s₁ h₁ => ?_
  rw [hn, if_pos hword]
  refine ((hf.moved h₁).yields_breakpoint ht).bind fun s₂ h₂ => .pure ?_
  rw [h₁.inst] at h₂
  exact h₁.trans h₂

/-- Else it runs to the end. -/
theorem runs_out (hf : s.engine.Free length spacing)
    (hn : s.engine.inst / unit spacing counter + n = target) (hword : target < Text.wordLimit)
    (ht : length ≤ unit spacing counter * target) :
    Yields engine (runFor counter n) s false (s.Moved · length) := by
  unfold runFor
  refine (hf.yields_count counter).bind fun s₁ h₁ => ?_
  rw [hn, if_pos hword]
  exact ((hf.moved h₁).yields_exit ht).bind fun s₂ h₂ => .pure (h₁.trans h₂)

section Instructions

variable (hn : s.engine.inst + n < Text.wordLimit)

include hn

theorem runs_insts (hf : s.engine.Free length spacing) (hlt : s.engine.inst + n < length) :
    Yields engine (runFor .inst n) s true (s.Moved · (s.engine.inst + n)) := by
  have htarget : s.engine.inst / unit spacing .inst + n = s.engine.inst + n := by
    rw [unit, Nat.div_one]
  have hunit : unit spacing .inst * (s.engine.inst + n) = s.engine.inst + n := Nat.one_mul _
  have hrun := hf.runs_on htarget hn (by rwa [hunit])
  rwa [hunit, Nat.max_eq_right (Nat.le_add_right _ n)] at hrun

theorem runs_insts_out (hf : s.engine.Free length spacing) (hle : length ≤ s.engine.inst + n) :
    Yields engine (runFor .inst n) s false (s.Moved · length) := by
  have htarget : s.engine.inst / unit spacing .inst + n = s.engine.inst + n := by
    rw [unit, Nat.div_one]
  have hunit : unit spacing .inst * (s.engine.inst + n) = s.engine.inst + n := Nat.one_mul _
  exact hf.runs_out htarget hn (by rwa [hunit])

end Instructions

end Simulated.Free

/-- A session with a program of a length and a spacing, that stands at an instruction, with the
snapshots taken and the files written so far. -/
structure Session.Stands (s : Session Simulated) (length spacing inst : Nat)
    (snapshots : List (String × Nat)) (files : FileTree) : Prop where
  free : s.engine.Free length spacing
  inst : s.engine.inst = inst
  snapshots : s.engine.checkpoints.toList = snapshots
  files : s.world.files = files

namespace Session.Stands

variable {s : Session Simulated} {length spacing inst : Nat} {snapshots : List (String × Nat)}
  {files files' : FileTree}

/-- A program at its start, with an empty tree. -/
theorem fresh (length spacing : Nat) (dumps : List String) :
    (Session.fresh (.program length spacing dumps)).Stands length spacing 0 [] (.bare []) :=
  ⟨Simulated.free_program .., rfl, rfl, rfl⟩

theorem say (h : s.Stands length spacing inst snapshots files) (level : Level) (text : String) :
    Yields Simulated.engine (Flow.say level text) s ()
      (·.Stands length spacing inst snapshots files) :=
  .op rfl ⟨h.free, h.inst, h.snapshots, h.files⟩

/-- Running takes a session elsewhere. -/
theorem moved (h : s.Stands length spacing inst snapshots files) {s' : Session Simulated}
    {inst' : Nat} (hm : s.Moved s' inst') : s'.Stands length spacing inst' snapshots files := by
  refine ⟨h.free.moved hm, hm.inst, ?_, ?_⟩
  · obtain ⟨breakpoints, he⟩ := hm.engine
    rw [he]
    exact h.snapshots
  · rw [hm.world]
    exact h.files

theorem count (h : s.Stands length spacing inst snapshots files) :
    Yields Simulated.engine (call (.count .inst)) s inst
      (·.Stands length spacing inst snapshots files) := by
  refine .op ?_ ⟨h.free, h.inst, h.snapshots, h.files⟩
  show Except.ok s.engine.inst = _
  rw [h.inst]

/-- A breakpoint before the end of the program is reached. -/
theorem advance (h : s.Stands length spacing inst snapshots files) {counter : Counter}
    {target : Nat} (ht : unit spacing counter * target < length) :
    Yields Simulated.engine (call (.advance counter target)) s .breakpoint
      (·.Stands length spacing (max inst (unit spacing counter * target)) snapshots files) := by
  rw [← h.inst]
  exact (h.free.yields_breakpoint ht).imp fun s' hm => h.moved hm

/-- At the end of the program or behind it there is no breakpoint: the program exits. -/
theorem advance_end (h : s.Stands length spacing inst snapshots files) {counter : Counter}
    {target : Nat} (ht : length ≤ unit spacing counter * target) :
    Yields Simulated.engine (call (.advance counter target)) s .completed
      (·.Stands length spacing length snapshots files) :=
  (h.free.yields_exit ht).imp fun _ hm => h.moved hm

theorem complete (h : s.Stands length spacing inst snapshots files) :
    Yields Simulated.engine (call .complete) s .completed
      (·.Stands length spacing length snapshots files) :=
  h.free.yields_complete.imp fun _ hm => h.moved hm

theorem stats (h : s.Stands length spacing inst snapshots files) :
    Yields Simulated.engine (call .stats) s ()
      (·.Stands length spacing inst snapshots files) :=
  .op rfl ⟨h.free.of_same rfl rfl rfl, h.inst, h.snapshots, h.files⟩

/-- A snapshot is taken where its directory can be made. -/
theorem checkpoint (h : s.Stands length spacing inst snapshots files) {path : String}
    (hm : files.makeDirs path = (.ok (), files')) :
    Yields Simulated.engine (call (.checkpoint path)) s ()
      (·.Stands length spacing inst (snapshots ++ [(path, inst)]) files') := by
  have hi := h.inst
  subst hi
  have ha : s.engine.checkpoint s.world path =
      (.ok (), { s.engine with checkpoints := s.engine.checkpoints.push (path, s.engine.inst) },
        { s.world with files := files' }) := by
    rw [Simulated.checkpoint, World.change, h.files, hm]
  refine .op ?_ ?_
  · show (s.engine.checkpoint s.world path).1 = _
    rw [ha]
  · have he : (s.perform Simulated.engine (.call (.checkpoint path))).2.engine =
        (s.engine.checkpoint s.world path).2.1 := rfl
    have hw : (s.perform Simulated.engine (.call (.checkpoint path))).2.world =
        (s.engine.checkpoint s.world path).2.2 := rfl
    rw [ha] at he hw
    refine ⟨?_, ?_, ?_, ?_⟩
    · rw [he]; exact h.free.of_same rfl rfl rfl
    · rw [he]
    · rw [he]; simp [h.snapshots]
    · rw [hw]

/-- A link is made where it can be put. -/
theorem link (h : s.Stands length spacing inst snapshots files) {outdir short long : String}
    (hm : files.relink short (joinPath outdir long) = (.ok (), files')) :
    Yields Simulated.engine (Flow.link outdir short long) s (joinPath outdir long)
      (·.Stands length spacing inst snapshots files') := by
  have hw := World.link_of_relink (h.files ▸ hm)
  refine .op ?_ ?_
  · rw [Session.perform_link, hw]
  · rw [Session.perform_link, hw]
    exact ⟨h.free, h.inst, h.snapshots, rfl⟩

end Session.Stands

end PhaseSampling
