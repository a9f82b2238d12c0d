import PhaseSampling.Engine.Scripted
import PhaseSampling.Proofs.Engine.Controller
import PhaseSampling.Proofs.Sampling.Budget
import PhaseSampling.Replay

/-!
# Scripts told by a controller

A driver gets the answers of a script. A controller that frames these very answers, one after the
other, leads it to the same end.

* `Driver`: what can be run over an engine.
* `Scripted.countings_le`, `Speech.countings_le`: a run asks a script, and a controller, for no more
  counts than its budget is made for.
* `Driver.run_controller`: the run over the controller, with all that it reads and sends.
-/

namespace PhaseSampling

/-- A driver, by the results that it gives. -/
inductive Driver : Type → Type where
  | sampling (c : SamplingConfig) : Driver (List IntervalRecord)
  | replay (c : ReplayConfig) (ps : List Simpoint) : Driver (List Checkpoint)
  | chunks (c : ChunkConfig) : Driver (List Checkpoint)

namespace Driver

variable {α σ : Type}

def run (d : Driver α) (e : Engine σ) (s : Session σ) : Except Fault α × Session σ :=
  match d with
  | sampling c => runSampling e c s
  | replay c ps => (PhaseSampling.replay c ps).run e s
  | chunks c => runChunks e c s

/-- The flow of a driver that may take a number of steps. -/
def flow (d : Driver α) (n : Nat) : Flow α :=
  match d with
  | sampling c => sample c n
  | replay c ps => PhaseSampling.replay c ps
  | chunks c => PhaseSampling.chunks c n

theorem run_eq (d : Driver α) (e : Engine σ) (s : Session σ) :
    d.run e s = (d.flow (e.budget s.engine)).run e s := by
  cases d with
  | sampling c => rfl
  | replay c ps => rfl
  | chunks c => rfl

/-- The number of steps does not matter to a course that asks for few counts. -/
theorem course_flow (d : Driver α) {n n' : Nat} {l : List Deed} {r : Ending α}
    (h : (d.flow n).Course l r) (hn : 2 * countings (exchanges l) + 1 ≤ n)
    (hn' : 2 * countings (exchanges l) + 1 ≤ n') : (d.flow n').Course l r := by
  cases d with
  | sampling c => exact course_sample_budget h hn hn'
  | replay c ps => exact h
  | chunks c => exact course_chunks_budget h (by omega) (by omega)

end Driver

/-! ## Counts -/

namespace Scripted

theorem leavesFiles : engine.LeavesFiles := fun _ _ _ => rfl

/-- A count that is answered is taken from its queue. -/
theorem counts_of_count {a : Scripted} {w : World} {counter : Counter}
    (h : (engine.answer (.count counter) a w).1.toOption.isSome) :
    (engine.answer (.count counter) a w).2.1.counts.length + 1 = a.counts.length := by
  rcases a with ⟨_ | ⟨n | f, counts⟩, causes, dumps, acks⟩
  · cases h
  · cases h
  · rfl

/-- Other calls leave that queue alone. -/
theorem counts_of_other {a : Scripted} {w : World} {c : Call} (h : c.isCount = false) :
    (engine.answer c a w).2.1.counts = a.counts := by
  cases c with
  | count counter => cases h
  | checkpoint path => simp only [engine, answer, acknowledge]; split <;> rfl
  | stats => simp only [engine, answer, acknowledge]; split <;> rfl
  | reset => simp only [engine, answer, acknowledge]; split <;> rfl
  | _ => rfl

theorem countings_le {a b : Scripted} {l : List Exchange} (h : engine.Gives a l b)
    (ha : ∀ x ∈ l, x.answer.isSome) : countings l ≤ a.counts.length := by
  induction h with
  | nil a => exact Nat.zero_le _
  | @cons a b l c w h ih =>
    have ih := ih fun x hx => ha x (List.mem_cons_of_mem _ hx)
    by_cases hc : c.isCount = true
    · cases c with
      | count counter =>
        have hlen := counts_of_count (ha _ (List.mem_cons_self ..))
        rw [countings_count]
        omega
      | _ => cases hc
    · have hother := counts_of_other (a := a) (w := w) (Bool.eq_false_iff.2 hc)
      rw [hother] at ih
      rw [countings, List.countP_cons_of_neg (by simpa using hc)]
      exact ih

end Scripted

theorem Exchange.Says.answered {x : Exchange} {texts : List String} (h : x.Says texts) :
    x.answer.isSome := by
  cases h <;> rfl

theorem Exchange.Says.length_pos {x : Exchange} {texts : List String} (h : x.Says texts) :
    0 < texts.length := by
  cases h <;> simp

namespace Speech

variable {l : List Exchange} {texts : List String}

theorem answered (h : Speech l texts) : ∀ x ∈ l, x.answer.isSome := by
  induction h with
  | nil => simp
  | cons h t ih =>
    rintro x (_ | ⟨_, hx⟩)
    · exact h.answered
    · exact ih x hx

theorem length_le (h : Speech l texts) : l.length ≤ texts.length := by
  induction h with
  | nil => exact Nat.le_refl 0
  | cons h t ih =>
    have := h.length_pos
    rw [List.length_cons, List.length_append]
    omega

end Speech

theorem length_le_spoken (texts : List String) : texts.length ≤ (spoken texts).length := by
  induction texts with
  | nil => exact Nat.zero_le _
  | cons text texts ih =>
    have hcons : spoken (text :: texts) = Response.frame text ++ spoken texts := rfl
    rw [hcons, Response.frame_eq]
    simp only [List.length_cons, List.length_append]
    omega

/-- Every count takes a byte at least. -/
theorem Speech.countings_le {l : List Exchange} {texts : List String} (h : Speech l texts) :
    countings l ≤ (spoken texts).length :=
  Nat.le_trans List.countP_le_length (Nat.le_trans h.length_le (length_le_spoken texts))

/-! ## Runs -/

/-- **A driver does with a controller as it does with a script**, if the responses of the controller
are the answers that it gets from the script. It has the same result, asks the same and makes the same
links. It reads just these responses, and sends just the command lines of its calls. -/
theorem Driver.run_controller {α : Type} (d : Driver α) {s : Session Scripted}
    {t : Session Controller} {l : List Exchange} {texts : List String} {rest : Bytes}
    (hm : t.Matches s) (ht : (d.run Scripted.engine s).2.trace.toList = s.trace.toList ++ l)
    (hs : Speech l texts) (hu : t.engine.unread = spoken texts ++ rest) :
    ∃ t', d.run Controller.engine t = ((d.run Scripted.engine s).1, t') ∧
      t'.Matches (d.run Scripted.engine s).2 ∧ t'.trace.toList = t.trace.toList ++ l ∧
      t'.engine.unread = rest ∧ t'.engine.sent = t.engine.sent ++ commands l := by
  obtain ⟨deeds, r, s', hcourse, hdoes, hrun⟩ :=
    Flow.exists_does Scripted.engine (d.flow (Scripted.engine.budget s.engine)) s
  rw [← d.run_eq] at hrun
  have hl : l = exchanges deeds := by
    rw [hrun, hdoes.trace] at ht
    exact (List.append_cancel_left ht).symm
  subst hl
  -- neither engine is asked for more counts than it has steps for
  have hscript : 2 * countings (exchanges deeds) + 1 ≤ Scripted.engine.budget s.engine := by
    have := Scripted.countings_le hdoes.gives hs.answered
    show _ ≤ 2 * s.engine.counts.length + 4
    omega
  have hcontroller : 2 * countings (exchanges deeds) + 1 ≤ Controller.engine.budget t.engine := by
    have := hs.countings_le
    have hlen := congrArg List.length hu
    rw [List.length_append] at hlen
    show _ ≤ 2 * t.engine.unread.length + 4
    omega
  obtain ⟨t', hdoes', hm', hunread, hsent⟩ := hdoes.controller Scripted.leavesFiles hm hs hu
  have hrun' := Flow.run_of_does (d.course_flow hcourse hscript hcontroller) hdoes'
  rw [← d.run_eq] at hrun'
  rw [hrun]
  exact ⟨t', hrun', hm', hdoes'.trace, hunread, hsent⟩

/-- A sampling run of one interval, once from a script and once from its responses. -/
theorem Driver.run_controller_sampling :
    ∃ t', (sampling ⟨1, 3, 2, false⟩).run Controller.engine
        (.fresh ⟨spoken ["0", "", breakText, "1", "done", "1", "", breakText, "3",
          "3", "", breakText, "4", "3 a\n", "", "4", "", exitText], ""⟩) =
        (.ok [⟨⟨0, 0⟩, ⟨1, 1⟩, ⟨4, 4⟩, 3, true⟩], t') ∧
      t'.engine.unread = [] ∧
      t'.engine.sent = "instcount\nbreakpoint inst 1\nsimulate\ninstcount\nbbhist reset\n" ++
        "instcount\nbreakpoint inst 3\nsimulate\ninstcount\n" ++
        "instcount\nbreakpoint inst 4\nsimulate\ninstcount\nbbhist dump\nbbhist reset\n" ++
        "instcount\nbreakpoint inst 6\nsimulate\n" := by
  have hscript : Prod.map Except.toOption (·.trace.toList)
      ((sampling ⟨1, 3, 2, false⟩).run Scripted.engine
        (.fresh ⟨[.ok 0, .ok 1, .ok 1, .ok 3, .ok 3, .ok 4, .ok 4],
          [.ok .breakpoint, .ok .breakpoint, .ok .breakpoint, .ok .completed], [.ok "3 a\n"],
          []⟩)) =
      (some [⟨⟨0, 0⟩, ⟨1, 1⟩, ⟨4, 4⟩, 3, true⟩],
        [⟨.count .inst, some 0⟩, ⟨.advance .inst 1, some (.ofText breakText)⟩,
          ⟨.count .inst, some 1⟩, ⟨.reset, some ()⟩,
          ⟨.count .inst, some 1⟩, ⟨.advance .inst 3, some (.ofText breakText)⟩,
          ⟨.count .inst, some 3⟩,
          ⟨.count .inst, some 3⟩, ⟨.advance .inst 4, some (.ofText breakText)⟩,
          ⟨.count .inst, some 4⟩, ⟨.dump, some "3 a\n"⟩, ⟨.reset, some ()⟩,
          ⟨.count .inst, some 4⟩, ⟨.advance .inst 6, some (.ofText exitText)⟩]) := by
    decide +kernel
  obtain ⟨hresult, htrace⟩ := Prod.mk.inj hscript
  have hsend : Sendable "" ∧ Sendable "done" ∧ Sendable "3 a\n" ∧ Sendable breakText ∧
      Sendable exitText := by
    refine ⟨?_, ?_, ?_, ?_, ?_⟩ <;> exact sendable_of_size (by decide)
  obtain ⟨hempty, hdone, hdump, hbreak, hexit⟩ := hsend
  have ht : Text.isBlank 't' = false := by decide +kernel
  have hbreak' : Unpadded breakText := unpadded_of_getLast? (by decide) ht
  have hexit' : Unpadded exitText := unpadded_of_getLast? (by decide) ht
  have hspeech : Speech _
      [["0"], ["", breakText], ["1"], ["done"], ["1"], ["", breakText], ["3"],
        ["3"], ["", breakText], ["4"], ["3 a\n"], [""], ["4"], ["", exitText]].flatten :=
    .cons (.count .inst 0 (by decide)) <|
    .cons (.advance .inst 1 hempty hbreak hbreak') <|
    .cons (.count .inst 1 (by decide)) <|
    .cons (.reset hdone) <|
    .cons (.count .inst 1 (by decide)) <|
    .cons (.advance .inst 3 hempty hbreak hbreak') <|
    .cons (.count .inst 3 (by decide)) <|
    .cons (.count .inst 3 (by decide)) <|
    .cons (.advance .inst 4 hempty hbreak hbreak') <|
    .cons (.count .inst 4 (by decide)) <|
    .cons (.dump hdump) <|
    .cons (.reset hempty) <|
    .cons (.count .inst 4 (by decide)) <|
    .cons (.advance .inst 6 hempty hexit hexit') .nil
  obtain ⟨t', hrun, -, -, hunread, hsent⟩ := Driver.run_controller
    (sampling ⟨1, 3, 2, false⟩) (t := .fresh ⟨_, ""⟩) ⟨rfl, rfl⟩ htrace hspeech
      (List.append_nil _).symm
  have hok : ((sampling ⟨1, 3, 2, false⟩).run Scripted.engine _).1 = .ok _ :=
    congrArg Prod.fst (Flow.run_of_toOption hresult)
  rw [hok] at hrun
  exact ⟨t', hrun, hunread, hsent.trans (by decide +kernel)⟩

end PhaseSampling
