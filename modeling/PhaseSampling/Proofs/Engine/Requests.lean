import PhaseSampling.Proofs.Engine.Controller
import PhaseSampling.Proofs.Text.Lines

/-!
# Requests to a controller

A controller takes a request for each line it is sent. Of all that a driver sends, only the path of a
snapshot can hold a newline.

* `Exchange.Issues`, `Issued`: the commands that exchanges issued. A call that failed may have issued
  only its first ones.
* `Controller.issued`: over any stream, a controller is sent the commands that calls issued, and one
  response is read for each.
* `count_sending_eq_iff`, `splitOn_sending`: what is sent has a line for each command, and more just
  if a command has newlines in it.
-/

namespace PhaseSampling

open Text

variable {cmds : List String} {cmd : String} {c : Call} {l : List Exchange}

/-! ## Lines -/

/-- **Newlines that are sent**: one for a command, and those in it. -/
theorem count_sending_cons (cmd : String) (cmds : List String) :
    (Utf8.encode (sending (cmd :: cmds))).count 10 =
      cmd.toList.count '\n' + 1 + (Utf8.encode (sending cmds)).count 10 := by
  have hnewline : "\n".toList.count '\n' = 1 := rfl
  rw [Utf8.count_encode_newline, Utf8.count_encode_newline, sending, String.toList_append,
    String.toList_append, List.count_append, List.count_append, hnewline]

theorem length_le_count_sending (cmds : List String) :
    cmds.length ≤ (Utf8.encode (sending cmds)).count 10 := by
  induction cmds with
  | nil => exact Nat.zero_le _
  | cons cmd cmds ih =>
    rw [count_sending_cons, List.length_cons]
    omega

/-- There are as many as commands just if no command has one in it. -/
theorem count_sending_eq_iff (cmds : List String) :
    (Utf8.encode (sending cmds)).count 10 = cmds.length ↔ ∀ cmd ∈ cmds, '\n' ∉ cmd.toList := by
  induction cmds with
  | nil => exact iff_of_true rfl fun cmd hcmd => absurd hcmd List.not_mem_nil
  | cons cmd cmds ih =>
    have hle := length_le_count_sending cmds
    rw [count_sending_cons, List.length_cons, List.forall_mem_cons, ← ih, ← List.count_eq_zero]
    omega

/-- **What is sent is cut into the commands.** -/
theorem splitOn_sending (h : ∀ cmd ∈ cmds, '\n' ∉ cmd.toList) :
    (Utf8.encode (sending cmds)).splitOn 10 = cmds.map Utf8.encode ++ [[]] := by
  induction cmds with
  | nil => rfl
  | cons cmd cmds ih =>
    rw [sending, Utf8.encode_append, Utf8.splitOn_encode_line (h cmd List.mem_cons_self),
      ih fun cmd' hcmd' => h cmd' (List.mem_cons_of_mem _ hcmd')]
    rfl

/-! ## Commands -/

theorem newline_notMem_name (counter : Counter) : '\n' ∉ counter.name.toList := by
  cases counter <;> decide

/-- **Only a path can hold a newline.** -/
theorem newline_mem_lines_iff (h : cmd ∈ c.lines) :
    '\n' ∈ cmd.toList ↔ ∃ path, c = .checkpoint path ∧ '\n' ∈ path.toList := by
  -- a call of another kind has no path, and no newline in its lines
  have hother : (∀ path, c ≠ .checkpoint path) → '\n' ∉ cmd.toList →
      ('\n' ∈ cmd.toList ↔ ∃ path, c = .checkpoint path ∧ '\n' ∈ path.toList) :=
    fun hc hn => iff_of_false hn fun ⟨path, he, _⟩ => hc path he
  cases c with
  | count counter =>
    refine hother nofun ?_
    rw [List.mem_singleton.1 h, String.toList_append, List.mem_append, not_or]
    exact ⟨newline_notMem_name counter, by decide⟩
  | advance counter target =>
    refine hother nofun ?_
    rcases List.mem_cons.1 h with rfl | h
    · simp only [String.toList_append, List.mem_append, not_or]
      exact ⟨⟨⟨by decide, newline_notMem_name counter⟩, by decide⟩,
        notMem_numeral (by decide) target⟩
    · rw [List.mem_singleton.1 h]
      decide
  | checkpoint path =>
    have hword : '\n' ∉ "checkpoint ".toList := by decide
    rw [List.mem_singleton.1 h, String.toList_append, List.mem_append]
    constructor
    · rintro (h | h)
      · exact absurd h hword
      · exact ⟨path, rfl, h⟩
    · rintro ⟨path', he, h⟩
      cases he
      exact .inr h
  | complete | stats | dump | reset =>
    refine hother nofun ?_
    rw [List.mem_singleton.1 h]
    decide

/-- No command is empty. -/
theorem ne_empty_of_mem_lines (h : cmd ∈ c.lines) : cmd ≠ "" := by
  -- each begins or ends with a word
  have hleft : ∀ {a b : String}, a ≠ "" → a ++ b ≠ "" := fun ha he =>
    ha (String.append_eq_empty_iff.1 he).1
  have hright : ∀ {a b : String}, b ≠ "" → a ++ b ≠ "" := fun hb he =>
    hb (String.append_eq_empty_iff.1 he).2
  cases c with
  | count counter =>
    rw [List.mem_singleton.1 h]
    exact hright (by decide)
  | advance counter target =>
    rcases List.mem_cons.1 h with rfl | h
    · exact hleft (hleft (hleft (by decide)))
    · rw [List.mem_singleton.1 h]
      decide
  | checkpoint path =>
    rw [List.mem_singleton.1 h]
    exact hleft (by decide)
  | complete | stats | dump | reset =>
    rw [List.mem_singleton.1 h]
    decide

/-- The commands that an exchange issued: those of its call, or some first ones if it failed. -/
structure Exchange.Issues (x : Exchange) (cmds : List String) : Prop where
  ne_nil : cmds ≠ []
  of_lines : cmds <+: x.call.lines
  all : x.answer.isSome → cmds = x.call.lines

/-- The commands that exchanges issued one after the other. -/
inductive Issued : List Exchange → List String → Prop where
  | nil : Issued [] []
  | cons {x : Exchange} {l : List Exchange} {cmds cmds' : List String} (h : x.Issues cmds)
      (t : Issued l cmds') : Issued (x :: l) (cmds ++ cmds')

/-- A command comes from the call of an exchange. -/
theorem Issued.exists_of_mem (h : Issued l cmds) (hc : cmd ∈ cmds) :
    ∃ x ∈ l, cmd ∈ x.call.lines := by
  induction h with
  | nil => cases hc
  | @cons x l cmds cmds' hx t ih =>
    rcases List.mem_append.1 hc with hc | hc
    · exact ⟨x, List.mem_cons_self, hx.of_lines.subset hc⟩
    · obtain ⟨y, hy, hmem⟩ := ih hc
      exact ⟨y, List.mem_cons_of_mem _ hy, hmem⟩

/-- A snapshot was asked for by its command, whether or not it was taken. -/
theorem Issued.mem_checkpoint (h : Issued l cmds) {path : String} {answer : Option Unit}
    (hx : ⟨.checkpoint path, answer⟩ ∈ l) : s!"checkpoint {path}" ∈ cmds := by
  induction h with
  | nil => cases hx
  | @cons x l cmds cmds' hissues t ih =>
    rcases List.mem_cons.1 hx with rfl | hx
    · -- the only command of the call
      obtain ⟨cmd, rest, rfl⟩ := List.exists_cons_of_ne_nil hissues.ne_nil
      have hmem := hissues.of_lines.subset List.mem_cons_self
      rw [← List.mem_singleton.1 hmem]
      exact List.mem_append_left _ List.mem_cons_self
    · exact List.mem_append_right _ (ih hx)

/-! ## Controllers -/

namespace Controller

/-- A controller that was sent commands, when a response to each was read. -/
def after (s : Controller) (cmds : List String) : Controller :=
  ⟨(Response.readMany cmds.length s.unread).2, s.sent ++ sending cmds⟩

theorem after_nil (s : Controller) : s.after [] = s := by
  rw [after, sending, String.append_empty]
  rfl

theorem after_append (s : Controller) (cmds cmds' : List String) :
    s.after (cmds ++ cmds') = (s.after cmds).after cmds' := by
  rw [after, List.length_append, Response.readMany_add, sending_append, ← String.append_assoc]
  rfl

/-- **A command** is sent as a line, and one response is read. -/
theorem command_after (cmd : String) (s : Controller) (w : World) :
    (command cmd s w).2.1 = s.after [cmd] := by
  have hsent : s.sent ++ cmd ++ "\n" = s.sent ++ sending [cmd] := by
    simp [sending, String.append_assoc]
  unfold command
  simp only [hsent]
  split <;> rfl

theorem order_after (cmd : String) (s : Controller) (w : World) :
    (order cmd s w).2.1 = s.after [cmd] := by
  rw [← command_after cmd s w, order]
  split <;> rename_i h <;> rw [h]

theorem number_after (cmd : String) (s : Controller) (w : World) :
    (number cmd s w).2.1 = s.after [cmd] := by
  rw [← command_after cmd s w, number]
  split
  · rename_i h
    rw [h]
    split <;> rfl
  · rename_i h
    rw [h]

theorem simulate_after (s : Controller) (w : World) :
    (simulate s w).2.1 = s.after ["simulate"] := by
  rw [← command_after "simulate" s w, simulate]
  split <;> rename_i h <;> rw [h]

/-- **A call** issues its commands, up to the first that fails. -/
theorem answer_issues (c : Call) (s : Controller) (w : World) :
    ∃ cmds, Exchange.Issues ⟨c, (answer c s w).1.toOption⟩ cmds ∧
      (answer c s w).2.1 = s.after cmds := by
  -- a call of one command
  have hone : ∀ {c : Call} {cmd : String} {r : Option c.Answer}, c.lines = [cmd] →
      Exchange.Issues ⟨c, r⟩ [cmd] := fun h =>
    ⟨List.cons_ne_nil _ _, h ▸ List.prefix_refl _, fun _ => h.symm⟩
  cases c with
  | count counter => exact ⟨_, hone rfl, number_after _ s w⟩
  | advance counter target =>
    have hset := order_after s!"breakpoint {counter.name} {target}" s w
    rw [answer]
    -- the program runs if the breakpoint was set
    generalize order s!"breakpoint {counter.name} {target}" s w = result at hset ⊢
    obtain ⟨r, s₁, w₁⟩ := result
    have hs₁ : s₁ = s.after [s!"breakpoint {counter.name} {target}"] := hset
    subst hs₁
    cases r with
    | ok a =>
      refine ⟨_, ⟨List.cons_ne_nil _ _, List.prefix_refl _, fun _ => rfl⟩, ?_⟩
      exact (simulate_after _ w₁).trans (after_append s _ ["simulate"]).symm
    | error f =>
      refine ⟨[s!"breakpoint {counter.name} {target}"], ⟨List.cons_ne_nil _ _, ?_, fun h => ?_⟩, rfl⟩
      · exact List.prefix_append _ ["simulate"]
      · cases h
  | complete => exact ⟨_, hone rfl, simulate_after s w⟩
  | checkpoint path => exact ⟨_, hone rfl, order_after _ s w⟩
  | stats => exact ⟨_, hone rfl, order_after _ s w⟩
  | dump => exact ⟨_, hone rfl, command_after _ s w⟩
  | reset => exact ⟨_, hone rfl, order_after _ s w⟩

/-- **A controller is sent what calls issue**, and one response is read for each command, over any
stream. -/
theorem issued {a b : Controller} (h : engine.Gives a l b) :
    ∃ cmds, Issued l cmds ∧ b = a.after cmds := by
  induction h with
  | nil a => exact ⟨[], .nil, a.after_nil.symm⟩
  | @cons a b l c w h ih =>
    obtain ⟨cmds', hissued, hb⟩ := ih
    obtain ⟨cmds, hissues, hafter⟩ := answer_issues c a w
    refine ⟨cmds ++ cmds', .cons hissues hissued, ?_⟩
    rw [hb, after_append, ← hafter]
    rfl

end Controller

end PhaseSampling
