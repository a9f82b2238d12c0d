import PhaseSampling.Proofs.Engine.Alarms
import PhaseSampling.Proofs.Replay.Targets

/-!
# Stops

A driver goes on from a breakpoint, and it ends well only where the program has exited. The sampler
and the driver of chunks take any exit for the end. A replay takes it for that at the last of its
visits only, and otherwise runs the program to its end itself.

* `Exchange.Onward`: what a driver goes on from.
* `Driver.EndsWell`: the log of a driver that ends with a value.
* `Driver.heeds_stops`: **no stop is swallowed**.
-/

namespace PhaseSampling

open PhaseSampling.Flow

/-! ## Logs -/

/-- An exchange that a driver goes on from: it does not run the program, or only to a breakpoint. -/
def Exchange.Onward : Exchange → Prop
  | ⟨.advance _ _, r⟩ => r = some .breakpoint
  | ⟨.complete, _⟩ => False
  | _ => True

def Call.isAdvance : Call → Bool
  | .advance _ _ => true
  | _ => false

/-- How often the program was sent to a breakpoint. -/
def advances (l : List Exchange) : Nat := l.countP (·.call.isAdvance)

theorem advances_append (l l' : List Exchange) :
    advances (l ++ l') = advances l + advances l' := List.countP_append

theorem advances_eq_zero {l : List Exchange} (h : ∀ x ∈ l, x.call.isAdvance = false) :
    advances l = 0 := by
  unfold advances
  rw [List.countP_eq_zero]
  intro x hx
  simp [h x hx]

theorem advances_cons_advance (counter : Counter) (target : Nat) (r : Option StopCause)
    (l : List Exchange) : advances (⟨.advance counter target, r⟩ :: l) = advances l + 1 := by
  unfold advances
  rw [List.countP_cons_of_pos (by rfl)]

/-- A log of breakpoints, and then of the exit of the program. -/
def ExitsLast (l : List Exchange) : Prop :=
  ∃ m counter target, l = m ++ [⟨.advance counter target, some .completed⟩] ∧ ∀ x ∈ m, x.Onward

theorem ExitsLast.append {l l' : List Exchange} (h : ∀ x ∈ l, x.Onward) (h' : ExitsLast l') :
    ExitsLast (l ++ l') := by
  obtain ⟨m, counter, target, rfl, hm⟩ := h'
  refine ⟨l ++ m, counter, target, (List.append_assoc ..).symm, fun x hx => ?_⟩
  rcases List.mem_append.1 hx with hx | hx
  · exact h x hx
  · exact hm x hx

/-! ## Sampling -/

namespace SamplingConfig

variable {c : SamplingConfig} {n : Nat} {b w : Boundary} {l : List Exchange}
  {rs : List IntervalRecord}

theorem Leg.onward (h : c.Leg n b l) : ∀ x ∈ l, x.Onward := by
  cases h <;> simp [Exchange.Onward]

theorem Exit.exitsLast (h : c.Exit n l) : ExitsLast l := by
  cases h with
  | running k => exact ⟨[⟨.count .inst, some k⟩], .inst, k + n, rfl, by simp [Exchange.Onward]⟩
  | aligning h k m =>
    exact ⟨[⟨.count .inst, some k⟩, ⟨.advance .inst (k + n), some .breakpoint⟩,
      ⟨.count .waypoint, some m⟩], .waypoint, m + 1, rfl, by simp [Exchange.Onward]⟩

theorem Tour.onward (t : c.Tour rs w b l) : ∀ x ∈ l, x.Onward := by
  induction t with
  | first h =>
    intro x hx
    rcases List.mem_append.1 hx with hx | hx
    · exact h.onward x hx
    · rw [List.mem_singleton.1 hx]
      trivial
  | filed t ho hb text total wellFormed ih =>
    intro x hx
    simp only [List.mem_append, List.mem_cons, List.not_mem_nil, or_false] at hx
    rcases hx with hx | (hx | hx) | rfl | rfl
    · exact ih x hx
    · exact ho.onward x hx
    · exact hb.onward x hx
    · trivial
    · trivial

end SamplingConfig

/-- A sampler is done where the program has exited. -/
theorem Sampler.History.exitsLast {c : SamplingConfig} {s : Sampler} {l : List Exchange}
    (h : s.History c l) (hd : s.stage = .done) : ExitsLast l := by
  cases h with
  | warming wr => cases hd
  | sampling wr t => cases hd
  | dumping wr t ho hb => cases hd
  | exitedFirst wr h => exact h.exitsLast
  | exitedOut wr t h => exact h.exitsLast.append t.onward
  | exitedBack wr t ho h => exact (h.exitsLast.append ho.onward).append t.onward

/-! ## Chunks -/

theorem ChunkConfig.Row.onward {c : ChunkConfig} {cps : List Checkpoint} {l : List Exchange}
    (h : c.Row cps l) : ∀ x ∈ l, x.Onward := by
  induction h with
  | nil => simp
  | snoc h k inst ih =>
    intro x hx
    rcases List.mem_append.1 hx with hx | hx
    · exact ih x hx
    · simp only [run, snap, List.cons_append, List.nil_append, List.mem_cons, List.not_mem_nil,
        or_false] at hx
      rcases hx with rfl | rfl | rfl | rfl <;> trivial

/-! ## Replays -/

namespace ReplayConfig

variable {c : ReplayConfig} {count : Nat → Mark → Nat} {s : Pass} {v : Visit} {vs : List Visit}
  {l before after : List Exchange} {counter : Counter} {target : Nat}

/-- A visit that the program has come to by a breakpoint. -/
theorem passed_onward (c : ReplayConfig) (v : Visit) (target inst : Nat) :
    (∀ x ∈ (⟨.advance c.counter target, some .breakpoint⟩ : Exchange) ::
      ⟨.count .inst, some inst⟩ :: c.snapshot v, x.Onward) ∧
    advances (⟨.advance c.counter target, some .breakpoint⟩ ::
      ⟨.count .inst, some inst⟩ :: c.snapshot v) = 1 := by
  unfold snapshot
  split <;> simp [Exchange.Onward, advances, Call.isAdvance]

theorem log_onward (c : ReplayConfig) (count : Nat → Mark → Nat) (vs : List Visit) :
    (∀ x ∈ c.log count false vs, x.Onward) ∧ advances (c.log count false vs) = vs.length := by
  induction vs with
  | nil => exact ⟨by simp [log], rfl⟩
  | cons v vs ih =>
    obtain ⟨hon, hone⟩ := c.passed_onward v (c.aim vs.isEmpty v) (count v.index v.mark)
    have hlog : c.log count false (v :: vs) =
        (⟨.advance c.counter (c.aim vs.isEmpty v), some .breakpoint⟩ ::
          ⟨.count .inst, some (count v.index v.mark)⟩ :: c.snapshot v) ++ c.log count false vs := by
      rw [log, Bool.and_false]
      rfl
    rw [hlog, advances_append, hone, ih.2, List.length_cons, Nat.add_comm]
    exact ⟨List.forall_mem_append.2 ⟨hon, ih.1⟩, rfl⟩

/-- **Where the program has exited on the last visit**, all others were answered by a breakpoint. -/
theorem exists_log_exited (c : ReplayConfig) (count : Nat → Mark → Nat) (hne : vs ≠ [])
    (hc : Closed vs) : ∃ m target inst, c.log count true vs =
        m ++ [⟨.advance c.counter target, some .completed⟩, ⟨.count .inst, some inst⟩] ∧
      (∀ x ∈ m, x.Onward) ∧ advances m + 1 = vs.length := by
  induction vs with
  | nil => exact absurd rfl hne
  | cons v vs ih =>
    cases vs with
    | nil =>
      -- the last visit is that of an end, where no snapshot is taken
      have hm : v.mark = .stop := hc v (by simp)
      have hnone : c.snapshot v = [] := by
        unfold snapshot
        rw [hm]
        rfl
      refine ⟨[], c.aim true v, count v.index v.mark, ?_, by simp, rfl⟩
      rw [log, hnone]
      rfl
    | cons w vs =>
      obtain ⟨m, target, inst, hlog, hm, hlen⟩ := ih (by simp) hc.tail
      obtain ⟨hon, hone⟩ := c.passed_onward v (c.aim false v) (count v.index v.mark)
      refine ⟨(⟨.advance c.counter (c.aim false v), some .breakpoint⟩ ::
        ⟨.count .inst, some (count v.index v.mark)⟩ :: c.snapshot v) ++ m,
        target, inst, ?_, ?_, ?_⟩
      · rw [log, hlog]
        simp
      · exact List.forall_mem_append.2 ⟨hon, hm⟩
      · rw [advances_append, hone, List.length_cons, ← hlen]
        omega

/-! ### Exits before the last visit -/

/-- **A visit starts with its breakpoint.** If that finds the program gone, the visit is the last
one or ends the replay. -/
theorem Visited.head {last : Bool} {r : Ending Pass} (h : c.Visited last s v l r) :
    ∃ answer rest, l = ⟨.advance c.counter (c.target last v), answer⟩ :: rest ∧
      (∀ x ∈ rest, x.call.isAdvance = false) ∧
      (answer = some .completed → last = true ∨
        (rest = [] ∧ r = .fault true (.exitedEarly c.counter (c.target last v)))) := by
  have hlast : ∀ exited : Bool, (exited = true → last = true) →
      some (if exited then StopCause.completed else .breakpoint) = some .completed →
      last = true := by
    intro exited he hx
    cases exited with
    | true => exact he rfl
    | false => simp at hx
  have hsnap : ∀ inst, ∀ x ∈ (⟨.count .inst, some inst⟩ : Exchange) :: c.snapshot v,
      x.call.isAdvance = false := by
    intro inst
    unfold snapshot
    split <;> simp [Call.isAdvance]
  cases h with
  | unanswered f => exact ⟨none, [], rfl, by simp, by simp⟩
  | early h => exact ⟨some .completed, [], rfl, by simp, fun _ => .inr ⟨rfl, rfl⟩⟩
  | stopped text => exact ⟨some (.other text), [], rfl, by simp, by simp⟩
  | uncounted exited he f =>
    exact ⟨_, _, rfl, by simp [Call.isAdvance], fun hx => .inl (hlast exited he hx)⟩
  | unsaved exited he inst hm f =>
    exact ⟨_, _, rfl, by simp [Call.isAdvance], fun hx => .inl (hlast exited he hx)⟩
  | unlogged exited he inst hm f =>
    exact ⟨_, _, rfl, by simp [Call.isAdvance], fun hx => .inl (hlast exited he hx)⟩
  | unnamed exited he inst hm hn =>
    exact ⟨_, _, rfl, by simp [Call.isAdvance], fun hx => .inl (hlast exited he hx)⟩
  | passed exited he inst hm =>
    exact ⟨_, _, rfl, hsnap inst, fun hx => .inl (hlast exited he hx)⟩
  | named exited he inst hm hn =>
    exact ⟨_, _, rfl, by simp [Call.isAdvance], fun hx => .inl (hlast exited he hx)⟩

/-- **An exit before the last visit** ends the visits at once. -/
theorem VisitedAll.early {r : Ending Pass} (h : c.VisitedAll s vs l r)
    (hl : l = before ++ ⟨.advance counter target, some .completed⟩ :: after)
    (hn : advances before + 1 < vs.length) :
    after = [] ∧ r = .fault true (.exitedEarly counter target) := by
  induction h generalizing before with
  | nil s => simp at hl
  | @cut s v vs l own f h =>
    obtain ⟨answer, rest, rfl, hrest, hexit⟩ := h.head
    cases before with
    | nil =>
      cases hl
      rcases hexit rfl with hlast | hend
      · rw [List.isEmpty_iff.1 hlast] at hn
        exact absurd hn (by simp [advances])
      · exact hend
    | cons y before =>
      -- only the first call of the visit sets a breakpoint
      obtain ⟨-, hrest'⟩ := List.cons.inj hl
      have hno := hrest ⟨.advance counter target, some .completed⟩ (by simp [hrest'])
      cases hno
  | @cons s s' v vs l l' r h t ih =>
    obtain ⟨answer, rest, rfl, hrest, hexit⟩ := h.head
    cases before with
    | nil =>
      obtain ⟨hfirst, -⟩ := List.cons.inj hl
      cases hfirst
      rcases hexit rfl with hlast | ⟨-, hvalue⟩
      · rw [List.isEmpty_iff.1 hlast] at hn
        exact absurd hn (by simp [advances])
      · cases hvalue
    | cons y before =>
      obtain ⟨rfl, hrest'⟩ := List.cons.inj hl
      rw [advances_cons_advance, List.length_cons] at hn
      rcases List.append_eq_append_iff.1 hrest' with ⟨mid, rfl, hl'⟩ | ⟨mid, rfl, hl'⟩
      · rw [advances_append, advances_eq_zero hrest, Nat.zero_add] at hn
        exact ih hl' (by omega)
      · cases mid with
        | nil =>
          rw [List.append_nil] at hrest
          have hstart : l' = [] ++ ⟨.advance counter target, some .completed⟩ :: after := hl'.symm
          exact ih hstart (by simp [advances]; omega)
        | cons z mid =>
          obtain ⟨rfl, -⟩ := List.cons.inj hl'
          have hno := hrest ⟨.advance counter target, some .completed⟩ (by simp)
          cases hno

/-- An exit before the last visit ends the replay at once. -/
theorem Replayed.early {ps : List Simpoint} {r : Ending (List Checkpoint)}
    (h : c.Replayed ps l r)
    (hl : l = before ++ ⟨.advance counter target, some .completed⟩ :: after)
    (hn : advances before + 1 < 3 * ps.length) :
    after = [] ∧ r = .fault true (.exitedEarly counter target) := by
  rw [← length_timeline] at hn
  -- where the visits were all made, there was none
  have hvalue : ∀ {l : List Exchange} {s : Pass}
      (t : c.VisitedAll .start (timeline ps) l (.value s)) {after : List Exchange},
      l = before ++ ⟨.advance counter target, some .completed⟩ :: after → False := by
    intro l s t after hl
    cases (t.early hl hn).2
  have hlast : ∀ {l : List Exchange} {s : Pass} {r : Option StopCause}
      (t : c.VisitedAll .start (timeline ps) l (.value s)), l ++ [⟨.complete, r⟩] =
        before ++ ⟨.advance counter target, some .completed⟩ :: after → False := by
    intro l s r t hl
    rcases List.eq_nil_or_concat after with rfl | ⟨after, y, rfl⟩
    · have hend := List.append_inj_right' hl rfl
      cases hend
    · have hcat : l ++ [⟨.complete, r⟩] =
          (before ++ ⟨.advance counter target, some .completed⟩ :: after) ++ [y] := by
        simpa using hl
      exact hvalue t (List.append_inj_left' hcat rfl)
  cases h with
  | rejected h => simp at hl
  | cut hv t =>
    obtain ⟨hafter, hr⟩ := t.early hl hn
    cases hr
    exact ⟨hafter, rfl⟩
  | exited hv t he => exact (hvalue t hl).elim
  | unfinished hv t he f => exact (hlast t hl).elim
  | stopped hv t he hc => exact (hlast t hl).elim
  | completed hv t he => exact (hlast t hl).elim

end ReplayConfig

/-! ## Drivers -/

namespace Driver

variable {α σ : Type}

/-- The log of a driver that ends well: breakpoints, and then the exit of the program. A replay may
meet the exit at its last visit, or behind it by running the program to its end. -/
def EndsWell : Driver α → List Exchange → Prop
  | sampling _, l => ExitsLast l
  | chunks _, l => ExitsLast l
  | replay c ps, l =>
    (∃ m, l = m ++ [⟨.complete, some .completed⟩] ∧ (∀ x ∈ m, x.Onward) ∧
      advances m = 3 * ps.length) ∨
    ∃ m target inst, l =
        m ++ [⟨.advance c.counter target, some .completed⟩, ⟨.count .inst, some inst⟩] ∧
      (∀ x ∈ m, x.Onward) ∧ advances m + 1 = 3 * ps.length

/-- Where the program must not exit: at a visit of a replay before the last one. -/
def Underway : Driver α → List Exchange → Prop
  | replay _ ps, before => advances before + 1 < 3 * ps.length
  | _, _ => False

theorem endsWell_of_course (d : Driver α) {n : Nat} {l : List Deed} {a : α}
    (h : (d.flow n).Course l (.value a)) : d.EndsWell (exchanges l) := by
  cases d with
  | sampling c =>
    obtain ⟨s, hist, hd, -⟩ | ⟨own, f, -, -, hr⟩ := course_sample h
    · exact hist.exitsLast hd
    · cases hr
  | chunks c =>
    obtain ⟨l₁, k, hrow, hl⟩ := course_chunks h
    rw [hl]
    refine ExitsLast.append hrow.onward ?_
    exact ⟨[⟨.count .inst, some k⟩], .inst, k + c.stride a.length, rfl, by simp [Exchange.Onward]⟩
  | replay c ps =>
    have hv : Simpoint.validate ps = .ok () := by
      have h : (PhaseSampling.replay c ps).Course l (.value a) := h
      rw [PhaseSampling.replay, course_ofExcept_bind] at h
      obtain ⟨f, -, -, hf⟩ | ⟨⟨⟩, hv, -⟩ := h
      · cases hf
      · exact hv
    obtain ⟨count, exited, hfin⟩ := (course_replay h).finished
    rw [hfin.log]
    cases exited with
    | false =>
      obtain ⟨hon, hlen⟩ := c.log_onward count (timeline ps)
      rw [length_timeline] at hlen
      exact .inl ⟨_, rfl, hon, hlen⟩
    | true =>
      have hne : timeline ps ≠ [] := by
        intro hnil
        have hlen := length_timeline ps
        rw [hnil, List.length_nil] at hlen
        exact hfin.ne_nil rfl (List.length_eq_zero_iff.1 (by omega))
      obtain ⟨m, target, inst, hlog, hon, hlen⟩ :=
        c.exists_log_exited count hne (ReplayConfig.closed_timeline hv)
      rw [length_timeline] at hlen
      exact .inr ⟨m, target, inst, by rw [hlog]; simp, hon, hlen⟩

/-- **No stop is swallowed.** Over every engine, a driver makes no further call after a stop for
another reason than a breakpoint or the exit of the program, and after a breakpoint where it had the
program run to its end. It returns the fault that tells the text of this stop. The same holds of an
exit at any visit of a replay but the last. If a driver ends well, all its breakpoints were reached
but for that of the last run, which met the exit; a replay has met it at its last visit, or else has
run the program to its end and found that it exited. -/
theorem heeds_stops (d : Driver α) (n : Nat) (e : Engine σ) (s : Session σ) :
    ∃ l, ((d.flow n).run e s).2.trace.toList = s.trace.toList ++ l ∧
      (∀ before x after f, l = before ++ x :: after → x.alarm? = some f →
        after = [] ∧ ((d.flow n).run e s).1 = .error f) ∧
      (∀ before counter target after,
        l = before ++ ⟨.advance counter target, some .completed⟩ :: after → d.Underway before →
        after = [] ∧ ((d.flow n).run e s).1 = .error (.exitedEarly counter target)) ∧
      ∀ a, ((d.flow n).run e s).1 = .ok a → d.EndsWell l := by
  obtain ⟨l, r, hc, hr, -, ht, -⟩ := exists_course e (d.flow n) s
  rw [hr]
  refine ⟨exchanges l, ht, d.heeds n l r hc, fun before counter target after hl hu => ?_,
    fun a ha => ?_⟩
  · cases d with
    | sampling c => exact hu.elim
    | chunks c => exact hu.elim
    | replay c ps =>
      obtain ⟨hafter, hr⟩ := (course_replay hc).early hl hu
      rw [hr]
      exact ⟨hafter, rfl⟩
  · cases r with
    | value b => exact d.endsWell_of_course hc
    | fault own f => cases ha

/-- A script that stops a run in chunks by a signal, and one that exits at the first visit of a
replay. -/
theorem heeds_stops_scripts :
    (((chunks ⟨"/", 5, 2, 3⟩).flow 9).run Scripted.engine
        (.fresh ⟨[.ok 0], [.ok (.other "signal 11")], [], []⟩)).1 =
      .error (.unexpectedStop breakText "signal 11") ∧
    (((replay ⟨"/", .inst, 0⟩ [⟨"0", ⟨0⟩, ⟨1, 2, 4⟩, none⟩]).flow 0).run Scripted.engine
        (.fresh ⟨[], [.ok .completed], [], []⟩)).1 = .error (.exitedEarly .inst 1) := by
  constructor
  · obtain ⟨l, hl, halarm, -, -⟩ := (chunks ⟨"/", 5, 2, 3⟩).heeds_stops 9 Scripted.engine
      (.fresh ⟨[.ok 0], [.ok (.other "signal 11")], [], []⟩)
    have hlog : l = [⟨.count .inst, some 0⟩, ⟨.advance .inst 3, some (.other "signal 11")⟩] :=
      hl.symm.trans (by decide +kernel)
    exact (halarm [⟨.count .inst, some 0⟩] _ [] _ hlog rfl).2
  · obtain ⟨l, hl, -, hearly, -⟩ := (replay ⟨"/", .inst, 0⟩
      [⟨"0", ⟨0⟩, ⟨1, 2, 4⟩, none⟩]).heeds_stops 0 Scripted.engine
        (.fresh ⟨[], [.ok .completed], [], []⟩)
    have ht : timeline [⟨"0", ⟨0⟩, ⟨1, 2, 4⟩, none⟩] = Visit.all 0 ⟨"0", ⟨0⟩, ⟨1, 2, 4⟩, none⟩ :=
      timeline_eq_visits (by decide)
    rw [flow, PhaseSampling.replay, ht] at hl
    have hlog : l = [⟨.advance .inst 1, some .completed⟩] := hl.symm.trans (by decide +kernel)
    have hfirst : advances [] + 1 < 3 * 1 := by decide
    exact (hearly [] .inst 1 [] hlog hfirst).2

end Driver

end PhaseSampling
