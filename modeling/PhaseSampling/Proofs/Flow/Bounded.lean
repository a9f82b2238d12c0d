import PhaseSampling.Proofs.Flow.Yields
import PhaseSampling.Proofs.Output

/-!
# Runs into a bounded output

A run into an output with a bound is compared with the run that has room for everything. The two are
the same up to the first text that does not fit, and there the bounded one ends.

* `Session.Precedes`: a later session has written and asked more. Every run leads to such a one.
* `Flow.Writes`: what is known of each text that a run writes and of the session before it.
* `Flow.run_within`: **a run whose output is cut off** ends like the other one, or at a text that does
  not fit.
-/

namespace PhaseSampling

open Text

variable {σ α β : Type} {e : Engine σ} {s s₁ s₂ : Session σ} {n : Nat}

namespace Session

/-- The same session with an output that is cut off. -/
def within (s : Session σ) (n : Nat) : Session σ := { s with output := s.output.within n }

/-- One session comes before another one, whose output has no bound. -/
structure Precedes (s s₁ : Session σ) : Prop where
  unbounded : s₁.output.capacity = none
  output : s.output.toBytes <+: s₁.output.toBytes
  trace : s.trace.toList <+: s₁.trace.toList

theorem Precedes.refl (h : s.output.capacity = none) : s.Precedes s :=
  ⟨h, List.prefix_rfl, List.prefix_rfl⟩

theorem Precedes.trans (h : s.Precedes s₁) (h' : s₁.Precedes s₂) : s.Precedes s₂ :=
  ⟨h'.unbounded, h.output.trans h'.output, h.trace.trans h'.trace⟩

theorem perform_append_of_unbounded (h : s.output.capacity = none) (e : Engine σ) (text : String) :
    ∃ o : Output, s.perform e (.append text) = (.ok (), { s with output := o }) ∧
      o.capacity = none ∧ o.toBytes = s.output.toBytes ++ Utf8.encode text := by
  obtain ⟨o, hwrite, ho, hbytes⟩ := Output.writeText_of_unbounded h text
  exact ⟨o, by rw [perform_append, hwrite], ho, hbytes⟩

theorem perform_precedes (h : s.output.capacity = none) (e : Engine σ) (o : Op) :
    s.Precedes (s.perform e o).2 := by
  cases o with
  | call c =>
    refine ⟨h, List.prefix_rfl, ?_⟩
    simp [perform, ask]
  | append text =>
    obtain ⟨o, hstep, ho, hbytes⟩ := perform_append_of_unbounded h e text
    rw [hstep]
    exact ⟨ho, ⟨_, hbytes.symm⟩, List.prefix_rfl⟩
  | link outdir short long =>
    rw [perform_link]
    exact ⟨h, List.prefix_rfl, List.prefix_rfl⟩
  | say level text => exact ⟨h, List.prefix_rfl, List.prefix_rfl⟩

/-- Other operations do not heed the output. -/
theorem perform_within_of_ne (s : Session σ) (e : Engine σ) (n : Nat) {o : Op}
    (ho : ∀ text, o ≠ .append text) :
    (s.within n).perform e o = ((s.perform e o).1, (s.perform e o).2.within n) := by
  cases o with
  | call c => rfl
  | append text => exact absurd rfl (ho text)
  | link outdir short long => simp only [perform_link, within]
  | say level text => rfl

theorem perform_append_within (h : s.output.capacity = none) (e : Engine σ) (n : Nat) (text : String) :
    (s.within n).perform e (.append text) =
      (if Utf8.encode text = [] ∨ (s.output.toBytes ++ Utf8.encode text).length ≤ n then .ok ()
        else .error (.system .outputFull),
        (s.perform e (.append text)).2.within n) := by
  have hw : (s.within n).output.writeText text = _ := Output.write_within h n (Utf8.encode text)
  rw [perform_append, hw]
  rfl

end Session

namespace Flow

open Session

/-- **A run** leads to a later session. -/
theorem run_precedes (e : Engine σ) (x : Flow α) (h : s.output.capacity = none) :
    s.Precedes (x.run e s).2 := by
  induction x generalizing s with
  | done a => exact Precedes.refl h
  | fail f => exact Precedes.refl h
  | step o next ih =>
    have hp := perform_precedes h e o
    rw [run]
    generalize s.perform e o = step at hp
    obtain ⟨r | r, s₁⟩ := step
    · exact hp
    · exact hp.trans (ih r hp.unbounded)

/-- What holds of every text that the run of a flow writes, and of the session before it. -/
def Writes (e : Engine σ) (P : Session σ → String → Prop) : Flow α → Session σ → Prop
  | .done _, _ => True
  | .fail _, _ => True
  | .step o next, s =>
    (∀ text, o = .append text → P s text) ∧
      ∀ r s', s.perform e o = (.ok r, s') → (next r).Writes e P s'

variable {P : Session σ → String → Prop}

theorem Writes.bind {x : Flow α} {k : α → Flow β} {R : α → Session σ → Prop} (hx : x.Writes e P s)
    (hR : Ensures e x s R) (hk : ∀ a s', R a s' → (k a).Writes e P s') :
    (x >>= k).Writes e P s := by
  show (x.bind k).Writes e P s
  induction x generalizing s with
  | done a => exact hk a s (hR a s rfl)
  | fail f => trivial
  | step o next ih =>
    refine ⟨hx.1, fun r s' hp => ih r (hx.2 r s' hp) fun a s'' hrun => hR a s'' ?_⟩
    rw [run, hp]
    exact hrun

/-- One flow after another, whatever the first does. -/
theorem Writes.seq {x : Flow α} {k : α → Flow β} (hx : x.Writes e P s)
    (hk : ∀ a s', (k a).Writes e P s') : (x >>= k).Writes e P s :=
  hx.bind (R := fun _ _ => True) (fun _ _ _ => trivial) fun a s' _ => hk a s'

theorem Writes.op {o : Op} (h : ∀ text, o = .append text → P s text) : (op o).Writes e P s :=
  ⟨h, fun _ _ _ => trivial⟩

theorem Writes.ofExcept_bind {x : Except Fault α} {k : α → Flow β}
    (h : ∀ a, x = .ok a → (k a).Writes e P s) : (ofExcept x >>= k).Writes e P s := by
  cases x with
  | ok a => exact h a rfl
  | error f => trivial

/-- How the run of a flow ends in a session whose output is cut off. -/
inductive CutOff (e : Engine σ) (P : Session σ → String → Prop) (n : Nat) (x : Flow α)
    (s : Session σ) : Prop where
  /-- As it does with room for everything, since all that it writes fits. -/
  | whole (hfit : (x.run e s).2.output.toBytes.length ≤ n)
      (hrun : x.run e (s.within n) = ((x.run e s).1, (x.run e s).2.within n))
  /-- At a text that does not fit. The calls before it are the same, and so is what is written. -/
  | cut (s₁ : Session σ) (text : String) (hp : P s₁ text) (hfit : s₁.output.toBytes.length ≤ n)
      (hfull : n < (s₁.output.toBytes ++ Utf8.encode text).length)
      (hout : s₁.output.toBytes ++ Utf8.encode text <+: (x.run e s).2.output.toBytes)
      (htrace : s₁.trace.toList <+: (x.run e s).2.trace.toList)
      (hrun : x.run e (s.within n) = (.error (.system .outputFull),
        { s₁ with output := (x.run e s).2.output.within n }))

/-- The rest of a run, when its first operation goes as it does with room for everything. -/
theorem CutOff.step {o : Op} {next : o.Reply → Flow α}
    (hsame : (s.within n).perform e o = ((s.perform e o).1, (s.perform e o).2.within n))
    (hfit : (s.perform e o).2.output.toBytes.length ≤ n)
    (hnext : ∀ r s', s.perform e o = (.ok r, s') → CutOff e P n (next r) s') :
    CutOff e P n (.step o next) s := by
  rcases hp : s.perform e o with ⟨r | r, s₁⟩
  · rw [hp] at hsame hfit
    have hrun : (Flow.step o next).run e s = (.error r, s₁) := by rw [run, hp]
    refine .whole ?_ ?_
    · rw [hrun]; exact hfit
    · rw [hrun, run, hsame]
  · rw [hp] at hsame
    have hrun : (Flow.step o next).run e s = (next r).run e s₁ := by rw [run, hp]
    have hrun' : (Flow.step o next).run e (s.within n) = (next r).run e (s₁.within n) := by
      rw [run, hsame]
    cases hnext r s₁ hp with
    | whole hfit h => exact .whole (hrun ▸ hfit) (by rw [hrun', h, hrun])
    | cut s₂ text hp hfit hfull hout htrace h =>
      exact .cut s₂ text hp hfit hfull (hrun ▸ hout) (hrun ▸ htrace) (by rw [hrun', h, hrun])

/-- A text that does not fit ends the run, while the other one goes on. -/
theorem CutOff.full (h : s.output.capacity = none) (hn : s.output.toBytes.length ≤ n) {text : String}
    {next : Unit → Flow α} (hp : P s text)
    (hfull : n < (s.output.toBytes ++ Utf8.encode text).length) :
    CutOff e P n (.step (.append text) next) s := by
  obtain ⟨o, hstep, ho, hbytes⟩ := perform_append_of_unbounded h e text
  have hrun : (Flow.step (.append text) next).run e s = (next ()).run e { s with output := o } := by
    rw [run, hstep]
  have hne : Utf8.encode text ≠ [] := by
    intro he
    rw [he, List.append_nil] at hfull
    omega
  have hcut := perform_append_within h e n text
  rw [if_neg (by simp only [hne, false_or]; omega), hstep] at hcut
  have hlater := run_precedes e (next ()) (s := { s with output := o }) ho
  refine .cut s text hp hn hfull ?_ ?_ ?_
  · rw [hrun, ← hbytes]
    exact hlater.output
  · rw [hrun]
    exact hlater.trace
  · rw [hrun, Output.within_eq_of_isPrefix hlater.output (by rw [hbytes]; omega), run, hcut]
    rfl

/-- **A run whose output is cut off** ends as the run with room for everything does, or at a text that
does not fit. -/
theorem run_within (h : s.output.capacity = none) (hn : s.output.toBytes.length ≤ n) {x : Flow α}
    (hw : x.Writes e P s) : CutOff e P n x s := by
  induction x generalizing s with
  | done a => exact .whole hn rfl
  | fail f => exact .whole hn rfl
  | step o next ih =>
    have hunbounded := (perform_precedes h e o).unbounded
    have hnext : (s.perform e o).2.output.toBytes.length ≤ n →
        ∀ r s', s.perform e o = (.ok r, s') → CutOff e P n (next r) s' := by
      intro hfit r s' hp
      rw [hp] at hunbounded hfit
      exact ih r hunbounded hfit (hw.2 r s' hp)
    by_cases ho : ∃ text, o = .append text
    · obtain ⟨text, rfl⟩ := ho
      by_cases hfit : (s.output.toBytes ++ Utf8.encode text).length ≤ n
      · obtain ⟨o, hstep, -, hbytes⟩ := perform_append_of_unbounded h e text
        have hfit' : (s.perform e (.append text)).2.output.toBytes.length ≤ n := by
          rw [hstep]
          exact hbytes ▸ hfit
        refine .step ?_ hfit' (hnext hfit')
        rw [perform_append_within h, if_pos (.inr hfit), hstep]
      · exact .full h hn (hw.1 text rfl) (by omega)
    · have ho' : ∀ text, o ≠ .append text := fun text he => ho ⟨text, he⟩
      have hkept : (s.perform e o).2.output = s.output := by
        cases o with
        | append text => exact absurd rfl (ho' text)
        | link outdir short long => rw [perform_link]
        | _ => rfl
      have hfit : (s.perform e o).2.output.toBytes.length ≤ n := hkept ▸ hn
      exact .step (perform_within_of_ne s e n ho') hfit (hnext hfit)

end Flow

end PhaseSampling
