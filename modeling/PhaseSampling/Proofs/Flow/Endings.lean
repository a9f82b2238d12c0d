import PhaseSampling.Engine.RunFor
import PhaseSampling.Proofs.Flow.Course
import PhaseSampling.Proofs.Flow.Yields

/-!
# Runs that come to their end

A driver with a loop is given a number of steps, and fails if they are used up. It comes to its end if
they are not, and then a larger number would change nothing.

* `Flow.Settles`: a run does not use up its steps, and what is known of it if it ends with a value.
* `Flow.Ends`: a driver over an engine comes to its end with the steps that it is given.
* `Engine.Tires`: a measure on the states of an engine that falls whenever the program is run on and
  stops at a breakpoint. This is what ends a loop.
-/

namespace PhaseSampling

namespace Flow

variable {σ α β : Type} {e : Engine σ} {s : Session σ}

/-- The run of a flow does not fail for want of steps. If it ends with a value, the value and the
session then have a property. -/
structure Settles (e : Engine σ) (x : Flow α) (s : Session σ) (R : α → Session σ → Prop) :
    Prop where
  finished : (x.run e s).1 ≠ .error .unfinished
  ensures : Ensures e x s R

variable {R : α → Session σ → Prop} {T : β → Session σ → Prop}

theorem Settles.pure {a : α} (h : R a s) : Settles e (pure a) s R := by
  refine ⟨?_, Ensures.pure h⟩
  intro hf
  cases hf

theorem Settles.fail {f : Fault} (hf : f ≠ .unfinished) : Settles e (.fail f) s R := by
  refine ⟨?_, Ensures.fail⟩
  intro h
  exact hf (Except.error.inj h)

theorem Settles.imp {x : Flow α} {R' : α → Session σ → Prop} (h : Settles e x s R)
    (hR : ∀ a s', R a s' → R' a s') : Settles e x s R' :=
  ⟨h.finished, h.ensures.imp hR⟩

theorem Settles.bind {x : Flow α} {k : α → Flow β} (h : Settles e x s R)
    (hk : ∀ a s', R a s' → Settles e (k a) s' T) : Settles e (x >>= k) s T := by
  refine ⟨?_, h.ensures.bind fun a s' hr => (hk a s' hr).ensures⟩
  show ((x.bind k).run e s).1 ≠ _
  rw [run_bind]
  have hfin := h.finished
  have hval := h.ensures
  rcases hx : x.run e s with ⟨f | a, s₁⟩
  · intro hf
    cases hf
    exact hfin (congrArg Prod.fst hx)
  · exact (hk a s₁ (hval a s₁ hx)).finished

theorem Settles.ofExcept {x : Except Fault α} (hx : x ≠ .error .unfinished) :
    Settles e (ofExcept x) s fun a s' => x = .ok a ∧ s' = s := by
  cases x with
  | ok a => exact .pure ⟨rfl, rfl⟩
  | error f => exact .fail fun hf => hx (congrArg Except.error hf)

/-- One flow has the run of another one, which does not fail for want of steps. -/
structure SettlesAs (e : Engine σ) (x x' : Flow α) (s : Session σ) (R : α → Session σ → Prop) :
    Prop where
  run_eq : x.run e s = x'.run e s
  settles : Settles e x s R

theorem SettlesAs.self {x : Flow α} (h : Settles e x s R) : SettlesAs e x x s R := ⟨rfl, h⟩

/-- Another flow in place of the second one. -/
theorem Settles.bind_as {x : Flow α} {k k' : α → Flow β} (h : Settles e x s R)
    (hk : ∀ a s', R a s' → SettlesAs e (k a) (k' a) s' T) :
    SettlesAs e (x >>= k) (x >>= k') s T := by
  refine ⟨?_, h.bind fun a s' hr => (hk a s' hr).settles⟩
  have hval := h.ensures
  show (x.bind k).run e s = (x.bind k').run e s
  rw [run_bind, run_bind]
  rcases hx : x.run e s with ⟨f | a, s₁⟩
  · rfl
  · exact (hk a s₁ (hval a s₁ hx)).run_eq

/-- Another flow in place of the first one. -/
theorem SettlesAs.bind {x x' : Flow α} {k : α → Flow β} (h : SettlesAs e x x' s R)
    (hk : ∀ a s', R a s' → Settles e (k a) s' T) : SettlesAs e (x >>= k) (x' >>= k) s T := by
  refine ⟨?_, h.settles.bind hk⟩
  show (x.bind k).run e s = (x'.bind k).run e s
  rw [run_bind, run_bind, h.run_eq]

/-- **A loop comes to its end** if there is something left before each of its rounds, and less behind
it. `loop n a` goes on from `a` for `n` rounds at most. -/
theorem settles_loop (loop : Nat → α → Flow β) (body : α → Flow α) (going : α → Prop)
    (left : α → Session σ → Nat) (hstop : ∀ a, ¬ going a → ∃ b, ∀ n, loop n a = .done b)
    (hgo : ∀ n a, going a → loop (n + 1) a = body a >>= loop n)
    (hbody : ∀ a s, going a → 0 < left a s ∧
      Settles e (body a) s fun a' s' => left a' s' < left a s)
    {n m : Nat} {a : α} {s : Session σ} (hn : left a s ≤ n) (hm : left a s ≤ m) :
    SettlesAs e (loop n a) (loop m a) s fun _ _ => True := by
  -- by induction on the rounds, each of which takes away from what is left
  induction n generalizing m a s with
  | zero =>
    have hidle : ¬ going a := fun hg => by
      have hpos := (hbody a s hg).1
      omega
    obtain ⟨b, hb⟩ := hstop a hidle
    rw [hb, hb]
    exact .self (.pure trivial)
  | succ n ih =>
    by_cases hg : going a
    · obtain ⟨hpos, hsettles⟩ := hbody a s hg
      obtain ⟨m, rfl⟩ := Nat.exists_eq_add_of_le' (Nat.le_trans hpos hm)
      rw [hgo n a hg, hgo m a hg]
      exact hsettles.bind_as fun a' s' hlt => ih (by omega) (by omega)
    · obtain ⟨b, hb⟩ := hstop a hg
      rw [hb, hb]
      exact .self (.pure trivial)

/-- A driver over an engine comes to its end with the steps that it is given: they are not used up,
and with more of them it would do the same. -/
def Ends (e : Engine σ) (x : Nat → Flow α) (s : Session σ) : Prop :=
  ((x (e.budget s.engine)).run e s).1 ≠ .error .unfinished ∧
    ∀ n, e.budget s.engine ≤ n → (x n).run e s = (x (e.budget s.engine)).run e s

theorem ends_of_settlesAs {x : Nat → Flow α}
    (h : ∀ n, e.budget s.engine ≤ n → SettlesAs e (x (e.budget s.engine)) (x n) s R) :
    Ends e x s :=
  ⟨(h _ (Nat.le_refl _)).settles.finished, fun n hn => (h n hn).run_eq.symm⟩

end Flow

open PhaseSampling.Flow

/-- A measure on the states of an engine never grows. It falls when the program is run for some
instructions and stops at the breakpoint. The engine has no fault for want of steps. -/
structure Engine.Tires {σ : Type} (e : Engine σ) (μ : σ → Nat) : Prop where
  fault : ∀ c a w, (e.answer c a w).1 ≠ .error .unfinished
  le : ∀ c a w, μ (e.answer c a w).2.1 ≤ μ a
  lt : ∀ {a b d : σ} {w w' w'' w''' : World} {k n : Nat}, 0 < n →
    e.answer (.count .inst) a w = (.ok k, b, w') →
    e.answer (.advance .inst (k + n)) b w'' = (.ok .breakpoint, d, w''') → μ d < μ a

namespace Engine.Tires

variable {σ : Type} {e : Engine σ} {μ : σ → Nat} {s : Session σ}

/-- **An operation** leaves the measure as it is, or lets it fall. -/
theorem op (h : e.Tires μ) (o : Op) :
    Settles e (Flow.op o) s fun r s' => s.perform e o = (.ok r, s') ∧ μ s'.engine ≤ μ s.engine := by
  refine ⟨fun hf => ?_, Ensures.op fun r s' hp => ⟨hp, ?_⟩⟩
  · have hp : (s.perform e o).1 = .error .unfinished := by
      rw [Flow.op, run] at hf
      rcases hr : s.perform e o with ⟨f | r, s'⟩
      · rwa [hr] at hf
      · rw [hr] at hf
        cases hf
    have hdeed : Deed.Of e ⟨o, .error .unfinished⟩ := ⟨s, hp.symm⟩
    rcases hdeed.fault with ⟨c, a, w, hc⟩ | ⟨cause, hc⟩
    · exact h.fault c a w hc
    · cases hc
  · have hs : s' = (s.perform e o).2 := (congrArg Prod.snd hp).symm
    subst hs
    cases o with
    | call c => exact h.le c s.engine s.world
    | append text => exact Nat.le_refl _
    | link outdir short long =>
      have hstays : (s.perform e (.link outdir short long)).2.engine = s.engine := by
        rw [Session.perform_link]
      exact Nat.le_of_eq (congrArg μ hstays)
    | say level text => exact Nat.le_refl _

theorem call (h : e.Tires μ) (c : Call) :
    Settles e (Flow.call c) s fun _ s' => μ s'.engine ≤ μ s.engine :=
  (h.op (.call c)).imp fun _ _ hp => hp.2

/-- **Running for a while** lets the measure fall, if the program goes on from there. -/
theorem runFor (h : e.Tires μ) (counter : Counter) (n : Nat) :
    Settles e (runFor counter n) s fun there s' => μ s'.engine ≤ μ s.engine ∧
      (there = true → counter = .inst → 0 < n → μ s'.engine < μ s.engine) := by
  unfold PhaseSampling.runFor
  refine (h.op (.call (.count counter))).bind ?_
  rintro k s₁ ⟨hcount, hle₁⟩
  split
  · refine (h.op (.call (.advance counter (k + n)))).bind ?_
    rintro cause s₂ ⟨hadvance, hle₂⟩
    have hle : μ s₂.engine ≤ μ s.engine := Nat.le_trans hle₂ hle₁
    cases cause with
    | breakpoint =>
      refine .pure ⟨hle, fun _ hinst hn => ?_⟩
      subst hinst
      simp only [Session.perform, Session.ask, Prod.mk.injEq] at hcount hadvance
      obtain ⟨hk, rfl⟩ := hcount
      obtain ⟨hb, rfl⟩ := hadvance
      exact h.lt hn (Prod.ext hk rfl) (Prod.ext hb rfl)
    | completed => exact .pure ⟨hle, by simp⟩
    | other text => exact .fail (by simp [StopCause.unexpected])
  · exact .fail (by simp)

end Engine.Tires

end PhaseSampling
