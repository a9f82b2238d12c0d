import PhaseSampling.Flow

/-!
# How runs end

* `Flow.Yields`: a run ends with a value, in a session that has a property.
* `Flow.Fails`: a run ends with a fault, in a session that has a property.
* `Flow.Ensures`: if a run ends with a value, the value and the session then have a property.

All are shown operation by operation, along `>>=`.
-/

namespace PhaseSampling.Flow

variable {σ α β : Type}

/-- The run of a flow from a session ends with a value, in a session that has a property. -/
def Yields (e : Engine σ) (x : Flow α) (s : Session σ) (a : α) (Q : Session σ → Prop) : Prop :=
  ∃ s', x.run e s = (.ok a, s') ∧ Q s'

variable {e : Engine σ} {s : Session σ} {a : α} {b : β} {Q P : Session σ → Prop}

theorem Yields.pure (h : Q s) : Yields e (pure a) s a Q := ⟨s, rfl, h⟩

theorem Yields.bind {x : Flow α} {k : α → Flow β} (h : Yields e x s a P)
    (hk : ∀ s', P s' → Yields e (k a) s' b Q) : Yields e (x >>= k) s b Q := by
  obtain ⟨s₁, hx, hm⟩ := h
  obtain ⟨s₂, hk, hp⟩ := hk s₁ hm
  refine ⟨s₂, ?_, hp⟩
  show (x.bind k).run e s = _
  rw [run_bind, hx]
  exact hk

/-- A run that is known, and what comes behind it. -/
theorem Yields.after {s₁ : Session σ} {x : Flow α} {k : α → Flow β} (hx : x.run e s = (.ok a, s₁))
    (hk : Yields e (k a) s₁ b Q) : Yields e (x >>= k) s b Q := by
  refine Yields.bind ⟨s₁, hx, rfl⟩ fun s' hs' => ?_
  subst hs'
  exact hk

theorem Yields.imp {x : Flow α} (h : Yields e x s a P) (hq : ∀ s', P s' → Q s') :
    Yields e x s a Q := by
  obtain ⟨s', hx, hp⟩ := h
  exact ⟨s', hx, hq s' hp⟩

/-- A single operation. -/
theorem Yields.op {o : Op} {r : o.Reply} (h : (s.perform e o).1 = .ok r)
    (hp : Q (s.perform e o).2) : Yields e (op o) s r Q := by
  refine ⟨(s.perform e o).2, ?_, hp⟩
  have hs : s.perform e o = (.ok r, (s.perform e o).2) := Prod.ext h rfl
  rw [Flow.op, run, hs]
  rfl

theorem Yields.ofExcept_bind {x : Except Fault α} {k : α → Flow β} (hx : x = .ok a)
    (h : Yields e (k a) s b Q) : Yields e (ofExcept x >>= k) s b Q := by
  rw [hx]
  exact h

/-- The run of a flow from a session ends with a fault, in a session that has a property. -/
def Fails (e : Engine σ) (x : Flow α) (s : Session σ) (f : Fault) (Q : Session σ → Prop) : Prop :=
  ∃ s', x.run e s = (.error f, s') ∧ Q s'

variable {f : Fault}

theorem Fails.fail (h : Q s) : Fails e (.fail f : Flow α) s f Q := ⟨s, rfl, h⟩

/-- A single operation that fails. -/
theorem Fails.op {o : Op} (h : (s.perform e o).1 = .error f) (hp : Q (s.perform e o).2) :
    Fails e (op o) s f Q := by
  refine ⟨(s.perform e o).2, ?_, hp⟩
  have hs : s.perform e o = (.error f, (s.perform e o).2) := Prod.ext h rfl
  rw [Flow.op, run, hs]

/-- A run that has failed does not go on. -/
theorem Fails.bind {x : Flow α} (h : Fails e x s f Q) (k : α → Flow β) :
    Fails e (x >>= k) s f Q := by
  obtain ⟨s', hx, hq⟩ := h
  refine ⟨s', ?_, hq⟩
  show (x.bind k).run e s = _
  rw [run_bind, hx]

theorem Yields.fails {x : Flow α} {k : α → Flow β} (h : Yields e x s a P)
    (hk : ∀ s', P s' → Fails e (k a) s' f Q) : Fails e (x >>= k) s f Q := by
  obtain ⟨s₁, hx, hp⟩ := h
  obtain ⟨s₂, hk, hq⟩ := hk s₁ hp
  refine ⟨s₂, ?_, hq⟩
  show (x.bind k).run e s = _
  rw [run_bind, hx]
  exact hk

theorem Fails.ofExcept_bind {x : Except Fault α} {k : α → Flow β} (hx : x = .ok a)
    (h : Fails e (k a) s f Q) : Fails e (ofExcept x >>= k) s f Q := by
  rw [hx]
  exact h

/-- If the run of a flow from a session ends with a value, the value and the session then have a
property. -/
def Ensures (e : Engine σ) (x : Flow α) (s : Session σ) (R : α → Session σ → Prop) : Prop :=
  ∀ a s', x.run e s = (.ok a, s') → R a s'

variable {R : α → Session σ → Prop} {T : β → Session σ → Prop}

theorem Ensures.pure (h : R a s) : Ensures e (pure a) s R := by
  intro b s' hrun
  cases hrun
  exact h

theorem Ensures.fail {f : Fault} : Ensures e (.fail f) s R := by
  intro a s' hrun
  cases hrun

theorem Ensures.imp {x : Flow α} {R' : α → Session σ → Prop} (h : Ensures e x s R)
    (hR : ∀ a s', R a s' → R' a s') : Ensures e x s R' :=
  fun a s' hrun => hR a s' (h a s' hrun)

theorem Ensures.and {x : Flow α} {R' : α → Session σ → Prop} (h : Ensures e x s R)
    (h' : Ensures e x s R') : Ensures e x s fun a s' => R a s' ∧ R' a s' :=
  fun a s' hrun => ⟨h a s' hrun, h' a s' hrun⟩

theorem Ensures.bind {x : Flow α} {k : α → Flow β} (h : Ensures e x s R)
    (hk : ∀ a s', R a s' → Ensures e (k a) s' T) : Ensures e (x >>= k) s T := by
  intro b s₂ hrun
  have hrun : (x.bind k).run e s = (.ok b, s₂) := hrun
  rw [run_bind] at hrun
  rcases hx : x.run e s with ⟨r, s₁⟩
  rw [hx] at hrun
  cases r with
  | ok a => exact hk a s₁ (h a s₁ hx) b s₂ hrun
  | error f => cases hrun

/-- A single operation. -/
theorem Ensures.op {o : Op} {R : o.Reply → Session σ → Prop}
    (h : ∀ r s', s.perform e o = (.ok r, s') → R r s') : Ensures e (op o) s R := by
  intro r s' hrun
  rw [Flow.op, run] at hrun
  rcases hp : s.perform e o with ⟨q, s₁⟩
  rw [hp] at hrun
  cases q with
  | ok q => cases hrun; exact h _ _ hp
  | error f => cases hrun

theorem Ensures.ofExcept_bind {x : Except Fault α} {k : α → Flow β}
    (h : ∀ a, x = .ok a → Ensures e (k a) s T) : Ensures e (ofExcept x >>= k) s T := by
  cases x with
  | ok a => exact h a rfl
  | error f => exact Ensures.fail

end PhaseSampling.Flow
