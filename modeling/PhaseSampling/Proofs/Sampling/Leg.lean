import PhaseSampling.Proofs.Flow.Course
import PhaseSampling.Sampling

/-!
# Legs of a sampling run

A sampling run moves the program in legs: a number of instructions, one waypoint more if boundaries
are aligned, and then the counts that make the boundary.

* `SamplingConfig.Leg`, `SamplingConfig.Exit`: the exchanges of a leg that reached its boundary, and
  of one on which the program exited.
* `SamplingConfig.Advanced`: all the ways a leg can go, by `course_advance`.
-/

namespace PhaseSampling

open PhaseSampling.Flow

/-- Neither a dump nor a reset. -/
def Exchange.Quiet (x : Exchange) : Prop := x.call ≠ .dump ∧ x.call ≠ .reset

theorem quiet_append {l l' : List Exchange} (h : ∀ x ∈ l, x.Quiet) (h' : ∀ x ∈ l', x.Quiet) :
    ∀ x ∈ l ++ l', x.Quiet := by
  intro x hx
  rcases List.mem_append.1 hx with hx | hx
  · exact h x hx
  · exact h' x hx

def Fault.Bookkeeping (f : Fault) : Prop := ∃ warmups intervals dumps,
  f = .bookkeeping warmups intervals dumps

/-- The ways to run `n` more units of a counter. -/
inductive RanFor (counter : Counter) (n : Nat) : List Exchange → Ending Bool → Prop where
  | uncounted (f : Fault) : RanFor counter n [⟨.count counter, none⟩] (.fault false f)
  | overflow (k : Nat) (h : Text.wordLimit ≤ k + n) :
      RanFor counter n [⟨.count counter, some k⟩]
        (.fault true (.protocol (.targetOverflow counter k n)))
  | unanswered (k : Nat) (f : Fault) :
      RanFor counter n [⟨.count counter, some k⟩, ⟨.advance counter (k + n), none⟩]
        (.fault false f)
  | reached (k : Nat) :
      RanFor counter n [⟨.count counter, some k⟩, ⟨.advance counter (k + n), some .breakpoint⟩]
        (.value true)
  | exited (k : Nat) :
      RanFor counter n [⟨.count counter, some k⟩, ⟨.advance counter (k + n), some .completed⟩]
        (.value false)
  | stopped (k : Nat) (text : String) :
      RanFor counter n [⟨.count counter, some k⟩, ⟨.advance counter (k + n), some (.other text)⟩]
        (.fault true ((StopCause.other text).unexpected .breakpoint))

theorem course_runFor {counter : Counter} {n : Nat} {l : List Deed} {r : Ending Bool}
    (h : (runFor counter n).Course l r) : RanFor counter n (exchanges l) r := by
  rw [runFor, course_call_bind] at h
  obtain ⟨f, rfl, rfl⟩ | ⟨k, l, rfl, h⟩ := h
  · exact .uncounted f
  split at h
  case isTrue hk =>
    rw [course_call_bind] at h
    obtain ⟨f, rfl, rfl⟩ | ⟨cause, l, rfl, h⟩ := h
    · exact .unanswered k f
    cases cause with
    | breakpoint =>
      obtain ⟨rfl, rfl⟩ := course_pure.1 h
      exact .reached k
    | completed =>
      obtain ⟨rfl, rfl⟩ := course_pure.1 h
      exact .exited k
    | other text =>
      obtain ⟨rfl, rfl⟩ := course_fail.1 h
      exact .stopped k text
  case isFalse hk =>
    obtain ⟨rfl, rfl⟩ := course_fail.1 h
    exact .overflow k (Nat.not_lt.1 hk)

theorem RanFor.quiet {counter : Counter} {n : Nat} {l : List Exchange} {r : Ending Bool}
    (h : RanFor counter n l r) : ∀ x ∈ l, x.Quiet := by
  cases h <;> simp [Exchange.Quiet]

theorem RanFor.not_bookkeeping {counter : Counter} {n : Nat} {l : List Exchange} {f : Fault}
    (h : RanFor counter n l (.fault true f)) : ¬ f.Bookkeeping := by
  cases h <;> simp [Fault.Bookkeeping, StopCause.unexpected]

namespace SamplingConfig

variable {c : SamplingConfig} {n : Nat} {b : Boundary} {l : List Exchange}

/-- A leg of `n` instructions that reached a boundary: the calls made, with their answers. -/
inductive Leg (c : SamplingConfig) (n : Nat) : Boundary → List Exchange → Prop where
  | plain (h : c.waypoints = false) (k i : Nat) :
      Leg c n ⟨i, i⟩
        [⟨.count .inst, some k⟩, ⟨.advance .inst (k + n), some .breakpoint⟩, ⟨.count .inst, some i⟩]
  | aligned (h : c.waypoints = true) (k m i w : Nat) :
      Leg c n ⟨w, i⟩
        [⟨.count .inst, some k⟩, ⟨.advance .inst (k + n), some .breakpoint⟩,
          ⟨.count .waypoint, some m⟩, ⟨.advance .waypoint (m + 1), some .breakpoint⟩,
          ⟨.count .inst, some i⟩, ⟨.count .waypoint, some w⟩]

/-- A leg of `n` instructions on which the program exited. -/
inductive Exit (c : SamplingConfig) (n : Nat) : List Exchange → Prop where
  | running (k : Nat) :
      Exit c n [⟨.count .inst, some k⟩, ⟨.advance .inst (k + n), some .completed⟩]
  | aligning (h : c.waypoints = true) (k m : Nat) :
      Exit c n
        [⟨.count .inst, some k⟩, ⟨.advance .inst (k + n), some .breakpoint⟩,
          ⟨.count .waypoint, some m⟩, ⟨.advance .waypoint (m + 1), some .completed⟩]

/-- The count calls that read a boundary off. -/
def reading (c : SamplingConfig) (b : Boundary) : List Exchange :=
  ⟨.count .inst, some b.inst⟩ ::
    if c.waypoints then [⟨.count .waypoint, some b.waypoint⟩] else []

theorem Leg.quiet (h : c.Leg n b l) : ∀ x ∈ l, x.Quiet := by
  cases h <;> simp [Exchange.Quiet]

theorem Exit.quiet (h : c.Exit n l) : ∀ x ∈ l, x.Quiet := by
  cases h <;> simp [Exchange.Quiet]

/-- A leg ends with the count calls that its boundary was read off. -/
theorem Leg.reading_suffix (h : c.Leg n b l) : c.reading b <:+ l := by
  cases h with
  | plain h k i =>
    exact ⟨[⟨.count .inst, some k⟩, ⟨.advance .inst (k + n), some .breakpoint⟩],
      by simp [reading, h]⟩
  | aligned h k m i w =>
    exact ⟨[⟨.count .inst, some k⟩, ⟨.advance .inst (k + n), some .breakpoint⟩,
      ⟨.count .waypoint, some m⟩, ⟨.advance .waypoint (m + 1), some .breakpoint⟩],
      by simp [reading, h]⟩

/-- The ways a leg can go. -/
inductive Advanced (c : SamplingConfig) (n : Nat) : List Exchange → Ending Advance → Prop where
  | reached {b : Boundary} {l : List Exchange} (h : c.Leg n b l) :
      Advanced c n l (.value (.reached b))
  | exited {l : List Exchange} (h : c.Exit n l) : Advanced c n l (.value .exited)
  | failed {l : List Exchange} {own : Bool} {f : Fault} (hq : ∀ x ∈ l, x.Quiet)
      (hf : own = true → ¬ f.Bookkeeping) : Advanced c n l (.fault own f)

end SamplingConfig

/-- **Every course of a leg** goes one of these ways. -/
theorem course_advance {c : SamplingConfig} {n : Nat} {l : List Deed} {r : Ending Advance}
    (h : (c.advance n).Course l r) : c.Advanced n (exchanges l) r := by
  rw [SamplingConfig.advance, course_bind] at h
  obtain ⟨own, f, h₁, rfl⟩ | ⟨there, l₁, l₂, rfl, h₁, h⟩ := h
  · have hr := course_runFor h₁
    exact .failed hr.quiet fun ho => by subst ho; exact hr.not_bookkeeping
  have hr := course_runFor h₁
  rw [exchanges_append]
  generalize exchanges l₁ = l₁ at hr
  cases hr with
  | exited k =>
    -- on the way through the instructions
    obtain ⟨rfl, rfl⟩ := course_pure.1 h
    exact .exited (.running k)
  | reached k =>
    simp only [Bool.not_true, Bool.false_eq_true, if_false] at h
    split at h
    case isTrue hw =>
      rw [course_bind] at h
      obtain ⟨own, f, h₂, rfl⟩ | ⟨there, l₃, l₄, rfl, h₂, h⟩ := h
      · have hr := course_runFor h₂
        refine .failed ?_ fun ho => by subst ho; exact hr.not_bookkeeping
        simpa [Exchange.Quiet] using hr.quiet
      have hr := course_runFor h₂
      rw [exchanges_append]
      generalize exchanges l₃ = l₃ at hr
      cases hr with
      | exited m =>
        -- on the way to the next waypoint
        obtain ⟨rfl, rfl⟩ := course_pure.1 h
        exact .exited (.aligning hw k m)
      | reached m =>
        simp only [Bool.not_true, Bool.false_eq_true, if_false] at h
        rw [course_call_bind] at h
        obtain ⟨f, rfl, rfl⟩ | ⟨i, l, rfl, h⟩ := h
        · exact .failed (by simp [Exchange.Quiet]) nofun
        rw [course_call_bind] at h
        obtain ⟨f, rfl, rfl⟩ | ⟨w, l, rfl, h⟩ := h
        · exact .failed (by simp [Exchange.Quiet]) nofun
        obtain ⟨rfl, rfl⟩ := course_pure.1 h
        exact .reached (.aligned hw k m i w)
    case isFalse hw =>
      rw [course_call_bind] at h
      obtain ⟨f, rfl, rfl⟩ | ⟨i, l, rfl, h⟩ := h
      · exact .failed (by simp [Exchange.Quiet]) nofun
      obtain ⟨rfl, rfl⟩ := course_pure.1 h
      exact .reached (.plain (by simpa using hw) k i)

end PhaseSampling
