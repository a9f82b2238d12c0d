import PhaseSampling.Proofs.Output
import PhaseSampling.Proofs.Flow.Yields

/-!
# Pairs of runs

Two runs over one kind of engine are followed side by side. They differ in what the engines dump, and
so in what they write and say, but not in anything that an onlooker sees who does not read the texts
of the dumps.

* `Exchange.veiled`: an exchange without the text of a dump.
* `Session.Twins`: two sessions that have come to the same point.
* `Engine.Blind`: related engine states answer what a sampler asks alike, and keep related.
* `Flow.InStep`: **two flows in step** end alike in any two such sessions. It is shown operation by
  operation, along `>>=`.
-/

namespace PhaseSampling

open Text

/-- An exchange without the text of a dump. -/
def Exchange.veiled : Exchange → Exchange
  | ⟨.dump, r⟩ => ⟨.dump, r.map fun _ => ""⟩
  | x => x

/-- Two results that are alike: related values, or the same fault. -/
inductive Alike {α β : Type} (R : α → β → Prop) : Except Fault α → Except Fault β → Prop where
  | ok {a : α} {b : β} (h : R a b) : Alike R (.ok a) (.ok b)
  | error (f : Fault) : Alike R (.error f) (.error f)

theorem alike_refl {α : Type} (x : Except Fault α) : Alike Eq x x := by
  cases x with
  | ok a => exact .ok rfl
  | error f => exact .error f

variable {σ α β γ δ : Type} {e : Engine σ} {E : σ → σ → Prop} {D : String → String → Prop}

/-- Two sessions with related engines, outputs without a bound, and the same log but for the texts of
dumps. -/
structure Session.Twins (E : σ → σ → Prop) (s t : Session σ) : Prop where
  engine : E s.engine t.engine
  unbounded : s.output.capacity = none ∧ t.output.capacity = none
  trace : s.trace.toList.map Exchange.veiled = t.trace.toList.map Exchange.veiled

/-- What a sampler asks, dumps aside. -/
inductive Call.Steering : Call → Prop where
  | count (counter : Counter) : Steering (.count counter)
  | advance (counter : Counter) (target : Nat) : Steering (.advance counter target)
  | reset : Steering .reset

/-- Engines in related states give the same answers to what a sampler asks, and related dumps. -/
structure Engine.Blind (e : Engine σ) (E : σ → σ → Prop) (D : String → String → Prop) : Prop where
  steering : ∀ c, Call.Steering c → ∀ a b w w', E a b →
    (e.answer c a w).1 = (e.answer c b w').1 ∧ E (e.answer c a w).2.1 (e.answer c b w').2.1
  dump : ∀ a b w w', E a b → Alike D (e.answer .dump a w).1 (e.answer .dump b w').1 ∧
    E (e.answer .dump a w).2.1 (e.answer .dump b w').2.1

namespace Flow

/-- Two flows in step: from any two sessions that are twins they end alike, in twins. -/
def InStep (e : Engine σ) (E : σ → σ → Prop) (x : Flow α) (y : Flow β) (R : α → β → Prop) : Prop :=
  ∀ s t, s.Twins E t →
    Alike R (x.run e s).1 (y.run e t).1 ∧ (x.run e s).2.Twins E (y.run e t).2

variable {R : α → β → Prop} {T : γ → δ → Prop}

theorem InStep.pure {a : α} {b : β} (h : R a b) : InStep e E (pure a) (pure b) R :=
  fun _ _ hst => ⟨.ok h, hst⟩

theorem InStep.fail (f : Fault) : InStep e E (.fail f : Flow α) (.fail f : Flow β) R :=
  fun _ _ hst => ⟨.error f, hst⟩

theorem InStep.bind {x : Flow α} {y : Flow β} {k : α → Flow γ} {k' : β → Flow δ}
    (h : InStep e E x y R) (hk : ∀ a b, R a b → InStep e E (k a) (k' b) T) :
    InStep e E (x >>= k) (y >>= k') T := by
  intro s t hst
  obtain ⟨halike, htwins⟩ := h s t hst
  show Alike T ((x.bind k).run e s).1 ((y.bind k').run e t).1 ∧
    ((x.bind k).run e s).2.Twins E ((y.bind k').run e t).2
  rw [run_bind, run_bind]
  generalize x.run e s = rx at halike htwins
  generalize y.run e t = ry at halike htwins
  obtain ⟨rx, s₁⟩ := rx
  obtain ⟨ry, t₁⟩ := ry
  cases halike with
  | ok hab => exact hk _ _ hab s₁ t₁ htwins
  | error f => exact ⟨.error f, htwins⟩

theorem InStep.ofExcept {x : Except Fault α} {y : Except Fault β} (h : Alike R x y) :
    InStep e E (ofExcept x) (ofExcept y) R := by
  cases h with
  | ok hab => exact .pure hab
  | error f => exact .fail f

/-- The run of a single operation. -/
theorem run_op (e : Engine σ) (o : Op) (s : Session σ) : (op o).run e s = s.perform e o := by
  rw [Flow.op, run]
  rcases s.perform e o with ⟨r, s'⟩
  cases r <;> rfl

/-- A call with the same answer. -/
theorem inStep_call (h : e.Blind E D) {c : Call} (hc : c.Steering) :
    InStep e E (call c) (call c) Eq := by
  intro s t hst
  obtain ⟨hanswer, hengine⟩ := h.steering c hc _ _ s.world t.world hst.engine
  rw [call, run_op, run_op]
  show Alike Eq (e.answer c s.engine s.world).1 (e.answer c t.engine t.world).1 ∧ _
  rw [hanswer]
  refine ⟨alike_refl _, hengine, hst.unbounded, ?_⟩
  show (s.trace.push ⟨c, (e.answer c s.engine s.world).1.toOption⟩).toList.map Exchange.veiled =
    (t.trace.push ⟨c, (e.answer c t.engine t.world).1.toOption⟩).toList.map Exchange.veiled
  rw [hanswer, Array.toList_push, Array.toList_push, List.map_append, List.map_append, hst.trace]

theorem Alike.map_toOption {x y : Except Fault String} (h : Alike D x y) :
    x.toOption.map (fun _ => "") = y.toOption.map fun _ => "" := by
  cases h <;> rfl

/-- A dump, whose texts are related. -/
theorem inStep_dump (h : e.Blind E D) : InStep e E (call .dump) (call .dump) D := by
  intro s t hst
  obtain ⟨halike, hengine⟩ := h.dump _ _ s.world t.world hst.engine
  rw [call, run_op, run_op]
  refine ⟨halike, hengine, hst.unbounded, ?_⟩
  show (s.trace.push ⟨.dump, (e.answer .dump s.engine s.world).1.toOption⟩).toList.map _ =
    (t.trace.push ⟨.dump, (e.answer .dump t.engine t.world).1.toOption⟩).toList.map _
  rw [Array.toList_push, Array.toList_push, List.map_append, List.map_append, hst.trace]
  simp only [List.map_cons, List.map_nil, Exchange.veiled, Alike.map_toOption halike]

/-- Texts need not be the same to be written. -/
theorem inStep_append (text text' : String) :
    InStep e E (append text) (append text') Eq := by
  intro s t hst
  obtain ⟨o, hwrite, ho, -⟩ := Output.writeText_of_unbounded hst.unbounded.1 text
  obtain ⟨o', hwrite', ho', -⟩ := Output.writeText_of_unbounded hst.unbounded.2 text'
  rw [append, append, run_op, run_op, Session.perform_append, Session.perform_append, hwrite,
    hwrite']
  exact ⟨.ok rfl, hst.engine, ⟨ho, ho'⟩, hst.trace⟩

/-- Nor to be said. -/
theorem inStep_say (level : Level) (text text' : String) :
    InStep e E (say level text) (say level text') Eq :=
  fun _ _ hst => ⟨.ok rfl, hst.engine, hst.unbounded, hst.trace⟩

end Flow

end PhaseSampling
