import PhaseSampling.Flow

/-!
# Courses of a flow

A course is one way through a flow: its operations in turn, each with the reply to it, up to a value
or a fault. A law over all courses of a driver holds of its runs over every engine.

* `Flow.Course`: the courses of a flow.
* `Session.Does`: what a session does over an engine, deed by deed. A run does the deeds of a course
  (`Flow.exists_does`), and a session that does them has run along it (`Flow.run_of_does`).
* `Flow.exists_course`: a run over an engine goes along a course. Its trace grows by the exchanges of
  the course, which the engine gave one after the other.
* `Flow.course_bind`: the courses of one flow after another.
-/

namespace PhaseSampling

/-- An operation with the reply to it or the fault it failed with. -/
structure Deed where
  op : Op
  outcome : Except Fault op.Reply

/-- The exchange of a call. Other operations have none. -/
def Deed.exchange? : Deed → Option Exchange
  | ⟨.call c, r⟩ => some ⟨c, r.toOption⟩
  | _ => none

/-- The calls among some deeds, with their answers. -/
def exchanges (l : List Deed) : List Exchange := l.filterMap Deed.exchange?

theorem exchanges_nil : exchanges [] = [] := rfl

theorem exchanges_call (c : Call) (r : Except Fault c.Answer) (l : List Deed) :
    exchanges (⟨.call c, r⟩ :: l) = ⟨c, r.toOption⟩ :: exchanges l := rfl

theorem exchanges_append_op (text : String) (r : Except Fault Unit) (l : List Deed) :
    exchanges (⟨.append text, r⟩ :: l) = exchanges l := rfl

theorem exchanges_link (dir short long : String) (r : Except Fault String) (l : List Deed) :
    exchanges (⟨.link dir short long, r⟩ :: l) = exchanges l := rfl

theorem exchanges_say (level : Level) (text : String) (r : Except Fault Unit) (l : List Deed) :
    exchanges (⟨.say level text, r⟩ :: l) = exchanges l := rfl

theorem exchanges_append (l l' : List Deed) : exchanges (l ++ l') = exchanges l ++ exchanges l' :=
  List.filterMap_append

attribute [simp] exchanges_nil exchanges_call exchanges_append_op exchanges_link exchanges_say
  exchanges_append

/-- Whether an operation can fail. Log lines cannot. -/
def Op.fallible : Op → Bool
  | .say .. => false
  | _ => true

/-- How a course ends: with a value, or with a fault, which is the flow's own or that of an
operation. -/
inductive Ending (α : Type) where
  | value (a : α)
  | fault (own : Bool) (f : Fault)

def Ending.result {α : Type} : Ending α → Except Fault α
  | .value a => .ok a
  | .fault _ f => .error f

/-- The ways through a flow. -/
inductive Flow.Course {α : Type} : Flow α → List Deed → Ending α → Prop where
  | done (a : α) : Course (.done a) [] (.value a)
  | fail (f : Fault) : Course (.fail f) [] (.fault true f)
  | step {o : Op} {next : o.Reply → Flow α} {l : List Deed} {r : Ending α} (a : o.Reply)
      (h : Course (next a) l r) : Course (.step o next) (⟨o, .ok a⟩ :: l) r
  | broken {o : Op} {next : o.Reply → Flow α} (f : Fault) (h : o.fallible = true) :
      Course (.step o next) [⟨o, .error f⟩] (.fault false f)

/-- An engine gives exchanges one after the other, from one state to another. Between two of them
the world may change. -/
inductive Engine.Gives {σ : Type} (e : Engine σ) : σ → List Exchange → σ → Prop where
  | nil (a : σ) : Gives e a [] a
  | cons {a b : σ} {l : List Exchange} (c : Call) (w : World)
      (h : Gives e (e.answer c a w).2.1 l b) :
      Gives e a (⟨c, (e.answer c a w).1.toOption⟩ :: l) b

theorem Engine.Gives.of_append {σ : Type} {e : Engine σ} {a b : σ} {l l' : List Exchange}
    (h : e.Gives a (l ++ l') b) : ∃ m, e.Gives a l m ∧ e.Gives m l' b := by
  induction l generalizing a with
  | nil => exact ⟨a, .nil a, h⟩
  | cons x l ih =>
    cases h with
    | cons c w h =>
      obtain ⟨m, h₁, h₂⟩ := ih h
      exact ⟨m, .cons c w h₁, h₂⟩

/-- The first of some exchanges. -/
theorem Engine.Gives.of_cons {σ : Type} {e : Engine σ} {a b : σ} {c : Call} {r : Option c.Answer}
    {l : List Exchange} (h : e.Gives a (⟨c, r⟩ :: l) b) :
    ∃ w, r = (e.answer c a w).1.toOption ∧ e.Gives (e.answer c a w).2.1 l b := by
  cases h with
  | cons c w h => exact ⟨w, rfl, h⟩

/-- A deed of a run over an engine. -/
def Deed.Of {σ : Type} (e : Engine σ) (d : Deed) : Prop :=
  ∃ s : Session σ, d.outcome = (s.perform e d.op).1

/-- An operation fails with a fault of the engine or of the system. -/
theorem Deed.Of.fault {σ : Type} {e : Engine σ} {o : Op} {f : Fault}
    (h : Deed.Of e ⟨o, .error f⟩) :
    (∃ c a w, (e.answer c a w).1 = .error f) ∨ ∃ cause, f = .system cause := by
  obtain ⟨s, hs⟩ := h
  cases o with
  | call c => exact .inl ⟨c, s.engine, s.world, hs.symm⟩
  | append text =>
    rw [Session.perform_append] at hs
    simp only [Output.writeText, Output.write] at hs
    split at hs
    · cases hs
    · cases hs; exact .inr ⟨_, rfl⟩
  | link outdir short long =>
    rw [Session.perform_link] at hs
    rcases hr : s.world.files.relink short (joinPath outdir long) with ⟨⟨⟩ | cause, t⟩
    · rename_i cause
      rw [World.link_of_relink_error hr] at hs
      cases hs
      exact .inr ⟨cause, rfl⟩
    · rw [World.link_of_relink hr] at hs
      cases hs
  | say level text => cases hs

/-- A session at its beginning, with an empty file tree. -/
def Session.fresh {σ : Type} (a : σ) : Session σ := ⟨a, ⟨.bare [], #[]⟩, .unbounded, #[]⟩

namespace Session

variable {σ : Type} {e : Engine σ} {s s' : Session σ} {l : List Deed}

/-- A session does deeds over an engine, one after the other, and becomes another one. -/
inductive Does (e : Engine σ) : Session σ → List Deed → Session σ → Prop where
  | nil (s : Session σ) : Does e s [] s
  | cons {s s₁ s₂ : Session σ} {o : Op} {r : Except Fault o.Reply} {l : List Deed}
      (h : s.perform e o = (r, s₁)) (t : Does e s₁ l s₂) : Does e s (⟨o, r⟩ :: l) s₂

theorem Does.deed_of (h : Does e s l s') : ∀ d ∈ l, d.Of e := by
  induction h with
  | nil s => simp
  | @cons s s₁ s₂ o r l h t ih =>
    intro d hd
    rcases List.mem_cons.1 hd with rfl | hd
    · exact ⟨s, by rw [h]⟩
    · exact ih d hd

/-- Only a call writes to the trace. -/
theorem perform_trace (s : Session σ) (e : Engine σ) (o : Op) :
    (s.perform e o).2.trace.toList =
      s.trace.toList ++ exchanges [⟨o, (s.perform e o).1⟩] := by
  cases o with
  | call c => simp [perform, ask]
  | append text => simp [perform]
  | link outdir short long => simp [perform]
  | say level text => simp [perform]

theorem Does.trace (h : Does e s l s') :
    s'.trace.toList = s.trace.toList ++ exchanges l := by
  induction h with
  | nil s => simp
  | @cons s s₁ s₂ o r l h t ih =>
    have hp := s.perform_trace e o
    rw [h] at hp
    rw [ih, hp, List.append_assoc, ← exchanges_append, List.singleton_append]

/-- Only a call moves the engine. -/
theorem Does.gives (h : Does e s l s') : e.Gives s.engine (exchanges l) s'.engine := by
  induction h with
  | nil s => exact .nil _
  | @cons s s₁ s₂ o r l h t ih =>
    cases o with
    | call c =>
      simp only [perform, ask, Prod.mk.injEq] at h
      obtain ⟨rfl, rfl⟩ := h
      exact .cons c s.world ih
    | append text =>
      simp only [perform, Prod.mk.injEq] at h
      obtain ⟨rfl, rfl⟩ := h
      exact ih
    | link outdir short long =>
      simp only [perform, Prod.mk.injEq] at h
      obtain ⟨rfl, rfl⟩ := h
      exact ih
    | say level text =>
      simp only [perform, Prod.mk.injEq] at h
      obtain ⟨rfl, rfl⟩ := h
      exact ih

end Session

namespace Flow

variable {α β σ : Type} {o : Op} {l : List Deed}

/-- **A run over an engine does the deeds of a course.** -/
theorem exists_does (e : Engine σ) (x : Flow α) (s : Session σ) :
    ∃ l r s', x.Course l r ∧ s.Does e l s' ∧ x.run e s = (r.result, s') := by
  induction x generalizing s with
  | done a => exact ⟨[], _, s, .done a, .nil s, rfl⟩
  | fail f => exact ⟨[], _, s, .fail f, .nil s, rfl⟩
  | step o next ih =>
    -- the first deed is `⟨o, r⟩`, and the flow goes on from `s₁`
    rcases hp : s.perform e o with ⟨r, s₁⟩
    cases r with
    | ok a =>
      obtain ⟨l, r, s₂, hc, hd, hr⟩ := ih a s₁
      exact ⟨_, r, s₂, .step a hc, .cons hp hd, by rw [run, hp]; exact hr⟩
    | error f =>
      -- the operation failed, so it is one that can
      have hf : o.fallible = true := by
        cases o with
        | say level text => simp [Session.perform] at hp
        | _ => rfl
      exact ⟨_, _, s₁, .broken f hf, .cons hp (.nil s₁), by rw [run, hp]; rfl⟩

/-- **A session that does the deeds of a course** has run along it. -/
theorem run_of_does {e : Engine σ} {x : Flow α} {s s' : Session σ} {r : Ending α}
    (hc : x.Course l r) (hd : s.Does e l s') : x.run e s = (r.result, s') := by
  induction hc generalizing s with
  | done a => cases hd; rfl
  | fail f => cases hd; rfl
  | step a h ih =>
    cases hd with
    | cons hp hd =>
      rw [run, hp]
      exact ih hd
  | broken f hf =>
    cases hd with
    | cons hp hd =>
      cases hd
      rw [run, hp]
      rfl

/-- **A run over an engine goes along a course.** -/
theorem exists_course (e : Engine σ) (x : Flow α) (s : Session σ) :
    ∃ l r, x.Course l r ∧ (x.run e s).1 = r.result ∧ (∀ d ∈ l, d.Of e) ∧
      (x.run e s).2.trace.toList = s.trace.toList ++ exchanges l ∧
      e.Gives s.engine (exchanges l) (x.run e s).2.engine := by
  obtain ⟨l, r, s', hc, hd, hr⟩ := exists_does e x s
  rw [hr]
  exact ⟨l, r, hc, rfl, hd.deed_of, hd.trace, hd.gives⟩

/-- A run that ends with a value goes along a course to it. -/
theorem exists_course_of_ok {e : Engine σ} {x : Flow α} {s s' : Session σ} {a : α}
    (h : x.run e s = (.ok a, s')) :
    ∃ l, x.Course l (.value a) ∧ s'.trace.toList = s.trace.toList ++ exchanges l ∧
      e.Gives s.engine (exchanges l) s'.engine := by
  obtain ⟨l, r, hc, hr, -, ht, hg⟩ := exists_course e x s
  rw [h] at hr ht hg
  cases r with
  | value b => cases hr; exact ⟨l, hc, ht, hg⟩
  | fault own f => cases hr

theorem run_of_toOption {e : Engine σ} {x : Flow α} {s : Session σ} {a : α}
    (h : (x.run e s).1.toOption = some a) : x.run e s = (.ok a, (x.run e s).2) := by
  rcases hx : x.run e s with ⟨r, s'⟩
  rw [hx] at h
  cases r with
  | ok b => cases h; rfl
  | error f => cases h

/-- A fault that is not the flow's own is that of an operation. -/
theorem Course.broken_mem {x : Flow α} {r : Ending α} {f : Fault} (h : x.Course l r)
    (hr : r = .fault false f) : ∃ o, (⟨o, .error f⟩ : Deed) ∈ l := by
  induction h with
  | done a => cases hr
  | fail g => cases hr
  | step a h ih =>
    obtain ⟨o, ho⟩ := ih hr
    exact ⟨o, List.mem_cons_of_mem _ ho⟩
  | broken g hf =>
    cases hr
    exact ⟨_, List.mem_singleton.2 rfl⟩

theorem course_done {a : α} {r : Ending α} : (Flow.done a).Course l r ↔ l = [] ∧ r = .value a := by
  constructor
  · rintro ⟨⟩; exact ⟨rfl, rfl⟩
  · rintro ⟨rfl, rfl⟩; exact .done a

theorem course_fail {f : Fault} {r : Ending α} :
    (Flow.fail f).Course l r ↔ l = [] ∧ r = .fault true f := by
  constructor
  · rintro ⟨⟩; exact ⟨rfl, rfl⟩
  · rintro ⟨rfl, rfl⟩; exact .fail f

/-- A course through an operation: it fails, or its reply leads on. -/
theorem course_step {next : o.Reply → Flow α} {r : Ending α} :
    (Flow.step o next).Course l r ↔
      (o.fallible = true ∧ ∃ f, l = [⟨o, .error f⟩] ∧ r = .fault false f) ∨
      ∃ a l', l = ⟨o, .ok a⟩ :: l' ∧ (next a).Course l' r := by
  constructor
  · intro h
    cases h with
    | step a h => exact .inr ⟨a, _, rfl, h⟩
    | broken f hf => exact .inl ⟨hf, f, rfl, rfl⟩
  · rintro (⟨hf, f, rfl, rfl⟩ | ⟨a, l', rfl, h⟩)
    · exact .broken f hf
    · exact .step a h

/-- **A course of one flow after another** ends in the first, or goes on from its value. -/
theorem course_bind {x : Flow α} {k : α → Flow β} {r : Ending β} :
    (x >>= k).Course l r ↔
      (∃ own f, x.Course l (.fault own f) ∧ r = .fault own f) ∨
      ∃ a l₁ l₂, l = l₁ ++ l₂ ∧ x.Course l₁ (.value a) ∧ (k a).Course l₂ r := by
  show (x.bind k).Course l r ↔ _
  -- by the recursion of `bind`: the second flow hangs on the leaves of the first
  induction x generalizing l with
  | done a =>
    simp only [bind, course_done]
    constructor
    · intro h
      exact .inr ⟨a, [], l, rfl, ⟨rfl, rfl⟩, h⟩
    · rintro (⟨own, f, ⟨-, h⟩, -⟩ | ⟨b, l₁, l₂, rfl, ⟨rfl, h⟩, hk⟩)
      · cases h
      · cases h; exact hk
  | fail f =>
    simp only [bind, course_fail]
    constructor
    · rintro ⟨rfl, rfl⟩
      exact .inl ⟨true, f, ⟨rfl, rfl⟩, rfl⟩
    · rintro (⟨own, g, ⟨rfl, h⟩, rfl⟩ | ⟨a, l₁, l₂, rfl, ⟨-, h⟩, -⟩)
      · cases h; exact ⟨rfl, rfl⟩
      · cases h
  | step o next ih =>
    simp only [bind, course_step, ih]
    constructor
    · rintro (⟨hf, f, rfl, rfl⟩ | ⟨a, l', rfl, ⟨own, f, h, rfl⟩ | ⟨b, l₁, l₂, rfl, h, hk⟩⟩)
      · exact .inl ⟨_, _, .inl ⟨hf, f, rfl, rfl⟩, rfl⟩
      · exact .inl ⟨_, _, .inr ⟨a, l', rfl, h⟩, rfl⟩
      · exact .inr ⟨b, _ :: l₁, l₂, rfl, .inr ⟨a, l₁, rfl, h⟩, hk⟩
    · rintro (⟨own, f, ⟨hf, g, rfl, h⟩ | ⟨a, l', rfl, h⟩, rfl⟩ |
        ⟨b, l₁, l₂, rfl, ⟨-, f, -, h⟩ | ⟨a, l', rfl, h⟩, hk⟩)
      · cases h; exact .inl ⟨hf, _, rfl, rfl⟩
      · exact .inr ⟨a, l', rfl, .inl ⟨own, f, h, rfl⟩⟩
      · cases h
      · exact .inr ⟨a, l' ++ l₂, rfl, .inr ⟨b, l', l₂, rfl, h, hk⟩⟩

/-- Another flow in place of the second one, with the same courses behind the first. -/
theorem Course.bind_right {x : Flow α} {k k' : α → Flow β} {r : Ending β}
    (h : (x >>= k).Course l r)
    (hk : ∀ a l₁ l₂, l = l₁ ++ l₂ → x.Course l₁ (.value a) → (k a).Course l₂ r →
      (k' a).Course l₂ r) : (x >>= k').Course l r := by
  rw [course_bind] at h ⊢
  obtain ⟨own, f, hx, rfl⟩ | ⟨a, l₁, l₂, hl, hx, h⟩ := h
  · exact .inl ⟨own, f, hx, rfl⟩
  · exact .inr ⟨a, l₁, l₂, hl, hx, hk a l₁ l₂ hl hx h⟩

/-- Another flow in place of the first one, with the same courses. -/
theorem Course.bind_left {x x' : Flow α} {k : α → Flow β} {r : Ending β}
    (h : (x >>= k).Course l r)
    (hx : ∀ l₁ l₂ r', l = l₁ ++ l₂ → x.Course l₁ r' → x'.Course l₁ r') :
    (x' >>= k).Course l r := by
  rw [course_bind] at h ⊢
  obtain ⟨own, f, h, rfl⟩ | ⟨a, l₁, l₂, hl, h, hk⟩ := h
  · exact .inl ⟨own, f, hx l [] _ (List.append_nil l).symm h, rfl⟩
  · exact .inr ⟨a, l₁, l₂, hl, hx l₁ l₂ _ hl h, hk⟩

theorem course_pure {a : α} {r : Ending α} :
    (pure a : Flow α).Course l r ↔ l = [] ∧ r = .value a := course_done

theorem course_call_bind {c : Call} {k : c.Answer → Flow α} {r : Ending α} :
    (call c >>= k).Course l r ↔
      (∃ f, l = [⟨.call c, .error f⟩] ∧ r = .fault false f) ∨
      ∃ a l', l = ⟨.call c, .ok a⟩ :: l' ∧ (k a).Course l' r := by
  show (Flow.step (.call c) k).Course l r ↔ _
  rw [course_step]
  simp [Op.fallible]

theorem course_append_bind {text : String} {k : Unit → Flow α} {r : Ending α} :
    (append text >>= k).Course l r ↔
      (∃ f, l = [⟨.append text, .error f⟩] ∧ r = .fault false f) ∨
      ∃ l', l = ⟨.append text, .ok ()⟩ :: l' ∧ (k ()).Course l' r := by
  show (Flow.step (.append text) k).Course l r ↔ _
  rw [course_step]
  simp only [Op.fallible, true_and]
  exact or_congr_right ⟨fun ⟨(), h⟩ => h, fun h => ⟨(), h⟩⟩

theorem course_link_bind {dir short long : String} {k : String → Flow α} {r : Ending α} :
    (link dir short long >>= k).Course l r ↔
      (∃ f, l = [⟨.link dir short long, .error f⟩] ∧ r = .fault false f) ∨
      ∃ a l', l = ⟨.link dir short long, .ok a⟩ :: l' ∧ (k a).Course l' r := by
  show (Flow.step (.link dir short long) k).Course l r ↔ _
  rw [course_step]
  simp [Op.fallible]

theorem course_say_bind {level : Level} {text : String} {k : Unit → Flow α} {r : Ending α} :
    (say level text >>= k).Course l r ↔
      ∃ l', l = ⟨.say level text, .ok ()⟩ :: l' ∧ (k ()).Course l' r := by
  show (Flow.step (.say level text) k).Course l r ↔ _
  rw [course_step]
  simp only [Op.fallible, Bool.false_eq_true, false_and, false_or]
  exact ⟨fun ⟨(), h⟩ => h, fun h => ⟨(), h⟩⟩

/-- A course to a value goes on from a value. -/
theorem course_bind_value {x : Flow α} {k : α → Flow β} {b : β} :
    (x >>= k).Course l (.value b) ↔
      ∃ a l₁ l₂, l = l₁ ++ l₂ ∧ x.Course l₁ (.value a) ∧ (k a).Course l₂ (.value b) := by
  rw [course_bind]
  constructor
  · rintro (⟨own, f, -, hf⟩ | h)
    · cases hf
    · exact h
  · exact .inr

theorem course_call_bind_value {c : Call} {k : c.Answer → Flow α} {a : α} :
    (call c >>= k).Course l (.value a) ↔
      ∃ b l', l = ⟨.call c, .ok b⟩ :: l' ∧ (k b).Course l' (.value a) := by
  rw [course_call_bind]
  constructor
  · rintro (⟨f, -, hf⟩ | h)
    · cases hf
    · exact h
  · exact .inr

theorem course_ofExcept_bind {x : Except Fault α} {k : α → Flow β} {r : Ending β} :
    (ofExcept x >>= k).Course l r ↔
      (∃ f, x = .error f ∧ l = [] ∧ r = .fault true f) ∨ ∃ a, x = .ok a ∧ (k a).Course l r := by
  cases x with
  | ok a =>
    show (k a).Course l r ↔ _
    simp
  | error f =>
    show (Flow.fail f : Flow β).Course l r ↔ _
    simp [course_fail]

end Flow

end PhaseSampling
