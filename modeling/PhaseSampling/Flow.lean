import PhaseSampling.Engine.Basic
import PhaseSampling.Output

/-!
# Programs over an engine

A driver is a `Flow`: a tree of operations, each of which goes on with the reply to it. A flow
says nothing of where its replies come from; `Flow.run` takes them from an engine, an output and a
file tree. So a law over all flows holds of every driver.
-/

namespace PhaseSampling

/-- An operation of a driver. -/
inductive Op where
  | call (c : Call)
  /-- Append text to the output. -/
  | append (text : String)
  /-- Link a long name to a short one. -/
  | link (outdir short long : String)
  | say (level : Level) (text : String)
  deriving DecidableEq, Repr

/-- The reply that an operation asks for. -/
abbrev Op.Reply : Op → Type
  | .call c => c.Answer
  | .append _ => Unit
  | .link .. => String
  | .say .. => Unit

/-- A driver that ends with a value or a fault. -/
inductive Flow (α : Type) where
  | done (a : α)
  | fail (f : Fault)
  | step (o : Op) (next : o.Reply → Flow α)

namespace Flow

/-- One flow after another. -/
def bind {α β : Type} (x : Flow α) (k : α → Flow β) : Flow β :=
  match x with
  | .done a => k a
  | .fail f => .fail f
  | .step o next => .step o fun r => (next r).bind k

instance : Monad Flow where
  pure := .done
  bind := bind

theorem bind_done {α : Type} (x : Flow α) : x.bind .done = x := by
  induction x with
  | done => rfl
  | fail => rfl
  | step o next ih => exact congrArg (Flow.step o) (funext ih)

theorem bind_assoc {α β γ : Type} (x : Flow α) (f : α → Flow β) (g : β → Flow γ) :
    (x.bind f).bind g = x.bind fun a => (f a).bind g := by
  induction x with
  | done => rfl
  | fail => rfl
  | step o next ih => exact congrArg (Flow.step o) (funext ih)

instance : LawfulMonad Flow := LawfulMonad.mk' Flow bind_done (fun _ _ => rfl) bind_assoc

/-- A single operation. -/
def op (o : Op) : Flow o.Reply := .step o .done

def call (c : Call) : Flow c.Answer := op (.call c)

def append (text : String) : Flow Unit := op (.append text)

def link (outdir short long : String) : Flow String := op (.link outdir short long)

def say (level : Level) (text : String) : Flow Unit := op (.say level text)

/-- A value or a fault that needs no operation. -/
def ofExcept {α : Type} : Except Fault α → Flow α
  | .ok a => .done a
  | .error f => .fail f

end Flow

/-- Where a flow stands: the engine, the world, the output, and what was asked so far. -/
structure Session (σ : Type) where
  engine : σ
  world : World
  output : Output
  trace : Array Exchange

namespace Session

variable {σ : Type}

/-- Asks the engine and writes down its answer. -/
def ask (s : Session σ) (e : Engine σ) (c : Call) : Except Fault c.Answer × Session σ :=
  let (r, engine, world) := e.answer c s.engine s.world
  (r, { s with engine, world, trace := s.trace.push ⟨c, r.toOption⟩ })

/-- Performs an operation. -/
def perform (s : Session σ) (e : Engine σ) : (o : Op) → Except Fault o.Reply × Session σ
  | .call c => s.ask e c
  | .append text =>
    let (r, output) := s.output.writeText text
    (r, { s with output })
  | .link outdir short long =>
    let (r, world) := s.world.link outdir short long
    (r, { s with world })
  | .say level text => (.ok (), { s with world := s.world.say level text })

theorem perform_append (s : Session σ) (e : Engine σ) (text : String) :
    s.perform e (.append text) =
      ((s.output.writeText text).1, { s with output := (s.output.writeText text).2 }) := rfl

theorem perform_link (s : Session σ) (e : Engine σ) (outdir short long : String) :
    s.perform e (.link outdir short long) =
      ((s.world.link outdir short long).1,
        { s with world := (s.world.link outdir short long).2 }) := by
  simp only [perform]

end Session

/-- Runs a flow to its end or to the first operation that fails. -/
def Flow.run {σ α : Type} (e : Engine σ) : Flow α → Session σ → Except Fault α × Session σ
  | .done a, s => (.ok a, s)
  | .fail f, s => (.error f, s)
  | .step o next, s =>
    match s.perform e o with
    | (.ok r, s) => (next r).run e s
    | (.error f, s) => (.error f, s)

/-- A run of one flow after another is one run after another. -/
theorem Flow.run_bind {σ α β : Type} (e : Engine σ) (x : Flow α) (k : α → Flow β)
    (s : Session σ) :
    (x.bind k).run e s =
      match x.run e s with
      | (.ok a, s) => (k a).run e s
      | (.error f, s) => (.error f, s) := by
  induction x generalizing s with
  | done a => rfl
  | fail f => rfl
  | step o next ih =>
    simp only [bind, run]
    rcases s.perform e o with ⟨r, s'⟩
    cases r with
    | ok r => exact ih r s'
    | error f => rfl

end PhaseSampling
