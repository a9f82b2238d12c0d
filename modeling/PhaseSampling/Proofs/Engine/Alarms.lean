import PhaseSampling.Proofs.Chunks.Rows
import PhaseSampling.Proofs.Engine.Scripted
import PhaseSampling.Proofs.Replay.Schedule

/-!
# Alarms

An engine that is told to run answers why the program stopped. Some of these answers a driver cannot
go on from, wherever in a run they come.

* `Exchange.alarm?`: the fault that such a stop calls for.
* `Flow.Heeds`: a flow that ends with this fault at once, along `>>=` and through every operation.
* `Driver.heeds`: all drivers do.
-/

namespace PhaseSampling

open PhaseSampling.Flow

/-! ## Alarms -/

/-- The fault that a stop calls for: one for an unknown cause, and one for anything but the exit of
the program when it was run to its end. -/
def Exchange.alarm? : Exchange → Option Fault
  | ⟨.advance _ _, some (.other text)⟩ => some (.unexpectedStop breakText text)
  | ⟨.complete, some .breakpoint⟩ => some (.unexpectedStop exitText breakText)
  | ⟨.complete, some (.other text)⟩ => some (.unexpectedStop exitText text)
  | _ => none

/-- After the first alarm there is nothing more, and its fault is the result. -/
def Alert {α : Type} (l : List Exchange) (r : Except Fault α) : Prop :=
  ∀ before x after f, l = before ++ x :: after → x.alarm? = some f → after = [] ∧ r = .error f

section Alert

variable {α β : Type} {l l' : List Exchange} {x : Exchange} {r : Except Fault α}

theorem alert_of_calm (h : ∀ x ∈ l, x.alarm? = none) : Alert l r := by
  intro before x after f hl hx
  rw [h x (by simp [hl])] at hx
  cases hx

theorem alert_cons (hx : ∀ f, x.alarm? = some f → l = [] ∧ r = .error f) (h : Alert l r) :
    Alert (x :: l) r := by
  intro before y after f hl hy
  cases before with
  | nil =>
    obtain ⟨rfl, rfl⟩ := List.cons.inj hl
    exact hx f hy
  | cons z before =>
    obtain ⟨rfl, rfl⟩ := List.cons.inj hl
    exact h before y after f rfl hy

theorem Alert.error {f : Fault} (h : Alert l (.error f : Except Fault α)) :
    Alert l (.error f : Except Fault β) := by
  intro before x after g hl hx
  obtain ⟨hafter, hg⟩ := h before x after g hl hx
  exact ⟨hafter, congrArg Except.error (Except.error.inj hg)⟩

/-- Where there is a value there was no alarm. -/
theorem Alert.calm {a : α} (h : Alert l (.ok a)) : ∀ x ∈ l, x.alarm? = none := by
  intro x hx
  obtain ⟨before, after, hl⟩ := List.append_of_mem hx
  cases hf : x.alarm? with
  | none => rfl
  | some f => cases (h before x after f hl hf).2

theorem Alert.append {b : β} (h : Alert l (.ok b)) (h' : Alert l' r) : Alert (l ++ l') r := by
  induction l with
  | nil => exact h'
  | cons x l ih =>
    have hcalm := h.calm
    refine alert_cons (fun f hf => ?_) (ih (alert_of_calm fun y hy => hcalm y (by simp [hy])))
    rw [hcalm x (by simp)] at hf
    cases hf

theorem alarm?_none (c : Call) : Exchange.alarm? ⟨c, none⟩ = none := by
  cases c <;> rfl

end Alert

/-- A flow that ends at the first alarm, with its fault. -/
def Flow.Heeds {α : Type} (x : Flow α) : Prop := ∀ l r, x.Course l r → Alert (exchanges l) r.result

namespace Flow

variable {α β : Type}

theorem heeds_pure (a : α) : Heeds (pure a) := by
  intro l r h
  obtain ⟨rfl, rfl⟩ := course_pure.1 h
  exact alert_of_calm (by simp)

theorem heeds_fail (f : Fault) : Heeds (.fail f : Flow α) := by
  intro l r h
  obtain ⟨rfl, rfl⟩ := course_fail.1 h
  exact alert_of_calm (by simp)

theorem heeds_ofExcept (x : Except Fault α) : Heeds (ofExcept x) := by
  cases x with
  | ok a => exact heeds_pure a
  | error f => exact heeds_fail f

theorem Heeds.bind {x : Flow α} {k : α → Flow β} (hx : x.Heeds) (hk : ∀ a, (k a).Heeds) :
    Heeds (x >>= k) := by
  intro l r h
  rw [course_bind] at h
  obtain ⟨own, f, h, rfl⟩ | ⟨a, l₁, l₂, rfl, h₁, h₂⟩ := h
  · exact (hx l _ h).error
  · have hfirst : Alert (exchanges l₁) (.ok a) := hx l₁ _ h₁
    rw [exchanges_append]
    exact hfirst.append (hk a l₂ r h₂)

/-- A call, if what comes after it ends at an alarm. -/
theorem heeds_call_bind {c : Call} {k : c.Answer → Flow α}
    (hstop : ∀ a f, Exchange.alarm? ⟨c, some a⟩ = some f → k a = .fail f)
    (hk : ∀ a, (k a).Heeds) : Heeds (call c >>= k) := by
  intro l r h
  rw [course_call_bind] at h
  obtain ⟨f, rfl, rfl⟩ | ⟨a, l, rfl, h⟩ := h
  · refine alert_of_calm fun x hx => ?_
    rw [List.mem_singleton.1 hx]
    exact alarm?_none c
  · refine alert_cons (fun f hf => ?_) (hk a l r h)
    rw [hstop a f hf] at h
    obtain ⟨rfl, rfl⟩ := course_fail.1 h
    exact ⟨rfl, rfl⟩

/-- A call that does not run the program. -/
theorem heeds_call {c : Call} (hc : ∀ a, Exchange.alarm? ⟨c, some a⟩ = none) : Heeds (call c) := by
  have h : Heeds (call c >>= pure) := by
    refine heeds_call_bind (fun a f hf => ?_) heeds_pure
    rw [hc a] at hf
    cases hf
  rwa [bind_pure] at h

/-- Another operation than a call. -/
theorem heeds_op {o : Op} (ho : ∀ c, o ≠ .call c) : Heeds (op o) := by
  have hsilent : ∀ r l, exchanges (⟨o, r⟩ :: l) = exchanges l := by
    intro r l
    cases o with
    | call c => exact absurd rfl (ho c)
    | append text => rfl
    | link outdir short long => rfl
    | say level text => rfl
  intro l r h
  refine alert_of_calm fun x hx => ?_
  have hstep : (Flow.step o .done).Course l r := h
  obtain ⟨-, f, rfl, -⟩ | ⟨a, l, rfl, hdone⟩ := course_step.1 hstep
  · rw [hsilent] at hx
    cases hx
  · obtain ⟨rfl, -⟩ := course_done.1 hdone
    rw [hsilent] at hx
    cases hx

theorem heeds_say (level : Level) (text : String) : Heeds (say level text) := heeds_op nofun

theorem heeds_link (outdir short long : String) : Heeds (link outdir short long) := heeds_op nofun

end Flow

/-! ## Drivers -/

theorem heeds_runFor (counter : Counter) (n : Nat) : Heeds (runFor counter n) := by
  unfold runFor
  refine (heeds_call fun _ => rfl).bind fun count => ?_
  split
  · refine heeds_call_bind (fun cause f hf => ?_) fun cause => ?_
    · cases cause with
      | breakpoint => cases hf
      | completed => cases hf
      | other text => cases hf; rfl
    · cases cause with
      | breakpoint => exact heeds_pure true
      | completed => exact heeds_pure false
      | other text => exact heeds_fail _
  · exact heeds_fail _

/-! ### Sampling -/

section Sampling

variable (c : SamplingConfig)

theorem SamplingConfig.heeds_advance (n : Nat) : Heeds (c.advance n) := by
  unfold advance
  refine (heeds_runFor _ _).bind fun running => ?_
  split
  · exact heeds_pure _
  split
  · refine (heeds_runFor _ _).bind fun running => ?_
    split
    · exact heeds_pure _
    refine (heeds_call fun _ => rfl).bind fun inst => ?_
    exact (heeds_call fun _ => rfl).bind fun waypoint => heeds_pure _
  · exact (heeds_call fun _ => rfl).bind fun inst => heeds_pure _

/-- A histogram is filed without running the program. -/
theorem Sampler.heeds_dump (s : Sampler) : Heeds s.dump := by
  intro l r h
  refine alert_of_calm ?_
  cases course_dump h <;> simp [VectorEntry.exchanges_warned, Exchange.alarm?]

theorem Sampler.heeds_step (s : Sampler) : Heeds (s.step c) := by
  unfold step
  cases s.stage with
  | warming =>
    refine (c.heeds_advance _).bind fun a => ?_
    cases a with
    | exited => exact heeds_pure _
    | reached b => exact (heeds_call fun _ => rfl).bind fun _ => heeds_pure _
  | sampling =>
    refine (c.heeds_advance _).bind fun a => ?_
    cases a with
    | exited => exact heeds_pure _
    | reached b =>
      refine (c.heeds_advance _).bind fun a => ?_
      cases a with
      | exited => exact heeds_pure _
      | reached b => exact heeds_pure _
  | dumping => exact s.heeds_dump
  | done => exact heeds_pure _

theorem Sampler.heeds_steps (fuel : Nat) (s : Sampler) : Heeds (steps c fuel s) := by
  induction fuel generalizing s with
  | zero =>
    unfold steps
    split
    · exact heeds_pure _
    · exact heeds_fail _
  | succ fuel ih =>
    unfold steps
    split
    · exact heeds_pure _
    · exact (s.heeds_step c).bind ih

theorem heeds_sample (fuel : Nat) : Heeds (sample c fuel) := by
  unfold sample
  refine (heeds_ofExcept _).bind fun _ => ?_
  refine (Sampler.heeds_steps c fuel _).bind fun s => ?_
  refine (heeds_ofExcept _).bind fun _ => ?_
  exact (heeds_say _ _).bind fun _ => heeds_pure _

end Sampling

/-! ### Replays -/

section Replay

variable (c : ReplayConfig)

theorem heeds_reach (last : Bool) (v : Visit) : Heeds (reach c last v) := by
  unfold reach
  refine (heeds_say _ _).bind fun _ => ?_
  refine heeds_call_bind (fun cause f hf => ?_) fun cause => ?_
  · cases cause with
    | breakpoint => cases hf
    | completed => cases hf
    | other text => cases hf; rfl
  · cases cause with
    | breakpoint => exact heeds_pure true
    | completed =>
      cases last with
      | true => exact (heeds_say _ _).bind fun _ => heeds_pure false
      | false => exact heeds_fail _
    | other text => exact heeds_fail _

theorem heeds_nameCheckpoint (s : Pass) (v : Visit) : Heeds (nameCheckpoint c s v) := by
  intro l r h
  rw [exchanges_nameCheckpoint h]
  exact alert_of_calm (by simp)

theorem heeds_settle (p : Pass) (v : Visit) : Heeds (settle c p v) := by
  unfold settle
  cases v.mark with
  | warmup =>
    refine (heeds_call fun _ => rfl).bind fun _ => ?_
    refine (heeds_call fun _ => rfl).bind fun _ => ?_
    exact (heeds_say _ _).bind fun _ => heeds_pure p
  | interval => exact heeds_pure p
  | stop => exact (heeds_nameCheckpoint c p v).bind fun cp => heeds_pure _

theorem heeds_visit (last : Bool) (p : Pass) (v : Visit) : Heeds (visit c last p v) := by
  rw [visit_eq]
  refine (heeds_reach c last v).bind fun running => ?_
  exact (heeds_call fun _ => rfl).bind fun inst => heeds_settle c _ v

theorem heeds_visitAll (p : Pass) (vs : List Visit) : Heeds (visitAll c p vs) := by
  induction vs generalizing p with
  | nil => exact heeds_pure p
  | cons v vs ih => exact (heeds_visit c vs.isEmpty p v).bind ih

theorem heeds_replay (ps : List Simpoint) : Heeds (replay c ps) := by
  unfold replay
  refine (heeds_ofExcept _).bind fun _ => ?_
  refine (heeds_visitAll c _ _).bind fun s => ?_
  split
  · refine heeds_call_bind (fun cause f hf => ?_) fun cause => ?_
    · cases cause with
      | breakpoint => cases hf; rfl
      | completed => cases hf
      | other text => cases hf; rfl
    · exact (heeds_ofExcept _).bind fun _ => heeds_pure _
  · exact heeds_pure _

end Replay

/-! ### Chunks -/

section Chunks

variable (c : ChunkConfig)

theorem heeds_takeCheckpoint (index warmup : Nat) : Heeds (takeCheckpoint c index warmup) := by
  unfold takeCheckpoint
  refine (heeds_call fun _ => rfl).bind fun _ => ?_
  refine (heeds_say _ _).bind fun _ => ?_
  refine (heeds_call fun _ => rfl).bind fun inst => ?_
  exact (heeds_link _ _ _).bind fun _ => heeds_pure _

theorem heeds_chunksFrom (fuel : Nat) (taken : Array Checkpoint) (running : Bool) :
    Heeds (chunksFrom c fuel taken running) := by
  induction fuel generalizing taken running with
  | zero =>
    cases running with
    | false => exact heeds_pure taken
    | true => exact heeds_fail _
  | succ fuel ih =>
    cases running with
    | false => exact heeds_pure taken
    | true =>
      unfold chunksFrom
      refine (heeds_takeCheckpoint c _ _).bind fun cp => ?_
      exact (heeds_runFor _ _).bind fun running => ih _ running

theorem heeds_chunks (fuel : Nat) : Heeds (chunks c fuel) := by
  unfold chunks
  refine (heeds_ofExcept _).bind fun _ => ?_
  refine (heeds_runFor _ _).bind fun running => ?_
  split
  · exact (heeds_say _ _).bind fun _ => heeds_pure []
  · refine (heeds_takeCheckpoint c 0 1).bind fun first => ?_
    refine (heeds_runFor _ _).bind fun running => ?_
    refine (heeds_chunksFrom c _ _ _).bind fun taken => ?_
    exact (heeds_say _ _).bind fun _ => heeds_pure _

end Chunks

/-- **Every driver heeds its alarms.** -/
theorem Driver.heeds {α : Type} (d : Driver α) (n : Nat) : Heeds (d.flow n) := by
  cases d with
  | sampling c => exact heeds_sample c n
  | replay c ps => exact heeds_replay c ps
  | chunks c => exact heeds_chunks c n

end PhaseSampling
