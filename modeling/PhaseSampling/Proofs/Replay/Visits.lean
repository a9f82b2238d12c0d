import PhaseSampling.Proofs.Flow.Course
import PhaseSampling.Replay

/-!
# The courses of a replay

What a replay asks its engine visit by visit, and what it keeps of the answers.

* `ReplayConfig.Visited`, `ReplayConfig.VisitedAll`: all the ways a visit and visits in turn can go,
  by `course_visit` and `course_visitAll`.
* `ReplayConfig.Replayed`: all the ways a replay can go, by `course_replay`.
-/

namespace PhaseSampling

open PhaseSampling.Flow

/-- A pass that has got to a visit. -/
def Pass.arrive (s : Pass) (v : Visit) (exited : Bool) (inst : Nat) : Pass :=
  { s with readings := ⟨v.index, v.mark, inst⟩ :: s.readings, exited }

/-- What tells a reading from the others of its pass. -/
def Reading.key (r : Reading) : Nat × Mark := (r.index, r.mark)

/-- Where no mark was read twice, every reading is found. -/
theorem Pass.reading?_of_mem {s : Pass} (hn : (s.readings.map Reading.key).Nodup) {r : Reading}
    (hr : r ∈ s.readings) : s.reading? r.index r.mark = some r.inst := by
  obtain ⟨l₁, l₂, hl⟩ := List.append_of_mem hr
  -- the readings before it have other keys
  have hnone : l₁.find? (fun q => q.index == r.index && q.mark == r.mark) = none := by
    rw [List.find?_eq_none]
    intro q hq hk
    simp only [Bool.and_eq_true, beq_iff_eq] at hk
    rw [hl, List.map_append, List.nodup_append] at hn
    exact hn.2.2 q.key (List.mem_map_of_mem hq) r.key (by simp) (Prod.ext hk.1 hk.2)
  simp [Pass.reading?, hl, List.find?_append, hnone]

namespace ReplayConfig

/-- The exchanges that take the program to a visit. -/
def arrival (c : ReplayConfig) (last : Bool) (v : Visit) (exited : Bool) (inst : Nat) :
    List Exchange :=
  [⟨.advance c.counter (c.target last v), some (if exited then .completed else .breakpoint)⟩,
    ⟨.count .inst, some inst⟩]

def snapshotPath (c : ReplayConfig) (v : Visit) : String :=
  checkpointPath c.outdir (shortName v.point.name)

/-- The exchanges by which a snapshot is taken where a warmup begins. -/
def snapshot (c : ReplayConfig) (v : Visit) : List Exchange :=
  if v.mark = .warmup then [⟨.checkpoint (c.snapshotPath v), some ()⟩, ⟨.stats, some ()⟩] else []

/-- The ways a visit can go. The program may exit on the last one only. -/
inductive Visited (c : ReplayConfig) (last : Bool) (s : Pass) (v : Visit) :
    List Exchange → Ending Pass → Prop where
  | unanswered (f : Fault) :
      Visited c last s v [⟨.advance c.counter (c.target last v), none⟩] (.fault false f)
  | early (h : last = false) :
      Visited c last s v [⟨.advance c.counter (c.target last v), some .completed⟩]
        (.fault true (.exitedEarly c.counter (c.target last v)))
  | stopped (text : String) :
      Visited c last s v [⟨.advance c.counter (c.target last v), some (.other text)⟩]
        (.fault true ((StopCause.other text).unexpected .breakpoint))
  | uncounted (exited : Bool) (h : exited = true → last = true) (f : Fault) :
      Visited c last s v
        [⟨.advance c.counter (c.target last v),
          some (if exited then .completed else .breakpoint)⟩, ⟨.count .inst, none⟩]
        (.fault false f)
  | unsaved (exited : Bool) (h : exited = true → last = true) (inst : Nat)
      (hm : v.mark = .warmup) (f : Fault) :
      Visited c last s v
        (c.arrival last v exited inst ++ [⟨.checkpoint (c.snapshotPath v), none⟩])
        (.fault false f)
  | unlogged (exited : Bool) (h : exited = true → last = true) (inst : Nat)
      (hm : v.mark = .warmup) (f : Fault) :
      Visited c last s v
        (c.arrival last v exited inst ++
          [⟨.checkpoint (c.snapshotPath v), some ()⟩, ⟨.stats, none⟩])
        (.fault false f)
  | unnamed (exited : Bool) (h : exited = true → last = true) (inst : Nat)
      (hm : v.mark = .stop) {d : List Deed} {own : Bool} {f : Fault}
      (hn : (nameCheckpoint c (s.arrive v exited inst) v).Course d (.fault own f)) :
      Visited c last s v (c.arrival last v exited inst) (.fault own f)
  | passed (exited : Bool) (h : exited = true → last = true) (inst : Nat)
      (hm : v.mark ≠ .stop) :
      Visited c last s v (c.arrival last v exited inst ++ c.snapshot v)
        (.value (s.arrive v exited inst))
  | named (exited : Bool) (h : exited = true → last = true) (inst : Nat)
      (hm : v.mark = .stop) {d : List Deed} {cp : Checkpoint}
      (hn : (nameCheckpoint c (s.arrive v exited inst) v).Course d (.value cp)) :
      Visited c last s v (c.arrival last v exited inst)
        (.value { s.arrive v exited inst with checkpoints := s.checkpoints.push cp })

/-- The ways visits in turn can go. -/
inductive VisitedAll (c : ReplayConfig) :
    Pass → List Visit → List Exchange → Ending Pass → Prop where
  | nil (s : Pass) : VisitedAll c s [] [] (.value s)
  | cut {s : Pass} {v : Visit} {vs : List Visit} {l : List Exchange} {own : Bool} {f : Fault}
      (h : c.Visited vs.isEmpty s v l (.fault own f)) : VisitedAll c s (v :: vs) l (.fault own f)
  | cons {s s' : Pass} {v : Visit} {vs : List Visit} {l l' : List Exchange} {r : Ending Pass}
      (h : c.Visited vs.isEmpty s v l (.value s')) (t : VisitedAll c s' vs l' r) :
      VisitedAll c s (v :: vs) (l ++ l') r

/-- The ways a replay can go. -/
inductive Replayed (c : ReplayConfig) (ps : List Simpoint) :
    List Exchange → Ending (List Checkpoint) → Prop where
  | rejected {f : Fault} (h : Simpoint.validate ps = .error f) :
      Replayed c ps [] (.fault true f)
  | cut {l : List Exchange} {own : Bool} {f : Fault} (hv : Simpoint.validate ps = .ok ())
      (t : c.VisitedAll .start (timeline ps) l (.fault own f)) : Replayed c ps l (.fault own f)
  | exited {l : List Exchange} {s : Pass} (hv : Simpoint.validate ps = .ok ())
      (t : c.VisitedAll .start (timeline ps) l (.value s)) (he : s.exited = true) :
      Replayed c ps l (.value s.checkpoints.toList)
  | unfinished {l : List Exchange} {s : Pass} (hv : Simpoint.validate ps = .ok ())
      (t : c.VisitedAll .start (timeline ps) l (.value s)) (he : s.exited = false) (f : Fault) :
      Replayed c ps (l ++ [⟨.complete, none⟩]) (.fault false f)
  | stopped {l : List Exchange} {s : Pass} (hv : Simpoint.validate ps = .ok ())
      (t : c.VisitedAll .start (timeline ps) l (.value s)) (he : s.exited = false)
      {cause : StopCause} (hc : cause ≠ .completed) :
      Replayed c ps (l ++ [⟨.complete, some cause⟩]) (.fault true (cause.unexpected .completed))
  | completed {l : List Exchange} {s : Pass} (hv : Simpoint.validate ps = .ok ())
      (t : c.VisitedAll .start (timeline ps) l (.value s)) (he : s.exited = false) :
      Replayed c ps (l ++ [⟨.complete, some .completed⟩]) (.value s.checkpoints.toList)

/-- The ways to run to a visit. -/
inductive Reached (c : ReplayConfig) (last : Bool) (v : Visit) :
    List Exchange → Ending Bool → Prop where
  | unanswered (f : Fault) :
      Reached c last v [⟨.advance c.counter (c.target last v), none⟩] (.fault false f)
  | early (h : last = false) :
      Reached c last v [⟨.advance c.counter (c.target last v), some .completed⟩]
        (.fault true (.exitedEarly c.counter (c.target last v)))
  | stopped (text : String) :
      Reached c last v [⟨.advance c.counter (c.target last v), some (.other text)⟩]
        (.fault true ((StopCause.other text).unexpected .breakpoint))
  | there (exited : Bool) (h : exited = true → last = true) :
      Reached c last v
        [⟨.advance c.counter (c.target last v),
          some (if exited then .completed else .breakpoint)⟩]
        (.value !exited)

end ReplayConfig

open ReplayConfig

theorem course_reach {c : ReplayConfig} {last : Bool} {v : Visit} {l : List Deed} {r : Ending Bool}
    (h : (reach c last v).Course l r) : c.Reached last v (exchanges l) r := by
  rw [reach, course_say_bind] at h
  obtain ⟨l, rfl, h⟩ := h
  rw [course_call_bind] at h
  obtain ⟨f, rfl, rfl⟩ | ⟨cause, l, rfl, h⟩ := h
  · exact .unanswered f
  cases cause with
  | breakpoint =>
    obtain ⟨rfl, rfl⟩ := course_pure.1 h
    exact .there false nofun
  | completed =>
    cases last with
    | true =>
      simp only [if_true] at h
      rw [course_say_bind] at h
      obtain ⟨l, rfl, h⟩ := h
      obtain ⟨rfl, rfl⟩ := course_pure.1 h
      exact .there true fun _ => rfl
    | false =>
      obtain ⟨rfl, rfl⟩ := course_fail.1 h
      exact .early rfl
  | other text =>
    obtain ⟨rfl, rfl⟩ := course_fail.1 h
    exact .stopped text

/-- A checkpoint is named without a call. -/
theorem exchanges_nameCheckpoint {c : ReplayConfig} {s : Pass} {v : Visit} {l : List Deed}
    {r : Ending Checkpoint} (h : (nameCheckpoint c s v).Course l r) : exchanges l = [] := by
  rw [nameCheckpoint] at h
  split at h
  · split at h
    · rw [course_link_bind] at h
      obtain ⟨f, rfl, rfl⟩ | ⟨a, l, rfl, h⟩ := h
      · rfl
      · obtain ⟨rfl, rfl⟩ := course_pure.1 h
        rfl
    · obtain ⟨rfl, rfl⟩ := course_fail.1 h
      rfl
  · obtain ⟨rfl, rfl⟩ := course_fail.1 h
    rfl

/-- The checkpoint of a simpoint has the readings at its three marks. -/
theorem course_nameCheckpoint_value {c : ReplayConfig} {s : Pass} {v : Visit} {l : List Deed}
    {cp : Checkpoint} (h : (nameCheckpoint c s v).Course l (.value cp)) :
    ∃ warmup interval stop, s.reading? v.index .warmup = some warmup ∧
      s.reading? v.index .interval = some interval ∧ s.reading? v.index .stop = some stop ∧
      warmup ≤ interval ∧ interval ≤ stop ∧ cp = v.point.checkpoint warmup interval stop := by
  rw [nameCheckpoint] at h
  split at h
  · rename_i warmup interval stop hw hi hs
    split at h
    · rename_i hle
      rw [course_link_bind] at h
      obtain ⟨f, -, hf⟩ | ⟨a, l, rfl, h⟩ := h
      · cases hf
      · obtain ⟨-, hcp⟩ := course_pure.1 h
        cases hcp
        exact ⟨_, _, _, hw, hi, hs, hle.1, hle.2, rfl⟩
    · cases (course_fail.1 h).2
  · cases (course_fail.1 h).2

/-- **Every course of a visit** goes one of these ways. -/
theorem course_visit {c : ReplayConfig} {last : Bool} {s : Pass} {v : Visit} {l : List Deed}
    {r : Ending Pass} (h : (visit c last s v).Course l r) :
    c.Visited last s v (exchanges l) r := by
  rw [visit, course_bind] at h
  obtain ⟨own, f, h₁, rfl⟩ | ⟨running, l₁, l₂, rfl, h₁, h⟩ := h
  · have hr := course_reach h₁
    generalize exchanges l = l at hr
    cases hr with
    | unanswered f => exact .unanswered f
    | early hl => exact .early hl
    | stopped text => exact .stopped text
  have hr := course_reach h₁
  rw [exchanges_append]
  generalize exchanges l₁ = l₁ at hr
  cases hr with
  | there exited he =>
    rw [course_call_bind] at h
    obtain ⟨f, rfl, rfl⟩ | ⟨inst, l₂, rfl, h⟩ := h
    · exact .uncounted exited he f
    have hs : { s with readings := ⟨v.index, v.mark, inst⟩ :: s.readings, exited := !!exited } =
        s.arrive v exited inst := by rw [Bool.not_not, Pass.arrive]
    rw [hs] at h
    clear hs
    -- what is done there depends on the mark
    cases hm : v.mark with
    | warmup =>
      rw [hm] at h
      simp only at h
      rw [course_call_bind] at h
      obtain ⟨f, rfl, rfl⟩ | ⟨⟨⟩, l₂, rfl, h⟩ := h
      · exact .unsaved exited he inst hm f
      rw [course_call_bind] at h
      obtain ⟨f, rfl, rfl⟩ | ⟨⟨⟩, l₂, rfl, h⟩ := h
      · exact .unlogged exited he inst hm f
      rw [course_say_bind] at h
      obtain ⟨l₂, rfl, h⟩ := h
      obtain ⟨rfl, rfl⟩ := course_pure.1 h
      have hv := Visited.passed (c := c) (s := s) exited he inst (v := v) (by simp [hm])
      rw [snapshot, if_pos hm] at hv
      exact hv
    | interval =>
      rw [hm] at h
      obtain ⟨rfl, rfl⟩ := course_pure.1 h
      have hv := Visited.passed (c := c) (s := s) exited he inst (v := v) (by simp [hm])
      rw [snapshot, if_neg (by simp [hm])] at hv
      exact hv
    | stop =>
      rw [hm] at h
      simp only at h
      rw [course_bind] at h
      obtain ⟨own, f, hn, rfl⟩ | ⟨cp, l₂, l₃, rfl, hn, h⟩ := h
      · have hl := exchanges_nameCheckpoint hn
        have hv := Visited.unnamed exited he inst hm hn
        rw [exchanges_call, hl]
        exact hv
      · obtain ⟨rfl, rfl⟩ := course_pure.1 h
        have hv := Visited.named exited he inst hm hn
        rw [List.append_nil, exchanges_call, exchanges_nameCheckpoint hn]
        exact hv

theorem course_visitAll {c : ReplayConfig} {s : Pass} {vs : List Visit} {l : List Deed}
    {r : Ending Pass} (h : (visitAll c s vs).Course l r) :
    c.VisitedAll s vs (exchanges l) r := by
  induction vs generalizing s l with
  | nil =>
    obtain ⟨rfl, rfl⟩ := course_pure.1 h
    exact .nil s
  | cons v vs ih =>
    rw [visitAll, course_bind] at h
    obtain ⟨own, f, h₁, rfl⟩ | ⟨s₁, l₁, l₂, rfl, h₁, h⟩ := h
    · exact .cut (course_visit h₁)
    · rw [exchanges_append]
      exact .cons (course_visit h₁) (ih h)

/-- **Every course of a replay** goes one of these ways. -/
theorem course_replay {c : ReplayConfig} {ps : List Simpoint} {l : List Deed}
    {r : Ending (List Checkpoint)} (h : (replay c ps).Course l r) :
    c.Replayed ps (exchanges l) r := by
  rw [replay, course_ofExcept_bind] at h
  obtain ⟨f, hv, rfl, rfl⟩ | ⟨⟨⟩, hv, h⟩ := h
  · exact .rejected hv
  rw [course_bind] at h
  obtain ⟨own, f, h₁, rfl⟩ | ⟨s, l₁, l₂, rfl, h₁, h⟩ := h
  · exact .cut hv (course_visitAll h₁)
  have t := course_visitAll h₁
  rw [exchanges_append]
  -- the program is run to its end unless it has exited
  cases he : s.exited with
  | true =>
    simp only [he, Bool.not_true, Bool.false_eq_true, if_false] at h
    obtain ⟨rfl, rfl⟩ := course_pure.1 h
    rw [exchanges_nil, List.append_nil]
    exact .exited hv t he
  | false =>
    simp only [he, Bool.not_false, if_true] at h
    rw [course_call_bind] at h
    obtain ⟨f, rfl, rfl⟩ | ⟨cause, l₂, rfl, h⟩ := h
    · exact .unfinished hv t he f
    rw [course_ofExcept_bind, StopCause.expect] at h
    obtain ⟨f, hf, rfl, rfl⟩ | ⟨⟨⟩, hok, h⟩ := h
    · split at hf
      · cases hf
      · rename_i hc
        cases hf
        exact .stopped hv t he hc
    · split at hok
      · rename_i hc
        subst hc
        obtain ⟨rfl, rfl⟩ := course_pure.1 h
        exact .completed hv t he
      · cases hok

end PhaseSampling
