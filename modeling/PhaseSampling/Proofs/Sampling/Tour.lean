import PhaseSampling.Proofs.Sampling.Filing

/-!
# The log of a sampling run

What a sampling run has asked its engine so far, and what it keeps of the answers.

* `SamplingConfig.Tour`: the log when the histogram was just started anew, with the records filed.
* `Sampler.History`: the log at a point between two steps. It fixes the lists of the sampler.
* `SamplingConfig.Interrupted`: the log of a run that was cut off anywhere.
-/

namespace PhaseSampling

open PhaseSampling.Flow SamplingConfig

/-- `c.Tour rs w b l`: the intervals `rs` are filed after the exchanges `l`, and the next one has its
warmup from `w` on and begins at `b`. -/
inductive SamplingConfig.Tour (c : SamplingConfig) :
    List IntervalRecord → Boundary → Boundary → List Exchange → Prop where
  | first {b : Boundary} {l : List Exchange} (h : c.Leg c.warmup b l) :
      Tour c [] .start b (l ++ [⟨.reset, some ()⟩])
  | filed {rs : List IntervalRecord} {w b w' b' : Boundary} {l out back : List Exchange}
      (t : Tour c rs w b l) (ho : c.Leg (c.interval - c.warmup) w' out)
      (hb : c.Leg c.warmup b' back) (text : String) (total : Nat) (wellFormed : Bool) :
      Tour c (rs ++ [⟨w, b, b', total, wellFormed⟩]) w' b'
        (l ++ (out ++ back ++ [⟨.dump, some text⟩, ⟨.reset, some ()⟩]))

/-- `s.History c l`: a sampler between two steps, after the exchanges `l`. -/
inductive Sampler.History (c : SamplingConfig) : Sampler → List Exchange → Prop where
  | warming (wr : VectorWriter) : History c ⟨.warming, wr, #[.start], #[], #[]⟩ []
  | sampling (wr : VectorWriter) {rs : List IntervalRecord} {w b : Boundary} {l : List Exchange}
      (t : c.Tour rs w b l) :
      History c ⟨.sampling, wr, (rs.map (·.warmup) ++ [w]).toArray,
        (rs.map (·.begins) ++ [b]).toArray, rs.toArray⟩ l
  | dumping (wr : VectorWriter) {rs : List IntervalRecord} {w b w' b' : Boundary}
      {l out back : List Exchange} (t : c.Tour rs w b l)
      (ho : c.Leg (c.interval - c.warmup) w' out) (hb : c.Leg c.warmup b' back) :
      History c ⟨.dumping, wr, (rs.map (·.warmup) ++ [w, w']).toArray,
        (rs.map (·.begins) ++ [b, b']).toArray, rs.toArray⟩ (l ++ (out ++ back))
  | exitedFirst (wr : VectorWriter) {l : List Exchange} (h : c.Exit c.warmup l) :
      History c ⟨.done, wr, #[.start], #[], #[]⟩ l
  | exitedOut (wr : VectorWriter) {rs : List IntervalRecord} {w b : Boundary}
      {l out : List Exchange} (t : c.Tour rs w b l) (h : c.Exit (c.interval - c.warmup) out) :
      History c ⟨.done, wr, (rs.map (·.warmup) ++ [w]).toArray,
        (rs.map (·.begins) ++ [b]).toArray, rs.toArray⟩ (l ++ out)
  | exitedBack (wr : VectorWriter) {rs : List IntervalRecord} {w b w' : Boundary}
      {l out back : List Exchange} (t : c.Tour rs w b l)
      (ho : c.Leg (c.interval - c.warmup) w' out) (h : c.Exit c.warmup back) :
      History c ⟨.done, wr, (rs.map (·.warmup) ++ [w, w']).toArray,
        (rs.map (·.begins) ++ [b]).toArray, rs.toArray⟩ (l ++ (out ++ back))

/-- The log of a run that was cut off: on the way to a boundary, or by a call for the histogram. -/
inductive SamplingConfig.Interrupted (c : SamplingConfig) : List Exchange → Prop where
  | warming {l : List Exchange} (hq : ∀ x ∈ l, x.Quiet) : Interrupted c l
  | starting {b : Boundary} {l : List Exchange} (h : c.Leg c.warmup b l) :
      Interrupted c (l ++ [⟨.reset, none⟩])
  | sampling {rs : List IntervalRecord} {w b : Boundary} {l q : List Exchange}
      (t : c.Tour rs w b l) (hq : ∀ x ∈ q, x.Quiet) : Interrupted c (l ++ q)
  | dumping {rs : List IntervalRecord} {w b w' b' : Boundary} {l out back : List Exchange}
      (t : c.Tour rs w b l) (ho : c.Leg (c.interval - c.warmup) w' out)
      (hb : c.Leg c.warmup b' back) (answer : Option String) :
      Interrupted c (l ++ (out ++ back ++ [⟨.dump, answer⟩]))
  | restarting {rs : List IntervalRecord} {w b w' b' : Boundary} {l out back : List Exchange}
      (t : c.Tour rs w b l) (ho : c.Leg (c.interval - c.warmup) w' out)
      (hb : c.Leg c.warmup b' back) (text : String) :
      Interrupted c (l ++ (out ++ back ++ [⟨.dump, some text⟩, ⟨.reset, none⟩]))

/-- What is known of the log of a course of steps by how the course ends. -/
def SamplingConfig.After (c : SamplingConfig) (l : List Exchange) : Ending Sampler → Prop
  | .value s => s.History c l
  | .fault own f => c.Interrupted l ∧ (own = true → ¬ f.Bookkeeping)

variable {c : SamplingConfig} {s : Sampler} {l : List Exchange}

@[simp]
theorem SamplingConfig.after_value : c.After l (.value s) ↔ s.History c l := Iff.rfl

@[simp]
theorem SamplingConfig.after_fault {own : Bool} {f : Fault} :
    c.After l (.fault own f) ↔ c.Interrupted l ∧ (own = true → ¬ f.Bookkeeping) := Iff.rfl

theorem Sampler.history_start (c : SamplingConfig) : (start c).History c [] := .warming _

theorem Sampler.History.interrupted (h : s.History c l) : c.Interrupted l := by
  cases h with
  | warming wr => exact .warming (by simp)
  | sampling wr t =>
    have := Interrupted.sampling t (q := []) (by simp)
    rwa [List.append_nil] at this
  | dumping wr t ho hb => exact .sampling t (quiet_append ho.quiet hb.quiet)
  | exitedFirst wr h => exact .warming h.quiet
  | exitedOut wr t h => exact .sampling t h.quiet
  | exitedBack wr t ho h => exact .sampling t (quiet_append ho.quiet h.quiet)

/-- A sampler with records has come out of a tour. -/
theorem Sampler.History.tour (h : s.History c l) :
    s.records.toList = [] ∨ ∃ w b l₀ l₁, l = l₀ ++ l₁ ∧ c.Tour s.records.toList w b l₀ := by
  cases h with
  | warming wr => exact .inl rfl
  | sampling wr t => exact .inr ⟨_, _, _, [], (List.append_nil _).symm, t⟩
  | dumping wr t ho hb => exact .inr ⟨_, _, _, _, rfl, t⟩
  | exitedFirst wr h => exact .inl rfl
  | exitedOut wr t h => exact .inr ⟨_, _, _, _, rfl, t⟩
  | exitedBack wr t ho h => exact .inr ⟨_, _, _, _, rfl, t⟩

/-- The lists of a sampler are in step with its stage. With `r` records filed, the next interval has
its warmup and its begin noted, and when it is complete the one after it has them too. An exit
leaves them as they are, between any two legs. -/
def Sampler.Balanced (s : Sampler) : Prop :=
  match s.stage with
  | .warming => s.warmups.size = 1 ∧ s.bounds.size = 0 ∧ s.records.size = 0
  | .sampling => s.warmups.size = s.records.size + 1 ∧ s.bounds.size = s.records.size + 1
  | .dumping => s.warmups.size = s.records.size + 2 ∧ s.bounds.size = s.records.size + 2
  | .done =>
    (s.warmups.size = 1 ∧ s.bounds.size = 0 ∧ s.records.size = 0) ∨
    (s.warmups.size = s.records.size + 1 ∧ s.bounds.size = s.records.size + 1) ∨
    (s.warmups.size = s.records.size + 2 ∧ s.bounds.size = s.records.size + 1)

theorem Sampler.History.balanced (hs : s.History c l) : s.Balanced := by
  cases hs <;> simp [Balanced]

/-- Lists that are in step when the program exits pass the check. -/
theorem Sampler.Balanced.check (hs : s.Balanced) (hd : s.stage = .done) :
    checkBookkeeping s.warmups.size s.bounds.size s.records.size = .ok () := by
  simp only [Balanced, hd] at hs
  rw [checkBookkeeping, if_neg]
  omega

/-- The last boundary read off in a log. -/
def SamplingConfig.Newest (c : SamplingConfig) (b : Boundary) (l : List Exchange) : Prop :=
  ∃ l₀ l₁, l = l₀ ++ c.reading b ++ l₁ ∧ ∀ x ∈ l₁, ∀ counter, x.call ≠ .count counter

namespace SamplingConfig

variable {rs : List IntervalRecord} {w b : Boundary}

theorem Leg.newest {n : Nat} (h : c.Leg n b l) (before : List Exchange) :
    c.Newest b (before ++ l) := by
  obtain ⟨l₀, hl⟩ := h.reading_suffix
  exact ⟨before ++ l₀, [], by simp [hl], by simp⟩

theorem Newest.append {l' : List Exchange} (h : c.Newest b l)
    (hc : ∀ x ∈ l', ∀ counter, x.call ≠ .count counter) : c.Newest b (l ++ l') := by
  obtain ⟨l₀, l₁, rfl, h₁⟩ := h
  refine ⟨l₀, l₁ ++ l', by simp, fun x hx => ?_⟩
  rcases List.mem_append.1 hx with hx | hx
  · exact h₁ x hx
  · exact hc x hx

/-- The next interval begins at the boundary read off last. -/
theorem Tour.newest (t : c.Tour rs w b l) : c.Newest b l := by
  cases t with
  | first h => exact (h.newest []).append (by simp)
  | @filed _ _ _ _ _ l₀ out _ t ho hb text total wellFormed =>
    have hn : c.Newest b (l₀ ++ out ++ _ ++ [⟨.dump, some text⟩, ⟨.reset, some ()⟩]) :=
      (hb.newest (l₀ ++ out)).append (by simp)
    simpa using hn

/-- Before any record is filed, the warmup is the one from the start of the program. -/
theorem Tour.of_nil (t : c.Tour rs w b l) (hrs : rs = []) :
    w = .start ∧ ∃ l₀, c.Leg c.warmup b l₀ ∧ l = l₀ ++ [⟨.reset, some ()⟩] := by
  cases t with
  | first h => exact ⟨rfl, _, h, rfl⟩
  | filed => simp at hrs

/-- The place of a record in the log: the log before its histogram, the two legs of its interval, and
the dump. These legs reached the next warmup and the next begin. -/
theorem Tour.split (t : c.Tour rs w b l) {i : Nat} {r : IntervalRecord} (hr : rs[i]? = some r) :
    ∃ w' l₀ out back text after, c.Tour (rs.take i) r.warmup r.begins l₀ ∧
      c.Leg (c.interval - c.warmup) w' out ∧ c.Leg c.warmup r.ends back ∧
      l = l₀ ++ (out ++ back ++ ⟨.dump, some text⟩ :: after) ∧
      (rs.map (·.warmup) ++ [w])[i + 1]? = some w' ∧
      (rs.map (·.begins) ++ [b])[i + 1]? = some r.ends := by
  induction t with
  | first h => simp at hr
  | @filed rs w b w' b' l out back t ho hb text total wellFormed ih =>
    simp only [List.map_append, List.map_cons, List.map_nil]
    rcases Nat.lt_or_ge i rs.length with hi | hi
    -- an older record: what was filed since comes behind its dump
    · rw [List.getElem?_append_left hi] at hr
      obtain ⟨w₁, l₀, out₁, back₁, text₁, after, ht, ho₁, hb₁, rfl, hw, he⟩ := ih hr
      refine ⟨w₁, l₀, out₁, back₁, text₁,
        after ++ (out ++ back ++ [⟨.dump, some text⟩, ⟨.reset, some ()⟩]), ?_, ho₁, hb₁, ?_, ?_, ?_⟩
      · rwa [List.take_append_of_le_length (Nat.le_of_lt hi)]
      · simp
      · rwa [List.getElem?_append_left (by simpa using hi)]
      · rwa [List.getElem?_append_left (by simpa using hi)]
    -- the newest record, with only the reset behind its dump
    · have hi : i = rs.length := by
        have := (List.getElem?_eq_some_iff.1 hr).1
        simp at this
        omega
      subst hi
      simp only [List.getElem?_append_right (Nat.le_refl _), Nat.sub_self, List.getElem?_cons_zero,
        Option.some.injEq] at hr
      subst hr
      refine ⟨w', l, out, back, text, [⟨.reset, some ()⟩], ?_, ho, hb, by simp, ?_, ?_⟩
      · simpa using t
      · simp
      · simp

end SamplingConfig

end PhaseSampling
