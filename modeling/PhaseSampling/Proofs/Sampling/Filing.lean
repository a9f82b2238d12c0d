import PhaseSampling.Proofs.Sampling.Leg
import PhaseSampling.Proofs.Vector.Verdict

/-!
# Filing the histogram of an interval

* `Sampler.dump_eq`: the steps of filing, with a warning and a record as flows of their own.
* `Sampler.Dumped`: all the ways the histogram of a complete interval can be filed, by `course_dump`.
  Its line is written before the histogram is started anew.
-/

namespace PhaseSampling

open PhaseSampling.Flow

/-- What can be wrong with a dump. -/
theorem Histogram.fault_of_parse {dump : String} {f : Fault} (h : parse dump = .error f) :
    f = .unterminatedHistogram ∨ ∃ line text, f = .malformedHistogram line text := by
  have hv := verdict_parse dump
  rw [h] at hv
  cases hv with
  | unterminated hne hl => exact .inl rfl
  | malformed hl hi hline => exact .inr ⟨_, _, rfl⟩

theorem Histogram.not_bookkeeping_of_parse {dump : String} {f : Fault}
    (h : parse dump = .error f) : ¬ f.Bookkeeping := by
  rcases fault_of_parse h with rfl | ⟨line, text, rfl⟩ <;> simp [Fault.Bookkeeping]

/-- The log lines about an entry. -/
def VectorEntry.warned (e : VectorEntry) : List Deed :=
  match e.warning with
  | some text => [⟨.say .warn text, .ok ()⟩]
  | none => []

theorem VectorEntry.exchanges_warned (e : VectorEntry) : exchanges e.warned = [] := by
  unfold warned
  split <;> rfl

/-- The ways the histogram of an interval can be filed. -/
inductive Sampler.Dumped (s : Sampler) : List Deed → Ending Sampler → Prop where
  | unanswered (f : Fault) : Dumped s [⟨.call .dump, .error f⟩] (.fault false f)
  | malformed (text : String) {f : Fault} (h : Histogram.parse text = .error f) :
      Dumped s [⟨.call .dump, .ok text⟩] (.fault true f)
  | full (text : String) {h : Histogram} (hp : Histogram.parse text = .ok h) (f : Fault) :
      Dumped s (⟨.call .dump, .ok text⟩ :: ((s.writer.entry h).1.warned ++
        [⟨.append (s.writer.entry h).1.line, .error f⟩])) (.fault false f)
  | mismatched (text : String) {h : Histogram} (hp : Histogram.parse text = .ok h)
      (hs : ¬ (s.records.size < s.warmups.size ∧ s.records.size + 1 < s.bounds.size)) :
      Dumped s (⟨.call .dump, .ok text⟩ :: ((s.writer.entry h).1.warned ++
        [⟨.append (s.writer.entry h).1.line, .ok ()⟩])) (.fault true s.mismatch)
  | unreset (text : String) {h : Histogram} (hp : Histogram.parse text = .ok h) (f : Fault) :
      Dumped s (⟨.call .dump, .ok text⟩ :: ((s.writer.entry h).1.warned ++
        [⟨.append (s.writer.entry h).1.line, .ok ()⟩, ⟨.call .reset, .error f⟩])) (.fault false f)
  | filed (text : String) {h : Histogram} (hp : Histogram.parse text = .ok h)
      (hw : s.records.size < s.warmups.size) (hb : s.records.size + 1 < s.bounds.size) :
      Dumped s (⟨.call .dump, .ok text⟩ :: ((s.writer.entry h).1.warned ++
        [⟨.append (s.writer.entry h).1.line, .ok ()⟩, ⟨.call .reset, .ok ()⟩,
          ⟨.say .info s!"bbv: dumped interval {s.records.size + 1}", .ok ()⟩]))
        (.value { s with
          stage := .sampling
          writer := (s.writer.entry h).2
          records := s.records.push ⟨s.warmups[s.records.size], s.bounds[s.records.size],
            s.bounds[s.records.size + 1], h.total, (s.writer.entry h).1.wellFormed⟩ })

/-- What follows the warning about an entry. -/
def Sampler.record (s : Sampler) (h : Histogram) : Flow Sampler := do
  append (s.writer.entry h).1.line
  match s.warmups[s.records.size]?, s.bounds[s.records.size]?, s.bounds[s.records.size + 1]? with
  | some warmup, some begins, some ends =>
    call .reset
    say .info s!"bbv: dumped interval {s.records.size + 1}"
    return { s with
      stage := .sampling
      writer := (s.writer.entry h).2
      records := s.records.push
        ⟨warmup, begins, ends, h.total, (s.writer.entry h).1.wellFormed⟩ }
  | _, _, _ => fail s.mismatch

/-- Says what is wrong with an entry, if anything is. -/
def VectorEntry.warn (e : VectorEntry) : Flow Unit :=
  match e.warning with
  | some text => say .warn text
  | none => return ()

/-- Filing a histogram, step by step. -/
theorem Sampler.dump_eq (s : Sampler) :
    s.dump = (do
      let text ← call .dump
      let h ← ofExcept (Histogram.parse text)
      (s.writer.entry h).1.warn
      s.record h) := by
  unfold Sampler.dump
  apply bind_congr
  intro text
  apply bind_congr
  intro h
  unfold VectorEntry.warn
  dsimp only
  cases (s.writer.entry h).1.warning with
  | none => rfl
  | some text => rfl

/-- The warning comes first, if there is one. -/
theorem course_warn_bind {α : Type} {e : VectorEntry} {k : Unit → Flow α} {d : List Deed}
    {r : Ending α} (hc : (e.warn >>= k).Course d r) :
    ∃ d', d = e.warned ++ d' ∧ (k ()).Course d' r := by
  unfold VectorEntry.warn at hc
  unfold VectorEntry.warned
  cases hw : e.warning with
  | none =>
    rw [hw] at hc
    exact ⟨d, rfl, hc⟩
  | some text =>
    rw [hw] at hc
    simp only [course_say_bind] at hc
    obtain ⟨d', rfl, hc⟩ := hc
    exact ⟨d', rfl, hc⟩

theorem course_dump {s : Sampler} {d : List Deed} {r : Ending Sampler}
    (h : s.dump.Course d r) : s.Dumped d r := by
  rw [Sampler.dump_eq, course_call_bind] at h
  obtain ⟨f, rfl, rfl⟩ | ⟨text, d, rfl, h⟩ := h
  · exact .unanswered f
  rw [course_ofExcept_bind] at h
  obtain ⟨f, hp, rfl, rfl⟩ | ⟨hist, hp, h⟩ := h
  · exact .malformed text hp
  replace h := course_warn_bind h
  obtain ⟨d, rfl, h⟩ := h
  rw [Sampler.record, course_append_bind] at h
  obtain ⟨f, rfl, rfl⟩ | ⟨d, rfl, h⟩ := h
  · exact .full text hp f
  -- the three lists are in step, or else the interval is not filed
  split at h
  · rename_i w b b' hw hb hb'
    obtain ⟨hws, rfl⟩ := Array.getElem?_eq_some_iff.1 hw
    obtain ⟨hbs', rfl⟩ := Array.getElem?_eq_some_iff.1 hb
    obtain ⟨hbs, rfl⟩ := Array.getElem?_eq_some_iff.1 hb'
    rw [course_call_bind] at h
    obtain ⟨f, rfl, rfl⟩ | ⟨⟨⟩, d, rfl, h⟩ := h
    · exact .unreset text hp f
    rw [course_say_bind] at h
    obtain ⟨d, rfl, h⟩ := h
    rw [course_pure] at h
    obtain ⟨rfl, rfl⟩ := h
    exact .filed text hp hws hbs
  · rename_i hn
    rw [course_fail] at h
    obtain ⟨rfl, rfl⟩ := h
    refine .mismatched text hp fun ⟨hw, hb⟩ => ?_
    exact hn _ _ _ (Array.getElem?_eq_getElem hw) (Array.getElem?_eq_getElem (by omega))
      (Array.getElem?_eq_getElem hb)

end PhaseSampling
