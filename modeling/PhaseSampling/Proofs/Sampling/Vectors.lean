import PhaseSampling.Engine.Simulated
import PhaseSampling.Proofs.Flow.Yields
import PhaseSampling.Proofs.Sampling.Filing
import PhaseSampling.Proofs.Sampling.Progress
import PhaseSampling.Proofs.Vector.Dump

/-!
# The vectors of a sampling run

A sampling run keeps three things: the lines of its output, the records that it ends with, and the
lines that tell these to other programs. They are in step.

* `Session.Grew`: what a session has dumped and written since another one.
* `Sampler.Filed`: a sampler has a line, a record and a histogram for each dump. A step keeps it so
  (`Sampler.Filed.step`), and so do all steps (`Sampler.Filed.steps`).
* `vectors_match_records`: **the lines, the records and the dumps of a run correspond**, one by one.
-/

namespace PhaseSampling

open PhaseSampling.Flow Text

/-- The text of a dump that was answered. -/
def Exchange.dumped? : Exchange → Option String
  | ⟨.dump, answer⟩ => answer
  | _ => none

/-- The texts of the dumps in a log. -/
def dumpTexts (l : List Exchange) : List String := l.filterMap Exchange.dumped?

theorem dumpTexts_append (l l' : List Exchange) :
    dumpTexts (l ++ l') = dumpTexts l ++ dumpTexts l' := List.filterMap_append

variable {σ : Type} {e : Engine σ} {s₀ s : Session σ} {texts written : List String}

/-- A session has an output without a bound, and since another one there were these dumps, and these
lines were written. -/
structure Session.Grew (s₀ : Session σ) (texts written : List String) (s : Session σ) : Prop where
  unbounded : s.output.capacity = none
  dumps : dumpTexts s.trace.toList = dumpTexts s₀.trace.toList ++ texts
  output : s.output.toBytes = s₀.output.toBytes ++ Utf8.encode (String.join written)

namespace Session.Grew

theorem refl (h : s₀.output.capacity = none) : s₀.Grew [] [] s₀ :=
  ⟨h, (List.append_nil _).symm, (List.append_nil _).symm⟩

/-- A call writes nothing, and only a dump dumps. -/
theorem call (h : s₀.Grew texts written s) (c : Call) :
    Ensures e (Flow.call c) s fun a s' =>
      s₀.Grew (texts ++ dumpTexts [⟨c, some a⟩]) written s' := by
  refine Ensures.op fun a s' hp => ?_
  have hask : s.ask e c = (.ok a, s') := hp
  rw [Session.ask] at hask
  simp only [Prod.mk.injEq] at hask
  obtain ⟨hanswer, rfl⟩ := hask
  refine ⟨h.unbounded, ?_, h.output⟩
  have htrace : (s.trace.push ⟨c, (e.answer c s.engine s.world).1.toOption⟩).toList =
      s.trace.toList ++ [⟨c, some a⟩] := by
    rw [Array.toList_push, hanswer]
    rfl
  show dumpTexts (s.trace.push _).toList = _
  rw [htrace, dumpTexts_append, h.dumps, List.append_assoc]

theorem call_quiet (h : s₀.Grew texts written s) {c : Call} (hc : c ≠ .dump) :
    Ensures e (Flow.call c) s fun _ s' => s₀.Grew texts written s' := by
  refine (h.call c).imp fun a s' hs' => ?_
  have hnone : dumpTexts [⟨c, some a⟩] = [] := by
    cases c with
    | dump => exact absurd rfl hc
    | _ => rfl
  rwa [hnone, List.append_nil] at hs'

theorem dump (h : s₀.Grew texts written s) :
    Ensures e (Flow.call .dump) s fun text s' => s₀.Grew (texts ++ [text]) written s' := h.call .dump

theorem say (h : s₀.Grew texts written s) (level : Level) (text : String) :
    Ensures e (Flow.say level text) s fun _ s' => s₀.Grew texts written s' := by
  refine Ensures.op fun _ s' hp => ?_
  simp only [Session.perform, Prod.mk.injEq] at hp
  obtain ⟨-, rfl⟩ := hp
  exact ⟨h.unbounded, h.dumps, h.output⟩

theorem append (h : s₀.Grew texts written s) (line : String) :
    Ensures e (Flow.append line) s fun _ s' => s₀.Grew texts (written ++ [line]) s' := by
  refine Ensures.op fun _ s' hp => ?_
  obtain ⟨o, hwrite, ho, hbytes⟩ := Output.writeText_of_unbounded h.unbounded line
  rw [Session.perform_append, hwrite] at hp
  simp only [Prod.mk.injEq] at hp
  obtain ⟨-, rfl⟩ := hp
  refine ⟨ho, h.dumps, ?_⟩
  show o.toBytes = _
  rw [hbytes, h.output, List.append_assoc, ← Utf8.encode_append, String.join_append,
    String.join_cons, String.join_nil, String.append_empty]

/-- Legs dump and write nothing. -/
theorem runFor (h : s₀.Grew texts written s) (counter : Counter) (n : Nat) :
    Ensures e (PhaseSampling.runFor counter n) s fun _ s' => s₀.Grew texts written s' := by
  unfold PhaseSampling.runFor
  refine Ensures.bind (h.call_quiet (by simp)) fun k s₁ h₁ => ?_
  split
  · refine Ensures.bind (h₁.call_quiet (by simp)) fun cause s₂ h₂ => ?_
    cases cause with
    | breakpoint => exact Ensures.pure h₂
    | completed => exact Ensures.pure h₂
    | other text => exact Ensures.fail
  · exact Ensures.fail

theorem advance (h : s₀.Grew texts written s) (c : SamplingConfig) (n : Nat) :
    Ensures e (c.advance n) s fun _ s' => s₀.Grew texts written s' := by
  unfold SamplingConfig.advance
  refine Ensures.bind (h.runFor .inst n) fun there s₁ h₁ => ?_
  split
  · exact Ensures.pure h₁
  split
  · refine Ensures.bind (h₁.runFor .waypoint 1) fun there s₂ h₂ => ?_
    split
    · exact Ensures.pure h₂
    refine Ensures.bind (h₂.call_quiet (by simp)) fun i s₃ h₃ => ?_
    exact Ensures.bind (h₃.call_quiet (by simp)) fun w s₄ h₄ => Ensures.pure h₄
  · exact Ensures.bind (h₁.call_quiet (by simp)) fun i s₂ h₂ => Ensures.pure h₂

end Session.Grew

/-! ## Steps -/

variable {c : SamplingConfig} {smp : Sampler} {hs : List Histogram}

namespace SamplingConfig

/-- The writer of a run after some histograms. -/
def writer (c : SamplingConfig) (hs : List Histogram) : VectorWriter :=
  ((VectorWriter.new c.interval c.tolerance).entries hs).2

/-- The lines of some histograms. -/
def lines (c : SamplingConfig) (hs : List Histogram) : List String :=
  (VectorWriter.new c.interval c.tolerance).lines hs

theorem writer_concat (c : SamplingConfig) (hs : List Histogram) (h : Histogram) :
    c.writer (hs ++ [h]) = ((c.writer hs).entry h).2 :=
  (VectorWriter.entries_concat _ hs h).2

theorem lines_concat (c : SamplingConfig) (hs : List Histogram) (h : Histogram) :
    c.lines (hs ++ [h]) = c.lines hs ++ [((c.writer hs).entry h).1.line] := by
  rw [lines, VectorWriter.lines, (VectorWriter.entries_concat _ hs h).1, List.map_append]
  rfl

/-- The limit of a run is exact. -/
theorem at_writer (c : SamplingConfig) (ht : ∀ h ∈ hs, h.total < wordLimit) :
    (c.writer hs).At (c.interval * c.tolerance) hs := by
  have hat := ((VectorWriter.at_new c.interval c.tolerance).entries ht).2
  rwa [List.nil_append] at hat

end SamplingConfig

/-- Some texts are the dumps of histograms. -/
def Dumps (texts : List String) (hs : List Histogram) : Prop :=
  List.Forall₂ (fun text h => Histogram.parse text = .ok h) texts hs

theorem Dumps.lt_wordLimit (h : Dumps texts hs) : ∀ h ∈ hs, h.total < wordLimit := by
  induction h with
  | nil => simp
  | cons hp _ ih => exact List.forall_mem_cons.2 ⟨(Histogram.parse_eq_ok_iff.1 hp).2, ih⟩

theorem Dumps.getElem? (h : Dumps texts hs) {i : Nat} {hist : Histogram} (hi : hs[i]? = some hist) :
    ∃ text, texts[i]? = some text ∧ Histogram.parse text = .ok hist := by
  obtain ⟨hlt, rfl⟩ := List.getElem?_eq_some_iff.1 hi
  have hlt' : i < texts.length := h.length_eq ▸ hlt
  exact ⟨texts[i], List.getElem?_eq_getElem hlt', List.forall₂_iff_get.1 h |>.2 i hlt' hlt⟩

theorem Dumps.concat (h : Dumps texts hs) {text : String} {hist : Histogram}
    (hp : Histogram.parse text = .ok hist) : Dumps (texts ++ [text]) (hs ++ [hist]) :=
  List.rel_append h (.cons hp .nil)

/-- A warning dumps and writes nothing. -/
theorem Session.Grew.warn (h : s₀.Grew texts written s) (entry : VectorEntry) :
    Ensures e entry.warn s fun _ s' => s₀.Grew texts written s' := by
  unfold VectorEntry.warn
  cases entry.warning with
  | none => exact Ensures.pure h
  | some text => exact h.say .warn text

/-- What a record keeps of a histogram. -/
def SamplingConfig.share (c : SamplingConfig) (h : Histogram) : Nat × Bool :=
  (h.total, decide (h.total ≤ c.interval * c.tolerance))

/-- A sampler in a session that began as `s₀`: each dump has its line and its record. -/
structure Sampler.Filed (c : SamplingConfig) (s₀ : Session σ) (texts : List String)
    (hs : List Histogram) (smp : Sampler) (s : Session σ) : Prop where
  grew : s₀.Grew texts (c.lines hs) s
  dumped : Dumps texts hs
  writer : smp.writer = c.writer hs
  records : smp.records.toList.map (fun r => (r.total, r.wellFormed)) = hs.map c.share

namespace Sampler.Filed

theorem start (h : s₀.output.capacity = none) (c : SamplingConfig) :
    (Sampler.start c).Filed c s₀ [] [] s₀ :=
  ⟨.refl h, .nil, rfl, rfl⟩

/-- A sampler with the same writer and records, when nothing was dumped or written. -/
theorem of_same (h : smp.Filed c s₀ texts hs s) {smp' : Sampler} {s' : Session σ}
    (hg : s₀.Grew texts (c.lines hs) s') (hw : smp'.writer = smp.writer)
    (hr : smp'.records = smp.records) : smp'.Filed c s₀ texts hs s' :=
  ⟨hg, h.dumped, hw.trans h.writer, hr ▸ h.records⟩

/-- **A complete interval** gets its line and its record. -/
theorem dump (h : smp.Filed c s₀ texts hs s) :
    Ensures e smp.dump s fun smp' s' => ∃ text hist,
      smp'.Filed c s₀ (texts ++ [text]) (hs ++ [hist]) s' := by
  rw [Sampler.dump_eq]
  refine Ensures.bind h.grew.dump fun text s₁ h₁ => ?_
  refine Ensures.ofExcept_bind fun hist hp => ?_
  refine Ensures.bind (h₁.warn _) fun _ s₂ h₂ => ?_
  have hdumped := h.dumped.concat hp
  have hflag := ((c.at_writer h.dumped.lt_wordLimit).entry
    (hdumped.lt_wordLimit hist (List.mem_append_right _ List.mem_cons_self))).1
  rw [← h.writer] at hflag
  unfold Sampler.record
  refine Ensures.bind (h₂.append _) fun _ s₃ h₃ => ?_
  rw [h.writer, ← c.lines_concat] at h₃
  split
  · refine Ensures.bind (h₃.call_quiet (by simp)) fun _ s₄ h₄ => ?_
    refine Ensures.bind (h₄.say _ _) fun _ s₅ h₅ => ?_
    refine Ensures.pure ⟨text, hist, h₅, hdumped, ?_, ?_⟩
    · rw [c.writer_concat, ← h.writer]
    · rw [Array.toList_push, List.map_append, List.map_append, h.records, List.map_singleton,
        List.map_singleton, hflag]
      rfl
  · exact Ensures.fail

/-- **One step** keeps lines, records and dumps in step. -/
theorem step (h : smp.Filed c s₀ texts hs s) :
    Ensures e (smp.step c) s fun smp' s' => ∃ texts' hs', smp'.Filed c s₀ texts' hs' s' := by
  unfold Sampler.step
  split
  -- the first warmup
  · refine Ensures.bind (h.grew.advance c c.warmup) fun there s₁ h₁ => ?_
    cases there with
    | exited => exact Ensures.pure ⟨texts, hs, h.of_same h₁ rfl rfl⟩
    | reached b =>
      refine Ensures.bind (h₁.call_quiet (by simp)) fun _ s₂ h₂ => ?_
      exact Ensures.pure ⟨texts, hs, h.of_same h₂ rfl rfl⟩
  -- the two legs of a cycle
  · refine Ensures.bind (h.grew.advance c (c.interval - c.warmup)) fun there s₁ h₁ => ?_
    cases there with
    | exited => exact Ensures.pure ⟨texts, hs, h.of_same h₁ rfl rfl⟩
    | reached w =>
      refine Ensures.bind (h₁.advance c c.warmup) fun there s₂ h₂ => ?_
      cases there with
      | exited => exact Ensures.pure ⟨texts, hs, h.of_same h₂ rfl rfl⟩
      | reached b => exact Ensures.pure ⟨texts, hs, h.of_same h₂ rfl rfl⟩
  · exact h.dump.imp fun smp' s' ⟨text, hist, hs'⟩ => ⟨_, _, hs'⟩
  · exact Ensures.pure ⟨texts, hs, h⟩

/-- **All steps** do. -/
theorem steps (fuel : Nat) (h : smp.Filed c s₀ texts hs s) :
    Ensures e (Sampler.steps c fuel smp) s fun smp' s' =>
      ∃ texts' hs', smp'.Filed c s₀ texts' hs' s' := by
  induction fuel generalizing smp texts hs s with
  | zero =>
    unfold Sampler.steps
    split
    · exact Ensures.pure ⟨texts, hs, h⟩
    · exact Ensures.fail
  | succ fuel ih =>
    unfold Sampler.steps
    split
    · exact Ensures.pure ⟨texts, hs, h⟩
    · exact Ensures.bind h.step fun smp' s' ⟨_, _, hs'⟩ => ih hs'

end Sampler.Filed

/-- The lines and the records of a run are those of its dumps. -/
theorem ensures_sample (h : s₀.output.capacity = none) (c : SamplingConfig) (fuel : Nat) :
    Ensures e (sample c fuel) s₀ fun rs s' => ∃ texts hs, s₀.Grew texts (c.lines hs) s' ∧
      Dumps texts hs ∧ rs.map (fun r => (r.total, r.wellFormed)) = hs.map c.share := by
  unfold sample
  refine Ensures.ofExcept_bind fun _ _ => ?_
  refine Ensures.bind ((Sampler.Filed.start h c).steps fuel) fun smp s₁ ⟨texts, hs, h₁⟩ => ?_
  refine Ensures.ofExcept_bind fun _ _ => ?_
  refine Ensures.bind (h₁.grew.say _ _) fun _ s₂ h₂ => ?_
  exact Ensures.pure ⟨texts, hs, h₂, h₁.dumped, h₁.records⟩

/-- A record has the histogram that it was made of. -/
theorem share_of_getElem? {rs : List IntervalRecord} {i : Nat} {r : IntervalRecord}
    (h : rs.map (fun r => (r.total, r.wellFormed)) = hs.map c.share) (hr : rs[i]? = some r) :
    ∃ hist, hs[i]? = some hist ∧ (r.total, r.wellFormed) = c.share hist := by
  have hi := congrArg (fun l => l[i]?) h
  simp only [List.getElem?_map, hr, Option.map_some] at hi
  obtain ⟨hist, hhist, he⟩ := Option.map_eq_some_iff.1 hi.symm
  exact ⟨hist, hhist, he.symm⟩

/-- **The lines, the records and the dumps of a run correspond.** A run ends well over any engine, and
its output has no bound. Then there were as many dumps as there are records, and as many lines were
written.

* The total of a record is the sum over the lines of its dump, and it is well formed if that is not
  more than `interval * tolerance`.
* Its line is the placeholder if it is not well formed. Else the line lists the blocks of the dump,
  in order, with weights that add up to the total of the record.
* The records are told in as many lines, each with the waypoints of its record. -/
theorem vectors_match_records {fuel : Nat} {s' : Session σ} {rs : List IntervalRecord}
    (ho : s.output.capacity = none) (h : (sample c fuel).run e s = (.ok rs, s')) :
    ∃ (texts lines : List String) (hs : List Histogram),
      dumpTexts s'.trace.toList = dumpTexts s.trace.toList ++ texts ∧ texts.length = rs.length ∧
      s'.output.toBytes = s.output.toBytes ++ Utf8.encode (String.join lines) ∧
      closedLines (String.join lines).toList = some (lines.map fun line => line.toList.dropLast) ∧
      lines.length = rs.length ∧
      (∀ i r, rs[i]? = some r → ∃ text line hist, texts[i]? = some text ∧ lines[i]? = some line ∧
        hs[i]? = some hist ∧ Histogram.Reads text hist ∧
        r.total = (hist.blocks.map Block.retired).sum ∧
        (r.wellFormed = true ↔ r.total ≤ c.interval * c.tolerance) ∧
        (r.wellFormed = false → line = "T :1:1\n") ∧
        (r.wellFormed = true → ∃ v, line = vectorText v ∧ readVector? line = some v ∧
          v = hist.blocks.map (fun b => (rank (vectorKeys (c.interval * c.tolerance)
            (hs.take (i + 1))) b.key, b.retired)) ∧
          (v.map Prod.snd).sum = r.total)) ∧
      ∀ o : Output, o.capacity = none → ∃ o', IntervalRecord.writeInfo o rs = (.ok (), o') ∧
        o'.toBytes = o.toBytes ++ Utf8.encode (String.join (rs.map IntervalRecord.infoLine)) ∧
        closedLines (String.join (rs.map IntervalRecord.infoLine)).toList =
          some (rs.map fun r => r.infoLine.toList.dropLast) ∧
        ∀ r ∈ rs, Waypoints.read? r.infoLine = some r.waypoints := by
  obtain ⟨texts, hs, hgrew, hdumps, hrecords⟩ := ensures_sample ho c fuel rs s' h
  have ht := hdumps.lt_wordLimit
  have hnew := VectorWriter.at_new c.interval c.tolerance
  have hlength : hs.length = rs.length := by
    have := congrArg List.length hrecords
    rwa [List.length_map, List.length_map, eq_comm] at this
  refine ⟨texts, c.lines hs, hs, hgrew.dumps, hdumps.length_eq.trans hlength, hgrew.output,
    closedLines_join (hnew.line_lines ht), (VectorWriter.length_lines _ hs).trans hlength,
    fun i r hr => ?_, fun o ho' => ?_⟩
  · obtain ⟨hist, hhist, hshare⟩ := share_of_getElem? hrecords hr
    obtain ⟨text, htext, hparse⟩ := hdumps.getElem? hhist
    obtain ⟨hreads, hword⟩ := Histogram.parse_eq_ok_iff.1 hparse
    obtain ⟨htotal, hflag⟩ := Prod.mk.inj hshare
    by_cases hle : hist.total ≤ c.interval * c.tolerance
    · have hline := hnew.getElem?_lines_of_le ht hhist hle
      rw [decide_eq_true hle] at hflag
      refine ⟨text, _, hist, htext, hline, hhist, hreads, htotal.trans hreads.total,
        ⟨fun _ => htotal ▸ hle, fun _ => hflag⟩, fun hf => ?_, fun _ => ?_⟩
      · rw [hflag] at hf
        cases hf
      · exact ⟨_, rfl, readVector?_vectorText _, hreads.vector hword _,
          (hreads.weights hword _).trans htotal.symm⟩
    · have hline := (hnew.getElem?_lines_of_lt ht hhist (Nat.not_le.1 hle)).1
      rw [decide_eq_false hle] at hflag
      have hnot : r.wellFormed ≠ true := by simp [hflag]
      refine ⟨text, _, hist, htext, hline, hhist, hreads, htotal.trans hreads.total,
        ⟨fun hf => absurd hf hnot, fun hf => absurd (htotal ▸ hf) hle⟩, fun _ => rfl,
        fun hf => absurd hf hnot⟩
  · obtain ⟨o', hwrite, hbytes⟩ := Output.writeAll_of_unbounded ho' (rs.map IntervalRecord.infoLine)
    refine ⟨o', hwrite, hbytes, ?_, fun r _ => read?_infoLine r⟩
    rw [closedLines_join, List.map_map]
    · rfl
    · intro line hline
      obtain ⟨r, -, rfl⟩ := List.mem_map.1 hline
      exact line_infoLine r

/-- A program of ten instructions whose second interval is too heavy: the first line has a weight of
three instructions, and the second is the placeholder. -/
theorem vectors_match_records_ten :
    ∃ lines : List String, lines.length = 2 ∧
      ((sample ⟨1, 3, 2, false⟩ 10).run Simulated.engine
        (.fresh (.program 10 1 ["3 a\n", "9 b\n"]))).2.output.toBytes =
        Utf8.encode (String.join lines) ∧
      (∃ v, lines[0]? = some (vectorText v) ∧ (v.map Prod.snd).sum = 3) ∧
      lines[1]? = some "T :1:1\n" := by
  have hrun : ((sample ⟨1, 3, 2, false⟩ 10).run Simulated.engine
      (.fresh (.program 10 1 ["3 a\n", "9 b\n"]))).1.toOption = some
      [⟨⟨0, 0⟩, ⟨1, 1⟩, ⟨4, 4⟩, 3, true⟩, ⟨⟨3, 3⟩, ⟨4, 4⟩, ⟨7, 7⟩, 9, false⟩] := by
    decide +kernel
  have hempty : (Session.fresh (.program 10 1 ["3 a\n", "9 b\n"]) :
      Session Simulated).output.toBytes = [] := rfl
  obtain ⟨texts, lines, hs, -, -, hbytes, -, hlength, hrecord, -⟩ :=
    vectors_match_records rfl (run_of_toOption hrun)
  rw [hempty, List.nil_append] at hbytes
  obtain ⟨text₀, line₀, hist₀, -, h₀, -, -, -, -, -, hfull⟩ := hrecord 0 _ rfl
  obtain ⟨text₁, line₁, hist₁, -, h₁, -, -, -, -, hplaceholder, -⟩ := hrecord 1 _ rfl
  obtain ⟨v, rfl, -, -, hsum⟩ := hfull rfl
  have hline := hplaceholder rfl
  subst hline
  exact ⟨lines, hlength, hbytes, ⟨v, h₀, hsum⟩, h₁⟩

end PhaseSampling
