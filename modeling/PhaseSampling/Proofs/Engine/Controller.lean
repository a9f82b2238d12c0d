import PhaseSampling.Engine.Controller
import PhaseSampling.Proofs.Engine.Framing
import PhaseSampling.Proofs.Flow.Course

/-!
# Sessions with a controller

A controller that says the answers of another engine cannot be told from it.

* `Call.lines`: the command lines that a call sends.
* `Exchange.Says`, `Speech`: the payloads by which a controller gives the answers of exchanges.
* `Controller.answer_of_says`: one call reads just these payloads and sends just these lines.
* `Session.Does.controller`: whatever a session does over an engine that leaves the files alone, a
  session with a controller does too.
-/

namespace PhaseSampling

open Text

/-- The command lines of a call. -/
def Call.lines : Call → List String
  | .count counter => [s!"{counter.name}count"]
  | .advance counter target => [s!"breakpoint {counter.name} {target}", "simulate"]
  | .complete => ["simulate"]
  | .checkpoint path => [s!"checkpoint {path}"]
  | .stats => ["stats dump"]
  | .dump => ["bbhist dump"]
  | .reset => ["bbhist reset"]

/-- Command lines on their way. -/
def sending : List String → String
  | [] => ""
  | line :: lines => line ++ "\n" ++ sending lines

theorem sending_append (ls ls' : List String) : sending (ls ++ ls') = sending ls ++ sending ls' := by
  induction ls with
  | nil => exact String.empty_append.symm
  | cons l ls ih =>
    rw [List.cons_append, sending, sending, ih]
    exact (String.append_assoc ..).symm

/-- All that is sent for some exchanges. -/
def commands (l : List Exchange) : String := sending (l.flatMap fun x => x.call.lines)

theorem commands_nil : commands [] = "" := rfl

theorem commands_cons (x : Exchange) (l : List Exchange) :
    commands (x :: l) = sending x.call.lines ++ commands l := by
  rw [commands, List.flatMap_cons, sending_append]
  rfl

/-- A text that a payload can hold. -/
def Sendable (text : String) : Prop := (Response.payload text).Valid

theorem sendable_of_size {text : String} (h : text.utf8ByteSize ≤ 64) : Sendable text := by
  rw [Sendable, Response.Valid, Utf8.length_encode]
  exact Nat.le_trans h (by decide)

/-- A word has few digits. -/
theorem sendable_toString {n : Nat} (h : n < wordLimit) : Sendable (toString n) := by
  have hascii : ∀ c ∈ Nat.toDigits 10 n, c.toNat < 128 := fun c hc =>
    toNat_lt_of_isDigit (isDigit_of_mem_toDigits hc)
  have hdigits : (Nat.toDigits 10 n).length ≤ 20 := by
    refine (Nat.length_toDigits_le_iff (by decide) (by decide)).2 (Nat.lt_trans h ?_)
    decide
  show (Utf8.encode (toString n)).length ≤ Response.maxLength
  rw [Nat.toString_eq_ofList_toDigits, Utf8.encode_ascii hascii, List.length_map]
  exact Nat.le_trans hdigits (by decide)

/-- A text that does not end in a blank. -/
def Unpadded (text : String) : Prop := ∀ c ∈ text.toList.getLast?, isBlank c = false

theorem unpadded_of_getLast? {text : String} {c : Char} (h : text.toList.getLast? = some c)
    (hc : isBlank c = false) : Unpadded text := by
  intro d hd
  rw [Option.mem_def, h] at hd
  cases hd
  exact hc

/-- The payloads by which a controller gives the answer of an exchange: counts in digits, causes and
histograms as they are, and anything at all to acknowledge a command. -/
inductive Exchange.Says : Exchange → List String → Prop where
  | count (counter : Counter) (n : Nat) (h : n < wordLimit) :
      Says ⟨.count counter, some n⟩ [toString n]
  | advance (counter : Counter) (target : Nat) {ack text : String} (ha : Sendable ack)
      (h : Sendable text) (hu : Unpadded text) :
      Says ⟨.advance counter target, some (.ofText text)⟩ [ack, text]
  | complete {text : String} (h : Sendable text) (hu : Unpadded text) :
      Says ⟨.complete, some (.ofText text)⟩ [text]
  | checkpoint (path : String) {ack : String} (ha : Sendable ack) :
      Says ⟨.checkpoint path, some ()⟩ [ack]
  | stats {ack : String} (ha : Sendable ack) : Says ⟨.stats, some ()⟩ [ack]
  | dump {text : String} (h : Sendable text) : Says ⟨.dump, some text⟩ [text]
  | reset {ack : String} (ha : Sendable ack) : Says ⟨.reset, some ()⟩ [ack]

/-- The payloads for exchanges one after the other. -/
inductive Speech : List Exchange → List String → Prop where
  | nil : Speech [] []
  | cons {x : Exchange} {l : List Exchange} {texts texts' : List String} (h : x.Says texts)
      (t : Speech l texts') : Speech (x :: l) (texts ++ texts')

/-- Payloads as the responses of a controller. -/
def spoken (texts : List String) : Bytes := Response.stream (texts.map .payload)

theorem spoken_append (texts texts' : List String) :
    spoken (texts ++ texts') = spoken texts ++ spoken texts' := by
  rw [spoken, List.map_append, Response.stream_append]
  rfl

/-! ## One call -/

namespace Controller

/-- A command reads one payload. -/
theorem command_spoken {text : String} (h : Sendable text) (cmd : String) (rest : Bytes)
    (sent : String) (w : World) :
    ∃ w', command cmd ⟨spoken [text] ++ rest, sent⟩ w =
        (.ok text, ⟨rest, sent ++ sending [cmd]⟩, w') ∧ w'.files = w.files := by
  have hread : Response.read (spoken [text] ++ rest) = (.ok text, rest) := by
    have hbytes : spoken [text] = (Response.payload text).bytes := by
      simp [spoken, Response.stream]
    rw [hbytes]
    exact Response.read_bytes h rest
  have hsent : sent ++ cmd ++ "\n" = sent ++ sending [cmd] := by
    simp [sending, String.append_assoc]
  unfold command
  simp only [hread, hsent]
  exact ⟨_, rfl, rfl⟩

theorem order_spoken {text : String} (h : Sendable text) (cmd : String) (rest : Bytes)
    (sent : String) (w : World) :
    ∃ w', order cmd ⟨spoken [text] ++ rest, sent⟩ w =
        (.ok (), ⟨rest, sent ++ sending [cmd]⟩, w') ∧ w'.files = w.files := by
  obtain ⟨w', hc, hw⟩ := command_spoken h cmd rest sent w
  exact ⟨w', by rw [order, hc], hw⟩

theorem number_spoken {n : Nat} (h : n < wordLimit) (cmd : String) (rest : Bytes) (sent : String)
    (w : World) :
    ∃ w', number cmd ⟨spoken [toString n] ++ rest, sent⟩ w =
        (.ok n, ⟨rest, sent ++ sending [cmd]⟩, w') ∧ w'.files = w.files := by
  have hdigits : (toString n).toList = Nat.toDigits 10 n := by
    rw [Nat.toString_eq_repr, Nat.toList_repr]
  have htrim : trim (toString n).toList = Nat.toDigits 10 n := by
    rw [hdigits]
    exact trim_of_forall fun c hc => isBlank_of_isDigit (isDigit_of_mem_toDigits hc)
  obtain ⟨w', hc, hw⟩ := command_spoken (sendable_toString h) cmd rest sent w
  refine ⟨w', ?_, hw⟩
  rw [number, hc]
  simp only [htrim, readWord?_toDigits h]

theorem simulate_spoken {text : String} (h : Sendable text) (hu : Unpadded text) (rest : Bytes)
    (sent : String) (w : World) :
    ∃ w', simulate ⟨spoken [text] ++ rest, sent⟩ w =
        (.ok (.ofText text), ⟨rest, sent ++ sending ["simulate"]⟩, w') ∧ w'.files = w.files := by
  obtain ⟨w', hc, hw⟩ := command_spoken h "simulate" rest sent w
  refine ⟨w', ?_, hw⟩
  rw [simulate, hc]
  simp only [trimEnd_of_getLast? hu, String.ofList_toList]

/-- A breakpoint is acknowledged, and then the program stops. -/
theorem advance_spoken {ack text : String} (ha : Sendable ack) (h : Sendable text)
    (hu : Unpadded text) (counter : Counter) (target : Nat) (rest : Bytes) (sent : String) (w : World) :
    ∃ w', answer (.advance counter target) ⟨spoken [ack, text] ++ rest, sent⟩ w =
        (.ok (.ofText text), ⟨rest, sent ++ sending (Call.advance counter target).lines⟩, w') ∧
      w'.files = w.files := by
  have hcat : spoken [ack, text] ++ rest = spoken [ack] ++ (spoken [text] ++ rest) := by
    rw [← List.append_assoc, ← spoken_append]
    rfl
  have hlines : (Call.advance counter target).lines =
      [s!"breakpoint {counter.name} {target}"] ++ ["simulate"] := rfl
  rw [hlines, sending_append, ← String.append_assoc, answer, hcat]
  obtain ⟨w₁, h₁, hw₁⟩ := order_spoken ha s!"breakpoint {counter.name} {target}"
    (spoken [text] ++ rest) sent w
  rw [h₁]
  obtain ⟨w₂, h₂, hw₂⟩ := simulate_spoken h hu rest
    (sent ++ sending [s!"breakpoint {counter.name} {target}"]) w₁
  exact ⟨w₂, h₂, hw₂.trans hw₁⟩

/-- **A call reads the payloads of its own answer**, and sends its own lines. -/
theorem answer_of_says {x : Exchange} {texts : List String} (h : x.Says texts) (rest : Bytes)
    (sent : String) (w : World) :
    ∃ a w', x.answer = some a ∧
      answer x.call ⟨spoken texts ++ rest, sent⟩ w =
        (.ok a, ⟨rest, sent ++ sending x.call.lines⟩, w') ∧ w'.files = w.files := by
  cases h with
  | count counter n h =>
    obtain ⟨w', hc, hw⟩ := number_spoken h s!"{counter.name}count" rest sent w
    exact ⟨_, w', rfl, hc, hw⟩
  | advance counter target ha h hu =>
    obtain ⟨w', hc, hw⟩ := advance_spoken ha h hu counter target rest sent w
    exact ⟨_, w', rfl, hc, hw⟩
  | complete h hu =>
    obtain ⟨w', hc, hw⟩ := simulate_spoken h hu rest sent w
    exact ⟨_, w', rfl, hc, hw⟩
  | checkpoint path ha =>
    obtain ⟨w', hc, hw⟩ := order_spoken ha s!"checkpoint {path}" rest sent w
    exact ⟨_, w', rfl, hc, hw⟩
  | stats ha =>
    obtain ⟨w', hc, hw⟩ := order_spoken ha "stats dump" rest sent w
    exact ⟨_, w', rfl, hc, hw⟩
  | dump h =>
    obtain ⟨w', hc, hw⟩ := command_spoken h "bbhist dump" rest sent w
    exact ⟨_, w', rfl, hc, hw⟩
  | reset ha =>
    obtain ⟨w', hc, hw⟩ := order_spoken ha "bbhist reset" rest sent w
    exact ⟨_, w', rfl, hc, hw⟩

end Controller

/-! ## Whole sessions -/

/-- Links are made by the files alone. -/
theorem World.link_congr {w w' : World} (h : w'.files = w.files) (outdir short long : String) :
    (w'.link outdir short long).1 = (w.link outdir short long).1 ∧
      (w'.link outdir short long).2.files = (w.link outdir short long).2.files := by
  rcases hr : w.files.relink short (joinPath outdir long) with ⟨cause | ⟨⟩, t⟩
  · have hr' : w'.files.relink short (joinPath outdir long) = (.error cause, t) := by rw [h, hr]
    rw [link_of_relink_error hr, link_of_relink_error hr']
    exact ⟨rfl, rfl⟩
  · have hr' : w'.files.relink short (joinPath outdir long) = (.ok (), t) := by rw [h, hr]
    rw [link_of_relink hr, link_of_relink hr']
    exact ⟨rfl, rfl⟩

/-- An engine that leaves the files alone. -/
def Engine.LeavesFiles {σ : Type} (e : Engine σ) : Prop :=
  ∀ c a w, (e.answer c a w).2.2.files = w.files

/-- A session that has the files and the output of another one. -/
structure Session.Matches {σ τ : Type} (t : Session τ) (s : Session σ) : Prop where
  files : t.world.files = s.world.files
  output : t.output = s.output

section Sessions

variable {σ : Type} {e : Engine σ} {s s₁ s' : Session σ} {t : Session Controller}
  {texts : List String} {rest : Bytes}

theorem Session.ask_of_answer {c : Call} {r : Except Fault c.Answer} {a : σ} {w : World}
    (h : e.answer c s.engine s.world = (r, a, w)) :
    s.ask e c = (r, ⟨a, w, s.output, s.trace.push ⟨c, r.toOption⟩⟩) := by
  rw [ask, h]

/-- A call is answered alike. -/
theorem Session.Matches.call (he : e.LeavesFiles) (hm : t.Matches s) {c : Call}
    {r : Except Fault c.Answer} (h : s.perform e (.call c) = (r, s₁))
    (hs : Exchange.Says ⟨c, r.toOption⟩ texts)
    (hu : t.engine.unread = spoken texts ++ rest) :
    ∃ t₁, t.perform Controller.engine (.call c) = (r, t₁) ∧ t₁.Matches s₁ ∧
      t₁.engine.unread = rest ∧ t₁.engine.sent = t.engine.sent ++ sending c.lines := by
  simp only [perform, ask, Prod.mk.injEq] at h
  obtain ⟨rfl, rfl⟩ := h
  obtain ⟨a, w, ha, hanswer, hw⟩ := Controller.answer_of_says hs rest t.engine.sent t.world
  rw [← hu] at hanswer
  have hok : (e.answer c s.engine s.world).1 = .ok a := by
    cases hx : (e.answer c s.engine s.world).1 with
    | ok b =>
      rw [hx] at ha
      cases ha
      rfl
    | error f =>
      rw [hx] at ha
      cases ha
  have hperform : t.perform Controller.engine (.call c) =
      (.ok a, ⟨⟨rest, t.engine.sent ++ sending c.lines⟩, w, t.output,
        t.trace.push ⟨c, some a⟩⟩) :=
    ask_of_answer (e := Controller.engine) (s := t) hanswer
  rw [hok]
  refine ⟨_, hperform, ⟨?_, hm.output⟩, rfl, rfl⟩
  exact hw.trans (hm.files.trans (he c s.engine s.world).symm)

/-- Output, links and log lines do not need the engine. -/
theorem Session.Matches.other (hm : t.Matches s) {o : Op} (ho : ∀ c, o ≠ .call c)
    {r : Except Fault o.Reply} (h : s.perform e o = (r, s₁)) :
    ∃ t₁, t.perform Controller.engine o = (r, t₁) ∧ t₁.Matches s₁ ∧ t₁.engine = t.engine := by
  cases o with
  | call c => exact absurd rfl (ho c)
  | append text =>
    rw [perform_append] at h ⊢
    cases h
    rw [hm.output]
    exact ⟨_, rfl, ⟨hm.files, rfl⟩, rfl⟩
  | link outdir short long =>
    obtain ⟨hr, hfiles⟩ := World.link_congr hm.files outdir short long
    rw [perform_link] at h ⊢
    generalize t.world.link outdir short long = x at hr hfiles ⊢
    generalize s.world.link outdir short long = y at hr hfiles h
    cases h
    rw [hr]
    exact ⟨_, rfl, ⟨hfiles, hm.output⟩, rfl⟩
  | say level text =>
    simp only [perform, Prod.mk.injEq] at h
    obtain ⟨rfl, rfl⟩ := h
    exact ⟨_, rfl, ⟨hm.files, hm.output⟩, rfl⟩

/-- **Whatever a session does**, a session with a controller does too that says the same answers. It
reads all of them and sends the lines of all calls. -/
theorem Session.Does.controller (he : e.LeavesFiles) {l : List Deed} (h : s.Does e l s')
    (hm : t.Matches s) (hs : Speech (exchanges l) texts)
    (hu : t.engine.unread = spoken texts ++ rest) :
    ∃ t', t.Does Controller.engine l t' ∧ t'.Matches s' ∧ t'.engine.unread = rest ∧
      t'.engine.sent = t.engine.sent ++ commands (exchanges l) := by
  induction h generalizing t texts with
  | nil s =>
    cases hs
    refine ⟨t, .nil t, hm, by rw [hu]; rfl, ?_⟩
    rw [exchanges_nil, commands_nil, String.append_empty]
  | @cons s s₁ s₂ o r l h hrest ih =>
    by_cases hcall : ∃ c, o = .call c
    · obtain ⟨c, rfl⟩ := hcall
      rw [exchanges_call] at hs
      cases hs with
      | @cons x l ts ts' hsays hs =>
        rw [spoken_append, List.append_assoc] at hu
        obtain ⟨t₁, hp, hm₁, hu₁, hsent₁⟩ := hm.call he h hsays hu
        obtain ⟨t₂, hd, hm₂, hu₂, hsent₂⟩ := ih hm₁ hs hu₁
        refine ⟨t₂, .cons hp hd, hm₂, hu₂, ?_⟩
        rw [hsent₂, hsent₁, exchanges_call, commands_cons, String.append_assoc]
    · have ho : ∀ c, o ≠ .call c := fun c hc => hcall ⟨c, hc⟩
      have hnone : exchanges (⟨o, r⟩ :: l) = exchanges l := by
        cases o with
        | call c => exact absurd rfl (ho c)
        | _ => rfl
      rw [hnone] at hs ⊢
      obtain ⟨t₁, hp, hm₁, hengine⟩ := hm.other ho h
      obtain ⟨t₂, hd, hm₂, hu₂, hsent₂⟩ := ih hm₁ hs (by rw [hengine]; exact hu)
      rw [hengine] at hsent₂
      exact ⟨t₂, .cons hp hd, hm₂, hu₂, hsent₂⟩

end Sessions

end PhaseSampling
