import PhaseSampling.Engine.Simulated
import PhaseSampling.Proofs.Engine.Scripted
import PhaseSampling.Proofs.Sampling.Endings

/-!
# Engines that tire

Each kind of engine has something that the program uses up as it is run on, so neither loop over it
goes on for ever.

* `Simulated.tires`: the instructions up to the end of the program, and the causes that are forced on
  it. A cause is used up where the program stands.
* `Scripted.tires`: the counts in the queue. The acknowledgements do not run out.
* `Controller.tires`: the bytes that are still unread, whatever they are.
* `loops_end`: **sampling and chunks end over all three**.
-/

namespace PhaseSampling

open PhaseSampling.Flow

/-! ## A simulated program -/

namespace Simulated

/-- What a program has before it: instructions, and forced causes. -/
def ahead (s : Simulated) : Nat := s.length - s.inst + s.forced.length

theorem ahead_advance_le (s : Simulated) (counter : Counter) (target : Nat) :
    (s.advance counter target).2.ahead ≤ s.ahead := by
  unfold advance ahead
  cases s.forced with
  | cons cause forced =>
    show s.length - s.inst + forced.length ≤ s.length - s.inst + (forced.length + 1)
    omega
  | nil =>
    dsimp only
    split
    · show s.length - s.length + 0 ≤ s.length - s.inst + 0
      omega
    · show s.length - max s.inst _ + 0 ≤ s.length - s.inst + 0
      omega

/-- A breakpoint before the program, if it is reached, uses up something. -/
theorem ahead_advance_lt {s : Simulated} {n : Nat} (hn : 0 < n)
    (h : (s.advance .inst (s.inst + n)).1 = .breakpoint) :
    (s.advance .inst (s.inst + n)).2.ahead < s.ahead := by
  unfold advance ahead at *
  cases hf : s.forced with
  | cons cause forced =>
    show s.length - s.inst + forced.length < s.length - s.inst + (forced.length + 1)
    omega
  | nil =>
    simp only [hf] at h ⊢
    split at h
    · cases h
    · rename_i hp
      have hp : ¬ s.length ≤ s.inst + n := hp
      rw [if_neg (by exact hp)]
      show s.length - max s.inst (s.inst + n) + 0 < s.length - s.inst + 0
      omega

theorem ahead_complete_le (s : Simulated) : s.complete.2.ahead ≤ s.ahead := by
  unfold complete ahead
  cases s.forced with
  | cons cause forced =>
    show s.length - s.inst + forced.length ≤ s.length - s.inst + (forced.length + 1)
    omega
  | nil =>
    show s.length - s.length + 0 ≤ s.length - s.inst + 0
    omega

theorem ahead_checkpoint (s : Simulated) (w : World) (path : String) :
    (s.checkpoint w path).2.1.ahead = s.ahead := by
  unfold checkpoint
  split <;> rfl

/-- Only a snapshot can fail, for what the files are like. -/
theorem fault_checkpoint (s : Simulated) (w : World) (path : String) :
    (s.checkpoint w path).1 ≠ .error .unfinished := by
  unfold checkpoint World.change
  dsimp only
  generalize w.files.makeDirs path = x
  obtain ⟨cause | _, t⟩ := x
  · nofun
  · nofun

theorem tires : engine.Tires ahead where
  fault c a w := by
    cases c with
    | checkpoint path => exact fault_checkpoint a w path
    | _ => nofun
  le c a w := by
    cases c with
    | advance counter target => exact a.ahead_advance_le counter target
    | complete => exact a.ahead_complete_le
    | checkpoint path => exact Nat.le_of_eq (a.ahead_checkpoint w path)
    | _ => exact Nat.le_refl _
  lt := by
    intro a b d w w' w'' w''' k n hn hcount hadvance
    cases hcount
    have hstop : (a.advance .inst (a.inst + n)).1 = .breakpoint :=
      Except.ok.inj (congrArg Prod.fst hadvance)
    have hd : (a.advance .inst (a.inst + n)).2 = d := congrArg (·.2.1) hadvance
    rw [← hd]
    exact ahead_advance_lt hn hstop

end Simulated

/-! ## A script -/

namespace Scripted

theorem fault_next {α : Type} (kind : String) (queue : List (Entry α)) :
    (next kind queue).1 ≠ .error .unfinished := by
  unfold next
  split <;> nofun

theorem fault_acknowledge (s : Scripted) : s.acknowledge.1 ≠ .error .unfinished := by
  unfold acknowledge
  split
  · nofun
  · exact fault_next "acks" s.acks

/-- A count that is answered is taken from the queue, and only a count is. -/
theorem tires : engine.Tires fun s => s.counts.length where
  fault c a w := by
    cases c with
    | count counter => exact fault_next "counts" a.counts
    | advance counter target => exact fault_next "causes" a.causes
    | complete => exact fault_next "causes" a.causes
    | dump => exact fault_next "dumps" a.dumps
    | _ => exact fault_acknowledge a
  le c a w := by
    by_cases hc : c.isCount = true
    · cases c with
      | count counter =>
        rcases a with ⟨_ | ⟨n | f, counts⟩, causes, dumps, acks⟩
        · exact Nat.le_refl 0
        · exact Nat.le_succ _
        · exact Nat.le_succ _
      | _ => cases hc
    · exact Nat.le_of_eq (congrArg _ (counts_of_other (Bool.eq_false_iff.2 hc)))
  lt := by
    intro a b d w w₁ w₂ w₃ k n _ hcount hadvance
    have htaken : (engine.answer (.count .inst) a w).2.1.counts.length + 1 = a.counts.length :=
      counts_of_count (by rw [hcount]; rfl)
    have hkept := counts_of_other (a := b) (w := w₂) (c := .advance .inst (k + n)) rfl
    rw [hcount] at htaken
    rw [hadvance] at hkept
    show d.counts.length < a.counts.length
    rw [hkept]
    exact Nat.lt_of_succ_le (Nat.le_of_eq htaken)

end Scripted

/-! ## A controller -/

namespace Response

theorem takeLine_snd_le (bs : Bytes) : (takeLine bs).2.length ≤ bs.length - 1 := by
  induction bs with
  | nil => exact Nat.le_refl 0
  | cons b bs ih =>
    rw [takeLine]
    split
    · exact Nat.le_refl _
    · show (takeLine bs).2.length ≤ bs.length
      omega

theorem readPayload_snd_le (n : Nat) (bs : Bytes) : (readPayload n bs).2.length ≤ bs.length := by
  have hdrop : (bs.drop n).length ≤ bs.length := by
    rw [List.length_drop]
    omega
  unfold readPayload
  dsimp only
  split
  · exact Nat.zero_le _
  · split
    · exact hdrop
    · exact hdrop

/-- **A response** that is read takes a byte at least, whatever it is. -/
theorem read_snd_le (bs : Bytes) : (read bs).2.length ≤ bs.length - 1 := by
  have hline := takeLine_snd_le bs
  unfold read
  split
  · exact Nat.zero_le _
  · dsimp only
    split
    · exact hline
    · split
      · exact hline
      · exact Nat.le_trans (readPayload_snd_le _ _) hline

theorem fault_payloadLength (header : String) : payloadLength header ≠ .error .unfinished := by
  unfold payloadLength
  split
  · split
    · nofun
    · split <;> nofun
  · nofun
  · nofun

theorem fault_readPayload (n : Nat) (bs : Bytes) : (readPayload n bs).1 ≠ .error .unfinished := by
  unfold readPayload
  dsimp only
  split
  · nofun
  · split <;> nofun

theorem fault_read (bs : Bytes) : (read bs).1 ≠ .error .unfinished := by
  unfold read
  split
  · nofun
  · dsimp only
    split
    · nofun
    · rename_i header _
      have hlength := fault_payloadLength header
      split
      · rename_i f hf
        rw [hf] at hlength
        intro h
        exact hlength (congrArg Except.error (Except.error.inj h))
      · exact fault_readPayload _ _

end Response

namespace Controller

/-- What comes of talking to a controller. Its faults are not for want of steps, and an answer takes
some of the unread bytes. -/
structure Heard {α : Type} (s : Controller) (r : Result α) : Prop where
  fault : r.1 ≠ .error .unfinished
  le : r.2.1.unread.length ≤ s.unread.length
  lt : ∀ a, r.1 = .ok a → r.2.1.unread.length < s.unread.length

section Heard

variable {α β : Type} {s s' : Controller} {w w' : World} {f : Fault} {a : α}

theorem Heard.failed (h : s.Heard ((.error f, s', w) : Result α)) :
    s.Heard ((.error f, s', w') : Result β) := by
  refine ⟨fun hf => h.fault ?_, h.le, nofun⟩
  cases hf
  rfl

theorem Heard.answered (h : s.Heard (.ok a, s', w)) (b : β) : s.Heard (.ok b, s', w') :=
  ⟨nofun, h.le, fun _ _ => h.lt a rfl⟩

/-- An answer that does not do. -/
theorem Heard.rejected (h : s.Heard (.ok a, s', w)) (hf : f ≠ .unfinished) :
    s.Heard ((.error f, s', w') : Result β) :=
  ⟨fun hf' => hf (Except.error.inj hf'), h.le, nofun⟩

theorem Heard.trans {r : Result β} (h : s.Heard (.ok a, s', w)) (h' : s'.Heard r) : s.Heard r :=
  ⟨h'.fault, Nat.le_trans h'.le h.le, fun b hb => Nat.lt_of_lt_of_le (h'.lt b hb) h.le⟩

end Heard

theorem heard_command (cmd : String) (s : Controller) (w : World) : s.Heard (command cmd s w) := by
  have hfault := Response.fault_read s.unread
  have hle := Response.read_snd_le s.unread
  -- an empty stream has no answer, so there was a byte to take
  have hnil : s.unread = [] → (Response.read s.unread).1 = .error (.protocol .closed) := by
    intro h
    rw [h]
    rfl
  unfold command
  generalize Response.read s.unread = x at hfault hle hnil ⊢
  obtain ⟨f | payload, unread⟩ := x
  · refine ⟨fun hf => hfault ?_, Nat.le_trans hle (Nat.sub_le _ _), nofun⟩
    cases hf
    rfl
  · have hlt : unread.length < s.unread.length := by
      have hpos : s.unread.length ≠ 0 := fun h => nomatch hnil (List.length_eq_zero_iff.1 h)
      have hle : unread.length ≤ s.unread.length - 1 := hle
      omega
    exact ⟨nofun, Nat.le_of_lt hlt, fun _ _ => hlt⟩

theorem heard_order (cmd : String) (s : Controller) (w : World) : s.Heard (order cmd s w) := by
  have h := heard_command cmd s w
  unfold order
  generalize s.command cmd w = x at h ⊢
  obtain ⟨f | payload, s', w'⟩ := x
  · exact h.failed
  · exact h.answered ()

theorem heard_number (cmd : String) (s : Controller) (w : World) : s.Heard (number cmd s w) := by
  have h := heard_command cmd s w
  unfold number
  generalize s.command cmd w = x at h ⊢
  obtain ⟨f | payload, s', w'⟩ := x
  · exact h.failed
  · dsimp only
    split
    · exact h.answered _
    · exact h.rejected nofun

theorem heard_simulate (s : Controller) (w : World) : s.Heard (simulate s w) := by
  have h := heard_command "simulate" s w
  unfold simulate
  generalize s.command "simulate" w = x at h ⊢
  obtain ⟨f | payload, s', w'⟩ := x
  · exact h.failed
  · exact h.answered _

/-- **A call** takes some of the unread bytes, if it is answered. -/
theorem heard_answer (c : Call) (s : Controller) (w : World) : s.Heard (answer c s w) := by
  cases c with
  | count counter => exact heard_number _ s w
  | advance counter target =>
    have h := heard_order s!"breakpoint {counter.name} {target}" s w
    simp only [answer]
    generalize s.order s!"breakpoint {counter.name} {target}" w = x at h ⊢
    obtain ⟨f | ack, s', w'⟩ := x
    · exact h.failed
    · exact h.trans (heard_simulate s' w')
  | complete => exact heard_simulate s w
  | checkpoint path => exact heard_order _ s w
  | stats => exact heard_order _ s w
  | dump => exact heard_command _ s w
  | reset => exact heard_order _ s w

theorem tires : engine.Tires fun s => s.unread.length where
  fault c a w := (heard_answer c a w).fault
  le c a w := (heard_answer c a w).le
  lt := by
    intro a b d w w₁ w₂ w₃ k n _ hcount hadvance
    have hlt := (heard_answer (.count .inst) a w).lt k (congrArg Prod.fst hcount)
    have hle := (heard_answer (.advance .inst (k + n)) b w₂).le
    have hb : (answer (.count .inst) a w).2.1 = b := congrArg (·.2.1) hcount
    have hd : (answer (.advance .inst (k + n)) b w₂).2.1 = d := congrArg (·.2.1) hadvance
    rw [hb] at hlt
    rw [hd] at hle
    exact Nat.lt_of_le_of_lt hle hlt

end Controller

/-! ## All of them -/

/-- **Sampling and chunks come to their end** over every kind of engine, in whatever state it is: a
simulated program, wherever it stands and whatever is forced on it; a script with any queues; a
controller with any bytes to read. -/
theorem loops_end (c : SamplingConfig) (c' : ChunkConfig) :
    (∀ s, Ends Simulated.engine (sample c) s ∧ Ends Simulated.engine (chunks c') s) ∧
    (∀ s, Ends Scripted.engine (sample c) s ∧ Ends Scripted.engine (chunks c') s) ∧
    (∀ s, Ends Controller.engine (sample c) s ∧ Ends Controller.engine (chunks c') s) := by
  refine ⟨fun s => ?_, fun s => ?_, fun s => ?_⟩
  · have hb : Simulated.engine.budget s.engine =
        2 * (s.engine.length + s.engine.forced.length) + 4 := rfl
    have hahead : s.engine.ahead ≤ s.engine.length + s.engine.forced.length := by
      unfold Simulated.ahead
      omega
    exact ⟨ends_sample Simulated.tires (by omega) c, ends_chunks Simulated.tires (by omega) c'⟩
  · have hb : Scripted.engine.budget s.engine = 2 * s.engine.counts.length + 4 := rfl
    exact ⟨ends_sample Scripted.tires (by omega) c, ends_chunks Scripted.tires (by omega) c'⟩
  · have hb : Controller.engine.budget s.engine = 2 * s.engine.unread.length + 4 := rfl
    exact ⟨ends_sample Controller.tires (by omega) c, ends_chunks Controller.tires (by omega) c'⟩

end PhaseSampling
