import PhaseSampling.Proofs.Engine.Framing
import PhaseSampling.Proofs.Text.Fields

/-!
# Portions of a stream

Each read takes a portion off a stream of any bytes, and leaves what stands behind it to the next
read, also where it fails.

* `Response.FirstLine`: the line that a stream begins with.
* `Response.Announces`, `Response.Refuses`: what a header asks for, and what is wrong with one that
  asks for nothing. A header does one of both (`Response.announces_or_refuses`).
* `Response.Portion`: the portion that a read takes, what is behind it and what it is read as.
* `Response.exists_portion`, `Response.read_eq_iff`: reads take these portions and no others.
* `stream_in_portions`: **any number of reads** take portions that lie one behind the other.
-/

namespace PhaseSampling

open Text

namespace Response

variable {line taken rest payload bs : Bytes} {header : String} {n : Nat} {f : Fault}

/-! ## First lines -/

/-- `FirstLine line taken rest`: a stream begins with a line, for which some bytes are taken and behind
which others stand. Only at the end of the stream may the newline be missing. -/
inductive FirstLine (line : Bytes) : Bytes → Bytes → Prop where
  | ended (h : 10 ∉ line) (rest : Bytes) : FirstLine line (line ++ [10]) rest
  | last (h : 10 ∉ line) (hne : line ≠ []) : FirstLine line line []

theorem FirstLine.ne_nil (h : FirstLine line taken rest) : taken ≠ [] := by
  cases h with
  | ended => exact List.append_ne_nil_of_right_ne_nil _ (List.cons_ne_nil _ _)
  | last _ hne => exact hne

/-- **A stream has a first line** if there is a byte in it. -/
theorem exists_firstLine (hne : bs ≠ []) :
    ∃ line taken rest, bs = taken ++ rest ∧ FirstLine line taken rest := by
  by_cases hmem : 10 ∈ bs
  · obtain ⟨line, rest, hbs, hline⟩ := List.eq_append_cons_of_mem hmem
    refine ⟨line, line ++ [10], rest, ?_, .ended hline rest⟩
    rw [hbs, List.append_assoc, List.singleton_append]
  · exact ⟨bs, bs, [], (List.append_nil bs).symm, .last hmem hne⟩

/-- What a read makes of a first line. -/
theorem FirstLine.read_eq (h : FirstLine line taken rest) :
    read (taken ++ rest) =
      match Utf8.decode line with
      | .error _ => (.error (.system .lineNotText), rest)
      | .ok header => body header rest := by
  cases h with
  | ended h rest =>
    cases hdec : Utf8.decode line with
    | error f => simp [read, takeLine_append h, hdec]
    | ok header =>
      cases hlen : payloadLength header with
      | error f => simp [read, body, takeLine_append h, hdec, hlen]
      | ok n => simp [read, body, takeLine_append h, hdec, hlen]
  | last h hne =>
    rw [List.append_nil]
    exact read_open_line hne h

theorem FirstLine.read_text (h : FirstLine (Utf8.encode header) taken rest) :
    read (taken ++ rest) = body header rest := by
  rw [h.read_eq, Utf8.decode_encode]

/-! ## Headers -/

/-- A header that asks for a payload: `ok` and a numeral of its length, which is not too large. -/
def Announces (header : String) (n : Nat) : Prop :=
  ∃ len, header = "ok " ++ len ∧ Text.Numeral len.toList n ∧ n ≤ maxLength

/-- **What is wrong with a header** that asks for no payload. -/
inductive Refuses (header : String) : ProtocolFault → Prop where
  | reported {text : String} (h : header = "err " ++ text) : Refuses header (.reported text)
  /-- What should be a length is no numeral of a word. -/
  | badLength {len : String} (h : header = "ok " ++ len)
      (hlen : ∀ n, Text.Numeral len.toList n → wordLimit ≤ n) : Refuses header (.badLength header)
  | oversized {len : String} {n : Nat} (h : header = "ok " ++ len)
      (hlen : Text.Numeral len.toList n) (hlt : n < wordLimit) (hmax : maxLength < n) :
      Refuses header (.oversized n maxLength)
  | badHeader (hok : ∀ len, header ≠ "ok " ++ len) (herr : ∀ text, header ≠ "err " ++ text) :
      Refuses header (.badHeader header)

theorem payloadLength_length (len : String) :
    payloadLength ("ok " ++ len) =
      match readWord? len.toList with
      | none => .error (.protocol (.badLength ("ok " ++ len)))
      | some n => if n > maxLength then .error (.protocol (.oversized n maxLength)) else .ok n := by
  have hlist : "ok " ++ len = String.ofList (['o', 'k', ' '] ++ len.toList) := by
    rw [String.ofList_append, String.ofList_toList]
  rw [hlist]
  exact payloadLength_ok len.toList

theorem payloadLength_of_announces (h : Announces header n) : payloadLength header = .ok n := by
  obtain ⟨len, rfl, hlen, hmax⟩ := h
  have hword : n < wordLimit := Nat.lt_of_le_of_lt hmax maxLength_lt_wordLimit
  rw [payloadLength_length, readWord?_eq_some_iff.2 ⟨hlen, hword⟩]
  exact if_neg (Nat.not_lt.2 hmax)

theorem payloadLength_of_refuses {cause : ProtocolFault} (h : Refuses header cause) :
    payloadLength header = .error (.protocol cause) := by
  cases h with
  | @reported text h =>
    rw [h, payloadLength_report]
  | @badLength len h hlen =>
    have hnone : readWord? len.toList = none := by
      refine Option.eq_none_iff_forall_ne_some.2 fun n hread => ?_
      obtain ⟨hnum, hlt⟩ := readWord?_eq_some_iff.1 hread
      exact absurd (hlen n hnum) (Nat.not_le.2 hlt)
    rw [h, payloadLength_length, hnone]
  | @oversized len n h hlen hlt hmax =>
    rw [h, payloadLength_length, readWord?_eq_some_iff.2 ⟨hlen, hlt⟩]
    exact if_pos hmax
  | badHeader hok herr =>
    rw [payloadLength]
    split
    · rename_i len hsplit
      refine absurd ?_ (hok (String.ofList len))
      rw [← String.toList_inj, eq_append_of_splitOnce hsplit]
      simp
    · rename_i text hsplit
      refine absurd ?_ (herr (String.ofList text))
      rw [← String.toList_inj, eq_append_of_splitOnce hsplit]
      simp
    · rfl

/-- **A header** asks for a payload, or there is something wrong with it. -/
theorem announces_or_refuses (header : String) :
    (∃ n, Announces header n) ∨ ∃ cause, Refuses header cause := by
  by_cases hok : ∃ len, header = "ok " ++ len
  · obtain ⟨len, hlen⟩ := hok
    by_cases hnum : ∃ n, Text.Numeral len.toList n ∧ n < wordLimit
    · obtain ⟨n, hnum, hlt⟩ := hnum
      rcases Nat.lt_or_ge maxLength n with hmax | hmax
      · exact .inr ⟨_, .oversized hlen hnum hlt hmax⟩
      · exact .inl ⟨n, len, hlen, hnum, hmax⟩
    · refine .inr ⟨_, .badLength hlen fun n hn => ?_⟩
      exact Nat.not_lt.1 fun hlt => hnum ⟨n, hn, hlt⟩
  · by_cases herr : ∃ text, header = "err " ++ text
    · obtain ⟨text, htext⟩ := herr
      exact .inr ⟨_, .reported htext⟩
    · exact .inr ⟨_, .badHeader (not_exists.1 hok) (not_exists.1 herr)⟩

/-- A header that asks for a payload is on one line. -/
theorem Announces.newline_notMem (h : Announces header n) : '\n' ∉ header.toList := by
  obtain ⟨len, rfl, ⟨ds, hsign, -, hdigits, -⟩, -⟩ := h
  have hds : '\n' ∉ ds := fun hmem => absurd (hdigits _ hmem) (by decide)
  have hlen : '\n' ∉ len.toList := by
    rcases hsign with hlen | hlen
    · rwa [hlen]
    · rw [hlen]
      exact List.not_mem_cons_of_ne_of_not_mem (by decide) hds
  rw [String.toList_append, List.mem_append]
  rintro (hmem | hmem)
  · exact absurd hmem (by decide)
  · exact hlen hmem

theorem Announces.encode_ne_nil (h : Announces header n) : Utf8.encode header ≠ [] := by
  obtain ⟨more, hmore⟩ := encode_of_payloadLength (payloadLength_of_announces h)
  rw [hmore]
  exact List.cons_ne_nil _ _

/-! ## Portions -/

/-- **The portion of a stream that a read takes**, what stands behind it, and what it is read as. -/
inductive Portion : Bytes → Bytes → Except Fault String → Prop where
  /-- At the end of a stream nothing is taken. -/
  | closed : Portion [] [] (.error (.protocol .closed))
  | payload {header text : String} (hn : Announces header (Utf8.encode text).length)
      (rest : Bytes) : Portion (Utf8.encode header ++ 10 :: Utf8.encode text) rest (.ok text)
  /-- The header of an empty payload, at the end of a stream. -/
  | bare {header : String} (hn : Announces header 0) : Portion (Utf8.encode header) [] (.ok "")
  | lineNotText {line taken rest : Bytes} (hl : FirstLine line taken rest)
      (ht : ∀ s, line ≠ Utf8.encode s) : Portion taken rest (.error (.system .lineNotText))
  | refused {header : String} {cause : ProtocolFault} {taken rest : Bytes}
      (hl : FirstLine (Utf8.encode header) taken rest) (hc : Refuses header cause) :
      Portion taken rest (.error (.protocol cause))
  /-- What is there of a payload that is cut short is taken with its header. -/
  | cut {header : String} {n : Nat} {taken rest : Bytes}
      (hl : FirstLine (Utf8.encode header) taken rest) (hn : Announces header n)
      (hlt : rest.length < n) : Portion (taken ++ rest) [] (.error (.system .payloadCut))
  | payloadNotText {header : String} {payload : Bytes} (hn : Announces header payload.length)
      (ht : ∀ s, payload ≠ Utf8.encode s) (rest : Bytes) :
      Portion (Utf8.encode header ++ 10 :: payload) rest
        (.error (.encoding (Utf8.firstFault payload)))

theorem decode_of_notText (h : ∀ s, payload ≠ Utf8.encode s) :
    Utf8.decode payload = .error (Utf8.firstFault payload) := by
  have hno : ∀ s, Utf8.decode payload ≠ .ok s := fun s hs => h s (Utf8.eq_encode_of_decode hs)
  unfold Utf8.decode at hno ⊢
  split
  · rename_i s hs
    rw [hs] at hno
    exact absurd rfl (hno s)
  · rfl

/-- A payload that is all there is read as its text, if it is text. -/
theorem readPayload_append (payload rest : Bytes) :
    readPayload payload.length (payload ++ rest) =
      match Utf8.decode payload with
      | .ok s => (.ok s, rest)
      | .error f => (.error (.encoding f), rest) := by
  cases hdec : Utf8.decode payload with
  | error f => simp [readPayload, hdec]
  | ok s => simp [readPayload, hdec]

/-- **Reads take portions.** -/
theorem Portion.read_eq {r : Except Fault String} (h : Portion taken rest r) :
    read (taken ++ rest) = (r, rest) := by
  cases h with
  | closed => rfl
  | payload hn rest =>
    rw [List.append_assoc, List.cons_append, read_line hn.newline_notMem,
      body_of_ok (payloadLength_of_announces hn), readPayload_encode]
  | bare hn =>
    have hl : FirstLine (Utf8.encode _) _ [] :=
      .last (notMem_encode hn.newline_notMem) hn.encode_ne_nil
    rw [hl.read_text, body_of_ok (payloadLength_of_announces hn)]
    rfl
  | lineNotText hl ht =>
    rw [hl.read_eq, decode_of_notText ht]
  | refused hl hc =>
    rw [hl.read_text, body_of_error (payloadLength_of_refuses hc)]
  | cut hl hn hlt =>
    rw [List.append_nil, hl.read_text, body_of_ok (payloadLength_of_announces hn),
      readPayload_of_lt hlt]
  | payloadNotText hn ht rest =>
    rw [List.append_assoc, List.cons_append, read_line hn.newline_notMem,
      body_of_ok (payloadLength_of_announces hn), readPayload_append, decode_of_notText ht]

/-- Behind a header that asks for a payload, the payload is all there or cut short. -/
theorem FirstLine.exists_portion (hl : FirstLine (Utf8.encode header) taken rest)
    (hn : Announces header n) :
    ∃ taken' rest' r, taken ++ rest = taken' ++ rest' ∧ Portion taken' rest' r := by
  rcases Nat.lt_or_ge rest.length n with hlt | hge
  · exact ⟨taken ++ rest, [], _, (List.append_nil _).symm, .cut hl hn hlt⟩
  cases hl with
  -- behind a newline there are bytes enough, and it only matters if they are text
  | ended hline rest =>
    have hlen : (rest.take n).length = n := List.length_take_of_le hge
    have hsplit : Utf8.encode header ++ [10] ++ rest =
        Utf8.encode header ++ 10 :: rest.take n ++ rest.drop n := by simp
    by_cases htext : ∃ text, rest.take n = Utf8.encode text
    · obtain ⟨text, htext⟩ := htext
      rw [htext] at hlen hsplit
      exact ⟨_, _, _, hsplit, .payload (by rwa [hlen]) _⟩
    · exact ⟨_, _, _, hsplit, .payloadNotText (by rwa [hlen]) (not_exists.1 htext) _⟩
  | last hline hne =>
    have hzero : n = 0 := Nat.le_zero.1 hge
    rw [hzero] at hn
    exact ⟨_, _, _, rfl, .bare hn⟩

/-- **There is a portion to take** from any stream. -/
theorem exists_portion (bs : Bytes) :
    ∃ taken rest r, bs = taken ++ rest ∧ Portion taken rest r := by
  by_cases hne : bs = []
  · exact ⟨[], [], _, hne, .closed⟩
  obtain ⟨line, taken, rest, rfl, hl⟩ := exists_firstLine hne
  by_cases htext : ∃ header, line = Utf8.encode header
  · obtain ⟨header, rfl⟩ := htext
    rcases announces_or_refuses header with ⟨n, hn⟩ | ⟨cause, hc⟩
    · exact hl.exists_portion hn
    · exact ⟨taken, rest, _, rfl, .refused hl hc⟩
  · exact ⟨taken, rest, _, rfl, .lineNotText hl (not_exists.1 htext)⟩

theorem read_eq_iff {r : Except Fault String} :
    read bs = (r, rest) ↔ ∃ taken, bs = taken ++ rest ∧ Portion taken rest r := by
  constructor
  · intro h
    obtain ⟨taken, rest', r', hbs, hp⟩ := exists_portion bs
    have hread := hp.read_eq
    rw [← hbs, h] at hread
    cases hread
    exact ⟨taken, hbs, hp⟩
  · rintro ⟨taken, rfl, hp⟩
    exact hp.read_eq

/-- A portion has a byte at least, unless the stream has none. -/
theorem Portion.ne_nil {r : Except Fault String} (h : Portion taken rest r)
    (hne : taken ++ rest ≠ []) : taken ≠ [] := by
  cases h with
  | closed => exact absurd rfl hne
  | payload hn rest => exact List.append_ne_nil_of_left_ne_nil hn.encode_ne_nil _
  | bare hn => exact hn.encode_ne_nil
  | lineNotText hl ht => exact hl.ne_nil
  | refused hl hc => exact hl.ne_nil
  | cut hl hn hlt => exact List.append_ne_nil_of_left_ne_nil hl.ne_nil _
  | payloadNotText hn ht rest => exact List.append_ne_nil_of_left_ne_nil hn.encode_ne_nil _

/-! ## Any number of reads -/

/-- `Portions bs ps rest`: a stream begins with portions that lie one behind the other, each of them
given with what it is read as. Behind them stands the rest. -/
inductive Portions : Bytes → List (Bytes × Except Fault String) → Bytes → Prop where
  | nil (bs : Bytes) : Portions bs [] bs
  | cons {taken bs rest : Bytes} {r : Except Fault String} {ps : List (Bytes × Except Fault String)}
      (h : Portion taken bs r) (t : Portions bs ps rest) :
      Portions (taken ++ bs) ((taken, r) :: ps) rest

/-- Nothing is left out between portions, and nothing is read twice. -/
theorem Portions.eq_append {ps : List (Bytes × Except Fault String)} (h : Portions bs ps rest) :
    bs = (ps.map Prod.fst).flatten ++ rest := by
  induction h with
  | nil bs => rfl
  | @cons taken bs rest r ps h t ih =>
    rw [List.map_cons, List.flatten_cons, List.append_assoc, ← ih]

/-- **Reads that follow each other** take portions that do. -/
theorem portions_readMany (n : Nat) (bs : Bytes) :
    ∃ ps, ps.length = n ∧ (readMany n bs).1 = ps.map Prod.snd ∧
      Portions bs ps (readMany n bs).2 := by
  induction n generalizing bs with
  | zero => exact ⟨[], rfl, rfl, .nil bs⟩
  | succ n ih =>
    obtain ⟨taken, hbs, hp⟩ := read_eq_iff.1 (Prod.eta (read bs)).symm
    obtain ⟨ps, hlen, hrs, hps⟩ := ih (read bs).2
    refine ⟨(taken, (read bs).1) :: ps, ?_, ?_, ?_⟩
    · rw [List.length_cons, hlen]
    · rw [readMany, List.map_cons, ← hrs]
    · have hcons := Portions.cons hp hps
      rwa [← hbs] at hcons

end Response

open Response

/-- **A stream is read in portions.** Whatever its bytes are, a read takes the portion that the first
line asks for and leaves what stands behind it. This is a byte at least, unless there is none. Any
number of reads, after whatever faults, take portions that lie one behind the other and leave nothing
out. -/
theorem stream_in_portions (bs : Bytes) :
    (∀ r rest, read bs = (r, rest) ↔ ∃ taken, bs = taken ++ rest ∧ Portion taken rest r) ∧
    ((read bs).2.length < bs.length ↔ bs ≠ []) ∧
    ∀ n, ∃ ps rest, ps.length = n ∧ readMany n bs = (ps.map Prod.snd, rest) ∧
      Portions bs ps rest ∧ bs = (ps.map Prod.fst).flatten ++ rest := by
  refine ⟨fun r rest => read_eq_iff, ?_, fun n => ?_⟩
  · obtain ⟨taken, hbs, hp⟩ := read_eq_iff.1 (Prod.eta (read bs)).symm
    have hlen := congrArg List.length hbs
    rw [List.length_append] at hlen
    constructor
    · rintro hlt rfl
      exact Nat.not_lt_zero _ hlt
    · intro hne
      have hpos := List.length_pos_iff.2 (hp.ne_nil (hbs ▸ hne))
      omega
  · obtain ⟨ps, hlen, hrs, hps⟩ := portions_readMany n bs
    exact ⟨ps, (readMany n bs).2, hlen, Prod.ext hrs rfl, hps, hps.eq_append⟩

/-- Reading goes on behind a fault. -/
example : readMany 6 (Utf8.encode "ok +002\nabok  1\nerr busy\nok 1\r\nOK 1\nok 9\nabc") =
    ([.ok "ab", .error (.protocol (.badLength "ok  1")), .error (.protocol (.reported "busy")),
      .error (.protocol (.badLength "ok 1\r")), .error (.protocol (.badHeader "OK 1")),
      .error (.system .payloadCut)], []) := by rfl

end PhaseSampling
