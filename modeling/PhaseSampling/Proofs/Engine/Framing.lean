import PhaseSampling.Engine.Response
import PhaseSampling.Proofs.Text.Octets

/-!
# Framing of responses

A `Response` is what a controller says at once: a payload, or the report of an error. The lengths in
front of the payloads let a stream of responses be read one by one.

* `Response.read_bytes`: a response is read back, and what stands behind it is left.
* `Response.read_take`: a response that is cut short is not read as another payload.
* `read_stream`: both, for streams of any number of responses and cuts at any byte.
-/

namespace PhaseSampling

open Text

/-- What a controller says in answer to a command. -/
inductive Response where
  | payload (text : String)
  | report (text : String)
  deriving DecidableEq, Repr

namespace Response

/-- Payloads are of a limited length, and reports are on one line. -/
def Valid : Response → Prop
  | payload text => (Utf8.encode text).length ≤ maxLength
  | report text => '\n' ∉ text.toList

instance : (r : Response) → Decidable r.Valid
  | payload _ => Nat.decLe _ _
  | report text => inferInstanceAs (Decidable ('\n' ∉ text.toList))

/-- A response on its way. -/
def bytes : Response → Bytes
  | payload text => frame text
  | report text => errorFrame text

/-- What a response is read as. -/
def reading : Response → Except Fault String
  | payload text => .ok text
  | report text => .error (.protocol (.reported text))

/-- Responses one after the other. -/
def stream (rs : List Response) : Bytes := rs.flatMap bytes

/-- Reads `n` responses, and gives what is left. -/
def readMany : Nat → Bytes → List (Except Fault String) × Bytes
  | 0, bs => ([], bs)
  | n + 1, bs =>
    let (r, rest) := read bs
    let (rs, rest) := readMany n rest
    (r :: rs, rest)

/-! ## Lines -/

theorem takeLine_append {line : Bytes} (h : 10 ∉ line) (rest : Bytes) :
    takeLine (line ++ 10 :: rest) = (line, rest) := by
  induction line with
  | nil => rfl
  | cons b line ih =>
    obtain ⟨hb, hl⟩ := not_or.1 (mt List.mem_cons.2 h)
    rw [List.cons_append, takeLine, if_neg (Ne.symm hb), ih hl]
    rfl

/-- The last line of a stream need not be ended. -/
theorem takeLine_of_notMem {line : Bytes} (h : 10 ∉ line) : takeLine line = (line, []) := by
  induction line with
  | nil => rfl
  | cons b line ih =>
    obtain ⟨hb, hl⟩ := not_or.1 (mt List.mem_cons.2 h)
    rw [takeLine, if_neg (Ne.symm hb), ih hl]
    rfl

theorem notMem_encode {s : String} (h : '\n' ∉ s.toList) : 10 ∉ Utf8.encode s :=
  mt (Utf8.mem_encode_iff s (a := '\n') (by decide)).1 h

/-- What follows a header: the payload that it asks for. -/
def body (header : String) (rest : Bytes) : Except Fault String × Bytes :=
  match payloadLength header with
  | .error f => (.error f, rest)
  | .ok n => readPayload n rest

theorem body_of_ok {header : String} {n : Nat} (h : payloadLength header = .ok n) (rest : Bytes) :
    body header rest = readPayload n rest := by
  rw [body, h]

theorem body_of_error {header : String} {f : Fault} (h : payloadLength header = .error f)
    (rest : Bytes) : body header rest = (.error f, rest) := by
  rw [body, h]

theorem read_line {header : String} (h : '\n' ∉ header.toList) (rest : Bytes) :
    read (Utf8.encode header ++ 10 :: rest) = body header rest := by
  have hne : (Utf8.encode header ++ 10 :: rest).isEmpty = false := by simp
  rw [read, hne, takeLine_append (notMem_encode h)]
  simp only [Bool.false_eq_true, if_false, Utf8.decode_encode]
  rfl

/-- A stream that ends within a header. -/
theorem read_open_line {line : Bytes} (hne : line ≠ []) (h : 10 ∉ line) :
    read line =
      match Utf8.decode line with
      | .error _ => (.error (.system .lineNotText), [])
      | .ok header => body header [] := by
  have hne : line.isEmpty = false := by simpa using hne
  rw [read, hne, takeLine_of_notMem h]
  rfl

/-! ## Payloads -/

/-- The header of a payload. -/
def header (text : String) : String := s!"ok {(Utf8.encode text).length}"

theorem header_eq (text : String) :
    header text =
      String.ofList (['o', 'k', ' '] ++ Nat.toDigits 10 (Utf8.encode text).length) := by
  have hok : "ok " = String.ofList ['o', 'k', ' '] := rfl
  rw [String.ofList_append, ← hok, ← Nat.toString_eq_ofList_toDigits]
  rfl

theorem frame_eq (text : String) :
    frame text = Utf8.encode (header text) ++ 10 :: Utf8.encode text := by
  have h : s!"ok {(Utf8.encode text).length}\n" = header text ++ "\n" := rfl
  have hn : Utf8.encode "\n" = [10] := by decide
  rw [frame, h, Utf8.encode_append, hn, List.append_assoc, List.singleton_append]

theorem mem_header {text : String} {c : Char} (h : c ∈ (header text).toList) :
    c = 'o' ∨ c = 'k' ∨ c = ' ' ∨ c.isDigit = true := by
  rw [header_eq, String.toList_ofList] at h
  simp only [List.cons_append, List.nil_append, List.mem_cons] at h
  rcases h with h | h | h | h
  · exact .inl h
  · exact .inr (.inl h)
  · exact .inr (.inr (.inl h))
  · exact .inr (.inr (.inr (Text.isDigit_of_mem_toDigits h)))

theorem newline_notMem_header (text : String) : '\n' ∉ (header text).toList := by
  intro h
  rcases mem_header h with h | h | h | h <;> exact absurd h (by decide)

theorem payloadLength_ok (ds : List Char) :
    payloadLength (String.ofList (['o', 'k', ' '] ++ ds)) =
      match readWord? ds with
      | none => .error (.protocol (.badLength (String.ofList (['o', 'k', ' '] ++ ds))))
      | some n => if n > maxLength then .error (.protocol (.oversized n maxLength)) else .ok n := by
  have hsplit : splitOnce ' ' (['o', 'k', ' '] ++ ds) = some (['o', 'k'], ds) :=
    splitOnce_append_cons (show ' ' ∉ ['o', 'k'] by decide) ds
  rw [payloadLength, String.toList_ofList, hsplit]
  rfl

theorem maxLength_lt_wordLimit : maxLength < wordLimit := by decide

theorem payloadLength_header {text : String} (h : (payload text).Valid) :
    payloadLength (header text) = .ok (Utf8.encode text).length := by
  have hword : (Utf8.encode text).length < wordLimit := Nat.lt_of_le_of_lt h maxLength_lt_wordLimit
  rw [header_eq, payloadLength_ok, readWord?_toDigits hword]
  exact if_neg (Nat.not_lt.2 h)

theorem readPayload_encode (text : String) (rest : Bytes) :
    readPayload (Utf8.encode text).length (Utf8.encode text ++ rest) = (.ok text, rest) := by
  rw [readPayload, List.take_left, List.drop_left]
  simp [Utf8.decode_encode]

/-- A payload of which some is missing takes all there is. -/
theorem readPayload_of_lt {n : Nat} {bs : Bytes} (h : bs.length < n) :
    readPayload n bs = (.error (.system .payloadCut), []) := by
  rw [readPayload, List.take_of_length_le (Nat.le_of_lt h)]
  exact if_pos h

/-! ## Reports -/

theorem errorFrame_eq (text : String) :
    errorFrame text = Utf8.encode ("err " ++ text) ++ [10] := by
  have h : s!"err {text}\n" = "err " ++ text ++ "\n" := rfl
  have hn : Utf8.encode "\n" = [10] := by decide
  rw [errorFrame, h, Utf8.encode_append, hn]

theorem payloadLength_report (text : String) :
    payloadLength ("err " ++ text) = .error (.protocol (.reported text)) := by
  have hsplit : splitOnce ' ' ("err " ++ text).toList = some (['e', 'r', 'r'], text.toList) := by
    rw [String.toList_append]
    exact splitOnce_append_cons (show ' ' ∉ ['e', 'r', 'r'] by decide) text.toList
  rw [payloadLength, hsplit]
  simp

theorem newline_notMem_report {text : String} (h : (report text).Valid) :
    '\n' ∉ ("err " ++ text).toList := by
  rw [String.toList_append, List.mem_append]
  rintro (hm | hm)
  · exact absurd hm (by decide)
  · exact h hm

/-! ## Whole responses -/

/-- **A response is read back**, and what stands behind it is left. -/
theorem read_bytes {r : Response} (h : r.Valid) (rest : Bytes) :
    read (r.bytes ++ rest) = (r.reading, rest) := by
  cases r with
  | payload text =>
    rw [bytes, frame_eq, List.append_assoc, List.cons_append,
      read_line (newline_notMem_header text), body_of_ok (payloadLength_header h)]
    exact readPayload_encode text rest
  | report text =>
    rw [bytes, errorFrame_eq, List.append_assoc, List.singleton_append,
      read_line (newline_notMem_report h), body_of_error (payloadLength_report text)]
    rfl

/-! ## Responses that are cut short -/

/-- The header of an empty payload does not need its newline. -/
theorem read_bare : read (Utf8.encode "ok 0") = (.ok "", []) := by
  have hne : Utf8.encode "ok 0" ≠ [] := by decide
  have hline : 10 ∉ Utf8.encode "ok 0" := by decide
  rw [read_open_line hne hline, Utf8.decode_encode]
  rfl

/-- A header that breaks off before its length. -/
theorem payloadLength_of_notMem {hd : String} (h : ' ' ∉ hd.toList) :
    payloadLength hd = .error (.protocol (.badHeader hd)) := by
  rw [payloadLength, splitOnce_of_notMem h]

/-- Behind a header that breaks off there is no payload. So it is read without fault only if it
asks for none, and then it is that of the empty payload. -/
theorem body_take_header (text : String) (k : Nat) :
    (text = "" ∧ (header text).toList.take k = "ok 0".toList) ∨
      ∃ f, (body (String.ofList ((header text).toList.take k)) []).1 = .error f := by
  rw [header_eq, String.toList_ofList]
  generalize hn : (Utf8.encode text).length = n
  rcases Nat.lt_or_ge k 3 with hk | hk
  -- the space is not there yet
  · have hspace : ' ' ∉ (String.ofList ((['o', 'k', ' '] ++ Nat.toDigits 10 n).take k)).toList := by
      rw [String.toList_ofList]
      have hcases : k = 0 ∨ k = 1 ∨ k = 2 := by omega
      rcases hcases with rfl | rfl | rfl <;> simp
    exact .inr ⟨_, by rw [body_of_error (payloadLength_of_notMem hspace)]⟩
  -- the length has some of its digits
  obtain ⟨j, rfl⟩ := Nat.exists_eq_add_of_le hk
  have htake : (['o', 'k', ' '] ++ Nat.toDigits 10 n).take (3 + j) =
      ['o', 'k', ' '] ++ (Nat.toDigits 10 n).take j := by
    have hlen : 3 = ['o', 'k', ' '].length := rfl
    rw [hlen, List.take_length_add_append]
  rw [htake, body, payloadLength_ok]
  cases hread : readWord? ((Nat.toDigits 10 n).take j) with
  | none => exact .inr ⟨_, rfl⟩
  | some m =>
    rcases Nat.lt_or_ge maxLength m with hm | hm
    · exact .inr ⟨.protocol (.oversized m maxLength), by simp [hm]⟩
    simp only [Nat.not_lt.2 hm, if_false]
    rcases Nat.eq_zero_or_pos m with rfl | hpos
    · have hzero : n = 0 := by
        refine Nat.eq_zero_of_not_pos fun hpos => ?_
        exact readWord?_take_toDigits hpos hread
      subst hzero
      have htext : text = "" := String.utf8ByteSize_eq_zero_iff.1 hn
      have hj : j ≠ 0 := by
        rintro rfl
        cases hread
      obtain ⟨i, rfl⟩ := Nat.exists_eq_succ_of_ne_zero hj
      exact .inl ⟨htext, by simp⟩
    · exact .inr ⟨_, by rw [readPayload_of_lt hpos]⟩

theorem isAscii_header {text : String} {c : Char} (h : c ∈ (header text).toList) :
    c.toNat < 128 := by
  rcases mem_header h with rfl | rfl | rfl | h
  · decide
  · decide
  · decide
  · exact toNat_lt_of_isDigit h

/-- A payload that is cut short. -/
theorem read_take_payload {text : String} (h : (payload text).Valid) {k : Nat}
    (hk : k < (frame text).length) :
    (text = "" ∧ (frame text).take k = Utf8.encode "ok 0") ∨
      ∃ f, (read ((frame text).take k)).1 = .error f := by
  have hascii : ∀ c ∈ (header text).toList, c.toNat < 128 := fun c hc => isAscii_header hc
  rw [frame_eq] at hk ⊢
  rcases Nat.lt_or_ge (Utf8.encode (header text)).length k with hlt | hle
  -- within the payload: its header promises more than there is
  · obtain ⟨j, rfl⟩ := Nat.exists_eq_add_of_lt hlt
    have htake : (Utf8.encode (header text) ++ 10 :: Utf8.encode text).take
        ((Utf8.encode (header text)).length + j + 1) =
          Utf8.encode (header text) ++ 10 :: (Utf8.encode text).take j := by
      rw [Nat.add_assoc, List.take_length_add_append, List.take_succ_cons]
    have hshort : ((Utf8.encode text).take j).length < (Utf8.encode text).length := by
      simp only [List.length_append, List.length_cons] at hk
      rw [List.length_take]
      omega
    rw [htake, read_line (newline_notMem_header text), body_of_ok (payloadLength_header h),
      readPayload_of_lt hshort]
    exact .inr ⟨_, rfl⟩
  -- within the header, which is ASCII and can be cut between any two bytes
  · have htake : (Utf8.encode (header text) ++ 10 :: Utf8.encode text).take k =
        Utf8.encode (String.ofList ((header text).toList.take k)) := by
      have hcut := Utf8.take_encode_ascii hascii k
      rw [String.ofList_toList] at hcut
      rw [List.take_append_of_le_length hle, hcut]
    rw [htake]
    rcases Nat.eq_zero_or_pos k with rfl | hpos
    · exact .inr ⟨_, rfl⟩
    have hne : Utf8.encode (String.ofList ((header text).toList.take k)) ≠ [] := by
      rw [← htake]
      exact List.ne_nil_of_length_pos (by rw [List.length_take]; omega)
    have hline : 10 ∉ Utf8.encode (String.ofList ((header text).toList.take k)) := by
      refine notMem_encode ?_
      rw [String.toList_ofList]
      exact fun hm => newline_notMem_header text (List.mem_of_mem_take hm)
    rw [read_open_line hne hline, Utf8.decode_encode]
    rcases body_take_header text k with ⟨htext, hbare⟩ | hfault
    · exact .inl ⟨htext, by rw [hbare]; rfl⟩
    · exact .inr hfault

/-- The header of a payload begins with an `o`. -/
theorem encode_of_payloadLength {hd : String} {n : Nat} (h : payloadLength hd = .ok n) :
    ∃ more, Utf8.encode hd = 111 :: more := by
  rw [payloadLength] at h
  split at h
  · rename_i len hsplit
    have hcs := eq_append_of_splitOnce hsplit
    exact ⟨_, by rw [Utf8.encode_eq_flatMap, hcs]; rfl⟩
  · cases h
  · cases h

/-- A report that is cut short is no payload, since its first letter is not that of one. -/
theorem read_take_report {text : String} (h : (report text).Valid) {k : Nat}
    (hk : k < (errorFrame text).length) :
    ∃ f, (read ((errorFrame text).take k)).1 = .error f := by
  rw [errorFrame_eq, List.length_append, List.length_singleton] at hk
  rw [errorFrame_eq, List.take_append_of_le_length (Nat.le_of_lt_succ hk)]
  rcases Nat.eq_zero_or_pos k with rfl | hpos
  · exact ⟨_, rfl⟩
  obtain ⟨j, rfl⟩ := Nat.exists_eq_succ_of_ne_zero (Nat.ne_of_gt hpos)
  obtain ⟨rest, hrest⟩ : ∃ rest, Utf8.encode ("err " ++ text) = 101 :: rest :=
    ⟨_, by rw [Utf8.encode_append]; rfl⟩
  have hline : 10 ∉ (Utf8.encode ("err " ++ text)).take (j + 1) :=
    mt List.mem_of_mem_take (notMem_encode (newline_notMem_report h))
  rw [hrest] at hline ⊢
  rw [List.take_succ_cons] at hline ⊢
  rw [read_open_line (List.cons_ne_nil _ _) hline]
  split
  · exact ⟨_, rfl⟩
  · rename_i hd hdec
    have hbytes := Utf8.eq_encode_of_decode hdec
    cases hlen : payloadLength hd with
    | error f => exact ⟨f, by rw [body_of_error hlen]⟩
    | ok n =>
      obtain ⟨more, ho⟩ := encode_of_payloadLength hlen
      rw [ho] at hbytes
      exact absurd (List.cons.inj hbytes).1 (by decide)

/-- **A response that is cut short** is not read as another payload. It is a fault, save the empty
payload whose header lacks just its newline. -/
theorem read_take {r : Response} (h : r.Valid) {k : Nat} (hk : k < r.bytes.length) :
    (r = .payload "" ∧ r.bytes.take k = Utf8.encode "ok 0") ∨
      ∃ f, (read (r.bytes.take k)).1 = .error f := by
  cases r with
  | payload text =>
    rcases read_take_payload h hk with ⟨rfl, hbare⟩ | hfault
    · exact .inl ⟨rfl, hbare⟩
    · exact .inr hfault
  | report text => exact .inr (read_take_report h hk)

/-! ## Streams -/

theorem stream_append (rs rs' : List Response) : stream (rs ++ rs') = stream rs ++ stream rs' :=
  List.flatMap_append

theorem stream_cons (r : Response) (rs : List Response) : stream (r :: rs) = r.bytes ++ stream rs :=
  List.flatMap_cons

/-- **Responses are read back in order**, and what stands behind them is left. -/
theorem readMany_stream {rs : List Response} (h : ∀ r ∈ rs, r.Valid) (rest : Bytes) :
    readMany rs.length (stream rs ++ rest) = (rs.map reading, rest) := by
  induction rs with
  | nil => rfl
  | cons r rs ih =>
    have hr := read_bytes (h r (List.mem_cons_self ..)) (stream rs ++ rest)
    have hrs := ih fun r hr => h r (List.mem_cons_of_mem _ hr)
    rw [stream_cons, List.append_assoc, List.length_cons, readMany, hr]
    simp only [hrs, List.map_cons]

theorem readMany_add (m n : Nat) (bs : Bytes) :
    readMany (m + n) bs =
      ((readMany m bs).1 ++ (readMany n (readMany m bs).2).1, (readMany n (readMany m bs).2).2) := by
  induction m generalizing bs with
  | zero => simp [readMany]
  | succ m ih =>
    rw [Nat.succ_add, readMany, readMany]
    simp only [ih, List.cons_append]

/-- Every byte of a stream belongs to one of its responses. -/
theorem exists_cut {rs : List Response} {k : Nat} (hk : k < (stream rs).length) :
    ∃ done r later, rs = done ++ r :: later ∧ (stream done).length ≤ k ∧
      k < (stream (done ++ [r])).length := by
  induction rs generalizing k with
  | nil => exact absurd hk (Nat.not_lt_zero k)
  | cons r rs ih =>
    rw [stream_cons, List.length_append] at hk
    rcases Nat.lt_or_ge k r.bytes.length with hlt | hge
    · refine ⟨[], r, rs, rfl, Nat.zero_le _, ?_⟩
      simpa [stream] using hlt
    · obtain ⟨done, r', later, rfl, hle, hlt⟩ := ih (k := k - r.bytes.length) (by omega)
      refine ⟨r :: done, r', later, rfl, ?_, ?_⟩
      · rw [stream_cons, List.length_append]
        omega
      · rw [List.cons_append, stream_cons, List.length_append]
        omega

/-- What is left of a stream that breaks off within a response. -/
theorem take_stream {done later : List Response} {r : Response} {k : Nat}
    (hle : (stream done).length ≤ k) (hlt : k < (stream (done ++ [r])).length) :
    (stream (done ++ r :: later)).take k =
      stream done ++ r.bytes.take (k - (stream done).length) := by
  have hsingle : stream [r] = r.bytes := by simp [stream]
  rw [stream_append, hsingle, List.length_append] at hlt
  rw [stream_append, stream_cons, List.take_append, List.take_of_length_le hle,
    List.take_append_of_le_length (by omega)]

end Response

open Response

/-- **Framing keeps responses apart.** From a stream of valid responses these very responses are
read, and then that the stream is closed. Where the stream breaks off within a response, all
responses before it are read as they are. The broken one is a fault, with a single exception: of an
empty payload only the newline may be missing, and it is still read as empty. -/
theorem read_stream {rs : List Response} (h : ∀ r ∈ rs, r.Valid) :
    readMany (rs.length + 1) (stream rs) =
        (rs.map reading ++ [.error (.protocol .closed)], []) ∧
      ∀ k < (stream rs).length, ∃ done r later rest,
        rs = done ++ r :: later ∧ (stream done).length ≤ k ∧
        k < (stream (done ++ [r])).length ∧ (stream rs).take k = stream done ++ rest ∧
        readMany done.length ((stream rs).take k) = (done.map reading, rest) ∧
        if r = .payload "" ∧ rest = Utf8.encode "ok 0" then read rest = (.ok "", [])
        else ∃ f, (read rest).1 = .error f := by
  constructor
  · have hall := readMany_stream h []
    rw [List.append_nil] at hall
    rw [readMany_add, hall]
    rfl
  intro k hk
  obtain ⟨done, r, later, rfl, hle, hlt⟩ := exists_cut hk
  have hdone : ∀ r ∈ done, r.Valid := fun r hr => h r (List.mem_append_left _ hr)
  have hcut : k - (stream done).length < r.bytes.length := by
    have hsingle : stream [r] = r.bytes := by simp [stream]
    rw [stream_append, hsingle, List.length_append] at hlt
    omega
  refine ⟨done, r, later, _, rfl, hle, hlt, take_stream hle hlt, ?_, ?_⟩
  · rw [take_stream hle hlt]
    exact readMany_stream hdone _
  split
  · rename_i hbare
    rw [hbare.2]
    exact read_bare
  · rename_i hbare
    exact (read_take (h r (by simp)) hcut).resolve_left hbare

/-- A payload with newlines and what looks like a header, a report, and an empty payload. -/
theorem read_stream_three :
    (∀ r ∈ [payload "a\nok 1\nb", report "no such counter", payload ""], r.Valid) ∧
      readMany 4 (Utf8.encode "ok 8\na\nok 1\nberr no such counter\nok 0\n") =
        ([.ok "a\nok 1\nb", .error (.protocol (.reported "no such counter")), .ok "",
          .error (.protocol .closed)], []) := by
  have hvalid : ∀ r ∈ [payload "a\nok 1\nb", report "no such counter", payload ""], r.Valid := by
    decide
  have hstream : Utf8.encode "ok 8\na\nok 1\nberr no such counter\nok 0\n" =
      stream [payload "a\nok 1\nb", report "no such counter", payload ""] := by decide
  rw [hstream]
  exact ⟨hvalid, (read_stream hvalid).1⟩

end PhaseSampling
