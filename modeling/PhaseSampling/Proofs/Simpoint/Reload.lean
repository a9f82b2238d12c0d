import PhaseSampling.Proofs.FileTree.Entry
import PhaseSampling.Proofs.Replay.Timeline
import PhaseSampling.Proofs.Simpoint.Names
import PhaseSampling.Proofs.Text.Symbols

/-!
# Loading a file again

Many files hold the same simpoints. `simpoints_reload` is about two ways from one to another: the
list that was loaded is written and loaded, and a name that is a number is put in quotes. Neither
changes the simpoints, so neither changes whether they can be replayed.

* `parse_write`: the list as it is written.
* `NameText`: the bytes of a name in a file; `NameText.quote` puts them in quotes.
-/

namespace PhaseSampling.Simpoint

open Json Text
open Text.Utf8 (encode symbols)

/-! ## Numbers as names -/

/-- A number is read as a word, a string from its quotes on. -/
theorem spelling_of_readName {u w : Symbols} {name : String} (hu : skipBlank u = u)
    (h : readName u = .ok (name, w)) :
    (∃ n : Nat, name = toString n ∧ u = (toString n).toList.map some ++ w) ∨
      ∃ q, u = some '"' :: q ∧ readString q = .ok (name, w) := by
  rcases readName_eq_ok_iff.1 h with ⟨q, hq, hread⟩ | ⟨c, q, n, hq, -, hread, hname⟩
  · exact .inr ⟨q, hu.symm.trans hq, hread⟩
  · refine .inl ⟨n, hname, ?_⟩
    rw [Nat.toString_eq_repr, Nat.toList_repr, ← eq_toDigits_of_readNumber hread, ← hq, hu]

theorem skipBlank_toString (n : Nat) (w : Symbols) :
    skipBlank ((toString n).toList.map some ++ w) = (toString n).toList.map some ++ w := by
  rcases hd : (toString n).toList with _ | ⟨c, cs⟩
  · simp at hd
  · have hc : c.isDigit := isDigit_of_mem_numeral (n := n) (by rw [hd]; simp)
    exact skipBlank_cons (not_blank_of_numeral (.inr hc)) _

/-- Digits stand for themselves in a string. -/
theorem quoted_toString (n : Nat) : quoted (toString n) = ("\"" ++ toString n ++ "\"").toList := by
  have table : ∀ d < 10, Json.escape (Nat.digitChar d) = [Nat.digitChar d] := by decide
  have plain : ∀ c ∈ (toString n).toList, Json.escape c = [c] := by
    intro c hc
    obtain ⟨d, hlt, rfl, -⟩ := exists_digitChar_eq (isDigit_of_mem_numeral hc)
    exact table d hlt
  have hescape : (toString n).toList.flatMap Json.escape = (toString n).toList := by
    rw [List.flatMap_congr plain, List.flatMap_singleton']
  rw [quoted, hescape]
  simp only [String.toList_append]
  rfl

/-- Where a number is read as a name, it is the name of its digits. -/
theorem eq_toString_of_readName {n : Nat} {w : Symbols} {name : String}
    (h : readName ((toString n).toList.map some ++ w) = .ok (name, w)) : name = toString n := by
  rcases spelling_of_readName (skipBlank_toString n w) h with ⟨m, rfl, hm⟩ | ⟨q, hq, -⟩
  · have hchars := List.append_cancel_right hm
    have hlist := (List.map_inj_right fun _ _ => Option.some.inj).1 hchars
    exact (String.toList_inj.1 hlist).symm
  · rcases hd : (toString n).toList with _ | ⟨c, cs⟩
    · simp at hd
    · have hc : c.isDigit := isDigit_of_mem_numeral (n := n) (by rw [hd]; simp)
      rw [hd, List.map_cons, List.cons_append] at hq
      obtain rfl : c = '"' := Option.some.inj (List.cons.inj hq).1
      exact absurd hc (by decide)

theorem skipBlank_quotes (n : Nat) (w : Symbols) :
    skipBlank (("\"" ++ toString n ++ "\"").toList.map some ++ w) =
      ("\"" ++ toString n ++ "\"").toList.map some ++ w := by
  have hquote : ¬ Blank (some '"') := by decide
  rw [← quoted_toString]
  exact skipBlank_cons hquote _

/-- The string of its digits names the same. -/
theorem readName_quotes (n : Nat) (w : Symbols) :
    readName (("\"" ++ toString n ++ "\"").toList.map some ++ w) = .ok (toString n, w) := by
  have hread := readString_quoted (toString n) w
  refine readName_eq_ok_iff.2 (.inl ⟨_, (skipBlank_quotes n w).trans ?_, hread⟩)
  rw [← quoted_toString]
  rfl

/-- The text of a number, where it is read as a name, may be put in quotes. -/
theorem respells_quotes {n : Nat} {w : Symbols} {name : String}
    (h : readName ((toString n).toList.map some ++ w) = .ok (name, w)) :
    Respells ((toString n).toList.map some ++ w)
      (("\"" ++ toString n ++ "\"").toList.map some ++ w) where
  reads {name' r} h' := by
    obtain ⟨rfl, rfl⟩ : name = name' ∧ w = r := by simpa using h.symm.trans h'
    rw [eq_toString_of_readName h]
    exact readName_quotes n w
  skipBlank_eq := skipBlank_quotes n w
  length_le := by
    simp only [String.toList_append, List.length_append, List.length_map]
    omega

/-! ## Names in a file -/

/-- The bytes of a file that give a simpoint its name: they begin where its name does, and all of
them are read as the name. -/
structure NameText (content : Bytes) (i : Nat) (before text after : Bytes) : Prop where
  split : content = before ++ text ++ after
  place : NameAt i (symbols content) (symbols (text ++ after))
  whole : ∃ name, readName (symbols (text ++ after)) = .ok (name, symbols after)

theorem parse_eq_ok_iff {content : Bytes} {ps : List Simpoint} : parse content = .ok ps ↔
    ∃ r, readAll read (symbols content) = .ok (ps, r) ∧ Json.finish r = .ok () := by
  unfold parse readFrom
  constructor
  · intro h
    obtain ⟨⟨qs, r⟩, hread, h⟩ := bind_eq_ok h
    obtain ⟨⟨⟩, hend, h⟩ := bind_eq_ok h
    obtain rfl : qs = ps := by simpa [pure, Except.pure] using h
    exact ⟨r, hread, hend⟩
  · rintro ⟨r, hread, hend⟩
    simp [hread, hend, bind, Except.bind, pure, Except.pure]

variable {content before text after : Bytes} {ps : List Simpoint} {i : Nat}

/-- They are read as the name of the simpoint. -/
theorem NameText.reads (h : NameText content i before text after) (hp : parse content = .ok ps) :
    ∃ p, ps[i]? = some p ∧ readName (symbols (text ++ after)) = .ok (p.name, symbols after) := by
  obtain ⟨r, hread, -⟩ := parse_eq_ok_iff.1 hp
  obtain ⟨p, w, hi, hname⟩ := h.place.reads hread
  obtain ⟨name, hwhole⟩ := h.whole
  obtain ⟨rfl, rfl⟩ : p.name = name ∧ w = symbols after := by simpa using hname.symm.trans hwhole
  exact ⟨p, hi, hname⟩

/-- A number is the name of its digits. -/
theorem NameText.name_of_number {n : Nat} (h : NameText content i before (encode (toString n)) after)
    (hp : parse content = .ok ps) : ∃ p, ps[i]? = some p ∧ p.name = toString n := by
  obtain ⟨p, hi, hname⟩ := h.reads hp
  rw [Utf8.symbols_encode_append] at hname
  exact ⟨p, hi, eq_toString_of_readName hname⟩

/-- So is the string of them. -/
theorem NameText.name_of_quotes {n : Nat}
    (h : NameText content i before (encode ("\"" ++ toString n ++ "\"")) after)
    (hp : parse content = .ok ps) : ∃ p, ps[i]? = some p ∧ p.name = toString n := by
  obtain ⟨p, hi, hname⟩ := h.reads hp
  rw [Utf8.symbols_encode_append, readName_quotes] at hname
  exact ⟨p, hi, (congrArg Prod.fst (Except.ok.inj hname)).symm⟩

/-- **A number that is a name may be put in quotes.** -/
theorem NameText.quote {n : Nat} (h : NameText content i before (encode (toString n)) after)
    (hp : parse content = .ok ps) :
    parse (before ++ encode ("\"" ++ toString n ++ "\"") ++ after) = .ok ps := by
  obtain ⟨r, hread, hend⟩ := parse_eq_ok_iff.1 hp
  obtain ⟨p, -, hs, hkeep⟩ := h.place.keeps hread
  obtain ⟨name, hwhole⟩ := h.whole
  have hne : toString n ≠ "" := by
    intro hempty
    have := congrArg String.toList hempty
    simp at this
  have hquoted : "\"" ++ toString n ++ "\"" ≠ "" := by
    intro hempty
    have := congrArg String.toList hempty
    simp at this
  rw [h.split, Utf8.symbols_around before hne, Utf8.symbols_encode_append] at hs
  obtain rfl := List.append_cancel_right hs
  rw [Utf8.symbols_encode_append] at hwhole hkeep
  refine parse_eq_ok_iff.2 ⟨r, ?_, hend⟩
  rw [Utf8.symbols_around before hquoted]
  exact hkeep _ (respells_quotes hwhole)

/-- Every simpoint has the bytes of its name: a number, or a string. -/
theorem exists_nameText (hp : parse content = .ok ps) {p : Simpoint} (hi : ps[i]? = some p) :
    ∃ before text after, NameText content i before text after ∧
      ((∃ n : Nat, p.name = toString n ∧ text = encode (toString n)) ∨
        ∃ inside, text = encode "\"" ++ inside) := by
  obtain ⟨r, hread, -⟩ := parse_eq_ok_iff.1 hp
  obtain ⟨hlt, -⟩ := List.getElem?_eq_some_iff.1 hi
  obtain ⟨u, hu⟩ := exists_nameAt hread hlt
  obtain ⟨pre, -, hs, -⟩ := hu.keeps hread
  obtain ⟨q, w, hq, hname⟩ := hu.reads hread
  obtain rfl : p = q := Option.some.inj (hi.symm.trans hq)
  obtain ⟨before, bs, hcontent, hbs⟩ := Utf8.exists_of_symbols_eq_append hs
  -- what is left is to cut the text of the name off the bytes from its place on
  have cut : ∀ text after, bs = text ++ after → symbols after = w →
      NameText content i before text after := by
    rintro text after rfl rfl
    refine ⟨?_, ?_, p.name, ?_⟩
    · rw [hcontent, List.append_assoc]
    · rw [hbs]
      exact hu
    · rw [hbs]
      exact hname
  rcases spelling_of_readName hu.skipBlank_eq hname with ⟨n, hn, hdigits⟩ | ⟨x, hx, hstring⟩
  · obtain ⟨after, hafter, hw⟩ := Utf8.exists_of_symbols_eq_text (hbs.trans hdigits)
    exact ⟨before, _, after, cut _ _ hafter hw, .inl ⟨n, hn, rfl⟩⟩
  · obtain ⟨inner, rfl, -⟩ := settled_readStringFrom (R := .any) _ _ _ _ hstring
    have hopen : symbols bs = "\"".toList.map some ++ (inner ++ w) := hbs.trans hx
    obtain ⟨b, hb, hinner⟩ := Utf8.exists_of_symbols_eq_text hopen
    obtain ⟨inside, after, rfl, hw⟩ := Utf8.exists_of_symbols_eq_append hinner
    have hsplit : bs = encode "\"" ++ inside ++ after := by rw [hb, List.append_assoc]
    exact ⟨before, _, after, cut _ _ hsplit hw, .inr ⟨inside, rfl⟩⟩

/-! ## Names that are given twice -/

theorem two_le_count_of_firstRepeated {seen : List String} {name : String}
    (h : firstRepeated seen ps = some name) : 2 ≤ (seen ++ ps.map Simpoint.name).count name := by
  induction ps generalizing seen with
  | nil => cases h
  | cons p ps ih =>
    rw [firstRepeated] at h
    by_cases hseen : p.name ∈ seen
    · obtain rfl : p.name = name := by simpa [hseen] using h
      have hone : 0 < seen.count p.name := List.count_pos_iff.2 hseen
      simp
      omega
    · have := ih (by simpa [hseen] using h)
      simp only [List.map_cons, List.cons_append, List.count_append, List.count_cons] at this ⊢
      omega

/-- **A name that two simpoints have** is reported. -/
theorem validate_of_name_eq {j : Nat} {p q : Simpoint} (hij : i ≠ j) (hi : ps[i]? = some p)
    (hj : ps[j]? = some q) (hname : p.name = q.name) :
    ∃ name, validate ps = .error (.duplicateName name) ∧
      2 ≤ (ps.map Simpoint.name).count name := by
  have hrepeated : firstRepeated [] ps ≠ none := by
    intro hnone
    have hnodup := (firstRepeated_eq_none_iff.1 hnone).2
    have hsame : (ps.map Simpoint.name)[i]? = (ps.map Simpoint.name)[j]? := by
      simp [hi, hj, hname]
    obtain ⟨hlt, -⟩ := List.getElem?_eq_some_iff.1 hi
    exact hij ((List.getElem?_inj (by simpa using hlt) hnodup).1 hsame)
  obtain ⟨name, hfirst⟩ := Option.ne_none_iff_exists'.1 hrepeated
  exact ⟨name, by simp [validate, hfirst], by simpa using two_le_count_of_firstRepeated hfirst⟩

/-! ## The list as it is written -/

/-- **A list that was loaded** reads back as it is written. -/
theorem parse_write (hp : parse content = .ok ps) (hw : ∀ p ∈ ps, p.weight.ReadsBack) :
    parse (encode (write ps)) = .ok ps := by
  obtain ⟨r, hread, -⟩ := parse_eq_ok_iff.1 hp
  have hwords : ∀ p ∈ ps, p.Words := gives_read.all hread
  have hlist : Takes (readAll read) (Layout.tight.chars 0 (.list (ps.map toJson))) (ps.map id) :=
    takes_all fun p hp => ⟨takes_read (hwords p hp) (hw p hp), opens_object _⟩
  have hback := hlist (b := []) (by simp) ends_nil
  rw [List.nil_append, List.append_nil, ← compactChars_eq, List.map_id] at hback
  refine parse_eq_ok_iff.2 ⟨[], ?_, rfl⟩
  rw [Utf8.symbols_encode, write, compact, String.toList_ofList]
  exact hback

theorem load_eq_ok_iff {t : FileTree} {path : String} : load t path = .ok ps ↔
    ∃ content, t.contents path = .ok (some content) ∧ parse content = .ok ps := by
  unfold load
  cases hc : t.contents path with
  | error f => simp
  | ok c =>
    cases c with
    | none => simp
    | some content => cases hp : parse content <;> simp [Except.mapError, hp]

/-- **Simpoint files reload.** From a file that was loaded, with weights whose texts read back:

* the list as it is written loads as the same list;
* every simpoint has the bytes of its name, which are a number or a string;
* with a number among them put in quotes, the file loads as the same list;
* a name given once as a number and once in quotes is reported as a name that occurs twice. -/
theorem simpoints_reload {t : FileTree} {path : String}
    (hfile : t.contents path = .ok (some content)) (hload : load t path = .ok ps)
    (hw : ∀ p ∈ ps, p.weight.ReadsBack) :
    (∀ t' path', t'.contents path' = .ok (some (encode (write ps))) → load t' path' = .ok ps) ∧
    (∀ i p, ps[i]? = some p → ∃ before text after, NameText content i before text after ∧
      ((∃ n : Nat, p.name = toString n ∧ text = encode (toString n)) ∨
        ∃ inside, text = encode "\"" ++ inside)) ∧
    (∀ i (n : Nat) before after, NameText content i before (encode (toString n)) after →
      ∀ t' path', t'.contents path' =
          .ok (some (before ++ encode ("\"" ++ toString n ++ "\"") ++ after)) →
        load t' path' = .ok ps) ∧
    ∀ i j (n : Nat) before after before' after', i ≠ j →
      NameText content i before (encode (toString n)) after →
      NameText content j before' (encode ("\"" ++ toString n ++ "\"")) after' →
      ∃ name, validate ps = .error (.duplicateName name) ∧
        2 ≤ (ps.map Simpoint.name).count name := by
  obtain ⟨content', hfile', hp⟩ := load_eq_ok_iff.1 hload
  obtain rfl : content = content' := by simpa using hfile.symm.trans hfile'
  refine ⟨fun t' path' h => ?_, fun i p hi => exists_nameText hp hi,
    fun i n before after hname t' path' h => ?_,
    fun i j n before after before' after' hij hi hj => ?_⟩
  · exact load_eq_ok_iff.2 ⟨_, h, parse_write hp hw⟩
  · exact load_eq_ok_iff.2 ⟨_, h, hname.quote hp⟩
  · obtain ⟨p, hpi, hpn⟩ := hi.name_of_number hp
    obtain ⟨q, hqj, hqn⟩ := hj.name_of_quotes hp
    exact validate_of_name_eq hij hpi hqj (hpn.trans hqn.symm)

/-- A list named by a number, and an object named by the same digit. -/
theorem simpoints_reload_seven :
    let tree := fun text : String => (⟨[], [(["a"], .file .plain (encode text))]⟩ : FileTree)
    let ps : List Simpoint := [⟨"7", ⟨0x3FF0000000000000⟩, ⟨2, 3, 4⟩, none⟩,
      ⟨"7", ⟨0x3FF0000000000000⟩, ⟨5, 6, 7⟩, none⟩]
    load (tree "[[7,1,[2,3,4]],\x7b\"name\":\"7\",\"weight\":1,\"waypoints\":[5,6,7]\x7d]") "/a" =
        .ok ps ∧
      load (tree (write ps)) "/a" = .ok ps ∧
      load (tree "[[\"7\",1,[2,3,4]],\x7b\"name\":\"7\",\"weight\":1,\"waypoints\":[5,6,7]\x7d]")
        "/a" = .ok ps ∧
      ∃ name, validate ps = .error (.duplicateName name) ∧
        2 ≤ (ps.map Simpoint.name).count name := by
  intro tree ps
  let text := "[[7,1,[2,3,4]],\x7b\"name\":\"7\",\"weight\":1,\"waypoints\":[5,6,7]\x7d]"
  have hfile : ∀ text, (tree text).contents "/a" = .ok (some (encode text)) := by
    intro text
    have hjoin : joinPath "/" "a" = "/a" := by
      have hslash : "/".endsWith "/" = true := (endsWith_slash_iff "/").2 (by decide)
      apply String.toList_inj.1
      rw [joinPath_toList (by decide) ⟨by decide, by decide⟩, hslash]
      rfl
    have hfits : FileTree.Fits "/" "a" :=
      ⟨⟨by decide, by decide⟩, ⟨by decide, by decide, by decide⟩, by rw [hjoin]; decide⟩
    rw [← hjoin]
    exact FileTree.contents_joinPath (FileTree.opens_root _) hfits rfl
  have hload : load (tree text) "/a" = .ok ps := by
    refine load_eq_ok_iff.2 ⟨_, hfile text, parse_eq_ok_iff.2 ⟨[], ?_, rfl⟩⟩
    rw [Utf8.symbols_encode]
    decide +kernel
  have hone : (⟨0x3FF0000000000000⟩ : Binary64).ReadsBack := rfl
  have hweights : ∀ p ∈ ps, p.weight.ReadsBack := by
    intro p hp
    rcases (by simpa [ps] using hp : p = _ ∨ p = _) with rfl | rfl <;> exact hone
  -- the places of the two names, by the number of characters before them
  let rest := fun k : Nat => (text.toList.drop k).map some
  have hfirst : NameAt 0 (rest 0) (rest 2) := by
    have hrecord : RecordAt (rest 1) (rest 2) := .list (q := rest 2) (by decide +kernel)
      (by decide +kernel)
    exact ⟨rest 1, by decide +kernel, .here (by decide +kernel) hrecord⟩
  have hsecond : NameAt 1 (rest 0) (rest 23) := by
    have hfield : FieldAt true {} (rest 16) (skipBlank (rest 23)) :=
      .here (q := rest 22) (by decide +kernel) (by decide +kernel)
    have hblank : skipBlank (rest 23) = rest 23 := by decide +kernel
    rw [hblank] at hfield
    have hrecord : RecordAt (rest 15) (rest 23) := .object (by decide +kernel) hfield
    have hread : read (rest 1) = .ok (⟨"7", ⟨0x3FF0000000000000⟩, ⟨2, 3, 4⟩, none⟩, rest 14) := by
      decide +kernel
    exact ⟨rest 1, by decide +kernel, .later (by decide +kernel) hread
      (.here (by decide +kernel) hrecord)⟩
  have hnumber : NameText (encode text) 0 (encode "[[") (encode (toString 7))
      (encode ",1,[2,3,4]],\x7b\"name\":\"7\",\"weight\":1,\"waypoints\":[5,6,7]\x7d]") := by
    have hsymbols : symbols (encode (toString 7) ++
        encode ",1,[2,3,4]],\x7b\"name\":\"7\",\"weight\":1,\"waypoints\":[5,6,7]\x7d]") = rest 2 := by
      rw [Utf8.symbols_encode_append, Utf8.symbols_encode]
      decide +kernel
    refine ⟨by decide +kernel, ?_, "7", ?_⟩
    · rw [hsymbols, Utf8.symbols_encode]
      exact hfirst
    · rw [hsymbols, Utf8.symbols_encode]
      decide +kernel
  have hstring : NameText (encode text) 1 (encode "[[7,1,[2,3,4]],\x7b\"name\":")
      (encode ("\"" ++ toString 7 ++ "\"")) (encode ",\"weight\":1,\"waypoints\":[5,6,7]\x7d]") := by
    have hsymbols : symbols (encode ("\"" ++ toString 7 ++ "\"") ++
        encode ",\"weight\":1,\"waypoints\":[5,6,7]\x7d]") = rest 23 := by
      rw [Utf8.symbols_encode_append, Utf8.symbols_encode]
      decide +kernel
    refine ⟨by decide +kernel, ?_, "7", ?_⟩
    · rw [hsymbols, Utf8.symbols_encode]
      exact hsecond
    · rw [hsymbols, Utf8.symbols_encode]
      decide +kernel
  obtain ⟨hwritten, -, hquoted, htwice⟩ := simpoints_reload (hfile text) hload hweights
  refine ⟨hload, hwritten _ _ (hfile _), ?_, htwice 0 1 7 _ _ _ _ (by decide) hnumber hstring⟩
  refine hquoted 0 7 _ _ hnumber _ _ ((hfile _).trans ?_)
  have hbytes : encode "[[\"7\",1,[2,3,4]],\x7b\"name\":\"7\",\"weight\":1,\"waypoints\":[5,6,7]\x7d]" =
      encode "[[" ++ encode ("\"" ++ toString 7 ++ "\"") ++
        encode ",1,[2,3,4]],\x7b\"name\":\"7\",\"weight\":1,\"waypoints\":[5,6,7]\x7d]" := by
    decide +kernel
  rw [hbytes]

end PhaseSampling.Simpoint
