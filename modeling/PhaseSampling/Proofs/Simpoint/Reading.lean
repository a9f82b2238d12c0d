import PhaseSampling.Proofs.Json.Reading
import PhaseSampling.Proofs.Json.Values
import PhaseSampling.Simpoint.Json

/-!
# Reading simpoints

* `readName_eq_ok_iff`: a name is a string, or a word that stands for its digits.
* `settled_read`: what is read of a simpoint is settled by its own symbols.
* `takes_read`: a simpoint reads back from every layout.
* `gives_read`: the counts of a simpoint that was read are words.
-/

namespace PhaseSampling.Simpoint

open Json Text

/-! ## Names -/

/-- A value that holds no other: a string or a word. -/
inductive Scalar : Json → Prop
  | text (t : String) : Scalar (.text t)
  | word (n : Nat) : Scalar (.word n)

/-- Strings and words are known by what they begin with. -/
theorem readValue_eq_ok_iff {d : Nat} {s r : Symbols} {v : Json} (hv : Scalar v) :
    readValue d s = .ok (v, r) ↔
      (∃ q t, skipBlank s = some '"' :: q ∧ readString q = .ok (t, r) ∧ v = .text t) ∨
      ∃ c q n, skipBlank s = some c :: q ∧ (c = '-' ∨ c.isDigit) ∧
        readNumber (some c :: q) = .ok (.word n, r) ∧ v = .word n := by
  constructor
  · intro h
    rw [readValue, readValueFrom] at h
    split at h
    case h_1 => cases h
    case h_2 q hq =>
      obtain rfl := eq_of_readWordEnd h
      cases hv
    case h_3 =>
      obtain rfl := eq_of_readWordEnd h
      cases hv
    case h_4 =>
      obtain rfl := eq_of_readWordEnd h
      cases hv
    case h_5 q hq =>
      obtain ⟨⟨t, u⟩, ht, hu⟩ := map_eq_ok h
      obtain ⟨rfl, rfl⟩ : Json.text t = v ∧ u = r := by simpa using hu
      exact .inl ⟨q, t, hq, ht, rfl⟩
    case h_6 =>
      obtain ⟨d, -, h⟩ := bind_eq_ok h
      obtain ⟨⟨vs, u⟩, -, h⟩ := bind_eq_ok h
      obtain ⟨rfl, -⟩ : Json.list vs = v ∧ u = r := by simpa [pure, Except.pure] using h
      cases hv
    case h_7 =>
      obtain ⟨d, -, h⟩ := bind_eq_ok h
      obtain ⟨⟨fs, u⟩, -, h⟩ := bind_eq_ok h
      obtain ⟨rfl, -⟩ : Json.object fs = v ∧ u = r := by simpa [pure, Except.pure] using h
      cases hv
    case h_8 c q _ _ _ _ _ _ hq =>
      split at h
      · rename_i hc
        obtain ⟨⟨n, u⟩, hn, hu⟩ := map_eq_ok h
        obtain ⟨rfl, rfl⟩ : n.json = v ∧ u = r := by simpa using hu
        cases n with
        | word n => exact .inr ⟨c, q, n, hq, hc, hn, rfl⟩
        | negative n => cases hv
        | float x => cases hv
      · cases h
    case h_9 => cases h
  · rw [readValue, readValueFrom]
    rintro (⟨q, t, hq, ht, rfl⟩ | ⟨c, q, n, hq, hc, hn, rfl⟩)
    · simp [hq, ht, Except.map]
    · have hne : c ≠ 'n' ∧ c ≠ 't' ∧ c ≠ 'f' ∧ c ≠ '"' ∧ c ≠ '[' ∧ c ≠ '\x7b' := by
        refine ⟨?_, ?_, ?_, ?_, ?_, ?_⟩ <;> (rintro rfl; exact absurd hc (by decide))
      simp [hq, hc, hn, hne, Except.map, Number.json]

/-- A name is a string, or a word that stands for its digits. -/
theorem readName_eq_ok_iff {s r : Symbols} {name : String} :
    readName s = .ok (name, r) ↔
      (∃ q, skipBlank s = some '"' :: q ∧ readString q = .ok (name, r)) ∨
      ∃ c q n, skipBlank s = some c :: q ∧ (c = '-' ∨ c.isDigit) ∧
        readNumber (some c :: q) = .ok (.word n, r) ∧ name = toString n := by
  constructor
  · intro h
    unfold readName at h
    obtain ⟨⟨v, q⟩, hv, h⟩ := bind_eq_ok h
    cases v with
    | text t =>
      obtain ⟨rfl, rfl⟩ : t = name ∧ q = r := by simpa [pure, Except.pure] using h
      rcases (readValue_eq_ok_iff (.text t)).1 hv with ⟨u, t', hu, ht, htt⟩ | ⟨c, u, n, -, -, -, h⟩
      · cases htt
        exact .inl ⟨u, hu, ht⟩
      · cases h
    | word n =>
      obtain ⟨rfl, rfl⟩ : toString n = name ∧ q = r := by simpa [pure, Except.pure] using h
      rcases (readValue_eq_ok_iff (.word n)).1 hv with ⟨u, t', -, -, h⟩ | ⟨c, u, m, hu, hc, hm, h⟩
      · cases h
      · cases h
        exact .inr ⟨c, u, n, hu, hc, hm, rfl⟩
    | _ => cases h
  · unfold readName
    rintro (⟨q, hq, ht⟩ | ⟨c, q, n, hq, hc, hn, rfl⟩)
    · have := (readValue_eq_ok_iff (d := maxDepth - 2) (.text name)).2
        (.inl ⟨q, name, hq, ht, rfl⟩)
      rw [this]
      rfl
    · have := (readValue_eq_ok_iff (d := maxDepth - 2) (.word n)).2
        (.inr ⟨c, q, n, hq, hc, hn, rfl⟩)
      rw [this]
      rfl

theorem settled_readName : Settled .stopping readName := by
  intro s name r h
  rcases readName_eq_ok_iff.1 h with ⟨q, hq, ht⟩ | ⟨c, q, n, hq, hc, hn, rfl⟩
  · obtain ⟨b, rfl, hb⟩ := exists_skipBlank hq
    obtain ⟨p, rfl, hp⟩ := settled_readStringFrom (R := .stopping) _ _ _ _ ht
    refine ⟨b ++ some '"' :: p, by simp, fun r' hr => readName_eq_ok_iff.2 (.inl ?_)⟩
    refine ⟨p ++ r', ?_, hp r' hr⟩
    rw [List.append_assoc]
    exact hb _ rfl
  · obtain ⟨b, rfl, hb⟩ := exists_skipBlank hq
    obtain ⟨p, rfl, hp⟩ := settled_readNumber.tail (by simp [readNumber_nil]) (some c) hn
    refine ⟨b ++ some c :: p, by simp, fun r' hr => readName_eq_ok_iff.2 (.inr ?_)⟩
    refine ⟨c, p ++ r', n, ?_, hc, hp r' hr, rfl⟩
    rw [List.append_assoc]
    exact hb _ rfl

/-! ## What a simpoint takes -/

/-- Reads three waypoints after their opening bracket. -/
def readThree : Reader Waypoints := fun r => do
  let (warmup, r) ← readItem true readWord r
  let (interval, r) ← readItem false readWord r
  let (stop, r) ← readItem false readWord r
  return (⟨warmup, interval, stop⟩, ← endItems r)

theorem readWaypoints_eq_ok_iff (s : Symbols) (y : Waypoints × Symbols) :
    readWaypoints s = .ok y ↔ ∃ q, skipBlank s = some '[' :: q ∧ readThree q = .ok y := by
  unfold readWaypoints
  split
  · simp_all
  · rename_i q hq
    rw [hq]
    simp [readThree]
  · rename_i hne
    constructor
    · intro h
      cases h
    · rintro ⟨q, hq, -⟩
      exact absurd hq (hne q)

theorem settled_readWaypoints : Settled .similar readWaypoints := by
  have word : Settled .similar readWord := (settled_readAsNumber _).similar_of_stopping
  have three : Settled .similar readThree := by
    refine (settled_readItem word true).bind fun warmup => ?_
    refine (settled_readItem word false).bind fun interval => ?_
    exact (settled_readItem word false).bind fun stop => settled_endItems.return_unit _
  exact .after readWaypoints_eq_ok_iff three

theorem settled_step (key : String) (d : Draft) : Settled .similar (d.step key) := by
  unfold Draft.step
  split
  · exact settled_readFresh settled_readName.similar_of_stopping
  · exact settled_readFresh (settled_readAsNumber _).similar_of_stopping
  · exact settled_readFresh settled_readWaypoints
  · exact settled_readFresh settled_readOption.similar_of_stopping
  · exact settled_skipField d

theorem settled_readItems : Settled .similar readItems := by
  refine (settled_readItem settled_readName.similar_of_stopping true).bind fun name => ?_
  refine (settled_readItem (settled_readAsNumber _).similar_of_stopping false).bind fun weight => ?_
  refine (settled_readItem settled_readWaypoints false).bind fun waypoints => ?_
  exact (settled_readItem? settled_readOption.similar_of_stopping).bind fun interval => .pure _

/-- What is read of a simpoint is settled by its own symbols. -/
theorem settled_read : Settled .similar read :=
  settled_readRecord settled_step settled_readItems

/-! ## Reading back -/

variable {l : Layout} {i : Nat}

theorem takes_name (name : String) : Takes readName (quoted name) name := by
  intro b hb r hr
  obtain ⟨q, hq, ht⟩ := (readText_eq_ok_iff _ _).1 (takes_text name hb hr)
  exact readName_eq_ok_iff.2 (.inl ⟨q, hq, ht⟩)

/-- The counts of a simpoint are words. -/
structure Words (p : Simpoint) : Prop where
  warmup : p.waypoints.warmup < wordLimit
  interval : p.waypoints.interval < wordLimit
  stop : p.waypoints.stop < wordLimit
  place : ∀ n ∈ p.interval, n < wordLimit

theorem takes_waypoints {a b c : Nat} (ha : a < wordLimit) (hb : b < wordLimit)
    (hc : c < wordLimit) :
    Takes readWaypoints (l.chars i (.list [.word a, .word b, .word c])) ⟨a, b, c⟩ := by
  apply takes_of_skipBlank
  · intro s
    simp only [readWaypoints, skipBlank_skipBlank]
  · intro r _
    have hopen : ¬ Blank (some '[') := by decide
    have hgap : ∀ x ∈ l.gap i, Blank (some x) := fun x hx => l.blank_of_mem_gap hx
    have word : ∀ {n}, n < wordLimit → ∀ first vs, readItem first readWord
        ((l.items (i + 1) first (.word n :: vs) ++ l.gap i).map some ++ some ']' :: r) = _ :=
      fun {n} hn first vs =>
        readItem_items (v := .word n) (takes_word hn) (opens_word n) hgap first vs r
    have hend : endItems ((l.items (i + 1) false [] ++ l.gap i).map some ++ some ']' :: r) =
        .ok r := endItems_close hgap r
    have three : readThree ((l.items (i + 1) true [.word a, .word b, .word c] ++
        l.gap i).map some ++ some ']' :: r) = .ok (⟨a, b, c⟩, r) := by
      simp only [readThree, word ha, word hb, word hc, hend, bind, Except.bind, pure, Except.pure]
    refine (readWaypoints_eq_ok_iff _ _).2 ⟨_, ?_, three⟩
    rw [Layout.chars, List.append_assoc, List.cons_append, List.map_cons, List.cons_append,
      skipBlank_cons hopen]
    simp [Layout.close]

/-- A simpoint reads back from every layout. -/
theorem takes_read {p : Simpoint} (hp : p.Words) (hw : p.weight.ReadsBack) :
    Takes read (l.chars i p.toJson) p := by
  obtain ⟨name, weight, ⟨warmup, interval, stop⟩, place⟩ := p
  let d : Draft := ⟨name, weight, some ⟨warmup, interval, stop⟩, none⟩
  have hweight : Takes readFloat (l.chars (i + 1) (.float weight)) weight := by
    have hf : weight.isFinite := gives_readFloat hw
    simp only [Layout.chars, scalarText, floatText, if_pos hf]
    exact takes_float hw
  have hname : Takes readName (l.chars (i + 1) (.text name)) name := takes_name name
  have hall : Gathers l (i + 1) Draft.step
      [("name", .text name), ("weight", .float weight),
        ("waypoints", .list [.word warmup, .word interval, .word stop])] {} d := by
    simp only [Gathers, Draft.step]
    exact ⟨_, takes_fresh hname _, _, takes_fresh hweight _,
      _, takes_fresh (takes_waypoints hp.warmup hp.interval hp.stop) _, rfl⟩
  cases place with
  | none => exact takes_record (hall.append rfl) rfl
  | some n =>
    have hn : Takes (readOption readWord) (l.chars (i + 1) (.word n)) (some n) :=
      takes_some (takes_word (hp.place n rfl))
    have hmore : Gathers l (i + 1) Draft.step [("interval", .word n)] d
        { d with interval := some (some n) } := by
      simp only [Gathers, Draft.step]
      exact ⟨_, takes_fresh hn _, rfl⟩
    exact takes_record (hall.append hmore) rfl

/-! ## What is read -/

theorem gives_readWaypoints : Gives readWaypoints fun w =>
    w.warmup < wordLimit ∧ w.interval < wordLimit ∧ w.stop < wordLimit := by
  intro s w r hs
  obtain ⟨q, -, hs⟩ := (readWaypoints_eq_ok_iff _ _).1 hs
  obtain ⟨⟨warmup, t⟩, hw, hs⟩ := bind_eq_ok hs
  obtain ⟨⟨interval, u⟩, hi, hs⟩ := bind_eq_ok hs
  obtain ⟨⟨stop, v⟩, he, hs⟩ := bind_eq_ok hs
  obtain ⟨x, -, hs⟩ := bind_eq_ok hs
  obtain ⟨rfl, -⟩ : (⟨warmup, interval, stop⟩ : Waypoints) = w ∧ x = r := by
    simpa [pure, Except.pure] using hs
  exact ⟨gives_readWord.item true hw, gives_readWord.item false hi, gives_readWord.item false he⟩

/-- The counts of a draft are words, as far as they are known. -/
structure Draft.Words (d : Draft) : Prop where
  waypoints : ∀ w ∈ d.waypoints, w.warmup < wordLimit ∧ w.interval < wordLimit ∧ w.stop < wordLimit
  place : ∀ o ∈ d.interval, ∀ n ∈ o, n < wordLimit

theorem Draft.Words.step {d : Draft} (hd : d.Words) (key : String) : Gives (d.step key) Words := by
  unfold Draft.step
  split
  · exact (gives_true _).fresh fun a _ => ⟨hd.waypoints, hd.place⟩
  · exact (gives_true _).fresh fun a _ => ⟨hd.waypoints, hd.place⟩
  · exact gives_readWaypoints.fresh fun w hw => ⟨fun _ h => Option.some.inj h ▸ hw, hd.place⟩
  · exact gives_readWord.option.fresh fun o ho => ⟨hd.waypoints, fun _ h => Option.some.inj h ▸ ho⟩
  · exact gives_skipField hd

/-- A draft that is whole. -/
theorem Draft.finish_eq_some_iff {d : Draft} {p : Simpoint} :
    d.finish = some p ↔ d.name = some p.name ∧ d.weight = some p.weight ∧
      d.waypoints = some p.waypoints ∧ d.interval.getD none = p.interval := by
  obtain ⟨name, weight, waypoints, interval⟩ := d
  obtain ⟨name', weight', waypoints', interval'⟩ := p
  cases name <;> cases weight <;> cases waypoints <;> simp [Draft.finish]

/-- The counts of a simpoint that was read are words. -/
theorem gives_read : Gives read Words := by
  refine Gives.record (Q := Draft.Words) ?_ ⟨by simp, by simp⟩ (fun k d hd => hd.step k) ?_
  · intro s p r hs
    obtain ⟨⟨name, t⟩, -, hs⟩ := bind_eq_ok hs
    obtain ⟨⟨weight, u⟩, -, hs⟩ := bind_eq_ok hs
    obtain ⟨⟨waypoints, v⟩, hw, hs⟩ := bind_eq_ok hs
    obtain ⟨⟨place, x⟩, ho, hs⟩ := bind_eq_ok hs
    obtain ⟨rfl, -⟩ : (⟨name, weight, waypoints, place⟩ : Simpoint) = p ∧ x = r := by
      simpa [pure, Except.pure] using hs
    obtain ⟨hwarmup, hinterval, hstop⟩ := gives_readWaypoints.item false hw
    exact ⟨hwarmup, hinterval, hstop, gives_readWord.option.item? ho⟩
  · intro d p hd hp
    obtain ⟨-, -, hw, ho⟩ := Draft.finish_eq_some_iff.1 hp
    obtain ⟨hwarmup, hinterval, hstop⟩ := hd.waypoints _ hw
    refine ⟨hwarmup, hinterval, hstop, fun n hn => ?_⟩
    rw [← ho] at hn
    cases hi : d.interval with
    | none => simp [hi] at hn
    | some o => exact hd.place o hi n (by simpa [hi] using hn)

end PhaseSampling.Simpoint
