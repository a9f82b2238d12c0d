import PhaseSampling.Proofs.Simpoint.Reading

/-!
# Where the names of a file stand

The reader meets one name for each simpoint, in whatever form the simpoint has. `NameAt i s u` says
that the name of the simpoint `i` of the text `s` begins where the rest `u` does.

* `exists_nameAt`: every simpoint that was read has a place of its name.
* `NameAt.reads`: what is read there is its name.
* `NameAt.keeps`: the same simpoints are read when the name is spelled in another way.
-/

namespace PhaseSampling.Simpoint

open Json Text

variable {s u : Symbols} {first : Bool} {d e : Draft}

/-! ## Places -/

/-- Where the name stands among the fields of an object that are left. -/
inductive FieldAt : (first : Bool) → Draft → Symbols → Symbols → Prop
  | here {first : Bool} {d : Draft} {s q t : Symbols} (hkey : nextKey first s = .ok (some "name", q))
      (hcolon : skipColon q = .ok t) : FieldAt first d s (skipBlank t)
  | later {first : Bool} {d d' : Draft} {s q t u : Symbols} {k : String}
      (hkey : nextKey first s = .ok (some k, q)) (hne : k ≠ "name")
      (hstep : d.step k q = .ok (d', t)) (hrest : FieldAt false d' t u) : FieldAt first d s u

/-- Where the name of a simpoint stands: at the key of an object, or first in a list. -/
inductive RecordAt (s u : Symbols) : Prop
  | object {q : Symbols} (hopen : skipBlank s = some '\x7b' :: q) (hfield : FieldAt true {} q u)
  | list {q : Symbols} (hopen : skipBlank s = some '[' :: q) (hitem : nextItem true q = .ok (true, u))

/-- Where the name of the simpoint with an index stands among the simpoints that are left. -/
inductive ItemAt : (i : Nat) → (first : Bool) → Symbols → Symbols → Prop
  | here {first : Bool} {s q u : Symbols} (hitem : nextItem first s = .ok (true, q))
      (hrecord : RecordAt q u) : ItemAt 0 first s u
  | later {i : Nat} {first : Bool} {s q t u : Symbols} {p : Simpoint}
      (hitem : nextItem first s = .ok (true, q)) (hread : read q = .ok (p, t))
      (hrest : ItemAt i false t u) : ItemAt (i + 1) first s u

/-- Where the name of the simpoint with an index stands in a list of simpoints. -/
def NameAt (i : Nat) (s u : Symbols) : Prop := ∃ q, skipBlank s = some '[' :: q ∧ ItemAt i true q u

/-! ## Names begin with no blank -/

theorem FieldAt.skipBlank_eq (h : FieldAt first d s u) : skipBlank u = u := by
  induction h with
  | here => exact skipBlank_skipBlank _
  | later _ _ _ _ ih => exact ih

/-- The first item of a list follows its bracket and blanks. -/
theorem skipBlank_of_nextItem (h : nextItem true s = .ok (true, u)) : skipBlank s = u := by
  rcases nextItem_eq_ok_iff.1 h with ⟨hmore, -⟩ | ⟨-, -, hskip, -⟩ | ⟨-, hfirst, -⟩
  · cases hmore
  · exact hskip
  · cases hfirst

theorem RecordAt.skipBlank_eq (h : RecordAt s u) : skipBlank u = u := by
  rcases h with ⟨-, hfield⟩ | ⟨-, hitem⟩
  · exact hfield.skipBlank_eq
  · rw [← skipBlank_of_nextItem hitem]
    exact skipBlank_skipBlank _

theorem ItemAt.skipBlank_eq {i : Nat} (h : ItemAt i first s u) : skipBlank u = u := by
  induction h with
  | here _ hrecord => exact hrecord.skipBlank_eq
  | later _ _ _ ih => exact ih

theorem NameAt.skipBlank_eq {i : Nat} (h : NameAt i s u) : skipBlank u = u := by
  obtain ⟨q, -, hitem⟩ := h
  exact hitem.skipBlank_eq

/-! ## What fields do to the name -/

/-- The name is read after its colon, once. -/
theorem step_name_eq_ok_iff {q r : Symbols} :
    d.step "name" q = .ok (e, r) ↔ d.name = none ∧ ∃ t name, skipColon q = .ok t ∧
      readName t = .ok (name, r) ∧ e = { d with name := some name } := by
  have hstep : d.step "name" q = if d.name.isSome then .error .mismatch else
      (readField readName q).map fun y => ({ d with name := some y.1 }, y.2) := rfl
  rw [hstep]
  cases hname : d.name with
  | some name => simp
  | none =>
    simp only [Option.isSome_none, Bool.false_eq_true, if_false, true_and]
    constructor
    · intro h
      obtain ⟨⟨v, q'⟩, hv, hput⟩ := map_eq_ok h
      obtain ⟨t, hcolon, hread⟩ := bind_eq_ok hv
      obtain ⟨rfl, rfl⟩ : { d with name := some v } = e ∧ q' = r := by simpa using hput
      exact ⟨t, v, hcolon, hread, rfl⟩
    · rintro ⟨t, name, hcolon, hread, rfl⟩
      simp [readField, hcolon, hread, bind, Except.bind, Except.map]

/-- The other fields leave the name as it is. -/
theorem step_keeps_name {k : String} (hk : k ≠ "name") (d : Draft) :
    Gives (d.step k) fun e => e.name = d.name := by
  unfold Draft.step
  split
  · exact absurd rfl hk
  · exact (gives_true _).fresh fun _ _ => rfl
  · exact (gives_true _).fresh fun _ _ => rfl
  · exact (gives_true _).fresh fun _ _ => rfl
  · exact gives_skipField rfl

/-- A name that was given stays. -/
theorem fields_keep_name {name : String} (n : Nat) (first : Bool) (hd : d.name = some name) :
    Gives (readFields Draft.step n first d) fun e => e.name = some name := by
  refine Gives.fields (fun k d hd s e r h => ?_) n first hd
  by_cases hk : k = "name"
  · subst hk
    have hnone := (step_name_eq_ok_iff.1 h).1
    simp [hd] at hnone
  · rw [step_keeps_name hk d h, hd]

/-! ## What is read at a place -/

/-- A field whose key is known was read, and then the others. -/
theorem exists_of_nextKey {k : String} {q r : Symbols} {n : Nat}
    (hkey : nextKey first s = .ok (some k, q))
    (hread : readFields Draft.step n first d s = .ok (e, r)) :
    ∃ m d' t, n = m + 1 ∧ d.step k q = .ok (d', t) ∧
      readFields Draft.step m false d' t = .ok (e, r) := by
  obtain ⟨m, rfl, ⟨hend, -⟩ | ⟨k', d', q', t, hkey', hstep, hrest⟩⟩ := exists_of_readFields hread
  · simp [hkey] at hend
  · obtain ⟨rfl, rfl⟩ : k = k' ∧ q = q' := by simpa [hkey] using hkey'
    exact ⟨m, d', t, rfl, hstep, hrest⟩

/-- An item that is there was read, and then the others. -/
theorem exists_of_nextItem {q r : Symbols} {n : Nat} {ps : List Simpoint}
    (hitem : nextItem first s = .ok (true, q))
    (hread : readAllFrom read n first s = .ok (ps, r)) :
    ∃ m p qs t, n = m + 1 ∧ read q = .ok (p, t) ∧ readAllFrom read m false t = .ok (qs, r) ∧
      ps = p :: qs := by
  obtain ⟨m, rfl, ⟨q', hend, -⟩ | ⟨p, qs, q', t, hitem', hp, hrest, rfl⟩⟩ :=
    exists_of_readAllFrom hread
  · simp [hitem] at hend
  · obtain rfl : q = q' := by simpa [hitem] using hitem'
    exact ⟨m, p, qs, t, rfl, hp, hrest, rfl⟩

/-- Blanks before a name make no difference. -/
theorem readName_skipBlank_eq_ok_iff {r : Symbols} {name : String} :
    readName (skipBlank s) = .ok (name, r) ↔ readName s = .ok (name, r) := by
  rw [readName_eq_ok_iff, readName_eq_ok_iff, skipBlank_skipBlank]

theorem FieldAt.reads (h : FieldAt first d s u) {n : Nat} {r : Symbols}
    (hread : readFields Draft.step n first d s = .ok (e, r)) :
    ∃ name w, readName u = .ok (name, w) ∧ e.name = some name := by
  induction h generalizing n with
  | here hkey hcolon =>
    obtain ⟨m, d', t, -, hstep, hrest⟩ := exists_of_nextKey hkey hread
    obtain ⟨-, t', name, hcolon', hname, rfl⟩ := step_name_eq_ok_iff.1 hstep
    obtain rfl : _ = t' := by simpa [hcolon] using hcolon'
    exact ⟨name, t, readName_skipBlank_eq_ok_iff.2 hname, fields_keep_name m false rfl hrest⟩
  | later hkey hne hstep _ ih =>
    obtain ⟨m, d', t, -, hstep', hrest⟩ := exists_of_nextKey hkey hread
    obtain ⟨rfl, rfl⟩ : _ = d' ∧ _ = t := by simpa [hstep] using hstep'
    exact ih hrest

theorem RecordAt.reads (h : RecordAt s u) {p : Simpoint} {r : Symbols}
    (hread : read s = .ok (p, r)) : ∃ w, readName u = .ok (p.name, w) := by
  rcases readRecord_eq_ok_iff.1 hread with ⟨q, t, hopen, hitems, -⟩ | ⟨q, d, t, hopen, hd, hp, -⟩
  · rcases h with ⟨hopen', -⟩ | ⟨hopen', hitem⟩
    · simp [hopen] at hopen'
    · obtain rfl : q = _ := by simpa [hopen] using hopen'
      obtain ⟨⟨name, w⟩, hname, hitems⟩ := bind_eq_ok hitems
      obtain ⟨⟨weight, x⟩, -, hitems⟩ := bind_eq_ok hitems
      obtain ⟨⟨waypoints, y⟩, -, hitems⟩ := bind_eq_ok hitems
      obtain ⟨⟨place, z⟩, -, hitems⟩ := bind_eq_ok hitems
      obtain ⟨rfl, -⟩ : (⟨name, weight, waypoints, place⟩ : Simpoint) = p ∧ z = t := by
        simpa [pure, Except.pure] using hitems
      have : readItem true readName q = readName u := by
        simp [readItem, hitem, bind, Except.bind]
      exact ⟨w, this ▸ hname⟩
  · rcases h with ⟨hopen', hfield⟩ | ⟨hopen', -⟩
    · obtain rfl : q = _ := by simpa [hopen] using hopen'
      obtain ⟨name, w, hname, hdraft⟩ := hfield.reads hd
      have hp := (Draft.finish_eq_some_iff.1 hp).1
      obtain rfl : name = p.name := by simpa [hdraft] using hp
      exact ⟨w, hname⟩
    · simp [hopen] at hopen'

theorem ItemAt.reads {i : Nat} (h : ItemAt i first s u) {n : Nat} {ps : List Simpoint} {r : Symbols}
    (hread : readAllFrom read n first s = .ok (ps, r)) :
    ∃ p w, ps[i]? = some p ∧ readName u = .ok (p.name, w) := by
  induction h generalizing n ps with
  | here hitem hrecord =>
    obtain ⟨m, p, qs, t, -, hp, -, rfl⟩ := exists_of_nextItem hitem hread
    obtain ⟨w, hw⟩ := hrecord.reads hp
    exact ⟨p, w, rfl, hw⟩
  | later hitem hp _ ih =>
    obtain ⟨m, p, qs, t, -, hp', hrest, rfl⟩ := exists_of_nextItem hitem hread
    obtain ⟨-, rfl⟩ : _ = p ∧ _ = t := by simpa [hp] using hp'
    exact ih hrest

theorem readAll_eq_ok_iff {α : Type} {read : Reader α} {y : List α × Symbols} :
    readAll read s = .ok y ↔
      ∃ q, skipBlank s = some '[' :: q ∧ readAllFrom read (q.length + 1) true q = .ok y := by
  unfold readAll
  split
  · simp_all
  · simp_all
  · rename_i hne
    constructor
    · intro h
      cases h
    · rintro ⟨q, hq, -⟩
      exact absurd hq (hne q)

/-- **What stands at the place of a name** is the name of its simpoint. -/
theorem NameAt.reads {i : Nat} (h : NameAt i s u) {ps : List Simpoint} {r : Symbols}
    (hread : readAll read s = .ok (ps, r)) :
    ∃ p w, ps[i]? = some p ∧ readName u = .ok (p.name, w) := by
  obtain ⟨q, hopen, hitem⟩ := h
  obtain ⟨q', hopen', hread⟩ := readAll_eq_ok_iff.1 hread
  obtain rfl : q = q' := by simpa [hopen] using hopen'
  exact hitem.reads hread

/-! ## Every name has a place -/

theorem exists_fieldAt {n : Nat} {r : Symbols} {name : String} (hd : d.name = none)
    (hread : readFields Draft.step n first d s = .ok (e, r)) (he : e.name = some name) :
    ∃ u, FieldAt first d s u := by
  induction n generalizing first d s with
  | zero => cases hread
  | succ n ih =>
    obtain ⟨m, hm, hcase⟩ := exists_of_readFields hread
    obtain rfl : n = m := by omega
    rcases hcase with ⟨-, rfl⟩ | ⟨k, d', q, t, hkey, hstep, hrest⟩
    · simp [hd] at he
    · by_cases hk : k = "name"
      · subst hk
        obtain ⟨-, t', -, hcolon, -⟩ := step_name_eq_ok_iff.1 hstep
        exact ⟨_, .here hkey hcolon⟩
      · have hd' : d'.name = none := (step_keeps_name hk d hstep).trans hd
        obtain ⟨u, hu⟩ := ih hd' hrest
        exact ⟨u, .later hkey hk hstep hu⟩

theorem exists_recordAt {p : Simpoint} {r : Symbols} (hread : read s = .ok (p, r)) :
    ∃ u, RecordAt s u := by
  rcases readRecord_eq_ok_iff.1 hread with ⟨q, t, hopen, hitems, -⟩ | ⟨q, d, t, hopen, hd, hp, -⟩
  · obtain ⟨⟨name, w⟩, hname, -⟩ := bind_eq_ok hitems
    obtain ⟨⟨more, v⟩, hitem, hname⟩ := bind_eq_ok hname
    cases more with
    | true => exact ⟨v, .list hopen hitem⟩
    | false => cases hname
  · obtain ⟨u, hu⟩ := exists_fieldAt rfl hd (Draft.finish_eq_some_iff.1 hp).1
    exact ⟨u, .object hopen hu⟩

theorem exists_itemAt {n i : Nat} {ps : List Simpoint} {r : Symbols}
    (hread : readAllFrom read n first s = .ok (ps, r)) (hi : i < ps.length) :
    ∃ u, ItemAt i first s u := by
  induction i generalizing n first s ps with
  | zero =>
    obtain ⟨m, -, ⟨q, -, -, rfl⟩ | ⟨p, ps', q, t, hitem, hp, -, -⟩⟩ := exists_of_readAllFrom hread
    · simp at hi
    · obtain ⟨u, hu⟩ := exists_recordAt hp
      exact ⟨u, .here hitem hu⟩
  | succ i ih =>
    obtain ⟨m, -, ⟨q, -, -, rfl⟩ | ⟨p, ps', q, t, hitem, hp, hrest, rfl⟩⟩ :=
      exists_of_readAllFrom hread
    · simp at hi
    · obtain ⟨u, hu⟩ := ih hrest (by simpa using hi)
      exact ⟨u, .later hitem hp hu⟩

/-- **Every simpoint that was read has a place of its name.** -/
theorem exists_nameAt {i : Nat} {ps : List Simpoint} {r : Symbols}
    (hread : readAll read s = .ok (ps, r)) (hi : i < ps.length) : ∃ u, NameAt i s u := by
  obtain ⟨q, hopen, hread⟩ := readAll_eq_ok_iff.1 hread
  obtain ⟨u, hu⟩ := exists_itemAt hread hi
  exact ⟨u, q, hopen, hu⟩

/-! ## Other spellings -/

/-- Another spelling of the name in front, which is no shorter. -/
structure Respells (u u' : Symbols) : Prop where
  reads : ∀ {name : String} {r : Symbols}, readName u = .ok (name, r) → readName u' = .ok (name, r)
  skipBlank_eq : skipBlank u' = u'
  length_le : u.length ≤ u'.length

/-- A text has a property however the name where `u` begins is spelled. -/
def Keeps (Q : Symbols → Prop) (s u : Symbols) : Prop :=
  ∃ p, p ≠ [] ∧ s = p ++ u ∧ ∀ u', Respells u u' → Q (p ++ u')

namespace Keeps

variable {α : Type} {Q Q' : Symbols → Prop}

theorem mono (h : Keeps Q s u) (hQ : ∀ s', s.length ≤ s'.length → Q s' → Q' s') :
    Keeps Q' s u := by
  obtain ⟨p, hp, rfl, hkeep⟩ := h
  refine ⟨p, hp, rfl, fun u' hu => hQ _ ?_ (hkeep u' hu)⟩
  have := hu.length_le
  simpa using this

/-- What was read before is read again. -/
theorem after {f g : Reader α} (h : Agree .similar f g) {a : α} {m : Symbols}
    (hf : f s = .ok (a, m)) (hm : Keeps Q m u) :
    Keeps (fun s' => ∃ m', g s' = .ok (a, m') ∧ Q m') s u := by
  obtain ⟨p, rfl, hp⟩ := h hf
  obtain ⟨q, hq, rfl, hkeep⟩ := hm
  refine ⟨p ++ q, by simp [hq], by simp, fun u' hu => ⟨q ++ u', ?_, hkeep u' hu⟩⟩
  rw [List.append_assoc]
  refine hp _ ⟨?_, by simpa using hu.length_le⟩
  obtain ⟨x, q, rfl⟩ := List.exists_cons_of_ne_nil hq
  rfl

/-- One symbol, and what follows it. Nothing need stand between it and the name. -/
theorem of_symbol {x : Option Char} {p : Symbols} (hs : skipBlank s = x :: (p ++ u))
    (h : ∀ u', Respells u u' → Q (p ++ u')) :
    Keeps (fun s' => ∃ q, skipBlank s' = x :: q ∧ Q q) s u := by
  obtain ⟨b, rfl, hb⟩ := exists_skipBlank hs
  refine ⟨b ++ x :: p, by simp, by simp, fun u' hu => ⟨p ++ u', ?_, h u' hu⟩⟩
  rw [List.append_assoc]
  exact hb _ rfl

theorem symbol {x : Option Char} {q : Symbols} (hs : skipBlank s = x :: q) (h : Keeps Q q u) :
    Keeps (fun s' => ∃ q', skipBlank s' = x :: q' ∧ Q q') s u := by
  obtain ⟨p, -, rfl, hkeep⟩ := h
  exact of_symbol hs hkeep

end Keeps

/-- A name begins like an item of a list. -/
theorem itemNext_of_readName {r : Symbols} {name : String} (hu : skipBlank u = u)
    (h : readName u = .ok (name, r)) : ItemNext u := by
  rcases readName_eq_ok_iff.1 h with ⟨q, hq, -⟩ | ⟨c, q, n, hq, hc, -⟩
  · exact ⟨_, q, hu.symm.trans hq, by decide⟩
  · refine ⟨_, q, hu.symm.trans hq, ?_⟩
    rintro h
    obtain rfl := Option.some.inj h
    exact absurd hc (by decide)

/-- The value of a field that is the name. -/
theorem keeps_step_name {q t r : Symbols} (hcolon : skipColon q = .ok t)
    (hstep : d.step "name" q = .ok (e, r)) :
    Keeps (fun q' => d.step "name" q' = .ok (e, r)) q (skipBlank t) := by
  obtain ⟨hnone, t', name, hcolon', hname, rfl⟩ := step_name_eq_ok_iff.1 hstep
  obtain rfl : t = t' := by simpa [hcolon] using hcolon'
  obtain ⟨b, ht, hb, -⟩ := exists_eq_append_skipBlank t
  have hs : skipBlank q = some ':' :: (b ++ skipBlank t) := by
    rw [← ht]
    exact (skipColon_eq_ok_iff q t).1 hcolon
  have value : ∀ u', Respells (skipBlank t) u' → readName (b ++ u') = .ok (name, r) := by
    intro u' hu
    have := hu.reads (readName_skipBlank_eq_ok_iff.2 hname)
    rw [← readName_skipBlank_eq_ok_iff, skipBlank_append hb, hu.skipBlank_eq]
    exact this
  refine (Keeps.of_symbol (Q := fun t => readName t = .ok (name, r)) hs value).mono ?_
  rintro q' - ⟨t', hq', ht'⟩
  exact step_name_eq_ok_iff.2 ⟨hnone, t', name, (skipColon_eq_ok_iff _ _).2 hq', ht', rfl⟩

/-- A field, and then the others with as much fuel as before or more. -/
theorem keeps_fields {d' : Draft} {q : Symbols} {k : String} {n : Nat} {y : Draft × Symbols}
    (hkey : nextKey first s = .ok (some k, q))
    (hstep : Keeps (fun q' => ∃ t, d.step k q' = .ok (d', t) ∧
      ∀ m, n ≤ m → readFields Draft.step m false d' t = .ok y) q u) :
    Keeps (fun s' => ∀ m, n + 1 ≤ m → readFields Draft.step m first d s' = .ok y) s u := by
  refine (Keeps.after (settled_nextKey first) hkey hstep).mono ?_
  rintro s' - ⟨q', hkey', t, hstep', hrest⟩ m hm
  obtain ⟨m, rfl⟩ : ∃ k, m = k + 1 := ⟨m - 1, by omega⟩
  have := hrest m (by omega)
  simp [readFields, hkey', hstep', this, bind, Except.bind]

theorem FieldAt.keeps (h : FieldAt first d s u) {n : Nat} {r : Symbols}
    (hread : readFields Draft.step n first d s = .ok (e, r)) :
    Keeps (fun s' => ∀ m, n ≤ m → readFields Draft.step m first d s' = .ok (e, r)) s u := by
  induction h generalizing n with
  | here hkey hcolon =>
    obtain ⟨n, d', t, rfl, hstep, hrest⟩ := exists_of_nextKey hkey hread
    have hmore : ∀ m, n ≤ m → readFields Draft.step m false d' t = .ok (e, r) := fun m hm =>
      (agree_readFields settled_step n m hm false d').eq_ok hrest
    exact keeps_fields hkey ((keeps_step_name hcolon hstep).mono fun q' _ h => ⟨t, h, hmore⟩)
  | later hkey hne hstep _ ih =>
    obtain ⟨n, d', t, rfl, hstep', hrest⟩ := exists_of_nextKey hkey hread
    obtain ⟨rfl, rfl⟩ : _ = d' ∧ _ = t := by simpa [hstep] using hstep'
    exact keeps_fields hkey (.after (settled_step _ _) hstep (ih hrest))

/-- The first item of a record in a list, which may follow its bracket at once. -/
theorem keeps_readItems {q : Symbols} {y : Simpoint × Symbols}
    (hitem : nextItem true q = .ok (true, u)) (hread : readItems q = .ok y) :
    ∃ b, q = b ++ u ∧ ∀ u', Respells u u' → readItems (b ++ u') = .ok y := by
  obtain ⟨b, hq, hb, -⟩ := exists_eq_append_skipBlank q
  rw [skipBlank_of_nextItem hitem] at hq
  refine ⟨b, hq, fun u' hu => ?_⟩
  obtain ⟨⟨name, w⟩, hname, hrest⟩ := bind_eq_ok hread
  have hname : readName u = .ok (name, w) := by
    simpa [readItem, hitem, bind, Except.bind] using hname
  have hnext : nextItem true (b ++ u') = .ok (true, u') := by
    refine nextItem_eq_ok_iff.2 (.inr (.inl ⟨rfl, rfl, ?_, ?_⟩))
    · rw [skipBlank_append hb, hu.skipBlank_eq]
    · exact itemNext_of_readName hu.skipBlank_eq (hu.reads hname)
  have hfirst : readItem true readName (b ++ u') = .ok (name, w) := by
    simp [readItem, hnext, hu.reads hname, bind, Except.bind]
  unfold readItems
  rw [hfirst]
  exact hrest

theorem RecordAt.keeps (h : RecordAt s u) {p : Simpoint} {r : Symbols}
    (hread : read s = .ok (p, r)) : Keeps (fun s' => read s' = .ok (p, r)) s u := by
  rcases readRecord_eq_ok_iff.1 hread with
    ⟨q, t, hopen, hitems, hend⟩ | ⟨q, d, t, hopen, hd, hp, hend⟩
  · rcases h with ⟨hopen', -⟩ | ⟨hopen', hitem⟩
    · simp [hopen] at hopen'
    · obtain rfl : q = _ := by simpa [hopen] using hopen'
      obtain ⟨b, hq, hitems'⟩ := keeps_readItems hitem hitems
      rw [hq] at hopen
      refine (Keeps.of_symbol (Q := fun q => readItems q = .ok (p, t)) hopen hitems').mono ?_
      rintro s' - ⟨q', hs', hp'⟩
      exact readRecord_eq_ok_iff.2 (.inl ⟨q', t, hs', hp', hend⟩)
  · rcases h with ⟨hopen', hfield⟩ | ⟨hopen', -⟩
    · obtain rfl : q = _ := by simpa [hopen] using hopen'
      have hfields := (hfield.keeps hd).mono fun q' hlen h => h (q'.length + 1) (by omega)
      refine (Keeps.symbol hopen hfields).mono ?_
      rintro s' - ⟨q', hs', hd'⟩
      exact readRecord_eq_ok_iff.2 (.inr ⟨q', d, t, hs', hd', hp, hend⟩)
    · simp [hopen] at hopen'

/-- An item, and then the others with as much fuel as before or more. -/
theorem keeps_items {q : Symbols} {p : Simpoint} {ps : List Simpoint} {n : Nat} {r : Symbols}
    (hitem : nextItem first s = .ok (true, q))
    (hread : Keeps (fun q' => ∃ t, read q' = .ok (p, t) ∧
      ∀ m, n ≤ m → readAllFrom read m false t = .ok (ps, r)) q u) :
    Keeps (fun s' => ∀ m, n + 1 ≤ m → readAllFrom read m first s' = .ok (p :: ps, r)) s u := by
  refine (Keeps.after (settled_nextItem first) hitem hread).mono ?_
  rintro s' - ⟨q', hitem', t, hp, hrest⟩ m hm
  obtain ⟨m, rfl⟩ : ∃ k, m = k + 1 := ⟨m - 1, by omega⟩
  have := hrest m (by omega)
  simp [readAllFrom, hitem', hp, this, bind, Except.bind, pure, Except.pure]

theorem ItemAt.keeps {i : Nat} (h : ItemAt i first s u) {n : Nat} {ps : List Simpoint} {r : Symbols}
    (hread : readAllFrom read n first s = .ok (ps, r)) :
    Keeps (fun s' => ∀ m, n ≤ m → readAllFrom read m first s' = .ok (ps, r)) s u := by
  induction h generalizing n ps with
  | here hitem hrecord =>
    obtain ⟨n, p, qs, t, rfl, hp, hrest, rfl⟩ := exists_of_nextItem hitem hread
    have hmore : ∀ m, n ≤ m → readAllFrom read m false t = .ok (qs, r) := fun m hm =>
      (agree_readAllFrom settled_read n m hm false).eq_ok hrest
    exact keeps_items hitem ((hrecord.keeps hp).mono fun q' _ h => ⟨t, h, hmore⟩)
  | later hitem hp _ ih =>
    obtain ⟨n, p, qs, t, rfl, hp', hrest, rfl⟩ := exists_of_nextItem hitem hread
    obtain ⟨rfl, rfl⟩ : _ = p ∧ _ = t := by simpa [hp] using hp'
    exact keeps_items hitem (.after settled_read hp (ih hrest))

/-- **A name may be spelled in another way**: the same simpoints are read. -/
theorem NameAt.keeps {i : Nat} (h : NameAt i s u) {y : List Simpoint × Symbols}
    (hread : readAll read s = .ok y) : Keeps (fun s' => readAll read s' = .ok y) s u := by
  obtain ⟨q, hopen, hitem⟩ := h
  obtain ⟨q', hopen', hread⟩ := readAll_eq_ok_iff.1 hread
  obtain rfl : q = q' := by simpa [hopen] using hopen'
  have hitems := (hitem.keeps hread).mono fun q' hlen h => h (q'.length + 1) (by omega)
  refine (Keeps.symbol hopen hitems).mono ?_
  rintro s' - ⟨q', hs', hd'⟩
  exact readAll_eq_ok_iff.2 ⟨q', hs', hd'⟩

end PhaseSampling.Simpoint
