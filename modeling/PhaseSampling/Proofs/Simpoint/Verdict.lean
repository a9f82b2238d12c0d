import Mathlib.Data.List.Nodup
import Mathlib.Order.Bounds.Basic
import PhaseSampling.Proofs.Replay.Timeline

/-!
# The verdict on a list of simpoints

A list can have many faults at once. What is said of it is decided by their kinds, and within a
kind by their places.

* `Simpoint.Compared`, `Simpoint.Precedes`: what two neighbours are compared by, and when they
  increase.
* `Simpoint.Verdict`: the verdict on a list, in terms of its places.
* `Simpoint.Uniform.isChain_iff_pairwise`: if all simpoints have a number, or none has one, it is
  enough to compare neighbours.
* `Simpoint.validate_verdict`: **a list is refused for the first fault of the first kind**, and a
  uniform list that is accepted has no part that is refused.
-/

namespace PhaseSampling.Simpoint

variable {ps qs : List Simpoint} {p q r : Simpoint} {a b i : Nat} {name : String}

/-- The two values that neighbours are compared by: the numbers of their intervals if both have one,
else the waypoints at which the intervals begin. -/
inductive Compared (p q : Simpoint) : Nat → Nat → Prop where
  | numbers {a b : Nat} (hp : p.interval = some a) (hq : q.interval = some b) : Compared p q a b
  | waypoints (h : p.interval = none ∨ q.interval = none) :
      Compared p q p.waypoints.interval q.waypoints.interval

/-- What two simpoints are compared by goes up. -/
def Precedes (p q : Simpoint) : Prop := ∃ a b, p.Compared q a b ∧ a < b

theorem compared_iff : p.Compared q a b ↔ p.keys q = (a, b) := by
  rw [keys]
  constructor
  · intro h
    cases h with
    | numbers hp hq => rw [hp, hq]
    | waypoints h =>
      rcases h with h | h
      · rw [h]
      · rw [h]
        cases p.interval <;> rfl
  · intro h
    split at h
    · rename_i hp hq
      cases h
      exact .numbers hp hq
    · rename_i hnone
      cases h
      refine .waypoints ?_
      cases hp : p.interval with
      | none => exact .inl rfl
      | some a =>
        cases hq : q.interval with
        | none => exact .inr rfl
        | some b => exact absurd hq (hnone a b hp)

theorem precedes_iff : p.Precedes q ↔ (p.keys q).1 < (p.keys q).2 := by
  constructor
  · rintro ⟨a, b, hab, hlt⟩
    rw [compared_iff.1 hab]
    exact hlt
  · intro h
    exact ⟨_, _, compared_iff.2 rfl, h⟩

/-! ## Faults and their places -/

/-- A simpoint with the name of one before it. -/
def Repeated (ps : List Simpoint) (i : Nat) : Prop :=
  ∃ p j q, ps[i]? = some p ∧ j < i ∧ ps[j]? = some q ∧ q.name = p.name

/-- A simpoint whose waypoints go down. -/
def Unordered (ps : List Simpoint) (i : Nat) : Prop :=
  ∃ p, ps[i]? = some p ∧
    (p.waypoints.interval < p.waypoints.warmup ∨ p.waypoints.stop < p.waypoints.interval)

/-- A simpoint that does not increase to the next one. -/
def NotIncreasing (ps : List Simpoint) (i : Nat) : Prop :=
  ∃ p q a b, ps[i]? = some p ∧ ps[i + 1]? = some q ∧ p.Compared q a b ∧ b ≤ a

/-- **The verdict on a list.** Repeated names come first, whatever else is wrong, then waypoints out
of order, then neighbours that do not increase; of several faults of a kind it names the first. -/
inductive Verdict (ps : List Simpoint) : Except Fault Unit → Prop where
  | valid (hn : (ps.map Simpoint.name).Nodup)
      (ho : ∀ p ∈ ps, p.waypoints.warmup ≤ p.waypoints.interval ∧
        p.waypoints.interval ≤ p.waypoints.stop)
      (hc : ps.IsChain Precedes) : Verdict ps (.ok ())
  | repeated {i : Nat} {p : Simpoint} (hi : IsLeast {j | Repeated ps j} i) (hp : ps[i]? = some p) :
      Verdict ps (.error (.duplicateName p.name))
  | unordered {i : Nat} {p : Simpoint} (hn : (ps.map Simpoint.name).Nodup)
      (hi : IsLeast {j | Unordered ps j} i) (hp : ps[i]? = some p) :
      Verdict ps (.error (.unorderedWaypoints p.name p.waypoints.warmup p.waypoints.interval
        p.waypoints.stop))
  | notIncreasing {i : Nat} {p q : Simpoint} {a b : Nat} (hn : (ps.map Simpoint.name).Nodup)
      (ho : ∀ p ∈ ps, p.waypoints.warmup ≤ p.waypoints.interval ∧
        p.waypoints.interval ≤ p.waypoints.stop)
      (hi : IsLeast {j | NotIncreasing ps j} i) (hp : ps[i]? = some p) (hq : ps[i + 1]? = some q)
      (hab : p.Compared q a b) : Verdict ps (.error (.notIncreasing p.name q.name a b))

theorem nodup_names_iff : (ps.map Simpoint.name).Nodup ↔ ∀ i, ¬ Repeated ps i := by
  rw [List.nodup_iff_getElem?_ne_getElem?]
  constructor
  · rintro h i ⟨p, j, q, hp, hlt, hq, hname⟩
    have hi : i < (ps.map Simpoint.name).length := by
      rw [List.length_map]
      exact (List.getElem?_eq_some_iff.1 hp).1
    refine h j i hlt hi ?_
    rw [List.getElem?_map, List.getElem?_map, hp, hq, Option.map_some, Option.map_some, hname]
  · intro h j i hlt hi heq
    rw [List.length_map] at hi
    have hj : j < ps.length := Nat.lt_trans hlt hi
    refine h i ⟨ps[i], j, ps[j], List.getElem?_eq_getElem hi, hlt, List.getElem?_eq_getElem hj, ?_⟩
    rw [List.getElem?_map, List.getElem?_map, List.getElem?_eq_getElem hi,
      List.getElem?_eq_getElem hj] at heq
    exact Option.some.inj heq

/-- The first name that repeats ends a part of the list in which none does. -/
theorem split_of_firstRepeated {seen : List String} (h : firstRepeated seen ps = some name) :
    ∃ before p after, ps = before ++ p :: after ∧ p.name = name ∧
      firstRepeated seen before = none ∧ (p.name ∈ seen ∨ ∃ q ∈ before, q.name = p.name) := by
  induction ps generalizing seen with
  | nil => cases h
  | cons p ps ih =>
    rw [firstRepeated] at h
    split at h
    · rename_i hp
      exact ⟨[], p, ps, rfl, Option.some.inj h, rfl, .inl hp⟩
    · rename_i hp
      obtain ⟨before, q, after, rfl, hq, hnone, hmem⟩ := ih h
      refine ⟨p :: before, q, after, rfl, hq, ?_, ?_⟩
      · rw [firstRepeated, if_neg hp, hnone]
      · rcases hmem with hmem | ⟨r, hr, hname⟩
        · rcases List.mem_cons.1 hmem with hname | hseen
          · exact .inr ⟨p, List.mem_cons_self, hname.symm⟩
          · exact .inl hseen
        · exact .inr ⟨r, List.mem_cons_of_mem _ hr, hname⟩

/-- **The first repeated name** is that of the first simpoint that repeats one. -/
theorem exists_of_firstRepeated (h : firstRepeated [] ps = some name) :
    ∃ i p, IsLeast {j | Repeated ps j} i ∧ ps[i]? = some p ∧ p.name = name := by
  obtain ⟨before, p, after, rfl, hname, hnone, hmem⟩ := split_of_firstRepeated h
  have hp : (before ++ p :: after)[before.length]? = some p := by simp
  refine ⟨before.length, p, ⟨?_, ?_⟩, hp, hname⟩
  · obtain hseen | ⟨q, hq, hqp⟩ := hmem
    · cases hseen
    obtain ⟨j, hj⟩ := List.getElem?_of_mem hq
    have hlt : j < before.length := (List.getElem?_eq_some_iff.1 hj).1
    exact ⟨p, j, q, hp, hlt, by rw [List.getElem?_append_left hlt, hj], hqp⟩
  · rintro i ⟨q, j, r, hq, hlt, hr, hrq⟩
    refine Nat.not_lt.1 fun hi => ?_
    -- such a repetition would lie in front of the one that was found
    rw [List.getElem?_append_left hi] at hq
    rw [List.getElem?_append_left (Nat.lt_trans hlt hi)] at hr
    have hnodup := (firstRepeated_eq_none_iff.1 hnone).2
    exact nodup_names_iff.1 hnodup i ⟨q, j, r, hq, hlt, hr, hrq⟩

theorem not_ordered_iff : ¬ p.waypoints.Ordered ↔
    p.waypoints.interval < p.waypoints.warmup ∨ p.waypoints.stop < p.waypoints.interval := by
  unfold Waypoints.Ordered
  omega

/-- **The first simpoint out of order.** -/
theorem exists_of_firstUnordered (h : firstUnordered ps = some p) :
    ∃ i, IsLeast {j | Unordered ps j} i ∧ ps[i]? = some p := by
  rw [firstUnordered, List.find?_eq_some_iff_append] at h
  obtain ⟨hp, before, after, rfl, hbefore⟩ := h
  have hp : ¬ p.waypoints.Ordered := by simpa using hp
  have hmid : (before ++ p :: after)[before.length]? = some p := by simp
  refine ⟨before.length, ⟨⟨p, hmid, not_ordered_iff.1 hp⟩, ?_⟩, hmid⟩
  rintro i ⟨q, hq, hbad⟩
  refine Nat.not_lt.1 fun hi => ?_
  rw [List.getElem?_append_left hi] at hq
  have hordered : q.waypoints.Ordered := by simpa using hbefore q (List.mem_of_getElem? hq)
  exact not_ordered_iff.2 hbad hordered

theorem notIncreasing_cons_succ : NotIncreasing (p :: ps) (i + 1) ↔ NotIncreasing ps i := Iff.rfl

/-- **The first neighbours that do not increase.** -/
theorem exists_of_firstNotIncreasing (h : firstNotIncreasing ps = some (p, q)) :
    ∃ i, IsLeast {j | NotIncreasing ps j} i ∧ ps[i]? = some p ∧ ps[i + 1]? = some q := by
  induction ps with
  | nil => cases h
  | cons p' ps ih =>
    cases ps with
    | nil => cases h
    | cons q' ps =>
      rw [firstNotIncreasing] at h
      split at h
      · rename_i hle
        cases h
        have hzero : NotIncreasing (p :: q :: ps) 0 :=
          ⟨p, q, _, _, rfl, rfl, compared_iff.2 rfl, hle⟩
        exact ⟨0, ⟨hzero, fun _ _ => Nat.zero_le _⟩, rfl, rfl⟩
      · rename_i hle
        obtain ⟨i, ⟨hi, hleast⟩, hp, hq⟩ := ih h
        refine ⟨i + 1, ⟨notIncreasing_cons_succ.2 hi, fun j hj => ?_⟩, hp, hq⟩
        cases j with
        | zero =>
          obtain ⟨p₁, q₁, a, b, hp₁, hq₁, hab, hba⟩ := hj
          cases hp₁
          cases hq₁
          rw [compared_iff.1 hab] at hle
          exact absurd hba hle
        | succ j => exact Nat.succ_le_succ (hleast (notIncreasing_cons_succ.1 hj))

theorem not_notIncreasing_of_isChain (hc : ps.IsChain Precedes) (i : Nat) :
    ¬ NotIncreasing ps i := by
  rintro ⟨p, q, a, b, hp, hq, hab, hba⟩
  obtain ⟨hi, rfl⟩ := List.getElem?_eq_some_iff.1 hp
  obtain ⟨hi', rfl⟩ := List.getElem?_eq_some_iff.1 hq
  have hlt := precedes_iff.1 (List.isChain_iff_getElem.1 hc i hi')
  rw [compared_iff.1 hab] at hlt
  exact Nat.not_lt.2 hba hlt

theorem firstNotIncreasing_none_iff : firstNotIncreasing ps = none ↔ ps.IsChain Precedes := by
  rw [firstNotIncreasing_eq_none_iff]
  exact List.IsChain.iff fun p q => precedes_iff.symm

/-- The check gives a verdict. -/
theorem verdict_validate (ps : List Simpoint) : Verdict ps (validate ps) := by
  rw [validate]
  cases hr : firstRepeated [] ps with
  | some name =>
    obtain ⟨i, p, hi, hp, rfl⟩ := exists_of_firstRepeated hr
    exact .repeated hi hp
  | none =>
    have hn := firstRepeated_nil_eq_none_iff.1 hr
    cases hu : firstUnordered ps with
    | some p =>
      obtain ⟨i, hi, hp⟩ := exists_of_firstUnordered hu
      exact .unordered hn hi hp
    | none =>
      have ho := firstUnordered_eq_none_iff.1 hu
      cases hc : firstNotIncreasing ps with
      | some pq =>
        obtain ⟨p, q⟩ := pq
        obtain ⟨i, hi, hp, hq⟩ := exists_of_firstNotIncreasing hc
        exact .notIncreasing hn ho hi hp hq (compared_iff.2 rfl)
      | none => exact .valid hn ho (firstNotIncreasing_none_iff.1 hc)

/-- There is no other verdict. -/
theorem Verdict.validate_eq {v : Except Fault Unit} (h : Verdict ps v) : validate ps = v := by
  rw [validate]
  cases h with
  | valid hn ho hc =>
    rw [firstRepeated_nil_eq_none_iff.2 hn, firstUnordered_eq_none_iff.2 ho,
      firstNotIncreasing_none_iff.2 hc]
  | @repeated i p hi hp =>
    cases hr : firstRepeated [] ps with
    | none => exact absurd hi.1 (nodup_names_iff.1 (firstRepeated_nil_eq_none_iff.1 hr) i)
    | some name =>
      obtain ⟨i', p', hi', hp', rfl⟩ := exists_of_firstRepeated hr
      rw [hi'.unique hi, hp] at hp'
      cases hp'
      rfl
  | @unordered i p hn hi hp =>
    rw [firstRepeated_nil_eq_none_iff.2 hn]
    cases hu : firstUnordered ps with
    | none =>
      obtain ⟨q, hq, hbad⟩ := hi.1
      obtain ⟨hle, hle'⟩ := firstUnordered_eq_none_iff.1 hu q (List.mem_of_getElem? hq)
      omega
    | some p' =>
      obtain ⟨i', hi', hp'⟩ := exists_of_firstUnordered hu
      rw [hi'.unique hi, hp] at hp'
      cases hp'
      rfl
  | @notIncreasing i p q a b hn ho hi hp hq hab =>
    rw [firstRepeated_nil_eq_none_iff.2 hn, firstUnordered_eq_none_iff.2 ho]
    cases hc : firstNotIncreasing ps with
    | none => exact absurd hi.1 (not_notIncreasing_of_isChain (firstNotIncreasing_none_iff.1 hc) i)
    | some pq =>
      obtain ⟨p', q'⟩ := pq
      obtain ⟨i', hi', hp', hq'⟩ := exists_of_firstNotIncreasing hc
      rw [hi'.unique hi] at hp' hq'
      rw [hp] at hp'
      rw [hq] at hq'
      cases hp'
      cases hq'
      have hkeys := compared_iff.1 hab
      show Except.error (Fault.notIncreasing p.name q.name (p.keys q).1 (p.keys q).2) = _
      rw [hkeys]

/-! ## Uniform lists -/

/-- All simpoints have a number, or none has one. -/
def Uniform (ps : List Simpoint) : Prop :=
  (∀ p ∈ ps, p.interval ≠ none) ∨ ∀ p ∈ ps, p.interval = none

/-- The simpoints of a uniform list are compared by one key. -/
theorem Uniform.exists_key (h : Uniform ps) :
    ∃ key : Simpoint → Nat, ∀ p q, p ∈ ps → q ∈ ps → (p.Precedes q ↔ key p < key q) := by
  rcases h with h | h
  · refine ⟨fun p => p.interval.getD 0, fun p q hp hq => ?_⟩
    obtain ⟨a, ha⟩ := Option.ne_none_iff_exists'.1 (h p hp)
    obtain ⟨b, hb⟩ := Option.ne_none_iff_exists'.1 (h q hq)
    simp only [precedes_iff, keys, ha, hb, Option.getD_some]
  · refine ⟨fun p => p.waypoints.interval, fun p q hp hq => ?_⟩
    rw [precedes_iff, keys, h p hp]

/-- **Neighbours are enough** in a uniform list. -/
theorem Uniform.isChain_iff_pairwise (h : Uniform ps) :
    ps.IsChain Precedes ↔ ps.Pairwise Precedes := by
  obtain ⟨key, hkey⟩ := h.exists_key
  have htrans : Trans (fun p q : Simpoint => key p < key q) (fun p q => key p < key q)
      fun p q => key p < key q := ⟨fun h h' => Nat.lt_trans h h'⟩
  calc ps.IsChain Precedes
      ↔ ps.IsChain fun p q => key p < key q := List.IsChain.iff_of_mem_imp hkey
    _ ↔ ps.Pairwise fun p q => key p < key q := List.isChain_iff_pairwise
    _ ↔ ps.Pairwise Precedes := List.Pairwise.iff_of_mem fun hp hq => (hkey _ _ hp hq).symm

theorem Uniform.sublist (h : Uniform ps) (hs : qs.Sublist ps) : Uniform qs :=
  h.imp (fun h p hp => h p (hs.subset hp)) fun h p hp => h p (hs.subset hp)

theorem valid_iff : validate ps = .ok () ↔ (ps.map Simpoint.name).Nodup ∧
    (∀ p ∈ ps, p.waypoints.Ordered) ∧ ps.IsChain Precedes := by
  rw [validate_eq_ok_iff, ← firstNotIncreasing_eq_none_iff, firstNotIncreasing_none_iff]

/-- Parts of a uniform list that is valid are valid. -/
theorem Uniform.validate_sublist (h : Uniform ps) (hv : validate ps = .ok ())
    (hs : qs.Sublist ps) : validate qs = .ok () := by
  obtain ⟨hn, ho, hc⟩ := valid_iff.1 hv
  refine valid_iff.2 ⟨?_, fun p hp => ho p (hs.subset hp), ?_⟩
  · exact hn.sublist (hs.map Simpoint.name)
  · rw [(h.sublist hs).isChain_iff_pairwise]
    exact (h.isChain_iff_pairwise.1 hc).sublist hs

/-- **A list of simpoints is refused for the first fault of the first kind.** In a uniform list
neighbours that increase stand for all pairs, and parts of one that is accepted are accepted. -/
theorem validate_verdict (ps : List Simpoint) :
    (∀ v, validate ps = v ↔ Verdict ps v) ∧
    (Uniform ps → (ps.IsChain Precedes ↔ ps.Pairwise Precedes) ∧
      ∀ qs : List Simpoint, validate ps = .ok () → qs.Sublist ps → validate qs = .ok ()) := by
  refine ⟨fun v => ⟨fun h => ?_, Verdict.validate_eq⟩, fun h => ⟨h.isChain_iff_pairwise, ?_⟩⟩
  · rw [← h]
    exact verdict_validate ps
  · intro qs hv hs
    exact h.validate_sublist hv hs

/-- Three simpoints whose numbers go up while their waypoints go down, and a list with faults of all
three kinds. -/
theorem validate_verdict_three :
    validate [⟨"a", ⟨0⟩, ⟨0, 10, 20⟩, some 3⟩, ⟨"b", ⟨0⟩, ⟨5, 5, 9⟩, some 4⟩,
        ⟨"c", ⟨0⟩, ⟨2, 4, 8⟩, some 9⟩] = .ok () ∧
      validate [⟨"a", ⟨0⟩, ⟨0, 10, 20⟩, some 3⟩, ⟨"c", ⟨0⟩, ⟨2, 4, 8⟩, some 9⟩] = .ok () ∧
      Verdict [⟨"a", ⟨0⟩, ⟨0, 10, 5⟩, none⟩, ⟨"b", ⟨0⟩, ⟨5, 5, 9⟩, some 4⟩,
        ⟨"a", ⟨0⟩, ⟨2, 4, 8⟩, some 4⟩] (.error (.duplicateName "a")) := by
  have hvalid : validate [⟨"a", ⟨0⟩, ⟨0, 10, 20⟩, some 3⟩, ⟨"b", ⟨0⟩, ⟨5, 5, 9⟩, some 4⟩,
      ⟨"c", ⟨0⟩, ⟨2, 4, 8⟩, some 9⟩] = .ok () := rfl
  have huniform : Uniform [⟨"a", ⟨0⟩, ⟨0, 10, 20⟩, some 3⟩, ⟨"b", ⟨0⟩, ⟨5, 5, 9⟩, some 4⟩,
      ⟨"c", ⟨0⟩, ⟨2, 4, 8⟩, some 9⟩] := .inl (by decide)
  refine ⟨hvalid, ((validate_verdict _).2 huniform).2 _ hvalid ?_, ((validate_verdict _).1 _).1 rfl⟩
  exact .cons_cons _ (.cons _ (.refl _))

end PhaseSampling.Simpoint
