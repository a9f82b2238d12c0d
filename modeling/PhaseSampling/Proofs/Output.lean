import PhaseSampling.Output
import PhaseSampling.Proofs.Text.Octets

/-!
# What outputs hold

* `Output.writeAll_of_unbounded`: an output without a bound takes everything.
* `Output.within`: an output cut off at a bound. It holds the first bytes of the whole one, and every
  write keeps it so (`write_within`). Several texts go well if all of them fit (`writeAll_within`).
-/

namespace PhaseSampling.Output

open Text

variable {o o' : Output} {n : Nat}

/-- An output without a bound takes any text. -/
theorem writeText_of_unbounded (ho : o.capacity = none) (s : String) :
    ∃ o', o.writeText s = (.ok (), o') ∧ o'.capacity = none ∧
      o'.toBytes = o.toBytes ++ Utf8.encode s := by
  have hfit : o.fitting (Utf8.encode s) = Utf8.encode s := by rw [fitting, ho]
  refine ⟨(o.write (Utf8.encode s)).2, ?_, ho, ?_⟩
  · rw [writeText, write, hfit, if_pos rfl]
  · rw [toBytes_write, hfit]

/-- So it takes any texts. -/
theorem writeAll_of_unbounded (ho : o.capacity = none) (ss : List String) :
    ∃ o', o.writeAll ss = (.ok (), o') ∧ o'.toBytes = o.toBytes ++ Utf8.encode (String.join ss) := by
  induction ss generalizing o with
  | nil => exact ⟨o, rfl, (List.append_nil _).symm⟩
  | cons s ss ih =>
    obtain ⟨o₁, hwrite, ho₁, hbytes₁⟩ := writeText_of_unbounded ho s
    obtain ⟨o₂, hall, hbytes₂⟩ := ih ho₁
    refine ⟨o₂, ?_, ?_⟩
    · rw [writeAll, hwrite]
      exact hall
    · rw [hbytes₂, hbytes₁, List.append_assoc, ← Utf8.encode_append, ← String.join_cons]

/-! ## Cut off at a bound -/

/-- The first `n` bytes of an output, with no room for more. -/
def within (o : Output) (n : Nat) : Output := ⟨(o.toBytes.take n).toArray, some n⟩

theorem toBytes_within (o : Output) (n : Nat) : (o.within n).toBytes = o.toBytes.take n := rfl

theorem unbounded_within (n : Nat) : unbounded.within n = bounded n := by
  simp [within, unbounded, bounded, toBytes]

/-- What is cut off already stays as it is. -/
theorem within_eq_of_isPrefix (hp : o.toBytes <+: o'.toBytes) (hn : n ≤ o.toBytes.length) :
    o'.within n = o.within n := by
  obtain ⟨more, hmore⟩ := hp
  rw [within, within, ← hmore, List.take_append_of_le_length hn]

/-- **A write** keeps an output cut off. It goes well if everything fits, or if there is nothing to
write. -/
theorem write_within (ho : o.capacity = none) (n : Nat) (bs : Bytes) :
    (o.within n).write bs =
      (if bs = [] ∨ (o.toBytes ++ bs).length ≤ n then .ok () else .error (.system .outputFull),
        (o.write bs).2.within n) := by
  have hroom : (o.within n).content.size = min n o.toBytes.length := by simp [within]
  have hkept : (o.within n).fitting bs = bs.take (n - o.toBytes.length) := by
    show bs.take (n - (o.within n).content.size) = _
    rw [hroom]
    congr 1
    omega
  have hfits : ((o.within n).fitting bs).length = bs.length ↔
      bs = [] ∨ (o.toBytes ++ bs).length ≤ n := by
    rw [hkept, List.length_take, List.length_append, ← List.length_eq_zero_iff]
    omega
  have hafter : (o.write bs).2.within n =
      { o.within n with content := (o.within n).content ++ (o.within n).fitting bs } := by
    rw [within, toBytes_write, fitting, ho, List.take_append, hkept]
    simp [within]
  rw [write, hafter]
  simp only [hfits]

theorem writeText_within (ho : o.capacity = none) (n : Nat) {s : String} (hs : Utf8.encode s ≠ []) :
    (o.within n).writeText s =
      (if (o.toBytes ++ Utf8.encode s).length ≤ n then .ok () else .error (.system .outputFull),
        (o.writeText s).2.within n) := by
  rw [writeText, write_within ho]
  simp only [hs, false_or]
  rfl

/-- **Several texts** go up to the first that does not fit. -/
theorem writeAll_within (ho : o.capacity = none) (hn : o.toBytes.length ≤ n) (ss : List String) :
    (o.within n).writeAll ss =
      (if (o.writeAll ss).2.toBytes.length ≤ n then .ok () else .error (.system .outputFull),
        (o.writeAll ss).2.within n) := by
  induction ss generalizing o with
  | nil => rw [writeAll, writeAll, if_pos hn]
  | cons s ss ih =>
    obtain ⟨o₁, hwrite, ho₁, hbytes₁⟩ := writeText_of_unbounded ho s
    obtain ⟨o₂, hall, hbytes₂⟩ := writeAll_of_unbounded ho₁ ss
    have hboth : o.writeAll (s :: ss) = o₁.writeAll ss := by rw [writeAll, hwrite]
    have hstep : (o.within n).writeText s =
        (if Utf8.encode s = [] ∨ o₁.toBytes.length ≤ n then .ok ()
          else .error (.system .outputFull), o₁.within n) := by
      have hw := write_within ho n (Utf8.encode s)
      rwa [← hbytes₁, show (o.write (Utf8.encode s)).2 = o₁ from congrArg Prod.snd hwrite] at hw
    rw [hboth, writeAll, hstep]
    by_cases hfit : o₁.toBytes.length ≤ n
    · rw [if_pos (.inr hfit)]
      exact ih ho₁ hfit
    -- the text does not fit, so that it is not empty, and nothing comes behind it
    · have hne : Utf8.encode s ≠ [] := by
        intro he
        rw [hbytes₁, he, List.append_nil] at hfit
        exact hfit hn
      have hlong : ¬ (o₁.writeAll ss).2.toBytes.length ≤ n := by
        rw [hall, hbytes₂, List.length_append]
        omega
      rw [if_neg (by simp [hne, hfit]), if_neg hlong, hall]
      have hpre : o₁.toBytes <+: o₂.toBytes := ⟨_, hbytes₂.symm⟩
      rw [within_eq_of_isPrefix hpre (by omega)]

end PhaseSampling.Output
