import PhaseSampling.Checkpoint.Manifest
import PhaseSampling.Proofs.Json.Reading

/-!
# The manifest reads back

A manifest is written for whoever measures from its checkpoints later. `manifest_reads_back`: its
text holds every field of every checkpoint, save a weight that is no finite number, which is gone.
-/

namespace PhaseSampling

open Json Text

variable {l : Layout} {i : Nat}

namespace Checkpoint

/-- A checkpoint whose numbers can be written: its counts are words, and its weight, if it has a
finite one, reads back. -/
structure Writable (c : Checkpoint) : Prop where
  warmup : c.warmup < wordLimit
  interval : c.interval < wordLimit
  stop : c.stop < wordLimit
  weight : ∀ w ∈ c.weight, w.isFinite → w.ReadsBack

/-- A checkpoint without a weight that has no text. -/
def kept (c : Checkpoint) : Checkpoint := { c with weight := c.weight.filter (·.isFinite) }

/-- A weight, which is written as null if it is not finite. -/
theorem takes_weight {w : Binary64} (h : w.isFinite → w.ReadsBack) :
    Takes (readOption readFloat) (l.chars i (.float w)) (some w |>.filter (·.isFinite)) := by
  simp only [Layout.chars, scalarText, floatText, Option.filter_some]
  by_cases hw : w.isFinite
  · rw [if_pos hw, if_pos hw]
    exact takes_some (takes_float (h hw))
  · rw [if_neg hw, if_neg hw]
    exact takes_null readFloat

theorem takes_read {c : Checkpoint} (h : c.Writable) :
    Takes read (l.chars i c.toJson) c.kept := by
  let d : Draft := ⟨c.name, c.short, c.long, c.warmup, c.interval, c.stop, none⟩
  have hall : Gathers l (i + 1) Draft.step
      [("name", .text c.name), ("short_name", .text c.short), ("long_name", .text c.long),
        ("warmup", .word c.warmup), ("interval", .word c.interval), ("end", .word c.stop)] {} d := by
    simp only [Gathers, Draft.step]
    exact ⟨_, takes_fresh (takes_text c.name) _, _, takes_fresh (takes_text c.short) _,
      _, takes_fresh (takes_text c.long) _, _, takes_fresh (takes_word h.warmup) _,
      _, takes_fresh (takes_word h.interval) _, _, takes_fresh (takes_word h.stop) _, rfl⟩
  cases hw : c.weight with
  | none =>
    have hkept : d.finish = some c.kept := by
      simp [d, Draft.finish, kept, hw]
    rw [toJson, hw]
    exact takes_record (hall.append rfl) hkept
  | some w =>
    have hweight := takes_weight (l := l) (i := i + 1) (h.weight w hw)
    have hmore : Gathers l (i + 1) Draft.step [("weight", .float w)] d
        { d with weight := some (some w |>.filter (·.isFinite)) } := by
      simp only [Gathers, Draft.step]
      exact ⟨_, takes_fresh hweight _, rfl⟩
    have hkept : { d with weight := some (some w |>.filter (·.isFinite)) }.finish =
        some c.kept := by
      simp [d, Draft.finish, kept, hw]
    rw [toJson, hw]
    exact takes_record (hall.append hmore) hkept

end Checkpoint

theorem Counter.ofName?_name (c : Counter) : ofName? c.name = some c := by
  cases c <;> rfl

theorem Counter.takes_read (c : Counter) : Takes read (quoted c.name) c := by
  have htext := takes_text c.name
  apply takes_of_skipBlank
  · intro s
    simp only [read, skipBlank_skipBlank]
  · intro r hr
    have hquote : ¬ Blank (some '"') := by decide
    have hread := htext (b := []) (by simp) hr
    simp only [List.nil_append] at hread
    have hname : readName ((quoted c.name).map some ++ r) = .ok (c, r) := by
      simp [readName, hread, ofName?_name, bind, Except.bind, pure, Except.pure]
    simpa [read, quoted, skipBlank_cons hquote] using hname

namespace Manifest

/-- In every layout. -/
theorem takes_read {m : Manifest} (h : ∀ c ∈ m.checkpoints, c.Writable) :
    Takes read (l.chars i m.toJson)
      { m with checkpoints := m.checkpoints.map Checkpoint.kept } := by
  have hlist : Takes (readAll Checkpoint.read)
      (l.chars (i + 1) (.list (m.checkpoints.map Checkpoint.toJson)))
      (m.checkpoints.map Checkpoint.kept) :=
    takes_all fun c hc => ⟨Checkpoint.takes_read (h c hc), opens_object _⟩
  have hall : Gathers l (i + 1) Draft.step
      [("created", .text m.created), ("counter", .text m.counter.name),
        ("checkpoints", .list (m.checkpoints.map Checkpoint.toJson))] {}
      ⟨m.created, m.counter, some (m.checkpoints.map Checkpoint.kept)⟩ := by
    simp only [Gathers, Draft.step]
    exact ⟨_, takes_fresh (takes_text m.created) _, _, takes_fresh (Counter.takes_read m.counter) _,
      _, takes_fresh hlist _, rfl⟩
  exact takes_record hall rfl

end Manifest

/-- The text of a manifest holds the whole of it. -/
theorem Manifest.parse_write (m : Manifest) (h : ∀ c ∈ m.checkpoints, c.Writable) :
    parse (Utf8.encode m.write) =
      .ok { m with checkpoints := m.checkpoints.map Checkpoint.kept } := by
  have hread := takes_read (l := .lined) (i := 0) h (b := []) (by simp) ends_nil
  rw [List.nil_append, List.append_nil, ← prettyChars_eq] at hread
  rw [parse, readFrom, Utf8.symbols_encode, write, pretty, String.toList_ofList, hread]
  rfl

/-- What is saved is the text. -/
theorem Manifest.save_eq_ok {m : Manifest} {t t' : FileTree} {outdir path : String}
    (h : m.save t outdir = .ok (path, t')) :
    ∃ p, t.fileToWrite path = .ok p ∧ t'.get? p = some (.file .plain (Utf8.encode m.write)) := by
  simp only [save, FileTree.writeFile] at h
  cases hp : t.fileToWrite (manifestPath outdir) with
  | error f => simp [hp] at h
  | ok p =>
    obtain ⟨rfl, rfl⟩ : manifestPath outdir = path ∧ _ = t' := by simpa [hp] using h
    have hne : p ≠ [] := by
      -- the root is a directory, and no file is written there
      rintro rfl
      have hroot : t.isDir [] = true := rfl
      unfold FileTree.fileToWrite at hp
      grind
    refine ⟨p, hp, ?_⟩
    rw [FileTree.get?_put t hne, if_pos rfl]

/-- **A manifest reads back.** What is saved is the text, and the text gives the counter and every
checkpoint again, in order and with every field, save a weight that is no finite number: that one is
gone. -/
theorem manifest_reads_back (m : Manifest) (h : ∀ c ∈ m.checkpoints, c.Writable) :
    Manifest.parse (Utf8.encode m.write) =
        .ok { m with checkpoints := m.checkpoints.map Checkpoint.kept } ∧
      ∀ t outdir path t', m.save t outdir = .ok (path, t') →
        ∃ p, t.fileToWrite path = .ok p ∧ t'.get? p = some (.file .plain (Utf8.encode m.write)) :=
  ⟨m.parse_write h, fun _ _ _ _ => Manifest.save_eq_ok⟩

/-- Quotes, backslashes and control characters in the names, the largest word, and weights of
one half, of no number and of none. -/
theorem manifest_reads_back_escapes :
    (∀ c ∈ [(⟨"a\"\\\n\x01é", "/", "", 0, 1, 18446744073709551615,
        some ⟨0x3FE0000000000000⟩⟩ : Checkpoint), ⟨"1", "b", "c", 2, 3, 4, some ⟨0x7FF8000000000000⟩⟩,
        ⟨"2", "d", "e", 5, 6, 7, none⟩], c.Writable) ∧
      Manifest.parse (Utf8.encode (Manifest.write ⟨"now", .waypoint,
        [⟨"a\"\\\n\x01é", "/", "", 0, 1, 18446744073709551615, some ⟨0x3FE0000000000000⟩⟩,
          ⟨"1", "b", "c", 2, 3, 4, some ⟨0x7FF8000000000000⟩⟩, ⟨"2", "d", "e", 5, 6, 7, none⟩]⟩)) =
        .ok ⟨"now", .waypoint,
          [⟨"a\"\\\n\x01é", "/", "", 0, 1, 18446744073709551615, some ⟨0x3FE0000000000000⟩⟩,
            ⟨"1", "b", "c", 2, 3, 4, none⟩, ⟨"2", "d", "e", 5, 6, 7, none⟩]⟩ := by
  have hhalf : (⟨0x3FE0000000000000⟩ : Binary64).ReadsBack := rfl
  have hnan : (⟨0x7FF8000000000000⟩ : Binary64).isFinite = false := by decide
  have hwritable : ∀ c ∈ [(⟨"a\"\\\n\x01é", "/", "", 0, 1, 18446744073709551615,
      some ⟨0x3FE0000000000000⟩⟩ : Checkpoint), ⟨"1", "b", "c", 2, 3, 4, some ⟨0x7FF8000000000000⟩⟩,
      ⟨"2", "d", "e", 5, 6, 7, none⟩], c.Writable := by
    intro c hc
    rcases (by simpa using hc : c = _ ∨ c = _ ∨ c = _) with rfl | rfl | rfl
    · exact ⟨by decide, by decide, by decide, fun w hw _ => Option.some.inj hw ▸ hhalf⟩
    · refine ⟨by decide, by decide, by decide, fun w hw hf => ?_⟩
      rw [← Option.some.inj hw, hnan] at hf
      cases hf
    · exact ⟨by decide, by decide, by decide, by simp⟩
  exact ⟨hwritable, (manifest_reads_back ⟨"now", .waypoint, _⟩ hwritable).1.trans rfl⟩

end PhaseSampling
