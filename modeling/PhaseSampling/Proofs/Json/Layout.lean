import PhaseSampling.Proofs.Json.Rests

/-!
# Layouts of JSON text

The two ways to write a value differ only in their blanks: what stands before an item at each level,
and what stands after a colon. A `Layout` is any choice of these blanks, and `Layout.chars` the text
it gives.

* `compactChars_eq`, `prettyChars_eq`: both ways are layouts.

So whatever is read back from every layout is read back from both.
-/

namespace PhaseSampling.Json

/-- Where the blanks of a text stand. -/
structure Layout where
  /-- What stands before an item or a closing bracket at a level. -/
  gap : Nat → List Char
  /-- What stands after a colon. -/
  space : List Char
  blank_of_mem_gap : ∀ {level : Nat} {c : Char}, c ∈ gap level → Blank (some c)
  blank_of_mem_space : ∀ {c : Char}, c ∈ space → Blank (some c)

namespace Layout

/-- No blanks at all. -/
def tight : Layout := ⟨fun _ => [], [], by simp, by simp⟩

/-- A line for each item and two spaces for each level. -/
def lined : Layout where
  gap := newline
  space := [' ']
  blank_of_mem_gap := by simp +contextual [newline, Blank]
  blank_of_mem_space := by simp [Blank]

@[simp] theorem tight_gap (level : Nat) : tight.gap level = [] := rfl

@[simp] theorem tight_space : tight.space = [] := rfl

@[simp] theorem lined_gap (level : Nat) : lined.gap level = newline level := rfl

@[simp] theorem lined_space : lined.space = [' '] := rfl

/-- What stands before a closing bracket. An empty list or object is closed at once. -/
def close (l : Layout) (level : Nat) (empty : Bool) : List Char :=
  if empty then [] else l.gap level

/-- What stands before an item: a comma, unless it is the first, and the gap. -/
def lead (l : Layout) (level : Nat) (first : Bool) : List Char :=
  (if first then [] else [',']) ++ l.gap level

mutual

/-- The text of a value at a level. -/
def chars (l : Layout) (level : Nat) : Json → List Char
  | .list vs => '[' :: items l (level + 1) true vs ++ l.close level vs.isEmpty ++ [']']
  | .object fs => '\x7b' :: fields l (level + 1) true fs ++ l.close level fs.isEmpty ++ ['\x7d']
  | v => scalarText v

/-- The items of a list at a level, `first` unless others stand before them. -/
def items (l : Layout) (level : Nat) (first : Bool) : List Json → List Char
  | [] => []
  | v :: vs => l.lead level first ++ chars l level v ++ items l level false vs

/-- The fields of an object at a level, `first` unless others stand before them. -/
def fields (l : Layout) (level : Nat) (first : Bool) : List (String × Json) → List Char
  | [] => []
  | (k, v) :: fs =>
    l.lead level first ++ quoted k ++ ':' :: l.space ++ chars l level v ++ fields l level false fs

end

variable {l : Layout} {level : Nat}

theorem items_one (v : Json) : l.items level true [v] = l.gap level ++ l.chars level v := by
  simp [items, lead]

/-- A comma stands between two items. -/
theorem items_more (v w : Json) (vs : List Json) :
    l.items level true (v :: w :: vs) =
      l.gap level ++ l.chars level v ++ ',' :: l.items level true (w :: vs) := by
  simp [items, lead]

theorem fields_one (k : String) (v : Json) :
    l.fields level true [(k, v)] =
      l.gap level ++ quoted k ++ ':' :: l.space ++ l.chars level v := by
  simp [fields, lead]

/-- A comma stands between two fields. -/
theorem fields_more (k : String) (v : Json) (f : String × Json) (fs : List (String × Json)) :
    l.fields level true ((k, v) :: f :: fs) =
      l.gap level ++ quoted k ++ ':' :: l.space ++ l.chars level v ++
        ',' :: l.fields level true (f :: fs) := by
  simp [fields, lead]

end Layout

open Layout

mutual

/-- Text without blanks is a layout, at any level. -/
theorem compactChars_eq (level : Nat) : (v : Json) → compactChars v = tight.chars level v
  | .list vs => by simp [compactChars, chars, close, compactItems_eq (level + 1) vs]
  | .object fs => by simp [compactChars, chars, close, compactFields_eq (level + 1) fs]
  | .null | .bool _ | .word _ | .negative _ | .float _ | .text _ => rfl

theorem compactItems_eq (level : Nat) :
    (vs : List Json) → compactItems vs = tight.items level true vs
  | [] => rfl
  | [v] => by simp [compactItems, items_one, compactChars_eq level v]
  | v :: w :: vs => by
    have hv := compactChars_eq level v
    have hvs := compactItems_eq level (w :: vs)
    simp [compactItems, items_more, hv, hvs]

theorem compactFields_eq (level : Nat) :
    (fs : List (String × Json)) → compactFields fs = tight.fields level true fs
  | [] => rfl
  | [(k, v)] => by simp [compactFields, fields_one, compactChars_eq level v]
  | (k, v) :: f :: fs => by
    have hv := compactChars_eq level v
    have hfs := compactFields_eq level (f :: fs)
    simp [compactFields, fields_more, hv, hfs]

end

mutual

/-- Text with a line for each item is a layout. -/
theorem prettyChars_eq (level : Nat) : (v : Json) → prettyChars level v = lined.chars level v
  | .list [] => rfl
  | .list (v :: vs) => by simp [prettyChars, chars, close, prettyItems_eq (level + 1) (v :: vs)]
  | .object [] => rfl
  | .object (f :: fs) => by
    simp [prettyChars, chars, close, prettyFields_eq (level + 1) (f :: fs)]
  | .null | .bool _ | .word _ | .negative _ | .float _ | .text _ => rfl

theorem prettyItems_eq (level : Nat) :
    (vs : List Json) → prettyItems level vs = lined.items level true vs
  | [] => rfl
  | [v] => by simp [prettyItems, items_one, prettyChars_eq level v]
  | v :: w :: vs => by
    have hv := prettyChars_eq level v
    have hvs := prettyItems_eq level (w :: vs)
    simp [prettyItems, items_more, hv, hvs]

theorem prettyFields_eq (level : Nat) :
    (fs : List (String × Json)) → prettyFields level fs = lined.fields level true fs
  | [] => rfl
  | [(k, v)] => by simp [prettyFields, fields_one, prettyChars_eq level v]
  | (k, v) :: f :: fs => by
    have hv := prettyChars_eq level v
    have hfs := prettyFields_eq level (f :: fs)
    simp [prettyFields, fields_more, hv, hfs]

end

end PhaseSampling.Json
