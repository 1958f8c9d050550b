/-
**Templates.**

A template is a text of the query language in which values stand in places of their own.  It is
written as a format, in which a pair of braces holds the place of a value and a doubled brace
stands for itself, or put together from texts and values.

Main definitions:

* `BoundQuery.Template.Part`, `BoundQuery.Template` — a text or a value, and a template;
* `BoundQuery.Template.ofFormat` — the template of a format and its values;
* `BoundQuery.Template.raw`, `BoundQuery.Template.value` — a template with one more part;
* `BoundQuery.Template.segments`, `BoundQuery.Template.values` — the parts with values numbered,
  and the values;
* `BoundQuery.Template.format` — the format of a template.

Main results:

* `BoundQuery.Template.normal_addRaw`, `BoundQuery.Template.normal_addValue` — no text of a
  template is empty, and no two follow each other.
-/

import BoundQuery.Value.Basic

set_option relaxedAutoImplicit false
set_option autoImplicit false

namespace BoundQuery

namespace Template

/-- A part of a template. -/
inductive Part where
  | raw (text : List Char)
  | value (v : Value)
deriving DecidableEq

/-- Whether a part is a text. -/
def Part.isRaw : Part → Bool
  | raw _ => true
  | value _ => false

/-- No text is empty, and no two texts follow each other. -/
def Normal : List Part → Prop
  | [] => True
  | .value _ :: ps => Normal ps
  | .raw t :: ps => t ≠ [] ∧ (∀ p ∈ ps.head?, p.isRaw = false) ∧ Normal ps

/-- A text behind parts, joined to a text at their end. -/
def addRaw (t : List Char) : List Part → List Part
  | [] => if t = [] then [] else [.raw t]
  | [.raw u] => [.raw (u ++ t)]
  | p :: ps => p :: addRaw t ps

/-- A value behind parts. -/
def addValue (v : Value) (ps : List Part) : List Part := ps ++ [.value v]

/-- A character before parts, joined to a text at their beginning. -/
def consChar (c : Char) : List Part → List Part
  | .raw t :: ps => .raw (c :: t) :: ps
  | ps => .raw [c] :: ps

theorem normal_addRaw (t : List Char) (ps : List Part) (h : Normal ps) : Normal (addRaw t ps) := by
  fun_induction addRaw t ps with
  | case1 => simp [Normal]
  | case2 ht => simp [Normal, ht]
  | case3 u => simp_all [Normal]
  | case4 p ps hne ih =>
      cases p with
      | value v => exact ih h
      | raw u =>
          obtain ⟨hu, hhead, hps⟩ := h
          refine ⟨hu, ?_, ih hps⟩
          cases ps with
          | nil => exact absurd rfl (hne u rfl)
          | cons q qs =>
              have hq : q.isRaw = false := hhead q rfl
              cases q with
              | raw w => cases hq
              | value v => cases qs <;> simp [addRaw, Part.isRaw]

theorem normal_addValue (v : Value) (ps : List Part) (h : Normal ps) :
    Normal (addValue v ps) := by
  induction ps with
  | nil => trivial
  | cons p ps ih =>
      cases p with
      | value w => exact ih h
      | raw u =>
          obtain ⟨hu, hhead, hps⟩ := h
          refine ⟨hu, ?_, ih hps⟩
          cases ps with
          | nil => simp [Part.isRaw]
          | cons q qs => exact hhead

theorem normal_consChar (c : Char) (ps : List Part) (h : Normal ps) : Normal (consChar c ps) := by
  unfold consChar
  split
  · exact ⟨by simp, h.2.1, h.2.2⟩
  · next hne =>
      refine ⟨by simp, ?_, h⟩
      cases ps with
      | nil => simp
      | cons q qs =>
          cases q with
          | raw u => exact absurd rfl (hne u qs)
          | value v => simp [Part.isRaw]

/-- The parts of a format from here on: `position` bytes and `placeholders` places of values were
before, and the values are those still to be placed. -/
def partsOfFormat (position placeholders : Nat) (vs : List Value) :
    List Char → Except Error (List Part)
  | [] =>
      if vs.isEmpty then .ok []
      else .error (.argument "template" (.surplusArguments placeholders (placeholders + vs.length)))
  | '\x7b' :: '\x7b' :: s =>
      (partsOfFormat (position + 2) placeholders vs s).map (consChar '\x7b')
  | '\x7b' :: '\x7d' :: s =>
      match vs with
      | [] => .error (.argument "template" (.noArgument (placeholders + 1)))
      | v :: vs => (partsOfFormat (position + 2) (placeholders + 1) vs s).map (.value v :: ·)
  | '\x7d' :: '\x7d' :: s =>
      (partsOfFormat (position + 2) placeholders vs s).map (consChar '\x7d')
  | c :: s =>
      if c = '\x7b' ∨ c = '\x7d' then .error (.argument "template" (.loneBrace c position))
      else (partsOfFormat (position + c.utf8Size) placeholders vs s).map (consChar c)

end Template

/-- A text of the query language with values in places of their own. -/
structure Template where
  parts : List Template.Part
  normal : Template.Normal parts

namespace Template

/-- Nothing. -/
def empty : Template := ⟨[], trivial⟩

/-- The template with a text behind it. -/
def raw (t : Template) (s : String) : Template :=
  ⟨addRaw s.toList t.parts, normal_addRaw _ _ t.normal⟩

/-- The template with a value behind it. -/
def value (t : Template) (v : Value) : Template :=
  ⟨addValue v t.parts, normal_addValue _ _ t.normal⟩

/-- The template of a text without values. -/
def literal (s : String) : Template := empty.raw s

/-- What a function makes of a result is a result. -/
theorem exists_of_map_eq_ok {ε α β : Type} {f : α → β} {r : Except ε α} {b : β}
    (h : r.map f = .ok b) : ∃ a, r = .ok a ∧ f a = b := by
  cases r with
  | error e => cases h
  | ok a => exact ⟨a, rfl, Except.ok.inj h⟩

/-- The parts of a format are those of a template. -/
theorem normal_of_partsOfFormat {position placeholders : Nat} {vs : List Value} {s : List Char}
    {ps : List Part} (h : partsOfFormat position placeholders vs s = .ok ps) : Normal ps := by
  fun_induction partsOfFormat position placeholders vs s generalizing ps with
  | case1 => cases h; trivial
  | case2 => cases h
  | case3 _ _ _ _ ih =>
      obtain ⟨qs, hr, rfl⟩ := exists_of_map_eq_ok h
      exact normal_consChar _ _ (ih hr)
  | case4 => cases h
  | case5 _ _ _ _ _ ih =>
      obtain ⟨qs, hr, rfl⟩ := exists_of_map_eq_ok h
      change Normal qs
      exact ih hr
  | case6 _ _ _ _ ih =>
      obtain ⟨qs, hr, rfl⟩ := exists_of_map_eq_ok h
      exact normal_consChar _ _ (ih hr)
  | case7 => cases h
  | case8 _ _ _ _ _ _ _ _ _ ih =>
      obtain ⟨qs, hr, rfl⟩ := exists_of_map_eq_ok h
      exact normal_consChar _ _ (ih hr)

/-- The template of a format and the values for its places. -/
def ofFormat (format : String) (vs : List Value) : Except Error Template :=
  match h : partsOfFormat 0 0 vs format.toList with
  | .ok ps => .ok ⟨ps, normal_of_partsOfFormat h⟩
  | .error e => .error e

/-- A part of a template with values numbered. -/
inductive Segment where
  | raw (text : List Char)
  | place (index : Nat)
deriving DecidableEq

/-- Parts with their values numbered from `index` on. -/
def numbered (index : Nat) : List Part → List Segment
  | [] => []
  | .raw t :: ps => .raw t :: numbered index ps
  | .value _ :: ps => .place index :: numbered (index + 1) ps

/-- The parts of a template with values numbered from zero on. -/
def segments (t : Template) : List Segment := numbered 0 t.parts

/-- The value of a part. -/
def Part.value? : Part → Option Value
  | raw _ => none
  | value v => some v

/-- The values of a template, in order. -/
def values (t : Template) : List Value := t.parts.filterMap Part.value?

/-- One character of a format. -/
def formatChar (c : Char) : List Char := if c = '\x7b' ∨ c = '\x7d' then [c, c] else [c]

/-- One part of a format. -/
def formatPart : Part → List Char
  | .raw t => t.flatMap formatChar
  | .value _ => ['\x7b', '\x7d']

/-- The format of a template. -/
def format (t : Template) : List Char := t.parts.flatMap formatPart

end Template

end BoundQuery
