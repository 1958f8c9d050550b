/-
**Formats and templates.**

A format is a row of units: a doubled brace of either kind, the place of a value, or any other
character.  A text is split into units in one way at most, and it is the format of a template exactly
when it can be split and has a place for every value.  Reading a format and writing the format of a
template are inverse to each other.

Main definitions:

* `BoundQuery.Template.FormatUnit`, `BoundQuery.Template.unitsText` — a unit, and the text of units;
* `BoundQuery.Template.consText` — a text joined to the parts behind it.

Main results:

* `BoundQuery.Template.unitsText_inj` — a text is split into units in one way;
* `BoundQuery.Template.partsOfFormat_format` — the format of parts is read as the parts;
* `BoundQuery.Template.format_of_partsOfFormat` — what is read from a format has the format;
* `BoundQuery.Template.exists_partsOfFormat` — units with a place for every value can be read.
-/

import BoundQuery.Binding.Template
import BoundQuery.Proofs.Binding.Mark

set_option relaxedAutoImplicit false
set_option autoImplicit false

namespace BoundQuery

namespace Template

/-! ### Units of formats -/

/-- A unit of a format. -/
inductive FormatUnit where
  /-- A doubled opening brace. -/
  | opening
  /-- A doubled closing brace. -/
  | closing
  /-- The place of a value. -/
  | place
  /-- A character that is no brace. -/
  | plain (c : Char) (h : c ≠ '\x7b' ∧ c ≠ '\x7d')
deriving DecidableEq

/-- The text of a unit. -/
def FormatUnit.text : FormatUnit → List Char
  | opening => ['\x7b', '\x7b']
  | closing => ['\x7d', '\x7d']
  | place => ['\x7b', '\x7d']
  | plain c _ => [c]

/-- The unit that stands for a character of a text. -/
def FormatUnit.ofChar (c : Char) : FormatUnit :=
  if hopening : c = '\x7b' then opening
  else if hclosing : c = '\x7d' then closing
  else plain c ⟨hopening, hclosing⟩

/-- The text of units. -/
def unitsText (us : List FormatUnit) : List Char := us.flatMap FormatUnit.text

/-- The units of a part. -/
def Part.units : Part → List FormatUnit
  | raw t => t.map FormatUnit.ofChar
  | value _ => [.place]

@[simp] theorem unitsText_nil : unitsText [] = [] := rfl

@[simp] theorem unitsText_cons (u : FormatUnit) (us : List FormatUnit) :
    unitsText (u :: us) = u.text ++ unitsText us := rfl

/-- **A text is split into units in one way.** -/
theorem unitsText_inj {us us' : List FormatUnit} (h : unitsText us = unitsText us') : us = us' := by
  induction us generalizing us' with
  | nil =>
      cases us' with
      | nil => rfl
      | cons u' us' => cases u' <;> simp [FormatUnit.text] at h
  | cons u us ih =>
      cases us' with
      | nil => cases u <;> simp [FormatUnit.text] at h
      | cons u' us' =>
          -- the first two characters tell which unit stands at the front
          have hhead : u = u' ∧ unitsText us = unitsText us' := by
            cases u <;> cases u' <;> simp_all [FormatUnit.text] <;> grind
          rw [hhead.1, ih hhead.2]

theorem text_ofChar (c : Char) : (FormatUnit.ofChar c).text = formatChar c := by
  unfold FormatUnit.ofChar formatChar
  by_cases hopening : c = '\x7b'
  · simp [hopening, FormatUnit.text]
  · by_cases hclosing : c = '\x7d'
    · simp [hclosing, FormatUnit.text]
    · simp [hopening, hclosing, FormatUnit.text]

theorem ofChar_ne_place (c : Char) : FormatUnit.ofChar c ≠ .place := by
  unfold FormatUnit.ofChar
  split
  · simp
  · split <;> simp

/-- The format of parts is the text of their units. -/
theorem unitsText_units (ps : List Part) :
    unitsText (ps.flatMap Part.units) = ps.flatMap formatPart := by
  have htext : ∀ t : List Char, (t.map FormatUnit.ofChar).flatMap FormatUnit.text =
      t.flatMap formatChar := by
    intro t
    simp only [List.flatMap_map, text_ofChar]
  unfold unitsText
  rw [List.flatMap_assoc]
  refine congrArg (List.flatMap · ps) (funext fun p => ?_)
  cases p with
  | raw t => exact htext t
  | value v => rfl

@[simp] theorem filterMap_value?_raw (t : List Char) (ps : List Part) :
    (Part.raw t :: ps).filterMap Part.value? = ps.filterMap Part.value? := rfl

@[simp] theorem filterMap_value?_value (v : Value) (ps : List Part) :
    (Part.value v :: ps).filterMap Part.value? = v :: ps.filterMap Part.value? := rfl

/-- There is one place for every value. -/
theorem count_place_units (ps : List Part) :
    (ps.flatMap Part.units).count .place = (ps.filterMap Part.value?).length := by
  induction ps with
  | nil => rfl
  | cons p ps ih =>
      rw [List.flatMap_cons, List.count_append, ih]
      cases p with
      | raw t =>
          have hnone : (Part.raw t).units.count .place = 0 := by
            refine List.count_eq_zero.2 fun hmem => ?_
            obtain ⟨c, -, hc⟩ := List.mem_map.1 hmem
            exact ofChar_ne_place c hc
          simp [hnone]
      | value v => simp [Part.units, Nat.add_comm]

/-! ### Reading what was written -/

/-- Characters before parts, joined to a text at their beginning. -/
def consText (t : List Char) (ps : List Part) : List Part := t.foldr consChar ps

@[simp] theorem consText_nil (ps : List Part) : consText [] ps = ps := rfl

theorem consText_concat (t : List Char) (c : Char) (ps : List Part) :
    consText (t ++ [c]) ps = consText t (consChar c ps) := by
  simp [consText]

/-- Before parts that do not begin with a text, characters are a text of their own. -/
theorem consText_of_head {t : List Char} {ps : List Part} (ht : t ≠ [])
    (hps : ∀ p ∈ ps.head?, p.isRaw = false) : consText t ps = .raw t :: ps := by
  induction t with
  | nil => exact absurd rfl ht
  | cons c t ih =>
      cases t with
      | nil =>
          cases ps with
          | nil => rfl
          | cons p ps =>
              cases p with
              | raw u => cases hps _ rfl
              | value v => rfl
      | cons d t =>
          have hrest : consText (c :: d :: t) ps = consChar c (consText (d :: t) ps) := rfl
          rw [hrest, ih (by simp)]
          rfl

/-- The parts of a format with a character before it. -/
theorem partsOfFormat_char {vs : List Value} {s : List Char} {ps : List Part}
    (h : ∀ position placeholders, partsOfFormat position placeholders vs s = .ok ps) (c : Char)
    (position placeholders : Nat) :
    partsOfFormat position placeholders vs (formatChar c ++ s) = .ok (consChar c ps) := by
  unfold formatChar
  by_cases hopening : c = '\x7b'
  · simp [hopening, partsOfFormat, h, Except.map]
  · by_cases hclosing : c = '\x7d'
    · simp [hclosing, partsOfFormat, h, Except.map]
    · simp [hopening, hclosing, partsOfFormat, h, Except.map]

theorem partsOfFormat_text {vs : List Value} {s : List Char} {ps : List Part}
    (h : ∀ position placeholders, partsOfFormat position placeholders vs s = .ok ps) (t : List Char)
    (position placeholders : Nat) :
    partsOfFormat position placeholders vs (t.flatMap formatChar ++ s) = .ok (consText t ps) := by
  induction t generalizing position placeholders with
  | nil => exact h position placeholders
  | cons c t ih =>
      rw [List.flatMap_cons, List.append_assoc]
      exact partsOfFormat_char ih c position placeholders

theorem partsOfFormat_place {vs : List Value} {s : List Char} {ps : List Part}
    (h : ∀ position placeholders, partsOfFormat position placeholders vs s = .ok ps) (v : Value)
    (position placeholders : Nat) :
    partsOfFormat position placeholders (v :: vs) ('\x7b' :: '\x7d' :: s) =
      .ok (.value v :: ps) := by
  simp [partsOfFormat, h, Except.map]

/-- **The format of parts is read as the parts**, where no text is empty or follows another one. -/
theorem partsOfFormat_format {ps : List Part} (hps : Normal ps) (position placeholders : Nat) :
    partsOfFormat position placeholders (ps.filterMap Part.value?) (ps.flatMap formatPart) =
      .ok ps := by
  induction ps generalizing position placeholders with
  | nil => rfl
  | cons p ps ih =>
      cases p with
      | raw t =>
          obtain ⟨ht, hhead, hrest⟩ := hps
          rw [List.flatMap_cons, filterMap_value?_raw, ← consText_of_head ht hhead]
          exact partsOfFormat_text (ih hrest) t position placeholders
      | value v =>
          rw [List.flatMap_cons, filterMap_value?_value]
          exact partsOfFormat_place (ih hps) v position placeholders

theorem flatMap_formatPart_consChar (c : Char) (ps : List Part) :
    (consChar c ps).flatMap formatPart = formatChar c ++ ps.flatMap formatPart := by
  unfold consChar
  split
  · simp [formatPart]
  · simp [formatPart]

theorem filterMap_value?_consChar (c : Char) (ps : List Part) :
    (consChar c ps).filterMap Part.value? = ps.filterMap Part.value? := by
  unfold consChar
  split <;> rfl

/-- **What is read from a format has the format**, and the values that were given for it. -/
theorem format_of_partsOfFormat {position placeholders : Nat} {vs : List Value} {s : List Char}
    {ps : List Part} (h : partsOfFormat position placeholders vs s = .ok ps) :
    ps.flatMap formatPart = s ∧ ps.filterMap Part.value? = vs := by
  have hchar : ∀ {s : List Char} {vs : List Value} {qs : List Part} (c : Char),
      qs.flatMap formatPart = s ∧ qs.filterMap Part.value? = vs →
      (consChar c qs).flatMap formatPart = formatChar c ++ s ∧
        (consChar c qs).filterMap Part.value? = vs := by
    rintro _ _ qs c ⟨rfl, rfl⟩
    exact ⟨flatMap_formatPart_consChar c qs, filterMap_value?_consChar c qs⟩
  fun_induction partsOfFormat position placeholders vs s generalizing ps with
  | case1 _ _ vs hnone =>
      cases h
      exact ⟨rfl, (List.isEmpty_iff.1 hnone).symm⟩
  | case2 => cases h
  | case3 _ _ _ _ ih =>
      obtain ⟨qs, hr, rfl⟩ := exists_of_map_eq_ok h
      exact hchar '\x7b' (ih hr)
  | case4 => cases h
  | case5 _ _ _ v vs ih =>
      obtain ⟨qs, hr, rfl⟩ := exists_of_map_eq_ok h
      obtain ⟨hformat, hvalues⟩ := ih hr
      refine ⟨?_, ?_⟩
      · rw [List.flatMap_cons, hformat]
        rfl
      · rw [filterMap_value?_value, hvalues]
  | case6 _ _ _ _ ih =>
      obtain ⟨qs, hr, rfl⟩ := exists_of_map_eq_ok h
      exact hchar '\x7d' (ih hr)
  | case7 => cases h
  | case8 _ _ _ c s _ _ _ hc ih =>
      obtain ⟨qs, hr, rfl⟩ := exists_of_map_eq_ok h
      have hformat : formatChar c = [c] := if_neg hc
      have hread := hchar c (ih hr)
      rw [hformat] at hread
      exact hread

/-- Units with a place for every value are a format. -/
theorem exists_partsOfFormat {us : List FormatUnit} {vs : List Value}
    (h : us.count .place = vs.length) : ∃ ps, ∀ position placeholders,
      partsOfFormat position placeholders vs (unitsText us) = .ok ps := by
  induction us generalizing vs with
  | nil =>
      obtain rfl : vs = [] := List.length_eq_zero_iff.1 h.symm
      exact ⟨[], fun _ _ => rfl⟩
  | cons u us ih =>
      cases u with
      | place =>
          cases vs with
          | nil => simp at h
          | cons v vs =>
              obtain ⟨ps, hps⟩ := ih (by simpa using h)
              exact ⟨.value v :: ps, partsOfFormat_place hps v⟩
      | opening =>
          obtain ⟨ps, hps⟩ := ih (by simpa using h)
          exact ⟨consChar '\x7b' ps, partsOfFormat_char hps '\x7b'⟩
      | closing =>
          obtain ⟨ps, hps⟩ := ih (by simpa using h)
          exact ⟨consChar '\x7d' ps, partsOfFormat_char hps '\x7d'⟩
      | plain c hc =>
          obtain ⟨ps, hps⟩ := ih (by simpa using h)
          have hformat : formatChar c = [c] := if_neg (not_or.2 hc)
          have hchar := partsOfFormat_char hps c
          rw [hformat] at hchar
          exact ⟨consChar c ps, hchar⟩

end Template

end BoundQuery
