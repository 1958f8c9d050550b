/-
**What is kept of templates.**

What is kept of a template is built up from the front, one text or value after the other, and a text
that is read from a format is held back until a value comes.  Each of these steps does to what is
kept what the step on templates does to the template, so what is kept is always that of a template:
its texts stand apart, and every number in it has its value.

Main definitions:

* `BoundQuery.Template.Kept.Made` — what is kept of templates, however they were put together;
* `BoundQuery.Template.Kept.Shaped` — no text is empty or follows another one, and the values have
  their numbers in order.

Main results:

* `BoundQuery.Template.Kept.readFormat_eq`, `BoundQuery.Template.Kept.ofFormat_eq` — what is kept of
  a format is what is kept of its template;
* `BoundQuery.Template.Kept.made_iff` — nothing else is made;
* `BoundQuery.Template.block_kept` — it does in a query what the template does;
* `BoundQuery.Template.Kept.format_inverse` — reading a format and writing the format of a template
  are inverse to each other.
-/

import BoundQuery.Proofs.Binding.Format
import BoundQuery.Binding.Kept
import BoundQuery.Proofs.Binding.Mark
import Mathlib.Data.List.Chain

set_option relaxedAutoImplicit false
set_option autoImplicit false

namespace BoundQuery

namespace Template

/-! ### Texts and values behind parts -/

theorem addRaw_nil (ps : List Part) : addRaw [] ps = ps := by
  fun_induction addRaw [] ps with
  | case1 => rfl
  | case2 h => exact absurd rfl h
  | case3 u => rw [List.append_nil]
  | case4 p ps _ ih => rw [ih]

theorem addRaw_concat (t : List Char) (ps : List Part) (p : Part) :
    addRaw t (ps ++ [p]) = ps ++ addRaw t [p] := by
  induction ps with
  | nil => rfl
  | cons q ps ih =>
      have hne : ps ++ [p] ≠ [] := by simp
      rw [List.cons_append, List.cons_append, ← ih]
      cases hps : ps ++ [p] with
      | nil => exact absurd hps hne
      | cons r rs => cases q <;> rfl

/-- A text behind parts that do not end in one is a part of its own, unless it is empty. -/
theorem addRaw_eq_append (t : List Char) {ps : List Part} (hps : ∀ p ∈ ps.getLast?, p.isRaw = false) :
    addRaw t ps = ps ++ consText t [] := by
  by_cases ht : t = []
  · rw [ht, addRaw_nil, consText_nil, List.append_nil]
  · rw [consText_of_head ht (by simp)]
    rcases ps.eq_nil_or_concat with rfl | ⟨qs, p, rfl⟩
    · simp [addRaw, ht]
    · rw [List.concat_eq_append] at hps ⊢
      cases p with
      | raw u => simp [Part.isRaw] at hps
      | value v => simp [addRaw_concat, addRaw, ht]

/-! ### Parts as they are kept -/

theorem numbered_append (i : Nat) (ps qs : List Part) :
    numbered i (ps ++ qs) =
      numbered i ps ++ numbered (i + (ps.filterMap Part.value?).length) qs := by
  induction ps generalizing i with
  | nil => rfl
  | cons p ps ih =>
      cases p with
      | raw t => simp [numbered, ih]
      | value v => simp [numbered, ih, Nat.add_assoc, Nat.add_comm 1]

/-- Parts as they are kept. -/
def keptOf (ps : List Part) : Kept := ⟨numbered 0 ps, ps.filterMap Part.value?⟩

theorem keptOf_addValue (v : Value) (ps : List Part) :
    keptOf (addValue v ps) = (keptOf ps).value v := by
  simp [keptOf, addValue, Kept.value, numbered_append, numbered]

theorem keptOf_addRaw (t : List Char) (ps : List Part) :
    keptOf (addRaw t ps) = (keptOf ps).raw t := by
  by_cases ht : t = []
  · rw [ht, addRaw_nil, Kept.raw, if_pos rfl]
  · rw [Kept.raw, if_neg ht]
    rcases ps.eq_nil_or_concat with rfl | ⟨qs, p, rfl⟩
    · simp [keptOf, addRaw, ht, numbered, Kept.joinText]
    · rw [List.concat_eq_append, addRaw_concat]
      cases p with
      | raw u => simp [keptOf, addRaw, numbered_append, numbered, Kept.joinText]
      | value v => simp [keptOf, addRaw, ht, numbered_append, numbered, Kept.joinText]

/-- Characters before parts that do not begin with a text stand apart from them. -/
theorem consText_eq_append (t : List Char) {ps : List Part}
    (hps : ∀ p ∈ ps.head?, p.isRaw = false) : consText t ps = consText t [] ++ ps := by
  cases t with
  | nil => rfl
  | cons c t =>
      rw [consText_of_head (by simp) hps, consText_of_head (by simp) (by simp)]
      rfl

/-- A character that is held back behind others is the first one of what comes. -/
theorem map_keptOf_concat (ps : List Part) (held : List Char) (c : Char)
    (r : Except Error (List Part)) :
    (r.map fun qs => keptOf (ps ++ consText (held ++ [c]) qs)) =
      (r.map (consChar c)).map fun qs => keptOf (ps ++ consText held qs) := by
  cases r with
  | error e => rfl
  | ok qs => simp [Except.map, consText_concat]

theorem map_parts_ofFormat (format : String) (vs : List Value) :
    (ofFormat format vs).map parts = partsOfFormat 0 0 vs format.toList := by
  unfold ofFormat
  split
  · next ps hps => exact hps.symm
  · next e he => exact he.symm

namespace Kept

/-- **What is kept of a format is what is kept of its parts**, behind those that were before. -/
theorem readFormat_eq {position placeholders : Nat} {held : List Char} {ps : List Part}
    {vs : List Value} {s : List Char} (hps : ∀ p ∈ ps.getLast?, p.isRaw = false) :
    readFormat position placeholders held (keptOf ps) vs s =
      (partsOfFormat position placeholders vs s).map fun qs =>
        keptOf (ps ++ consText held qs) := by
  fun_induction partsOfFormat position placeholders vs s generalizing held ps with
  | case1 _ _ vs hnone =>
      rw [readFormat, if_pos hnone, ← keptOf_addRaw, addRaw_eq_append held hps]
      rfl
  | case2 _ _ vs hsome =>
      rw [readFormat, if_neg hsome]
      rfl
  | case3 position placeholders vs s ih =>
      rw [readFormat, ih hps, map_keptOf_concat]
  | case4 => rfl
  | case5 position placeholders s v vs ih =>
      have hlast : ∀ p ∈ (addValue v (addRaw held ps)).getLast?, p.isRaw = false := by
        simp [addValue, Part.isRaw]
      rw [readFormat, ← keptOf_addRaw, ← keptOf_addValue, ih hlast, addRaw_eq_append held hps]
      cases partsOfFormat (position + 2) (placeholders + 1) vs s with
      | error e => rfl
      | ok qs =>
          have happart : consText held (.value v :: qs) = consText held [] ++ .value v :: qs :=
            consText_eq_append held (by simp [Part.isRaw])
          simp [Except.map, addValue, happart]
  | case6 position placeholders vs s ih =>
      rw [readFormat, ih hps, map_keptOf_concat]
  | case7 position placeholders vs c s hopening hplace hclosing hc =>
      rw [readFormat, if_pos hc]
      · rfl
      · exact hopening
      · exact hplace
      · exact hclosing
  | case8 position placeholders vs c s hopening hplace hclosing hc ih =>
      rw [readFormat, if_neg hc, ih hps, map_keptOf_concat]
      · exact hopening
      · exact hplace
      · exact hclosing

theorem ofFormat_eq_map_keptOf (format : String) (vs : List Value) :
    ofFormat format vs = (partsOfFormat 0 0 vs format.toList).map keptOf := by
  have hlast : ∀ p ∈ ([] : List Part).getLast?, p.isRaw = false := by simp
  exact readFormat_eq hlast

theorem ofFormat_eq (format : String) (vs : List Value) :
    ofFormat format vs = (Template.ofFormat format vs).map kept := by
  rw [ofFormat_eq_map_keptOf, ← map_parts_ofFormat]
  cases Template.ofFormat format vs <;> rfl

end Kept

/-! ### All that is made -/

/-- A template is read from its own format with its own values. -/
theorem ofFormat_format (t : Template) : ofFormat (String.ofList t.format) t.values = .ok t := by
  have hread := map_parts_ofFormat (String.ofList t.format) t.values
  rw [String.toList_ofList] at hread
  obtain ⟨u, hu, hparts⟩ := exists_of_map_eq_ok (hread.trans (partsOfFormat_format t.normal 0 0))
  obtain ⟨ps, hps⟩ := t
  obtain ⟨qs, hqs⟩ := u
  cases hparts
  exact hu

theorem format_of_ofFormat {format : String} {vs : List Value} {t : Template}
    (h : ofFormat format vs = .ok t) : t.format = format.toList ∧ t.values = vs := by
  have hread := map_parts_ofFormat format vs
  rw [h] at hread
  exact format_of_partsOfFormat hread.symm

namespace Kept

/-- What is kept of templates, however they are put together. -/
inductive Made : Kept → Prop
  | empty : Made empty
  | raw {k : Kept} (t : List Char) : Made k → Made (k.raw t)
  | value {k : Kept} (v : Value) : Made k → Made (k.value v)
  | ofFormat {format : String} {vs : List Value} {k : Kept} :
      ofFormat format vs = .ok k → Made k

/-- **What is made is kept of templates.** -/
theorem made_iff {k : Kept} : Made k ↔ ∃ t : Template, t.kept = k := by
  constructor
  · intro h
    induction h with
    | empty => exact ⟨.empty, rfl⟩
    | raw t _ ih =>
        obtain ⟨u, rfl⟩ := ih
        refine ⟨u.raw (String.ofList t), ?_⟩
        have hparts : (u.raw (String.ofList t)).parts = addRaw (String.ofList t).toList u.parts :=
          rfl
        rw [String.toList_ofList] at hparts
        change keptOf (u.raw (String.ofList t)).parts = (keptOf u.parts).raw t
        rw [hparts, keptOf_addRaw]
    | value v _ ih =>
        obtain ⟨u, rfl⟩ := ih
        exact ⟨u.value v, keptOf_addValue v u.parts⟩
    | ofFormat h =>
        rw [ofFormat_eq] at h
        obtain ⟨t, -, ht⟩ := exists_of_map_eq_ok h
        exact ⟨t, ht⟩
  · rintro ⟨t, rfl⟩
    have hread : ofFormat (String.ofList t.format) t.values = .ok t.kept := by
      rw [ofFormat_eq, ofFormat_format]
      rfl
    exact .ofFormat hread

end Kept

/-! ### The shape of what is kept -/

/-- Whether a segment is a text. -/
def Segment.isRaw : Segment → Bool
  | raw _ => true
  | place _ => false

/-- The number of a value. -/
def Segment.index? : Segment → Option Nat
  | raw _ => none
  | place i => some i

/-- No text is empty or follows another one, and the values have their numbers in order. -/
structure Kept.Shaped (k : Kept) : Prop where
  nonempty : ∀ t, Segment.raw t ∈ k.segments → t ≠ []
  apart : k.segments.IsChain fun a b => ¬(a.isRaw = true ∧ b.isRaw = true)
  indices : k.segments.filterMap Segment.index? = List.range k.values.length

theorem ne_nil_of_mem_numbered {i : Nat} {ps : List Part} (hps : Normal ps) {t : List Char}
    (h : Segment.raw t ∈ numbered i ps) : t ≠ [] := by
  induction ps generalizing i with
  | nil => cases h
  | cons p ps ih =>
      cases p with
      | raw u =>
          obtain ⟨hu, -, hrest⟩ := hps
          rcases List.mem_cons.1 h with heq | h
          · cases heq
            exact hu
          · exact ih hrest h
      | value v =>
          rcases List.mem_cons.1 h with heq | h
          · cases heq
          · exact ih hps h

theorem isChain_numbered (i : Nat) {ps : List Part} (hps : Normal ps) :
    (numbered i ps).IsChain fun a b => ¬(a.isRaw = true ∧ b.isRaw = true) := by
  induction ps generalizing i with
  | nil => exact .nil
  | cons p ps ih =>
      cases p with
      | value v =>
          refine List.IsChain.cons (ih (i + 1) hps) ?_
          intro b _ h
          cases h.1
      | raw t =>
          obtain ⟨-, hhead, hrest⟩ := hps
          refine List.IsChain.cons (ih i hrest) ?_
          cases ps with
          | nil => simp [numbered]
          | cons q qs =>
              have hq : q.isRaw = false := hhead q rfl
              cases q with
              | raw u => cases hq
              | value v => simp [numbered, Segment.isRaw]

theorem filterMap_index?_numbered (i : Nat) (ps : List Part) :
    (numbered i ps).filterMap Segment.index? =
      List.range' i (ps.filterMap Part.value?).length := by
  induction ps generalizing i with
  | nil => rfl
  | cons p ps ih =>
      cases p with
      | raw t => exact ih i
      | value v =>
          rw [filterMap_value?_value, List.length_cons, List.range'_succ, ← ih (i + 1)]
          rfl

theorem shaped_kept (t : Template) : t.kept.Shaped where
  nonempty _ h := ne_nil_of_mem_numbered t.normal h
  apart := isChain_numbered 0 t.normal
  indices := by
    rw [List.range_eq_range']
    exact filterMap_index?_numbered 0 t.parts

/-! ### What it does -/

theorem flatMap_segmentFormat_numbered (i : Nat) (ps : List Part) :
    (numbered i ps).flatMap Kept.segmentFormat = ps.flatMap formatPart := by
  induction ps generalizing i with
  | nil => rfl
  | cons p ps ih =>
      cases p with
      | raw t => exact congrArg (t.flatMap formatChar ++ ·) (ih i)
      | value v => exact congrArg (['\x7b', '\x7d'] ++ ·) (ih (i + 1))

theorem format_kept (t : Template) : t.kept.format = t.format :=
  flatMap_segmentFormat_numbered 0 t.parts

/-- Every number has its value. -/
theorem map_action_numbered (before : List Value) (ps : List Part) (label : String) :
    (numbered before.length ps).map (Kept.action (before ++ ps.filterMap Part.value?) label) =
      ps.map (Part.action label) := by
  induction ps generalizing before with
  | nil => rfl
  | cons p ps ih =>
      cases p with
      | raw t => exact congrArg (Action.write t :: ·) (ih before)
      | value v =>
          have hvalues : before ++ (Part.value v :: ps).filterMap Part.value? =
              before ++ [v] ++ ps.filterMap Part.value? := by simp
          have hlength : (before ++ [v]).length = before.length + 1 := by simp
          have hvalue : (before ++ [v] ++ ps.filterMap Part.value?)[before.length]? = some v := by
            simp
          have hrest := ih (before ++ [v])
          rw [hlength] at hrest
          rw [hvalues, numbered, List.map_cons, List.map_cons, hrest, Kept.action, hvalue]
          rfl

/-- **What is kept of a template does what the template does.** -/
theorem block_kept (t : Template) (label : String) : t.kept.block label = t.block label :=
  map_action_numbered [] t.parts label

/-- No argument of a template is missing. -/
theorem performBlock_ne_missingArgument (t : Template) (s : Session) (label name : String)
    (i : Nat) : (s.performBlock (t.block label)).2 ≠ some (.argument name (.missingArgument i)) := by
  rw [Session.performBlock_error]
  intro h
  obtain ⟨a, ha, herror⟩ := List.exists_of_findSome?_eq_some h
  obtain ⟨p, -, rfl⟩ := List.mem_map.1 ha
  cases p with
  | raw u => cases herror
  | value v =>
      obtain ⟨_, heq | ⟨_, heq⟩⟩ := exists_reason_of_bindingError? herror
      · cases heq
      · cases heq

/-- **Reading a format and writing the format of a template are inverse to each other.**  A text is
split into units in one way at most, and it is read as a template exactly when it is, with as many
places as there are values; what is kept has the text for its format and the values as they were
given.  However a template was made, its texts stand apart and its values have their numbers in
order, it is read from its own format with its own values, and none of them is missing when it is
put into a query. -/
theorem Kept.format_inverse :
    (∀ (format : String) (vs : List Value),
      (∀ us us', unitsText us = format.toList → unitsText us' = format.toList → us = us') ∧
      ((∃ k, ofFormat format vs = .ok k) ↔
        ∃ us, unitsText us = format.toList ∧ us.count .place = vs.length) ∧
      ∀ k, ofFormat format vs = .ok k →
        k.format = format.toList ∧ k.values = vs ∧ k.Shaped) ∧
    ∀ k, Made k → k.Shaped ∧ ofFormat (String.ofList k.format) k.values = .ok k ∧
      (∃ t : Template, t.kept = k ∧ ∀ label, k.block label = t.block label) ∧
      ∀ (s : Session) (label name : String) (i : Nat),
        (s.performBlock (k.block label)).2 ≠ some (.argument name (.missingArgument i)) := by
  refine ⟨fun format vs => ⟨fun us us' h h' => unitsText_inj (h.trans h'.symm), ⟨?_, ?_⟩, ?_⟩,
    fun k hk => ?_⟩
  · rintro ⟨k, hk⟩
    rw [ofFormat_eq] at hk
    obtain ⟨t, ht, -⟩ := exists_of_map_eq_ok hk
    obtain ⟨hformat, rfl⟩ := format_of_ofFormat ht
    exact ⟨t.parts.flatMap Part.units, (unitsText_units t.parts).trans hformat,
      count_place_units t.parts⟩
  · rintro ⟨us, hus, hcount⟩
    obtain ⟨ps, hps⟩ := exists_partsOfFormat hcount
    refine ⟨keptOf ps, ?_⟩
    rw [ofFormat_eq_map_keptOf, ← hus, hps 0 0]
    rfl
  · intro k hk
    rw [ofFormat_eq] at hk
    obtain ⟨t, ht, rfl⟩ := exists_of_map_eq_ok hk
    obtain ⟨hformat, hvalues⟩ := format_of_ofFormat ht
    exact ⟨(format_kept t).trans hformat, hvalues, shaped_kept t⟩
  · obtain ⟨t, rfl⟩ := made_iff.1 hk
    refine ⟨shaped_kept t, ?_, ⟨t, rfl, block_kept t⟩, fun s label name i => ?_⟩
    · have hvalues : t.kept.values = t.values := rfl
      rw [format_kept, hvalues, ofFormat_eq, ofFormat_format]
      rfl
    · rw [block_kept]
      exact performBlock_ne_missingArgument t s label name i

/-- Braces next to a place are told from it, and put together piece by piece the template is the
same. -/
theorem Kept.format_inverse_braces :
    ofFormat "\x7b\x7b\x7b\x7d\x7d\x7d" [.boolean true] =
      .ok ⟨[.raw ['\x7b'], .place 0, .raw ['\x7d']], [.boolean true]⟩ ∧
    (∃ us, unitsText us = "\x7b\x7b\x7b\x7d\x7d\x7d".toList ∧ us.count .place = 1) ∧
    ofFormat (String.ofList (((empty.raw ['\x7b']).value (.boolean true)).raw ['\x7d']).format)
        [.boolean true] =
      .ok (((empty.raw ['\x7b']).value (.boolean true)).raw ['\x7d']) := by
  have hread : ofFormat "\x7b\x7b\x7b\x7d\x7d\x7d" [.boolean true] =
      .ok ⟨[.raw ['\x7b'], .place 0, .raw ['\x7d']], [.boolean true]⟩ := by decide
  obtain ⟨hformat, hmade⟩ := Kept.format_inverse
  refine ⟨hread, (hformat _ _).2.1.1 ⟨_, hread⟩, ?_⟩
  exact (hmade _ (.raw _ (.value _ (.raw _ .empty)))).2.1

end Template

end BoundQuery
