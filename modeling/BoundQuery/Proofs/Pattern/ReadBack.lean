/-
**Which patterns read back.**

A pattern is kept in one spelling of its text, and its literal is made from that spelling.  Both
leave a backslash at the very end alone where nothing is behind it, and the reader of expressions
is trusted to refuse it.  It does so wherever no comment is, in which a backslash means nothing.
There the literal doubles the backslash, and what reads back is another pattern, or none.

Main definitions:

* `BoundQuery.Pattern.Accepts` — a pattern is made from a text, by itself or as a stored value.

Main results:

* `BoundQuery.Pattern.endsUnpaired_normalize` — the spelling in which a text is kept ends in a lone
  backslash exactly when the text does;
* `BoundQuery.Pattern.ofLiteral_literal_eq_ok_iff` — what the literal of a pattern is read as;
* `BoundQuery.Pattern.accepted_reads_back_iff` — **an accepted pattern reads back exactly when its
  text does not end in a backslash that has nothing behind it**.
-/

import BoundQuery.Proofs.Pattern.Pairs
import BoundQuery.Proofs.Scan.Forms
import BoundQuery.Value.Stored

set_option relaxedAutoImplicit false
set_option autoImplicit false

namespace BoundQuery

namespace Pattern

/-! ### Lone backslashes -/

/-- The spelling in which a text is kept ends in a lone backslash exactly when the text does. -/
theorem endsUnpaired_normalize (s : List Char) : endsUnpaired (normalize s) = endsUnpaired s := by
  fun_induction normalize s with
  | case1 => rfl
  | case2 => rfl
  | case3 s ih => exact ih
  | case4 s ih => exact (endsUnpaired_cons (by decide) _).trans ih
  | case5 c s _ _ ih => exact ih
  | case6 s ih => exact ih.trans (endsUnpaired_cons (by decide) _).symm
  | case7 c s hlone hbreak hslash hpair hnewline ih =>
      have hb := ne_backslash_of_alone hlone hpair
      rw [endsUnpaired_cons hb, endsUnpaired_cons hb, ih]

/-- A lone backslash at the end makes a pair with a backslash behind it, which is kept. -/
theorem normalize_append_backslash {s : List Char} (h : endsUnpaired s = true) :
    normalize (s ++ ['\\']) = normalize s ++ ['\\'] := by
  fun_induction normalize s with
  | case1 => cases h
  | case2 => rfl
  | case3 s ih =>
      simp only [List.cons_append, normalize]
      rw [ih h]
  | case4 s ih =>
      simp only [List.cons_append, normalize]
      rw [ih h]
  | case5 c s hn hs ih =>
      simp only [List.cons_append]
      rw [normalize_pair hn hs, ih h]
  | case6 s ih =>
      rw [endsUnpaired_cons (by decide)] at h
      simp only [List.cons_append, normalize]
      rw [ih h]
  | case7 c s hlone hbreak hslash hpair hnewline ih =>
      have hb := ne_backslash_of_alone hlone hpair
      rw [endsUnpaired_cons hb] at h
      simp only [List.cons_append]
      rw [normalize_cons hb hnewline, ih h]

/-- The spelling in which a text is kept has no characters of its own but those of a line break. -/
theorem mem_of_mem_normalize {s : List Char} {c : Char} (h : c ∈ normalize s) :
    c ∈ s ∨ c = '\\' ∨ c = 'n' := by
  fun_induction normalize s with
  | case1 => cases h
  | case2 => exact .inl h
  | case3 s ih =>
      simp only [List.mem_cons] at h ⊢
      rcases h with h | h | h
      · exact .inr (.inl h)
      · exact .inr (.inr h)
      · exact (ih h).imp_left fun h => .inr (.inr h)
  | case4 s ih =>
      simp only [List.mem_cons] at h ⊢
      rcases h with h | h
      · exact .inl (.inr (.inl h))
      · exact (ih h).imp_left fun h => .inr (.inr h)
  | case5 d s _ _ ih =>
      simp only [List.mem_cons] at h ⊢
      rcases h with h | h | h
      · exact .inl (.inl h)
      · exact .inl (.inr (.inl h))
      · exact (ih h).imp_left fun h => .inr (.inr h)
  | case6 s ih =>
      simp only [List.mem_cons] at h ⊢
      rcases h with h | h | h
      · exact .inr (.inl h)
      · exact .inr (.inr h)
      · exact (ih h).imp_left .inr
  | case7 d s _ _ _ _ _ ih =>
      simp only [List.mem_cons] at h ⊢
      rcases h with h | h
      · exact .inl (.inl h)
      · exact (ih h).imp_left .inr

/-! ### Literals -/

theorem spelling_of_ofText {s : List Char} {p : Pattern} (h : ofText s = .ok p) :
    p.spelling = normalize s := by
  unfold ofText at h
  split at h
  · cases h
    rfl
  · cases h

/-- The spelling of a pattern ends in a lone backslash exactly when its text does. -/
theorem endsUnpaired_spelling {s : List Char} {p : Pattern} (h : ofText s = .ok p) :
    endsUnpaired p.spelling = endsUnpaired s := by
  rw [spelling_of_ofText h, endsUnpaired_normalize]

/-- A backslash that the writer doubled is kept as a pair. -/
theorem normalize_append_doubled (p : Pattern) :
    normalize (p.spelling ++ doubled p.spelling) = p.spelling ++ doubled p.spelling := by
  cases hlone : endsUnpaired p.spelling with
  | false => rw [doubled_of_paired hlone, List.append_nil, p.normal]
  | true => rw [doubled_of_unpaired hlone, normalize_append_backslash hlone, p.normal]

/-- What is taken for a pattern is the pattern of the spelling between slashes. -/
theorem exists_of_pattern {s rest : List Char} {p : Pattern}
    (h : Scanner.pattern s = .ok (p, rest)) :
    ∃ t, (Scanner.char '/').andThen (fun _ => Scanner.spelling) s = .ok (t, rest) ∧
      ofText t = .ok p := by
  obtain ⟨t, hslashes, hp⟩ := Scanner.exists_of_filterMap h
  refine ⟨t, hslashes, ?_⟩
  cases hread : ofText t with
  | error e =>
      rw [hread] at hp
      cases hp
  | ok q =>
      rw [hread] at hp
      cases hp
      rfl

/-- The literal of a pattern is read as the pattern of its spelling and of the backslash that the
writer doubled. -/
theorem ofLiteral_literal_eq_ok_iff {p : Pattern} {v : Value} :
    Value.ofLiteral (String.ofList p.literal) = .ok v ↔
      ∃ q, v = .pattern q ∧ ofText (p.spelling ++ doubled p.spelling) = .ok q := by
  have hslashes := Scanner.slashes_literal p []
  rw [List.append_nil] at hslashes
  have hform : LiteralForm.ofText p.literal = some .pattern := rfl
  rw [Value.ofLiteral, String.toList_ofList, Scanner.whole_eq_ok_iff,
    LiteralForm.literal_eq_ok_iff hform]
  constructor
  · intro h
    obtain ⟨q, hpattern, hv⟩ := Scanner.exists_of_map h
    obtain ⟨t, hread, hq⟩ := exists_of_pattern hpattern
    rw [hslashes] at hread
    cases hread
    exact ⟨q, hv.symm, hq⟩
  · rintro ⟨q, rfl, hq⟩
    have hpattern : Scanner.pattern p.literal = .ok (q, []) :=
      Scanner.filterMap_of_ok hslashes (by rw [hq]; rfl)
    exact Scanner.map_of_ok hpattern Value.pattern

/-! ### Accepted texts -/

/-- A pattern is made from a text, by itself or as a stored value. -/
def Accepts (s : String) (p : Pattern) : Prop :=
  ofText s.toList = .ok p ∨ ofJson (.string s) = some p

/-- A stored text is accepted as it is by itself. -/
theorem accepts_iff {s : String} {p : Pattern} : Accepts s p ↔ ofText s.toList = .ok p := by
  have hstored : ofJson (.string s) = (ofText s.toList).toOption := rfl
  constructor
  · rintro (h | h)
    · exact h
    · rw [hstored] at h
      cases hs : ofText s.toList with
      | ok q =>
          rw [hs] at h
          cases h
          rfl
      | error e =>
          rw [hs] at h
          cases h
  · exact .inl

/-- The text of a pattern that holds no number sign does not end in a lone backslash. -/
theorem endsUnpaired_of_ofText {s : List Char} {p : Pattern} (h : ofText s = .ok p)
    (hs : '#' ∉ s) : endsUnpaired s = false := by
  rw [← endsUnpaired_spelling h]
  refine endsUnpaired_of_isAdmissible p.admissible ?_
  rw [spelling_of_ofText h]
  intro hmem
  rcases mem_of_mem_normalize hmem with hmem | hmem | hmem
  · exact hs hmem
  · exact absurd hmem (by decide)
  · exact absurd hmem (by decide)

/-- Whatever the literal of a pattern is read as, it is a pattern, and its spelling is the one that
the literal was made from with the backslash behind it that the writer doubled. -/
theorem exists_of_ofLiteral_literal {s : List Char} {p : Pattern} {v : Value}
    (h : ofText s = .ok p) (hv : Value.ofLiteral (String.ofList p.literal) = .ok v) :
    ∃ q, v = .pattern q ∧ q.spelling = p.spelling ++ doubled s := by
  obtain ⟨q, rfl, hq⟩ := ofLiteral_literal_eq_ok_iff.1 hv
  refine ⟨q, rfl, ?_⟩
  rw [spelling_of_ofText hq, normalize_append_doubled, doubled, doubled, endsUnpaired_spelling h]

/-- **An accepted pattern reads back exactly when its text does not end in a backslash that has
nothing behind it**, which it never does without a number sign.  Otherwise what is read, if
anything, is a pattern with one more backslash.  That a number sign is needed is a fact about the
reader of expressions, which takes characters in pairs everywhere but in comments; all else holds
whichever texts are accepted. -/
theorem accepted_reads_back_iff {s : String} {p : Pattern} (h : Accepts s p) :
    (Value.ofLiteral (String.ofList p.literal) = .ok (.pattern p) ↔
      endsUnpaired s.toList = false) ∧
    ('#' ∉ s.toList → endsUnpaired s.toList = false) ∧
    ∀ v, Value.ofLiteral (String.ofList p.literal) = .ok v →
      ∃ q, v = .pattern q ∧ q.spelling = p.spelling ++ doubled s.toList := by
  have htext := accepts_iff.1 h
  have hread : ∀ v, Value.ofLiteral (String.ofList p.literal) = .ok v →
      ∃ q, v = .pattern q ∧ q.spelling = p.spelling ++ doubled s.toList :=
    fun _ hv => exists_of_ofLiteral_literal htext hv
  refine ⟨⟨fun hback => ?_, fun hpaired => ?_⟩, endsUnpaired_of_ofText htext, hread⟩
  · obtain ⟨q, hq, hspelling⟩ := hread _ hback
    cases hq
    have hnil : doubled s.toList = [] := List.self_eq_append_right.1 hspelling
    cases hlone : endsUnpaired s.toList with
    | false => rfl
    | true =>
        rw [doubled_of_unpaired hlone] at hnil
        cases hnil
  · rw [← endsUnpaired_spelling htext] at hpaired
    refine ofLiteral_literal_eq_ok_iff.2 ⟨p, rfl, ?_⟩
    rw [doubled_of_paired hpaired, List.append_nil]
    exact ofText_normal p

/-- A slash behind a backslash is kept without it, and the literal reads back. -/
theorem accepted_reads_back_iff_slash :
    ∃ p, Accepts "a\\/b" p ∧ Value.ofLiteral (String.ofList p.literal) = .ok (.pattern p) := by
  have h : ofText "a\\/b".toList = .ok ⟨"a/b".toList, by decide, by decide⟩ := rfl
  exact ⟨_, .inl h, (accepted_reads_back_iff (.inl h)).1.2 (by decide)⟩

/-- In a comment a lone backslash is accepted at the end, and the literal of the pattern is read as
another pattern. -/
theorem comment_read_as_another :
    ∃ p q, Accepts "(?x)#\\" p ∧ Value.ofLiteral (String.ofList p.literal) = .ok (.pattern q) ∧
      p ≠ q := by
  have hp : ofText "(?x)#\\".toList = .ok ⟨"(?x)#\\".toList, by decide, by decide⟩ := rfl
  have hq : ofText "(?x)#\\\\".toList = .ok ⟨"(?x)#\\\\".toList, by decide, by decide⟩ := rfl
  exact ⟨_, _, .inl hp, ofLiteral_literal_eq_ok_iff.2 ⟨_, rfl, hq⟩, by decide⟩

end Pattern

end BoundQuery
