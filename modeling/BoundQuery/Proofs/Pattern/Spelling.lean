/-
**Pattern literals read back.**

Between the slashes of a literal every slash stands behind a backslash and no line break stands for
itself, so the scanner stops at the closing slash and at no other.  The only spelling for which
this goes wrong ends in a backslash that has nothing behind it: the writer doubles that backslash,
and the scanner reads a pair.

Main definitions:

* `BoundQuery.Pattern.endsUnpaired` — a spelling ends in a backslash that has nothing behind it.

Main results:

* `BoundQuery.Pattern.escape_normalize` — a text and the spelling in which it is kept are escaped
  alike;
* `BoundQuery.Scanner.spelling_escape` — an escaped spelling reads as the spelling in which the
  pattern is kept;
* `BoundQuery.Scanner.pattern_literal_append` — the literal of a pattern reads back before any
  text;
* `BoundQuery.Pattern.spellings_agree` — normalizing, escaping and scanning agree on all texts.
-/

import BoundQuery.Scan.Literal

set_option relaxedAutoImplicit false
set_option autoImplicit false

namespace BoundQuery

namespace Pattern

/-- A character that begins no pair and is no lone backslash is no backslash. -/
theorem ne_backslash_of_alone {c : Char} {s : List Char} (hlone : c = '\\' → s = [] → False)
    (hpair : ∀ d t, c = '\\' → s = d :: t → False) : c ≠ '\\' := by
  rintro rfl
  cases s with
  | nil => exact hlone rfl rfl
  | cons d t => exact hpair d t rfl rfl

/-- Whether a spelling ends in a backslash that has nothing behind it. -/
def endsUnpaired : List Char → Bool
  | [] => false
  | ['\\'] => true
  | '\\' :: _ :: s => endsUnpaired s
  | _ :: s => endsUnpaired s

theorem endsUnpaired_cons {c : Char} (hc : c ≠ '\\') (s : List Char) :
    endsUnpaired (c :: s) = endsUnpaired s := by
  rw [endsUnpaired]
  · exact fun h _ => hc h
  · exact fun _ _ h _ => hc h

/-- Pairs of a backslash and a character are counted from the front, and those of a text whose last
pair is complete do not change what is behind it. -/
theorem endsUnpaired_append {s : List Char} (h : endsUnpaired s = false) (t : List Char) :
    endsUnpaired (s ++ t) = endsUnpaired t := by
  fun_induction endsUnpaired s with
  | case1 => rfl
  | case2 => cases h
  | case3 c s ih => exact ih h
  | case4 c s hlone hpair ih =>
      have hc := ne_backslash_of_alone hlone hpair
      rw [List.cons_append, endsUnpaired_cons hc, ih h]

/-- The backslash that the writer puts behind a spelling, so that the last one makes a pair. -/
def doubled (s : List Char) : List Char := if endsUnpaired s then ['\\'] else []

theorem doubled_of_paired {s : List Char} (h : endsUnpaired s = false) : doubled s = [] := by
  rw [doubled, h]
  rfl

theorem doubled_of_unpaired {s : List Char} (h : endsUnpaired s = true) : doubled s = ['\\'] := by
  rw [doubled, h]
  rfl

theorem doubled_pair (c : Char) (s : List Char) : doubled ('\\' :: c :: s) = doubled s := by
  simp only [doubled, endsUnpaired]

theorem doubled_cons {c : Char} (hc : c ≠ '\\') (s : List Char) :
    doubled (c :: s) = doubled s := by
  simp only [doubled, endsUnpaired_cons hc]

theorem normalize_cons {c : Char} (hb : c ≠ '\\') (hn : c ≠ '\n') (s : List Char) :
    normalize (c :: s) = c :: normalize s := by
  rw [normalize]
  · exact fun hc _ => hb hc
  · exact fun _ hc _ => hb hc
  · exact fun _ hc _ => hb hc
  · exact fun _ _ hc _ => hb hc
  · exact hn

theorem normalize_pair {c : Char} (hn : c ≠ '\n') (hs : c ≠ '/') (s : List Char) :
    normalize ('\\' :: c :: s) = '\\' :: c :: normalize s := by
  rw [normalize]
  · exact hn
  · exact hs

theorem escape_cons {c : Char} (hb : c ≠ '\\') (hs : c ≠ '/') (hn : c ≠ '\n') (s : List Char) :
    escape (c :: s) = c :: escape s := by
  rw [escape]
  · exact fun hc _ => hb hc
  · exact fun _ hc _ => hb hc
  · exact fun _ _ hc _ => hb hc
  · exact hs
  · exact hn

theorem escape_pair {c : Char} (hn : c ≠ '\n') (s : List Char) :
    escape ('\\' :: c :: s) = '\\' :: c :: escape s := by
  rw [escape]
  exact hn

/-! ### Both spellings -/

/-- **A text and the spelling in which it is kept are escaped alike.** -/
theorem escape_normalize (s : List Char) : escape (normalize s) = escape s := by
  -- along the pairs and characters of the text, as they are normalized
  fun_induction normalize s with
  | case1 => rfl
  | case2 => rfl
  | case3 s ih => rw [escape_pair (by decide), ih, escape]
  | case4 s ih => rw [escape_pair (by decide), escape, ih]
  | case5 c s hn _ ih => rw [escape_pair hn, escape_pair hn, ih]
  | case6 s ih => rw [escape_pair (by decide), ih, escape]
  | case7 c s hlone _ _ hpair hn ih =>
      have hb := ne_backslash_of_alone hlone hpair
      by_cases hs : c = '/'
      · subst hs
        rw [escape, escape, ih]
      · rw [escape_cons hb hs hn, escape_cons hb hs hn, ih]

theorem ofText_of_isAdmissible {s : List Char} (h : isAdmissible (normalize s) = true) :
    ofText s = .ok ⟨normalize s, normalize_normalize s, h⟩ := dif_pos h

/-- A text is the same pattern as the spelling in which it is kept. -/
theorem ofText_normalize (s : List Char) : ofText (normalize s) = ofText s := by
  unfold ofText
  simp only [normalize_normalize]

/-- An escaped text has no line break. -/
theorem newline_notMem_escape (s : List Char) : '\n' ∉ escape s := by
  fun_induction escape s with
  | case1 => simp
  | case2 => decide
  | case3 s ih => simpa using ih
  | case4 c s hc ih =>
      have hne : '\n' ≠ c := fun h => hc h.symm
      simpa [hne] using ih
  | case5 s ih => simpa using ih
  | case6 s ih => simpa using ih
  | case7 c s _ _ _ _ hc ih =>
      have hne : '\n' ≠ c := fun h => hc h.symm
      simpa [hne] using ih

end Pattern

namespace Scanner

theorem spelling_slash (s : List Char) :
    spelling ('\\' :: '/' :: s) = prependChars ['/'] (spelling s) := by
  rw [spelling]

theorem spelling_pair {c : Char} (hc : c ≠ '/') (s : List Char) :
    spelling ('\\' :: c :: s) = prependChars ['\\', c] (spelling s) := by
  rw [spelling]
  exact hc

theorem spelling_plain {c : Char} (hb : c ≠ '\\') (hs : c ≠ '/') (hn : c ≠ '\n')
    (s : List Char) : spelling (c :: s) = prependChars [c] (spelling s) := by
  rw [spelling]
  · exact hn
  · exact hs
  · exact fun h _ => hb h
  · exact fun r h _ => hb h
  · exact fun d r h _ => hb h

/-- An escaped spelling reads as the spelling in which the pattern is kept.  Only where the writer
doubled the last backslash there is one more. -/
theorem spelling_escape (s rest : List Char) :
    spelling (Pattern.escape s ++ '/' :: rest) =
      .ok (Pattern.normalize s ++ Pattern.doubled s, rest) := by
  -- along the pairs and characters of the spelling, as the writer takes them
  fun_induction Pattern.escape s with
  | case1 => rfl
  | case2 => rfl
  | case3 s ih =>
      simp only [List.cons_append]
      rw [spelling_pair (by decide), ih, Pattern.doubled_pair]
      rfl
  | case4 c s hc ih =>
      simp only [List.cons_append]
      by_cases hslash : c = '/'
      · subst hslash
        rw [spelling_slash, ih, Pattern.doubled_pair]
        rfl
      · rw [spelling_pair hslash, ih, Pattern.doubled_pair, Pattern.normalize_pair hc hslash]
        rfl
  | case5 s ih =>
      simp only [List.cons_append]
      rw [spelling_slash, ih, Pattern.doubled_cons (by decide)]
      rfl
  | case6 s ih =>
      simp only [List.cons_append]
      rw [spelling_pair (by decide), ih, Pattern.doubled_cons (by decide)]
      rfl
  | case7 c s hlone hbreak hpair hslash hnewline ih =>
      have hb := Pattern.ne_backslash_of_alone hlone hpair
      simp only [List.cons_append]
      rw [spelling_plain hb hslash hnewline, ih, Pattern.doubled_cons hb,
        Pattern.normalize_cons hb hnewline]
      rfl

/-- What the scanner takes from an escaped text between slashes. -/
theorem slashes_escape (s rest : List Char) :
    (char '/').andThen (fun _ => spelling) ('/' :: Pattern.escape s ++ '/' :: rest) =
      .ok (Pattern.normalize s ++ Pattern.doubled s, rest) := by
  simp only [andThen, char, List.cons_append, if_true, spelling_escape]

/-- What the scanner takes from the literal of a pattern before any text. -/
theorem slashes_literal (p : Pattern) (rest : List Char) :
    (char '/').andThen (fun _ => spelling) (p.literal ++ rest) =
      .ok (p.spelling ++ Pattern.doubled p.spelling, rest) := by
  have hslashes := slashes_escape p.spelling rest
  rw [p.normal] at hslashes
  rw [Pattern.literal, List.append_assoc]
  exact hslashes

/-- An escaped text between slashes is read as the pattern of the text. -/
theorem pattern_escape {s : List Char} {p : Pattern} (h : Pattern.ofText s = .ok p)
    (hpaired : Pattern.endsUnpaired s = false) (rest : List Char) :
    pattern ('/' :: Pattern.escape s ++ '/' :: rest) = .ok (p, rest) := by
  have hslashes := slashes_escape s rest
  rw [Pattern.doubled_of_paired hpaired, List.append_nil] at hslashes
  simp only [pattern, filterMap, hslashes, Pattern.ofText_normalize, h, Except.toOption]

/-- **The literal of a pattern reads back before any text**, unless its spelling ends in a
backslash that has nothing behind it. -/
theorem pattern_literal_append {p : Pattern} (h : Pattern.endsUnpaired p.spelling = false)
    (rest : List Char) : pattern (p.literal ++ rest) = .ok (p, rest) := by
  rw [Pattern.literal, List.append_assoc]
  exact pattern_escape (Pattern.ofText_normal p) h rest

end Scanner

/-- **Normalizing, escaping and scanning agree on all texts.**  A text is kept in a spelling that is
its own and is escaped as the text is, without a line break; the scanner stops at the slash behind
the escaped text, whatever follows.  If the text is a pattern that does not end in a lone backslash,
this pattern is what the scanner takes. -/
theorem Pattern.spellings_agree (s : List Char) :
    normalize (normalize s) = normalize s ∧ escape (normalize s) = escape s ∧ '\n' ∉ escape s ∧
    (∀ rest, Scanner.spelling (escape s ++ '/' :: rest) = .ok (normalize s ++ doubled s, rest)) ∧
    (isAdmissible (normalize s) = true → endsUnpaired s = false → ∃ p, ofText s = .ok p ∧
      ∀ rest, Scanner.pattern ('/' :: escape s ++ '/' :: rest) = .ok (p, rest)) := by
  refine ⟨normalize_normalize s, escape_normalize s, newline_notMem_escape s,
    Scanner.spelling_escape s, fun hadmissible hpaired => ?_⟩
  have hpattern := ofText_of_isAdmissible hadmissible
  exact ⟨_, hpattern, Scanner.pattern_escape hpattern hpaired⟩

end BoundQuery
