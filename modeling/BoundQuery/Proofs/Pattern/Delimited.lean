/-
**The literal of a pattern between its slashes.**

What stands between the slashes of a literal is a row of characters and of pairs of a backslash and
a character.  No slash stands there by itself, and no line break at all, so nothing between the
slashes closes the literal or breaks its line.  Only where nothing stands between them do the two
slashes meet, and then they are no literal but open a comment.  The pattern without characters is
accepted, and it is the only one with such a literal.

Main definitions:

* `BoundQuery.Pattern.Body` — what may stand between the slashes of a literal.

Main results:

* `BoundQuery.Pattern.body_escape` — an escaped text may stand between the slashes;
* `BoundQuery.Pattern.escape_eq_nil_iff` — it is empty only if the text is;
* `BoundQuery.Pattern.opens_comment_iff` — **what a literal is made of, and which one opens a
  comment**.
-/

import BoundQuery.Binding.Table
import BoundQuery.Proofs.Pattern.ReadBack

set_option relaxedAutoImplicit false
set_option autoImplicit false

namespace BoundQuery.Pattern

/-! ### Between the slashes -/

/-- What may stand between the slashes of a literal: pairs of a backslash and a character, and
characters that are neither a slash nor a backslash.  None of them is a line break. -/
inductive Body : List Char → Prop
  | nil : Body []
  | pair {c : Char} {s : List Char} : c ≠ '\n' → Body s → Body ('\\' :: c :: s)
  | plain {c : Char} {s : List Char} :
      c ≠ '\\' → c ≠ '/' → c ≠ '\n' → Body s → Body (c :: s)

namespace Body

variable {s : List Char}

/-- No slash begins what stands between the slashes. -/
theorem head?_ne_slash (h : Body s) : s.head? ≠ some '/' := by
  cases h with
  | nil => exact nofun
  | pair => exact fun heq => absurd (Option.some.inj heq) (by decide)
  | plain _ hslash => exact fun heq => hslash (Option.some.inj heq)

/-- A slash between the slashes stands behind a backslash that takes it. -/
theorem endsUnpaired_of_slash (h : Body s) {p q : List Char} (hs : s = p ++ '/' :: q) :
    endsUnpaired p = true := by
  -- along the pairs and characters, until the slash is reached
  induction h generalizing p with
  | nil => simp at hs
  | pair _ _ ih =>
      rcases p with _ | ⟨b, _ | ⟨c, p⟩⟩
      · cases hs
      · cases hs
        rfl
      · cases hs
        exact ih (p := p) rfl
  | plain hb hslash _ _ ih =>
      cases p with
      | nil =>
          cases hs
          exact absurd rfl hslash
      | cons c p =>
          cases hs
          rw [endsUnpaired_cons hb]
          exact ih rfl

/-- All pairs between the slashes are complete, so none takes the slash behind them. -/
theorem endsUnpaired_eq_false (h : Body s) : endsUnpaired s = false := by
  induction h with
  | nil => rfl
  | pair _ _ ih => exact ih
  | plain hb _ _ _ ih => exact (endsUnpaired_cons hb _).trans ih

end Body

/-- **An escaped text may stand between the slashes of a literal.** -/
theorem body_escape (s : List Char) : Body (escape s) := by
  fun_induction escape s with
  | case1 => exact .nil
  | case2 => exact .pair (by decide) .nil
  | case3 s ih => exact .pair (by decide) ih
  | case4 c s hc ih => exact .pair hc ih
  | case5 s ih => exact .pair (by decide) ih
  | case6 s ih => exact .pair (by decide) ih
  | case7 c s hlone _ hpair hslash hnewline ih =>
      exact .plain (ne_backslash_of_alone hlone hpair) hslash hnewline ih

/-- Nothing stands between the slashes only for the empty text. -/
theorem escape_eq_nil_iff {s : List Char} : escape s = [] ↔ s = [] := by
  fun_cases escape s <;> simp

/-- The spelling in which a text is kept is empty only for the empty text. -/
theorem normalize_eq_nil_iff {s : List Char} : normalize s = [] ↔ s = [] := by
  fun_cases normalize s <;> simp

/-! ### Literals -/

/-- A literal begins with two slashes only where nothing stands between them. -/
theorem slashes_prefix_iff {s : List Char} (h : Body s) :
    ['/', '/'] <+: '/' :: s ++ ['/'] ↔ s = [] := by
  rw [List.cons_append, List.cons_prefix_cons]
  cases s with
  | nil => simp
  | cons c s =>
      have hc : c ≠ '/' := fun heq => h.head?_ne_slash (congrArg some heq)
      simp [Ne.symm hc]

/-- **The literal of a pattern opens a comment exactly if the pattern is empty.**  Between the
slashes of a literal stand pairs of a backslash and a character, and characters that are neither a
slash nor a backslash, and none of them is a line break.  So every slash there stands behind a
backslash that takes it, none comes first, and no backslash takes the closing slash.  Nothing
stands there exactly if the spelling of the pattern is empty, only then are the first two
characters of the literal slashes, and of all texts that are accepted only the empty one has that
spelling. -/
theorem opens_comment_iff (p : Pattern) :
    ∃ body, p.literal = '/' :: body ++ ['/'] ∧ Body body ∧
      body.head? ≠ some '/' ∧ '\n' ∉ p.literal ∧
      (∀ a b, body = a ++ '/' :: b → endsUnpaired a = true) ∧ endsUnpaired body = false ∧
      (body = [] ↔ p.spelling = []) ∧ (['/', '/'] <+: p.literal ↔ p.spelling = []) ∧
      ∀ s, Accepts s p → (p.spelling = [] ↔ s = "") := by
  have hbody := body_escape p.spelling
  refine ⟨escape p.spelling, rfl, hbody, hbody.head?_ne_slash, ?_,
    fun a b heq => hbody.endsUnpaired_of_slash heq, hbody.endsUnpaired_eq_false,
    escape_eq_nil_iff, (slashes_prefix_iff hbody).trans escape_eq_nil_iff, fun s hs => ?_⟩
  · have hbreak := newline_notMem_escape p.spelling
    simp [literal, hbreak]
  · rw [spelling_of_ofText (accepts_iff.1 hs), normalize_eq_nil_iff, String.toList_eq_nil_iff]

/-- A slash at the beginning of a text does not meet the opening one. -/
theorem opens_comment_iff_leadingSlash :
    ∃ p, Accepts "/a" p ∧ p.literal = "/\\/a/".toList ∧ ¬['/', '/'] <+: p.literal := by
  have h : Accepts "/a" ⟨"/a".toList, by decide, by decide⟩ := .inl rfl
  obtain ⟨-, -, -, -, -, -, -, -, hcomment, haccepts⟩ := opens_comment_iff _
  have hspelling := mt (haccepts "/a" h).1 (by decide)
  exact ⟨_, h, by decide, mt hcomment.1 hspelling⟩

/-- The pattern without characters is accepted and bound, and behind the name of its entry the
declaration goes on with a comment. -/
theorem empty_opens_comment : ∃ p, Accepts "" p ∧ p.literal = "//".toList ∧
    ((Table.empty .none).place "re" (.pattern p)).2.text =
      some "option params = \x7b\n  re_0: //,\n\x7d\n\n".toList := by
  have h : Accepts "" ⟨[], by decide, by decide⟩ := .inl rfl
  exact ⟨_, h, by decide, by decide⟩

end BoundQuery.Pattern
