/-
**Spellings of a pattern.**

A pattern literal stands between slashes.  A slash inside it is written behind a backslash and a
line break as `\n`; every other pair of a backslash and a character belongs to the pattern.  Two
spellings that a literal cannot tell apart are the same pattern, so patterns are kept in one of
them: a line break as `\n`, with or without a backslash before it, and a slash without one.

Main definitions:

* `BoundQuery.Pattern.normalize` — the spelling in which a pattern is kept;
* `BoundQuery.Pattern.escape` — the spelling between the slashes of a literal.

Main results:

* `BoundQuery.Pattern.normalize_normalize` — the spelling in which a pattern is kept is its own.
-/

set_option relaxedAutoImplicit false
set_option autoImplicit false

namespace BoundQuery.Pattern

/-- The spelling in which a pattern is kept. -/
def normalize : List Char → List Char
  | [] => []
  | ['\\'] => ['\\']
  | '\\' :: '\n' :: s => '\\' :: 'n' :: normalize s
  | '\\' :: '/' :: s => '/' :: normalize s
  | '\\' :: c :: s => '\\' :: c :: normalize s
  | '\n' :: s => '\\' :: 'n' :: normalize s
  | c :: s => c :: normalize s

/-- The spelling between the slashes of a literal.  A backslash that is left alone at the end is
doubled, so that it does not take the closing slash. -/
def escape : List Char → List Char
  | [] => []
  | ['\\'] => ['\\', '\\']
  | '\\' :: '\n' :: s => '\\' :: 'n' :: escape s
  | '\\' :: c :: s => '\\' :: c :: escape s
  | '/' :: s => '\\' :: '/' :: escape s
  | '\n' :: s => '\\' :: 'n' :: escape s
  | c :: s => c :: escape s

/-- The spelling in which a pattern is kept is its own. -/
theorem normalize_normalize (s : List Char) : normalize (normalize s) = normalize s := by
  fun_induction normalize s with
  | case1 => rfl
  | case2 => rfl
  | case3 s ih => simp [normalize, ih]
  | case4 s ih => simp [normalize, ih]
  | case5 c s h₁ h₂ ih =>
      have : normalize ('\\' :: c :: normalize s) = '\\' :: c :: normalize (normalize s) := by
        rw [normalize] <;> simp_all
      rw [this, ih]
  | case6 s ih => simp [normalize, ih]
  | case7 c s h₁ h₂ h₃ h₄ h₅ ih =>
      have hc : c ≠ '\\' := by
        rintro rfl
        cases s with
        | nil => exact h₁ rfl rfl
        | cons d s => exact h₄ d s rfl rfl
      have : normalize (c :: normalize s) = c :: normalize (normalize s) := by
        rw [normalize] <;> simp_all
      rw [this, ih]

end BoundQuery.Pattern
