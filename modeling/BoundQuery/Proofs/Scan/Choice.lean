/-
**Scanners of a literal.**

The scanners of a literal are put together from scanners of characters, words and digits, and are
tried one after the other: the first one that takes anything answers.  What each of them takes is
told from the front of the text, and what may stand behind a literal belongs to none.

Main definitions:

* `BoundQuery.Scanner.AtBoundary` — what may stand behind a literal.

Main results:

* `BoundQuery.Scanner.first_eq_ok_iff` — which of several scanners answers;
* `BoundQuery.Scanner.whole_eq_ok_iff` — a whole text is read where nothing of it is left;
* `BoundQuery.Scanner.conversion_append` — the call of a conversion reads back.
-/

import BoundQuery.Proofs.Text.Numeral
import BoundQuery.Scan.Literal
import BoundQuery.Value.Literal

set_option relaxedAutoImplicit false
set_option autoImplicit false

namespace BoundQuery.Scanner

variable {α β : Type}

/-! ### Choice -/

/-- A scanner that takes nothing is passed over. -/
theorem first_of_error {p q : Scanner α} {qs : List (Scanner α)} {s e : List Char}
    (h : p s = .error e) : first p (q :: qs) s = first q qs s := by
  rw [first, h]

/-- The first scanner that takes something answers. -/
theorem first_of_ok {p : Scanner α} {qs : List (Scanner α)} {s : List Char} {r : α × List Char}
    (h : p s = .ok r) : first p qs s = .ok r := by
  cases qs with
  | nil => rw [first, h]
  | cons q qs => rw [first, h]

/-- The first scanner that takes anything answers: those before it give up. -/
theorem first_eq_ok_iff {p : Scanner α} {qs : List (Scanner α)} {s : List Char}
    {r : α × List Char} : first p qs s = .ok r ↔ ∃ before q after,
      p :: qs = before ++ q :: after ∧ q s = .ok r ∧ ∀ b ∈ before, ∃ e, b s = .error e := by
  constructor
  · intro h
    induction qs generalizing p with
    | nil => exact ⟨[], p, [], rfl, h, by simp⟩
    | cons q qs ih =>
        cases hp : p s with
        | ok taken =>
            rw [first_of_ok hp] at h
            exact ⟨[], p, q :: qs, rfl, hp.trans h, by simp⟩
        | error e =>
            rw [first_of_error hp] at h
            obtain ⟨before, q', after, hsplit, hq', hbefore⟩ := ih h
            refine ⟨p :: before, q', after, congrArg (p :: ·) hsplit, hq', ?_⟩
            intro b hb
            rcases List.mem_cons.1 hb with rfl | hb
            · exact ⟨e, hp⟩
            · exact hbefore b hb
  · rintro ⟨before, q, after, hsplit, hq, hbefore⟩
    induction before generalizing p qs with
    | nil =>
        obtain ⟨rfl, rfl⟩ := List.cons.inj hsplit
        exact first_of_ok hq
    | cons b before ih =>
        obtain ⟨rfl, rfl⟩ := List.cons.inj hsplit
        obtain ⟨e, he⟩ := hbefore p (by simp)
        have hrest : ∀ b ∈ before, ∃ e, b s = .error e :=
          fun b hb => hbefore b (List.mem_cons_of_mem p hb)
        cases before with
        | nil => exact (first_of_error he).trans (ih rfl hrest)
        | cons b' before => exact (first_of_error he).trans (ih rfl hrest)

theorem map_of_ok {p : Scanner α} {s rest : List Char} {a : α} (h : p s = .ok (a, rest))
    (f : α → β) : p.map f s = .ok (f a, rest) := by
  rw [map, h]

theorem map_of_error {p : Scanner α} {s e : List Char} (h : p s = .error e) (f : α → β) :
    p.map f s = .error e := by
  rw [map, h]

theorem filterMap_of_ok {p : Scanner α} {s rest : List Char} {a : α} {b : β}
    (h : p s = .ok (a, rest)) {f : α → Option β} (hf : f a = some b) :
    p.filterMap f s = .ok (b, rest) := by
  simp only [filterMap, h, hf]

/-- Where two scanners one behind the other take something, each of them does. -/
theorem exists_of_andThen {p : Scanner α} {q : α → Scanner β} {s : List Char} {r : β × List Char}
    (h : p.andThen q s = .ok r) : ∃ a rest, p s = .ok (a, rest) ∧ q a rest = .ok r := by
  unfold andThen at h
  split at h
  · next a rest hp => exact ⟨a, rest, hp, h⟩
  · cases h

theorem exists_of_map {p : Scanner α} {f : α → β} {s rest : List Char} {b : β}
    (h : p.map f s = .ok (b, rest)) : ∃ a, p s = .ok (a, rest) ∧ f a = b := by
  unfold map at h
  split at h
  · next a left hp =>
      cases h
      exact ⟨a, hp, rfl⟩
  · cases h

theorem exists_of_filterMap {p : Scanner α} {f : α → Option β} {s rest : List Char} {b : β}
    (h : p.filterMap f s = .ok (b, rest)) : ∃ a, p s = .ok (a, rest) ∧ f a = some b := by
  unfold filterMap at h
  split at h
  · next a left hp =>
      split at h
      · next c hf =>
          cases h
          exact ⟨a, hp, hf⟩
      · cases h
  · cases h

/-- A text is read as a whole where nothing of it is left. -/
theorem whole_eq_ok_iff {p : Scanner α} {s : List Char} {a : α} :
    p.whole s = .ok a ↔ p s = .ok (a, []) := by
  unfold whole
  constructor
  · intro h
    split at h
    · next hread =>
        cases h
        exact hread
    · cases h
    · cases h
  · intro h
    rw [h]

/-- A text that is read before any rest is read as a whole. -/
theorem whole_of_ok {p : Scanner α} {s : List Char} {a : α} (h : p (s ++ []) = .ok (a, [])) :
    p.whole s = .ok a :=
  whole_eq_ok_iff.2 (List.append_nil s ▸ h)

/-! ### Words and characters -/

theorem word_append (w s : List Char) : word w (w ++ s) = .ok ((), s) := by
  have hprefix : w.isPrefixOf (w ++ s) = true := List.isPrefixOf_iff_prefix.2 ⟨s, rfl⟩
  rw [word, if_pos hprefix, List.drop_left]

theorem eq_append_of_word {w s rest : List Char} (h : word w s = .ok ((), rest)) :
    s = w ++ rest := by
  unfold word at h
  split at h
  · next hprefix =>
      cases h
      obtain ⟨t, rfl⟩ := List.isPrefixOf_iff_prefix.1 hprefix
      rw [List.drop_left]
  · cases h

theorem eq_cons_of_char {c : Char} {s rest : List Char} (h : char c s = .ok ((), rest)) :
    s = c :: rest := by
  cases s with
  | nil => cases h
  | cons d s =>
      by_cases hd : d = c
      · rw [char, if_pos hd] at h
        cases h
        rw [hd]
      · rw [char, if_neg hd] at h
        cases h

/-! ### Conversions -/

theorem skipBlanks_of_head {c : Char} (h : c ≠ ' ' ∧ c ≠ '\t' ∧ c ≠ '\r' ∧ c ≠ '\n')
    (s : List Char) : skipBlanks (c :: s) = c :: s := by
  simp [skipBlanks, h]

/-- **The call of a conversion reads back before any text**, if its argument does. -/
theorem conversion_append (name : String) {argument : Scanner α} {c : Char} {t : List Char}
    (hc : c ≠ ' ' ∧ c ≠ '\t' ∧ c ≠ '\r' ∧ c ≠ '\n') {a : α} {rest : List Char}
    (h : argument (c :: t ++ ')' :: rest) = .ok (a, ')' :: rest)) :
    conversion name argument (conversionText name (c :: t) ++ rest) = .ok (a, rest) := by
  have htext : conversionText name (c :: t) ++ rest = (name ++ "(").toList ++
      ('v' :: ':' :: ' ' :: (c :: t ++ ')' :: rest)) := by
    simp [conversionText]
  have hv : word "v:".toList ('v' :: ':' :: ' ' :: (c :: t ++ ')' :: rest)) =
      .ok ((), ' ' :: (c :: t ++ ')' :: rest)) :=
    word_append "v:".toList (' ' :: (c :: t ++ ')' :: rest))
  have hblank : skipBlanks (' ' :: (c :: t ++ ')' :: rest)) = c :: t ++ ')' :: rest :=
    skipBlanks_of_head hc (t ++ ')' :: rest)
  rw [htext]
  simp only [conversion, andThen, word_append, skipBlanks_of_head (c := 'v') (by decide), hv,
    hblank, h, skipBlanks_of_head (c := ')') (by decide), map, char, if_true]

/-- The call of a conversion begins with the name of the conversion, whatever is made of it. -/
theorem eq_append_of_conversion {name : String} {argument : Scanner α} {f : α → Option β} {γ : Type}
    {g : β → γ} {s rest : List Char} {c : γ}
    (h : ((conversion name argument).filterMap f).map g s = .ok (c, rest)) :
    ∃ t, s = (name ++ "(").toList ++ t := by
  obtain ⟨b, hread, -⟩ := exists_of_map h
  obtain ⟨a, hcall, -⟩ := exists_of_filterMap hread
  obtain ⟨⟨⟩, t, hname, -⟩ := exists_of_andThen hcall
  exact ⟨t, eq_append_of_word hname⟩

/-! ### Boundaries -/

/-- What may stand behind a literal: nothing, a blank, a comma, a closing parenthesis or a line
break. -/
def AtBoundary (rest : List Char) : Prop :=
  ∀ c ∈ rest.head?, c = ' ' ∨ c = ',' ∨ c = ')' ∨ c = '\n'

instance (rest : List Char) : Decidable (AtBoundary rest) :=
  match rest with
  | [] => isTrue (by simp [AtBoundary])
  | c :: _ =>
      decidable_of_iff (c = ' ' ∨ c = ',' ∨ c = ')' ∨ c = '\n') (by simp [AtBoundary])

/-- What holds of the four characters at a boundary holds of what stands there. -/
theorem AtBoundary.forall_head {rest : List Char} (h : AtBoundary rest) {p : Char → Prop}
    (hp : p ' ' ∧ p ',' ∧ p ')' ∧ p '\n') : ∀ c ∈ rest.head?, p c := by
  intro c hc
  rcases h c hc with rfl | rfl | rfl | rfl
  · exact hp.1
  · exact hp.2.1
  · exact hp.2.2.1
  · exact hp.2.2.2

theorem AtBoundary.head_not_isDigit {rest : List Char} (h : AtBoundary rest) :
    ∀ c ∈ rest.head?, c.isDigit = false := h.forall_head (by decide)

theorem AtBoundary.head_not_isInstantChar {rest : List Char} (h : AtBoundary rest) :
    ∀ c ∈ rest.head?, isInstantChar c = false := h.forall_head (by decide)

end BoundQuery.Scanner
