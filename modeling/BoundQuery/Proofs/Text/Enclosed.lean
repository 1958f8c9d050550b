/-
**A quoted text stays between its quotes.**

A quoted text may stand before any text at all.  Nothing in it closes the quotes before its end and
nothing opens an interpolation: wherever a quote, or a dollar sign before a brace, stands inside,
a backslash before it takes it for itself.  So the scanner finds the end of a quoted text in no
part of it, and it finds the same end whatever comes behind.  No control character is left in it.

Main definitions:

* `BoundQuery.EndsText` — what would end a text between quotes or break it up.

Main results:

* `BoundQuery.Scanner.text_append` — a text that was scanned is scanned whatever comes behind it;
* `BoundQuery.endsUnpaired_of_escapeText_eq` — what would end an escaped text stands behind a
  backslash;
* `BoundQuery.not_isControl_of_mem_quotedText` — a quoted text has no control character;
* `BoundQuery.quotedText_enclosed` — **a quoted text is read as a whole before any text, and ends
  nowhere else**.
-/

import BoundQuery.Proofs.Pattern.Spelling
import BoundQuery.Proofs.Text.Quoted
import BoundQuery.Value.Literal

set_option relaxedAutoImplicit false
set_option autoImplicit false

namespace BoundQuery

/-! ### What comes behind -/

namespace Scanner

variable {s rest : List Char}

theorem exists_of_prepend_eq_ok {bs cs : List UInt8}
    {r : Except (List Char) (List UInt8 × List Char)} (h : prepend bs r = .ok (cs, rest)) :
    ∃ ds, r = .ok (ds, rest) ∧ cs = bs ++ ds := by
  cases r with
  | error e => cases h
  | ok taken =>
      cases h
      exact ⟨taken.1, rfl, rfl⟩

/-- The bytes of a text up to its closing quote do not depend on what comes behind the quote. -/
theorem textBytes_append {bs : List UInt8} (h : textBytes s = .ok (bs, rest)) (t : List Char) :
    textBytes (s ++ t) = .ok (bs, rest ++ t) := by
  fun_induction textBytes s generalizing bs with
  | case1 => cases h
  | case2 r =>
      cases h
      rfl
  | case3 a b r byte hbyte ih =>
      obtain ⟨ds, hr, rfl⟩ := exists_of_prepend_eq_ok h
      simp only [List.cons_append, textBytes, hbyte, ih hr]
      rfl
  | case4 => cases h
  | case5 c r hx byte hbyte ih =>
      obtain ⟨ds, hr, rfl⟩ := exists_of_prepend_eq_ok h
      have hescaped := textBytes_escaped hbyte (r ++ t)
      rw [ih hr] at hescaped
      exact hescaped
  | case6 => cases h
  | case7 => cases h
  | case8 => cases h
  | case9 c r hquote _ hpair hlone hopen ih =>
      obtain ⟨ds, hr, rfl⟩ := exists_of_prepend_eq_ok h
      have hbackslash : c ≠ '\\' := by
        intro hc
        cases r with
        | nil => exact hlone hc rfl
        | cons d r => exact hpair d r hc rfl
      -- what follows a dollar sign is there already, since the closing quote is still to come
      have hdollar : c = '$' → (r ++ t).head? ≠ some '\x7b' := by
        intro hc hhead
        cases r with
        | nil => cases hr
        | cons d r =>
            cases hhead
            exact hopen r hc rfl
      rw [List.cons_append, textBytes_plain hquote hbackslash hdollar, ih hr]
      rfl

/-- **A text that was scanned is scanned whatever comes behind it.** -/
theorem text_append {a : String} (h : text s = .ok (a, rest)) (t : List Char) :
    text (s ++ t) = .ok (a, rest ++ t) := by
  cases s with
  | nil => cases h
  | cons c s =>
      simp only [text, filterMap, andThen, char, List.cons_append] at h ⊢
      by_cases hc : c = '"'
      · simp only [hc, if_true] at h ⊢
        cases hbytes : textBytes s with
        | error e =>
            rw [hbytes] at h
            cases h
        | ok taken =>
            obtain ⟨bs, r⟩ := taken
            rw [hbytes] at h
            rw [textBytes_append hbytes t]
            dsimp only at h ⊢
            cases hdecoded : decoded? bs with
            | none =>
                rw [hdecoded] at h
                cases h
            | some b =>
                rw [hdecoded] at h
                cases h
                rfl
      · simp only [hc, if_false] at h
        cases h

end Scanner

/-! ### Pairs -/

open Pattern

/-- What would end a text between quotes or break it up: a quote, and a dollar sign before a
brace. -/
def EndsText (c : Char) (behind : List Char) : Prop :=
  c = '"' ∨ c = '$' ∧ behind.head? = some '\x7b'

theorem not_endsText {c : Char} {behind : List Char} (hquote : c ≠ '"') (hdollar : c ≠ '$') :
    ¬EndsText c behind := by
  rintro (h | ⟨h, -⟩)
  · exact hquote h
  · exact hdollar h

/-! ### Escaped characters -/

section Escapes

variable {a c d : Char}

theorem mem_escapedByte {b : UInt8} (h : c ∈ escapedByte b) :
    c = '\\' ∨ c = 'x' ∨ ∃ k < 16, c = k.digitChar := by
  have hb : b.toNat < 256 := b.toNat_lt
  simp only [escapedByte, hexPair, List.mem_cons, List.not_mem_nil, or_false] at h
  rcases h with rfl | rfl | rfl | rfl
  · exact Or.inl rfl
  · exact Or.inr (Or.inl rfl)
  · exact Or.inr (Or.inr ⟨_, by omega, rfl⟩)
  · exact Or.inr (Or.inr ⟨_, by omega, rfl⟩)

/-- What holds of backslashes, of `x` and of hexadecimal digits holds of escaped bytes. -/
theorem forall_mem_escapedBytes {p : Char → Prop} (hp : p '\\' ∧ p 'x' ∧ ∀ k < 16, p k.digitChar)
    (bs : List UInt8) : ∀ c ∈ bs.flatMap escapedByte, p c := by
  intro c hc
  obtain ⟨b, -, hc⟩ := List.mem_flatMap.1 hc
  rcases mem_escapedByte hc with rfl | rfl | ⟨k, hk, rfl⟩
  · exact hp.1
  · exact hp.2.1
  · exact hp.2.2 k hk

/-- An escaped character is a backslash and a letter or sign, a row of bytes, or the character
itself. -/
theorem escapeChar_form (c : Char) :
    (∃ d, isControl d = false ∧ escapeChar c = ['\\', d]) ∨
      (∃ bs : List UInt8, escapeChar c = bs.flatMap escapedByte) ∨
        escapeChar c = [c] ∧ c ≠ '\\' ∧ c ≠ '"' ∧ isControl c = false := by
  unfold escapeChar
  split
  · exact Or.inl ⟨'\\', rfl, rfl⟩
  split
  · exact Or.inl ⟨'"', rfl, rfl⟩
  split
  · exact Or.inl ⟨'n', rfl, rfl⟩
  split
  · exact Or.inl ⟨'r', rfl, rfl⟩
  split
  · exact Or.inl ⟨'t', rfl, rfl⟩
  split
  · exact Or.inr (Or.inl ⟨_, rfl⟩)
  · next hbackslash hquote _ _ _ hcontrol =>
      exact Or.inr (Or.inr ⟨rfl, hbackslash, hquote, Bool.eq_false_iff.2 hcontrol⟩)

theorem isControl_of_mem_escapeChar (h : d ∈ escapeChar c) : isControl d = false := by
  rcases escapeChar_form c with ⟨e, he, hform⟩ | ⟨bs, hform⟩ | ⟨hform, -, -, hc⟩
  · rw [hform, List.mem_cons, List.mem_singleton] at h
    rcases h with rfl | rfl
    · rfl
    · exact he
  · rw [hform] at h
    exact forall_mem_escapedBytes (p := fun d => isControl d = false) (by decide) bs d h
  · rw [hform, List.mem_singleton] at h
    rw [h, hc]

theorem endsUnpaired_escapedBytes (bs : List UInt8) :
    endsUnpaired (bs.flatMap escapedByte) = false := by
  have hdigit : ∀ k < 16, k.digitChar ≠ '\\' := by decide
  induction bs with
  | nil => rfl
  | cons b bs ih =>
      have hb : b.toNat < 256 := b.toNat_lt
      have hhigh := hdigit (b.toNat / 16) (by omega)
      have hlow := hdigit (b.toNat % 16) (by omega)
      simp only [List.flatMap_cons, escapedByte, hexPair, List.cons_append, List.nil_append]
      rw [endsUnpaired, endsUnpaired_cons hhigh, endsUnpaired_cons hlow, ih]

theorem endsUnpaired_escapeChar (c : Char) : endsUnpaired (escapeChar c) = false := by
  rcases escapeChar_form c with ⟨d, -, hform⟩ | ⟨bs, hform⟩ | ⟨hform, hc, -, -⟩
  · rw [hform]
    rfl
  · rw [hform, endsUnpaired_escapedBytes]
  · rw [hform, endsUnpaired_cons hc]
    rfl

/-- In an escaped character a quote and a dollar sign stand behind a backslash, but for a dollar
sign that is the character itself. -/
theorem endsUnpaired_of_escapeChar_eq {p q : List Char} (h : escapeChar a = p ++ c :: q)
    (hc : c = '"' ∨ c = '$') : endsUnpaired p = true ∨ c = '$' ∧ a = '$' ∧ q = [] := by
  rcases escapeChar_form a with ⟨d, -, hform⟩ | ⟨bs, hform⟩ | ⟨hform, -, hquote, -⟩
  · rw [hform] at h
    rcases p with _ | ⟨b, _ | ⟨b', p⟩⟩
    · cases h
      rcases hc with hc | hc <;> cases hc
    · cases h
      exact Or.inl rfl
    · cases p <;> cases h
  · have hmem : c ∈ bs.flatMap escapedByte := by
      rw [← hform, h]
      exact List.mem_append_right p List.mem_cons_self
    have hne := forall_mem_escapedBytes (p := fun c => ¬(c = '"' ∨ c = '$')) (by decide) bs c hmem
    exact absurd hc hne
  · rw [hform] at h
    rcases p with _ | ⟨b, p⟩
    · cases h
      have hdollar := hc.resolve_left hquote
      exact Or.inr ⟨hdollar, hdollar, rfl⟩
    · cases p <;> cases h

end Escapes

/-! ### Escaped texts -/

/-- An escaped text does not end in an escape that takes the closing quote. -/
theorem endsUnpaired_escapeText (s : List Char) : endsUnpaired (escapeText s) = false := by
  fun_induction escapeText s with
  | case1 => rfl
  | case2 s ih =>
      rw [endsUnpaired, endsUnpaired_cons (by decide)]
      exact ih
  | case3 c s _ ih => rw [endsUnpaired_append (endsUnpaired_escapeChar c), ih]

/-- **What would end an escaped text stands behind a backslash that takes it.** -/
theorem endsUnpaired_of_escapeText_eq {s p q : List Char} {c : Char}
    (h : escapeText s = p ++ c :: q) (hc : EndsText c q) : endsUnpaired p = true := by
  -- along the text as the writer takes it, until the character is reached
  fun_induction escapeText s generalizing p with
  | case1 => simp at h
  | case2 s ih =>
      rcases p with _ | ⟨b, _ | ⟨b', _ | ⟨b'', p⟩⟩⟩
      · cases h
        exact absurd hc (not_endsText (by decide) (by decide))
      · cases h
        rfl
      · cases h
        exact absurd hc (not_endsText (by decide) (by decide))
      · simp only [List.cons_append, List.cons.injEq] at h
        obtain ⟨rfl, rfl, rfl, h⟩ := h
        rw [endsUnpaired, endsUnpaired_cons (by decide)]
        exact ih h
  | case3 a s hbrace ih =>
      rcases List.append_eq_append_iff.1 h with ⟨p', rfl, hs⟩ | ⟨u, ha, hu⟩
      · rw [endsUnpaired_append (endsUnpaired_escapeChar a)]
        exact ih hs
      · cases u with
        | nil =>
            -- the character comes first behind this one, where no escape is open
            have hfirst := ih (p := []) hu.symm
            cases hfirst
        | cons c' u =>
            cases hu
            have hsign : c = '"' ∨ c = '$' := hc.imp_right And.left
            refine (endsUnpaired_of_escapeChar_eq ha hsign).resolve_right ?_
            rintro ⟨rfl, rfl, rfl⟩
            have hopen : (escapeText s).head? = some '\x7b' := by
              rcases hc with hquote | hdollar
              · cases hquote
              · exact hdollar.2
            have hhead : s.head? ≠ some '\x7b' := by
              intro hs
              cases s with
              | nil => cases hs
              | cons d s =>
                  cases hs
                  exact hbrace s rfl rfl
            refine head_escapeText_append hhead [] ?_
            rw [List.head?_append, hopen]
            rfl

theorem isControl_of_mem_escapeText {s : List Char} {c : Char} (h : c ∈ escapeText s) :
    isControl c = false := by
  fun_induction escapeText s with
  | case1 => cases h
  | case2 s ih =>
      simp only [List.mem_cons] at h
      rcases h with rfl | rfl | rfl | h
      · rfl
      · rfl
      · rfl
      · exact ih h
  | case3 a s _ ih => exact (List.mem_append.1 h).elim isControl_of_mem_escapeChar ih

/-- **A quoted text has no control character.** -/
theorem not_isControl_of_mem_quotedText {s : List Char} {c : Char} (h : c ∈ quotedText s) :
    isControl c = false := by
  rw [quotedText, List.cons_append, List.mem_cons, List.mem_append, List.mem_singleton] at h
  rcases h with rfl | h | rfl
  · rfl
  · exact isControl_of_mem_escapeText h
  · rfl

/-! ### Quoted texts -/

/-- Behind the opening quote only the closing one ends a text without a backslash to take it. -/
theorem endsUnpaired_or_of_escapeText_eq {s p q : List Char} {c : Char}
    (h : escapeText s ++ ['"'] = p ++ c :: q) (hc : EndsText c q) :
    endsUnpaired p = true ∨ p = escapeText s ∧ c = '"' ∧ q = [] := by
  rcases List.append_eq_append_iff.1 h with ⟨u, rfl, hu⟩ | ⟨u, hs, hu⟩
  · cases u with
    | nil =>
        cases hu
        exact Or.inr ⟨List.append_nil _, rfl, rfl⟩
    | cons d u => cases u <;> cases hu
  · cases u with
    | nil =>
        cases hu
        exact Or.inr ⟨(hs.trans (List.append_nil p)).symm, rfl, rfl⟩
    | cons d u =>
        cases hu
        refine Or.inl (endsUnpaired_of_escapeText_eq hs (hc.imp_right fun hopen => ?_))
        cases u with
        | nil => cases hopen.2
        | cons e u => exact hopen

/-- **A quoted text is read as a whole before any text, and ends nowhere else.**  The scanner takes
exactly the literal of a text and leaves exactly what is behind it, whatever that is.  It takes no
shorter beginning of the literal for a text: every quote inside stands behind a backslash that
takes it, unlike the last one, and so does every dollar sign before a brace.  No control character
stands in the literal. -/
theorem quotedText_enclosed (s : String) :
    (∀ rest, Scanner.text ((Value.text s).literal ++ rest) = .ok (s, rest)) ∧
    (∀ p q r, (Value.text s).literal = p ++ q → Scanner.text p = .ok r → q = []) ∧
    (∀ p q, (Value.text s).literal = '"' :: p ++ '"' :: q → (endsUnpaired p = false ↔ q = [])) ∧
    (∀ p q, (Value.text s).literal = '"' :: p ++ '$' :: '\x7b' :: q → endsUnpaired p = true) ∧
    ∀ c ∈ (Value.text s).literal, 0x20 ≤ c.toNat ∧ (c.toNat < 0x7f ∨ 0xa0 ≤ c.toNat) := by
  have hinner : ∀ {p r}, (Value.text s).literal = '"' :: p ++ r →
      escapeText s.toList ++ ['"'] = p ++ r := fun h => (List.cons.inj h).2
  refine ⟨Scanner.text_quotedText_append s, ?_, ?_, ?_, ?_⟩
  · intro p q r hliteral hp
    have hread : Scanner.text ((Value.text s).literal ++ []) = .ok (s, []) :=
      Scanner.text_quotedText_append s []
    have hall : Scanner.text (p ++ q) = .ok (r.1, r.2 ++ q) := Scanner.text_append hp q
    rw [hliteral, List.append_nil, hall] at hread
    have hrest : r.2 ++ q = [] := congrArg Prod.snd (Except.ok.inj hread)
    exact (List.append_eq_nil_iff.1 hrest).2
  · intro p q hliteral
    constructor
    · intro hp
      rcases endsUnpaired_or_of_escapeText_eq (hinner hliteral) (Or.inl rfl) with h | ⟨-, -, h⟩
      · rw [hp] at h
        cases h
      · exact h
    · rintro rfl
      have hp : escapeText s.toList = p := List.append_cancel_right (hinner hliteral)
      rw [← hp, endsUnpaired_escapeText]
  · intro p q hliteral
    refine (endsUnpaired_or_of_escapeText_eq (hinner hliteral) (Or.inr ⟨rfl, rfl⟩)).resolve_right ?_
    exact fun h => by cases h.2.1
  · intro c hc
    have hcontrol := not_isControl_of_mem_quotedText hc
    simp only [isControl, Bool.or_eq_false_iff, Bool.and_eq_false_iff, decide_eq_false_iff_not]
      at hcontrol
    omega

/-- A quote and the opening of an expression inside a text stand behind backslashes that take them,
and the text is read as a whole before another brace. -/
theorem quotedText_enclosed_hostile :
    (Value.text "a\"$\x7b").literal = '"' :: "a\\".toList ++ '"' :: "\\$\x7b\"".toList ∧
    endsUnpaired "a\\".toList = true ∧
    (Value.text "a\"$\x7b").literal = '"' :: "a\\\"\\".toList ++ '$' :: '\x7b' :: ['"'] ∧
    endsUnpaired "a\\\"\\".toList = true ∧
    Scanner.text ((Value.text "a\"$\x7b").literal ++ "\x7b\"".toList) =
      .ok ("a\"$\x7b", "\x7b\"".toList) := by
  obtain ⟨hread, -, hquote, hopen, -⟩ := quotedText_enclosed "a\"$\x7b"
  have hfirst : (Value.text "a\"$\x7b").literal =
      '"' :: "a\\".toList ++ '"' :: "\\$\x7b\"".toList := by decide
  have hsecond : (Value.text "a\"$\x7b").literal =
      '"' :: "a\\\"\\".toList ++ '$' :: '\x7b' :: ['"'] := by decide
  have hinside : endsUnpaired "a\\".toList ≠ false := fun h =>
    absurd ((hquote _ _ hfirst).1 h) (by decide)
  exact ⟨hfirst, eq_true_of_ne_false hinside, hsecond, hopen _ _ hsecond, hread _⟩

/-- A control above ASCII is written byte by byte, and a dollar sign stands for itself before the
closing quote, whatever is behind that. -/
example : quotedText "\u0085$".toList = "\"\\xc2\\x85$\"".toList := by decide

end BoundQuery
