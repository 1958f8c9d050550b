/-
**Literals read back.**

The literal of a value, followed by anything that may stand behind a literal, is scanned as that
value, and the scanner stops where the literal ends.  For every kind the scanner of its own form takes
the literal, and the beginning of the literal tells that form.

Two kinds of values are left out because their literals do not read back: a leap second that does
not end a minute is shown as a second that no clock reads, and the literal of a pattern whose
spelling ends in a lone backslash doubles that backslash.

Main definitions:

* `BoundQuery.Value.Legible`, `BoundQuery.Value.LeapLegible` — the value is neither of these, and
  it is not the first of them.

Main results:

* `BoundQuery.Scanner.literal_append` — the literal of a legible value reads back before a
  boundary;
* `BoundQuery.Value.literal_append_inj` — before boundaries a literal can be taken away from both
  sides of an equation.
-/

import BoundQuery.Proofs.Duration.ReadBack
import BoundQuery.Proofs.Number.ReadBack
import BoundQuery.Proofs.Pattern.Spelling
import BoundQuery.Proofs.Scan.Forms
import BoundQuery.Proofs.Text.Quoted
import BoundQuery.Proofs.Time.ReadBack

set_option relaxedAutoImplicit false
set_option autoImplicit false

namespace BoundQuery

namespace Value

/-- A leap second comes at the end of a minute, and the spelling of a pattern does not end in a
backslash that has nothing behind it. -/
def Legible : Value → Prop
  | instant t => t.LeapAtMinuteEnd
  | pattern p => Pattern.endsUnpaired p.spelling = false
  | _ => True

/-- A leap second comes at the end of a minute. -/
def LeapLegible (v : Value) : Prop := ∀ t, v = instant t → t.LeapAtMinuteEnd

theorem Legible.leapLegible {v : Value} (h : v.Legible) : v.LeapLegible := by
  rintro t rfl
  exact h

end Value

namespace Scanner

/-! ### Whole numbers -/

/-- A numeral with a sign is a minus sign or nothing, and digits. -/
theorem signed_eq (n : Int) :
    signed n = (if decide (n < 0) then ['-'] else []) ++ decimal n.natAbs := by
  unfold signed
  by_cases h : n < 0 <;> simp [h]

/-- The digits of a whole number of 64 bits and its sign spell the number. -/
theorem integerOfDigits?_decimal (n : Int64) :
    integerOfDigits? (decide (n.toInt < 0)) (decimal n.toInt.natAbs) = some n := by
  have hlow := n.le_toInt
  have hhigh := n.toInt_lt
  have hback : Int64.ofInt n.toInt = n := Int64.ofInt_toInt n
  unfold integerOfDigits?
  rw [ofDigits_decimal]
  by_cases h : n.toInt < 0
  · have hsize : n.toInt.natAbs ≤ 0x8000000000000000 := by omega
    have habs : -(n.toInt.natAbs : Int) = n.toInt := by omega
    simp only [h, decide_true, if_true, hsize, habs, hback]
  · have hsize : n.toInt.natAbs < 0x8000000000000000 := by omega
    have habs : (n.toInt.natAbs : Int) = n.toInt := by omega
    have hnat : Int64.ofNat n.toInt.natAbs = n := by
      rw [← Int64.ofInt_eq_ofNat, habs, hback]
    simp only [h, decide_false, Bool.false_eq_true, if_false, hsize, if_true, hnat]

/-- Digits and a minus sign before them, if there is one, are read as a whole number. -/
theorem integerOfText?_numeral (negative : Bool) {ds : List Char} (h : IsNumeral ds) :
    integerOfText? ((if negative then ['-'] else []) ++ ds) = integerOfDigits? negative ds := by
  have hdigits := h.isDigits
  cases negative with
  | true =>
      simp only [integerOfText?, if_true, List.cons_append, List.nil_append, hdigits, if_false,
        Bool.false_eq_true]
  | false =>
      obtain ⟨d, es, rfl, hd⟩ := h.exists_cons
      have hminus : d ≠ '-' := ne_of_isDigit hd rfl
      have hplus : d ≠ '+' := ne_of_isDigit hd rfl
      simp only [Bool.false_eq_true, if_false, List.nil_append]
      unfold integerOfText?
      split
      rename_i heq
      -- the first digit is none of the two signs that a text may begin with
      split at heq
      · next hcons => exact absurd (List.cons.inj hcons).1 hminus
      · next hcons => exact absurd (List.cons.inj hcons).1 hplus
      · cases heq
        simp only [hdigits, Bool.false_eq_true, if_false]

/-- The numeral of a whole number is read as the number. -/
theorem integerOfText?_signed (n : Int64) : integerOfText? (signed n.toInt) = some n := by
  rw [signed_eq, integerOfText?_numeral _ (IsNumeral.decimal _),
    integerOfDigits?_decimal]

/-- The digits of a number of 64 bits without a sign spell the number. -/
theorem unsignedOfDigits?_decimal (n : UInt64) : unsignedOfDigits? (decimal n.toNat) = some n := by
  have hlt : n.toNat < UInt64.size := n.toNat_lt
  rw [unsignedOfDigits?, ofDigits_decimal, if_pos hlt, UInt64.ofNat_toNat]

/-- A whole number of 64 bits reads back before anything but a digit. -/
theorem integer_signed_append (n : Int64) {rest : List Char}
    (hrest : ∀ c ∈ rest.head?, c.isDigit = false) :
    integer (signed n.toInt ++ rest) = .ok (n, rest) := by
  rw [signed_eq, List.append_assoc]
  simp only [integer, sign_signed _ (IsNumeral.decimal n.toInt.natAbs),
    digits_append (IsNumeral.decimal n.toInt.natAbs) hrest, integerOfDigits?_decimal]

/-! ### Numerals -/

theorem literal_signed_append (n : Int64) {rest : List Char} (hrest : AtBoundary rest) :
    literal (signed n.toInt ++ rest) = .ok (.integer n, rest) := by
  have hinteger := integer_signed_append n hrest.head_not_isDigit
  have hds := IsNumeral.decimal n.toInt.natAbs
  have hform := LiteralForm.ofText_signed (decide (n.toInt < 0)) hds hrest.head_not_isDigit
  rw [LiteralForm.ofBehindDigits_of_atBoundary hrest] at hform
  rw [signed_eq, List.append_assoc] at hinteger ⊢
  exact LiteralForm.literal_of_ofText hform (map_of_ok hinteger _)

/-- The least whole number of 64 bits has no numeral; its literal is the call of a conversion. -/
theorem literal_minValue_append (rest : List Char) :
    literal (conversionText "int" (quotedText (signed Int64.minValue.toInt)) ++ rest) =
      .ok (.integer Int64.minValue, rest) := by
  have htext : text (quotedText (signed Int64.minValue.toInt) ++ ')' :: rest) =
      .ok (String.ofList (signed Int64.minValue.toInt), ')' :: rest) := by
    have h := text_quotedText_append (String.ofList (signed Int64.minValue.toInt)) (')' :: rest)
    rw [String.toList_ofList] at h
    exact h
  have hvalue : integerOfText? (String.ofList (signed Int64.minValue.toInt)).toList =
      some Int64.minValue := by
    rw [String.toList_ofList, integerOfText?_signed]
  have hcall := conversion_append "int" (by decide) htext
  have hinteger : integerCall (conversionText "int" (quotedText (signed Int64.minValue.toInt)) ++
      rest) = .ok (Int64.minValue, rest) := filterMap_of_ok hcall hvalue
  exact LiteralForm.literal_of_ne_integer .integerCall (by decide) (map_of_ok hinteger _)

theorem literal_unsigned_append (n : UInt64) (rest : List Char) :
    literal (conversionText "uint" (decimal n.toNat) ++ rest) = .ok (.unsigned n, rest) := by
  have hdigits := digits_append (IsNumeral.decimal n.toNat) (head_not_isDigit (c := ')') rfl rest)
  have hvalue := unsignedOfDigits?_decimal n
  obtain ⟨d, es, hds, hd⟩ := (IsNumeral.decimal n.toNat).exists_cons
  rw [hds] at hdigits hvalue ⊢
  have hblank : d ≠ ' ' ∧ d ≠ '\t' ∧ d ≠ '\r' ∧ d ≠ '\n' :=
    ⟨ne_of_isDigit hd rfl, ne_of_isDigit hd rfl, ne_of_isDigit hd rfl, ne_of_isDigit hd rfl⟩
  have hcall := conversion_append "uint" hblank hdigits
  exact LiteralForm.literal_of_ne_integer .unsignedCall (by decide)
    (map_of_ok (filterMap_of_ok hcall hvalue) _)

/-- A number that has no digits is called by its name. -/
theorem literal_namedFloat_append {name : String} {x : Double} (hx : floatOfText? name = some x)
    (rest : List Char) :
    literal (conversionText "float" (quotedText name.toList) ++ rest) = .ok (.float x, rest) := by
  have htext := text_quotedText_append name (')' :: rest)
  have hcall := conversion_append "float" (by decide) htext
  exact LiteralForm.literal_of_ne_integer .floatCall (by decide)
    (map_of_ok (filterMap_of_ok hcall hx) _)

theorem literal_finite_append (negative : Bool) (m : Magnitude) {rest : List Char}
    (hrest : AtBoundary rest) :
    literal (Layout.literal.text negative m ++ rest) = .ok (.float (.finite negative m), rest) := by
  have hfloat := float_text_append negative m hrest.head_not_isDigit
  exact LiteralForm.literal_of_ne_integer .float (by decide) (map_of_ok hfloat _)

/-! ### Instants and durations -/

theorem literal_duration_append (d : Duration) {rest : List Char} (hrest : AtBoundary rest) :
    literal (d.text ++ rest) = .ok (.duration d, rest) := by
  have hclose : ClosesUnit rest := by
    have ho : ∀ c ∈ rest.head?, c ≠ 'o' := hrest.forall_head (by decide)
    have hs : ∀ c ∈ rest.head?, c ≠ 's' := hrest.forall_head (by decide)
    exact ⟨fun h => ho 'o' h rfl, fun h => hs 's' h rfl⟩
  have hduration := duration_text_append d hrest.head_not_isDigit hclose
  exact LiteralForm.literal_of_ne_integer .duration (by decide) (map_of_ok hduration _)

theorem literal_instant_append {t : Instant} (hyear : t.FourDigitYear) (hleap : t.LeapAtMinuteEnd)
    {rest : List Char} (hrest : AtBoundary rest) :
    literal (t.text ++ rest) = .ok (.instant t, rest) := by
  have hinstant := instant_text_append hyear hleap hrest.head_not_isInstantChar
  exact LiteralForm.literal_of_ne_integer .instant (by decide) (map_of_ok hinstant _)

/-! ### Words, texts and patterns -/

theorem literal_boolean_append (b : Bool) (rest : List Char) :
    literal ((Value.boolean b).literal ++ rest) = .ok (.boolean b, rest) := by
  cases b with
  | true =>
      have hword : word "true".toList ("true".toList ++ rest) = .ok ((), rest) := word_append _ _
      exact LiteralForm.literal_of_ne_integer .yes (by decide)
        (map_of_ok hword fun _ => Value.boolean true)
  | false =>
      have hword : word "false".toList ("false".toList ++ rest) = .ok ((), rest) := word_append _ _
      exact LiteralForm.literal_of_ne_integer .no (by decide)
        (map_of_ok hword fun _ => Value.boolean false)

theorem literal_text_append (s : String) (rest : List Char) :
    literal (quotedText s.toList ++ rest) = .ok (.text s, rest) := by
  have htext := text_quotedText_append s rest
  exact LiteralForm.literal_of_ne_integer .text (by decide) (map_of_ok htext _)

theorem literal_pattern_append {p : Pattern} (h : Pattern.endsUnpaired p.spelling = false)
    (rest : List Char) : literal (p.literal ++ rest) = .ok (.pattern p, rest) := by
  have hpattern := pattern_literal_append h rest
  exact LiteralForm.literal_of_ne_integer .pattern (by decide) (map_of_ok hpattern _)

/-! ### All kinds -/

/-- Before a boundary the literal of a legible value reads back, unless its year needs a sign. -/
theorem literal_append_of_fourDigitYear {v : Value} (hyear : ∀ t, v = .instant t → t.FourDigitYear)
    (hlegible : v.Legible) {rest : List Char} (hrest : AtBoundary rest) :
    literal (v.literal ++ rest) = .ok (v, rest) := by
  cases v with
  | boolean b => exact literal_boolean_append b rest
  | integer n =>
      rw [Value.literal, integerLiteral]
      split
      · next h =>
          subst h
          exact literal_minValue_append rest
      · exact literal_signed_append n hrest
  | unsigned n => exact literal_unsigned_append n rest
  | float x =>
      cases x with
      | nan =>
          have hname : floatOfText? "NaN" = some .nan := rfl
          exact literal_namedFloat_append hname rest
      | infinite negative =>
          cases negative with
          | true =>
              have hminus : floatOfText? "-Inf" = some (.infinite true) := rfl
              exact literal_namedFloat_append hminus rest
          | false =>
              have hplus : floatOfText? "+Inf" = some (.infinite false) := rfl
              exact literal_namedFloat_append hplus rest
      | finite negative m => exact literal_finite_append negative m hrest
  | text s => exact literal_text_append s rest
  | instant t => exact literal_instant_append (hyear t rfl) hlegible hrest
  | duration d => exact literal_duration_append d hrest
  | pattern p => exact literal_pattern_append hlegible rest

/-- The literal of a legible value reads back before a boundary. -/
theorem literal_append {v : Value} (hv : v.HasLiteral) (hlegible : v.Legible) {rest : List Char}
    (hrest : AtBoundary rest) : literal (v.literal ++ rest) = .ok (v, rest) := by
  refine literal_append_of_fourDigitYear ?_ hlegible hrest
  rintro t rfl
  exact Instant.fourDigitYear_of_inRange hv

end Scanner

namespace Value

/-- Before boundaries a literal can be taken away from both sides of an equation. -/
theorem literal_append_inj {v w : Value} (hv : v.HasLiteral) (hw : w.HasLiteral)
    (hlv : v.Legible) (hlw : w.Legible) {r r' : List Char} (hr : Scanner.AtBoundary r)
    (hr' : Scanner.AtBoundary r') (h : v.literal ++ r = w.literal ++ r') : v = w ∧ r = r' := by
  have hread := Scanner.literal_append hv hlv hr
  rw [h, Scanner.literal_append hw hlw hr'] at hread
  cases hread
  exact ⟨rfl, rfl⟩

/-- The literal of a legible value is read as the value. -/
theorem ofLiteral_literal {v : Value} (hv : v.HasLiteral) (hlegible : v.Legible) :
    ofLiteral (String.ofList v.literal) = .ok v := by
  have hend : Scanner.AtBoundary [] := by decide
  rw [ofLiteral, String.toList_ofList,
    Scanner.whole_of_ok (Scanner.literal_append hv hlegible hend)]

/-- **Every literal is one token that reads back.**  For a value that is accepted and legible, the
scanner takes exactly its literal from the front of a text, whatever stands behind it at a
boundary, and yields the value. -/
theorem checked_literal_reads_back {v w : Value} (hv : v.checked = .ok w) (hlegible : v.Legible)
    {rest : List Char} (hrest : Scanner.AtBoundary rest) :
    Scanner.literal (w.literal ++ rest) = .ok (v, rest) := by
  obtain ⟨hliteral, rfl⟩ := checked_eq_ok_iff.1 hv
  exact Scanner.literal_append hliteral hlegible hrest

/-- A leap second at the end of a minute reads back before a connective. -/
theorem checked_literal_reads_back_leapSecond :
    Scanner.literal ((instant ⟨1483228799, 1000000000, by decide⟩).literal ++ " and".toList) =
      .ok (instant ⟨1483228799, 1000000000, by decide⟩, " and".toList) :=
  checked_literal_reads_back (v := instant ⟨1483228799, 1000000000, by decide⟩)
    (by decide) (fun _ => by decide) (by decide)

end Value

end BoundQuery
