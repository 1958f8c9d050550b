/-
**The forms of literals.**

A literal has one of eleven forms, whose scanners are tried in a fixed order.  The first one that
takes anything answers, whether or not it takes the whole text.  Still none hides another one: the
beginning of a text tells its form, and a scanner takes nothing from a text of another form.  The
forms that begin with a digit or a minus sign are told apart by what follows the first run of digits:
a dash in an instant, the letter of a unit in a duration, a point in a number with a point, and
nothing of the kind behind a whole number.  The scanner of whole numbers is the one exception, which
takes the digits at the front of the other three; but it is tried behind them.

Main definitions:

* `BoundQuery.LiteralForm` — the forms, with their scanners and their order;
* `BoundQuery.LiteralForm.ofText` — the form that the beginning of a text tells;
* `BoundQuery.Scanner.BeginsNoWord` — no conversion, number or word begins with a character.

Main results:

* `BoundQuery.LiteralForm.exists_ofText_eq` — what a scanner takes has its form or an earlier one;
* `BoundQuery.LiteralForm.literal_of_ofText` — what has a form is taken as that by the scanner of a
  literal;
* `BoundQuery.LiteralForm.choice_exact` — a text is a literal when it has a form as a whole.
-/

import BoundQuery.Proofs.Duration.Grammar
import BoundQuery.Proofs.Scan.Choice
import BoundQuery.Proofs.Time.ReadBack

set_option relaxedAutoImplicit false
set_option autoImplicit false

namespace BoundQuery

/-! ### What scanners take -/

namespace Scanner

/-- A whole number is taken from its sign and its digits. -/
theorem exists_of_integer {s rest : List Char} {n : Int64} (h : integer s = .ok (n, rest)) :
    ∃ (negative : Bool) (ds : List Char), s = (if negative then ['-'] else []) ++ (ds ++ rest) ∧
      IsNumeral ds ∧ ∀ c ∈ rest.head?, c.isDigit = false := by
  have hs := eq_sign_append s
  unfold integer at h
  generalize sign s = signed at h hs
  obtain ⟨negative, r⟩ := signed
  dsimp only at h hs
  split at h
  · cases h
  · next ds left hdigits =>
      split at h
      · cases h
        obtain ⟨hsplit, hds⟩ := eq_append_of_digits hdigits
        exact ⟨negative, ds, hsplit ▸ hs, hds, head_of_digits hdigits⟩
      · cases h

/-- A number with a point is taken from its sign, its digits and the point behind them. -/
theorem exists_of_float {s rest : List Char} {x : Double} (h : float s = .ok (x, rest)) :
    ∃ (negative : Bool) (ds r : List Char),
      s = (if negative then ['-'] else []) ++ (ds ++ '.' :: r) ∧ IsNumeral ds := by
  have hs := eq_sign_append s
  obtain ⟨ds, left, hdigits, hbehind⟩ := exists_of_andThen h
  obtain ⟨⟨⟩, r, hpoint, -⟩ := exists_of_andThen hbehind
  obtain ⟨hsplit, hds⟩ := eq_append_of_digits hdigits
  refine ⟨(sign s).1, ds, r, ?_, hds⟩
  rw [← eq_cons_of_char hpoint, ← hsplit]
  exact hs

/-- A duration is taken from its sign, its first digits and a unit behind them. -/
theorem exists_of_duration_head {s rest : List Char} {d : Duration}
    (h : duration s = .ok (d, rest)) :
    ∃ (negative : Bool) (ds r r' : List Char) (u : TimeUnit),
      s = (if negative then ['-'] else []) ++ (ds ++ r) ∧ IsNumeral ds ∧
        (∀ c ∈ r.head?, c.isDigit = false) ∧ unit r = .ok (u, r') := by
  obtain ⟨t, negative, ps, e, rfl, ⟨hne, t, rfl, ht⟩, -, -⟩ := exists_of_duration h
  cases ht with
  | nil => exact absurd rfl hne
  | @cons _ behind _ _ hp _ =>
      obtain ⟨ds, w, rfl, hds, -, hw⟩ := hp
      obtain ⟨u, r', hunit⟩ := exists_unit_append hw (behind ++ rest)
      refine ⟨negative, ds, _, r', u, ?_, hds, suffix_head_isDigit hw _, hunit⟩
      simp only [List.append_assoc]

/-- An instant is read from the digits of its year and a dash behind them. -/
theorem exists_of_ofText? {s : List Char} {t : Instant} (h : Instant.ofText? s = some t) :
    ∃ ds r, s = ds ++ '-' :: r ∧ IsNumeral ds := by
  have hyear : ∀ {least most year : Nat} {r r' : List Char}, 0 < least →
      Instant.readNumeral least most s = some (year, r) → Instant.expect '-' r = some r' →
      ∃ ds r, s = ds ++ '-' :: r ∧ IsNumeral ds := by
    intro least most year r r' hleast hnumeral hdash
    obtain ⟨ds, rfl, hdigits, hlength, -, -⟩ := Instant.exists_of_readNumeral hnumeral
    have hne : ds ≠ [] := List.length_pos_iff.1 (Nat.lt_of_lt_of_le hleast hlength)
    exact ⟨ds, r', congrArg (ds ++ ·) (Instant.eq_cons_of_expect hdash), hne, hdigits⟩
  unfold Instant.ofText? at h
  split at h
  · cases h
  split at h
  · cases h
  split at h
  · obtain ⟨⟨year, r⟩, hnumeral, h⟩ := Option.bind_eq_some_iff.1 h
    obtain ⟨r', hdash, -⟩ := Option.bind_eq_some_iff.1 h
    exact hyear (by decide) hnumeral hdash
  · obtain ⟨⟨year, r⟩, hnumeral, h⟩ := Option.bind_eq_some_iff.1 h
    obtain ⟨r', hdash, -⟩ := Option.bind_eq_some_iff.1 h
    exact hyear (by decide) hnumeral hdash

/-- An instant is taken as far as there are characters of which instants are made. -/
theorem exists_of_instant {s rest : List Char} {t : Instant} (h : instant s = .ok (t, rest)) :
    s = s.takeWhile isInstantChar ++ rest ∧
      Instant.ofText? (s.takeWhile isInstantChar) = some t := by
  unfold instant at h
  split at h
  · next hread =>
      cases h
      exact ⟨List.takeWhile_append_dropWhile.symm, hread⟩
  · cases h

/-- No conversion, number or word begins with the character. -/
def BeginsNoWord (c : Char) : Prop :=
  c.isDigit = false ∧ c ≠ '-' ∧ isInstantChar c = false ∧ 'i' ≠ c ∧ 'u' ≠ c ∧ 'f' ≠ c ∧ 't' ≠ c

instance (c : Char) : Decidable (BeginsNoWord c) := by
  unfold BeginsNoWord
  infer_instance

/-- No unit begins with what may stand behind a number. -/
theorem unit_of_head {r : List Char}
    (h : ∀ c ∈ r.head?, c = '-' ∨ c = '.' ∨ c = ' ' ∨ c = ',' ∨ c = ')' ∨ c = '\n') :
    unit r = .error r := by
  cases r with
  | nil => rfl
  | cons c r =>
      rcases h c rfl with rfl | rfl | rfl | rfl | rfl | rfl
      all_goals simp [unit, suffixes]

end Scanner

/-! ### Forms -/

/-- The forms of literals: the conversions, numbers, instants and durations, the two words, texts
and patterns. -/
inductive LiteralForm where
  | integerCall | unsignedCall | floatCall | instant | duration | float | integer | yes | no | text
  | pattern
deriving DecidableEq

namespace LiteralForm

/-- The forms in the order in which they are tried. -/
def all : List LiteralForm := [
  integerCall, unsignedCall, floatCall, instant, duration, float, integer, yes, no, text, pattern]

theorem mem_all (f : LiteralForm) : f ∈ all := by cases f <;> decide

/-- The place of a form in this order. -/
def place (f : LiteralForm) : Nat := all.idxOf f

/-- The scanner of a form. -/
def scanner : LiteralForm → Scanner Value
  | integerCall => Scanner.integerCall.map .integer
  | unsignedCall => Scanner.unsignedCall.map .unsigned
  | floatCall => Scanner.floatCall.map .float
  | instant => Scanner.instant.map .instant
  | duration => Scanner.duration.map .duration
  | float => Scanner.float.map .float
  | integer => Scanner.integer.map .integer
  | yes => (Scanner.word "true".toList).map fun _ => .boolean true
  | no => (Scanner.word "false".toList).map fun _ => .boolean false
  | text => Scanner.text.map .text
  | pattern => Scanner.pattern.map .pattern

/-- The form of what begins with digits and goes on with the text. -/
def ofBehindDigits : List Char → LiteralForm
  | '-' :: _ => instant
  | '.' :: _ => float
  | s =>
      match Scanner.unit s with
      | .ok _ => duration
      | .error _ => integer

/-- The form that the beginning of a text tells. -/
def ofText : List Char → Option LiteralForm
  | 'i' :: _ => some integerCall
  | 'u' :: _ => some unsignedCall
  | 'f' :: 'l' :: _ => some floatCall
  | 'f' :: _ => some no
  | 't' :: _ => some yes
  | '"' :: _ => some text
  | '/' :: _ => some pattern
  | s =>
      match Scanner.digits (Scanner.sign s).2 with
      | .ok (_, rest) => some (ofBehindDigits rest)
      | .error _ => none

/-- The form of a number tells itself behind the first digits. -/
theorem ofText_signed (negative : Bool) {ds r : List Char} (h : IsNumeral ds)
    (hr : ∀ c ∈ r.head?, c.isDigit = false) :
    ofText ((if negative then ['-'] else []) ++ (ds ++ r)) = some (ofBehindDigits r) := by
  have hsign := Scanner.sign_signed negative h r
  have hdigits := Scanner.digits_append h hr
  have hhead : ∀ {c : Char} {t : List Char}, c ≠ '-' → c.isDigit = false →
      (if negative then ['-'] else []) ++ (ds ++ r) ≠ c :: t := by
    intro c t hminus hdigit heq
    cases negative with
    | true => exact hminus (List.cons.inj heq).1.symm
    | false =>
        obtain ⟨d, es, rfl, hd⟩ := h.exists_cons
        exact ne_of_isDigit hd hdigit (List.cons.inj heq).1
  generalize (if negative then ['-'] else []) ++ (ds ++ r) = s at hsign hhead
  unfold ofText
  -- a minus sign or a digit stands at the front, so only the last case is left
  split
  all_goals first
    | exact absurd rfl (hhead (by decide) (by decide))
    | simp only [hsign, hdigits]

/-- A text has no form where no form begins as it does. -/
theorem ofText_of_beginsNoWord {c : Char} (h : Scanner.BeginsNoWord c) (hquote : c ≠ '"')
    (hslash : c ≠ '/') (s : List Char) : ofText (c :: s) = none := by
  obtain ⟨hdigit, hminus, -, hi, hu, hf, ht⟩ := h
  have hdigits : Scanner.digits (Scanner.sign (c :: s)).2 = .error (c :: s) := by
    rw [Scanner.sign_of_ne hminus]
    exact Scanner.digits_of_head (head_not_isDigit hdigit s)
  unfold ofText
  split
  all_goals first
    | next heq => exact absurd (List.cons.inj heq).1.symm (by assumption)
    | next heq => exact absurd (List.cons.inj heq).1 (by assumption)
    | rw [hdigits]

/-- A unit makes a duration. -/
theorem ofBehindDigits_unit {r r' : List Char} {u : TimeUnit} (h : Scanner.unit r = .ok (u, r')) :
    ofBehindDigits r = duration := by
  have hne : ∀ {c : Char} {t : List Char}, (c = '-' ∨ c = '.') → r ≠ c :: t := by
    rintro c t hc rfl
    have hrefused : Scanner.unit (c :: t) = .error (c :: t) := by
      refine Scanner.unit_of_head fun d hd => ?_
      cases hd
      rcases hc with rfl | rfl
      · exact .inl rfl
      · exact .inr (.inl rfl)
    rw [hrefused] at h
    cases h
  unfold ofBehindDigits
  split
  · exact absurd rfl (hne (.inl rfl))
  · exact absurd rfl (hne (.inr rfl))
  · rw [h]

/-- Nothing of the kind makes a whole number. -/
theorem ofBehindDigits_of_atBoundary {r : List Char} (h : Scanner.AtBoundary r) :
    ofBehindDigits r = integer := by
  have hne : ∀ {c : Char} {t : List Char}, ¬(c = ' ' ∨ c = ',' ∨ c = ')' ∨ c = '\n') →
      r ≠ c :: t := by
    rintro c t hc rfl
    exact hc (h c rfl)
  have hunit : Scanner.unit r = .error r :=
    Scanner.unit_of_head fun c hc => .inr (.inr (h c hc))
  unfold ofBehindDigits
  split
  · exact absurd rfl (hne (by decide))
  · exact absurd rfl (hne (by decide))
  · rw [hunit]

/-- What the scanner of another form than whole numbers takes has its form. -/
theorem ofText_eq {f : LiteralForm} (hf : f ≠ integer) {s rest : List Char} {v : Value}
    (h : f.scanner s = .ok (v, rest)) : ofText s = some f := by
  cases f with
  | integerCall =>
      obtain ⟨t, rfl⟩ := Scanner.eq_append_of_conversion h
      have hname : ("int" ++ "(").toList = 'i' :: "nt(".toList := by decide
      rw [hname]
      rfl
  | unsignedCall =>
      obtain ⟨t, rfl⟩ := Scanner.eq_append_of_conversion h
      have hname : ("uint" ++ "(").toList = 'u' :: "int(".toList := by decide
      rw [hname]
      rfl
  | floatCall =>
      obtain ⟨t, rfl⟩ := Scanner.eq_append_of_conversion h
      have hname : ("float" ++ "(").toList = 'f' :: 'l' :: "oat(".toList := by decide
      rw [hname]
      rfl
  | instant =>
      obtain ⟨t, hread, -⟩ := Scanner.exists_of_map h
      obtain ⟨hs, htext⟩ := Scanner.exists_of_instant hread
      obtain ⟨ds, r, heq, hds⟩ := Scanner.exists_of_ofText? htext
      rw [heq, List.append_assoc, List.cons_append] at hs
      rw [hs]
      exact ofText_signed false hds (head_not_isDigit rfl _)
  | duration =>
      obtain ⟨d, hread, -⟩ := Scanner.exists_of_map h
      obtain ⟨negative, ds, r, r', u, rfl, hds, hr, hunit⟩ := Scanner.exists_of_duration_head hread
      rw [ofText_signed negative hds hr, ofBehindDigits_unit hunit]
  | float =>
      obtain ⟨x, hread, -⟩ := Scanner.exists_of_map h
      obtain ⟨negative, ds, r, rfl, hds⟩ := Scanner.exists_of_float hread
      exact ofText_signed negative hds (head_not_isDigit rfl r)
  | integer => exact absurd rfl hf
  | yes =>
      obtain ⟨⟨⟩, hword, -⟩ := Scanner.exists_of_map h
      rw [Scanner.eq_append_of_word hword]
      rfl
  | no =>
      obtain ⟨⟨⟩, hword, -⟩ := Scanner.exists_of_map h
      rw [Scanner.eq_append_of_word hword]
      rfl
  | text =>
      obtain ⟨t, hread, -⟩ := Scanner.exists_of_map h
      obtain ⟨bs, hbytes, -⟩ := Scanner.exists_of_filterMap hread
      obtain ⟨⟨⟩, r, hquote, -⟩ := Scanner.exists_of_andThen hbytes
      rw [Scanner.eq_cons_of_char hquote]
      rfl
  | pattern =>
      obtain ⟨p, hread, -⟩ := Scanner.exists_of_map h
      obtain ⟨t, hspelling, -⟩ := Scanner.exists_of_filterMap hread
      obtain ⟨⟨⟩, r, hslash, -⟩ := Scanner.exists_of_andThen hspelling
      rw [Scanner.eq_cons_of_char hslash]
      rfl

theorem place_ofBehindDigits (r : List Char) : (ofBehindDigits r).place ≤ integer.place := by
  unfold ofBehindDigits
  split
  · decide
  · decide
  · split
    · decide
    · decide

/-- **What a scanner takes has its form, or one that is tried before**; what it takes as a whole has
its form. -/
theorem exists_ofText_eq {f : LiteralForm} {s rest : List Char} {v : Value}
    (h : f.scanner s = .ok (v, rest)) :
    ∃ g, ofText s = some g ∧ g.place ≤ f.place ∧ (rest = [] → g = f) := by
  by_cases hf : f = integer
  · -- the digits may be those of a form that is tried before, but not if nothing is left
    subst hf
    obtain ⟨n, hread, -⟩ := Scanner.exists_of_map h
    obtain ⟨negative, ds, rfl, hds, hrest⟩ := Scanner.exists_of_integer hread
    refine ⟨ofBehindDigits rest, ofText_signed negative hds hrest, place_ofBehindDigits rest, ?_⟩
    rintro rfl
    rfl
  · exact ⟨f, ofText_eq hf h, Nat.le_refl _, fun _ => rfl⟩

/-- A scanner takes nothing from a text of a form that is tried behind its own. -/
theorem exists_error_of_place_lt {f g : LiteralForm} {s : List Char} (hplace : f.place < g.place)
    (hg : ofText s = some g) : ∃ e, f.scanner s = .error e := by
  cases hf : f.scanner s with
  | error e => exact ⟨e, rfl⟩
  | ok taken =>
      obtain ⟨v, rest⟩ := taken
      obtain ⟨f', htext, hle, -⟩ := exists_ofText_eq hf
      rw [hg] at htext
      rw [← Option.some.inj htext] at hle
      omega

/-- What is taken as a whole has the form of its scanner. -/
theorem ofText_of_whole {f : LiteralForm} {s : List Char} {v : Value}
    (h : f.scanner s = .ok (v, [])) : ofText s = some f := by
  obtain ⟨g, hform, -, hg⟩ := exists_ofText_eq h
  rw [hform, hg rfl]

/-- The scanners are tried in this order. -/
theorem literal_eq_first :
    Scanner.literal = Scanner.first integerCall.scanner (all.tail.map scanner) := rfl

/-- A literal of any kind is taken by the scanner of a form. -/
theorem exists_of_literal {s : List Char} {r : Value × List Char} (h : Scanner.literal s = .ok r) :
    ∃ f : LiteralForm, f.scanner s = .ok r := by
  rw [literal_eq_first] at h
  obtain ⟨before, p, after, hsplit, hp, -⟩ := Scanner.first_eq_ok_iff.1 h
  have hmem : p ∈ all.map scanner := by
    have hall : all.map scanner = before ++ p :: after := hsplit
    simp [hall]
  obtain ⟨f, -, rfl⟩ := List.mem_map.1 hmem
  exact ⟨f, hp⟩

/-- **What has a form is taken as that by the scanner of a literal.** -/
theorem literal_of_ofText {f : LiteralForm} {s : List Char} (hform : ofText s = some f)
    {r : Value × List Char} (h : f.scanner s = .ok r) : Scanner.literal s = .ok r := by
  have hordered : all.Pairwise fun f g => f.place < g.place := by decide
  obtain ⟨before, after, hall⟩ := List.append_of_mem (mem_all f)
  rw [literal_eq_first, Scanner.first_eq_ok_iff]
  refine ⟨before.map scanner, f.scanner, after.map scanner, ?_, h, ?_⟩
  · have hmap : all.map scanner = before.map scanner ++ f.scanner :: after.map scanner := by
      rw [hall, List.map_append, List.map_cons]
    exact hmap
  · -- the scanners before that of the form are those of other forms
    intro p hp
    obtain ⟨g, hg, rfl⟩ := List.mem_map.1 hp
    rw [hall] at hordered
    exact exists_error_of_place_lt
      ((List.pairwise_append.1 hordered).2.2 g hg f List.mem_cons_self) hform

/-- Of another form than whole numbers is whatever its scanner takes. -/
theorem literal_of_ne_integer (f : LiteralForm) (hf : f ≠ integer) {s rest : List Char} {v : Value}
    (h : f.scanner s = .ok (v, rest)) : Scanner.literal s = .ok (v, rest) :=
  literal_of_ofText (ofText_eq hf h) h

/-- A text is a literal as a whole when its form says so. -/
theorem literal_eq_ok_iff {f : LiteralForm} {s : List Char} (hform : ofText s = some f) {v : Value} :
    Scanner.literal s = .ok (v, []) ↔ f.scanner s = .ok (v, []) := by
  constructor
  · intro h
    obtain ⟨g, hg⟩ := exists_of_literal h
    have heq : f = g := Option.some.inj (hform.symm.trans (ofText_of_whole hg))
    rw [heq]
    exact hg
  · exact literal_of_ofText hform

/-- **The order of the scanners neither hides nor mixes forms.**  A text has one form as a whole at
most, it is a literal exactly when it has one, with the value of that form, and no scanner before
that of its form takes anything from it. -/
theorem choice_exact :
    all.map scanner = Scanner.integerCall.map .integer :: Scanner.alternatives ∧
    ∀ s : String,
      (∀ f g : LiteralForm, ∀ v w, f.scanner s.toList = .ok (v, []) →
        g.scanner s.toList = .ok (w, []) → f = g) ∧
      (∀ v, Value.ofLiteral s = .ok v ↔ ∃ f : LiteralForm, f.scanner s.toList = .ok (v, [])) ∧
      ∀ f g : LiteralForm, ∀ w, f.place < g.place → g.scanner s.toList = .ok (w, []) →
        ∃ e, f.scanner s.toList = .error e := by
  refine ⟨rfl, fun s => ⟨fun f g v w hf hg => ?_, fun v => ⟨?_, ?_⟩, fun f g w hplace hg => ?_⟩⟩
  · exact Option.some.inj ((ofText_of_whole hf).symm.trans (ofText_of_whole hg))
  · intro h
    exact exists_of_literal (Scanner.whole_eq_ok_iff.1 h)
  · rintro ⟨f, hf⟩
    exact Scanner.whole_eq_ok_iff.2 (literal_of_ofText (ofText_of_whole hf) hf)
  · exact exists_error_of_place_lt hplace (ofText_of_whole hg)

/-- The digits of a year are a whole number, but a date is read as a date. -/
theorem choice_exact_date :
    integer.scanner "1970-01-02".toList = .ok (.integer 1970, "-01-02".toList) ∧
      instant.scanner "1970-01-02".toList = .ok (.instant ⟨86400, 0, by decide⟩, []) ∧
      Value.ofLiteral "1970-01-02" = .ok (.instant ⟨86400, 0, by decide⟩) ∧
      ∃ e, floatCall.scanner "1970-01-02".toList = .error e := by
  have hdate : instant.scanner "1970-01-02".toList = .ok (.instant ⟨86400, 0, by decide⟩, []) :=
    rfl
  obtain ⟨-, hliteral, herror⟩ := choice_exact.2 "1970-01-02"
  refine ⟨rfl, hdate, (hliteral _).2 ⟨instant, hdate⟩, ?_⟩
  exact herror floatCall instant _ (by decide) hdate

end LiteralForm

end BoundQuery
