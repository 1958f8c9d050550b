/-
**Cutting bytes and taking characters.**

Every scanner of a literal that cuts texts at counts of bytes goes as the one that takes characters,
without a fault.  A number is read from the text that was cut off for it.  The two characters behind
`\x` are looked at as two bytes: these are two digits or no digits at all, also where the text ends
before them or the second byte belongs to a longer character.

Main results:

* `BoundQuery.ByteScanner.follows_integer`, `BoundQuery.ByteScanner.follows_float`,
  `BoundQuery.ByteScanner.follows_instant`, `BoundQuery.ByteScanner.follows_duration`,
  `BoundQuery.ByteScanner.follows_text`, `BoundQuery.ByteScanner.follows_pattern`,
  `BoundQuery.ByteScanner.follows_literal` — the scanners of literals go without a fault;
* `BoundQuery.ByteScanner.hexDigits?_eq_some_iff` — two bytes that are digits are two characters.
-/

import BoundQuery.Proofs.Scan.Cuts
import BoundQuery.Proofs.Value.ReadBack
import Mathlib.Data.List.Basic

set_option relaxedAutoImplicit false
set_option autoImplicit false

namespace BoundQuery

/-! ### Numbers -/

/-- A digit has no other case. -/
theorem toLower_of_isDigit {c : Char} (h : c.isDigit = true) : c.toLower = c := by
  have hupper : ¬(c.val ≥ 'A'.val ∧ c.val ≤ 'Z'.val) := by
    intro hbig
    simp only [Char.isDigit, Bool.and_eq_true, decide_eq_true_eq] at h
    exact absurd (UInt32.le_trans hbig.1 h.2) (by decide)
  unfold Char.toLower
  rw [dif_neg hupper]

/-- Digits, a point and digits are read as a number, with a minus sign before them or without. -/
theorem Double.ofText?_numerals (negative : Bool) {ds es : List Char} (hds : IsNumeral ds)
    (hes : IsNumeral es) :
    Double.ofText? ((if negative then ['-'] else []) ++ (ds ++ '.' :: es)) =
      some (Double.ofParts negative ds es 0) := by
  have hunsigned : Double.ofUnsignedText? negative (ds ++ '.' :: es) =
      some (Double.ofParts negative ds es 0) := by
    have hwhole := takeDigits_append ds ('.' :: es) hds.2 (head_not_isDigit rfl es)
    have hfraction := takeDigits_append es [] hes.2 (by simp)
    rw [List.append_nil] at hfraction
    have hname : ∀ {c : Char} {t : List Char}, c.isDigit = false →
        (ds ++ '.' :: es).map Char.toLower ≠ c :: t := by
      intro c t hc heq
      obtain ⟨d, ds', rfl, hd⟩ := hds.exists_cons
      have hhead : d.toLower = c := (List.cons.inj heq).1
      rw [toLower_of_isDigit hd] at hhead
      exact ne_of_isDigit hd hc hhead
    unfold Double.ofUnsignedText?
    have hinf : (ds ++ '.' :: es).map Char.toLower ≠ "inf".toList := hname rfl
    have hinfinity : (ds ++ '.' :: es).map Char.toLower ≠ "infinity".toList := hname rfl
    have hnan : (ds ++ '.' :: es).map Char.toLower ≠ "nan".toList := hname rfl
    have hempty : (ds.isEmpty && es.isEmpty) = false := by simp [hds.1]
    simp only [hinf, hinfinity, hnan, decide_false, Bool.or_self, Bool.false_eq_true, if_false,
      hwhole, hfraction, hempty]
    rfl
  cases negative with
  | true => exact hunsigned
  | false =>
      obtain ⟨d, ds', rfl, hd⟩ := hds.exists_cons
      simp only [Bool.false_eq_true, if_false, List.nil_append, List.cons_append] at hunsigned ⊢
      unfold Double.ofText?
      split
      · next heq => exact absurd (List.cons.inj heq).1 (ne_of_isDigit hd rfl)
      · next heq => exact absurd (List.cons.inj heq).1 (ne_of_isDigit hd rfl)
      · exact hunsigned

namespace ByteScanner

variable {α : Type} {s : List Char}

theorem follows_integer : integer.Follows Scanner.integer := by
  intro s
  have hs := Scanner.eq_sign_append s
  have hbody := (run_signed (k := fun _ => digits) s).trans (follows_digits (Scanner.sign s).2)
  unfold integer Scanner.integer
  cases h : Scanner.digits (Scanner.sign s).2 with
  | error e =>
      rw [h] at hbody
      rw [run_filterMap_of_throw (run_recognized_of_throw hbody)]
      simp only [h, faultless]
  | ok taken =>
      obtain ⟨ds, rest⟩ := taken
      obtain ⟨hsplit, hds⟩ := Scanner.eq_append_of_digits h
      rw [h] at hbody
      rw [hsplit, ← List.append_assoc] at hs
      rw [run_filterMap_of_pure (run_recognized_of_pure hbody hs),
        Scanner.integerOfText?_numeral _ hds]
      simp only [h]
      cases integerOfDigits? (Scanner.sign s).1 ds with
      | some n => rfl
      | none => rfl

theorem follows_float : float.Follows Scanner.float := by
  intro s
  have hs := Scanner.eq_sign_append s
  have hnumeral : ((do
      let _ ← digits
      char '.'
      digits) : ByteScanner (List Char)).Follows
        (Scanner.digits.andThen fun _ => (Scanner.char '.').andThen fun _ => Scanner.digits) :=
    follows_digits.bind fun _ => (follows_char '.').bind fun _ => follows_digits
  have hbody := (run_signed (k := fun _ => do
    let _ ← digits
    char '.'
    digits) s).trans (hnumeral (Scanner.sign s).2)
  unfold float Scanner.float
  cases h₁ : Scanner.digits (Scanner.sign s).2 with
  | error e =>
      simp only [Scanner.andThen, h₁] at hbody ⊢
      exact run_filterMap_of_throw (run_recognized_of_throw hbody) _
  | ok taken =>
      obtain ⟨whole, r₁⟩ := taken
      cases h₂ : Scanner.char '.' r₁ with
      | error e =>
          simp only [Scanner.andThen, h₁, h₂] at hbody ⊢
          exact run_filterMap_of_throw (run_recognized_of_throw hbody) _
      | ok taken =>
          obtain ⟨⟨⟩, r₂⟩ := taken
          cases h₃ : Scanner.digits r₂ with
          | error e =>
              simp only [Scanner.andThen, Scanner.map, h₁, h₂, h₃] at hbody ⊢
              exact run_filterMap_of_throw (run_recognized_of_throw hbody) _
          | ok taken =>
              obtain ⟨fraction, rest⟩ := taken
              obtain ⟨hsplit, hwhole⟩ := Scanner.eq_append_of_digits h₁
              obtain ⟨rfl, hfraction⟩ := Scanner.eq_append_of_digits h₃
              rw [hsplit, Scanner.eq_cons_of_char h₂] at hs
              simp only [Scanner.andThen, Scanner.map, h₁, h₂, h₃] at hbody ⊢
              have htaken : s = ((if (Scanner.sign s).1 then ['-'] else []) ++
                  (whole ++ '.' :: fraction)) ++ rest := by
                simpa using hs
              rw [run_filterMap_of_pure (run_recognized_of_pure hbody htaken),
                Double.ofText?_numerals _ hwhole hfraction]
              rfl

/-! ### Instants and durations -/

theorem follows_instant : instant.Follows Scanner.instant := by
  intro s
  have hspan := run_span Scanner.isInstantChar s
  unfold instant Scanner.instant
  by_cases h : s.takeWhile Scanner.isInstantChar = []
  · rw [if_pos h] at hspan
    rw [run_filterMap_of_throw hspan, h]
    rfl
  · rw [if_neg h] at hspan
    rw [run_filterMap_of_pure hspan]
    cases Instant.ofText? (s.takeWhile Scanner.isInstantChar) with
    | some t => rfl
    | none => rfl

/-- The first suffix that stands at the front of a text is taken. -/
theorem run_choice_suffix {ps : List (String × TimeUnit)} (hne : ps ≠ []) (s : List Char) :
    (choice (ps.map suffix)).run s = faultless
      (match ps.find? fun p => p.1.toList.isPrefixOf s with
      | some (w, u) => .ok (u, s.drop w.length)
      | none => .error s) := by
  have hsuffix : ∀ p : String × TimeUnit, (suffix p).run s =
      if p.1.toList.isPrefixOf s then pure (p.2, s.drop p.1.length) else throw (.refused s) := by
    intro p
    have hword := follows_word p.1.toList s
    unfold Scanner.word at hword
    unfold suffix
    split
    · next h =>
        rw [if_pos h] at hword
        rw [run_bind_of_pure hword, String.length_toList]
        rfl
    · next h =>
        rw [if_neg h] at hword
        exact run_bind_of_throw hword _
  induction ps with
  | nil => exact absurd rfl hne
  | cons p ps ih =>
      have hp := hsuffix p
      cases ps with
      | nil =>
          rw [List.map_singleton, choice, hp]
          by_cases h : p.1.toList.isPrefixOf s <;> simp [h, faultless]
      | cons r ps =>
          rw [List.map_cons, List.map_cons, choice, ← List.map_cons]
          split at hp
          · next h =>
              rw [run_orElse_of_pure hp]
              simp only [List.find?_cons, h, faultless]
          · next h =>
              rw [run_orElse_of_refused hp, ih (List.cons_ne_nil _ _)]
              simp only [List.find?_cons, h]

theorem follows_unit : unit.Follows Scanner.unit := by
  intro s
  unfold unit Scanner.unit
  exact run_choice_suffix (by decide) s

theorem follows_component : component.Follows Scanner.component :=
  (follows_digits.filterMap _).bind fun n => follows_unit.map fun u => (n.toNat, u)

/-- Components are taken as long as there are any, behind those that were taken before. -/
theorem more_component {fuel : Nat} (hfuel : s.length ≤ fuel) (taken : List (Nat × TimeUnit)) :
    more component taken s =
      pure (taken ++ (Scanner.components fuel s).1, (Scanner.components fuel s).2) := by
  induction fuel generalizing s taken with
  | zero =>
      obtain rfl : s = [] := List.length_eq_zero_iff.1 (Nat.le_zero.1 hfuel)
      have hnone : component.run [] = throw (.refused []) := follows_component []
      rw [more, hnone]
      simp only [Scanner.components, List.append_nil]
      rfl
  | succ fuel ih =>
      have hs := follows_component s
      have hleaves := Scanner.leavesEnd_component s
      unfold Scanner.components more
      cases h : Scanner.component s with
      | error e =>
          rw [h] at hs
          rw [hs]
          simp only [List.append_nil]
          rfl
      | ok answer =>
          obtain ⟨c, rest⟩ := answer
          rw [h] at hs hleaves
          obtain ⟨t, rfl, ht⟩ := hleaves
          have hlength := Scanner.length_le_byteLength t
          have hless : Scanner.byteLength rest < Scanner.byteLength (t ++ rest) := by
            rw [Scanner.byteLength_append]
            omega
          rw [List.length_append] at hfuel
          rw [hs]
          have hnext := ih (s := rest) (by omega) (taken ++ [c])
          change (if _ then more component (taken ++ [c]) rest else
            throw (Stop.refused (t ++ rest))) = _
          rw [if_pos hless, hnext]
          simp only [List.append_assoc, List.singleton_append]

theorem follows_duration : duration.Follows Scanner.duration := by
  intro s
  have hfirst := follows_component (Scanner.sign s).2
  unfold duration Scanner.duration
  rw [run_signed]
  generalize Scanner.sign s = signed at hfirst
  obtain ⟨negative, body⟩ := signed
  dsimp only at hfirst ⊢
  have hsign : (if negative then some () else none).isSome = negative := by cases negative <;> rfl
  rw [hsign]
  cases h : Scanner.component body with
  | error e =>
      rw [h] at hfirst
      exact run_filterMap_of_throw (run_bind_of_throw hfirst _) _
  | ok answer =>
      obtain ⟨c, rest⟩ := answer
      rw [h] at hfirst
      have hmany : (many component).run body =
          pure (c :: (Scanner.components rest.length rest).1,
            (Scanner.components rest.length rest).2) :=
        (run_bind_of_pure hfirst _).trans (more_component (Nat.le_refl _) [c])
      rw [run_filterMap_of_pure hmany]
      simp only
      cases Duration.ofAmounts (c :: (Scanner.components rest.length rest).1) with
      | ok d => rfl
      | error e => rfl

/-! ### Texts -/

/-- A hexadecimal digit is one byte, and stands for a number below sixteen. -/
theorem of_hexValue? {c : Char} {n : Nat} (h : hexValue? c = some n) :
    c.utf8Size = 1 ∧ n < 16 := by
  have hrange : ∀ {low high : Char}, low ≤ c ∧ c ≤ high → high.toNat ≤ 127 →
      c.utf8Size = 1 ∧ c.toNat - low.toNat ≤ high.toNat - low.toNat := by
    intro low high hc hbyte
    have hle : c.toNat ≤ high.toNat := UInt32.le_iff_toNat_le.1 hc.2
    have hsize : c.toNat ≤ 127 := Nat.le_trans hle hbyte
    exact ⟨Char.utf8Size_eq_one_iff.2 (UInt32.le_iff_toNat_le.2 hsize), Nat.sub_le_sub_right hle _⟩
  unfold hexValue? at h
  split at h
  · next hc =>
      cases h
      obtain ⟨hsize, hle⟩ := hrange hc (by decide)
      exact ⟨hsize, Nat.lt_of_le_of_lt hle (by decide)⟩
  · split at h
    · next hc =>
        cases h
        obtain ⟨hsize, hle⟩ := hrange hc (by decide)
        exact ⟨hsize, by simp only [Char.reduceToNat] at hle ⊢; omega⟩
    · split at h
      · next hc =>
          cases h
          obtain ⟨hsize, hle⟩ := hrange hc (by decide)
          exact ⟨hsize, by simp only [Char.reduceToNat] at hle ⊢; omega⟩
      · cases h

theorem byteLength_of_hexValue? {ds : List Char} (h : ∀ c ∈ ds, (hexValue? c).isSome) :
    Scanner.byteLength ds = ds.length := by
  induction ds with
  | nil => rfl
  | cons d ds ih =>
      obtain ⟨n, hn⟩ := Option.isSome_iff_exists.1 (h d List.mem_cons_self)
      have hds := ih fun c hc => h c (List.mem_cons_of_mem d hc)
      rw [Scanner.byteLength_cons, (of_hexValue? hn).1, hds, List.length_cons, Nat.add_comm]

/-- Two bytes that are hexadecimal digits are two characters. -/
theorem hexDigits?_eq_some_iff {ds : List Char} :
    hexDigits? s = some ds ↔
      ∃ a b r, s = a :: b :: r ∧ ds = [a, b] ∧ (hexValue? a).isSome ∧ (hexValue? b).isSome := by
  unfold hexDigits?
  rw [Option.filter_eq_some_iff, Option.map_eq_some_iff]
  constructor
  · rintro ⟨⟨⟨ds', r⟩, hsplit, rfl⟩, hall⟩
    obtain ⟨rfl, hbytes⟩ := splitBytes?_eq_some_iff.1 hsplit
    have hhex := List.all_eq_true.1 hall
    rw [byteLength_of_hexValue? hhex] at hbytes
    obtain ⟨a, b, rfl⟩ := List.length_eq_two.1 hbytes
    exact ⟨a, b, r, rfl, rfl, hhex a (by simp), hhex b (by simp)⟩
  · rintro ⟨a, b, r, rfl, rfl, ha, hb⟩
    have hhex : ∀ c ∈ [a, b], (hexValue? c).isSome := by simp [ha, hb]
    refine ⟨⟨([a, b], r), ?_, rfl⟩, List.all_eq_true.2 hhex⟩
    rw [splitBytes?_eq_some_iff, byteLength_of_hexValue? hhex]
    exact ⟨rfl, rfl⟩

theorem byteOfDigits?_pair (a b : Char) : byteOfDigits? [a, b] = Scanner.byteOfHex? a b := by
  unfold byteOfDigits? Scanner.byteOfHex? ofHex?
  cases ha : hexValue? a with
  | none => simp [ha]
  | some m =>
      cases hb : hexValue? b with
      | none => simp [ha, hb]
      | some n =>
          have hm := (of_hexValue? ha).2
          have hn := (of_hexValue? hb).2
          have hlt : 16 * m + n < 256 := by omega
          simp [ha, hb, hlt]

theorem isSome_of_byteOfHex? {a b : Char} {byte : UInt8}
    (h : Scanner.byteOfHex? a b = some byte) : (hexValue? a).isSome ∧ (hexValue? b).isSome := by
  unfold Scanner.byteOfHex? at h
  obtain ⟨m, ha, h⟩ := Option.bind_eq_some_iff.1 h
  obtain ⟨n, hb, -⟩ := Option.bind_eq_some_iff.1 h
  exact ⟨Option.isSome_of_eq_some ha, Option.isSome_of_eq_some hb⟩

/-- Two bytes at the front of a text spell a byte where they are two characters that do. -/
theorem byteOfDigits?_hexDigits? (a b : Char) (s : List Char) :
    (hexDigits? (a :: b :: s)).bind byteOfDigits? = Scanner.byteOfHex? a b := by
  cases h : hexDigits? (a :: b :: s) with
  | some ds =>
      obtain ⟨a', b', r, heq, rfl, -, -⟩ := hexDigits?_eq_some_iff.1 h
      cases heq
      exact byteOfDigits?_pair a b
  | none =>
      cases hbyte : Scanner.byteOfHex? a b with
      | none => rfl
      | some byte =>
          have hsome : hexDigits? (a :: b :: s) = some [a, b] :=
            hexDigits?_eq_some_iff.2 ⟨a, b, s, rfl, rfl, isSome_of_byteOfHex? hbyte⟩
          rw [h] at hsome
          cases hsome

/-- Fewer than two characters are not two digits, however many bytes they have. -/
theorem hexDigits?_of_length (h : s.length < 2) : hexDigits? s = none := by
  cases hsome : hexDigits? s with
  | none => rfl
  | some ds =>
      obtain ⟨a, b, r, rfl, -⟩ := hexDigits?_eq_some_iff.1 hsome
      simp only [List.length_cons] at h
      omega

/-- The text behind two digits is cut off where it begins. -/
theorem splitBytes?_of_byteOfHex? {a b : Char} {byte : UInt8}
    (h : Scanner.byteOfHex? a b = some byte) (s : List Char) :
    splitBytes? 2 (a :: b :: s) = some ([a, b], s) := by
  have hhex : ∀ c ∈ [a, b], (hexValue? c).isSome := by simp [isSome_of_byteOfHex? h]
  rw [splitBytes?_eq_some_iff, byteLength_of_hexValue? hhex]
  exact ⟨rfl, rfl⟩

/-- **No cut between quotes is a fault**, and the bytes are those that are taken character by
character. -/
theorem textBytes_eq (taken : List UInt8) (s : List Char) :
    textBytes taken s = faultless (Scanner.prepend taken (Scanner.textBytes s)) := by
  -- along the escapes and characters up to the closing quote
  fun_induction Scanner.textBytes s generalizing taken with
  | case1 =>
      rw [textBytes]
      rfl
  | case2 rest =>
      rw [textBytes, Scanner.prepend, List.append_nil]
      rfl
  | case3 a b rest byte hbyte ih =>
      have hcut := splitBytes?_of_byteOfHex? hbyte rest
      rw [textBytes, byteOfDigits?_hexDigits?, hbyte, Scanner.prepend_prepend]
      dsimp only
      split
      · next hnone =>
          rw [hcut] at hnone
          cases hnone
      · next hsome =>
          rw [hcut] at hsome
          cases hsome
          exact ih _
  | case4 a b rest hbyte =>
      rw [textBytes, byteOfDigits?_hexDigits?, hbyte]
      rfl
  | case5 c rest _ byte hbyte ih =>
      have hc : c ≠ 'x' := by
        rintro rfl
        cases hbyte
      rw [textBytes]
      · simp only [hbyte, ih, Scanner.prepend_prepend]
      · exact hc
  | case6 c rest hx hbyte =>
      by_cases hc : c = 'x'
      · -- the text ends before the second digit
        subst hc
        have hshort : rest.length < 2 := by
          rcases rest with _ | ⟨a, _ | ⟨b, rest⟩⟩
          · exact Nat.zero_lt_two
          · exact Nat.one_lt_two
          · exact (hx a b rest rfl rfl).elim
        rw [textBytes, hexDigits?_of_length hshort]
        rfl
      · rw [textBytes]
        · simp only [hbyte]
          rfl
        · exact hc
  | case7 =>
      rw [textBytes]
      rfl
  | case8 rest =>
      rw [textBytes]
      rfl
  | case9 c rest hquote _ hpair hlone hopen ih =>
      rw [textBytes]
      · rw [ih, Scanner.prepend_prepend]
      · exact hquote
      · exact fun tail hc hr => hpair 'x' tail hc hr
      · exact hpair
      · exact hlone
      · exact hopen

theorem follows_text : text.Follows Scanner.text := by
  have hbytes : ((do
      char '"'
      textBytes []) : ByteScanner (List UInt8)).Follows
        ((Scanner.char '"').andThen fun _ => Scanner.textBytes) :=
    (follows_char '"').bind fun _ s => (textBytes_eq [] s).trans
      (congrArg faultless (Scanner.prepend_nil _))
  exact hbytes.filterMap _

/-! ### Patterns -/

theorem prependChars_prependChars (cs ds : List Char)
    (r : Except (List Char) (List Char × List Char)) :
    Scanner.prependChars cs (Scanner.prependChars ds r) = Scanner.prependChars (cs ++ ds) r := by
  cases r with
  | ok taken => simp [Scanner.prependChars]
  | error rest => rfl

/-- The spelling between slashes is the one that is taken character by character. -/
theorem spelling_eq (taken s : List Char) :
    spelling taken s = faultless (Scanner.prependChars taken (Scanner.spelling s)) := by
  -- along the pairs and characters up to the closing slash
  fun_induction Scanner.spelling s generalizing taken with
  | case1 => rfl
  | case2 => rfl
  | case3 rest =>
      rw [spelling, Scanner.prependChars, List.append_nil]
      rfl
  | case4 => rfl
  | case5 rest ih =>
      rw [spelling, ih, prependChars_prependChars]
  | case6 c rest hslash ih =>
      rw [spelling, ih, prependChars_prependChars]
      exact hslash
  | case7 c rest hnewline hslash hlone hpair' hpair ih =>
      rw [spelling, ih, prependChars_prependChars]
      · exact hnewline
      · exact hslash
      · exact hlone
      · exact hpair'
      · exact hpair

theorem follows_pattern : pattern.Follows Scanner.pattern := by
  have hspelling : ((do
      char '/'
      spelling []) : ByteScanner (List Char)).Follows
        ((Scanner.char '/').andThen fun _ => Scanner.spelling) := by
    refine (follows_char '/').bind fun _ s => (spelling_eq [] s).trans ?_
    cases Scanner.spelling s with
    | ok taken => rfl
    | error rest => rfl
  exact hspelling.filterMap _

/-! ### Literals of any kind -/

theorem accepts_conversion (name : String) {q : ByteScanner α} {p : Scanner α}
    (h : q.Accepts p) : (conversion name q).Accepts (Scanner.conversion name p) := by
  have hclosing : ∀ a : α, (do
      char ')'
      return a : ByteScanner α).Accepts ((Scanner.char ')').map fun _ => a) :=
    fun a => ((follows_char ')').map fun _ => a).accepts
  have hargument := (h.bind fun a => (hclosing a).blanks).blanks
  have hlabel := ((follows_word "v:".toList).accepts.bind fun _ => hargument).blanks
  have hname := (accepts_word_char name.toList '(').bind fun _ => hlabel
  have hopening : name.toList ++ ['('] = (name ++ "(").toList := by
    rw [String.toList_append]
    rfl
  rw [hopening] at hname
  unfold conversion Scanner.conversion
  rw [← bind_assoc]
  exact hname

theorem follows_literal : literal.Follows Scanner.literal := by
  have htext := follows_text.accepts
  have hinteger : integerCall.Accepts Scanner.integerCall :=
    (accepts_conversion "int" htext).filterMap (fun _ => trivial) _
  have hunsigned : unsignedCall.Accepts Scanner.unsignedCall :=
    (accepts_conversion "uint" follows_digits.accepts).filterMap (fun _ => trivial) _
  have hfloat : floatCall.Accepts Scanner.floatCall :=
    (accepts_conversion "float" htext).filterMap (fun _ => trivial) _
  unfold literal Scanner.literal Scanner.alternatives
  refine Follows.choice (hinteger.map _) ?_
  refine Follows.choice (hunsigned.map _) ?_
  refine Follows.choice (hfloat.map _) ?_
  refine Follows.choice (follows_instant.map _).accepts ?_
  refine Follows.choice (follows_duration.map _).accepts ?_
  refine Follows.choice (follows_float.map _).accepts ?_
  refine Follows.choice (follows_integer.map _).accepts ?_
  refine Follows.choice ((follows_word _).map _).accepts ?_
  refine Follows.choice ((follows_word _).map _).accepts ?_
  refine Follows.choice (follows_text.map _).accepts ?_
  exact follows_pattern.map _

end ByteScanner

end BoundQuery
