/-
**Quoted texts read back.**

Reading a quoted text takes exactly that text, whatever follows it: no character of the text is
taken for the closing quote, for the opening of an interpolation, or for a part of an escape that
the writer did not put there.

Main results:

* `BoundQuery.head_escapeText_append` — an escaped text begins with a brace only if the text does;
* `BoundQuery.Scanner.textBytes_escapeText` — what stands between the quotes spells the bytes of
  the text;
* `BoundQuery.Scanner.text_quotedText_append` — a quoted text reads back before any text.
-/

import BoundQuery.Scan.Literal
import BoundQuery.Text.Quoted

set_option relaxedAutoImplicit false
set_option autoImplicit false

namespace BoundQuery

/-! ### Bytes as hexadecimal digits -/

theorem hexValue?_digitChar : ∀ k < 16, hexValue? k.digitChar = some k := by decide

namespace Scanner

theorem byteOfHex?_digitChar (b : UInt8) :
    byteOfHex? (b.toNat / 16).digitChar (b.toNat % 16).digitChar = some b := by
  have hb : b.toNat < 256 := b.toNat_lt
  have high := hexValue?_digitChar (b.toNat / 16) (by omega)
  have low := hexValue?_digitChar (b.toNat % 16) (by omega)
  have hsum : 16 * (b.toNat / 16) + b.toNat % 16 = b.toNat := by omega
  unfold byteOfHex?
  rw [high, low]
  change some (UInt8.ofNat (16 * (b.toNat / 16) + b.toNat % 16)) = some b
  rw [hsum, UInt8.ofNat_toNat]

@[simp] theorem prepend_nil (r : Except (List Char) (List UInt8 × List Char)) :
    prepend [] r = r := by
  cases r <;> rfl

@[simp] theorem prepend_prepend (bs cs : List UInt8)
    (r : Except (List Char) (List UInt8 × List Char)) :
    prepend bs (prepend cs r) = prepend (bs ++ cs) r := by
  cases r with
  | ok taken => simp [prepend]
  | error e => rfl

theorem textBytes_escapedByte (b : UInt8) (s : List Char) :
    textBytes (escapedByte b ++ s) = prepend [b] (textBytes s) := by
  simp only [escapedByte, hexPair, List.cons_append, List.nil_append, textBytes,
    byteOfHex?_digitChar]

theorem textBytes_escapedBytes (bs : List UInt8) (s : List Char) :
    textBytes (bs.flatMap escapedByte ++ s) = prepend bs (textBytes s) := by
  induction bs with
  | nil => rw [List.flatMap_nil, List.nil_append, prepend_nil]
  | cons b bs ih =>
      rw [List.flatMap_cons, List.append_assoc, textBytes_escapedByte, ih, prepend_prepend]
      rfl

/-! ### Escapes with a letter -/

/-- A character that is escaped by another one than `x` stands for its byte. -/
theorem textBytes_escaped {c : Char} {b : UInt8} (hc : escaped? c = some b) (s : List Char) :
    textBytes ('\\' :: c :: s) = prepend [b] (textBytes s) := by
  have hx : c ≠ 'x' := by
    rintro rfl
    cases hc
  rw [textBytes]
  · simp only [hc]
  · intro a b' rest h
    exact absurd h hx

/-- A character that is neither a quote nor a backslash nor opens an interpolation stands for
itself. -/
theorem textBytes_plain {c : Char} {s : List Char} (hq : c ≠ '"') (hb : c ≠ '\\')
    (hd : c = '$' → s.head? ≠ some '\x7b') :
    textBytes (c :: s) = prepend (String.utf8EncodeChar c) (textBytes s) := by
  rw [textBytes]
  · exact fun h => hq h
  · exact fun a b rest h _ => hb h
  · exact fun d rest h _ => hb h
  · exact fun h _ => hb h
  · intro rest h hs
    exact hd h (by rw [hs]; rfl)

end Scanner

/-! ### Where an escaped text begins -/

theorem head_flatMap_escapedByte {bs : List UInt8} (h : bs ≠ []) (s : List Char) :
    (bs.flatMap escapedByte ++ s).head? = some '\\' := by
  cases bs with
  | nil => exact absurd rfl h
  | cons b bs => rfl

/-- An escaped character begins with a backslash, or is the character itself. -/
theorem head_escapeChar_append (c : Char) (s : List Char) :
    (escapeChar c ++ s).head? = some '\\' ∨ (escapeChar c ++ s).head? = some c := by
  unfold escapeChar
  repeat' split
  · exact Or.inl rfl
  · exact Or.inl rfl
  · exact Or.inl rfl
  · exact Or.inl rfl
  · exact Or.inl rfl
  · exact Or.inl (head_flatMap_escapedByte String.utf8EncodeChar_ne_nil s)
  · exact Or.inr rfl

/-- An escaped text and its closing quote begin with a brace only if the text does. -/
theorem head_escapeText_append {s : List Char} (h : s.head? ≠ some '\x7b') (rest : List Char) :
    (escapeText s ++ '"' :: rest).head? ≠ some '\x7b' := by
  fun_cases escapeText s with
  | case1 => simp
  | case2 s => simp
  | case3 c s =>
      rw [List.append_assoc]
      rcases head_escapeChar_append c (escapeText s ++ '"' :: rest) with hh | hh
      · rw [hh]
        decide
      · rw [hh]
        exact h

/-! ### Reading back -/

namespace Scanner

/-- An escaped character spells its bytes, where a brace after a dollar sign is not left to it. -/
theorem textBytes_escapeChar {c : Char} {s : List Char}
    (hd : c = '$' → s.head? ≠ some '\x7b') :
    textBytes (escapeChar c ++ s) = prepend (String.utf8EncodeChar c) (textBytes s) := by
  unfold escapeChar
  split
  · next h => subst h; exact textBytes_escaped rfl s
  split
  · next h => subst h; exact textBytes_escaped rfl s
  split
  · next h => subst h; exact textBytes_escaped rfl s
  split
  · next h => subst h; exact textBytes_escaped rfl s
  split
  · next h => subst h; exact textBytes_escaped rfl s
  split
  · exact textBytes_escapedBytes _ s
  · next hb hq _ _ _ _ => exact textBytes_plain hq hb hd

/-- What stands between the quotes of a text spells the bytes of the text. -/
theorem textBytes_escapeText (s rest : List Char) :
    textBytes (escapeText s ++ '"' :: rest) = .ok (s.flatMap String.utf8EncodeChar, rest) := by
  -- along the text as the writer takes it: an opening brace goes with the dollar sign before it
  fun_induction escapeText s with
  | case1 => rfl
  | case2 s ih =>
      have hbrace : textBytes ('\x7b' :: (escapeText s ++ '"' :: rest)) =
          prepend (String.utf8EncodeChar '\x7b') (textBytes (escapeText s ++ '"' :: rest)) :=
        textBytes_plain (by decide) (by decide) (by simp)
      simp only [List.cons_append]
      rw [textBytes_escaped rfl, hbrace, ih]
      rfl
  | case3 c s hs ih =>
      have hd : c = '$' → (escapeText s ++ '"' :: rest).head? ≠ some '\x7b' := by
        intro hc
        refine head_escapeText_append ?_ rest
        intro hh
        cases s with
        | nil => cases hh
        | cons d s => exact hs s hc (by simpa using hh)
      rw [List.append_assoc, textBytes_escapeChar hd, ih]
      rfl

/-- The bytes of a text decode to the text. -/
theorem decoded?_flatMap_utf8EncodeChar (s : String) :
    decoded? (s.toList.flatMap String.utf8EncodeChar) = some s := by
  have hbytes : (⟨(s.toList.flatMap String.utf8EncodeChar).toArray⟩ : ByteArray) =
      s.toByteArray := by
    rw [← String.utf8Encode_toList, List.utf8Encode]
    exact (ByteArray.ext (by simp))
  unfold decoded?
  rw [hbytes, String.fromUTF8?, dif_pos s.isValidUTF8]
  rfl

/-- **A quoted text reads back before any text.** -/
theorem text_quotedText_append (s : String) (rest : List Char) :
    text (quotedText s.toList ++ rest) = .ok (s, rest) := by
  have hbytes := textBytes_escapeText s.toList rest
  simp only [text, filterMap, andThen, char, quotedText, List.cons_append, List.append_assoc,
    List.nil_append, if_true, hbytes, decoded?_flatMap_utf8EncodeChar]

end Scanner

end BoundQuery
