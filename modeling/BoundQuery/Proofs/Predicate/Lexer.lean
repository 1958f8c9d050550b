/-
**Tokens of predicates.**

A predicate is read as words, commas, parentheses and connectives.  Between quotes, and between the
slashes of a pattern, which can only stand behind a tilde, nothing ends a word but the closing
character; a character behind a backslash closes nothing.  What is read so far is a list of tokens
and the beginning of a word, so that a text can be cut wherever a word ends.

Main definitions:

* `BoundQuery.Token` — a token;
* `BoundQuery.Lexer`, `BoundQuery.Lexer.step` — what is read so far, and one more character;
* `BoundQuery.tokens?` — the tokens of a text;
* `BoundQuery.Scans`, `BoundQuery.Follows` — the tokens of a text that begins a word, and of one
  that ends the word before it.

Main results:

* `BoundQuery.Scans.append` — the tokens of a text that is cut where a word ends;
* `BoundQuery.scans_name`, `BoundQuery.scans_quotedText` — names and quoted texts are one word;
* `BoundQuery.follows_connective`, `BoundQuery.Scans.parenthesized` — connectives and parentheses
  are tokens of their own.
-/

import BoundQuery.Predicate.Basic
import BoundQuery.Proofs.Binding.Name
import BoundQuery.Proofs.Value.Characters

set_option relaxedAutoImplicit false
set_option autoImplicit false

namespace BoundQuery

/-! ### Tokens -/

/-- A token of a predicate. -/
inductive Token where
  | word (text : List Char)
  | opening
  | closing
  | connective (c : Connective)
deriving DecidableEq

/-- The token of a word: a connective, where the word is one. -/
def Token.ofWord (w : List Char) : Token :=
  if w = Connective.all.word.toList then connective .all
  else if w = Connective.any.word.toList then connective .any
  else word w

/-- The tokens of a word that may be missing. -/
def wordTokens (w : List Char) : List Token := if w = [] then [] else [Token.ofWord w]

/-- What decides how a slash is read: a tilde or a slash before it. -/
inductive Before where
  | tilde | slash | other
deriving DecidableEq

/-- Where the reader stands. -/
inductive Mode where
  | plain (before : Before)
  /-- Inside of a word that the character closes. -/
  | quoted (close : Char)
  /-- Behind a backslash in such a word. -/
  | escaped (close : Char)
  /-- Behind two slashes: a predicate has no comments. -/
  | comment
deriving DecidableEq

/-- What is read so far: the tokens, the beginning of a word, and where the reader stands. -/
structure Lexer where
  tokens : List Token
  word : List Char
  mode : Mode
deriving DecidableEq

namespace Lexer

/-- One more character. -/
def step : Lexer → Char → Lexer
  | ⟨ts, w, .plain b⟩, c =>
      if c.isWhitespace then ⟨ts ++ wordTokens w, [], .plain (if b = .tilde then b else .other)⟩
      else if c = '(' then ⟨ts ++ wordTokens w ++ [.opening], [], .plain .other⟩
      else if c = ')' then ⟨ts ++ wordTokens w ++ [.closing], [], .plain .other⟩
      else if c = ',' then ⟨ts ++ wordTokens w ++ [.word [c]], [], .plain .other⟩
      else if c = '"' then ⟨ts ++ wordTokens w, [c], .quoted c⟩
      else if c = '/' then
        match b with
        | .tilde => ⟨ts ++ wordTokens w, [c], .quoted c⟩
        | .slash => ⟨ts, w, .comment⟩
        | .other => ⟨ts, w ++ [c], .plain .slash⟩
      else ⟨ts, w ++ [c], .plain (if c = '~' then .tilde else .other)⟩
  | ⟨ts, w, .quoted q⟩, c =>
      if c = q then ⟨ts ++ [.word (w ++ [c])], [], .plain .other⟩
      else ⟨ts, w ++ [c], if c = '\\' then .escaped q else .quoted q⟩
  | ⟨ts, w, .escaped q⟩, c => ⟨ts, w ++ [c], .quoted q⟩
  | ⟨ts, w, .comment⟩, _ => ⟨ts, w, .comment⟩

/-- A text, one character after the other. -/
def run (l : Lexer) (s : List Char) : Lexer := s.foldl step l

/-- The tokens at the end of a text; `none` where something is not closed. -/
def finish : Lexer → Option (List Token)
  | ⟨ts, w, .plain _⟩ => some (ts ++ wordTokens w)
  | _ => none

/-- The same reader, with tokens before those that are read. -/
def prepend (vs : List Token) (l : Lexer) : Lexer := { l with tokens := vs ++ l.tokens }

theorem run_append (l : Lexer) (s t : List Char) : l.run (s ++ t) = (l.run s).run t :=
  List.foldl_append

theorem run_cons (l : Lexer) (c : Char) (s : List Char) : l.run (c :: s) = (l.step c).run s := rfl

theorem step_prepend (vs : List Token) (l : Lexer) (c : Char) :
    (l.prepend vs).step c = (l.step c).prepend vs := by
  obtain ⟨ts, w, m⟩ := l
  cases m with
  | plain b =>
      simp only [prepend, step]
      repeat' split
      all_goals simp only [List.append_assoc]
  | quoted q =>
      simp only [prepend, step]
      split
      · simp only [List.append_assoc]
      · rfl
  | escaped q => rfl
  | comment => rfl

/-- What was read before does not matter for what follows. -/
theorem run_prepend (vs : List Token) (l : Lexer) (s : List Char) :
    (l.prepend vs).run s = (l.run s).prepend vs := by
  induction s generalizing l with
  | nil => rfl
  | cons c s ih => rw [run_cons, run_cons, step_prepend, ih]

theorem finish_prepend (vs : List Token) (l : Lexer) :
    (l.prepend vs).finish = l.finish.map (vs ++ ·) := by
  obtain ⟨ts, w, m⟩ := l
  cases m with
  | plain b => simp only [prepend, finish, List.append_assoc, Option.map_some]
  | quoted q => rfl
  | escaped q => rfl
  | comment => rfl

theorem exists_of_finish_eq_some {l : Lexer} {ts : List Token} (h : l.finish = some ts) :
    ∃ us w b, l = ⟨us, w, .plain b⟩ ∧ us ++ wordTokens w = ts := by
  obtain ⟨us, w, m⟩ := l
  cases m with
  | plain b => exact ⟨us, w, b, rfl, Option.some.inj h⟩
  | quoted q => cases h
  | escaped q => cases h
  | comment => cases h

end Lexer

/-- The tokens of a text. -/
def tokens? (s : List Char) : Option (List Token) := (Lexer.run ⟨[], [], .plain .other⟩ s).finish

/-! ### Texts cut into parts -/

/-- A text that begins a word has these tokens. -/
def Scans (b : Before) (s : List Char) (ts : List Token) : Prop :=
  (Lexer.run ⟨[], [], .plain b⟩ s).finish = some ts

/-- A text that ends the word before it has these tokens. -/
def Follows (s : List Char) (ts : List Token) : Prop :=
  ∀ w b, (Lexer.run ⟨[], w, .plain b⟩ s).finish = some (wordTokens w ++ ts)

section Parts

variable {b : Before} {s t : List Char} {ts us : List Token}

/-- Behind tokens and the beginning of a word, the tokens of what follows come next. -/
theorem Lexer.finish_run_eq (us : List Token) (w : List Char) (b : Before) (s : List Char) :
    (Lexer.run ⟨us, w, .plain b⟩ s).finish =
      (Lexer.run ⟨[], w, .plain b⟩ s).finish.map (us ++ ·) := by
  have hprepend : (⟨us, w, .plain b⟩ : Lexer) = Lexer.prepend us ⟨[], w, .plain b⟩ := by
    simp only [prepend, List.append_nil]
  rw [hprepend, run_prepend, finish_prepend]

/-- **A text can be cut where a word ends.** -/
theorem Scans.append (hs : Scans b s ts) (ht : Follows t us) : Scans b (s ++ t) (ts ++ us) := by
  obtain ⟨vs, w, b', hrun, rfl⟩ := Lexer.exists_of_finish_eq_some hs
  unfold Scans
  rw [Lexer.run_append, hrun, Lexer.finish_run_eq, ht w b', Option.map_some, List.append_assoc]

/-- Behind a text that ends where a word can begin, the tokens of what follows come next. -/
theorem Scans.cons_run {b' : Before} (hs : Lexer.run ⟨[], [], .plain b⟩ s = ⟨ts, [], .plain b'⟩)
    (ht : Scans b' t us) : Scans b (s ++ t) (ts ++ us) := by
  unfold Scans at ht ⊢
  rw [Lexer.run_append, hs, Lexer.finish_run_eq, ht, Option.map_some]

/-- A blank ends a word. -/
theorem follows_blank (hs : ∀ b, Scans b s ts) : Follows (' ' :: s) ts := by
  intro w b
  have hstep : Lexer.step ⟨[], w, .plain b⟩ ' ' =
      ⟨wordTokens w, [], .plain (if b = .tilde then b else .other)⟩ := rfl
  rw [Lexer.run_cons, hstep, Lexer.finish_run_eq, hs, Option.map_some]

/-- A parenthesis that closes ends a word. -/
theorem follows_closing (hs : Scans .other s ts) : Follows (')' :: s) (.closing :: ts) := by
  intro w b
  have hstep : Lexer.step ⟨[], w, .plain b⟩ ')' =
      ⟨wordTokens w ++ [.closing], [], .plain .other⟩ := rfl
  rw [Lexer.run_cons, hstep, Lexer.finish_run_eq, hs, Option.map_some, List.append_assoc]
  rfl

/-- A comma ends a word. -/
theorem follows_comma (hs : Scans .other s ts) : Follows (',' :: s) (.word [','] :: ts) := by
  intro w b
  have hstep : Lexer.step ⟨[], w, .plain b⟩ ',' =
      ⟨wordTokens w ++ [.word [',']], [], .plain .other⟩ := rfl
  rw [Lexer.run_cons, hstep, Lexer.finish_run_eq, hs, Option.map_some, List.append_assoc]
  rfl

/-- A connective between blanks is a token of its own. -/
theorem follows_connective (c : Connective) (hs : Scans .other s ts) :
    Follows (Predicate.spaced c.word ++ s) (.connective c :: ts) := by
  intro w b
  have hrun : Lexer.run ⟨[], w, .plain b⟩ (Predicate.spaced c.word) =
      ⟨wordTokens w ++ [.connective c], [], .plain .other⟩ := by
    cases c with
    | all => cases b <;> rfl
    | any => cases b <;> rfl
  rw [Lexer.run_append, hrun, Lexer.finish_run_eq, hs, Option.map_some, List.append_assoc]
  rfl

/-- The sign of a comparison between blanks is a word. -/
theorem follows_sign (how : Comparison) (hs : ∀ b, Scans b s ts) :
    Follows (Predicate.spaced how.sign ++ s) (.word how.sign.toList :: ts) := by
  have hsign : ∀ b, Scans b how.sign.toList [.word how.sign.toList] := by
    intro b
    cases how <;> cases b <;> rfl
  have hbehind : ∀ b, Scans b (how.sign.toList ++ ' ' :: s) (.word how.sign.toList :: ts) :=
    fun b => (hsign b).append (follows_blank hs)
  have htext : Predicate.spaced how.sign ++ s = ' ' :: (how.sign.toList ++ ' ' :: s) := by
    simp only [Predicate.spaced, List.cons_append, List.append_assoc, List.nil_append]
  rw [htext]
  exact follows_blank hbehind

/-- Parentheses are tokens of their own. -/
theorem Scans.parenthesized (hs : Scans .other s ts) :
    Scans b ('(' :: (s ++ [')'])) (.opening :: (ts ++ [.closing])) := by
  have hopen : Lexer.run ⟨[], [], .plain b⟩ ['('] = ⟨[.opening], [], .plain .other⟩ := rfl
  exact Scans.cons_run hopen (hs.append (follows_closing rfl))

end Parts

/-! ### Words -/

/-- Whether a character may stand in a name or a numeral. -/
def isNameChar (c : Char) : Bool :=
  c.isAlphanum || c = '_' || c = '.' || c = '-' || c = '+' || c = ':'

/-- A text of characters of names. -/
def NameText (s : List Char) : Prop := ∀ c ∈ s, isNameChar c = true

instance (s : List Char) : Decidable (NameText s) := List.decidableBAll _ s

theorem isNameChar_of_isNumeralChar {c : Char} (h : isNumeralChar c = true) :
    isNameChar c = true := by
  have hmarks : NameText numeralMarks := by decide
  rcases Bool.or_eq_true _ _ ▸ h with hdigit | hmark
  · simp [isNameChar, Char.isAlphanum, hdigit]
  · exact hmarks c (List.contains_iff_mem.1 hmark)

theorem isNameChar_of_isIdentifierChar {c : Char} (h : isIdentifierChar c = true) :
    isNameChar c = true := by
  rcases Bool.or_eq_true _ _ ▸ h with halnum | hline
  · simp [isNameChar, halnum]
  · simp [isNameChar, hline]

/-- A name behind a text of characters of names. -/
theorem nameText_append_identifier {w : List Char} (hw : NameText w) {name : String}
    (h : isIdentifier name = true) : NameText (w ++ name.toList) := by
  refine List.forall_mem_append.2 ⟨hw, fun c hc => ?_⟩
  exact isNameChar_of_isIdentifierChar (isIdentifierChar_of_mem h c hc)

theorem NumeralText.nameText {s : List Char} (h : NumeralText s) : NameText s := fun c hc =>
  isNameChar_of_isNumeralChar (h c hc)

theorem Lexer.step_of_isNameChar {c : Char} (hc : isNameChar c = true) (ts : List Token)
    (w : List Char) (b : Before) :
    Lexer.step ⟨ts, w, .plain b⟩ c = ⟨ts, w ++ [c], .plain .other⟩ := by
  have hne : ∀ d, isNameChar d = false → c ≠ d := by
    rintro d hd rfl
    rw [hd] at hc
    cases hc
  have hspace : c.isWhitespace = false := by
    simp [Char.isWhitespace, hne ' ' rfl, hne '\t' rfl, hne '\r' rfl, hne '\n' rfl]
  simp only [step, hspace, Bool.false_eq_true, if_false, hne '(' rfl, hne ')' rfl, hne ',' rfl,
    hne '"' rfl, hne '/' rfl, hne '~' rfl]

theorem Lexer.run_nameText {s : List Char} (hs : NameText s) (ts : List Token) (w : List Char) :
    Lexer.run ⟨ts, w, .plain .other⟩ s = ⟨ts, w ++ s, .plain .other⟩ := by
  induction s generalizing w with
  | nil => rw [List.append_nil]; rfl
  | cons c s ih =>
      obtain ⟨hc, hs⟩ := List.forall_mem_cons.1 hs
      rw [run_cons, step_of_isNameChar hc, ih hs, List.append_assoc]
      rfl

/-- A name that is not made of letters alone is a word, and no connective. -/
theorem scans_name {s : List Char} (hs : NameText s) (hmark : ∃ d ∈ s, d.isAlpha = false)
    (b : Before) : Scans b s [.word s] := by
  have hletters : ∀ c : Connective, c.word.toList.all Char.isAlpha = true := by
    intro c
    cases c <;> decide
  have hword : ∀ c : Connective, s ≠ c.word.toList := by
    rintro c rfl
    obtain ⟨d, hd, hfalse⟩ := hmark
    rw [List.all_eq_true.1 (hletters c) d hd] at hfalse
    cases hfalse
  cases s with
  | nil =>
      obtain ⟨d, hd, -⟩ := hmark
      cases hd
  | cons c s =>
      obtain ⟨hc, hs⟩ := List.forall_mem_cons.1 hs
      unfold Scans
      rw [Lexer.run_cons, Lexer.step_of_isNameChar hc, Lexer.run_nameText hs]
      simp only [Lexer.finish, wordTokens, List.nil_append, List.singleton_append,
        List.cons_ne_nil, if_false, Token.ofWord, hword .all, hword .any]

/-! ### Quoted texts -/

/-- Characters that neither close a quoted text nor escape what follows are read as they are. -/
theorem Lexer.run_of_forall_ne {s : List Char} (hs : ∀ c ∈ s, c ≠ '"' ∧ c ≠ '\\')
    (ts : List Token) (w : List Char) :
    Lexer.run ⟨ts, w, .quoted '"'⟩ s = ⟨ts, w ++ s, .quoted '"'⟩ := by
  induction s generalizing w with
  | nil => rw [List.append_nil]; rfl
  | cons c s ih =>
      obtain ⟨hquote, hslash⟩ := hs c List.mem_cons_self
      have hstep : Lexer.step ⟨ts, w, .quoted '"'⟩ c = ⟨ts, w ++ [c], .quoted '"'⟩ := by
        simp only [step, hquote, hslash, if_false]
      rw [run_cons, hstep, ih fun d hd => hs d (List.mem_cons_of_mem c hd), List.append_assoc]
      rfl

/-- A character behind a backslash closes nothing. -/
theorem Lexer.run_escaped (c : Char) (ts : List Token) (w : List Char) :
    Lexer.run ⟨ts, w, .quoted '"'⟩ ['\\', c] = ⟨ts, w ++ ['\\', c], .quoted '"'⟩ := by
  have hslash : Lexer.step ⟨ts, w, .quoted '"'⟩ '\\' = ⟨ts, w ++ ['\\'], .escaped '"'⟩ := rfl
  have hnext : Lexer.step ⟨ts, w ++ ['\\'], .escaped '"'⟩ c =
      ⟨ts, w ++ ['\\'] ++ [c], .quoted '"'⟩ := rfl
  rw [run_cons, hslash, run_cons, hnext, List.append_assoc]
  rfl

theorem digitChar_ne : ∀ k < 16, k.digitChar ≠ '"' ∧ k.digitChar ≠ '\\' := by decide

theorem Lexer.run_escapedByte (b : UInt8) (ts : List Token) (w : List Char) :
    Lexer.run ⟨ts, w, .quoted '"'⟩ (escapedByte b) = ⟨ts, w ++ escapedByte b, .quoted '"'⟩ := by
  have hb : b.toNat < 256 := b.toNat_lt
  have hdigits : ∀ c ∈ hexPair b, c ≠ '"' ∧ c ≠ '\\' := by
    intro c hc
    simp only [hexPair, List.mem_cons, List.not_mem_nil, or_false] at hc
    rcases hc with rfl | rfl
    · exact digitChar_ne _ (by omega)
    · exact digitChar_ne _ (by omega)
  have htext : escapedByte b = ['\\', 'x'] ++ hexPair b := rfl
  rw [htext, run_append, run_escaped, run_of_forall_ne hdigits, List.append_assoc]

theorem Lexer.run_escapedBytes (bs : List UInt8) (ts : List Token) (w : List Char) :
    Lexer.run ⟨ts, w, .quoted '"'⟩ (bs.flatMap escapedByte) =
      ⟨ts, w ++ bs.flatMap escapedByte, .quoted '"'⟩ := by
  induction bs generalizing w with
  | nil => rw [List.flatMap_nil, List.append_nil]; rfl
  | cons b bs ih => rw [List.flatMap_cons, run_append, run_escapedByte, ih, List.append_assoc]

theorem Lexer.run_escapeChar (c : Char) (ts : List Token) (w : List Char) :
    Lexer.run ⟨ts, w, .quoted '"'⟩ (escapeChar c) = ⟨ts, w ++ escapeChar c, .quoted '"'⟩ := by
  unfold escapeChar
  split
  · exact run_escaped _ ts w
  split
  · exact run_escaped _ ts w
  split
  · exact run_escaped _ ts w
  split
  · exact run_escaped _ ts w
  split
  · exact run_escaped _ ts w
  split
  · exact run_escapedBytes _ ts w
  · next hslash hquote _ _ _ _ =>
      refine run_of_forall_ne (fun d hd => ?_) ts w
      obtain rfl := List.mem_singleton.1 hd
      exact ⟨hquote, hslash⟩

theorem Lexer.run_escapeText (s : List Char) (ts : List Token) (w : List Char) :
    Lexer.run ⟨ts, w, .quoted '"'⟩ (escapeText s) = ⟨ts, w ++ escapeText s, .quoted '"'⟩ := by
  fun_induction escapeText s generalizing w with
  | case1 => rw [List.append_nil]; rfl
  | case2 s ih =>
      have hbrace : ∀ c ∈ ['\x7b'], c ≠ '"' ∧ c ≠ '\\' := by simp
      have htext : '\\' :: '$' :: '\x7b' :: escapeText s =
          ['\\', '$'] ++ (['\x7b'] ++ escapeText s) := rfl
      rw [htext, run_append, run_escaped, run_append, run_of_forall_ne hbrace, ih,
        List.append_assoc, List.append_assoc]
  | case3 c s _ ih => rw [run_append, run_escapeChar, ih, List.append_assoc]

/-- **A quoted text is a word**, whatever stands in it. -/
theorem scans_quotedText (s : List Char) (b : Before) :
    Scans b (quotedText s) [.word (quotedText s)] := by
  have hopen : Lexer.run ⟨[], [], .plain b⟩ ['"'] = ⟨[], ['"'], .quoted '"'⟩ := rfl
  have hclose : ∀ w, Lexer.run ⟨[], w, .quoted '"'⟩ ['"'] =
      ⟨[.word (w ++ ['"'])], [], .plain .other⟩ := fun _ => rfl
  have htext : quotedText s = ['"'] ++ (escapeText s ++ ['"']) := rfl
  unfold Scans
  rw [htext, Lexer.run_append, hopen, Lexer.run_append, Lexer.run_escapeText, hclose,
    List.append_assoc]
  rfl

end BoundQuery
