/-
**Scanning by counts of bytes.**

A text is kept as bytes.  A scanner cuts it behind so many of them, which is a fault where they end
inside a character or behind the end of the text; and the place where scanning fails is the
difference of two lengths, which is a fault where the second one is the greater.  The scanners of
`BoundQuery.Scanner` take a text character by character and leave its end, so that no fault can be
seen there.  Here every cut and every difference is checked, the bytes and characters that were
taken are carried along, and numbers are read from the text that was cut off for them.

A scanner may also give up for good, or ask for more text.  None of these scanners does so of its
own accord; what is made of it is written out where scanners are put together.

Main definitions:

* `BoundQuery.splitBytes?`, `BoundQuery.lengthLess?` — a cut, and the difference of two lengths;
* `BoundQuery.Stop`, `BoundQuery.ByteScanner` — how a scanner gives up, and a scanner whose cuts are
  checked;
* `BoundQuery.ByteScanner.literal`, `BoundQuery.ByteScanner.duration`,
  `BoundQuery.ByteScanner.text` — literals of any kind, durations and texts;
* `BoundQuery.ByteScanner.whole` — what a whole text is, with the report of a failure.

Main results:

* `BoundQuery.splitBytes?_eq_some_iff` — a cut makes two parts of a text, the first one of so many
  bytes.
-/

import BoundQuery.Scan.Literal

set_option relaxedAutoImplicit false
set_option autoImplicit false

namespace BoundQuery

/-! ### Cuts -/

/-- A text in two parts, the first one of so many bytes; none where it would end inside a character
or behind the end of the text. -/
def splitBytes? : Nat → List Char → Option (List Char × List Char)
  | 0, s => some ([], s)
  | _ + 1, [] => none
  | n + 1, c :: s =>
      if c.utf8Size ≤ n + 1 then
        (splitBytes? (n + 1 - c.utf8Size) s).map fun parts => (c :: parts.1, parts.2)
      else none

/-- A text is cut behind a front of it. -/
theorem splitBytes?_append (a b : List Char) :
    splitBytes? (Scanner.byteLength a) (a ++ b) = some (a, b) := by
  induction a with
  | nil =>
      cases b with
      | nil => rfl
      | cons c b => rfl
  | cons c a ih =>
      obtain ⟨k, hk⟩ := Nat.exists_eq_add_of_lt c.utf8Size_pos
      have hsucc : Scanner.byteLength (c :: a) = k + Scanner.byteLength a + 1 := by
        rw [Scanner.byteLength_cons]
        omega
      have hfits : c.utf8Size ≤ k + Scanner.byteLength a + 1 := by omega
      have hleft : k + Scanner.byteLength a + 1 - c.utf8Size = Scanner.byteLength a := by omega
      rw [hsucc, List.cons_append, splitBytes?, if_pos hfits, hleft, ih]
      rfl

/-- **A cut makes two parts of a text, the first one of so many bytes.** -/
theorem splitBytes?_eq_some_iff {n : Nat} {s a b : List Char} :
    splitBytes? n s = some (a, b) ↔ s = a ++ b ∧ Scanner.byteLength a = n := by
  constructor
  · intro h
    fun_induction splitBytes? n s generalizing a with
    | case1 s =>
        cases h
        exact ⟨rfl, rfl⟩
    | case2 => cases h
    | case3 n c s hfits ih =>
        obtain ⟨⟨a', b'⟩, hsplit, heq⟩ := Option.map_eq_some_iff.1 h
        cases heq
        obtain ⟨rfl, hlength⟩ := ih hsplit
        refine ⟨rfl, ?_⟩
        rw [Scanner.byteLength_cons, hlength]
        omega
    | case4 => cases h
  · rintro ⟨rfl, rfl⟩
    exact splitBytes?_append a b

example : splitBytes? 1 ['é', 'a'] = none := by decide

/-- The difference of two lengths; none where it would be negative. -/
def lengthLess? (m n : Nat) : Option Nat := if n ≤ m then some (m - n) else none

/-! ### Scanners -/

/-- How a scanner gives up. -/
inductive Stop where
  /-- At a text, where another scanner may be tried. -/
  | refused (rest : List Char)
  /-- At a text, where no other scanner is tried. -/
  | fatal (rest : List Char)
  /-- For want of more text. -/
  | unfinished
deriving DecidableEq

/-- Takes something from the front of a text or gives up; nothing at all is a fault. -/
abbrev ByteScanner (α : Type) : Type := StateT (List Char) (ExceptT Stop Option) α

namespace ByteScanner

variable {α β : Type}

/-- A fault where there is nothing. -/
def check (a : Option α) : ByteScanner α := fun s => ExceptT.mk (a.map fun a => .ok (a, s))

/-- Gives up at a text. -/
def refuse (rest : List Char) : ByteScanner α := throw (.refused rest)

/-- So many bytes. -/
def cut (n : Nat) : ByteScanner (List Char) := do
  let parts ← check (splitBytes? n (← get))
  set parts.2
  return parts.1

/-- Another answer where there is one; else it gives up at the beginning. -/
def filterMap (f : α → Option β) (q : ByteScanner α) : ByteScanner β := do
  let s ← get
  let a ← q
  match f a with
  | some b => return b
  | none => refuse s

/-- The second scanner where the first one gives up and another one may be tried. -/
def orElse (q r : ByteScanner α) : ByteScanner α :=
  tryCatch q fun
    | .refused _ => r
    | e => throw e

/-- The first scanner that takes anything; the last one says where it gave up. -/
def choice : List (ByteScanner α) → ByteScanner α
  | [] => do refuse (← get)
  | [q] => q
  | q :: r :: qs => orElse q (choice (r :: qs))

/-- What a scanner takes, if it takes anything. -/
def optional (q : ByteScanner α) : ByteScanner (Option α) := orElse (some <$> q) (pure none)

/-- The text that a scanner takes, cut off by its length. -/
def recognized (q : ByteScanner α) : ByteScanner (List Char) := do
  let s ← get
  let _ ← q
  let n ← check (lengthLess? (Scanner.byteLength s) (Scanner.byteLength (← get)))
  let parts ← check (splitBytes? n s)
  return parts.1

/-- What a scanner takes from here on as long as it takes anything, behind what was taken before.
It is refused that it takes nothing and answers all the same. -/
def more (q : ByteScanner α) (taken : List α) (s : List Char) :
    ExceptT Stop Option (List α × List Char) :=
  match (q.run s).run with
  | some (.ok (a, rest)) =>
      if Scanner.byteLength rest < Scanner.byteLength s then more q (taken ++ [a]) rest
      else throw (.refused s)
  | some (.error (.refused _)) => pure (taken, s)
  | some (.error e) => throw e
  | none => ExceptT.mk none
termination_by Scanner.byteLength s

/-- What a scanner takes as long as it takes anything, which is once at least. -/
def many (q : ByteScanner α) : ByteScanner (List α) := do
  let a ← q
  more q [a]

/-- One character. -/
def char (c : Char) : ByteScanner Unit := do
  let s ← get
  if s.head? = some c then discard (cut c.utf8Size) else refuse s

/-- The characters of a word. -/
def word (w : List Char) : ByteScanner Unit := do
  let s ← get
  if w.isPrefixOf s then discard (cut (Scanner.byteLength w)) else refuse s

/-- A run of at least one character of a class. -/
def span (p : Char → Bool) : ByteScanner (List Char) := do
  let s ← get
  let n := Scanner.byteLength (s.takeWhile p)
  if n = 0 then refuse s else cut n

/-- A run of at least one digit. -/
def digits : ByteScanner (List Char) := span Char.isDigit

/-- The blanks that may stand inside the call of a conversion. -/
def blanks : ByteScanner Unit := do
  let s ← get
  discard (cut (Scanner.byteLength
    (s.takeWhile fun c => c = ' ' || c = '\t' || c = '\r' || c = '\n')))

/-! ### Numbers, instants and durations -/

/-- A whole number, read from its sign and its digits. -/
def integer : ByteScanner Int64 :=
  (recognized do
    let _ ← optional (char '-')
    digits).filterMap integerOfText?

/-- A floating-point number, read from its sign, its digits and its point. -/
def float : ByteScanner Double :=
  (recognized do
    let _ ← optional (char '-')
    let _ ← digits
    char '.'
    digits).filterMap Double.ofText?

/-- An instant, read from a run of characters of which instants are made. -/
def instant : ByteScanner Instant := (span Scanner.isInstantChar).filterMap Instant.ofText?

/-- A unit by one of its suffixes. -/
def suffix (p : String × TimeUnit) : ByteScanner TimeUnit := do
  word p.1.toList
  return p.2

/-- A unit. -/
def unit : ByteScanner TimeUnit := choice (Scanner.suffixes.map suffix)

/-- An amount that fits 64 bits and its unit. -/
def component : ByteScanner (Nat × TimeUnit) := do
  let n ← digits.filterMap unsignedOfDigits?
  let u ← unit
  return (n.toNat, u)

/-- A duration: at least one component, perhaps behind a minus sign.  A sum that is too large is
reported behind the sign. -/
def duration : ByteScanner Duration := do
  let negative ← optional (char '-')
  (many component).filterMap fun parts =>
    (Duration.ofAmounts parts).toOption.map (·.withSign negative.isSome)

/-! ### Texts -/

/-- Two bytes at the front of a text, where they are hexadecimal digits. -/
def hexDigits? (s : List Char) : Option (List Char) :=
  ((splitBytes? 2 s).map (·.1)).filter fun ds => ds.all fun c => (hexValue? c).isSome

/-- The byte that hexadecimal digits spell. -/
def byteOfDigits? (ds : List Char) : Option UInt8 :=
  (ofHex? ds).bind fun n => if n < 256 then some (UInt8.ofNat n) else none

/-- The bytes of a text up to its closing quote, behind those that were taken before. -/
def textBytes (taken : List UInt8) : List Char → ExceptT Stop Option (List UInt8 × List Char)
  | [] => throw (.refused [])
  | '"' :: rest => pure (taken, rest)
  | '\\' :: 'x' :: tail =>
      match (hexDigits? tail).bind byteOfDigits? with
      | none => throw (.refused ('\\' :: 'x' :: tail))
      | some byte =>
          match _hcut : splitBytes? 2 tail with
          | none => ExceptT.mk none
          | some (_, rest) => textBytes (taken ++ [byte]) rest
  | '\\' :: c :: rest =>
      match Scanner.escaped? c with
      | some byte => textBytes (taken ++ [byte]) rest
      | none => throw (.refused ('\\' :: c :: rest))
  | ['\\'] => throw (.refused ['\\'])
  | '$' :: '\x7b' :: rest => throw (.refused ('$' :: '\x7b' :: rest))
  | c :: rest => textBytes (taken ++ String.utf8EncodeChar c) rest
termination_by s => s.length
decreasing_by
  · have hlength := congrArg List.length (splitBytes?_eq_some_iff.1 _hcut).1
    simp only [List.length_append, List.length_cons] at hlength ⊢
    omega
  all_goals simp only [List.length_cons]; omega

/-- A text between quotes. -/
def text : ByteScanner String := ((do
  char '"'
  textBytes []) : ByteScanner (List UInt8)).filterMap Scanner.decoded?

/-! ### Patterns -/

/-- The spelling of a pattern up to its closing slash, behind what was taken before. -/
def spelling (taken : List Char) : List Char → ExceptT Stop Option (List Char × List Char)
  | [] => throw (.refused [])
  | '\n' :: rest => throw (.refused ('\n' :: rest))
  | '/' :: rest => pure (taken, rest)
  | ['\\'] => throw (.refused ['\\'])
  | '\\' :: '/' :: rest => spelling (taken ++ ['/']) rest
  | '\\' :: c :: rest => spelling (taken ++ ['\\', c]) rest
  | c :: rest => spelling (taken ++ [c]) rest

/-- A pattern between slashes. -/
def pattern : ByteScanner Pattern := ((do
  char '/'
  spelling []) : ByteScanner (List Char)).filterMap fun s => (Pattern.ofText s).toOption

/-! ### Literals of any kind -/

/-- The call of a conversion with its one argument. -/
def conversion (name : String) (argument : ByteScanner α) : ByteScanner α := do
  word name.toList
  char '('
  blanks
  word "v:".toList
  blanks
  let a ← argument
  blanks
  char ')'
  return a

/-- A whole number as the conversion of a text. -/
def integerCall : ByteScanner Int64 := (conversion "int" text).filterMap fun s =>
  integerOfText? s.toList

/-- A number without a sign as the conversion of digits. -/
def unsignedCall : ByteScanner UInt64 := (conversion "uint" digits).filterMap unsignedOfDigits?

/-- A floating-point number as the conversion of a text. -/
def floatCall : ByteScanner Double := (conversion "float" text).filterMap Scanner.floatOfText?

/-- A literal of any kind. -/
def literal : ByteScanner Value := choice [
  .integer <$> integerCall, .unsigned <$> unsignedCall, .float <$> floatCall,
  .instant <$> instant, .duration <$> duration, .float <$> float, .integer <$> integer,
  (fun _ => .boolean true) <$> word "true".toList,
  (fun _ => .boolean false) <$> word "false".toList, .text <$> text, .pattern <$> pattern]

/-! ### Whole texts -/

/-- A failure: its place in bytes, and what is said about it. -/
structure Report where
  position : Nat
  message : String
deriving DecidableEq

/-- The wording of a report. -/
def Report.text (r : Report) : String :=
  "Parse error at position " ++ String.ofList (decimal r.position) ++ ": " ++ r.message

/-- The end of a text. -/
def atEnd : ByteScanner Unit := do
  let s ← get
  if Scanner.byteLength s = 0 then return () else refuse s

/-- The report of the text at which a scanner of another text gave up. -/
def reportAt (s rest : List Char) : Option Report :=
  (lengthLess? (Scanner.byteLength s) (Scanner.byteLength rest)).map fun position =>
    ⟨position, "cannot read a Flux literal at " ++ String.ofList (inspect (rest.take 16))⟩

/-- A scanner of which nothing may be left. -/
def complete (q : ByteScanner α) : ByteScanner α := do
  let a ← q
  atEnd
  return a

/-- What a whole text is; what is left of it is reported. -/
def whole (q : ByteScanner α) (s : List Char) : Option (Except Report α) :=
  match ((complete q).run s).run with
  | none => none
  | some (.ok (a, _)) => some (.ok a)
  | some (.error (.refused rest)) => (reportAt s rest).map .error
  | some (.error (.fatal rest)) => (reportAt s rest).map .error
  | some (.error .unfinished) =>
      some (.error ⟨Scanner.byteLength s, "unexpected end of input"⟩)

end ByteScanner

end BoundQuery
