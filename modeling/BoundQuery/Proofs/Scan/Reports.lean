/-
**Reports of failures.**

A scanner takes something from the front of a text or gives up, and either way it leaves the text
from one of its places on.  A whole text is a value where nothing is left; else the report names
the place at which what is left begins, in bytes, and shows the first characters from there on.  The
place is the difference of two lengths, which is never negative, since what is left is an end of the
text.

Main definitions:

* `BoundQuery.ByteScanner.Placed` — what a scanner leaves of a text, and where it gives up;
* `BoundQuery.ByteScanner.Reports` — what a whole text is, and the report of a failure.

Main results:

* `BoundQuery.ByteScanner.whole_of_throw` — the report of what is left of a text;
* `BoundQuery.ByteScanner.failures_placed` — **literals are taken from the front, and a failure is
  reported at a place of the text**.
-/

import BoundQuery.Proofs.Scan.Bytes

set_option relaxedAutoImplicit false
set_option autoImplicit false

namespace BoundQuery

namespace ByteScanner

variable {α : Type} {s rest : List Char}

theorem run_atEnd (s : List Char) :
    atEnd.run s = if s = [] then pure ((), s) else throw (.refused s) := by
  unfold atEnd
  rw [run_bind_of_pure (run_get _)]
  cases s with
  | nil => rfl
  | cons c s =>
      have hpos := c.utf8Size_pos
      have hne : Scanner.byteLength (c :: s) ≠ 0 := by
        rw [Scanner.byteLength_cons]
        omega
      rw [if_neg hne, if_neg (List.cons_ne_nil c s)]
      rfl

/-- What a scanner takes is a whole text where nothing is left of it. -/
theorem run_complete_of_pure {q : ByteScanner α} {a : α} (h : q.run s = pure (a, rest)) :
    (complete q).run s = if rest = [] then pure (a, rest) else throw (.refused rest) := by
  have hend := run_atEnd rest
  unfold complete
  rw [run_bind_of_pure h]
  split
  · next hnil =>
      rw [if_pos hnil] at hend
      exact run_bind_of_pure hend _
  · next hne =>
      rw [if_neg hne] at hend
      exact run_bind_of_throw hend _

/-- The difference of the two lengths is the place at which the rest begins. -/
theorem sub_byteLength_of_leftAt {t : String} {place : Nat} (h : LeftAt t place rest) :
    Scanner.byteLength t.toList - Scanner.byteLength rest = place := by
  obtain ⟨front, hsplit, rfl⟩ := leftAt_iff.1 h
  rw [hsplit, Scanner.byteLength_append, Nat.add_sub_cancel]

/-- What is left of a text is reported with the place at which it begins. -/
theorem whole_of_throw {q : ByteScanner α} {t : String} {place : Nat} (h : LeftAt t place rest)
    (hq : (complete q).run t.toList = throw (.refused rest)) :
    q.whole t.toList = some (.error ⟨place, "cannot read a Flux literal at " ++
      String.ofList (inspect (rest.take 16))⟩) := by
  obtain ⟨front, hsplit, rfl⟩ := leftAt_iff.1 h
  unfold whole
  rw [hq]
  change (reportAt t.toList rest).map Except.error = _
  unfold reportAt
  rw [hsplit, lengthLess?_append]
  rfl

/-- An error about a text that is no literal reads as its report does. -/
theorem message_unreadable (place : Nat) (rest : List Char) :
    (Error.unreadable place rest).message = Report.text ⟨place,
      "cannot read a Flux literal at " ++ String.ofList (inspect (rest.take 16))⟩ := by
  have hwords : ": cannot read a Flux literal at " = ": " ++ "cannot read a Flux literal at " := by
    decide
  unfold Error.message Report.text
  rw [hwords]
  simp only [String.append_assoc]

/-- The answer to a text, with checked cuts and without: something is taken from the front, or
scanning gives up, and what is left is the text from one of its places on. -/
def Placed (q : ByteScanner α) (p : Scanner α) (t : String) : Prop :=
  (∃ a place rest, 0 < place ∧ LeftAt t place rest ∧ p t.toList = .ok (a, rest) ∧
    q.run t.toList = pure (a, rest)) ∨
  ∃ place rest, LeftAt t place rest ∧ p t.toList = .error rest ∧
    q.run t.toList = throw (.refused rest)

theorem Follows.placed {q : ByteScanner α} {p : Scanner α} (hq : q.Follows p)
    (hp : Scanner.LeavesEnd 1 p) (t : String) : q.Placed p t := by
  have hs := hq t.toList
  have hleaves := hp t.toList
  unfold Placed
  cases h : p t.toList with
  | ok taken =>
      obtain ⟨a, rest⟩ := taken
      rw [h] at hs hleaves
      obtain ⟨front, hsplit, hlength⟩ := hleaves
      have hpos := Nat.le_trans hlength (Scanner.length_le_byteLength front)
      exact .inl ⟨a, _, rest, hpos, leftAt_iff.2 ⟨front, hsplit, rfl⟩, rfl, hs⟩
  | error rest =>
      rw [h] at hs hleaves
      obtain ⟨front, hsplit⟩ := hleaves
      exact .inr ⟨_, rest, leftAt_iff.2 ⟨front, hsplit, rfl⟩, rfl, hs⟩

/-- The answer `r` to a whole text, with checked cuts and without: a value, or the report of what is
left or of where scanning gave up, with its place and at most sixteen characters from there on. -/
def Reports (q : ByteScanner α) (p : Scanner α) (t : String) (r : Except Error α) : Prop :=
  (∃ a, p t.toList = .ok (a, []) ∧ r = .ok a ∧ q.whole t.toList = some (.ok a)) ∨
  ∃ place rest, LeftAt t place rest ∧ place ≤ t.utf8ByteSize ∧
    ((∃ a, p t.toList = .ok (a, rest) ∧ rest ≠ []) ∨ p t.toList = .error rest) ∧
    r = .error (.unreadable place rest) ∧
    ∃ report : Report, q.whole t.toList = some (.error report) ∧ report.position = place ∧
      report.message = "cannot read a Flux literal at " ++
        String.ofList (inspect (rest.take 16)) ∧
      report.text = (Error.unreadable place rest).message

/-- What is left of a whole text, or where scanning gave up, is reported. -/
theorem Placed.reports {q : ByteScanner α} {p : Scanner α} {t : String} (h : q.Placed p t) :
    q.Reports p t (p.whole t.toList) := by
  have hreport : ∀ {place : Nat} {rest : List Char}, LeftAt t place rest →
      (complete q).run t.toList = throw (.refused rest) →
      p.whole t.toList = .error (.unreadable
        (Scanner.byteLength t.toList - Scanner.byteLength rest) rest) →
      ((∃ a, p t.toList = .ok (a, rest) ∧ rest ≠ []) ∨ p t.toList = .error rest) →
      q.Reports p t (p.whole t.toList) := by
    intro place rest hleft hrun hwhole hstop
    rw [sub_byteLength_of_leftAt hleft] at hwhole
    exact .inr ⟨place, rest, hleft, hleft.le, hstop, hwhole, _, whole_of_throw hleft hrun, rfl,
      rfl, (message_unreadable place rest).symm⟩
  rcases h with ⟨a, place, rest, -, hleft, hp, hq⟩ | ⟨place, rest, hleft, hp, hq⟩
  · have hrun := run_complete_of_pure hq
    cases rest with
    | nil =>
        rw [if_pos rfl] at hrun
        refine .inl ⟨a, hp, Scanner.whole_eq_ok_iff.2 hp, ?_⟩
        unfold whole
        rw [hrun]
        rfl
    | cons c rest =>
        rw [if_neg (List.cons_ne_nil c rest)] at hrun
        refine hreport hleft hrun ?_ (.inl ⟨a, hp, List.cons_ne_nil c rest⟩)
        unfold Scanner.whole
        rw [hp]
  · refine hreport hleft (run_bind_of_throw hq _) ?_ (.inr hp)
    unfold Scanner.whole
    rw [hp]

/-- **Literals are taken from the front of a text, and a failure is reported at a place of it.**
Every text is answered without a fault, and what is left of it, or the text at which scanning gives
up, is the text from one of its places on.  A whole text is a value, or its report names that place
in bytes and shows the first sixteen characters from there on. -/
theorem failures_placed (t : String) :
    (literal.Placed Scanner.literal t ∧ duration.Placed Scanner.duration t ∧
      instant.Placed Scanner.instant t ∧ float.Placed Scanner.float t ∧
      integer.Placed Scanner.integer t ∧ text.Placed Scanner.text t ∧
      pattern.Placed Scanner.pattern t) ∧
    literal.Reports Scanner.literal t (Value.ofLiteral t) ∧
      duration.Reports Scanner.duration t (Duration.ofLiteral t) ∧
      text.Reports Scanner.text t (textOfLiteral t) := by
  have hliteral := follows_literal.placed LiteralForm.leavesEnd_literal t
  have hduration := follows_duration.placed (Scanner.leavesEnd_duration.mono (by decide)) t
  have hinstant := follows_instant.placed Scanner.leavesEnd_instant t
  have hfloat := follows_float.placed (Scanner.leavesEnd_float.mono (by decide)) t
  have hinteger := follows_integer.placed Scanner.leavesEnd_integer t
  have htext := follows_text.placed (Scanner.leavesEnd_text.mono (by decide)) t
  have hpattern := follows_pattern.placed (Scanner.leavesEnd_pattern.mono (by decide)) t
  exact ⟨⟨hliteral, hduration, hinstant, hfloat, hinteger, htext, hpattern⟩,
    hliteral.reports, hduration.reports, htext.reports⟩

-- the second byte behind the escape belongs to a longer character
example : text.whole "\"é\\xaé".toList =
    some (.error ⟨3, "cannot read a Flux literal at \"\\\\xaé\""⟩) := by cbv

end ByteScanner

end BoundQuery
