/-
**Scanners leave ends of a text.**

A scanner takes something from the front of a text and hands on the rest; where it gives up it
names the text that was still to be read.  Both are ends of the text that it was given, however its
parts are put together: what a part leaves is an end of what the part before it left.  So the place
of a failure is found by comparing lengths, and it is a place between two characters.

Main definitions:

* `BoundQuery.Scanner.Leaves`, `BoundQuery.Scanner.LeavesEnd` — the answer to a text leaves an end
  of it, and the answers to all texts do;
* `BoundQuery.LeftAt` — what is left of a text from a place on.

Main results:

* `BoundQuery.Scanner.LeavesEnd.andThen` — scanners one behind the other leave an end;
* `BoundQuery.Scanner.leavesEnd_text`, `BoundQuery.Scanner.leavesEnd_pattern`,
  `BoundQuery.Scanner.leavesEnd_instant`, `BoundQuery.Scanner.leavesEnd_duration`,
  `BoundQuery.Scanner.leavesEnd_float`, `BoundQuery.Scanner.leavesEnd_integer`,
  `BoundQuery.LiteralForm.leavesEnd_literal` — every literal is taken from the front;
* `BoundQuery.leftAt_iff` — an end of a text is what is left of it from a place on.
-/

import BoundQuery.Proofs.Scan.Forms
import BoundQuery.Proofs.Text.Enclosed

set_option relaxedAutoImplicit false
set_option autoImplicit false

namespace BoundQuery

namespace Scanner

variable {α β : Type} {m n : Nat} {s : List Char}

/-! ### Answers -/

/-- An answer to a text leaves an end of it: it takes at least so many characters from the front, or
it gives up at an end. -/
def Leaves (least : Nat) (s : List Char) : Except (List Char) (α × List Char) → Prop
  | .ok (_, rest) => ∃ t, s = t ++ rest ∧ least ≤ t.length
  | .error rest => ∃ t, s = t ++ rest

/-- What leaves an end of an end of a text leaves an end of the text. -/
theorem Leaves.behind {r : Except (List Char) (α × List Char)} (h : Leaves n s r) (t : List Char) :
    Leaves (t.length + n) (t ++ s) r := by
  cases r with
  | ok taken =>
      obtain ⟨u, rfl, hu⟩ := h
      refine ⟨t ++ u, (List.append_assoc _ _ _).symm, ?_⟩
      rw [List.length_append]
      omega
  | error rest =>
      obtain ⟨u, rfl⟩ := h
      exact ⟨t ++ u, (List.append_assoc _ _ _).symm⟩

theorem Leaves.mono {r : Except (List Char) (α × List Char)} (h : Leaves n s r) (hle : m ≤ n) :
    Leaves m s r := by
  cases r with
  | ok taken =>
      obtain ⟨u, hs, hu⟩ := h
      exact ⟨u, hs, Nat.le_trans hle hu⟩
  | error rest => exact h

/-- Nothing is taken where a scanner gives up at the beginning. -/
theorem leaves_error (n : Nat) (s : List Char) : Leaves (α := α) n s (.error s) := ⟨[], rfl⟩

theorem leaves_ok (t s : List Char) (a : α) : Leaves t.length (t ++ s) (.ok (a, s)) :=
  ⟨t, rfl, Nat.le_refl _⟩

/-- What was taken before makes no difference to what is left. -/
theorem Leaves.prepend {r : Except (List Char) (List UInt8 × List Char)} (h : Leaves n s r)
    (bs : List UInt8) : Leaves n s (Scanner.prepend bs r) := by
  cases r with
  | ok taken => exact h
  | error rest => exact h

theorem Leaves.prependChars {r : Except (List Char) (List Char × List Char)} (h : Leaves n s r)
    (cs : List Char) : Leaves n s (Scanner.prependChars cs r) := by
  cases r with
  | ok taken => exact h
  | error rest => exact h

/-- The answers of a scanner leave ends, and take at least so many characters. -/
def LeavesEnd (least : Nat) (p : Scanner α) : Prop := ∀ s, Leaves least s (p s)

namespace LeavesEnd

variable {p : Scanner α}

theorem mono (h : LeavesEnd n p) (hle : m ≤ n) : LeavesEnd m p := fun s => (h s).mono hle

theorem map (h : LeavesEnd n p) (f : α → β) : LeavesEnd n (p.map f) := by
  intro s
  have hs := h s
  unfold Scanner.map
  split
  · next hp =>
      rw [hp] at hs
      exact hs
  · next hp =>
      rw [hp] at hs
      exact hs

theorem filterMap (h : LeavesEnd n p) (f : α → Option β) : LeavesEnd n (p.filterMap f) := by
  intro s
  have hs := h s
  unfold Scanner.filterMap
  split
  · next hp =>
      rw [hp] at hs
      split
      · exact hs
      · exact leaves_error n s
  · next hp =>
      rw [hp] at hs
      exact hs

/-- **Scanners one behind the other leave an end**, and what they take is taken together. -/
theorem andThen {q : α → Scanner β} (hp : LeavesEnd m p) (hq : ∀ a, LeavesEnd n (q a)) :
    LeavesEnd (m + n) (p.andThen q) := by
  intro s
  have hs := hp s
  unfold Scanner.andThen
  split
  · next a rest htaken =>
      rw [htaken] at hs
      obtain ⟨t, rfl, ht⟩ := hs
      exact ((hq a rest).behind t).mono (Nat.add_le_add_right ht n)
  · next hgiven =>
      rw [hgiven] at hs
      exact hs

theorem first {ps : List (Scanner α)} (hp : LeavesEnd n p) (hps : ∀ q ∈ ps, LeavesEnd n q) :
    LeavesEnd n (Scanner.first p ps) := by
  induction ps generalizing p with
  | nil => exact hp
  | cons q ps ih =>
      intro s
      have hs := hp s
      unfold Scanner.first
      split
      · next htaken =>
          rw [htaken] at hs
          exact hs
      · exact ih (hps q List.mem_cons_self) (fun r hr => hps r (List.mem_cons_of_mem q hr)) s

/-- Blanks before what a scanner takes are left out. -/
theorem skipBlanks (h : LeavesEnd n p) : LeavesEnd n fun s => p (Scanner.skipBlanks s) := by
  intro s
  have hblank := List.takeWhile_append_dropWhile (p := fun c =>
    c = ' ' || c = '\t' || c = '\r' || c = '\n') (l := s)
  have hs := (h (Scanner.skipBlanks s)).behind
    (s.takeWhile fun c => c = ' ' || c = '\t' || c = '\r' || c = '\n')
  unfold Scanner.skipBlanks at hs ⊢
  rw [hblank] at hs
  exact hs.mono (Nat.le_add_left n _)

end LeavesEnd

/-! ### Characters, words and digits -/

theorem leavesEnd_char (c : Char) : LeavesEnd 1 (char c) := by
  intro s
  unfold char
  split
  · next d rest =>
      split
      · exact leaves_ok [d] rest ()
      · exact leaves_error 1 (d :: rest)
  · exact leaves_error 1 []

theorem leavesEnd_word (w : List Char) : LeavesEnd w.length (word w) := by
  intro s
  cases h : word w s with
  | ok taken =>
      obtain ⟨⟨⟩, rest⟩ := taken
      rw [eq_append_of_word h]
      exact leaves_ok w rest ()
  | error rest =>
      unfold word at h
      split at h
      · cases h
      · cases h
        exact leaves_error _ s

theorem leavesEnd_digits : LeavesEnd 1 digits := by
  intro s
  cases h : digits s with
  | ok taken =>
      obtain ⟨ds, rest⟩ := taken
      obtain ⟨rfl, hds⟩ := eq_append_of_digits h
      exact (leaves_ok ds rest ds).mono (List.length_pos_iff.2 hds.1)
  | error rest =>
      unfold digits at h
      split at h
      · cases h
        exact leaves_error 1 s
      · cases h

/-- What leaves an end behind the sign of a text leaves an end of the text. -/
theorem Leaves.signed {r : Except (List Char) (α × List Char)} (h : Leaves n (sign s).2 r) :
    Leaves n s r := by
  have hs := eq_sign_append s
  generalize sign s = signed at h hs
  obtain ⟨negative, body⟩ := signed
  dsimp only at h hs
  rw [hs]
  exact (h.behind _).mono (Nat.le_add_left n _)

/-! ### Numbers, instants and durations -/

theorem leavesEnd_integer : LeavesEnd 1 integer := by
  intro s
  have hs := leavesEnd_digits (sign s).2
  unfold integer
  generalize hsign : sign s = signed at hs
  obtain ⟨negative, body⟩ := signed
  dsimp only at hs ⊢
  split
  · next hdigits =>
      rw [hdigits] at hs
      exact Leaves.signed (hsign ▸ hs)
  · next hdigits =>
      rw [hdigits] at hs
      split
      · exact Leaves.signed (hsign ▸ hs)
      · exact leaves_error 1 s

theorem leavesEnd_float : LeavesEnd 3 float := by
  intro s
  unfold float
  have hbody := leavesEnd_digits.andThen (q := fun whole => (char '.').andThen fun _ =>
    digits.map fun fraction => Double.ofParts (sign s).1 whole fraction 0) fun _ =>
      (leavesEnd_char '.').andThen fun _ => leavesEnd_digits.map _
  exact (hbody (sign s).2).signed

theorem leavesEnd_instant : LeavesEnd 1 instant := by
  intro s
  cases h : instant s with
  | ok taken =>
      obtain ⟨t, rest⟩ := taken
      obtain ⟨hs, hread⟩ := exists_of_instant h
      refine ⟨_, hs, ?_⟩
      obtain ⟨ds, r, heq, hds⟩ := exists_of_ofText? hread
      rw [heq, List.length_append, List.length_cons]
      omega
  | error rest =>
      unfold instant at h
      split at h
      · cases h
      · cases h
        exact leaves_error 1 s

theorem leavesEnd_unit : LeavesEnd 1 unit := by
  intro s
  cases h : unit s with
  | ok taken =>
      obtain ⟨u, rest⟩ := taken
      obtain ⟨w, hw, rfl⟩ := exists_of_unit h
      have hall : ∀ p ∈ suffixes, 1 ≤ p.1.toList.length := by decide
      exact (leaves_ok _ rest u).mono (hall (w, u) (mem_suffixes_iff.2 hw))
  | error rest =>
      unfold unit at h
      split at h
      · cases h
      · cases h
        exact leaves_error 1 s

theorem leavesEnd_component : LeavesEnd 2 component :=
  (leavesEnd_digits.filterMap _).andThen fun _ => leavesEnd_unit.map _

/-- A sum of amounts that is too large is reported behind the sign. -/
theorem leavesEnd_duration : LeavesEnd 2 duration := by
  intro s
  have hs := leavesEnd_component (sign s).2
  unfold duration
  generalize hsign : sign s = signed at hs
  obtain ⟨negative, body⟩ := signed
  dsimp only at hs ⊢
  refine Leaves.signed (hsign ▸ ?_)
  split
  · next hfirst =>
      rw [hfirst] at hs
      exact hs
  · next c rest hfirst =>
      rw [hfirst] at hs
      obtain ⟨t, rfl, ht⟩ := hs
      cases hothers : components rest.length rest with
      | mk cs left =>
          obtain ⟨u, rfl, -⟩ := exists_of_components hothers
          dsimp only
          split
          · refine ⟨t ++ u, (List.append_assoc _ _ _).symm, ?_⟩
            rw [List.length_append]
            omega
          · exact leaves_error 2 _

/-! ### Texts and patterns -/

/-- Along the escapes and characters up to the closing quote. -/
theorem leavesEnd_textBytes : LeavesEnd 1 textBytes := by
  intro s
  fun_induction textBytes s with
  | case1 => exact leaves_error 1 []
  | case2 rest => exact leaves_ok ['"'] rest []
  | case3 a b rest byte _ ih =>
      exact ((ih.prepend _).behind ['\\', 'x', a, b]).mono (Nat.le_add_left 1 _)
  | case4 => exact leaves_error 1 _
  | case5 c rest _ byte _ ih => exact ((ih.prepend _).behind ['\\', c]).mono (Nat.le_add_left 1 _)
  | case6 => exact leaves_error 1 _
  | case7 => exact leaves_error 1 _
  | case8 => exact leaves_error 1 _
  | case9 c rest _ _ _ _ _ ih => exact ((ih.prepend _).behind [c]).mono (Nat.le_add_left 1 _)

theorem leavesEnd_text : LeavesEnd 2 text :=
  ((leavesEnd_char '"').andThen fun _ => leavesEnd_textBytes).filterMap _

/-- Along the pairs and characters up to the closing slash. -/
theorem leavesEnd_spelling : LeavesEnd 1 spelling := by
  intro s
  fun_induction spelling s with
  | case1 => exact leaves_error 1 []
  | case2 => exact leaves_error 1 _
  | case3 rest => exact leaves_ok ['/'] rest []
  | case4 => exact leaves_error 1 _
  | case5 rest ih =>
      exact ((ih.prependChars _).behind ['\\', '/']).mono (Nat.le_add_left 1 _)
  | case6 c rest _ ih => exact ((ih.prependChars _).behind ['\\', c]).mono (Nat.le_add_left 1 _)
  | case7 c rest _ _ _ _ _ ih => exact ((ih.prependChars _).behind [c]).mono (Nat.le_add_left 1 _)

theorem leavesEnd_pattern : LeavesEnd 2 pattern :=
  ((leavesEnd_char '/').andThen fun _ => leavesEnd_spelling).filterMap _

/-! ### Conversions -/

/-- The name of a conversion is taken with its parenthesis. -/
theorem leavesEnd_conversion (name : String) {argument : Scanner α} (h : LeavesEnd n argument) :
    LeavesEnd 1 (conversion name argument) := by
  have hclosing : ∀ a : α, LeavesEnd 1 fun s => (char ')').map (fun _ => a) (skipBlanks s) :=
    fun a => ((leavesEnd_char ')').map _).skipBlanks
  have hargument := (h.andThen hclosing).skipBlanks
  have hlabel := ((leavesEnd_word "v:".toList).andThen fun _ => hargument).skipBlanks
  refine ((leavesEnd_word (name ++ "(").toList).andThen fun _ => hlabel).mono ?_
  rw [String.toList_append, List.length_append]
  exact Nat.le_trans (Nat.le_add_left 1 _) (Nat.le_add_right _ _)

end Scanner

/-! ### Literals of any kind -/

namespace LiteralForm

/-- The scanner of every form leaves an end. -/
theorem leavesEnd (f : LiteralForm) : Scanner.LeavesEnd 1 f.scanner := by
  cases f with
  | integerCall =>
      exact ((Scanner.leavesEnd_conversion "int" Scanner.leavesEnd_text).filterMap _).map _
  | unsignedCall =>
      exact ((Scanner.leavesEnd_conversion "uint" Scanner.leavesEnd_digits).filterMap _).map _
  | floatCall =>
      exact ((Scanner.leavesEnd_conversion "float" Scanner.leavesEnd_text).filterMap _).map _
  | instant => exact Scanner.leavesEnd_instant.map _
  | duration => exact (Scanner.leavesEnd_duration.map _).mono (by decide)
  | float => exact (Scanner.leavesEnd_float.map _).mono (by decide)
  | integer => exact Scanner.leavesEnd_integer.map _
  | yes => exact ((Scanner.leavesEnd_word _).map _).mono (by decide)
  | no => exact ((Scanner.leavesEnd_word _).map _).mono (by decide)
  | text => exact (Scanner.leavesEnd_text.map _).mono (by decide)
  | pattern => exact (Scanner.leavesEnd_pattern.map _).mono (by decide)

/-- **A literal of any kind is taken from the front of a text.** -/
theorem leavesEnd_literal : Scanner.LeavesEnd 1 Scanner.literal := by
  rw [literal_eq_first]
  refine (leavesEnd integerCall).first ?_
  intro p hp
  obtain ⟨f, -, rfl⟩ := List.mem_map.1 hp
  exact leavesEnd f

end LiteralForm

/-! ### Places -/

/-- What is left of a text from a place on, so many bytes behind its beginning.  There is such a
place only between two characters or at an end. -/
def LeftAt (t : String) (place : Nat) (rest : List Char) : Prop :=
  ∃ p : t.Pos, p.offset.byteIdx = place ∧ (t.sliceFrom p).copy.toList = rest

namespace Scanner

theorem byteLength_append (s t : List Char) :
    byteLength (s ++ t) = byteLength s + byteLength t := by
  induction s with
  | nil => exact (Nat.zero_add _).symm
  | cons c s ih =>
      rw [List.cons_append, byteLength_cons, byteLength_cons, ih, Nat.add_assoc]

/-- The length of a text is that of its bytes. -/
theorem byteLength_toList (t : String) : byteLength t.toList = t.utf8ByteSize := by
  have hlist : ∀ s : List Char, byteLength s = (String.ofList s).utf8ByteSize := by
    intro s
    induction s with
    | nil => rfl
    | cons c s ih =>
        have hcons : String.ofList (c :: s) = String.singleton c ++ String.ofList s := by
          rw [String.singleton_eq_ofList, ← String.ofList_append, List.singleton_append]
        rw [hcons, String.utf8ByteSize_append, String.utf8ByteSize_singleton, ← ih,
          byteLength_cons]
  rw [hlist, String.ofList_toList]

/-- Every character has at least one byte. -/
theorem length_le_byteLength (s : List Char) : s.length ≤ byteLength s := by
  induction s with
  | nil => exact Nat.le_refl 0
  | cons c s ih =>
      have hc := c.utf8Size_pos
      rw [byteLength_cons, List.length_cons]
      omega

end Scanner

/-- **An end of a text is what is left of it from a place on**, and the place is the length of what
stands before it. -/
theorem leftAt_iff {t : String} {place : Nat} {rest : List Char} :
    LeftAt t place rest ↔ ∃ front, t.toList = front ++ rest ∧ Scanner.byteLength front = place := by
  constructor
  · rintro ⟨p, rfl, rfl⟩
    refine ⟨(t.sliceTo p).copy.toList, ?_, ?_⟩
    · rw [← String.toList_append, ← p.splits.eq_append]
    · rw [Scanner.byteLength_toList, p.splits.offset_eq_rawEndPos, String.byteIdx_rawEndPos]
  · rintro ⟨front, hsplit, rfl⟩
    have heq : t = String.ofList front ++ String.ofList rest := by
      rw [← String.ofList_append, ← hsplit, String.ofList_toList]
    have hsplits := String.Pos.splits_ofEqAppend heq
    refine ⟨String.Pos.ofEqAppend heq, ?_, ?_⟩
    · rw [hsplits.offset_eq_rawEndPos, String.byteIdx_rawEndPos, ← Scanner.byteLength_toList,
        String.toList_ofList]
    · rw [hsplits.copy_sliceFrom_eq, String.toList_ofList]

/-- No place is behind the end of the text. -/
theorem LeftAt.le {t : String} {place : Nat} {rest : List Char} (h : LeftAt t place rest) :
    place ≤ t.utf8ByteSize := by
  obtain ⟨p, rfl, -⟩ := h
  exact p.byteIdx_offset_le_utf8ByteSize

end BoundQuery
