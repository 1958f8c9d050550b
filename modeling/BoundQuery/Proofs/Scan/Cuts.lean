/-
**Cuts without a fault.**

A scanner whose cuts are checked goes as one that takes characters: it takes the same and leaves
the same, or gives up at the same text, and no cut is a fault.  This holds of characters, words and
runs, since they are cut off by their own lengths; it is kept where scanners are put together; and
it holds of a text that is cut off by the difference of two lengths, since a scanner leaves an end.
Of several scanners that are tried, only the last one says where it gave up, so it is enough that
the others take the same.

Main definitions:

* `BoundQuery.ByteScanner.faultless` — an answer without a fault;
* `BoundQuery.ByteScanner.Follows` — a scanner with checked cuts goes as one without;
* `BoundQuery.ByteScanner.Tracks`, `BoundQuery.ByteScanner.Accepts` — the same up to the text at
  which it gives up.

Main results:

* `BoundQuery.ByteScanner.Tracks.bind`, `BoundQuery.ByteScanner.Tracks.filterMap`,
  `BoundQuery.ByteScanner.Follows.choice` — scanners that are put together;
* `BoundQuery.ByteScanner.run_recognized_of_pure` — what a scanner takes is cut off;
* `BoundQuery.ByteScanner.follows_char`, `BoundQuery.ByteScanner.follows_word`,
  `BoundQuery.ByteScanner.run_span` — characters, words and runs.
-/

import BoundQuery.Proofs.Scan.Ends
import BoundQuery.Scan.Bytes

set_option relaxedAutoImplicit false
set_option autoImplicit false

namespace BoundQuery

/-- A text is longer than an end of it by what stands before the end. -/
theorem lengthLess?_append (t rest : List Char) :
    lengthLess? (Scanner.byteLength (t ++ rest)) (Scanner.byteLength rest) =
      some (Scanner.byteLength t) := by
  unfold lengthLess?
  rw [Scanner.byteLength_append, if_pos (Nat.le_add_left _ _), Nat.add_sub_cancel]

namespace ByteScanner

variable {α β : Type} {s t rest : List Char}

/-! ### Steps -/

section Steps

variable {q : ByteScanner α} {a : α} {e : Stop}

theorem run_bind_of_pure (h : q.run s = pure (a, rest)) (k : α → ByteScanner β) :
    (q >>= k).run s = (k a).run rest := by
  rw [StateT.run_bind, h, pure_bind]

theorem run_bind_of_throw (h : q.run s = throw e) (k : α → ByteScanner β) :
    (q >>= k).run s = throw e := by
  rw [StateT.run_bind, h]
  rfl

theorem run_get (s : List Char) : (get : ByteScanner (List Char)).run s = pure (s, s) := rfl

theorem run_map_of_pure (h : q.run s = pure (a, rest)) (f : α → β) :
    (f <$> q).run s = pure (f a, rest) := by
  rw [StateT.run_map, h, map_pure]

theorem run_map_of_throw (h : q.run s = throw e) (f : α → β) : (f <$> q).run s = throw e := by
  rw [StateT.run_map, h]
  rfl

theorem run_filterMap_of_pure (h : q.run s = pure (a, rest)) (f : α → Option β) :
    (q.filterMap f).run s =
      match f a with
      | some b => pure (b, rest)
      | none => throw (.refused s) := by
  unfold filterMap
  rw [run_bind_of_pure (run_get _), run_bind_of_pure h]
  cases f a with
  | some b => rfl
  | none => rfl

theorem run_filterMap_of_throw (h : q.run s = throw e) (f : α → Option β) :
    (q.filterMap f).run s = throw e := by
  unfold filterMap
  rw [run_bind_of_pure (run_get _), run_bind_of_throw h]

theorem run_orElse (q r : ByteScanner α) (s : List Char) :
    (q.orElse r).run s = tryCatch (q.run s) fun
      | .refused _ => r.run s
      | e => throw e := by
  unfold orElse
  change tryCatch (q.run s) _ = _
  congr 1
  funext e
  cases e <;> rfl

theorem run_orElse_of_pure (h : q.run s = pure (a, rest)) (r : ByteScanner α) :
    (q.orElse r).run s = pure (a, rest) := by
  rw [run_orElse, h]
  rfl

theorem run_orElse_of_refused (h : q.run s = throw (.refused rest)) (r : ByteScanner α) :
    (q.orElse r).run s = r.run s := by
  rw [run_orElse, h]
  rfl

theorem run_check (a : α) (s : List Char) : (check (some a)).run s = pure (a, s) := rfl

theorem run_cut (t s : List Char) :
    (cut (Scanner.byteLength t)).run (t ++ s) = pure (t, s) := by
  unfold cut
  rw [run_bind_of_pure (run_get _), splitBytes?_append, run_bind_of_pure (run_check _ _)]
  rfl

theorem run_discard_cut (t s : List Char) :
    (discard (cut (Scanner.byteLength t))).run (t ++ s) = pure ((), s) := by
  unfold discard
  rw [map_const]
  exact run_map_of_pure (run_cut t s) _

/-- What a scanner takes is cut off by its length. -/
theorem run_recognized_of_pure (h : q.run s = pure (a, rest)) (hs : s = t ++ rest) :
    (recognized q).run s = pure (t, rest) := by
  subst hs
  unfold recognized
  rw [run_bind_of_pure (run_get _), run_bind_of_pure h, run_bind_of_pure (run_get _),
    lengthLess?_append, run_bind_of_pure (run_check _ _), splitBytes?_append,
    run_bind_of_pure (run_check _ _)]
  rfl

theorem run_recognized_of_throw (h : q.run s = throw e) : (recognized q).run s = throw e := by
  unfold recognized
  rw [run_bind_of_pure (run_get _), run_bind_of_throw h]

end Steps

/-! ### Scanners with checked cuts and without -/

/-- An answer without a fault. -/
def faultless : Except (List Char) (α × List Char) → ExceptT Stop Option (α × List Char)
  | .ok taken => pure taken
  | .error rest => throw (.refused rest)

/-- A scanner whose cuts are checked goes as one that takes character by character. -/
def Follows (q : ByteScanner α) (p : Scanner α) : Prop := ∀ s, q.run s = faultless (p s)

/-- A scanner with checked cuts takes what one without takes, and is refused where that one gives
up, at a text that stands in a relation to the one that is left there. -/
def Tracks (R : List Char → List Char → Prop) (q : ByteScanner α) (p : Scanner α) : Prop := ∀ s,
  match p s with
  | .ok taken => q.run s = pure taken
  | .error rest => ∃ rest', R rest rest' ∧ q.run s = throw (.refused rest')

/-- The same up to the text at which a scanner gives up. -/
def Accepts (q : ByteScanner α) (p : Scanner α) : Prop := q.Tracks (fun _ _ => True) p

namespace Tracks

variable {R R' : List Char → List Char → Prop} {q : ByteScanner α} {p : Scanner α}

theorem mono (h : q.Tracks R p) (hR : ∀ s t, R s t → R' s t) : q.Tracks R' p := by
  intro s
  have hs := h s
  cases hp : p s with
  | ok taken =>
      rw [hp] at hs
      exact hs
  | error rest =>
      rw [hp] at hs
      obtain ⟨rest', hrest, hs⟩ := hs
      exact ⟨rest', hR _ _ hrest, hs⟩

theorem bind {k : α → ByteScanner β} {l : α → Scanner β} (h : q.Tracks R p)
    (hk : ∀ a, (k a).Tracks R (l a)) : (q >>= k).Tracks R (p.andThen l) := by
  intro s
  have hs := h s
  unfold Scanner.andThen
  cases hp : p s with
  | ok taken =>
      obtain ⟨a, rest⟩ := taken
      rw [hp] at hs
      have hbehind := hk a rest
      rw [run_bind_of_pure hs]
      exact hbehind
  | error rest =>
      rw [hp] at hs
      obtain ⟨rest', hrest, hs⟩ := hs
      exact ⟨rest', hrest, run_bind_of_throw hs k⟩

theorem map (h : q.Tracks R p) (f : α → β) : (f <$> q).Tracks R (p.map f) := by
  intro s
  have hs := h s
  unfold Scanner.map
  cases hp : p s with
  | ok taken =>
      rw [hp] at hs
      exact run_map_of_pure hs f
  | error rest =>
      rw [hp] at hs
      obtain ⟨rest', hrest, hs⟩ := hs
      exact ⟨rest', hrest, run_map_of_throw hs f⟩

/-- An answer that is not taken over is refused at the beginning. -/
theorem filterMap (h : q.Tracks R p) (hR : ∀ s, R s s) (f : α → Option β) :
    (q.filterMap f).Tracks R (p.filterMap f) := by
  intro s
  have hs := h s
  unfold Scanner.filterMap
  cases hp : p s with
  | ok taken =>
      obtain ⟨a, rest⟩ := taken
      rw [hp] at hs
      have hrun := run_filterMap_of_pure hs f
      cases hf : f a with
      | some b =>
          simp only [hf] at hrun ⊢
          exact hrun
      | none =>
          simp only [hf] at hrun ⊢
          exact ⟨s, hR s, hrun⟩
  | error rest =>
      rw [hp] at hs
      obtain ⟨rest', hrest, hs⟩ := hs
      exact ⟨rest', hrest, run_filterMap_of_throw hs f⟩

end Tracks

/-- To go as another scanner is to be refused at the same texts. -/
theorem follows_iff {q : ByteScanner α} {p : Scanner α} : q.Follows p ↔ q.Tracks Eq p := by
  refine forall_congr' fun s => ?_
  cases p s with
  | ok taken => exact Iff.rfl
  | error rest => simp [faultless]

section Follows

variable {q : ByteScanner α} {p : Scanner α}

theorem Follows.accepts (h : q.Follows p) : q.Accepts p :=
  (follows_iff.1 h).mono fun _ _ _ => trivial

theorem Follows.bind {k : α → ByteScanner β} {l : α → Scanner β} (h : q.Follows p)
    (hk : ∀ a, (k a).Follows (l a)) : (q >>= k).Follows (p.andThen l) :=
  follows_iff.2 ((follows_iff.1 h).bind fun a => follows_iff.1 (hk a))

theorem Follows.map (h : q.Follows p) (f : α → β) : (f <$> q).Follows (p.map f) :=
  follows_iff.2 ((follows_iff.1 h).map f)

theorem Follows.filterMap (h : q.Follows p) (f : α → Option β) :
    (q.filterMap f).Follows (p.filterMap f) :=
  follows_iff.2 ((follows_iff.1 h).filterMap (fun _ => rfl) f)

/-- Where the first scanner is refused, the next ones are tried, and the last one says where it
gave up. -/
theorem Follows.choice {r : ByteScanner α} {qs : List (ByteScanner α)} {p' : Scanner α}
    {ps : List (Scanner α)} (hq : q.Accepts p)
    (h : (ByteScanner.choice (r :: qs)).Follows (Scanner.first p' ps)) :
    (ByteScanner.choice (q :: r :: qs)).Follows (Scanner.first p (p' :: ps)) := by
  intro s
  have hs := hq s
  unfold Scanner.first ByteScanner.choice
  cases hp : p s with
  | ok taken =>
      obtain ⟨a, rest⟩ := taken
      rw [hp] at hs
      exact run_orElse_of_pure hs _
  | error e =>
      rw [hp] at hs
      obtain ⟨rest, -, hs⟩ := hs
      rw [run_orElse_of_refused hs]
      exact h s

end Follows

/-! ### Characters, words and runs -/

theorem follows_char (c : Char) : (char c).Follows (Scanner.char c) := by
  intro s
  unfold char
  rw [run_bind_of_pure (run_get _)]
  cases s with
  | nil => rfl
  | cons d s =>
      by_cases h : d = c
      · subst h
        rw [List.head?_cons, if_pos rfl, Scanner.char, if_pos rfl]
        exact run_discard_cut [d] s
      · rw [List.head?_cons, if_neg fun heq => h (Option.some.inj heq), Scanner.char, if_neg h]
        rfl

theorem follows_word (w : List Char) : (word w).Follows (Scanner.word w) := by
  intro s
  unfold word Scanner.word
  rw [run_bind_of_pure (run_get _)]
  by_cases h : w.isPrefixOf s
  · obtain ⟨t, rfl⟩ := List.isPrefixOf_iff_prefix.1 h
    rw [if_pos h, if_pos h, List.drop_left]
    exact run_discard_cut w t
  · rw [if_neg h, if_neg h]
    rfl

/-- The run of a class is what stands before the first character of another one. -/
theorem run_span (p : Char → Bool) (s : List Char) :
    (span p).run s =
      if s.takeWhile p = [] then throw (.refused s)
      else pure (s.takeWhile p, s.dropWhile p) := by
  have hcut := run_cut (s.takeWhile p) (s.dropWhile p)
  rw [List.takeWhile_append_dropWhile] at hcut
  have hlength := Scanner.length_le_byteLength (s.takeWhile p)
  unfold span
  rw [run_bind_of_pure (run_get _)]
  by_cases h : s.takeWhile p = []
  · rw [if_pos h, h]
    rfl
  · have hne : Scanner.byteLength (s.takeWhile p) ≠ 0 := by
      have hpos := List.length_pos_iff.2 h
      omega
    simp only [if_neg h, if_neg hne]
    exact hcut

theorem follows_digits : digits.Follows Scanner.digits := by
  intro s
  unfold digits Scanner.digits takeDigits
  rw [run_span]
  split
  · next h =>
    rw [h]
    rfl
  · next h =>
    split
    · next heq => exact absurd (Prod.mk.inj heq).1 h
    · rfl

theorem run_blanks (s : List Char) : blanks.run s = pure ((), Scanner.skipBlanks s) := by
  have hcut := run_discard_cut (s.takeWhile fun c => c = ' ' || c = '\t' || c = '\r' || c = '\n')
    (s.dropWhile fun c => c = ' ' || c = '\t' || c = '\r' || c = '\n')
  rw [List.takeWhile_append_dropWhile] at hcut
  exact hcut

/-- A minus sign is taken where there is one. -/
theorem run_sign (s : List Char) :
    (optional (char '-')).run s =
      pure (if (Scanner.sign s).1 then some () else none, (Scanner.sign s).2) := by
  have hs := follows_char '-' s
  unfold optional
  unfold Scanner.sign
  split
  · next rest => exact run_orElse_of_pure (run_map_of_pure hs some) _
  · next hne =>
      have herror : Scanner.char '-' s = .error s := by
        cases s with
        | nil => rfl
        | cons c s =>
            have hc : c ≠ '-' := by
              rintro rfl
              exact hne s rfl
            rw [Scanner.char, if_neg hc]
      rw [herror] at hs
      rw [run_orElse_of_refused (run_map_of_throw hs some)]
      rfl

theorem run_signed {k : Option Unit → ByteScanner β} (s : List Char) :
    (optional (char '-') >>= k).run s =
      (k (if (Scanner.sign s).1 then some () else none)).run (Scanner.sign s).2 :=
  run_bind_of_pure (run_sign s) k

/-- Blanks before what a scanner takes are left out. -/
theorem Tracks.blanks {R : List Char → List Char → Prop} {q : ByteScanner α} {p : Scanner α}
    (h : q.Tracks R p) :
    ((do
      blanks
      q) : ByteScanner α).Tracks R fun s => p (Scanner.skipBlanks s) := by
  intro s
  rw [run_bind_of_pure (run_blanks s)]
  exact h (Scanner.skipBlanks s)

/-- A word and the character behind it are taken as one word, but for the place where they are
refused. -/
theorem accepts_word_char (w : List Char) (c : Char) :
    ((do
      word w
      char c) : ByteScanner Unit).Accepts (Scanner.word (w ++ [c])) := by
  have hfollows : ((do
      word w
      char c) : ByteScanner Unit).Follows ((Scanner.word w).andThen fun _ => Scanner.char c) :=
    (follows_word w).bind fun _ => follows_char c
  intro s
  cases hboth : Scanner.word (w ++ [c]) s with
  | ok taken =>
      obtain ⟨⟨⟩, rest⟩ := taken
      have hs := Scanner.eq_append_of_word hboth
      rw [List.append_assoc, List.singleton_append] at hs
      rw [hfollows s, hs]
      simp only [Scanner.andThen, Scanner.word_append, Scanner.char, if_true]
      rfl
  | error e =>
      cases hone : ((Scanner.word w).andThen fun _ => Scanner.char c) s with
      | error rest =>
          have hs := hfollows s
          rw [hone] at hs
          exact ⟨rest, trivial, hs⟩
      | ok taken =>
          obtain ⟨⟨⟩, rest, hword, hchar⟩ := Scanner.exists_of_andThen hone
          obtain ⟨⟨⟩, rest'⟩ := taken
          have hs : s = (w ++ [c]) ++ rest' := by
            rw [Scanner.eq_append_of_word hword, Scanner.eq_cons_of_char hchar, List.append_assoc,
              List.singleton_append]
          rw [hs, Scanner.word_append] at hboth
          cases hboth

end ByteScanner

end BoundQuery
