/-
**Expressions are read in pairs.**

A backslash takes the character behind it, so the reader of expressions leaves a text only where a
pair is complete.  The one place in which a backslash means nothing is a comment.  A text without
comments that ends in a lone backslash is therefore no expression.  This is a fact about the syntax
that the reader of `BoundQuery.Pattern.Reader` goes by, one lemma for each of its parts; what else
is asked of an expression, such as the size of its machine, has no part in it.

Main definitions:

* `BoundQuery.Pattern.Takes` — what is left of a text stands behind complete pairs.

Main results:

* `BoundQuery.Pattern.readEscape_takes`, `BoundQuery.Pattern.readMembers_takes`,
  `BoundQuery.Pattern.readParenthesis_takes`, `BoundQuery.Pattern.readBranches_takes` — the readers
  of the parts of an expression take complete pairs;
* `BoundQuery.Pattern.endsUnpaired_of_isAdmissible` — **an expression without comments does not end
  in a lone backslash**.
-/

import BoundQuery.Proofs.Pattern.Spelling

set_option relaxedAutoImplicit false
set_option autoImplicit false

namespace BoundQuery.Pattern

/-! ### Complete pairs -/

/-- What is left of a text, if the text holds no comment, stands behind complete pairs and
characters. -/
def Takes (s r : List Char) : Prop := '#' ∉ s → ∃ t, s = t ++ r ∧ endsUnpaired t = false

theorem Takes.refl (s : List Char) : Takes s s := fun _ => ⟨[], rfl, rfl⟩

theorem Takes.trans {s r t : List Char} (h : Takes s r) (h' : Takes r t) : Takes s t := by
  intro hs
  obtain ⟨a, rfl, ha⟩ := h hs
  obtain ⟨b, rfl, hb⟩ := h' fun hmem => hs (List.mem_append_right _ hmem)
  refine ⟨a ++ b, (List.append_assoc _ _ _).symm, ?_⟩
  rw [endsUnpaired_append ha, hb]

theorem takes_cons {c : Char} (hc : c ≠ '\\') (s : List Char) : Takes (c :: s) s := by
  intro _
  refine ⟨[c], rfl, ?_⟩
  rw [endsUnpaired_cons hc]
  rfl

theorem takes_pair (c : Char) (s : List Char) : Takes ('\\' :: c :: s) s :=
  fun _ => ⟨['\\', c], rfl, rfl⟩

theorem endsUnpaired_concat {c : Char} (hc : c ≠ '\\') (s : List Char) :
    endsUnpaired (s ++ [c]) = false := by
  fun_induction endsUnpaired s with
  | case1 => exact endsUnpaired_cons hc []
  | case2 => rfl
  | case3 d s ih => exact ih
  | case4 d s hlone hpair ih =>
      have hd := ne_backslash_of_alone hlone hpair
      rw [List.cons_append, endsUnpaired_cons hd, ih]

/-- Whatever was taken, no backslash is left alone if another character was taken last. -/
theorem takes_of_suffix {c : Char} (hc : c ≠ '\\') {s r : List Char} (h : c :: r <:+ s) :
    Takes s r := by
  intro _
  obtain ⟨t, rfl⟩ := h
  refine ⟨t ++ [c], ?_, endsUnpaired_concat hc t⟩
  rw [List.append_assoc, List.singleton_append]

/-- A backslash is of no class that a character is taken for. -/
theorem ne_backslash {p : Char → Bool} {c : Char} (hc : p c = true) (hp : p '\\' = false) :
    c ≠ '\\' := by
  rintro rfl
  rw [hc] at hp
  cases hp

/-! ### Blanks and comments -/

theorem skipComments_takes (s : List Char) : Takes s (skipComments false s) := by
  induction s with
  | nil => exact Takes.refl []
  | cons c s ih =>
      rw [skipComments, if_neg (by decide)]
      split
      · next hblank => exact (takes_cons (ne_backslash hblank (by decide)) s).trans ih
      · split
        · next hmark => exact fun hs => absurd (hmark ▸ List.mem_cons_self) hs
        · exact Takes.refl _

theorem skipIgnored_takes (spaced : Bool) (s : List Char) : Takes s (skipIgnored spaced s) := by
  unfold skipIgnored
  split
  · exact skipComments_takes s
  · exact Takes.refl s

theorem skipComments_suffix (inComment : Bool) (s : List Char) :
    skipComments inComment s <:+ s := by
  induction s generalizing inComment with
  | nil => exact List.suffix_refl []
  | cons c s ih =>
      rw [skipComments]
      split
      · exact (ih _).trans (List.suffix_cons c s)
      · split
        · exact (ih _).trans (List.suffix_cons c s)
        · split
          · exact (ih _).trans (List.suffix_cons c s)
          · exact List.suffix_refl _

theorem skipIgnored_suffix (spaced : Bool) (s : List Char) : skipIgnored spaced s <:+ s := by
  unfold skipIgnored
  split
  · exact skipComments_suffix false s
  · exact List.suffix_refl s

/-- What is left behind what does not count begins with a character that the reader takes. -/
theorem takes_of_skipIgnored {spaced : Bool} {c : Char} {s r : List Char} (hc : c ≠ '\\')
    (h : skipIgnored spaced s = c :: r) : Takes s r :=
  (h ▸ skipIgnored_takes spaced s).trans (takes_cons hc r)

/-! ### Escapes -/

theorem readHexDigits_takes {spaced : Bool} {count n : Nat} {taken s r : List Char}
    (h : readHexDigits spaced count taken s = some (n, r)) : Takes s r := by
  induction count generalizing taken s with
  | zero =>
      obtain ⟨m, -, hm⟩ := Option.map_eq_some_iff.1 h
      cases hm
      exact Takes.refl _
  | succ count ih =>
      rw [readHexDigits] at h
      split at h
      · next c t hskip =>
          split at h
          · next hhex =>
              have hc : c ≠ '\\' := by
                rintro rfl
                exact absurd hhex (by decide)
              exact (takes_of_skipIgnored hc hskip).trans (ih h)
          · cases h
      · cases h

/-- A backslash between braces means nothing, but the closing brace is taken last. -/
theorem readBraced_suffix {spaced : Bool} {fuel : Nat} {taken name s r : List Char}
    (h : readBraced spaced fuel taken s = some (name, r)) : '\x7d' :: r <:+ s := by
  induction fuel generalizing taken s with
  | zero => cases h
  | succ fuel ih =>
      have hskip := skipIgnored_suffix spaced s
      rw [readBraced] at h
      split at h
      · cases h
      · next t hs =>
          cases h
          exact hs ▸ hskip
      · next c t _ hs =>
          rw [hs] at hskip
          exact (ih h).trans ((List.suffix_cons c t).trans hskip)

theorem readBraced_takes {spaced : Bool} {fuel : Nat} {taken name s r : List Char}
    (h : readBraced spaced fuel taken s = some (name, r)) : Takes s r :=
  takes_of_suffix (by decide) (readBraced_suffix h)

theorem readCode_takes {spaced : Bool} {digits : Nat} {e : Escape} {s r : List Char}
    (h : readCode spaced digits s = some (e, r)) : Takes s r := by
  unfold readCode at h
  split at h
  · cases h
  · next t hskip =>
      obtain ⟨⟨ds, t'⟩, hbraced, h⟩ := Option.bind_eq_some_iff.1 h
      dsimp only at h
      split at h
      · cases h
      · obtain ⟨n, -, h⟩ := Option.bind_eq_some_iff.1 h
        obtain ⟨c, -, h⟩ := Option.bind_eq_some_iff.1 h
        cases h
        exact (takes_of_skipIgnored (by decide) hskip).trans (readBraced_takes hbraced)
  · obtain ⟨⟨n, t⟩, hdigits, h⟩ := Option.bind_eq_some_iff.1 h
    obtain ⟨c, -, h⟩ := Option.bind_eq_some_iff.1 h
    cases h
    exact (skipIgnored_takes spaced s).trans (readHexDigits_takes hdigits)

theorem readProperty_takes {spaced : Bool} {e : Escape} {s r : List Char}
    (h : readProperty spaced s = some (e, r)) : Takes s r := by
  unfold readProperty at h
  split at h
  · cases h
  · next t hskip =>
      obtain ⟨⟨name, t'⟩, hbraced, h⟩ := Option.map_eq_some_iff.1 h
      cases h
      exact (takes_of_skipIgnored (by decide) hskip).trans (readBraced_takes hbraced)
  · next c t _ hskip =>
      split at h
      · cases h
      · next hc =>
          cases h
          exact takes_of_skipIgnored hc hskip

theorem readWord_takes {spaced : Bool} {fuel : Nat} {taken w s r : List Char}
    (h : readWord spaced fuel taken s = (w, r)) : Takes s r := by
  induction fuel generalizing taken s with
  | zero =>
      cases h
      exact Takes.refl _
  | succ fuel ih =>
      unfold readWord at h
      split at h
      · next c t =>
          split at h
          · next hword =>
              have hc : c ≠ '\\' := by
                rintro rfl
                exact absurd hword (by decide)
              exact (takes_cons hc t).trans
                ((skipIgnored_takes spaced t).trans (ih h))
          · cases h
            exact Takes.refl _
      · cases h
        exact Takes.refl _

theorem readBoundary_takes {spaced : Bool} {s r : List Char}
    (h : readBoundary spaced s = some r) : Takes s r := by
  unfold readBoundary at h
  split at h
  · next t =>
      split at h
      · cases h
      · next c t' hskip =>
          split at h
          · next hc =>
              split at h
              · next hword =>
                  split at h
                  · cases h
                    refine (takes_cons (by decide) t).trans ((skipIgnored_takes spaced t).trans ?_)
                    rw [hskip]
                    exact (readWord_takes hword).trans (takes_cons (by decide) r)
                  · cases h
              · cases h
          · cases h
            exact Takes.refl _
  · cases h
    exact Takes.refl _

/-- An escape is a pair, and what belongs to it behind the pair. -/
theorem readEscape_takes {spaced : Bool} {e : Escape} {s r : List Char}
    (h : readEscape spaced s = some (e, r)) : Takes ('\\' :: s) r := by
  rcases s with _ | ⟨c, t⟩
  · cases h
  · refine (takes_pair c t).trans ?_
    unfold readEscape at h
    split at h
    case h_1 hs => cases hs
    case h_2 hs | h_3 hs | h_4 hs =>
      cases hs
      exact readCode_takes h
    case h_5 hs | h_6 hs =>
      cases hs
      exact readProperty_takes h
    case h_24 hs =>
      cases hs
      obtain ⟨r', hboundary, hr⟩ := Option.map_eq_some_iff.1 h
      cases hr
      exact readBoundary_takes hboundary
    case h_25 hs =>
      cases hs
      split at h
      · cases h
        exact Takes.refl _
      · cases h
    -- the letters that nothing belongs to
    all_goals next hs =>
      cases hs
      cases h
      exact Takes.refl _

/-! ### Classes -/

/-- The closing bracket of a class by name is taken last. -/
theorem readPosix_takes {negated : Bool} {s r : List Char}
    (h : readPosix s = some (negated, r)) : Takes s r := by
  unfold readPosix at h
  split at h
  · next t =>
      split at h
      next t' hsign =>
        have hsuffix : t' <:+ t := by
          split at hsign
          · cases hsign
            exact List.suffix_cons _ _
          · cases hsign
            exact List.suffix_refl _
        dsimp only at h
        split at h
        · next hname =>
            split at h
            · cases h
              have hdrop : ':' :: ']' :: r <:+ t' := hname ▸ List.drop_suffix _ t'
              refine takes_of_suffix (c := ']') (by decide) ?_
              exact (List.suffix_cons _ _).trans
                (hdrop.trans (hsuffix.trans (List.suffix_cons _ _)))
            · cases h
        · cases h
  · cases h

theorem readItem_takes {spaced : Bool} {e : Escape} {s r : List Char}
    (h : readItem spaced s = some (e, r)) : Takes s r := by
  unfold readItem at h
  split at h
  · cases h
  · exact readEscape_takes h
  · next c t hc =>
      cases h
      exact takes_cons hc r

theorem readRange_takes {spaced : Bool} {m : Members} {s r : List Char}
    (h : readRange spaced s = some (m, r)) : Takes s r := by
  unfold readRange at h
  obtain ⟨⟨first, t⟩, hfirst, h⟩ := Option.bind_eq_some_iff.1 h
  have hitem := readItem_takes hfirst
  dsimp only at h
  split at h
  · cases h
  · next t' hskip =>
      split at h
      · obtain ⟨m', -, h⟩ := Option.bind_eq_some_iff.1 h
        cases h
        exact hskip ▸ hitem.trans (skipIgnored_takes spaced t)
      · obtain ⟨⟨last, rest⟩, hlast, h⟩ := Option.bind_eq_some_iff.1 h
        obtain ⟨lo, -, h⟩ := Option.bind_eq_some_iff.1 h
        obtain ⟨hi, -, h⟩ := Option.bind_eq_some_iff.1 h
        dsimp only at h
        split at h
        · cases h
          refine hitem.trans ((takes_of_skipIgnored (by decide) hskip).trans ?_)
          exact (skipIgnored_takes spaced t').trans (readItem_takes hlast)
        · cases h
  · obtain ⟨m', -, h⟩ := Option.bind_eq_some_iff.1 h
    cases h
    exact hitem.trans (skipIgnored_takes spaced t)

theorem readDashes_takes {spaced : Bool} {fuel : Nat} {items items' : List Members}
    {s r : List Char} (h : readDashes spaced fuel items s = (items', r)) : Takes s r := by
  induction fuel generalizing items s with
  | zero =>
      cases h
      exact Takes.refl _
  | succ fuel ih =>
      unfold readDashes at h
      split at h
      · next t =>
          exact (takes_cons (by decide) t).trans ((skipIgnored_takes spaced t).trans (ih h))
      · cases h
        exact Takes.refl _

theorem readOpening_takes {spaced negated : Bool} {items : List Members} {s r : List Char}
    (h : readOpening spaced s = (negated, items, r)) : Takes s r := by
  unfold readOpening at h
  split at h
  next t hsign =>
    have hfirst : Takes s t := by
      split at hsign
      · next t' hskip =>
          cases hsign
          exact (takes_of_skipIgnored (by decide) hskip).trans (skipIgnored_takes spaced t')
      · cases hsign
        exact skipIgnored_takes spaced s
    split at h
    next dashes t' hdashes =>
      refine hfirst.trans ((readDashes_takes hdashes).trans ?_)
      split at h
      · next t'' =>
          cases h
          exact (takes_cons (by decide) t'').trans (skipIgnored_takes spaced t'')
      · cases h
        exact Takes.refl _

theorem readMembers_takes {spaced : Bool} {fuel : Nat} {left : Option (Members × Combination)}
    {items : List Members} {m : Members} {s r : List Char}
    (h : readMembers spaced fuel left items s = some (m, r)) : Takes s r := by
  induction fuel generalizing left items m s r with
  | zero => cases h
  | succ fuel ih =>
      unfold readMembers at h
      split at h
      · cases h
      · next hskip =>
          cases h
          exact takes_of_skipIgnored (by decide) hskip
      · next t hskip =>
          exact (takes_of_skipIgnored (by decide) hskip).trans
            ((takes_cons (by decide) t).trans (ih h))
      · next t hskip =>
          exact (takes_of_skipIgnored (by decide) hskip).trans
            ((takes_cons (by decide) t).trans (ih h))
      · next t hskip =>
          exact (takes_of_skipIgnored (by decide) hskip).trans
            ((takes_cons (by decide) t).trans (ih h))
      · next t hskip =>
          refine (takes_of_skipIgnored (by decide) hskip).trans ?_
          split at h
          · next hposix => exact (readPosix_takes hposix).trans (ih h)
          · split at h
            next hopening =>
              split at h
              · next hinner =>
                  exact (readOpening_takes hopening).trans ((ih hinner).trans (ih h))
              · cases h
      · split at h
        · next hrange =>
            exact (skipIgnored_takes spaced s).trans ((readRange_takes hrange).trans (ih h))
        · cases h

theorem readBracket_takes {spaced : Bool} {n : Node} {s r : List Char}
    (h : readBracket spaced s = some (n, r)) : Takes s r := by
  unfold readBracket at h
  split at h
  next hopening =>
    obtain ⟨⟨m, t⟩, hmembers, h⟩ := Option.map_eq_some_iff.1 h
    cases h
    exact (readOpening_takes hopening).trans (readMembers_takes hmembers)

/-! ### Repetitions -/

theorem readCountDigits_takes {spaced : Bool} {fuel : Nat} {taken ds s r : List Char}
    (h : readCountDigits spaced fuel taken s = (ds, r)) : Takes s r := by
  induction fuel generalizing taken s with
  | zero =>
      cases h
      exact Takes.refl _
  | succ fuel ih =>
      unfold readCountDigits at h
      split at h
      · next c t =>
          split at h
          · next hc =>
              exact (takes_cons (ne_backslash hc (by decide)) t).trans
                ((skipIgnored_takes spaced t).trans (ih h))
          · cases h
            exact Takes.refl _
      · cases h
        exact Takes.refl _

theorem skipBlanks_takes (spaced : Bool) (fuel : Nat) (s : List Char) :
    Takes s (skipBlanks spaced fuel s) := by
  induction fuel generalizing s with
  | zero => exact Takes.refl s
  | succ fuel ih =>
      unfold skipBlanks
      split
      · next c t =>
          split
          · next hc =>
              exact (takes_cons (ne_backslash hc (by decide)) t).trans
                ((skipIgnored_takes spaced t).trans (ih _))
          · exact Takes.refl _
      · exact Takes.refl _

theorem dropWhile_isBlank_takes (s : List Char) : Takes s (s.dropWhile isBlank) := by
  induction s with
  | nil => exact Takes.refl []
  | cons c s ih =>
      rw [List.dropWhile_cons]
      split
      · next hc => exact (takes_cons (ne_backslash hc (by decide)) s).trans ih
      · exact Takes.refl _

theorem readCount_takes {spaced : Bool} {n : Nat} {s r : List Char}
    (h : readCount spaced s = some (n, r)) : Takes s r := by
  unfold readCount at h
  dsimp only at h
  split at h
  · cases h
  · cases h
    exact (dropWhile_isBlank_takes s).trans
      ((readCountDigits_takes rfl).trans (skipBlanks_takes spaced _ _))

theorem dropLazy_takes (s : List Char) : Takes s (dropLazy s) := by
  unfold dropLazy
  split
  · exact takes_cons (by decide) _
  · exact Takes.refl s

/-- What follows the closing brace of a repetition. -/
theorem closing_takes (spaced : Bool) (s : List Char) :
    Takes ('\x7d' :: s) (dropLazy (skipIgnored spaced s)) :=
  (takes_cons (by decide) s).trans ((skipIgnored_takes spaced s).trans (dropLazy_takes _))

theorem readBounds_takes {spaced : Bool} {least : Nat} {most : Option Nat} {s r : List Char}
    (h : readBounds spaced s = some (least, most, r)) : Takes s r := by
  unfold readBounds at h
  obtain ⟨⟨n, t⟩, hleast, h⟩ := Option.bind_eq_some_iff.1 h
  have hfirst := (skipIgnored_takes spaced s).trans (readCount_takes hleast)
  dsimp only at h
  split at h
  · cases h
    exact hfirst.trans (closing_takes spaced _)
  · next t' =>
      have hcomma := hfirst.trans (takes_cons (by decide) t')
      split at h
      · next t'' hskip =>
          cases h
          have hbrace := hskip ▸ skipIgnored_takes spaced t'
          exact hcomma.trans (hbrace.trans (closing_takes spaced t''))
      · obtain ⟨⟨m, t''⟩, hmost, h⟩ := Option.bind_eq_some_iff.1 h
        have hsecond := hcomma.trans ((skipIgnored_takes spaced t').trans (readCount_takes hmost))
        dsimp only at h
        split at h
        · split at h
          · cases h
            exact hsecond.trans (closing_takes spaced _)
          · cases h
        · cases h
  · cases h

/-! ### Groups -/

theorem ne_backslash_of_ofLetter {c : Char} {f : Flag} (h : Flag.ofLetter? c = some f) :
    c ≠ '\\' := by
  rintro rfl
  cases h

theorem readFlags_takes {negated dangling : Bool} {change change' : FlagChange} {s r : List Char}
    (h : readFlags negated dangling change s = some (change', r)) : Takes s r := by
  induction s generalizing negated dangling change with
  | nil => cases h
  | cons c s ih =>
      unfold readFlags at h
      split at h
      · split at h
        · cases h
        · cases h
          exact Takes.refl _
      · split at h
        · next hdash =>
            split at h
            · cases h
            · exact (takes_cons (hdash ▸ by decide) s).trans (ih h)
        · obtain ⟨f, hf, h⟩ := Option.bind_eq_some_iff.1 h
          have hletter := takes_cons (ne_backslash_of_ofLetter hf) s
          split at h
          · cases h
          · split at h
            · exact hletter.trans (ih h)
            · exact hletter.trans (ih h)

/-- The closing bracket of a name is taken last. -/
theorem readName_takes {name s r : List Char} (h : readName s = some (name, r)) : Takes s r := by
  unfold readName at h
  dsimp only at h
  split at h
  · next hdrop =>
      split at h
      · cases h
        have hsuffix : '>' :: r <:+ s := hdrop ▸ List.drop_suffix _ s
        exact takes_of_suffix (by decide) hsuffix
      · cases h
  · cases h

theorem readParenthesis_takes {spaced : Bool} {opening : Opening} {s r : List Char}
    (h : readParenthesis spaced s = some (opening, r)) : Takes s r := by
  unfold readParenthesis at h
  have hskipped := skipIgnored_takes spaced s
  split at h
  case h_1 t hskip =>
    obtain ⟨⟨name, t'⟩, hname, h⟩ := Option.map_eq_some_iff.1 h
    cases h
    rw [hskip] at hskipped
    refine hskipped.trans ((takes_cons (by decide) _).trans ((takes_cons (by decide) _).trans ?_))
    exact (takes_cons (by decide) t).trans (readName_takes hname)
  case h_4 t _ _ hskip =>
    obtain ⟨⟨name, t'⟩, hname, h⟩ := Option.map_eq_some_iff.1 h
    cases h
    rw [hskip] at hskipped
    refine hskipped.trans ((takes_cons (by decide) _).trans ?_)
    exact (takes_cons (by decide) t).trans (readName_takes hname)
  case h_7 t _ _ _ _ _ _ hskip =>
    have hmark := takes_of_skipIgnored (by decide) hskip
    split at h
    · next hflags =>
        cases h
        exact hmark.trans ((readFlags_takes hflags).trans (takes_cons (by decide) r))
    · next hflags =>
        split at h
        · cases h
        · cases h
          exact hmark.trans ((readFlags_takes hflags).trans (takes_cons (by decide) r))
    · cases h
  case h_8 =>
    cases h
    exact hskipped
  -- the marks of what is looked for around a place
  all_goals cases h

/-! ### Whole expressions -/

/-- What follows an expression stands behind complete pairs, and nothing follows an expression that
is not inside of a group. -/
theorem readBranches_takes {fuel : Nat} {inGroup spaced : Bool} {names names' : List (List Char)}
    {branches items : List Node} {n : Node} {s r : List Char}
    (h : readBranches fuel inGroup spaced names branches items s = some (n, names', r)) :
    Takes s r ∧ (inGroup = false → r = []) := by
  induction fuel generalizing inGroup spaced names names' branches items n s r with
  | zero => cases h
  | succ fuel ih =>
      have hstep : ∀ {t : List Char}, Takes s t → Takes t r ∧ (inGroup = false → r = []) →
          Takes s r ∧ (inGroup = false → r = []) := fun ht hr => ⟨ht.trans hr.1, hr.2⟩
      unfold readBranches at h
      have hskipped := skipIgnored_takes spaced s
      split at h
      case h_1 hskip =>
        split at h
        · cases h
        · cases h
          exact ⟨hskip ▸ hskipped, fun _ => rfl⟩
      case h_2 hskip =>
        split at h
        · next hgroup =>
            cases h
            refine ⟨takes_of_skipIgnored (by decide) hskip, fun hout => ?_⟩
            exact absurd (hgroup.symm.trans hout) (by decide)
        · cases h
      case h_3 hskip => exact hstep (takes_of_skipIgnored (by decide) hskip) (ih h)
      case h_4 hskip =>
        obtain ⟨⟨opening, t⟩, hopening, h⟩ := Option.bind_eq_some_iff.1 h
        have hopened :=
          (takes_of_skipIgnored (by decide) hskip).trans (readParenthesis_takes hopening)
        cases opening with
        | flags change => exact hstep hopened (ih h)
        | group change =>
            obtain ⟨⟨inner, names₁, t'⟩, hinner, h⟩ := Option.bind_eq_some_iff.1 h
            exact hstep (hopened.trans (ih hinner).1) (ih h)
        | capture name =>
            dsimp only at h
            split at h
            · cases h
            · obtain ⟨⟨inner, names₁, t'⟩, hinner, h⟩ := Option.bind_eq_some_iff.1 h
              exact hstep (hopened.trans (ih hinner).1) (ih h)
      case h_5 hskip =>
        obtain ⟨⟨m, t⟩, hbracket, h⟩ := Option.bind_eq_some_iff.1 h
        exact hstep ((takes_of_skipIgnored (by decide) hskip).trans (readBracket_takes hbracket))
          (ih h)
      case h_6 hskip | h_7 hskip | h_8 hskip =>
        obtain ⟨items', -, h⟩ := Option.bind_eq_some_iff.1 h
        exact hstep ((takes_of_skipIgnored (by decide) hskip).trans (dropLazy_takes _)) (ih h)
      case h_9 hskip =>
        obtain ⟨⟨least, most, t⟩, hbounds, h⟩ := Option.bind_eq_some_iff.1 h
        obtain ⟨items', -, h⟩ := Option.bind_eq_some_iff.1 h
        exact hstep ((takes_of_skipIgnored (by decide) hskip).trans (readBounds_takes hbounds))
          (ih h)
      case h_10 hskip =>
        obtain ⟨⟨e, t⟩, hescape, h⟩ := Option.bind_eq_some_iff.1 h
        exact hstep ((hskip ▸ hskipped).trans (readEscape_takes hescape)) (ih h)
      case h_11 hskip | h_12 hskip | h_13 hskip =>
        exact hstep (takes_of_skipIgnored (by decide) hskip) (ih h)
      case h_14 hbackslash _ _ _ hskip =>
        exact hstep (takes_of_skipIgnored hbackslash hskip) (ih h)

/-- **An expression without comments does not end in a lone backslash.** -/
theorem endsUnpaired_of_isAdmissible {s : List Char} (h : isAdmissible s = true) (hs : '#' ∉ s) :
    endsUnpaired s = false := by
  unfold isAdmissible readNode at h
  cases hread : readBranches (s.length + 1) false false [] [] [] s with
  | none =>
      rw [hread] at h
      cases h
  | some r =>
      obtain ⟨n, names, r⟩ := r
      obtain ⟨htakes, hend⟩ := readBranches_takes hread
      obtain ⟨t, rfl, ht⟩ := htakes hs
      rw [hend rfl, List.append_nil]
      exact ht

end BoundQuery.Pattern
