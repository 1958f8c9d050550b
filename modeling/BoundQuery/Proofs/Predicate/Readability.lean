/-
**Rendered predicates are uniquely readable.**

A predicate made of comparisons and groups can be read back from its text and its table: a group
begins with a parenthesis and nothing else does, a column begins with a letter that no literal has,
and what stands in a literal or in a table cannot end it early.  So no value can change the
structure of the predicate in which it stands.

What the text does not show is the connective of a group with one member, and the label of a
comparison none of whose values is bound.  A column that is looked up has a label of its own for
its name.

Main definitions:

* `BoundQuery.Predicate.Plain` — the predicate is made of comparisons and groups;
* `BoundQuery.Predicate.SameTree` — two predicates are the same tree but for these two things.

Main results:

* `BoundQuery.Operand.marks_inj` — sides of comparisons can be taken away;
* `BoundQuery.Predicate.marks_inj` — predicates can be taken away, and are the same tree;
* `BoundQuery.Predicate.sameTree_of_text_eq` — equal texts and equal tables come from the same
  tree.
-/

import BoundQuery.Proofs.Binding.Cancel

set_option relaxedAutoImplicit false
set_option autoImplicit false

namespace BoundQuery

open Scanner (AtBoundary)

variable {p : Policy}

/-! ### Sides of comparisons -/

/-- A column whose name the program gives has the name of an identifier. -/
def Column.Plain : Column → Prop
  | trusted name => isIdentifier name = true
  | dynamic _ => True

/-- Columns are named by identifiers, and a leap second comes at the end of a minute. -/
def Operand.Plain : Operand → Prop
  | column c => c.Plain
  | value v => v.LeapLegible
  | absent => True

/-- A side of a comparison that is a column has the name of an identifier. -/
def Operand.Named : Operand → Prop
  | column c => c.Plain
  | _ => True

/-- The side of a comparison is a value that the policy binds. -/
def Operand.IsBound (p : Policy) (o : Operand) : Prop :=
  ∃ v, o = .value v ∧ p.binds v.kind = true

/-- What a comma begins is at a boundary, and so on for the characters that may stand there. -/
theorem atBoundary_fixed {c : Char} (hc : c = ' ' ∨ c = ',' ∨ c = ')' ∨ c = '\n') (t : List Char)
    (ms : List Mark) (k : Nat) : AtBoundary (filledText p k (.fixed (c :: t) :: ms)) := by
  intro d hd
  rw [filledText_fixed] at hd
  cases hd
  exact hc

namespace SameFrom

variable {n : Nat} {ms ms' : List Mark}

/-- Columns with names that the program gives can be taken away. -/
theorem trusted_inj {a b : String} (ha : isIdentifier a = true) (hb : isIdentifier b = true)
    (hms : ∀ k, AtBoundary (filledText p k ms)) (hms' : ∀ k, AtBoundary (filledText p k ms'))
    (h : SameFrom p n (.fixed ("r.".toList ++ a.toList) :: ms)
      (.fixed ("r.".toList ++ b.toList) :: ms')) : a = b ∧ SameFrom p n ms ms' := by
  have htext := h.text
  rw [filledText_fixed, filledText_fixed, List.append_assoc, List.append_assoc] at htext
  have hclass : ∀ {r : List Char}, AtBoundary r → ∀ c ∈ r.head?, ¬isIdentifierChar c = true :=
    fun hr => hr.forall_head (by decide)
  obtain ⟨hname, htail⟩ := append_inj_of_forall (isIdentifierChar_of_mem ha)
    (isIdentifierChar_of_mem hb) (hclass (hms n)) (hclass (hms' n))
    (List.append_cancel_left htext)
  exact ⟨String.toList_inj.1 hname, htail, h.entries⟩

/-- Words between blanks can be taken away. -/
theorem spaced_inj {a b : String} (ha : ∀ c ∈ a.toList, c ≠ ' ') (hb : ∀ c ∈ b.toList, c ≠ ' ')
    (h : SameFrom p n (.fixed (Predicate.spaced a) :: ms) (.fixed (Predicate.spaced b) :: ms')) :
    a = b ∧ SameFrom p n ms ms' := by
  have htext := h.text
  simp only [filledText_fixed, Predicate.spaced, List.cons_append, List.append_assoc,
    List.nil_append] at htext
  have hblank : ∀ s : List Char, ∀ c ∈ (' ' :: s).head?, ¬c ≠ ' ' := by
    intro s c hc
    cases hc
    simp
  obtain ⟨hword, htail⟩ := append_inj_of_forall ha hb (hblank _) (hblank _)
    (List.cons.inj htext).2
  exact ⟨String.toList_inj.1 hword, (List.cons.inj htail).2, h.entries⟩

end SameFrom

/-- **Sides of comparisons can be taken away**, and are the same.  The label is the same where the
side is a value that is bound. -/
theorem Operand.marks_inj {o o' : Operand} {label label' : String} (ho : o.Plain) (ho' : o'.Plain)
    (hclean : Clean (o.block label)) (hclean' : Clean (o'.block label')) {n : Nat}
    {ms ms' : List Mark} (hms : ∀ k, AtBoundary (filledText p k ms))
    (hms' : ∀ k, AtBoundary (filledText p k ms'))
    (h : SameFrom p n ((o.block label).flatMap Action.marks ++ ms)
      ((o'.block label').flatMap Action.marks ++ ms')) :
    o = o' ∧ (o.IsBound p → label = label') ∧ ∃ k, SameFrom p k ms ms' := by
  have hcolumn : ∀ c : Column, ¬(Operand.column c).IsBound p := by
    rintro c ⟨v, hv, -⟩
    cases hv
  cases o with
  | absent => cases hclean _ List.mem_cons_self
  | value v =>
      have hv := (bindingError?_eq_none_iff.1 (hclean _ List.mem_cons_self)).2
      cases o' with
      | absent => cases hclean' _ List.mem_cons_self
      | value v' =>
          have hv' := (bindingError?_eq_none_iff.1 (hclean' _ List.mem_cons_self)).2
          obtain ⟨rfl, hlabel, hrest⟩ := h.slot_inj hv hv' ho ho' hms hms'
          refine ⟨rfl, ?_, hrest⟩
          rintro ⟨w, hw, hb⟩
          cases hw
          exact hlabel hb
      | column c =>
          cases c with
          | trusted a => exact (h.not_slot_fixed hv ho hms (by decide) (by decide)).elim
          | dynamic a => exact (h.not_slot_fixed hv ho hms (by decide) (by decide)).elim
  | column c =>
      cases o' with
      | absent => cases hclean' _ List.mem_cons_self
      | value v' =>
          have hv' := (bindingError?_eq_none_iff.1 (hclean' _ List.mem_cons_self)).2
          cases c with
          | trusted a => exact (h.symm.not_slot_fixed hv' ho' hms' (by decide) (by decide)).elim
          | dynamic a => exact (h.symm.not_slot_fixed hv' ho' hms' (by decide) (by decide)).elim
      | column c' =>
          cases c with
          | trusted a =>
              cases c' with
              | trusted b =>
                  obtain ⟨rfl, hrest⟩ := h.trusted_inj ho ho' hms hms'
                  exact ⟨rfl, fun hb => (hcolumn _ hb).elim, n, hrest⟩
              | dynamic b => cases (List.cons.inj (List.cons.inj h.text).2).1
          | dynamic a =>
              cases c' with
              | trusted b => cases (List.cons.inj (List.cons.inj h.text).2).1
              | dynamic b =>
                  have hname := SameFrom.fixed_inj h
                  have hliteral : ∀ s, (Value.text s).HasLiteral := fun _ => trivial
                  have hleap : ∀ s, (Value.text s).LeapLegible := fun s t ht => by cases ht
                  obtain ⟨heq, -, k, hrest⟩ := hname.slot_inj (hliteral a) (hliteral b) (hleap a)
                    (hleap b)
                    (atBoundary_fixed (Or.inr (Or.inl rfl)) _ ms)
                    (atBoundary_fixed (Or.inr (Or.inl rfl)) _ ms')
                  cases heq
                  exact ⟨rfl, fun hb => (hcolumn _ hb).elim, k, SameFrom.fixed_inj hrest⟩

/-! ### Trees -/

mutual

/-- The predicate is made of comparisons and groups. -/
inductive Predicate.Plain : Predicate → Prop where
  | compare {l r : Operand} (how : Comparison) (label : String) (hl : l.Plain) (hr : r.Plain) :
      Plain (.compare l how r label)
  | group (c : Connective) {qs : List Predicate} (h : AllPlain qs) : Plain (.group c qs)

/-- All members of a group are made of comparisons and groups. -/
inductive Predicate.AllPlain : List Predicate → Prop where
  | nil : AllPlain []
  | cons {q : Predicate} {qs : List Predicate} (h : Plain q) (hs : AllPlain qs) :
      AllPlain (q :: qs)

end

mutual

/-- Two predicates are the same tree, but for the connectives of groups with one member and for
the labels of comparisons that bind nothing under them: neither side is a value that is bound, and
the name of a column has a label of its own. -/
inductive Predicate.SameTree (p : Policy) : Predicate → Predicate → Prop where
  | compare (l : Operand) (how : Comparison) (r : Operand) {label label' : String}
      (h : l.IsBound p ∨ r.IsBound p → label = label') :
      SameTree p (.compare l how r label) (.compare l how r label')
  | group {c c' : Connective} {qs qs' : List Predicate} (h : AllSame p qs qs')
      (hc : 2 ≤ qs.length → c = c') : SameTree p (.group c qs) (.group c' qs')

/-- The members of two groups are the same trees, one by one. -/
inductive Predicate.AllSame (p : Policy) : List Predicate → List Predicate → Prop where
  | nil : AllSame p [] []
  | cons {q q' : Predicate} {qs qs' : List Predicate} (h : SameTree p q q')
      (hs : AllSame p qs qs') : AllSame p (q :: qs) (q' :: qs')

end

namespace Predicate

/-- The marks of a predicate none of whose actions fails. -/
def marks (q : Predicate) : List Mark := q.plan.flatten.flatMap Action.marks

/-- The marks of the members of a group behind the first one. -/
def restMarks (c : Connective) (qs : List Predicate) : List Mark :=
  (restPlan c qs).flatten.flatMap Action.marks

theorem marks_compare (l : Operand) (how : Comparison) (r : Operand) (label : String)
    (ms : List Mark) : (compare l how r label).marks ++ ms =
      (l.block label).flatMap Action.marks ++
        .fixed (spaced how.sign) :: ((r.block label).flatMap Action.marks ++ ms) := by
  simp [marks, plan, Action.marks]

theorem marks_group (c : Connective) (q : Predicate) (qs : List Predicate) (ms : List Mark) :
    (group c (q :: qs)).marks ++ ms =
      .fixed ['('] :: (q.marks ++ (restMarks c qs ++ .fixed [')'] :: ms)) := by
  simp [marks, restMarks, plan, Action.marks]

theorem restMarks_cons (c : Connective) (q : Predicate) (qs : List Predicate) (ms : List Mark) :
    restMarks c (q :: qs) ++ ms =
      .fixed (spaced c.word) :: (q.marks ++ (restMarks c qs ++ ms)) := by
  simp [marks, restMarks, restPlan, Action.marks]

theorem clean_compare {l r : Operand} {how : Comparison} {label : String}
    (h : Clean (compare l how r label).plan.flatten) :
    Clean (l.block label) ∧ Clean (r.block label) := by
  simp only [plan, List.flatten_cons, List.flatten_nil, List.append_nil] at h
  exact ⟨h.append.1, h.append.2.append.2⟩

theorem clean_group {c : Connective} {q : Predicate} {qs : List Predicate}
    (h : Clean (group c (q :: qs)).plan.flatten) :
    Clean q.plan.flatten ∧ Clean (restPlan c qs).flatten := by
  simp only [plan, List.cons_append, List.flatten_cons, List.flatten_append, List.append_assoc,
    List.nil_append] at h
  exact ⟨h.tail.append.1, h.tail.append.2.append.1⟩

theorem clean_restPlan {c : Connective} {q : Predicate} {qs : List Predicate}
    (h : Clean (restPlan c (q :: qs)).flatten) :
    Clean q.plan.flatten ∧ Clean (restPlan c qs).flatten := by
  simp only [restPlan, List.cons_append, List.flatten_cons, List.flatten_append,
    List.nil_append] at h
  exact h.tail.append

/-- What follows a member of a group is a blank or the closing parenthesis. -/
theorem atBoundary_restMarks (c : Connective) (qs : List Predicate) (ms : List Mark) (k : Nat) :
    AtBoundary (filledText p k (restMarks c qs ++ .fixed [')'] :: ms)) := by
  cases qs with
  | nil => exact atBoundary_fixed (Or.inr (Or.inr (Or.inl rfl))) [] ms k
  | cons q qs =>
      rw [restMarks_cons]
      exact atBoundary_fixed (Or.inl rfl) _ _ k

theorem sign_inj {a b : Comparison} (h : a.sign = b.sign) : a = b := by
  cases a <;> cases b <;> first | rfl | (revert h; decide)

theorem word_inj {a b : Connective} (h : a.word = b.word) : a = b := by
  cases a <;> cases b <;> first | rfl | (revert h; decide)

theorem sign_not_blank (a : Comparison) : ∀ c ∈ a.sign.toList, c ≠ ' ' := by
  cases a <;> simp [Comparison.sign]

theorem word_not_blank (a : Connective) : ∀ c ∈ a.word.toList, c ≠ ' ' := by
  cases a <;> simp [Connective.word]

/-- A comparison does not look like a group. -/
theorem not_compare_group {l r : Operand} {how : Comparison} {label : String} {c : Connective}
    {q : Predicate} {qs : List Predicate} (hl : l.Plain)
    (hclean : Clean (compare l how r label).plan.flatten) {n : Nat} {ms ms' : List Mark}
    (h : SameFrom p n ((compare l how r label).marks ++ ms) ((group c (q :: qs)).marks ++ ms')) :
    False := by
  have hleft := (clean_compare hclean).1
  rw [marks_compare, marks_group] at h
  cases l with
  | absent => cases hleft _ List.mem_cons_self
  | value v =>
      have hv := (bindingError?_eq_none_iff.1 (hleft _ List.mem_cons_self)).2
      exact h.not_slot_fixed hv hl (atBoundary_fixed (Or.inl rfl) _ _) (by decide) (by decide)
  | column col =>
      cases col with
      | trusted a => cases (List.cons.inj h.text).1
      | dynamic a => cases (List.cons.inj h.text).1

/-- **Comparisons can be taken away**, and are the same. -/
theorem compare_marks_inj {l l' r r' : Operand} {how how' : Comparison} {label label' : String}
    (hl : l.Plain) (hl' : l'.Plain) (hr : r.Plain) (hr' : r'.Plain)
    (hclean : Clean (compare l how r label).plan.flatten)
    (hclean' : Clean (compare l' how' r' label').plan.flatten) {n : Nat} {ms ms' : List Mark}
    (hms : ∀ k, AtBoundary (filledText p k ms)) (hms' : ∀ k, AtBoundary (filledText p k ms'))
    (h : SameFrom p n ((compare l how r label).marks ++ ms)
      ((compare l' how' r' label').marks ++ ms')) :
    SameTree p (compare l how r label) (compare l' how' r' label') ∧
      ∃ k, SameFrom p k ms ms' := by
  obtain ⟨hleft, hright⟩ := clean_compare hclean
  obtain ⟨hleft', hright'⟩ := clean_compare hclean'
  rw [marks_compare, marks_compare] at h
  obtain ⟨rfl, hlabel, k, hsigns⟩ := Operand.marks_inj hl hl' hleft hleft'
    (atBoundary_fixed (Or.inl rfl) _ _) (atBoundary_fixed (Or.inl rfl) _ _) h
  obtain ⟨hsign, hsides⟩ := hsigns.spaced_inj (sign_not_blank how) (sign_not_blank how')
  obtain rfl := sign_inj hsign
  obtain ⟨rfl, hlabel', hrest⟩ := Operand.marks_inj hr hr' hright hright' hms hms' hsides
  exact ⟨.compare l how r fun hb => hb.elim hlabel hlabel', hrest⟩

mutual

/-- **Predicates can be taken away, and are the same tree.** -/
theorem marks_inj : ∀ {q q' : Predicate}, q.Plain → q'.Plain → Clean q.plan.flatten →
    Clean q'.plan.flatten → ∀ {n : Nat} {ms ms' : List Mark},
      (∀ k, AtBoundary (filledText p k ms)) → (∀ k, AtBoundary (filledText p k ms')) →
        SameFrom p n (q.marks ++ ms) (q'.marks ++ ms') →
          SameTree p q q' ∧ ∃ k, SameFrom p k ms ms'
  | _, _, .compare _ _ hl hr, .compare _ _ hl' hr', hclean, hclean', _, _, _, hms, hms', h =>
      compare_marks_inj hl hl' hr hr' hclean hclean' hms hms' h
  | _, _, .group _ .nil, _, hclean, _, _, _, _, _, _, _ => by
      cases hclean _ List.mem_cons_self
  | _, _, .compare _ _ _ _, .group _ .nil, _, hclean', _, _, _, _, _, _ => by
      cases hclean' _ List.mem_cons_self
  | _, _, .group _ (.cons _ _), .group _ .nil, _, hclean', _, _, _, _, _, _ => by
      cases hclean' _ List.mem_cons_self
  | _, _, .compare _ _ hl _, .group _ (.cons _ _), hclean, _, _, _, _, _, _, h =>
      (not_compare_group hl hclean h).elim
  | _, _, .group _ (.cons _ _), .compare _ _ hl' _, _, hclean', _, _, _, _, _, h =>
      (not_compare_group hl' hclean' h.symm).elim
  | _, _, .group c (.cons hq hqs), .group c' (.cons hq' hqs'), hclean, hclean', _, ms, ms', _, _,
      h => by
      obtain ⟨hfirst, hothers⟩ := clean_group hclean
      obtain ⟨hfirst', hothers'⟩ := clean_group hclean'
      rw [marks_group, marks_group] at h
      -- a member ends where a blank or a parenthesis follows, which is at a boundary
      obtain ⟨hsame, k, h⟩ := marks_inj hq hq' hfirst hfirst' (atBoundary_restMarks c _ ms)
        (atBoundary_restMarks c' _ ms') h.fixed_inj
      obtain ⟨hall, hconnective, hrest⟩ := restMarks_inj hqs hqs' hothers hothers' h
      refine ⟨.group (.cons hsame hall) fun hlen => hconnective ?_, hrest⟩
      intro hnil
      simp [hnil] at hlen

/-- The members of groups behind the first ones can be taken away, and are the same trees. -/
theorem restMarks_inj : ∀ {c c' : Connective} {qs qs' : List Predicate}, AllPlain qs →
    AllPlain qs' → Clean (restPlan c qs).flatten → Clean (restPlan c' qs').flatten →
      ∀ {n : Nat} {ms ms' : List Mark},
        SameFrom p n (restMarks c qs ++ .fixed [')'] :: ms)
          (restMarks c' qs' ++ .fixed [')'] :: ms') →
            AllSame p qs qs' ∧ (qs ≠ [] → c = c') ∧ ∃ k, SameFrom p k ms ms'
  | _, _, _, _, .nil, .nil, _, _, n, _, _, h =>
      ⟨.nil, fun hne => absurd rfl hne, n, SameFrom.fixed_inj h⟩
  | _, c', _, _, .nil, .cons _ _, _, _, _, _, _, h => by
      -- one group ends with a parenthesis where the other goes on with a blank
      rw [restMarks_cons] at h
      exact (SameFrom.not_fixed_fixed (by decide) h).elim
  | _, _, _, _, .cons _ _, .nil, _, _, _, _, _, h => by
      rw [restMarks_cons] at h
      exact (SameFrom.not_fixed_fixed (by decide) h).elim
  | c, c', _, _, .cons hq hqs, .cons hq' hqs', hclean, hclean', _, ms, ms', h => by
      obtain ⟨hfirst, hothers⟩ := clean_restPlan hclean
      obtain ⟨hfirst', hothers'⟩ := clean_restPlan hclean'
      rw [restMarks_cons, restMarks_cons] at h
      obtain ⟨hword, hmembers⟩ := h.spaced_inj (word_not_blank c) (word_not_blank c')
      obtain rfl := word_inj hword
      obtain ⟨hsame, k, hbehind⟩ := marks_inj hq hq' hfirst hfirst' (atBoundary_restMarks c _ ms)
        (atBoundary_restMarks c _ ms') hmembers
      obtain ⟨hall, -, hrest⟩ := restMarks_inj hqs hqs' hothers hothers' hbehind
      exact ⟨.cons hsame hall, fun _ => rfl, hrest⟩

end

/-- **Rendered predicates are uniquely readable.**  Two predicates made of comparisons and groups
that are rendered with the same text and the same table, from tables without entries and under one
policy, are the same tree. -/
theorem sameTree_of_text_eq {p : Policy} {now now' : Option Instant}
    {imports imports' : List Package} {q q' : Predicate} (hq : q.Plain) (hq' : q'.Plain)
    {s s' : Session}
    (hs : (Session.ofSettings ⟨p, now, imports⟩).performBlock q.plan.flatten = (s, none))
    (hs' : (Session.ofSettings ⟨p, now', imports'⟩).performBlock q'.plan.flatten = (s', none))
    (htext : s.text = s'.text) (htable : s.table.entries = s'.table.entries) :
    SameTree p q q' := by
  let d : Draft := .ofSettings ⟨p, now, imports⟩
  let d' : Draft := .ofSettings ⟨p, now', imports'⟩
  have hd : (d.session p).performBlock q.plan.flatten = (s, none) := hs
  have hd' : (d'.session p).performBlock q'.plan.flatten = (s', none) := hs'
  obtain ⟨hclean, rfl⟩ := Draft.eq_of_performBlock hd
  obtain ⟨hclean', rfl⟩ := Draft.eq_of_performBlock hd'
  have hend : ∀ k, AtBoundary (filledText p k []) := fun _ _ hc => by cases hc
  have hsame : SameFrom p 0 (q.marks ++ []) (q'.marks ++ []) := by
    rw [List.append_nil, List.append_nil]
    exact ⟨htext, htable⟩
  exact (marks_inj hq hq' (List.findSome?_eq_none_iff.1 hclean)
    (List.findSome?_eq_none_iff.1 hclean') hend hend hsame).1

/-- A name and a value that would close a string and a parenthesis are read as what they are; where
nothing is bound, the label and the connective of one member do not show. -/
theorem sameTree_of_text_eq_hostile :
    SameTree .none (any [tagIs ("host\") or (r._value", "a\" or \"")])
      (all [(tagIs ("host\") or (r._value", "a\" or \"")).withLabel "name"]) := by
  have hplain : ∀ tag label, ((tagIs tag).withLabel label).Plain := fun _ _ =>
    .compare _ _ trivial fun t ht => by cases ht
  obtain ⟨s, hs⟩ : ∃ s, (Session.ofSettings (.ofPolicy .none)).performBlock
      (any [tagIs ("host\") or (r._value", "a\" or \"")]).plan.flatten = (s, none) := ⟨_, rfl⟩
  have hs' : (Session.ofSettings (.ofPolicy .none)).performBlock
      (all [(tagIs ("host\") or (r._value", "a\" or \"")).withLabel "name"]).plan.flatten =
        (s, none) := by
    rw [← hs]
    rfl
  exact sameTree_of_text_eq (.group .any (.cons (hplain _ valueLabel) .nil))
    (.group .all (.cons (hplain _ _) .nil)) hs hs' rfl rfl

end Predicate

end BoundQuery
