/-
**The grammar of predicates.**

A predicate is read as alternatives joined by `or`, each of which joins factors by `and`, so that
`and` binds tighter.  A factor is an atom or a predicate between parentheses.  The grammar does not
look into an atom: it has a word outside of all parentheses, every parenthesis in it is closed in
it, and connectives stand only between its parentheses.

Main definitions:

* `BoundQuery.Atom` — the tokens of an atom;
* `BoundQuery.Disjunction`, `BoundQuery.Conjunction`, `BoundQuery.Factor` — the grammar, with the
  tokens of its phrases;
* `BoundQuery.Disjunction.Holds` — the truth of a phrase, for a truth value of every atom;
* `BoundQuery.Reads` — a text is read as a phrase.

Main results:

* `BoundQuery.append_inj_of_closed` — what is closed can be taken away before what ends a factor;
* `BoundQuery.Disjunction.tokens_inj` — the grammar is unambiguous;
* `BoundQuery.Reads.unique` — a text is read in one way at most.
-/

import BoundQuery.Proofs.Predicate.Lexer

set_option relaxedAutoImplicit false
set_option autoImplicit false

namespace BoundQuery

/-! ### Parentheses -/

/-- How many parentheses are open behind tokens, when `n` are open before; `none` where one closes
that is not open, or where a connective stands outside of all of them. -/
def depthAfter : Nat → List Token → Option Nat
  | n, [] => some n
  | n, .word _ :: ts => depthAfter n ts
  | n, .opening :: ts => depthAfter (n + 1) ts
  | 0, .closing :: _ => none
  | n + 1, .closing :: ts => depthAfter n ts
  | 0, .connective _ :: _ => none
  | n + 1, .connective _ :: ts => depthAfter (n + 1) ts

/-- Whether a word stands outside of all parentheses, when `n` are open before. -/
def hasOuterWord : Nat → List Token → Bool
  | _, [] => false
  | 0, .word _ :: _ => true
  | n + 1, .word _ :: ts => hasOuterWord (n + 1) ts
  | n, .opening :: ts => hasOuterWord (n + 1) ts
  | n, .closing :: ts => hasOuterWord (n - 1) ts
  | n, .connective _ :: ts => hasOuterWord n ts

/-- Tokens that close what they open. -/
def Closed (ts : List Token) : Prop := depthAfter 0 ts = some 0

instance (ts : List Token) : Decidable (Closed ts) := inferInstanceAs (Decidable (_ = _))

theorem depthAfter_append (n : Nat) (ts us : List Token) :
    depthAfter n (ts ++ us) = (depthAfter n ts).bind fun k => depthAfter k us := by
  fun_induction depthAfter n ts with
  | case1 n => rfl
  | case2 n w ts ih => exact ih
  | case3 n ts ih => exact ih
  | case4 ts => rfl
  | case5 n ts ih => exact ih
  | case6 c ts => rfl
  | case7 n c ts ih => exact ih

theorem Closed.append {ts us : List Token} (ht : Closed ts) (hu : Closed us) :
    Closed (ts ++ us) := by
  unfold Closed at ht hu ⊢
  rw [depthAfter_append, ht, Option.bind_some, hu]

/-- Further inside of parentheses, the same number is opened and closed. -/
theorem depthAfter_add {k n : Nat} {ts : List Token} (h : depthAfter k ts = some n) (j : Nat)
    (us : List Token) : depthAfter (k + j) (ts ++ us) = depthAfter (n + j) us := by
  fun_induction depthAfter k ts with
  | case1 k =>
      obtain rfl := Option.some.inj h
      rfl
  | case2 k w ts ih => exact ih h
  | case3 k ts ih =>
      rw [List.cons_append, depthAfter, Nat.add_right_comm]
      exact ih h
  | case4 ts => cases h
  | case5 k ts ih =>
      rw [Nat.succ_add, List.cons_append, depthAfter]
      exact ih h
  | case6 c ts => cases h
  | case7 k c ts ih =>
      have hgoal := ih h
      rw [Nat.add_right_comm] at hgoal
      rw [Nat.succ_add, List.cons_append, depthAfter]
      exact hgoal

/-- Further inside of parentheses, tokens that close what they open hide their words. -/
theorem hasOuterWord_add {k n : Nat} {ts : List Token} (h : depthAfter k ts = some n) (j : Nat)
    (us : List Token) :
    hasOuterWord (k + j + 1) (ts ++ us) = hasOuterWord (n + j + 1) us := by
  fun_induction depthAfter k ts with
  | case1 k =>
      obtain rfl := Option.some.inj h
      rfl
  | case2 k w ts ih => exact ih h
  | case3 k ts ih =>
      have hgoal := ih h
      rw [Nat.add_right_comm k 1 j] at hgoal
      rw [List.cons_append, hasOuterWord]
      exact hgoal
  | case4 ts => cases h
  | case5 k ts ih =>
      rw [Nat.add_right_comm k 1 j, List.cons_append, hasOuterWord]
      exact ih h
  | case6 c ts => cases h
  | case7 k c ts ih => exact ih h

/-- A word behind tokens that close what they open stands outside of all parentheses. -/
theorem hasOuterWord_of_closed {ts : List Token} (h : Closed ts) (w : List Char)
    (us : List Token) : hasOuterWord 0 (ts ++ .word w :: us) = true := by
  have hword : ∀ {k : Nat} {ts : List Token}, depthAfter k ts = some 0 →
      hasOuterWord k (ts ++ .word w :: us) = true := by
    intro k ts h
    fun_induction depthAfter k ts with
    | case1 k =>
        obtain rfl := Option.some.inj h
        rfl
    | case2 k v ts ih =>
        cases k with
        | zero => rfl
        | succ k => exact ih h
    | case3 k ts ih => exact ih h
    | case4 ts => cases h
    | case5 k ts ih => exact ih h
    | case6 c ts => cases h
    | case7 k c ts ih => exact ih h
  exact hword h

/-! ### Phrases -/

/-- The tokens of an atom. -/
structure Atom where
  tokens : List Token
  closed : Closed tokens
  hasWord : hasOuterWord 0 tokens = true

mutual

/-- Alternatives joined by `or`. -/
inductive Disjunction where
  | one (c : Conjunction)
  | or (c : Conjunction) (d : Disjunction)

/-- Factors joined by `and`. -/
inductive Conjunction where
  | one (f : Factor)
  | and (f : Factor) (c : Conjunction)

/-- An atom, or a phrase between parentheses. -/
inductive Factor where
  | atom (a : Atom)
  | group (d : Disjunction)

end

mutual

/-- The tokens of alternatives. -/
def Disjunction.tokens : Disjunction → List Token
  | .one c => c.tokens
  | .or c d => c.tokens ++ .connective .any :: d.tokens

/-- The tokens of factors. -/
def Conjunction.tokens : Conjunction → List Token
  | .one f => f.tokens
  | .and f c => f.tokens ++ .connective .all :: c.tokens

/-- The tokens of a factor. -/
def Factor.tokens : Factor → List Token
  | .atom a => a.tokens
  | .group d => .opening :: (d.tokens ++ [.closing])

end

mutual

/-- One of the alternatives holds. -/
def Disjunction.Holds (v : Atom → Prop) : Disjunction → Prop
  | .one c => c.Holds v
  | .or c d => c.Holds v ∨ d.Holds v

/-- All of the factors hold. -/
def Conjunction.Holds (v : Atom → Prop) : Conjunction → Prop
  | .one f => f.Holds v
  | .and f c => f.Holds v ∧ c.Holds v

/-- The factor holds. -/
def Factor.Holds (v : Atom → Prop) : Factor → Prop
  | .atom a => v a
  | .group d => d.Holds v

end

/-- A text is read as a phrase. -/
def Reads (s : List Char) (d : Disjunction) : Prop := tokens? s = some d.tokens

/-! ### Phrases between parentheses -/

/-- Between parentheses, the tokens neither close the outermost one nor show a word outside of
it. -/
structure Nested (ts : List Token) : Prop where
  depth : ∀ n us, depthAfter (n + 1) (ts ++ us) = depthAfter (n + 1) us
  hidden : ∀ n us, hasOuterWord (n + 1) (ts ++ us) = hasOuterWord (n + 1) us

namespace Nested

variable {ts us : List Token}

theorem of_closed (h : Closed ts) : Nested ts where
  depth n us := by
    have hadd := depthAfter_add h (n + 1) us
    rwa [Nat.zero_add] at hadd
  hidden n us := by
    have hadd := hasOuterWord_add h n us
    rwa [Nat.zero_add] at hadd

theorem join (ht : Nested ts) (c : Connective) (hu : Nested us) :
    Nested (ts ++ .connective c :: us) where
  depth n vs := by
    rw [List.append_assoc, ht.depth, List.cons_append, depthAfter, hu.depth]
  hidden n vs := by
    rw [List.append_assoc, ht.hidden, List.cons_append, hasOuterWord, hu.hidden]

/-- Between parentheses of its own, what is nested is closed and shows no word. -/
theorem closed_group (h : Nested ts) : Closed (.opening :: (ts ++ [.closing])) := by
  unfold Closed
  rw [depthAfter, h.depth]
  rfl

theorem not_hasOuterWord_group (h : Nested ts) :
    hasOuterWord 0 (.opening :: (ts ++ [.closing])) = false := by
  rw [hasOuterWord, h.hidden]
  rfl

end Nested

mutual

theorem Disjunction.nested : ∀ d : Disjunction, Nested d.tokens
  | .one c => c.nested
  | .or c d => c.nested.join .any d.nested

theorem Conjunction.nested : ∀ c : Conjunction, Nested c.tokens
  | .one f => .of_closed f.closed
  | .and f c => (Nested.of_closed f.closed).join .all c.nested

theorem Factor.closed : ∀ f : Factor, Closed f.tokens
  | .atom a => a.closed
  | .group d => d.nested.closed_group

end

/-- An atom is no phrase between parentheses. -/
theorem Atom.tokens_ne_group (a : Atom) (d : Disjunction) :
    a.tokens ≠ .opening :: (d.tokens ++ [.closing]) := by
  intro h
  have hword := a.hasWord
  rw [h, d.nested.not_hasOuterWord_group] at hword
  cases hword

theorem Atom.ext {a b : Atom} (h : a.tokens = b.tokens) : a = b := by
  cases a
  cases b
  cases h
  rfl

/-! ### Unique reading -/

/-- A factor ends before the tokens. -/
def EndsFactor (ts : List Token) : Prop :=
  ∀ t ∈ ts.head?, t = .closing ∨ ∃ c, t = .connective c

/-- Factors end before the tokens. -/
def EndsConjunction (ts : List Token) : Prop :=
  ∀ t ∈ ts.head?, t = .closing ∨ t = .connective .any

/-- Alternatives end before the tokens. -/
def EndsDisjunction (ts : List Token) : Prop := ∀ t ∈ ts.head?, t = .closing

theorem EndsConjunction.endsFactor {ts : List Token} (h : EndsConjunction ts) : EndsFactor ts := by
  intro t ht
  rcases h t ht with hclosing | hor
  · exact Or.inl hclosing
  · exact Or.inr ⟨.any, hor⟩

theorem EndsDisjunction.endsConjunction {ts : List Token} (h : EndsDisjunction ts) :
    EndsConjunction ts := fun t ht => Or.inl (h t ht)

theorem endsFactor_connective (c : Connective) (ts : List Token) :
    EndsFactor (.connective c :: ts) := by
  intro t ht
  cases ht
  exact Or.inr ⟨c, rfl⟩

theorem endsConjunction_any (ts : List Token) : EndsConjunction (.connective .any :: ts) := by
  intro t ht
  cases ht
  exact Or.inr rfl

theorem not_endsConjunction_all (ts : List Token) :
    ¬EndsConjunction (.connective .all :: ts) := by
  intro h
  rcases h _ rfl with hclosing | hany
  · cases hclosing
  · cases hany

theorem not_endsDisjunction_any (ts : List Token) :
    ¬EndsDisjunction (.connective .any :: ts) := fun h => by cases h _ rfl

theorem endsDisjunction_closing (ts : List Token) : EndsDisjunction (.closing :: ts) := by
  intro t ht
  cases ht
  rfl

theorem eq_nil_of_endsFactor {ts us : List Token} (h : EndsFactor (ts ++ us)) (hts : Closed ts) :
    ts = [] := by
  cases ts with
  | nil => rfl
  | cons t ts =>
      rcases h t rfl with rfl | ⟨c, rfl⟩
      · cases hts
      · cases hts

/-- **What is closed can be taken away** before what ends a factor. -/
theorem append_inj_of_closed {ts us r s : List Token} (hts : Closed ts) (hus : Closed us)
    (hr : EndsFactor r) (hs : EndsFactor s) (h : ts ++ r = us ++ s) : ts = us ∧ r = s := by
  have hrest : ∀ {ts m : List Token}, Closed ts → Closed (ts ++ m) → Closed m := by
    intro ts m hts hm
    unfold Closed at hts hm ⊢
    rwa [depthAfter_append, hts, Option.bind_some] at hm
  rcases List.append_eq_append_iff.1 h with ⟨m, rfl, rfl⟩ | ⟨m, rfl, rfl⟩
  · obtain rfl := eq_nil_of_endsFactor hr (hrest hts hus)
    exact ⟨(List.append_nil ts).symm, rfl⟩
  · obtain rfl := eq_nil_of_endsFactor hs (hrest hus hts)
    exact ⟨List.append_nil us, rfl⟩

mutual

/-- **The grammar is unambiguous**: alternatives can be taken away before what ends them. -/
theorem Disjunction.tokens_inj : ∀ {d e : Disjunction} {r s : List Token}, EndsDisjunction r →
    EndsDisjunction s → d.tokens ++ r = e.tokens ++ s → d = e ∧ r = s
  | .one c, .one c', r, s, hr, hs, h => by
      obtain ⟨rfl, hrest⟩ := Conjunction.tokens_inj hr.endsConjunction hs.endsConjunction h
      exact ⟨rfl, hrest⟩
  | .one c, .or c' e, r, s, hr, _, h => by
      simp only [Disjunction.tokens, List.append_assoc, List.cons_append] at h
      obtain ⟨-, rfl⟩ := Conjunction.tokens_inj hr.endsConjunction (endsConjunction_any _) h
      exact (not_endsDisjunction_any _ hr).elim
  | .or c d, .one c', r, s, _, hs, h => by
      simp only [Disjunction.tokens, List.append_assoc, List.cons_append] at h
      obtain ⟨-, rfl⟩ := Conjunction.tokens_inj (endsConjunction_any _) hs.endsConjunction h
      exact (not_endsDisjunction_any _ hs).elim
  | .or c d, .or c' e, r, s, hr, hs, h => by
      simp only [Disjunction.tokens, List.append_assoc, List.cons_append] at h
      obtain ⟨rfl, hor⟩ :=
        Conjunction.tokens_inj (endsConjunction_any _) (endsConjunction_any _) h
      obtain ⟨rfl, hrest⟩ := Disjunction.tokens_inj hr hs (List.cons.inj hor).2
      exact ⟨rfl, hrest⟩

/-- Factors can be taken away before what ends them. -/
theorem Conjunction.tokens_inj : ∀ {c c' : Conjunction} {r s : List Token}, EndsConjunction r →
    EndsConjunction s → c.tokens ++ r = c'.tokens ++ s → c = c' ∧ r = s
  | .one f, .one g, r, s, hr, hs, h => by
      obtain ⟨rfl, hrest⟩ := Factor.tokens_inj hr.endsFactor hs.endsFactor h
      exact ⟨rfl, hrest⟩
  | .one f, .and g c', r, s, hr, _, h => by
      simp only [Conjunction.tokens, List.append_assoc, List.cons_append] at h
      obtain ⟨-, rfl⟩ := Factor.tokens_inj hr.endsFactor (endsFactor_connective _ _) h
      exact (not_endsConjunction_all _ hr).elim
  | .and f c, .one g, r, s, _, hs, h => by
      simp only [Conjunction.tokens, List.append_assoc, List.cons_append] at h
      obtain ⟨-, rfl⟩ := Factor.tokens_inj (endsFactor_connective _ _) hs.endsFactor h
      exact (not_endsConjunction_all _ hs).elim
  | .and f c, .and g c', r, s, hr, hs, h => by
      simp only [Conjunction.tokens, List.append_assoc, List.cons_append] at h
      obtain ⟨rfl, hand⟩ :=
        Factor.tokens_inj (endsFactor_connective _ _) (endsFactor_connective _ _) h
      obtain ⟨rfl, hrest⟩ := Conjunction.tokens_inj hr hs (List.cons.inj hand).2
      exact ⟨rfl, hrest⟩

/-- A factor can be taken away before what ends it. -/
theorem Factor.tokens_inj : ∀ {f g : Factor} {r s : List Token}, EndsFactor r → EndsFactor s →
    f.tokens ++ r = g.tokens ++ s → f = g ∧ r = s
  | .atom a, .atom b, r, s, hr, hs, h => by
      obtain ⟨htokens, hrest⟩ := append_inj_of_closed a.closed b.closed hr hs h
      rw [Atom.ext htokens]
      exact ⟨rfl, hrest⟩
  | .atom a, .group e, r, s, hr, hs, h => by
      have hcut := append_inj_of_closed a.closed (Factor.group e).closed hr hs h
      exact (a.tokens_ne_group e hcut.1).elim
  | .group d, .atom b, r, s, hr, hs, h => by
      have hcut := append_inj_of_closed (Factor.group d).closed b.closed hr hs h
      exact (b.tokens_ne_group d hcut.1.symm).elim
  | .group d, .group e, r, s, hr, hs, h => by
      obtain ⟨htokens, hrest⟩ :=
        append_inj_of_closed (Factor.group d).closed (Factor.group e).closed hr hs h
      have hinside : d.tokens ++ [.closing] = e.tokens ++ [.closing] := (List.cons.inj htokens).2
      obtain ⟨rfl, -⟩ := Disjunction.tokens_inj (endsDisjunction_closing [])
        (endsDisjunction_closing []) hinside
      exact ⟨rfl, hrest⟩

end

/-- **A text is read in one way at most.** -/
theorem Reads.unique {s : List Char} {d e : Disjunction} (hd : Reads s d) (he : Reads s e) :
    d = e := by
  have htokens : d.tokens ++ [] = e.tokens ++ [] := by
    rw [List.append_nil, List.append_nil]
    exact Option.some.inj (hd.symm.trans he)
  have hend : EndsDisjunction [] := fun _ ht => by cases ht
  exact (Disjunction.tokens_inj hend hend htokens).1

/-! ### Phrases joined -/

/-- The alternatives of two phrases. -/
def Disjunction.either : Disjunction → Disjunction → Disjunction
  | .one c, e => .or c e
  | .or c d, e => .or c (d.either e)

/-- The factors of two conjunctions. -/
def Conjunction.both : Conjunction → Conjunction → Conjunction
  | .one f, c' => .and f c'
  | .and f c, c' => .and f (c.both c')

theorem Disjunction.tokens_either : ∀ d e : Disjunction,
    (d.either e).tokens = d.tokens ++ .connective .any :: e.tokens
  | .one c, e => rfl
  | .or c d, e => by
      simp only [either, tokens, tokens_either d e, List.append_assoc, List.cons_append]

theorem Conjunction.tokens_both : ∀ c c' : Conjunction,
    (c.both c').tokens = c.tokens ++ .connective .all :: c'.tokens
  | .one f, c' => rfl
  | .and f c, c' => by
      simp only [both, tokens, tokens_both c c', List.append_assoc, List.cons_append]

theorem Disjunction.holds_either (v : Atom → Prop) : ∀ d e : Disjunction,
    (d.either e).Holds v ↔ d.Holds v ∨ e.Holds v
  | .one c, e => Iff.rfl
  | .or c d, e => by
      simp only [either, Holds, holds_either v d e, or_assoc]

theorem Conjunction.holds_both (v : Atom → Prop) : ∀ c c' : Conjunction,
    (c.both c').Holds v ↔ c.Holds v ∧ c'.Holds v
  | .one f, c' => Iff.rfl
  | .and f c, c' => by
      simp only [both, Holds, holds_both v c c', and_assoc]

/-- A phrase between parentheses. -/
def Disjunction.parenthesized (d : Disjunction) : Disjunction := .one (.one (.group d))

/-- An atom as a phrase. -/
def Disjunction.ofAtom (a : Atom) : Disjunction := .one (.one (.atom a))

/-- A phrase has no alternatives outside of parentheses. -/
def Disjunction.IsSingle (d : Disjunction) : Prop := ∃ c, d = .one c

end BoundQuery
