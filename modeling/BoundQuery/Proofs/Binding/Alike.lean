/-
**Marks that differ in bound values.**

Under a policy two values are alike when they are equal or both bound.  Marks that hold alike values
are filled with the same texts and have entries with the same names, since a value that is bound
only leaves its place in the order of the entries.

Main definitions:

* `BoundQuery.Value.Alike` — two values are equal or both bound;
* `BoundQuery.Mark.Alike`, `BoundQuery.Action.Alike` — two marks and two actions differ in such
  values only.

Main results:

* `BoundQuery.map_text_fill`, `BoundQuery.map_fst_bound` — alike marks have the same texts and the
  same names;
* `BoundQuery.alike_flatMap` — alike blocks add alike marks and the same packages.
-/

import BoundQuery.Proofs.Binding.Draft
import Mathlib.Data.List.Forall2

set_option relaxedAutoImplicit false
set_option autoImplicit false

namespace BoundQuery

variable {p : Policy}

/-! ### Values and marks -/

/-- Two values are equal, or the policy binds both. -/
def Value.Alike (p : Policy) (v w : Value) : Prop :=
  v = w ∨ (p.binds v.kind = true ∧ p.binds w.kind = true)

theorem Value.Alike.refl (v : Value) : v.Alike p v := Or.inl rfl

/-- Two marks are the same fixed text, or slots for alike values under the same label. -/
inductive Mark.Alike (p : Policy) : Mark → Mark → Prop where
  | fixed (t : List Char) : Alike p (.fixed t) (.fixed t)
  | slot (label : String) {v w : Value} (h : v.Alike p w) :
      Alike p (.slot label v) (.slot label w)

/-- Alike marks are filled with the same texts. -/
theorem map_text_fill {ms ms' : List Mark} (h : List.Forall₂ (Mark.Alike p) ms ms') (n : Nat) :
    (fill p n ms).map Piece.text = (fill p n ms').map Piece.text := by
  induction h generalizing n with
  | nil => rfl
  | cons hm _ ih =>
      cases hm with
      | fixed t => simp only [fill, List.map_cons, ih]
      | slot label hv =>
          rcases hv with rfl | ⟨hb, hb'⟩
          · simp only [fill]
            split
            · simp only [List.map_cons, ih]
            · simp only [List.map_cons, ih]
          -- the text is the name of an entry, in which only the label and the count occur
          · simp only [fill, hb, hb', if_true, List.map_cons, Piece.text, ih]

/-- Alike marks have entries with the same names. -/
theorem map_fst_bound {ms ms' : List Mark} (h : List.Forall₂ (Mark.Alike p) ms ms') (n : Nat) :
    (bound p n ms).map Prod.fst = (bound p n ms').map Prod.fst := by
  induction h generalizing n with
  | nil => rfl
  | cons hm _ ih =>
      cases hm with
      | fixed t => simp only [bound, ih]
      | slot label hv =>
          rcases hv with rfl | ⟨hb, hb'⟩
          · simp only [bound]
            split
            · simp only [List.map_cons, ih]
            · exact ih n
          · simp only [bound, hb, hb', if_true, List.map_cons, ih]

/-! ### Actions and blocks -/

/-- Two actions write the same text, place alike values under the same label or ask for the same
package, or both fail. -/
inductive Action.Alike (p : Policy) : Action → Action → Prop where
  | write (t : List Char) : Alike p (.write t) (.write t)
  | place (label : String) {v w : Value} (h : v.Alike p w) :
      Alike p (.place label v) (.place label w)
  | give (label : String) {v w : Value} (h : v.Alike p w) :
      Alike p (.give label (.value v)) (.give label (.value w))
  | require (q : Package) : Alike p (.require q) (.require q)
  | fail (e e' : Error) : Alike p (.fail e) (.fail e')

/-- Alike actions none of which fails add alike marks. -/
theorem Action.Alike.marks {a a' : Action} (h : a.Alike p a') (ha : a.error? = none)
    (ha' : a'.error? = none) : List.Forall₂ (Mark.Alike p) a.marks a'.marks := by
  cases h with
  | write t => exact .cons (.fixed t) .nil
  | place label h => exact .cons (.slot label h) .nil
  | @give label v w h =>
      have hresolve : ∀ u : Value, (Action.give label (.value u)).error? = none →
          (Action.give label (.value u)).marks = [.slot label u] := by
        intro u hu
        rw [error?] at hu
        rw [Action.marks]
        cases hu' : (Given.value u).resolve with
        | error e =>
            rw [hu'] at hu
            cases hu
        | ok u' =>
            obtain ⟨-, rfl⟩ := Value.checked_eq_ok_iff.1 hu'
            rfl
      rw [hresolve v ha, hresolve w ha']
      exact .cons (.slot label h) .nil
  | require q => exact .nil
  | fail e e' => exact .nil

theorem Action.Alike.packages {a a' : Action} (h : a.Alike p a') : a.packages = a'.packages := by
  cases h <;> rfl

/-- Alike blocks none of whose actions fails add alike marks and the same packages. -/
theorem alike_flatMap {b b' : Block} (h : List.Forall₂ (Action.Alike p) b b')
    (hb : b.findSome? Action.error? = none) (hb' : b'.findSome? Action.error? = none) :
    List.Forall₂ (Mark.Alike p) (b.flatMap Action.marks) (b'.flatMap Action.marks) ∧
      b.flatMap Action.packages = b'.flatMap Action.packages := by
  rw [List.findSome?_eq_none_iff] at hb hb'
  induction h with
  | nil => exact ⟨.nil, rfl⟩
  | cons ha _ ih =>
      obtain ⟨hmarks, hpackages⟩ := ih (fun a hmem => hb a (List.mem_cons_of_mem _ hmem))
        (fun a hmem => hb' a (List.mem_cons_of_mem _ hmem))
      rw [List.flatMap_cons, List.flatMap_cons, List.flatMap_cons, List.flatMap_cons,
        ha.packages, hpackages]
      exact ⟨List.rel_append (ha.marks (hb _ List.mem_cons_self) (hb' _ List.mem_cons_self)) hmarks,
        rfl⟩

end BoundQuery
