/-
**Marks that cannot be told apart.**

Two lists of marks look the same under a policy when they are filled with the same text and have
the same entries.  What they begin with can then be compared and taken away from both: fixed text
by its characters, and slots because a literal ends where a boundary follows, while a reference
begins as no literal does and names an entry that holds its value.

Main definitions:

* `BoundQuery.Scanner.BeginsNoLiteral` — no literal begins with a character;
* `BoundQuery.SameFrom` — two lists of marks have the same text and the same entries.

Main results:

* `BoundQuery.append_inj_of_forall` — runs of characters of one class can be taken away;
* `BoundQuery.SameFrom.slot_inj` — slots can be taken away, and hold the same value;
* `BoundQuery.SameFrom.not_slot_fixed` — a slot does not look like a column or a parenthesis.
-/

import BoundQuery.Proofs.Binding.Reference
import BoundQuery.Proofs.Value.ReadBack

set_option relaxedAutoImplicit false
set_option autoImplicit false

namespace BoundQuery

open Scanner (AtBoundary)

/-! ### Runs of characters -/

/-- Runs of characters of one class, behind which there is another character or nothing, can be
taken away from both sides of an equation. -/
theorem append_inj_of_forall {P : Char → Prop} {a b r s : List Char} (ha : ∀ c ∈ a, P c)
    (hb : ∀ c ∈ b, P c) (hr : ∀ c ∈ r.head?, ¬P c) (hs : ∀ c ∈ s.head?, ¬P c)
    (h : a ++ r = b ++ s) : a = b ∧ r = s := by
  induction a generalizing b with
  | nil =>
      cases b with
      | nil => exact ⟨rfl, h⟩
      | cons d b =>
          rw [List.nil_append] at h
          subst h
          exact absurd (hb d (by simp)) (hr d rfl)
  | cons c a ih =>
      cases b with
      | nil =>
          rw [List.nil_append] at h
          subst h
          exact absurd (ha c (by simp)) (hs c rfl)
      | cons d b =>
          obtain ⟨rfl, htail⟩ := List.cons.inj h
          obtain ⟨rfl, hrs⟩ := ih (fun c hc => ha c (by simp [hc]))
            (fun c hc => hb c (by simp [hc])) htail
          exact ⟨rfl, hrs⟩

/-! ### Texts and entries -/

/-- Two lists of marks have the same text and the same entries. -/
structure SameFrom (p : Policy) (n : Nat) (ms ms' : List Mark) : Prop where
  text : filledText p n ms = filledText p n ms'
  entries : bound p n ms = bound p n ms'

variable {p : Policy} {n : Nat} {ms ms' : List Mark} {t : List Char}

theorem filledText_fixed : filledText p n (.fixed t :: ms) = t ++ filledText p n ms := rfl

theorem filledText_slot_bound {label : String} {v : Value} (h : p.binds v.kind = true) :
    filledText p n (.slot label v :: ms) =
      "params.".toList ++ ((entryName label n).toList ++ filledText p (n + 1) ms) := by
  simp only [filledText, fill, h, if_true]
  rfl

theorem filledText_slot_free {label : String} {v : Value} (h : p.binds v.kind = false) :
    filledText p n (.slot label v :: ms) = v.literal ++ filledText p n ms := by
  simp only [filledText, fill, h, Bool.false_eq_true, if_false]
  rfl

theorem bound_slot_bound {label : String} {v : Value} (h : p.binds v.kind = true) :
    bound p n (.slot label v :: ms) = (entryName label n, v) :: bound p (n + 1) ms := by
  simp only [bound, h, if_true]

theorem bound_slot_free {label : String} {v : Value} (h : p.binds v.kind = false) :
    bound p n (.slot label v :: ms) = bound p n ms := by
  simp only [bound, h, Bool.false_eq_true, if_false]

/-! ### What literals do not begin with -/

/-- No literal begins with the character. -/
def Scanner.BeginsNoLiteral (c : Char) : Prop := BeginsNoWord c ∧ c ≠ '"' ∧ c ≠ '/'

instance (c : Char) : Decidable (Scanner.BeginsNoLiteral c) := by
  unfold Scanner.BeginsNoLiteral
  infer_instance

theorem Scanner.literal_refuses {c : Char} (h : BeginsNoLiteral c) (s : List Char)
    (r : Value × List Char) : literal (c :: s) ≠ .ok r := by
  intro hread
  obtain ⟨hword, hquote, hslash⟩ := h
  obtain ⟨f, hf⟩ := LiteralForm.exists_of_literal hread
  obtain ⟨g, hform, -, -⟩ := LiteralForm.exists_ofText_eq hf
  rw [LiteralForm.ofText_of_beginsNoWord hword hquote hslash] at hform
  cases hform

namespace Value

/-- A value that is not bound is no pattern. -/
theorem LeapLegible.legible {v : Value} (h : v.LeapLegible) (hfree : p.binds v.kind = false) :
    v.Legible := by
  cases v with
  | instant t => exact h t rfl
  | pattern q =>
      rw [kind, p.binds_pattern] at hfree
      cases hfree
  | _ => trivial

theorem literal_append_ne {v : Value} (hv : v.HasLiteral) (hlegible : v.Legible) {r : List Char}
    (hr : AtBoundary r) {c : Char} (h : Scanner.BeginsNoLiteral c) (s : List Char) :
    v.literal ++ r ≠ c :: s := by
  intro heq
  have hread := Scanner.literal_append hv hlegible hr
  rw [heq] at hread
  exact Scanner.literal_refuses h s _ hread

end Value

namespace SameFrom

theorem symm (h : SameFrom p n ms ms') : SameFrom p n ms' ms := ⟨h.text.symm, h.entries.symm⟩

/-- The same fixed text can be taken away. -/
theorem fixed_inj (h : SameFrom p n (.fixed t :: ms) (.fixed t :: ms')) : SameFrom p n ms ms' :=
  ⟨List.append_cancel_left h.text, h.entries⟩

/-- Fixed texts that begin with different characters are told apart. -/
theorem not_fixed_fixed {c d : Char} (hne : c ≠ d) {t u : List Char}
    (h : SameFrom p n (.fixed (c :: t) :: ms) (.fixed (d :: u) :: ms')) : False :=
  hne (List.cons.inj h.text).1

/-- A slot does not look like fixed text that begins neither as a reference nor as a literal. -/
theorem not_slot_fixed {label : String} {v : Value} (hv : v.HasLiteral) (hleap : v.LeapLegible)
    (hms : ∀ k, AtBoundary (filledText p k ms)) {c : Char} (hc : Scanner.BeginsNoLiteral c)
    (hp : 'p' ≠ c) (h : SameFrom p n (.slot label v :: ms) (.fixed (c :: t) :: ms')) : False := by
  have htext := h.text
  cases hb : p.binds v.kind with
  | true =>
      rw [filledText_slot_bound hb] at htext
      exact hp (List.cons.inj htext).1
  | false =>
      rw [filledText_slot_free hb] at htext
      exact Value.literal_append_ne hv (hleap.legible hb) (hms n) hc _ htext

/-- A bound slot does not look like one that is not bound. -/
theorem not_bound_free {label label' : String} {v v' : Value} (hv' : v'.HasLiteral)
    (hleap' : v'.LeapLegible) (hms' : ∀ k, AtBoundary (filledText p k ms'))
    (hb : p.binds v.kind = true) (hb' : p.binds v'.kind = false)
    (h : SameFrom p n (.slot label v :: ms) (.slot label' v' :: ms')) : False := by
  have htext := h.text
  rw [filledText_slot_bound hb, filledText_slot_free hb'] at htext
  exact Value.literal_append_ne hv' (hleap'.legible hb') (hms' n) (by decide) _ htext.symm

/-- **Slots can be taken away, and hold the same value.**  The label is the same where the value is
bound. -/
theorem slot_inj {label label' : String} {v v' : Value} (hv : v.HasLiteral) (hv' : v'.HasLiteral)
    (hleap : v.LeapLegible) (hleap' : v'.LeapLegible)
    (hms : ∀ k, AtBoundary (filledText p k ms)) (hms' : ∀ k, AtBoundary (filledText p k ms'))
    (h : SameFrom p n (.slot label v :: ms) (.slot label' v' :: ms')) :
    v = v' ∧ (p.binds v.kind = true → label = label') ∧ ∃ k, SameFrom p k ms ms' := by
  cases hb : p.binds v.kind with
  | true =>
      cases hb' : p.binds v'.kind with
      | false => exact (not_bound_free hv' hleap' hms' hb hb' h).elim
      | true =>
          have hentries := h.entries
          have htext := h.text
          rw [bound_slot_bound hb, bound_slot_bound hb'] at hentries
          rw [filledText_slot_bound hb, filledText_slot_bound hb'] at htext
          obtain ⟨hentry, hrest⟩ := List.cons.inj hentries
          obtain ⟨hname, rfl⟩ := Prod.mk.inj hentry
          obtain ⟨rfl, -⟩ := entryName_inj hname
          have htail := List.append_cancel_left (List.append_cancel_left htext)
          exact ⟨rfl, fun _ => rfl, n + 1, htail, hrest⟩
  | false =>
      cases hb' : p.binds v'.kind with
      | true => exact (not_bound_free hv hleap hms hb' hb h.symm).elim
      | false =>
          have hentries := h.entries
          have htext := h.text
          rw [bound_slot_free hb, bound_slot_free hb'] at hentries
          rw [filledText_slot_free hb, filledText_slot_free hb'] at htext
          obtain ⟨rfl, htail⟩ := Value.literal_append_inj hv hv' (hleap.legible hb)
            (hleap'.legible hb') (hms n) (hms' n) htext
          exact ⟨rfl, fun hf => absurd hf (by decide), n, htail, hentries⟩

end SameFrom

end BoundQuery
