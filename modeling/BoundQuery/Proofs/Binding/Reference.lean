/-
**References and the entries they name.**

No two entries have the same name.  Therefore a reference leads to the value that it stands for, and
the text with every reference replaced by that value's literal is the text in which nothing was
bound.

Main definitions:

* `BoundQuery.Piece.resolved` — the text of a piece with a reference replaced by the literal of the
  value of the entry it names;
* `BoundQuery.Mark.literal` — the text of a mark with a slot replaced by the literal of its value.

Main results:

* `BoundQuery.resolved_fill` — replacing references undoes the choice of a policy.
-/

import BoundQuery.Proofs.Binding.Draft

set_option relaxedAutoImplicit false
set_option autoImplicit false

namespace BoundQuery

/-! ### What references lead to -/

/-- The text of a mark with a slot replaced by the literal of its value; what is only kept has
none. -/
def Mark.literal : Mark → List Char
  | fixed t => t
  | slot _ v => v.literal
  | kept _ _ => []

/-- The text of a piece with a reference replaced by the literal of the value of the entry it
names. -/
def Piece.resolved (t : Table) : Piece → List Char
  | fixed u => u
  | place (some name) _ => ((t.get? name).map Value.literal).getD []
  | place none v => v.literal

/-- An entry is found behind entries with lower numbers. -/
theorem lookup_entryName {pre post : List (String × Value)} {label : String} {n : Nat} {v : Value}
    (h : ∀ e ∈ pre, ∃ l k, k < n ∧ e.1 = entryName l k) :
    (pre ++ (entryName label n, v) :: post).lookup (entryName label n) = some v := by
  induction pre with
  | nil => simp
  | cons e pre ih =>
      obtain ⟨l, k, hk, he⟩ := h e (by simp)
      have hne : (entryName label n == e.1) = false := by
        rw [beq_eq_false_iff_ne]
        intro heq
        have := (entryName_inj (heq.trans he)).2
        omega
      obtain ⟨name, w⟩ := e
      rw [List.cons_append, List.lookup_cons, hne]
      exact ih fun e he => h e (by simp [he])

/-- Replacing references undoes the choice of a policy, behind entries with lower numbers. -/
theorem resolved_fill_after (p : Policy) {n : Nat} {ms : List Mark} {pre : List (String × Value)}
    (h : ∀ e ∈ pre, ∃ l k, k < n ∧ e.1 = entryName l k) :
    (fill p n ms).flatMap (Piece.resolved ⟨p, pre ++ bound p n ms⟩) = ms.flatMap Mark.literal := by
  -- the table stays the same; the entries of the marks that are done move into `pre`
  induction ms generalizing n pre with
  | nil => rfl
  | cons m ms ih =>
      have hbehind : ∀ (label : String) (v : Value),
          (fill p (n + 1) ms).flatMap
              (Piece.resolved ⟨p, pre ++ (entryName label n, v) :: bound p (n + 1) ms⟩) =
            ms.flatMap Mark.literal := by
        intro label v
        have hpre : ∀ e ∈ pre ++ [(entryName label n, v)],
            ∃ l k, k < n + 1 ∧ e.1 = entryName l k := by
          intro e he
          rcases List.mem_append.1 he with he | he
          · obtain ⟨l, k, hk, hname⟩ := h e he
            exact ⟨l, k, by omega, hname⟩
          · obtain rfl := List.mem_singleton.1 he
            exact ⟨label, n, by omega, rfl⟩
        have htail := ih hpre
        rw [List.append_assoc] at htail
        exact htail
      cases m with
      | fixed t =>
          simp only [fill, bound, List.flatMap_cons, Mark.literal, Piece.resolved, ih h]
      | slot label v =>
          by_cases hb : p.binds v.kind = true
          · have hget : Table.get? ⟨p, pre ++ (entryName label n, v) :: bound p (n + 1) ms⟩
                (entryName label n) = some v := lookup_entryName h
            simp only [fill, bound, hb, if_true, List.flatMap_cons, Mark.literal, Piece.resolved,
              hget]
            exact congrArg (v.literal ++ ·) (hbehind label v)
          · simp only [fill, bound, hb, if_false, List.flatMap_cons, Mark.literal, Piece.resolved,
              Bool.false_eq_true, ih h]
      | kept label v =>
          by_cases hb : p.binds v.kind = true
          · simp only [fill, bound, hb, if_true, List.flatMap_cons, Mark.literal]
            exact hbehind label v
          · simp only [fill, bound, hb, if_false, List.flatMap_cons, Mark.literal,
              Bool.false_eq_true, List.nil_append, ih h]

/-- **Replacing every reference by the literal of the value it leads to undoes the choice of a
policy.** -/
theorem resolved_fill (p : Policy) (ms : List Mark) :
    (fill p 0 ms).flatMap (Piece.resolved ⟨p, bound p 0 ms⟩) = ms.flatMap Mark.literal := by
  have hnone : ∀ e ∈ ([] : List (String × Value)), ∃ l k, k < 0 ∧ e.1 = entryName l k := by simp
  exact resolved_fill_after p hnone

end BoundQuery
