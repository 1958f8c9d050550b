/-
**Searching by halves.**

A row is searched by asking its member in the middle whether it stands before the sought place or
behind it.  The answer holds of the whole half on that side only because the row is ordered: nothing
behind the sought place is followed by a member that stands before it.

Main definitions:

* `BoundQuery.Ordered` — what stands before the sought place comes before what stands behind it;
* `BoundQuery.Brackets` — the sought place is between two others.

Main results:

* `BoundQuery.search_spec` — halving keeps the sought place between the two ends;
* `BoundQuery.exists_of_search_ok`, `BoundQuery.exists_of_search_error` — what a search says of the
  members before and behind the place at which it ends.
-/

import BoundQuery.Duration.Row

set_option relaxedAutoImplicit false
set_option autoImplicit false

namespace BoundQuery

section Search

variable {α : Type} {order : α → Ordering} {row : List α} {first last : Nat}

/-- What stands before the sought place comes before what stands behind it. -/
def Ordered (order : α → Ordering) (row : List α) : Prop :=
  row.Pairwise fun a b => order a = .lt ∨ order b = .gt

/-- The sought place is none of those before the first of two places or from the last one on. -/
structure Brackets (order : α → Ordering) (row : List α) (first last : Nat) : Prop where
  before : ∀ i (h : i < row.length), i < first → order row[i] = .lt
  behind : ∀ i (h : i < row.length), last ≤ i → order row[i] = .gt

/-- A member before the sought place has only such members before it. -/
theorem Ordered.before (h : Ordered order row) {i j : Nat} (hi : i < row.length) (hij : j ≤ i)
    (hlt : order row[i] = .lt) : order row[j] = .lt := by
  rcases Nat.lt_or_eq_of_le hij with hj | rfl
  · rcases List.pairwise_iff_getElem.1 h j i (by omega) hi hj with hbefore | hbehind
    · exact hbefore
    · rw [hlt] at hbehind
      cases hbehind
  · exact hlt

/-- A member behind the sought place has only such members behind it. -/
theorem Ordered.behind (h : Ordered order row) {i j : Nat} (hj : j < row.length) (hij : i ≤ j)
    (hgt : order row[i] = .gt) : order row[j] = .gt := by
  rcases Nat.lt_or_eq_of_le hij with hi | rfl
  · rcases List.pairwise_iff_getElem.1 h i j (by omega) hj hi with hbefore | hbehind
    · rw [hgt] at hbefore
      cases hbefore
    · exact hbehind
  · exact hgt

/-- **Halving keeps the sought place between the two ends.**  It ends at a member that stands there,
or with both ends at the place where such a member belongs. -/
theorem search_spec (hrow : Ordered order row) (hlast : last ≤ row.length) (hle : first ≤ last)
    (h : Brackets order row first last) :
    (∀ i, search order row first last hlast = .ok i → order row[i] = .eq) ∧
    ∀ i, search order row first last hlast = .error i →
      i ≤ row.length ∧ Brackets order row i i := by
  fun_induction search order row first last hlast with
  | case1 first last hlast hlt middle hmiddle heq ih =>
      refine ih (by omega) ⟨fun i hi hif => ?_, h.behind⟩
      exact hrow.before (by omega) (Nat.le_of_lt_succ hif) heq
  | case2 first last hlast hlt middle hmiddle heq =>
      constructor
      · intro i hi
        cases hi
        exact heq
      · intro i hi
        cases hi
  | case3 first last hlast hlt middle hmiddle heq ih =>
      refine ih (by omega) ⟨h.before, fun i hi hif => ?_⟩
      exact hrow.behind hi hif heq
  | case4 first last hlast hlt =>
      constructor
      · intro i hi
        cases hi
      · intro i hi
        cases hi
        have hends : last = first := by omega
        subst hends
        exact ⟨hlast, h⟩

/-- Before the search nothing is excluded. -/
theorem brackets_ends (order : α → Ordering) (row : List α) : Brackets order row 0 row.length :=
  ⟨fun _ _ h => by omega, fun _ h hle => by omega⟩

/-- What a search finds parts the row into what stands before it and what stands behind it. -/
theorem exists_of_search_ok (hrow : Ordered order row) {i : Fin row.length}
    (h : search order row 0 row.length (Nat.le_refl _) = .ok i) :
    ∃ before behind, row = before ++ [row[i]] ++ behind ∧ order row[i] = .eq ∧
      (∀ a ∈ before, order a = .lt) ∧ (∀ a ∈ behind, order a = .gt) ∧
      ∀ a, row.set i a = before ++ a :: behind := by
  have heq := (search_spec hrow (Nat.le_refl _) (Nat.zero_le _) (brackets_ends order row)).1 i h
  have hsplit : row = row.take i ++ row[i] :: row.drop (i + 1) := by
    rw [Fin.getElem_fin, ← List.drop_eq_getElem_cons i.isLt, List.take_append_drop]
  have hparts := hrow
  unfold Ordered at hparts
  rw [hsplit, List.pairwise_append, List.pairwise_cons] at hparts
  obtain ⟨-, ⟨hbehind, -⟩, hbefore⟩ := hparts
  refine ⟨row.take i, row.drop (i + 1), by simp, heq, fun a ha => ?_,
    fun a ha => ?_, fun a => ?_⟩
  · rcases hbefore a ha row[i] List.mem_cons_self with hlt | hgt
    · exact hlt
    · rw [heq] at hgt
      cases hgt
  · rcases hbehind a ha with hlt | hgt
    · rw [heq] at hlt
      cases hlt
    · exact hgt
  · rw [List.set_eq_take_append_cons_drop, if_pos i.isLt]

/-- An insertion parts a row into what stands before the place and the rest. -/
theorem insertIdx_eq_take_append_drop {i : Nat} (h : i ≤ row.length) (a : α) :
    row.insertIdx i a = row.take i ++ a :: row.drop i := by
  induction row generalizing i with
  | nil =>
      obtain rfl : i = 0 := Nat.le_zero.1 h
      rfl
  | cons b row ih =>
      cases i with
      | zero => rfl
      | succ i => simp [ih (Nat.le_of_succ_le_succ h)]

/-- Where a search finds nothing it parts the row likewise. -/
theorem exists_of_search_error (hrow : Ordered order row) {i : Nat}
    (h : search order row 0 row.length (Nat.le_refl _) = .error i) :
    ∃ before behind, row = before ++ behind ∧ (∀ a ∈ before, order a = .lt) ∧
      (∀ a ∈ behind, order a = .gt) ∧ ∀ a, row.insertIdx i a = before ++ a :: behind := by
  obtain ⟨hi, hends⟩ :=
    (search_spec hrow (Nat.le_refl _) (Nat.zero_le _) (brackets_ends order row)).2 i h
  refine ⟨row.take i, row.drop i, (List.take_append_drop i row).symm, fun a ha => ?_,
    fun a ha => ?_, insertIdx_eq_take_append_drop hi⟩
  · obtain ⟨j, hj, rfl⟩ := List.mem_take_iff_getElem.1 ha
    exact hends.before j (by omega) (by omega)
  · obtain ⟨j, hj, rfl⟩ := List.mem_drop_iff_getElem.1 ha
    exact hends.behind (i + j) (by omega) (by omega)

end Search

end BoundQuery
