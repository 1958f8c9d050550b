/-
**Sums of amounts.**

Amounts are added to a duration one after the other, and there is one amount per unit: what is left
are the sums, whatever the order.  A step fails only where a sum is too much, and a sum that is too
much stays so, hence adding fails as a whole exactly when one of the sums does not fit.

Main definitions:

* `BoundQuery.Duration.amountIn` — how much of a unit there is in amounts that follow each other.

Main results:

* `BoundQuery.Duration.foldlM_add_eq_ok_iff`, `BoundQuery.Duration.exists_foldlM_add_iff` — what
  adding amounts to a duration leaves, and when they can be added;
* `BoundQuery.Duration.ofAmounts_eq_ok_iff` — amounts can be added up exactly when every sum fits,
  and leave the sums;
* `BoundQuery.Duration.amountIn_components` — the components of a duration hold its amounts;
* `BoundQuery.Duration.withSign_eq_iff`, `BoundQuery.Duration.exists_withSign_iff` — what a sign
  makes of a duration without one, and of amounts that are added up.
-/

import BoundQuery.Duration.Basic

set_option relaxedAutoImplicit false
set_option autoImplicit false

namespace BoundQuery

namespace Duration

/-! ### Sums of amounts -/

/-- How much of a unit there is in amounts that follow each other. -/
def amountIn : List (Nat × TimeUnit) → TimeUnit → Nat
  | [], _ => 0
  | (n, v) :: parts, u => (if u = v then n else 0) + amountIn parts u

/-- No amount is more than there is of its unit. -/
theorem le_amountIn {parts : List (Nat × TimeUnit)} {p : Nat × TimeUnit} (h : p ∈ parts) :
    p.1 ≤ amountIn parts p.2 := by
  induction parts with
  | nil => cases h
  | cons q parts ih =>
      rw [amountIn]
      rcases List.mem_cons.1 h with rfl | h
      · rw [if_pos rfl]
        exact Nat.le_add_right _ _
      · exact Nat.le_trans (ih h) (Nat.le_add_left _ _)

/-- There is nothing of any unit exactly when no amount is anything. -/
theorem amountIn_eq_zero_iff {parts : List (Nat × TimeUnit)} :
    (∀ u, amountIn parts u = 0) ↔ ∀ p ∈ parts, p.1 = 0 := by
  constructor
  · intro h p hp
    exact Nat.le_zero.1 (h p.2 ▸ le_amountIn hp)
  · intro h u
    induction parts with
    | nil => rfl
    | cons p parts ih =>
        obtain ⟨hp, hparts⟩ := List.forall_mem_cons.1 h
        rw [amountIn, hp, ih hparts, ite_self]

theorem add_eq_ok {d : Duration} {n : Nat} {u : TimeUnit} (h : d.amount u + n ≤ maxAmount) :
    ∃ e, d.add n u = .ok e ∧ e.negative = d.negative := by
  unfold add
  rw [dif_pos h]
  exact ⟨_, rfl, rfl⟩

/-- Amounts whose sums fit can be added one after the other, and leave the sums. -/
theorem foldlM_add {parts : List (Nat × TimeUnit)} {d : Duration}
    (h : ∀ u, d.amount u + amountIn parts u ≤ maxAmount) :
    ∃ e, parts.foldlM (fun d p => d.add p.1 p.2) d = .ok e ∧ e.negative = d.negative ∧
      ∀ u, e.amount u = d.amount u + amountIn parts u := by
  induction parts generalizing d with
  | nil => exact ⟨d, rfl, rfl, fun _ => rfl⟩
  | cons p parts ih =>
      obtain ⟨n, v⟩ := p
      have hv : d.amount v + n ≤ maxAmount := by
        have := h v
        simp only [amountIn, if_true] at this
        omega
      obtain ⟨d', hadd, hneg⟩ := add_eq_ok hv
      have hsum : ∀ u, d'.amount u + amountIn parts u =
          d.amount u + amountIn ((n, v) :: parts) u := fun u => by
        rw [add_amount hadd u, amountIn, Nat.add_assoc]
      obtain ⟨e, hfold, hneg', hamount⟩ := ih fun u => (hsum u).symm ▸ h u
      refine ⟨e, ?_, hneg'.trans hneg, fun u => (hamount u).trans (hsum u)⟩
      rw [List.foldlM_cons]
      simp only [hadd]
      exact hfold

/-- Amounts that were added one after the other have left the sums. -/
theorem amount_of_foldlM_add {parts : List (Nat × TimeUnit)} {d e : Duration}
    (h : parts.foldlM (fun d p => d.add p.1 p.2) d = .ok e) (u : TimeUnit) :
    e.amount u = d.amount u + amountIn parts u := by
  induction parts generalizing d with
  | nil =>
      cases h
      rfl
  | cons p parts ih =>
      obtain ⟨n, v⟩ := p
      rw [List.foldlM_cons] at h
      cases hadd : d.add n v with
      | error f =>
          rw [hadd] at h
          cases h
      | ok d' =>
          rw [hadd] at h
          rw [ih h, add_amount hadd u, amountIn, Nat.add_assoc]

/-- **What adding amounts to a duration gives**: its sign, and its own amounts and the sums. -/
theorem foldlM_add_eq_ok_iff {parts : List (Nat × TimeUnit)} {d e : Duration} :
    parts.foldlM (fun d p => d.add p.1 p.2) d = .ok e ↔
      e.negative = d.negative ∧ ∀ u, e.amount u = d.amount u + amountIn parts u := by
  constructor
  · intro h
    have hamount := amount_of_foldlM_add h
    obtain ⟨e', hfold, hneg, -⟩ := foldlM_add fun u => hamount u ▸ e.amount_le u
    cases hfold.symm.trans h
    exact ⟨hneg, hamount⟩
  · rintro ⟨hneg, hamount⟩
    obtain ⟨e', hfold, hneg', hamount'⟩ := foldlM_add fun u => hamount u ▸ e.amount_le u
    have he : e' = e := ext (hneg'.trans hneg.symm) fun u => (hamount' u).trans (hamount u).symm
    exact he ▸ hfold

/-- Amounts can be added to a duration exactly when every sum fits with what there is. -/
theorem exists_foldlM_add_iff {parts : List (Nat × TimeUnit)} {d : Duration} :
    (∃ e, parts.foldlM (fun d p => d.add p.1 p.2) d = .ok e) ↔
      ∀ u, d.amount u + amountIn parts u ≤ maxAmount := by
  constructor
  · rintro ⟨e, he⟩ u
    exact amount_of_foldlM_add he u ▸ e.amount_le u
  · intro h
    obtain ⟨e, he, -⟩ := foldlM_add h
    exact ⟨e, he⟩

theorem zero_amount_add (parts : List (Nat × TimeUnit)) (u : TimeUnit) :
    zero.amount u + amountIn parts u = amountIn parts u := Nat.zero_add _

/-- **Amounts can be added up exactly when every sum fits**, and leave the sums. -/
theorem ofAmounts_eq_ok_iff {parts : List (Nat × TimeUnit)} {d : Duration} :
    ofAmounts parts = .ok d ↔ d.negative = false ∧ ∀ u, d.amount u = amountIn parts u := by
  unfold ofAmounts
  rw [foldlM_add_eq_ok_iff]
  simp only [zero_amount_add]
  rfl

theorem exists_ofAmounts_iff {parts : List (Nat × TimeUnit)} :
    (∃ d, ofAmounts parts = .ok d) ↔ ∀ u, amountIn parts u ≤ maxAmount := by
  unfold ofAmounts
  rw [exists_foldlM_add_iff]
  simp only [zero_amount_add]

/-- The order of amounts does not matter for their sums. -/
theorem amountIn_perm {parts parts' : List (Nat × TimeUnit)} (h : parts.Perm parts')
    (u : TimeUnit) : amountIn parts u = amountIn parts' u := by
  induction h with
  | nil => rfl
  | cons p _ ih => simp only [amountIn, ih]
  | swap p q parts =>
      simp only [amountIn]
      omega
  | trans _ _ ih ih' => exact ih.trans ih'

/-! ### Components -/

/-- A component is a unit that occurs, with its amount. -/
theorem eq_of_component {d : Duration} {u : TimeUnit} {c : TimeUnit × Nat}
    (h : (if d.amount u = 0 then none else some (u, d.amount u)) = some c) :
    c = (u, d.amount u) ∧ 0 < d.amount u := by
  split at h
  · cases h
  · next hz =>
      cases h
      exact ⟨rfl, Nat.pos_of_ne_zero hz⟩

theorem mem_components_iff {d : Duration} {c : TimeUnit × Nat} :
    c ∈ d.components ↔ d.amount c.1 ≠ 0 ∧ c.2 = d.amount c.1 := by
  constructor
  · intro h
    obtain ⟨u, -, hu⟩ := List.mem_filterMap.1 h
    obtain ⟨rfl, hpos⟩ := eq_of_component hu
    exact ⟨Nat.ne_of_gt hpos, rfl⟩
  · rintro ⟨hne, hc⟩
    refine List.mem_filterMap.2 ⟨c.1, TimeUnit.mem_all c.1, ?_⟩
    rw [if_neg hne, ← hc]

/-- A duration has given amounts exactly when its components are those that are not zero. -/
theorem amount_eq_iff {d : Duration} {amounts : TimeUnit → Nat} : (∀ u, d.amount u = amounts u) ↔
    ∀ c, c ∈ d.components ↔ amounts c.1 ≠ 0 ∧ c.2 = amounts c.1 := by
  constructor
  · intro h c
    rw [mem_components_iff, h]
  · intro h u
    have hd := h (u, d.amount u)
    have hsum := h (u, amounts u)
    rw [mem_components_iff] at hd hsum
    dsimp only at hd hsum
    omega

theorem amount_le_of_mem {d : Duration} {c : TimeUnit × Nat} (h : c ∈ d.components) :
    c.2 ≤ maxAmount := by
  rw [(mem_components_iff.1 h).2]
  exact d.amount_le c.1

/-- The units among `us` that occur, with their amounts. -/
def componentsAmong (d : Duration) (us : List TimeUnit) : List (TimeUnit × Nat) :=
  us.filterMap fun u => if d.amount u = 0 then none else some (u, d.amount u)

theorem amountIn_componentsAmong (d : Duration) {us : List TimeUnit} (h : us.Nodup)
    (u : TimeUnit) : amountIn ((d.componentsAmong us).map Prod.swap) u =
      if u ∈ us then d.amount u else 0 := by
  induction us with
  | nil => rfl
  | cons v us ih =>
      obtain ⟨hv, hus⟩ := List.nodup_cons.1 h
      have ih := ih hus
      unfold componentsAmong at ih ⊢
      by_cases hz : d.amount v = 0
      · rw [List.filterMap_cons_none (by simp [hz]), ih]
        by_cases huv : u = v
        · subst huv
          simp [hv, hz]
        · simp [huv]
      · rw [List.filterMap_cons_some (b := (v, d.amount v)) (by simp [hz]), List.map_cons,
          Prod.swap_prod_mk, amountIn, ih]
        by_cases huv : u = v
        · subst huv
          simp [hv]
        · simp [huv]

/-- The components of a duration hold its amounts. -/
theorem amountIn_components (d : Duration) (u : TimeUnit) :
    amountIn (d.components.map Prod.swap) u = d.amount u := by
  have hnodup : TimeUnit.all.Nodup := by decide
  have h := amountIn_componentsAmong d hnodup u
  rw [if_pos (TimeUnit.mem_all u)] at h
  exact h

theorem components_ne_nil {d : Duration} (h : d.isZero = false) : d.components ≠ [] := by
  intro hnil
  have hz : d.isZero = true := by
    rw [isZero_iff]
    intro u
    rw [← amountIn_components d u, hnil]
    rfl
  rw [h] at hz
  cases hz

/-- A duration in which no unit occurs is no time, which has no sign. -/
theorem eq_zero_of_isZero {d : Duration} (h : d.isZero = true) : d = zero := by
  have hamount : ∀ u, d.amount u = 0 := (isZero_iff d).1 h
  have hneg : d.negative = false := by
    rw [Bool.eq_false_iff]
    intro hd
    obtain ⟨u, hu⟩ := d.nonzero_of_negative hd
    exact hu (hamount u)
  exact ext hneg hamount

/-- No time is zero seconds. -/
theorem ofAmounts_zeroSeconds : ofAmounts [(0, .second)] = .ok zero := by
  refine congrArg Except.ok (ext rfl fun u => ?_)
  cases u <;> rfl

/-- The amounts of a duration, added up, are the duration without its sign. -/
theorem ofAmounts_components (d : Duration) : ∃ e, ofAmounts (d.components.map Prod.swap) = .ok e ∧
    e.negative = false ∧ ∀ u, e.amount u = d.amount u := by
  have hsum : ∀ u, amountIn (d.components.map Prod.swap) u = d.amount u := amountIn_components d
  obtain ⟨e, he⟩ := exists_ofAmounts_iff.2 fun u => hsum u ▸ d.amount_le u
  obtain ⟨hneg, hamount⟩ := ofAmounts_eq_ok_iff.1 he
  exact ⟨e, he, hneg, fun u => (hamount u).trans (hsum u)⟩

/-! ### Signs -/

@[simp] theorem withSign_amount (negative : Bool) (d : Duration) (u : TimeUnit) :
    (d.withSign negative).amount u = d.amount u := by
  cases negative <;> rfl

/-- A sign that is set on no time is lost. -/
theorem withSign_negative {d : Duration} (h : d.negative = false) (negative : Bool) :
    (d.withSign negative).negative = (negative && !d.isZero) := by
  cases negative with
  | false => exact h
  | true =>
      change (!d.negative && !d.isZero) = (true && !d.isZero)
      rw [h]
      rfl

/-- A sign stands before a duration that is not zero. -/
theorem negative_eq (d : Duration) : d.negative = (d.negative && !d.isZero) := by
  cases hneg : d.negative with
  | false => rfl
  | true =>
      obtain ⟨u, hu⟩ := d.nonzero_of_negative hneg
      have hz : d.isZero = false := Bool.eq_false_iff.2 fun hz => hu ((isZero_iff d).1 hz u)
      rw [hz]
      rfl

/-- What a sign makes of a duration without one. -/
theorem withSign_eq_iff {d e : Duration} (h : e.negative = false) {negative : Bool} :
    e.withSign negative = d ↔
      (∀ u, d.amount u = e.amount u) ∧ d.negative = (negative && !d.isZero) := by
  have hzero : (∀ u, d.amount u = e.amount u) → d.isZero = e.isZero := by
    intro hamount
    rw [Bool.eq_iff_iff, isZero_iff, isZero_iff]
    simp only [hamount]
  constructor
  · rintro rfl
    have hamount := withSign_amount negative e
    refine ⟨hamount, ?_⟩
    rw [hzero hamount, withSign_negative h]
  · rintro ⟨hamount, hneg⟩
    refine ext ?_ fun u => (withSign_amount negative e u).trans (hamount u).symm
    rw [withSign_negative h, hneg, hzero hamount]

/-- **What amounts with a sign make**: their sums, and the sign unless all of them are zero. -/
theorem exists_withSign_iff {negative : Bool} {parts : List (Nat × TimeUnit)} {d : Duration} :
    (∃ e, ofAmounts parts = .ok e ∧ e.withSign negative = d) ↔
      (∀ u, d.amount u = amountIn parts u) ∧ d.negative = (negative && !d.isZero) := by
  constructor
  · rintro ⟨e, hsum, hsign⟩
    obtain ⟨hneg, hamount⟩ := ofAmounts_eq_ok_iff.1 hsum
    obtain ⟨hd, hdneg⟩ := (withSign_eq_iff hneg).1 hsign
    exact ⟨fun u => (hd u).trans (hamount u), hdneg⟩
  · rintro ⟨hamount, hneg⟩
    obtain ⟨e, hsum⟩ := exists_ofAmounts_iff.2 fun u => hamount u ▸ d.amount_le u
    obtain ⟨heneg, heamount⟩ := ofAmounts_eq_ok_iff.1 hsum
    refine ⟨e, hsum, (withSign_eq_iff heneg).2 ⟨fun u => ?_, hneg⟩⟩
    exact (hamount u).trans (heamount u).symm

/-- Taking up its sign gives a duration back. -/
theorem withSign_eq {d e : Duration} (hneg : e.negative = false)
    (hamount : ∀ u, e.amount u = d.amount u) : e.withSign d.negative = d :=
  (withSign_eq_iff hneg).2 ⟨fun u => (hamount u).symm, d.negative_eq⟩

end Duration

end BoundQuery
