/-
**Rows of components are durations.**

A duration has an amount of every unit, its row only those that are not zero, each cut to 64 bits.
The row descends, so a search by halves finds the place of a unit; what is set or inserted there
leaves a row that descends and differs in this one unit, and such a row is that of the duration
with more of the unit.  Everything that is done to rows is thereby done to durations.

Main results:

* `BoundQuery.Duration.mem_row_iff`, `BoundQuery.Duration.eq_row_components` — what is in the row of
  a duration, which is known by this;
* `BoundQuery.Duration.row_add`, `BoundQuery.Duration.row_addAll`, `BoundQuery.Duration.row_negate`
  — rows take more of a unit, and the other sign, as durations do;
* `BoundQuery.Duration.row_ofLiteral`, `BoundQuery.Duration.row_ofJson` — they are read as durations
  are;
* `BoundQuery.Duration.amount_row`, `BoundQuery.Duration.text_row` — they hold the same amounts and
  have the same literals.
-/

import BoundQuery.Proofs.Duration.Search
import BoundQuery.Proofs.Duration.Stored
import Mathlib.Data.List.Sort

set_option relaxedAutoImplicit false
set_option autoImplicit false

namespace BoundQuery

theorem TimeUnit.rank_injective {u v : TimeUnit} (h : u.rank = v.rank) : u = v := by
  cases u <;> cases v <;> simp [rank] at h ⊢

/-! ### Amounts of 64 bits -/

theorem toInt_ofNat_of_le {n : Nat} (h : n ≤ maxAmount) : (Int64.ofNat n).toInt = n := by
  unfold maxAmount at h
  exact Int64.toInt_ofNat_of_lt (by omega)

theorem wordOf?_natCast (n : Nat) :
    wordOf? n = if n ≤ maxAmount then some (Int64.ofNat n) else none := by
  unfold wordOf?
  rw [Int64.ofInt_eq_ofNat]
  by_cases h : n ≤ maxAmount
  · rw [if_pos h, if_pos (toInt_ofNat_of_le h)]
  · have hlt := Int64.toInt_lt (Int64.ofNat n)
    rw [if_neg h, if_neg]
    unfold maxAmount at h
    omega

namespace Duration

variable {d e : Duration} {u : TimeUnit}

/-! ### The row of a duration -/

theorem mem_row_iff {c : TimeUnit × Int64} :
    c ∈ d.row.components ↔ d.amount c.1 ≠ 0 ∧ c.2 = Int64.ofNat (d.amount c.1) := by
  constructor
  · intro h
    obtain ⟨a, ha, rfl⟩ := List.mem_map.1 h
    obtain ⟨hne, ha⟩ := mem_components_iff.1 ha
    exact ⟨hne, congrArg Int64.ofNat ha⟩
  · rintro ⟨hne, hc⟩
    exact List.mem_map.2 ⟨(c.1, d.amount c.1), mem_components_iff.2 ⟨hne, rfl⟩,
      Prod.ext rfl hc.symm⟩

theorem component_mem_row (h : d.amount u ≠ 0) :
    (u, Int64.ofNat (d.amount u)) ∈ d.row.components := mem_row_iff.2 ⟨h, rfl⟩

theorem row_descending (d : Duration) :
    d.row.components.Pairwise fun a b => b.1.rank < a.1.rank :=
  List.pairwise_map.2 d.components_canonical.descending

/-- A row that descends is ordered for the search of any unit. -/
theorem ordered_of_descending {components : List (TimeUnit × Int64)}
    (h : components.Pairwise fun a b => b.1.rank < a.1.rank) (u : TimeUnit) :
    Ordered (fun c => compare u.rank c.1.rank) components := by
  refine h.imp fun {a b} hab => ?_
  rw [Nat.compare_eq_lt, Nat.compare_eq_gt]
  omega

/-- **A row is known by its order and its members.** -/
theorem eq_row_components {components : List (TimeUnit × Int64)}
    (h : components.Pairwise fun a b => b.1.rank < a.1.rank)
    (hmem : ∀ c, c ∈ components ↔ d.amount c.1 ≠ 0 ∧ c.2 = Int64.ofNat (d.amount c.1)) :
    components = d.row.components := by
  have : Std.Irrefl fun a b : TimeUnit × Int64 => b.1.rank < a.1.rank := ⟨fun _ => Nat.lt_irrefl _⟩
  have : Std.Antisymm fun a b : TimeUnit × Int64 => b.1.rank < a.1.rank :=
    ⟨fun _ _ hab hba => absurd hab (Nat.lt_asymm hba)⟩
  exact h.eq_of_mem_iff d.row_descending fun c => (hmem c).trans mem_row_iff.symm

section Placed

/-! Components of one unit, if there are any, stand between those of larger units and those of
smaller ones; one of this unit is put in their place. -/

variable {before old behind : List (TimeUnit × Int64)}
  (hrow : d.row.components = before ++ old ++ behind) (hold : ∀ c ∈ old, c.1 = u)
  (hbefore : ∀ c ∈ before, u.rank < c.1.rank) (hbehind : ∀ c ∈ behind, c.1.rank < u.rank)

include hrow hbefore hbehind

theorem descending_placed (n : Int64) :
    (before ++ (u, n) :: behind).Pairwise fun a b => b.1.rank < a.1.rank := by
  have hdescending := d.row_descending
  rw [hrow, List.append_assoc, List.pairwise_append, List.pairwise_append] at hdescending
  obtain ⟨hfirst, ⟨-, hlast, -⟩, hacross⟩ := hdescending
  rw [List.pairwise_append, List.pairwise_cons]
  refine ⟨hfirst, ⟨hbehind, hlast⟩, fun a ha b hb => ?_⟩
  rcases List.mem_cons.1 hb with rfl | hb
  · exact hbefore a ha
  · exact hacross a ha b (List.mem_append_right _ hb)

include hold

theorem mem_placed_iff {n : Int64} {c : TimeUnit × Int64} : c ∈ before ++ (u, n) :: behind ↔
    (c.1 = u ∧ c.2 = n) ∨ (c.1 ≠ u ∧ c ∈ d.row.components) := by
  rw [hrow]
  simp only [List.mem_append, List.mem_cons]
  by_cases hc : c.1 = u
  · have hnotBefore : c ∉ before := fun h => Nat.lt_irrefl _ (hc ▸ hbefore c h)
    have hnotBehind : c ∉ behind := fun h => Nat.lt_irrefl _ (hc ▸ hbehind c h)
    simp [hc, hnotBefore, hnotBehind, Prod.ext_iff]
  · have hnotOld : c ∉ old := fun h => hc (hold c h)
    simp [hc, hnotOld, Prod.ext_iff]

/-- **What is put in the place of a unit leaves the row of a duration** that has the amount put
there, and of other units what there was. -/
theorem placed_eq_row (hne : e.amount u ≠ 0) (hothers : ∀ v, v ≠ u → e.amount v = d.amount v) :
    before ++ (u, Int64.ofNat (e.amount u)) :: behind = e.row.components := by
  refine eq_row_components (descending_placed hrow hbefore hbehind _) fun c => ?_
  rw [mem_placed_iff hrow hold hbefore hbehind]
  by_cases hc : c.1 = u
  · simp [hc, hne]
  · simp [hc, hothers c.1 hc, mem_row_iff]

/-- A duration with more of a unit has a row in which that unit stands in its place. -/
theorem exists_row_of_add {n : Nat} (h : d.amount u + n ≤ maxAmount) (hn : n ≠ 0) :
    ∃ e, d.add n u = .ok e ∧
      e.row = ⟨d.negative, before ++ (u, Int64.ofNat (d.amount u + n)) :: behind⟩ := by
  obtain ⟨e, he, hneg⟩ := add_eq_ok h
  have hu : e.amount u = d.amount u + n := by rw [add_amount he u, if_pos rfl]
  have hothers : ∀ v, v ≠ u → e.amount v = d.amount v := fun v hv => by
    rw [add_amount he v, if_neg hv, Nat.add_zero]
  have hplaced := placed_eq_row hrow hold hbefore hbehind (by omega) hothers
  refine ⟨e, he, ?_⟩
  rw [← hu, hplaced, ← hneg]
  rfl

end Placed

theorem add_zero (d : Duration) (u : TimeUnit) : d.add 0 u = .ok d := by
  have hle : d.amount u + 0 ≤ maxAmount := by
    have := d.amount_le u
    omega
  obtain ⟨e, he, hneg⟩ := add_eq_ok hle
  have hsame : e = d := ext hneg fun v => by
    rw [add_amount he v]
    simp
  rw [he, hsame]

theorem add_eq_error {n : Nat} (h : maxAmount < d.amount u + n) :
    d.add n u = .error (.argument "duration" (.tooMuch u)) := dif_neg (Nat.not_le_of_lt h)

theorem eq_of_add_error {n : Nat} {f : Error} (h : d.add n u = .error f) :
    f = .argument "duration" (.tooMuch u) := by
  unfold add at h
  split at h
  · cases h
  · cases h
    rfl

theorem ofNat_ne_zero {n : Nat} (h : n ≤ maxAmount) (hn : n ≠ 0) : Int64.ofNat n ≠ 0 := by
  intro hzero
  have hint := congrArg Int64.toInt hzero
  rw [toInt_ofNat_of_le h, Int64.toInt_zero] at hint
  omega

/-- A unit that is found in the row of a duration stands there with its amount. -/
theorem exists_of_place_ok {i : Fin d.row.components.length}
    (h : Row.place d.row.components u = .ok i) :
    d.row.components[i] = (u, Int64.ofNat (d.amount u)) ∧
    ∃ before behind, d.row.components = before ++ [(u, Int64.ofNat (d.amount u))] ++ behind ∧
      (∀ c ∈ before, u.rank < c.1.rank) ∧ (∀ c ∈ behind, c.1.rank < u.rank) ∧
      ∀ c, d.row.components.set i c = before ++ c :: behind := by
  obtain ⟨before, behind, hrow, heq, hbefore, hbehind, hset⟩ :=
    exists_of_search_ok (ordered_of_descending d.row_descending u) h
  have hunit : d.row.components[i].1 = u :=
    (TimeUnit.rank_injective (Nat.compare_eq_eq.1 heq)).symm
  have hcomponent : d.row.components[i] = (u, Int64.ofNat (d.amount u)) :=
    Prod.ext hunit (hunit ▸ (mem_row_iff.1 (List.getElem_mem i.isLt)).2)
  rw [hcomponent] at hrow
  exact ⟨hcomponent, before, behind, hrow, fun c hc => Nat.compare_eq_lt.1 (hbefore c hc),
    fun c hc => Nat.compare_eq_gt.1 (hbehind c hc), hset⟩

/-- There is nothing of a unit that is not found, and all others stand on one side of its place. -/
theorem exists_of_place_error {i : Nat} (h : Row.place d.row.components u = .error i) :
    d.amount u = 0 ∧ ∃ before behind, d.row.components = before ++ [] ++ behind ∧
      (∀ c ∈ before, u.rank < c.1.rank) ∧ (∀ c ∈ behind, c.1.rank < u.rank) ∧
      ∀ c, d.row.components.insertIdx i c = before ++ c :: behind := by
  obtain ⟨before, behind, hrow, hbefore, hbehind, hinsert⟩ :=
    exists_of_search_error (ordered_of_descending d.row_descending u) h
  simp only [Nat.compare_eq_lt, Nat.compare_eq_gt] at hbefore hbehind
  refine ⟨?_, before, behind, by simpa using hrow, hbefore, hbehind, hinsert⟩
  by_contra hne
  have hmem := component_mem_row hne
  rw [hrow] at hmem
  rcases List.mem_append.1 hmem with h | h
  · exact Nat.lt_irrefl _ (hbefore _ h)
  · exact Nat.lt_irrefl _ (hbehind _ h)

theorem row_addWord? {n : Nat} (hn : n ≤ maxAmount) (hzero : n ≠ 0) (d : Duration) (u : TimeUnit) :
    d.row.addWord? (Int64.ofNat n) u = (d.add n u).toOption.map row := by
  unfold Row.addWord?
  cases hplace : Row.place d.row.components u with
  | ok i =>
      obtain ⟨hcomponent, before, behind, hrow, hbefore, hbehind, hset⟩ := exists_of_place_ok hplace
      dsimp only
      rw [hcomponent, toInt_ofNat_of_le (d.amount_le u), toInt_ofNat_of_le hn, ← Int.natCast_add,
        wordOf?_natCast]
      by_cases hsum : d.amount u + n ≤ maxAmount
      · obtain ⟨e, he, hnew⟩ := exists_row_of_add hrow (by simp) hbefore hbehind hsum hzero
        rw [if_pos hsum, he, Except.toOption, Option.map_some, Option.map_some, hnew, hset]
        rfl
      · rw [if_neg hsum, add_eq_error (Nat.lt_of_not_le hsum)]
        rfl
  | error i =>
      obtain ⟨habsent, before, behind, hrow, hbefore, hbehind, hinsert⟩ :=
        exists_of_place_error hplace
      have hsum : d.amount u + n ≤ maxAmount := by omega
      obtain ⟨e, he, hnew⟩ := exists_row_of_add hrow (by simp) hbefore hbehind hsum hzero
      dsimp only
      rw [he, Except.toOption, Option.map_some, hnew, habsent, Nat.zero_add, hinsert]
      rfl

/-- **A row takes more of a unit as the duration does.** -/
theorem row_add (d : Duration) (n : Nat) (u : TimeUnit) :
    d.row.add n u = (d.add n u).map row := by
  unfold Row.add
  rw [wordOf?_natCast]
  by_cases hn : n ≤ maxAmount
  · rw [if_pos hn, Option.bind_some]
    by_cases hzero : n = 0
    · rw [hzero, add_zero, if_pos (by simp)]
      rfl
    · rw [if_neg (ofNat_ne_zero hn hzero), row_addWord? hn hzero]
      cases hadd : d.add n u with
      | ok e => rfl
      | error f =>
          rw [eq_of_add_error hadd]
          rfl
  · rw [if_neg hn, add_eq_error (by omega)]
    rfl

theorem row_addAll (d : Duration) (parts : List (Nat × TimeUnit)) :
    d.row.addAll parts = (parts.foldlM (fun (d : Duration) p => d.add p.1 p.2) d).map row := by
  unfold Row.addAll
  induction parts generalizing d with
  | nil => rfl
  | cons p parts ih =>
      simp only [List.foldlM_cons, row_add]
      cases d.add p.1 p.2 with
      | error f => rfl
      | ok e => exact ih e

theorem row_ofAmounts (parts : List (Nat × TimeUnit)) :
    Row.zero.addAll parts = (ofAmounts parts).map row := row_addAll zero parts

@[simp] theorem isZero_row (d : Duration) : d.row.isZero = d.isZero := by
  rw [Bool.eq_iff_iff, isZero_iff]
  unfold Row.isZero
  rw [List.isEmpty_iff, List.eq_nil_iff_forall_not_mem]
  constructor
  · intro h u
    by_contra hne
    exact h _ (component_mem_row hne)
  · intro h c hc
    exact (mem_row_iff.1 hc).1 (h c.1)

/-- **A row takes the other sign as the duration does.** -/
theorem row_negate (d : Duration) : d.row.negate = d.negate.row := by
  unfold Row.negate
  rw [isZero_row]
  rfl

theorem row_withSign (negative : Bool) (d : Duration) :
    d.row.withSign negative = (d.withSign negative).row := by
  cases negative with
  | false => rfl
  | true => exact d.row_negate

/-! ### Amounts -/

/-- The units of a row with their amounts as natural numbers; an amount below zero is none. -/
def Row.parts (r : Row) : List (TimeUnit × Nat) := r.components.map fun c => (c.1, c.2.toInt.toNat)

@[simp] theorem parts_row (d : Duration) : d.row.parts = d.components := by
  unfold Row.parts
  change List.map _ (List.map _ d.components) = _
  rw [List.map_map]
  refine (List.map_congr_left fun c hc => ?_).trans (List.map_id _)
  rw [Function.comp_apply, toInt_ofNat_of_le (d.components_canonical.amount_le c hc)]
  rfl

/-- A unit is found in a row with its amount. -/
@[simp] theorem amount_row (d : Duration) (u : TimeUnit) : d.row.amount u = d.amount u := by
  unfold Row.amount
  cases hfind : d.row.components.find? fun c => c.1 = u with
  | none =>
      by_contra hne
      simpa using List.find?_eq_none.1 hfind _ (component_mem_row fun h => hne h.symm)
  | some c =>
      obtain ⟨-, hc⟩ := mem_row_iff.1 (List.mem_of_find?_eq_some hfind)
      have hunit : c.1 = u := by simpa using List.find?_some hfind
      rw [Option.map_some, Option.getD_some, hc, hunit, toInt_ofNat_of_le (d.amount_le u),
        Int.toNat_natCast]

/-! ### Texts and stored durations -/

theorem row_scan (s : List Char) : Row.scan s = Scanner.duration.map row s := by
  unfold Row.scan Scanner.duration Scanner.map
  dsimp only
  cases Scanner.component (Scanner.sign s).2 with
  | error e => rfl
  | ok taken =>
      obtain ⟨c, rest⟩ := taken
      dsimp only
      rw [row_ofAmounts]
      cases ofAmounts (c :: (Scanner.components rest.length rest).1) with
      | error e => rfl
      | ok d => exact congrArg (fun r => Except.ok (r, _)) (row_withSign _ d)

theorem row_ofLiteral (s : String) : Row.ofLiteral s = (ofLiteral s).map row := by
  unfold Row.ofLiteral ofLiteral Scanner.whole
  rw [row_scan]
  unfold Scanner.map
  cases Scanner.duration s.toList with
  | error e => rfl
  | ok taken =>
      obtain ⟨d, rest⟩ := taken
      cases rest <;> rfl

theorem row_ofJson (j : Json) : Row.ofJson j = (ofJson j).map row := by
  unfold Row.ofJson ofJson
  rcases j.fields? ["negative", "components"] with _ | _ | ⟨_ | sign, _ | ⟨_ | list, _ | _⟩⟩
  case some.cons.some.cons.some.nil =>
    dsimp only
    cases sign.bool? with
    | none => rfl
    | some negative =>
        cases list.items? with
        | none => rfl
        | some items =>
            simp only [Option.bind_eq_bind, Option.bind_some]
            cases items.mapM componentOfJson with
            | none => rfl
            | some parts =>
                simp only [Option.bind_some, row_ofAmounts]
                cases ofAmounts parts with
                | error e => rfl
                | ok d => exact congrArg some (row_withSign negative d)
  all_goals rfl

theorem text_row (d : Duration) : d.row.text = d.text := by
  have hcomponents : (d.row.components.flatMap fun c => signed c.2.toInt ++ c.1.suffix.toList) =
      d.components.flatMap componentText := by
    change List.flatMap _ (List.map _ d.components) = _
    rw [List.flatMap_map]
    refine List.flatMap_congr fun c hc => ?_
    have hle := d.components_canonical.amount_le c hc
    unfold componentText
    rw [toInt_ofNat_of_le hle]
    rfl
  unfold Row.text text
  rw [isZero_row, hcomponents]
  rfl

end Duration

end BoundQuery
