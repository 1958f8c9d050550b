/-
**Totals.**

The total of a duration is its length with its sign, and a unit of the calendar has no length.  The
row of a duration is added up in 128 bits, and both the products and the sums are cut to them; since
amounts have 63 bits and the longest unit is a week, the sum of all is far below that bound.

Main definitions:

* `BoundQuery.Duration.Row.nanosOf` — the nanoseconds of a component.

Main results:

* `BoundQuery.Duration.total_of_fixed`, `BoundQuery.Duration.total_of_calendar` — the total, and
  when there is none;
* `BoundQuery.Duration.total_negate` — the other sign gives the opposite total;
* `BoundQuery.Duration.total_ofNanos`, `BoundQuery.Duration.eq_of_total_eq` — the duration of a
  count has it for its total, and no other one that is split does;
* `BoundQuery.Duration.total_row` — a row has the total of its duration.
-/

import BoundQuery.Proofs.Duration.Clock
import Mathlib.Algebra.Order.BigOperators.Group.List

set_option relaxedAutoImplicit false
set_option autoImplicit false

namespace BoundQuery

namespace Duration

/-! ### Totals of durations -/

theorem isCalendar_iff (u : TimeUnit) : u.isCalendar = true ↔ u = .month ∨ u = .year := by
  cases u <;> simp [TimeUnit.isCalendar, TimeUnit.nanos?]

/-- A duration without months and years has its length with its sign as the count of nanoseconds. -/
theorem total_of_fixed {d : Duration} (hmonth : d.amount .month = 0) (hyear : d.amount .year = 0) :
    d.total = .ok (if d.negative then -(d.length : Int) else d.length) := by
  have hnone : (d.components.find? fun c => c.1.isCalendar) = none := by
    rw [List.find?_eq_none]
    intro c hc hcalendar
    obtain ⟨hne, -⟩ := mem_components_iff.1 hc
    rcases (isCalendar_iff c.1).1 hcalendar with h | h
    · exact hne (h ▸ hmonth)
    · exact hne (h ▸ hyear)
  unfold total
  rw [hnone]

/-- A total is the length with the sign. -/
theorem eq_of_total_eq_ok {d : Duration} {n : Int} (h : d.total = .ok n) :
    n = if d.negative then -(d.length : Int) else d.length := by
  unfold total at h
  split at h
  · cases h
  · exact (Except.ok.inj h).symm

theorem total_of_calendar {d : Duration} (h : d.amount .month ≠ 0 ∨ d.amount .year ≠ 0) :
    ∃ u, d.total = .error (.argument "duration" (.calendarUnit u)) := by
  have hsome : (d.components.find? fun c => c.1.isCalendar) ≠ none := by
    intro hnone
    rw [List.find?_eq_none] at hnone
    rcases h with hne | hne
    · exact hnone (.month, d.amount .month) (mem_components_iff.2 ⟨hne, rfl⟩) rfl
    · exact hnone (.year, d.amount .year) (mem_components_iff.2 ⟨hne, rfl⟩) rfl
  obtain ⟨c, hc⟩ := Option.ne_none_iff_exists'.1 hsome
  refine ⟨c.1, ?_⟩
  unfold total
  rw [hc]

theorem length_of_isZero {d : Duration} (h : d.isZero = true) : d.length = 0 := by
  rw [length_eq]
  simp only [(isZero_iff d).1 h]

/-- **The other sign gives the opposite total.** -/
theorem total_negate (d : Duration) : d.negate.total = d.total.map (- ·) := by
  have hcomponents : d.negate.components = d.components := rfl
  have hlength : d.negate.length = d.length := rfl
  have hsign : d.negate.negative = (!d.negative && !d.isZero) := rfl
  unfold total
  rw [hcomponents, hlength, hsign]
  cases d.components.find? fun c => c.1.isCalendar with
  | some c => rfl
  | none =>
      refine congrArg Except.ok ?_
      cases hneg : d.negative with
      | true => simp
      | false =>
          cases hz : d.isZero with
          | true => simp [length_of_isZero hz]
          | false => simp

/-- Durations that are split and have the same total are equal. -/
theorem eq_of_total_eq {d e : Duration} (hd : IsSplit d.amount) (he : IsSplit e.amount)
    (h : d.total = e.total) : d = e := by
  have hlengthPos : ∀ {d : Duration}, IsSplit d.amount → d.negative = true → d.length ≠ 0 := by
    intro d hd hneg hzero
    obtain ⟨u, hu⟩ := d.nonzero_of_negative hneg
    rw [eq_splitNanos_of_isSplit hd, hzero] at hu
    cases u <;> exact hu rfl
  have hposd := hlengthPos hd
  have hpose := hlengthPos he
  rw [total_of_fixed hd.month hd.year, total_of_fixed he.month he.year] at h
  have hsigned := Except.ok.inj h
  have hboth : d.negative = e.negative ∧ d.length = e.length := by
    cases hdneg : d.negative <;> cases heneg : e.negative <;> simp [hdneg, heneg] at * <;> omega
  refine ext hboth.1 fun u => ?_
  rw [eq_splitNanos_of_isSplit hd, eq_splitNanos_of_isSplit he, hboth.2]

/-- **A count of nanoseconds is the total of the duration made from it**, which is split. -/
theorem total_ofNanos {n : Int} {d : Duration} (h : ofNanos n = .ok d) :
    d.total = .ok n ∧ IsSplit d.amount := by
  obtain ⟨e, rfl, hneg, hamount⟩ := exists_of_ofNanos h
  have hsplit : (e.withSign (n < 0)).amount = splitNanos n.natAbs :=
    (funext (withSign_amount _ e)).trans hamount
  have hlength : (e.withSign (n < 0)).length = n.natAbs := length_splitNanos (congrFun hsplit)
  have hezero : e.isZero = true → n.natAbs = 0 := fun h => by
    rw [← length_splitNanos (congrFun hamount), length_of_isZero h]
  refine ⟨?_, hsplit ▸ isSplit_splitNanos _⟩
  rw [total_of_fixed (congrFun hsplit .month) (congrFun hsplit .year), hlength,
    withSign_negative hneg]
  refine congrArg Except.ok ?_
  by_cases hn : n < 0
  · have hz : e.isZero = false := Bool.eq_false_iff.2 fun h => by
      have := hezero h
      omega
    rw [hz, decide_eq_true hn]
    simp only [Bool.not_false, Bool.and_self, if_true]
    omega
  · rw [decide_eq_false hn]
    simp only [Bool.false_and, Bool.false_eq_true, if_false]
    omega

/-! ### Totals of rows -/

namespace Row

/-- The nanoseconds of a component; a unit of the calendar has none. -/
def nanosOf (c : TimeUnit × Int64) : Int := c.1.nanos?.getD 0 * c.2.toInt

theorem saturated_of_lt {n : Int} (h : 0 ≤ n) (hlt : n < longSize / 2) : saturated n = n := by
  unfold saturated
  omega

theorem addNanos_of_fixed {n : Int} {c : TimeUnit × Int64} (hfixed : c.1.isCalendar = false)
    (hn : 0 ≤ n) (hc : 0 ≤ nanosOf c) (hlt : n + nanosOf c < longSize / 2) :
    addNanos n c = .ok (n + nanosOf c) := by
  unfold addNanos
  cases hsize : c.1.nanos? with
  | none =>
      rw [TimeUnit.isCalendar, hsize] at hfixed
      cases hfixed
  | some size =>
      have hnanos : nanosOf c = size * c.2.toInt := by rw [nanosOf, hsize, Option.getD_some]
      rw [hnanos] at hc hlt ⊢
      dsimp only
      rw [saturated_of_lt hc (by omega), saturated_of_lt (by omega) hlt]

theorem addNanos_of_calendar {c : TimeUnit × Int64} (h : c.1.isCalendar = true) (n : Int) :
    addNanos n c = .error (.argument "duration" (.calendarUnit c.1)) := by
  have hnone : c.1.nanos? = none := Option.isNone_iff_eq_none.1 h
  unfold addNanos
  rw [hnone]

/-- Components of fixed length are added up exactly as long as the sum fits 128 bits. -/
theorem foldlM_addNanos {components : List (TimeUnit × Int64)}
    (hfixed : ∀ c ∈ components, c.1.isCalendar = false)
    (hpos : ∀ c ∈ components, 0 ≤ nanosOf c) {n : Int} (hn : 0 ≤ n)
    (hlt : n + (components.map nanosOf).sum < longSize / 2) :
    components.foldlM addNanos n = .ok (n + (components.map nanosOf).sum) := by
  induction components generalizing n with
  | nil => simp [pure, Except.pure]
  | cons c components ih =>
      obtain ⟨hc, hothers⟩ := List.forall_mem_cons.1 hpos
      have hrest : 0 ≤ (components.map nanosOf).sum :=
        List.sum_nonneg (List.forall_mem_map.2 hothers)
      rw [List.map_cons, List.sum_cons, ← Int.add_assoc] at hlt ⊢
      rw [List.foldlM_cons, addNanos_of_fixed (hfixed c List.mem_cons_self) hn hc (by omega)]
      exact ih (fun c h => hfixed c (List.mem_cons_of_mem _ h)) hothers (by omega) hlt

/-- The first component of the calendar is reported, whatever stands before it. -/
theorem foldlM_addNanos_calendar {components : List (TimeUnit × Int64)} {c : TimeUnit × Int64}
    (h : (components.find? fun c => c.1.isCalendar) = some c) (n : Int) :
    components.foldlM addNanos n = .error (.argument "duration" (.calendarUnit c.1)) := by
  induction components generalizing n with
  | nil => cases h
  | cons a components ih =>
      rw [List.foldlM_cons]
      cases ha : a.1.isCalendar with
      | true =>
          simp only [List.find?_cons, ha] at h
          cases h
          rw [addNanos_of_calendar ha]
          rfl
      | false =>
          simp only [List.find?_cons, ha] at h
          cases hsize : a.1.nanos? with
          | none =>
              rw [TimeUnit.isCalendar, hsize] at ha
              cases ha
          | some size =>
              unfold addNanos
              rw [hsize]
              exact ih h _

end Row

/-- The longest unit is a week, so no length comes near to 128 bits. -/
theorem length_lt (d : Duration) : d.length < longSize / 2 := by
  rw [length_eq]
  have h := d.amount_le
  have hweek := h .week
  have hday := h .day
  have hhour := h .hour
  have hminute := h .minute
  have hsecond := h .second
  have hmilli := h .millisecond
  have hmicro := h .microsecond
  have hnano := h .nanosecond
  unfold maxAmount at hweek hday hhour hminute hsecond hmilli hmicro hnano
  unfold longSize
  omega

/-- The length of a duration is that of the components of its row. -/
theorem sum_nanosOf_row (d : Duration) : (d.row.components.map Row.nanosOf).sum = d.length := by
  have hcomponent : ∀ u, ((componentOf u (d.amount u)).map Row.nanosOf).sum =
      ((d.amount u * u.nanos?.getD 0 : Nat) : Int) := by
    intro u
    unfold componentOf
    split
    · next hzero => simp [hzero]
    · rw [List.map_singleton, List.sum_singleton, Row.nanosOf, toInt_ofNat_of_le (d.amount_le u)]
      simp [Int.mul_comm]
  rw [row_components_eq]
  unfold length
  induction TimeUnit.all with
  | nil => rfl
  | cons u us ih =>
      rw [List.flatMap_cons, List.map_append, List.sum_append, hcomponent, ih, List.foldr_cons,
        Int.natCast_add]

/-- **A row has the total of its duration**: no sum is cut off. -/
theorem total_row (d : Duration) : d.row.total = d.total := by
  have hfind : (d.row.components.find? fun c => c.1.isCalendar) =
      (d.components.find? fun c => c.1.isCalendar).map fun c => (c.1, Int64.ofNat c.2) :=
    List.find?_map
  unfold Row.total total
  cases hcalendar : d.components.find? fun c => c.1.isCalendar with
  | some c =>
      rw [hcalendar] at hfind
      rw [Row.foldlM_addNanos_calendar hfind]
      rfl
  | none =>
      rw [hcalendar] at hfind
      have hlt := d.length_lt
      have hpos : ∀ c ∈ d.row.components, 0 ≤ Row.nanosOf c := by
        intro c hc
        rw [Row.nanosOf, (mem_row_iff.1 hc).2, toInt_ofNat_of_le (d.amount_le c.1)]
        exact Int.mul_nonneg (Int.natCast_nonneg _) (Int.natCast_nonneg _)
      have hsum := Row.foldlM_addNanos (n := 0)
        (by simpa [List.find?_eq_none] using hfind) hpos (Int.le_refl 0)
        (by rw [sum_nanosOf_row]; omega)
      have hkept : (-(d.length : Int)).bmod longSize = -d.length :=
        Int.bmod_eq_of_le (by omega) (by omega)
      rw [hsum, sum_nanosOf_row, Int.zero_add]
      refine congrArg Except.ok ?_
      rw [hkept]
      rfl

end Duration

end BoundQuery
