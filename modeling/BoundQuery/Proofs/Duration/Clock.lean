/-
**Counts of time.**

A count of nanoseconds is split into days and the units below: the days are what is left over by no
larger unit, and of every other unit there is less than the next larger one.  Amounts of that kind
are the digits of the count in a number system of mixed bases, so they are known by it.  The row of
a count divides what the units before have left, which comes to the same.

Main definitions:

* `BoundQuery.Duration.IsSplit` — amounts of which none is as much as a larger unit that clocks
  count;
* `BoundQuery.Duration.componentOf` — the component of an amount.

Main results:

* `BoundQuery.Duration.length_splitNanos`, `BoundQuery.Duration.eq_splitNanos_of_isSplit` — a count
  is the length of what it is split into, and the other way round;
* `BoundQuery.Duration.ofNanos_total` — a span is the duration of its count of nanoseconds;
* `BoundQuery.Duration.row_ofParts`, `BoundQuery.Duration.row_ofNanos`,
  `BoundQuery.Duration.row_ofSpan` — rows of counts are those of durations: no number is cut off.
-/

import BoundQuery.Proofs.Duration.Row

set_option relaxedAutoImplicit false
set_option autoImplicit false

namespace BoundQuery

/-- The seconds of a span rounded towards zero and the nanoseconds that are left make up the span
and have its sign. -/
theorem Span.total_eq (s : Span) : s.total =
    if s.seconds < 0 then -((s.wholeSeconds * 1000000000 + s.restNanos : Nat) : Int)
    else (s.wholeSeconds * 1000000000 + s.restNanos : Nat) := by
  have hnanos := s.nanos_lt
  unfold total wholeSeconds restNanos
  split <;> split <;> omega

namespace Duration

/-! ### Split amounts -/

theorem length_eq (d : Duration) : d.length =
    d.amount .week * 604800000000000 + (d.amount .day * 86400000000000 +
      (d.amount .hour * 3600000000000 + (d.amount .minute * 60000000000 +
      (d.amount .second * 1000000000 + (d.amount .millisecond * 1000000 +
      (d.amount .microsecond * 1000 + d.amount .nanosecond)))))) := by
  unfold length
  simp -implicitDefEqProofs only [TimeUnit.all, List.foldr_cons, List.foldr_nil, TimeUnit.nanos?,
    Option.getD_some, Option.getD_none, Nat.mul_zero, Nat.zero_add, Nat.add_zero, Nat.mul_one,
    Nat.reduceMul]

/-- A count of nanoseconds is the length of the amounts into which it is split. -/
theorem length_splitNanos {d : Duration} {n : Nat} (h : ∀ u, d.amount u = splitNanos n u) :
    d.length = n := by
  have hhours : n / 3600000000000 = n / 86400000000000 * 24 + n / 3600000000000 % 24 := by omega
  have hminutes : n / 60000000000 = n / 3600000000000 * 60 + n / 60000000000 % 60 := by omega
  have hseconds : n / 1000000000 = n / 60000000000 * 60 + n / 1000000000 % 60 := by omega
  have hmillis : n / 1000000 = n / 1000000000 * 1000 + n / 1000000 % 1000 := by omega
  have hmicros : n / 1000 = n / 1000000 * 1000 + n / 1000 % 1000 := by omega
  have hnanos : n = n / 1000 * 1000 + n % 1000 := by omega
  rw [length_eq]
  simp only [h, splitNanos]
  -- what is left is linear in the quotients and the remainders
  generalize n / 3600000000000 % 24 = hour at hhours ⊢
  generalize n / 60000000000 % 60 = minute at hminutes ⊢
  generalize n / 1000000000 % 60 = second at hseconds ⊢
  generalize n / 1000000 % 1000 = milli at hmillis ⊢
  generalize n / 1000 % 1000 = micro at hmicros ⊢
  generalize n % 1000 = nano at hnanos ⊢
  generalize n / 86400000000000 = days at hhours ⊢
  generalize n / 3600000000000 = hours at hhours hminutes
  generalize n / 60000000000 = minutes at hminutes hseconds
  generalize n / 1000000000 = seconds at hseconds hmillis
  generalize n / 1000000 = millis at hmillis hmicros
  generalize n / 1000 = micros at hmicros hnanos
  omega

/-- No amount is as much as the next larger unit that a clock counts, and units that it does not
count do not occur. -/
structure IsSplit (amount : TimeUnit → Nat) : Prop where
  year : amount .year = 0
  month : amount .month = 0
  week : amount .week = 0
  hour_lt : amount .hour < 24
  minute_lt : amount .minute < 60
  second_lt : amount .second < 60
  millisecond_lt : amount .millisecond < 1000
  microsecond_lt : amount .microsecond < 1000
  nanosecond_lt : amount .nanosecond < 1000

theorem isSplit_splitNanos (n : Nat) : IsSplit (splitNanos n) where
  year := rfl
  month := rfl
  week := rfl
  hour_lt := Nat.mod_lt _ (by omega)
  minute_lt := Nat.mod_lt _ (by omega)
  second_lt := Nat.mod_lt _ (by omega)
  millisecond_lt := Nat.mod_lt _ (by omega)
  microsecond_lt := Nat.mod_lt _ (by omega)
  nanosecond_lt := Nat.mod_lt _ (by omega)

/-- **Split amounts are known by their length.** -/
theorem eq_splitNanos_of_isSplit {d : Duration} (h : IsSplit d.amount) (u : TimeUnit) :
    d.amount u = splitNanos d.length u := by
  obtain ⟨hyear, hmonth, hweek, hhour, hminute, hsecond, hmilli, hmicro, hnano⟩ := h
  have hn := d.length_eq
  rw [hweek] at hn
  have hmicros : d.length / 1000 = d.amount .day * 86400000000 + (d.amount .hour * 3600000000 +
      (d.amount .minute * 60000000 + (d.amount .second * 1000000 +
      (d.amount .millisecond * 1000 + d.amount .microsecond)))) := by omega
  have hmillis : d.length / 1000000 = d.amount .day * 86400000 + (d.amount .hour * 3600000 +
      (d.amount .minute * 60000 + (d.amount .second * 1000 + d.amount .millisecond))) := by omega
  have hseconds : d.length / 1000000000 = d.amount .day * 86400 + (d.amount .hour * 3600 +
      (d.amount .minute * 60 + d.amount .second)) := by omega
  have hminutes : d.length / 60000000000 =
      d.amount .day * 1440 + (d.amount .hour * 60 + d.amount .minute) := by omega
  have hhours : d.length / 3600000000000 = d.amount .day * 24 + d.amount .hour := by omega
  have hdays : d.length / 86400000000000 = d.amount .day := by omega
  have hnanos : d.length % 1000 = d.amount .nanosecond := by omega
  clear hn
  cases u with
  | year => exact hyear
  | month => exact hmonth
  | week => exact hweek
  | day => exact hdays.symm
  | nanosecond => exact hnanos.symm
  | _ =>
      simp only [splitNanos, hhours, hminutes, hseconds, hmillis, hmicros]
      omega

/-! ### Durations of counts -/

/-- A count of nanoseconds is made into whole seconds and the nanoseconds after them. -/
theorem ofNanos_eq_ofParts {n : Int} {seconds nanos : Nat} (hs : seconds < UInt64.size)
    (hn : nanos < 1000000000) (h : n.natAbs = seconds * 1000000000 + nanos) :
    ofNanos n = .ok (ofParts (n < 0) seconds nanos hs hn) := by
  obtain rfl : seconds = n.natAbs / 1000000000 := by omega
  obtain rfl : nanos = n.natAbs % 1000000000 := by omega
  exact dif_pos hs

/-- A count of nanoseconds that is accepted is split and given its sign. -/
theorem exists_of_ofNanos {n : Int} {d : Duration} (h : ofNanos n = .ok d) :
    ∃ e : Duration, e.withSign (n < 0) = d ∧ e.negative = false ∧
      e.amount = splitNanos n.natAbs := by
  have hcount : n.natAbs / 1000000000 * 1000000000 + n.natAbs % 1000000000 = n.natAbs :=
    Nat.div_add_mod' _ _
  unfold ofNanos at h
  split at h
  · cases h
    exact ⟨_, rfl, rfl, congrArg splitNanos hcount⟩
  · cases h

/-- **A span is made into the duration of its count of nanoseconds.** -/
theorem ofNanos_total (s : Span) : ofNanos s.total = .ok (ofSpan s) := by
  have hnanos := s.nanos_lt
  have htotal := s.total_eq
  have hsign : decide (s.total < 0) = decide (s.seconds < 0) := by
    rw [decide_eq_decide]
    unfold Span.total
    omega
  have hcount : s.total.natAbs = s.wholeSeconds * 1000000000 + s.restNanos := by
    rw [htotal]
    split <;> omega
  rw [ofNanos_eq_ofParts s.wholeSeconds_lt s.restNanos_lt hcount, hsign]
  rfl

/-! ### Rows -/

/-- The component of an amount, if there is any of it. -/
def componentOf (u : TimeUnit) (n : Nat) : List (TimeUnit × Int64) :=
  if n = 0 then [] else [(u, Int64.ofNat n)]

@[simp] theorem componentOf_zero (u : TimeUnit) : componentOf u 0 = [] := rfl

theorem row_components_eq (d : Duration) :
    d.row.components = TimeUnit.all.flatMap fun u => componentOf u (d.amount u) := by
  change List.map _ (List.filterMap _ TimeUnit.all) = _
  rw [List.map_filterMap, List.filterMap_eq_flatMap_toList]
  refine congrArg (List.flatMap · _) (funext fun u => ?_)
  unfold componentOf
  split <;> rfl

@[simp] theorem splitInto_nil (n : Nat) : Row.splitInto [] n = [] := rfl

theorem splitInto_cons (u : TimeUnit) (us : List TimeUnit) (n : Nat) :
    Row.splitInto (u :: us) n =
      componentOf u (n / u.nanos?.getD 1) ++ Row.splitInto us (n % u.nanos?.getD 1) := by
  rw [Row.splitInto]
  unfold componentOf
  rcases Nat.eq_zero_or_pos (n / u.nanos?.getD 1) with h | h
  · rw [if_neg (by omega), if_pos h]
    rfl
  · rw [if_pos h, if_neg (by omega)]
    rfl

/-- What is left of a count of nanoseconds by larger units is split as the count itself. -/
theorem splitInto_clockUnits (n : Nat) :
    Row.splitInto Row.clockUnits n =
      TimeUnit.all.flatMap fun u => componentOf u (splitNanos n u) := by
  have hhour : n % 86400000000000 / 3600000000000 = n / 3600000000000 % 24 := by omega
  have hminute : n % 3600000000000 / 60000000000 = n / 60000000000 % 60 := by omega
  have hsecond : n % 60000000000 / 1000000000 = n / 1000000000 % 60 := by omega
  have hmilli : n % 1000000000 / 1000000 = n / 1000000 % 1000 := by omega
  have hmicro : n % 1000000 / 1000 = n / 1000 % 1000 := by omega
  simp [Row.clockUnits, splitInto_cons, TimeUnit.nanos?, TimeUnit.all, splitNanos,
    Nat.mod_mod_of_dvd, hhour, hminute, hsecond, hmilli, hmicro]

/-- **No number is cut off when a count of time is split.** -/
theorem row_ofParts (negative : Bool) {seconds : UInt64} {nanos : UInt32}
    (hn : nanos.toNat < 1000000000) :
    Row.ofParts negative seconds nanos =
      (ofParts negative seconds.toNat nanos.toNat seconds.toNat_lt hn).row := by
  have hlt := seconds.toNat_lt
  have hfits : (seconds.toNat * 1000000000 + nanos.toNat) % longSize =
      seconds.toNat * 1000000000 + nanos.toNat := by
    refine Nat.mod_eq_of_lt ?_
    unfold longSize
    omega
  unfold Row.ofParts ofParts
  rw [← row_withSign, hfits, splitInto_clockUnits]
  congr 1
  exact congrArg (Row.mk false) (row_components_eq ⟨false, splitNanos _, _, _⟩).symm

theorem row_ofNanos (n : Int) : Row.ofNanos n = (ofNanos n).map row := by
  have hrest : n.natAbs % 1000000000 < 1000000000 := Nat.mod_lt _ (by decide)
  have hnanos : (UInt32.ofNat (n.natAbs % 1000000000)).toNat = n.natAbs % 1000000000 :=
    UInt32.toNat_ofNat_of_lt' (Nat.lt_trans hrest (by decide))
  unfold Row.ofNanos ofNanos
  split
  · next h =>
      have hseconds : (UInt64.ofNat (n.natAbs / 1000000000)).toNat = n.natAbs / 1000000000 :=
        UInt64.toNat_ofNat_of_lt' h
      rw [row_ofParts _ (hnanos.symm ▸ hrest)]
      simp only [hseconds, hnanos]
      rfl
  · rfl

theorem tdiv_parts (seconds : Nat) {nanos : Nat} (h : nanos < 1000000000) :
    ((seconds * 1000000000 + nanos : Nat) : Int).tdiv 1000000000 = seconds := by
  rw [Int.tdiv_eq_ediv_of_nonneg (by omega)]
  omega

theorem getD_wordOf? {n : Int} (hle : -2 ^ 63 ≤ n) (hlt : n < 2 ^ 63) :
    ((wordOf? n).getD 0).toInt = n := by
  have hint := Int64.toInt_ofInt_of_le hle hlt
  rw [wordOf?, if_pos hint]
  exact hint

theorem row_ofSpan (s : Span) : Row.ofSpan s = (ofSpan s).row := by
  have hsecondsLt := s.wholeSeconds_lt
  have hnanosLt := s.restNanos_lt
  have hdiv := tdiv_parts s.wholeSeconds hnanosLt
  have htotal := s.total_eq
  have hseconds : (UInt64.ofNat s.wholeSeconds).toNat = s.wholeSeconds :=
    UInt64.toNat_ofNat_of_lt' hsecondsLt
  have hnanos : (UInt32.ofNat s.restNanos).toNat = s.restNanos :=
    UInt32.toNat_ofNat_of_lt' (Nat.lt_trans hnanosLt (by decide))
  have hrow : ∀ negative, Row.ofParts negative (UInt64.ofNat s.wholeSeconds)
      (UInt32.ofNat s.restNanos) =
        (ofParts negative s.wholeSeconds s.restNanos s.wholeSeconds_lt s.restNanos_lt).row := by
    intro negative
    rw [row_ofParts negative (hnanos.symm ▸ hnanosLt)]
    simp only [hseconds, hnanos]
  unfold Row.ofSpan ofSpan
  rw [← hrow]
  dsimp only
  by_cases hneg : s.seconds < 0
  · rw [if_pos hneg] at htotal
    have hquot : s.total.tdiv 1000000000 = -s.wholeSeconds := by rw [htotal, Int.neg_tdiv, hdiv]
    have hrest : s.total - -s.wholeSeconds * 1000000000 = -s.restNanos := by
      rw [htotal]
      omega
    -- one of the two parts is left, since the span is shorter than no time
    have hsign : (decide (-(s.wholeSeconds : Int) < 0) || decide (-(s.restNanos : Int) < 0)) =
        decide (s.seconds < 0) := by
      have hnanos := s.nanos_lt
      unfold Span.total at htotal
      rw [decide_eq_true hneg, Bool.or_eq_true, decide_eq_true_iff, decide_eq_true_iff]
      omega
    rw [hquot, hrest, getD_wordOf? (by omega) (by omega), hsign, Int.natAbs_neg, Int.natAbs_neg,
      Int.natAbs_natCast, Int.natAbs_natCast]
  · rw [if_neg hneg] at htotal
    have hquot : s.total.tdiv 1000000000 = s.wholeSeconds := by rw [htotal, hdiv]
    have hrest : s.total - s.wholeSeconds * 1000000000 = s.restNanos := by
      rw [htotal]
      omega
    have hsign : (decide ((s.wholeSeconds : Int) < 0) || decide ((s.restNanos : Int) < 0)) =
        decide (s.seconds < 0) := by
      rw [decide_eq_false hneg, Bool.or_eq_false_iff, decide_eq_false_iff_not,
        decide_eq_false_iff_not]
      omega
    rw [hquot, hrest, getD_wordOf? (by omega) (by omega), hsign, Int.natAbs_natCast,
      Int.natAbs_natCast]

end Duration

end BoundQuery
