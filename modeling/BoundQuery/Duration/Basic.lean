/-
**Durations.**

A duration is a sign and an amount of every unit of time.  An amount fits 63 bits, since the query
language reads it as a signed number of 64; the sign is set only on a duration that is not zero.
Since there is one amount per unit, it does not matter in which order amounts are added.

Main definitions:

* `BoundQuery.Duration` — a duration;
* `BoundQuery.Duration.add` — a duration with more of one unit;
* `BoundQuery.Duration.negate` — the duration of the other sign;
* `BoundQuery.Duration.components` — the units that occur, largest first, with their amounts;
* `BoundQuery.Duration.ofParts`, `BoundQuery.Duration.ofNanos` — seconds and nanoseconds, and a
  count of nanoseconds, as a duration of days and less;
* `BoundQuery.Duration.total` — the count of nanoseconds of a duration without months and years;
* `BoundQuery.Duration.text` — the literal of a duration.

Main results:

* `BoundQuery.Duration.ext` — durations with the same sign and the same amounts are equal;
* `BoundQuery.Duration.add_amount` — adding changes the amount of one unit;
* `BoundQuery.Duration.negate_negate` — taking the other sign twice changes nothing.
-/

import BoundQuery.Error

set_option relaxedAutoImplicit false
set_option autoImplicit false

namespace BoundQuery

/-- The greatest amount of a unit. -/
def maxAmount : Nat := 9223372036854775807

/-- A sign and an amount of every unit. -/
structure Duration where
  /-- Whether the duration points backwards. -/
  negative : Bool
  /-- How much of each unit there is. -/
  amount : TimeUnit → Nat
  amount_le : ∀ u, amount u ≤ maxAmount
  nonzero_of_negative : negative = true → ∃ u, amount u ≠ 0

namespace Duration

/-- Durations with the same sign and the same amounts are equal. -/
theorem ext {d e : Duration} (hn : d.negative = e.negative) (ha : ∀ u, d.amount u = e.amount u) :
    d = e := by
  obtain ⟨n, a, _, _⟩ := d
  obtain ⟨m, b, _, _⟩ := e
  obtain rfl : n = m := hn
  obtain rfl : a = b := funext ha
  rfl

instance : DecidableEq Duration := fun d e =>
  decidable_of_iff
    (d.negative = e.negative ∧ ∀ u ∈ TimeUnit.all, d.amount u = e.amount u)
    ⟨fun h => ext h.1 fun u => h.2 u (TimeUnit.mem_all u), fun h => h ▸ ⟨rfl, fun _ _ => rfl⟩⟩

/-- The duration of no time. -/
def zero : Duration := ⟨false, fun _ => 0, fun _ => Nat.zero_le _, by simp⟩

/-- Whether no unit occurs. -/
def isZero (d : Duration) : Bool := TimeUnit.all.all fun u => d.amount u = 0

theorem isZero_iff (d : Duration) : d.isZero = true ↔ ∀ u, d.amount u = 0 := by
  simp only [isZero, List.all_eq_true, decide_eq_true_eq]
  exact ⟨fun h u => h u (TimeUnit.mem_all u), fun h u _ => h u⟩

/-- A duration with `n` more of the unit `u`, where its amount still fits. -/
def add (d : Duration) (n : Nat) (u : TimeUnit) : Except Error Duration :=
  if h : d.amount u + n ≤ maxAmount then
    .ok {
      negative := d.negative
      amount := fun v => if v = u then d.amount u + n else d.amount v
      amount_le := fun v => by
        by_cases hv : v = u
        · simp [hv, h]
        · simp [hv, d.amount_le v]
      nonzero_of_negative := fun hn => by
        obtain ⟨v, hv⟩ := d.nonzero_of_negative hn
        refine ⟨v, ?_⟩
        by_cases hvu : v = u
        · subst hvu
          simp only [if_true]
          omega
        · simp [hvu, hv] }
  else .error (.argument "duration" (.tooMuch u))

/-- Adding changes the amount of one unit. -/
theorem add_amount {d e : Duration} {n : Nat} {u : TimeUnit} (h : d.add n u = .ok e)
    (v : TimeUnit) : e.amount v = d.amount v + if v = u then n else 0 := by
  unfold add at h
  split at h
  · cases h
    by_cases hv : v = u <;> simp [hv]
  · cases h

/-- The duration with amounts added to no time, one after the other. -/
def ofAmounts (parts : List (Nat × TimeUnit)) : Except Error Duration :=
  parts.foldlM (fun d p => d.add p.1 p.2) zero

/-- The duration of the other sign; no time has no sign. -/
def negate (d : Duration) : Duration where
  negative := !d.negative && !d.isZero
  amount := d.amount
  amount_le := d.amount_le
  nonzero_of_negative := fun h => by
    simp only [Bool.and_eq_true, Bool.not_eq_true', Bool.eq_false_iff, ne_eq, isZero_iff] at h
    exact Classical.not_forall.mp h.2

/-- Taking the other sign twice changes nothing. -/
theorem negate_negate (d : Duration) : d.negate.negate = d := by
  refine ext ?_ fun _ => rfl
  have hz : d.negate.isZero = d.isZero := rfl
  change (!(!d.negative && !d.isZero) && !d.negate.isZero) = d.negative
  rw [hz]
  cases hd : d.isZero with
  | false => simp
  | true =>
      cases hn : d.negative with
      | false => rfl
      | true =>
          obtain ⟨u, hu⟩ := d.nonzero_of_negative hn
          exact absurd ((isZero_iff d).mp hd u) hu

/-- The duration with a sign set, or not. -/
def withSign (negative : Bool) (d : Duration) : Duration := if negative then d.negate else d

/-- The units that occur, largest first, with their amounts. -/
def components (d : Duration) : List (TimeUnit × Nat) :=
  TimeUnit.all.filterMap fun u => if d.amount u = 0 then none else some (u, d.amount u)

/-- Whether a unit of the calendar occurs. -/
def isCalendar (d : Duration) : Bool := d.components.any fun c => c.1.isCalendar

/-! ### Counts of nanoseconds -/

/-- A count of nanoseconds split into days and the units below, weeks, months and years left
out. -/
def splitNanos (n : Nat) : TimeUnit → Nat
  | .year => 0
  | .month => 0
  | .week => 0
  | .day => n / 86400000000000
  | .hour => n / 3600000000000 % 24
  | .minute => n / 60000000000 % 60
  | .second => n / 1000000000 % 60
  | .millisecond => n / 1000000 % 1000
  | .microsecond => n / 1000 % 1000
  | .nanosecond => n % 1000

/-- The duration of whole seconds that fit 64 bits and the nanoseconds after them. -/
def ofParts (negative : Bool) (seconds nanos : Nat) (hs : seconds < UInt64.size)
    (hn : nanos < 1000000000) : Duration :=
  withSign negative {
    negative := false
    amount := splitNanos (seconds * 1000000000 + nanos)
    amount_le := fun u => by
      unfold UInt64.size at hs
      unfold maxAmount
      cases u <;> simp only [splitNanos] <;> omega
    nonzero_of_negative := by simp }

/-- The duration of a count of nanoseconds; its whole seconds must fit 64 bits. -/
def ofNanos (nanos : Int) : Except Error Duration :=
  if h : nanos.natAbs / 1000000000 < UInt64.size then
    .ok (ofParts (nanos < 0) (nanos.natAbs / 1000000000) (nanos.natAbs % 1000000000) h
      (Nat.mod_lt _ (by decide)))
  else .error (.argument "duration" (.tooLong nanos))

/-- The length of a duration without its sign, when no unit of the calendar occurs. -/
def length (d : Duration) : Nat :=
  TimeUnit.all.foldr (fun u n => d.amount u * u.nanos?.getD 0 + n) 0

/-- The count of nanoseconds of a duration; a unit of the calendar has none, and the largest one
that occurs is reported. -/
def total (d : Duration) : Except Error Int :=
  match d.components.find? fun c => c.1.isCalendar with
  | some (u, _) => .error (.argument "duration" (.calendarUnit u))
  | none => .ok (if d.negative then -(d.length : Int) else d.length)

/-! ### Literals -/

/-- An amount followed by the suffix of its unit. -/
def componentText (c : TimeUnit × Nat) : List Char := decimal c.2 ++ c.1.suffix.toList

/-- The literal of a duration: its sign and its components, or zero seconds. -/
def text (d : Duration) : List Char :=
  if d.isZero then ['0', 's']
  else (if d.negative then ['-'] else []) ++ d.components.flatMap componentText

end Duration

end BoundQuery
