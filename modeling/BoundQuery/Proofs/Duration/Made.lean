/-
**The rows that are made.**

Rows are made by adding amounts, by taking the other sign, from counts of time, and by reading texts
and what was stored.  Some of these steps put components into a row without looking at those that
are there, yet every row that any number of them makes is the row of a duration.  What is shown of
durations, which have no order of components and no numbers that could be cut off, thereby holds of
all these rows.

Main definitions:

* `BoundQuery.Duration.Row.Made` — a row that operations on durations make.

Main results:

* `BoundQuery.Duration.made_iff` — the rows that are made are the rows of durations;
* `BoundQuery.Duration.Row.Made.canonical_orderless` — such a row descends without zeros, and the
  order in which amounts are added to it does not matter;
* `BoundQuery.Duration.Row.total_exact` — counts of nanoseconds are turned into rows and back
  without loss;
* `BoundQuery.Duration.Row.ofNanos_refused_iff` — which counts have no row.
-/

import BoundQuery.Proofs.Duration.Total

set_option relaxedAutoImplicit false
set_option autoImplicit false

namespace BoundQuery

namespace Duration

/-- The rows that the operations on durations make, whichever of them are used and how often. -/
inductive Row.Made : Row → Prop
  | zero : Made zero
  | single (n : UInt32) (u : TimeUnit) : Made (single n u)
  | add {r s : Row} {n : Nat} {u : TimeUnit} : Made r → r.add n u = .ok s → Made s
  | negate {r : Row} : Made r → Made r.negate
  | ofNanos {n : Int} {r : Row} : ofNanos n = .ok r → Made r
  | ofClock (seconds : UInt64) {nanos : UInt32} :
      nanos.toNat < 1000000000 → Made (ofClock seconds nanos)
  | ofSpan (s : Span) : Made (ofSpan s)
  | ofLiteral {s : String} {r : Row} : ofLiteral s = .ok r → Made r
  | ofJson {j : Json} {r : Row} : ofJson j = some r → Made r

/-- One amount of 32 bits has the row of the duration with that amount. -/
theorem exists_row_single (n : UInt32) (u : TimeUnit) : ∃ d : Duration, d.row = Row.single n u := by
  have hlt := n.toNat_lt
  unfold Row.single
  split
  · next hpos =>
      have hne : n.toNat ≠ 0 := Nat.ne_of_gt (UInt32.lt_iff_toNat_lt.1 hpos)
      have hfits : zero.amount u + n.toNat ≤ maxAmount := by
        change 0 + n.toNat ≤ maxAmount
        unfold maxAmount
        omega
      have hrow : zero.row.components = [] ++ [] ++ [] := rfl
      obtain ⟨e, -, he⟩ := exists_row_of_add hrow (by simp) (by simp) (by simp) hfits hne
      refine ⟨e, he.trans ?_⟩
      have hzero : zero.amount u + n.toNat = n.toNat := Nat.zero_add _
      rw [hzero]
      rfl
  · exact ⟨zero, rfl⟩

theorem exists_of_map_row_eq_ok {x : Except Error Duration} {r : Row} (h : x.map row = .ok r) :
    ∃ d, x = .ok d ∧ d.row = r := by
  cases x with
  | error e => cases h
  | ok d =>
      cases h
      exact ⟨d, rfl, rfl⟩

/-- **The rows that are made are the rows of durations.** -/
theorem made_iff {r : Row} : Row.Made r ↔ ∃ d : Duration, d.row = r := by
  constructor
  · intro h
    induction h with
    | zero => exact ⟨zero, rfl⟩
    | single n u => exact exists_row_single n u
    | add _ hadd ih =>
        obtain ⟨d, rfl⟩ := ih
        rw [row_add] at hadd
        obtain ⟨e, -, he⟩ := exists_of_map_row_eq_ok hadd
        exact ⟨e, he⟩
    | negate _ ih =>
        obtain ⟨d, rfl⟩ := ih
        exact ⟨d.negate, d.row_negate.symm⟩
    | ofNanos h =>
        rw [row_ofNanos] at h
        obtain ⟨e, -, he⟩ := exists_of_map_row_eq_ok h
        exact ⟨e, he⟩
    | ofClock seconds h => exact ⟨_, (row_ofParts false h).symm⟩
    | ofSpan s => exact ⟨_, (row_ofSpan s).symm⟩
    | ofLiteral h =>
        rw [row_ofLiteral] at h
        obtain ⟨e, -, he⟩ := exists_of_map_row_eq_ok h
        exact ⟨e, he⟩
    | ofJson h =>
        rw [row_ofJson] at h
        obtain ⟨d, -, hd⟩ := Option.map_eq_some_iff.1 h
        exact ⟨d, hd⟩
  · rintro ⟨d, rfl⟩
    -- every duration is read back from what is stored of it
    exact .ofJson (j := d.toJson) (by rw [row_ofJson, ofJson_toJson, Option.map_some])

/-! ### Adding in any order -/

/-- What adding amounts to a row gives: its sign, and its own amounts and the sums. -/
theorem addAll_row_eq_ok_iff {d : Duration} {parts : List (Nat × TimeUnit)} {s : Row} :
    d.row.addAll parts = .ok s ↔ ∃ e : Duration, e.row = s ∧ e.negative = d.negative ∧
      ∀ u, e.amount u = d.amount u + amountIn parts u := by
  rw [row_addAll]
  constructor
  · intro h
    cases hfold : parts.foldlM (fun (d : Duration) p => d.add p.1 p.2) d with
    | error f =>
        rw [hfold] at h
        cases h
    | ok e =>
        rw [hfold] at h
        cases h
        exact ⟨e, rfl, foldlM_add_eq_ok_iff.1 hfold⟩
  · rintro ⟨e, rfl, hsum⟩
    rw [foldlM_add_eq_ok_iff.2 hsum]
    rfl

/-- **Every row that is made is of the one form in which durations are kept, and it does not matter
in which order amounts are added to it.** -/
theorem Row.Made.canonical_orderless {r : Row} (h : Row.Made r) :
    Canonical r.negative r.parts ∧
    (∃ d : Duration, d.row = r ∧ d.text = r.text ∧ ∀ parts,
      r.addAll parts = (parts.foldlM (fun (d : Duration) p => d.add p.1 p.2) d).map row) ∧
    r.negate.negate = r ∧
    ∀ parts : List (Nat × TimeUnit),
      ((∃ s, r.addAll parts = .ok s) ↔ ∀ u, r.amount u + amountIn parts u ≤ maxAmount) ∧
      (∀ s, r.addAll parts = .ok s →
        s.negative = r.negative ∧ ∀ u, s.amount u = r.amount u + amountIn parts u) ∧
      ∀ parts', parts.Perm parts' → ∀ s, r.addAll parts = .ok s ↔ r.addAll parts' = .ok s := by
  obtain ⟨d, rfl⟩ := made_iff.1 h
  refine ⟨parts_row d ▸ d.components_canonical, ⟨d, rfl, d.text_row.symm, d.row_addAll⟩, ?_,
    fun parts => ⟨?_, ?_, ?_⟩⟩
  · rw [row_negate, row_negate, negate_negate]
  · simp only [amount_row]
    constructor
    · rintro ⟨s, hs⟩ u
      obtain ⟨e, -, -, hamount⟩ := addAll_row_eq_ok_iff.1 hs
      exact hamount u ▸ e.amount_le u
    · intro hfit
      obtain ⟨e, -, hneg, hamount⟩ := foldlM_add hfit
      exact ⟨e.row, addAll_row_eq_ok_iff.2 ⟨e, rfl, hneg, hamount⟩⟩
  · intro s hs
    obtain ⟨e, rfl, hneg, hamount⟩ := addAll_row_eq_ok_iff.1 hs
    refine ⟨hneg, fun u => ?_⟩
    rw [amount_row, amount_row, hamount]
  · intro parts' hperm s
    simp only [addAll_row_eq_ok_iff, amountIn_perm hperm]

/-- Three amounts in no order are added to one hour and five minutes that point backwards. -/
theorem Row.Made.canonical_orderless_hours :
    Row.ofLiteral "-5m1h" = .ok ⟨true, [(.hour, 1), (.minute, 5)]⟩ ∧
    Row.addAll ⟨true, [(.hour, 1), (.minute, 5)]⟩ [(55, .minute), (7, .nanosecond), (2, .hour)] =
      .ok ⟨true, [(.hour, 3), (.minute, 60), (.nanosecond, 7)]⟩ ∧
    Row.addAll ⟨true, [(.hour, 1), (.minute, 5)]⟩ [(2, .hour), (7, .nanosecond), (55, .minute)] =
      .ok ⟨true, [(.hour, 3), (.minute, 60), (.nanosecond, 7)]⟩ := by
  have hread : Row.ofLiteral "-5m1h" = .ok ⟨true, [(.hour, 1), (.minute, 5)]⟩ := by decide +kernel
  have hadd : Row.addAll ⟨true, [(.hour, 1), (.minute, 5)]⟩
      [(55, .minute), (7, .nanosecond), (2, .hour)] =
        .ok ⟨true, [(.hour, 3), (.minute, 60), (.nanosecond, 7)]⟩ := by decide +kernel
  obtain ⟨-, -, -, h⟩ := Row.Made.canonical_orderless (.ofLiteral hread)
  obtain ⟨-, -, hperm⟩ := h [(55, .minute), (7, .nanosecond), (2, .hour)]
  exact ⟨hread, hadd, (hperm _ (by decide) _).1 hadd⟩

/-! ### Counts of nanoseconds and back -/

theorem exists_calendar_row_iff {d : Duration} :
    (∃ c ∈ d.row.components, c.1 = .month ∨ c.1 = .year) ↔
      d.amount .month ≠ 0 ∨ d.amount .year ≠ 0 := by
  constructor
  · rintro ⟨c, hc, h | h⟩
    · exact .inl (h ▸ (mem_row_iff.1 hc).1)
    · exact .inr (h ▸ (mem_row_iff.1 hc).1)
  · rintro (h | h)
    · exact ⟨_, component_mem_row h, .inl rfl⟩
    · exact ⟨_, component_mem_row h, .inr rfl⟩

/-- Split amounts are of the units into which counts are split. -/
theorem mem_clockUnits_of_isSplit {d : Duration} (h : IsSplit d.amount) {c : TimeUnit × Int64}
    (hc : c ∈ d.row.components) : c.1 ∈ Row.clockUnits := by
  obtain ⟨u, n⟩ := c
  have hne := (mem_row_iff.1 hc).1
  cases u with
  | year => exact absurd h.year hne
  | month => exact absurd h.month hne
  | week => exact absurd h.week hne
  | _ => simp [Row.clockUnits]

theorem row_amount_eq (d : Duration) : d.row.amount = d.amount := funext d.amount_row

/-- **Counts of nanoseconds are turned into rows and back without loss.**  The row of a count has it
for its total, and no other row that is split does; clocks and spans have the rows of their counts.
A total is missing only where a unit of the calendar occurs, else it is the exact sum, and the other
sign gives its opposite. -/
theorem Row.total_exact :
    (∀ n r, Row.ofNanos n = .ok r →
      (∃ d, Duration.ofNanos n = .ok d ∧ d.row = r) ∧ r.total = .ok n ∧
      (∀ c ∈ r.components, c.1 ∈ clockUnits) ∧ IsSplit r.amount ∧
      ∀ s, Made s → IsSplit s.amount → s.total = .ok n → s = r) ∧
    (∀ (seconds : UInt64) (nanos : UInt32), nanos.toNat < 1000000000 →
      Row.ofNanos (seconds.toNat * 1000000000 + nanos.toNat) = .ok (ofClock seconds nanos)) ∧
    (∀ s : Span, Row.ofNanos s.total = .ok (Row.ofSpan s)) ∧
    ∀ r, Made r →
      (∃ d : Duration, d.row = r ∧ d.total = r.total) ∧
      ((∃ e, r.total = .error e) ↔ ∃ c ∈ r.components, c.1 = .month ∨ c.1 = .year) ∧
      (∀ n, r.total = .ok n → n =
        if r.negative then -(r.components.map nanosOf).sum else (r.components.map nanosOf).sum) ∧
      r.negate.total = r.total.map (- ·) := by
  refine ⟨fun n r h => ?_, fun seconds nanos h => ?_, fun s => ?_, fun r h => ?_⟩
  · rw [row_ofNanos] at h
    obtain ⟨d, hd, rfl⟩ := exists_of_map_row_eq_ok h
    obtain ⟨htotal, hsplit⟩ := total_ofNanos hd
    refine ⟨⟨d, hd, rfl⟩, d.total_row.trans htotal, fun c hc => mem_clockUnits_of_isSplit hsplit hc,
      d.row_amount_eq ▸ hsplit, fun s hs hsplit' htotal' => ?_⟩
    obtain ⟨e, rfl⟩ := made_iff.1 hs
    rw [row_amount_eq] at hsplit'
    rw [total_row, ← htotal] at htotal'
    rw [eq_of_total_eq hsplit' hsplit htotal']
  · rw [row_ofNanos, ofNanos_eq_ofParts seconds.toNat_lt h (by omega)]
    have hsign : decide ((seconds.toNat * 1000000000 + nanos.toNat : Int) < 0) = false :=
      decide_eq_false (by omega)
    rw [hsign, Row.ofClock, row_ofParts false h]
    rfl
  · rw [row_ofNanos, ofNanos_total, row_ofSpan]
    rfl
  · obtain ⟨d, rfl⟩ := made_iff.1 h
    refine ⟨⟨d, rfl, d.total_row.symm⟩, ?_⟩
    rw [row_negate, total_row, total_row, total_negate, exists_calendar_row_iff, sum_nanosOf_row]
    refine ⟨⟨?_, ?_⟩, fun n => eq_of_total_eq_ok, rfl⟩
    · rintro ⟨e, he⟩
      by_contra hnone
      obtain ⟨hmonth, hyear⟩ := not_or.1 hnone
      rw [total_of_fixed (not_ne_iff.1 hmonth) (not_ne_iff.1 hyear)] at he
      cases he
    · intro h
      obtain ⟨u, hu⟩ := total_of_calendar h
      exact ⟨_, hu⟩

/-- Both parts of a span that ends a nanosecond before it began point backwards. -/
example : Row.ofSpan ⟨-1, 999999999, by decide, by decide⟩ = ⟨true, [(.nanosecond, 1)]⟩ := by
  decide +kernel

/-! ### Which counts are refused -/

/-- A count of nanoseconds is refused from `2 ^ 64` seconds on. -/
theorem ofNanos_eq_error_iff {n : Int} {e : Error} : ofNanos n = .error e ↔
    UInt64.size * 1000000000 ≤ n.natAbs ∧ e = .argument "duration" (.tooLong n) := by
  have hseconds : UInt64.size ≤ n.natAbs / 1000000000 ↔ UInt64.size * 1000000000 ≤ n.natAbs :=
    Nat.le_div_iff_mul_le (by omega)
  unfold ofNanos
  split
  · next h => simp [← hseconds, Nat.not_le.2 h]
  · next h => simp [← hseconds, Nat.not_lt.1 h, eq_comm]

/-- Amounts of 32 bits come to less than `2 ^ 64` seconds. -/
theorem length_lt_of_amount_lt {d : Duration} (h : ∀ u, d.amount u < 2 ^ 32) :
    d.length < UInt64.size * 1000000000 := by
  have hweek := h .week
  have hday := h .day
  have hhour := h .hour
  have hminute := h .minute
  have hsecond := h .second
  have hmilli := h .millisecond
  have hmicro := h .microsecond
  have hnano := h .nanosecond
  rw [length_eq]
  unfold UInt64.size
  omega

theorem Row.ofNanos_eq_error_iff {n : Int} {e : Error} : Row.ofNanos n = .error e ↔
    UInt64.size * 1000000000 ≤ n.natAbs ∧ e = .argument "duration" (.tooLong n) := by
  rw [row_ofNanos, ← Duration.ofNanos_eq_error_iff]
  cases Duration.ofNanos n <;> simp [Except.map]

/-- A shorter count has a row, whose total it is. -/
theorem Row.exists_ofNanos_total {n : Int} (h : n.natAbs < UInt64.size * 1000000000) :
    ∃ r, Row.ofNanos n = .ok r ∧ r.total = .ok n := by
  cases hread : Duration.ofNanos n with
  | error e => exact absurd (Duration.ofNanos_eq_error_iff.1 hread).1 (Nat.not_le.2 h)
  | ok d =>
      refine ⟨d.row, ?_, ?_⟩
      · rw [row_ofNanos, hread]
        rfl
      · rw [total_row]
        exact (total_ofNanos hread).1

/-- The row of a count has as many days as go into the count. -/
theorem Row.amount_day_of_ofNanos {n : Int} {r : Row} (h : Row.ofNanos n = .ok r) :
    r.amount .day = n.natAbs / 86400000000000 := by
  rw [row_ofNanos] at h
  obtain ⟨d, hd, rfl⟩ := exists_of_map_row_eq_ok h
  obtain ⟨e, rfl, -, hamount⟩ := exists_of_ofNanos hd
  rw [amount_row, withSign_amount, hamount]
  rfl

/-- A total of amounts of 32 bits is less than `2 ^ 64` seconds. -/
theorem Row.natAbs_lt_of_total {r : Row} (hr : Made r) (hsmall : ∀ u, r.amount u < 2 ^ 32) {n : Int}
    (htotal : r.total = .ok n) : n.natAbs < UInt64.size * 1000000000 := by
  obtain ⟨d, rfl⟩ := made_iff.1 hr
  rw [row_amount_eq] at hsmall
  have hlength := length_lt_of_amount_lt hsmall
  rw [total_row] at htotal
  rw [eq_of_total_eq_ok htotal]
  split
  · rw [Int.natAbs_neg, Int.natAbs_natCast]
    exact hlength
  · rw [Int.natAbs_natCast]
    exact hlength

/-- **A count of nanoseconds is refused exactly when its whole seconds do not fit 64 bits**, which
is the case from somewhat more than 213503982334601 days on and for every count with more days than
an amount can hold.  A count that is accepted keeps its days, and the total of a row is accepted
when it is shorter than that, as it is where all amounts have 32 bits. -/
theorem Row.ofNanos_refused_iff (n : Int) :
    (∀ e, Row.ofNanos n = .error e ↔
      UInt64.size * 1000000000 ≤ n.natAbs ∧ e = .argument "duration" (.tooLong n)) ∧
    (maxAmount < n.natAbs / 86400000000000 → ∃ e, Row.ofNanos n = .error e) ∧
    (n.natAbs / 86400000000000 < 213503982334601 → ∃ r, Row.ofNanos n = .ok r) ∧
    (∀ r, Row.ofNanos n = .ok r → r.amount .day = n.natAbs / 86400000000000) ∧
    ∀ r, Made r → r.total = .ok n →
      ((∃ s, Row.ofNanos n = .ok s ∧ s.total = .ok n) ↔ n.natAbs < UInt64.size * 1000000000) ∧
      ((∀ u, r.amount u < 2 ^ 32) → ∃ s, Row.ofNanos n = .ok s ∧ s.total = .ok n) := by
  refine ⟨fun e => Row.ofNanos_eq_error_iff, fun h => ?_, fun h => ?_,
    fun r => amount_day_of_ofNanos, fun r hr htotal => ⟨⟨?_, exists_ofNanos_total⟩, ?_⟩⟩
  · unfold maxAmount at h
    have hlong : UInt64.size * 1000000000 ≤ n.natAbs := by
      unfold UInt64.size
      omega
    exact ⟨_, Row.ofNanos_eq_error_iff.2 ⟨hlong, rfl⟩⟩
  · have hshort : n.natAbs < UInt64.size * 1000000000 := by
      unfold UInt64.size
      omega
    obtain ⟨s, hs, -⟩ := exists_ofNanos_total hshort
    exact ⟨s, hs⟩
  · rintro ⟨s, hs, -⟩
    by_contra hlong
    rw [Row.ofNanos_eq_error_iff.2 ⟨Nat.not_lt.1 hlong, rfl⟩] at hs
    cases hs
  · intro hsmall
    exact exists_ofNanos_total (natAbs_lt_of_total hr hsmall htotal)

/-- The least count that is refused is the total of a row with far fewer days than an amount can
hold. -/
theorem Row.total_refused :
    ∃ n r, Row.ofLiteral "213503982334601d7h16s" = .ok r ∧ r.total = .ok n ∧
      n.natAbs / 86400000000000 ≤ maxAmount ∧
      Row.ofNanos n = .error (.argument "duration" (.tooLong n)) := by
  refine ⟨18446744073709551616000000000,
    ⟨false, [(.day, 213503982334601), (.hour, 7), (.second, 16)]⟩, ?_, ?_, ?_, ?_⟩
  · decide +kernel
  · decide +kernel
  · decide
  · decide +kernel

end Duration

end BoundQuery
