/-
**Spans of time as clocks measure them.**

A clock measures a span in whole seconds and the nanoseconds after them.  The seconds are rounded
down, so a span that points backwards has one second more than it lasts, and nanoseconds that lead
back.  Every span whose seconds fit 64 bits besides their sign is a duration.

Main definitions:

* `BoundQuery.Span`, `BoundQuery.Span.total` — a span, and its count of nanoseconds;
* `BoundQuery.Span.wholeSeconds`, `BoundQuery.Span.restNanos` — its seconds rounded towards zero,
  and the nanoseconds that are left;
* `BoundQuery.Duration.ofSpan` — the duration of a span.
-/

import BoundQuery.Duration.Basic

set_option relaxedAutoImplicit false
set_option autoImplicit false

namespace BoundQuery

/-- Whole seconds, rounded down, and the nanoseconds after them. -/
structure Span where
  seconds : Int
  nanos : Nat
  nanos_lt : nanos < 1000000000
  natAbs_seconds_lt : seconds.natAbs < UInt64.size
deriving DecidableEq

namespace Span

/-- The count of nanoseconds. -/
def total (s : Span) : Int := s.seconds * 1000000000 + s.nanos

/-- The seconds rounded towards zero, without their sign. -/
def wholeSeconds (s : Span) : Nat :=
  if s.seconds < 0 ∧ s.nanos ≠ 0 then s.seconds.natAbs - 1 else s.seconds.natAbs

/-- The nanoseconds that are left besides the seconds rounded towards zero, without their sign. -/
def restNanos (s : Span) : Nat :=
  if s.seconds < 0 ∧ s.nanos ≠ 0 then 1000000000 - s.nanos else s.nanos

theorem wholeSeconds_lt (s : Span) : s.wholeSeconds < UInt64.size := by
  have := s.natAbs_seconds_lt
  unfold wholeSeconds
  split <;> omega

theorem restNanos_lt (s : Span) : s.restNanos < 1000000000 := by
  have := s.nanos_lt
  unfold restNanos
  split <;> omega

end Span

/-- The duration of a span. -/
def Duration.ofSpan (s : Span) : Duration :=
  ofParts (s.seconds < 0) s.wholeSeconds s.restNanos s.wholeSeconds_lt s.restNanos_lt

end BoundQuery
