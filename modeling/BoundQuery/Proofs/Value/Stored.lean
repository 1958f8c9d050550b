/-
**Stored values come back as values.**

What is stored as a value may have been written by anyone.  Whatever of it is read is of the form
in which values are kept: a duration has descending units and no amount of zero, a pattern is in
the spelling in which patterns are kept and can be matched, and an instant has a text that reads
back.  On values of that form, reading undoes storing, so what was read is stored and read again as
itself.  Floating-point numbers are left out, since a stored number may be a rounded one and an
infinity has no stored form.

Main definitions:

* `BoundQuery.Value.Kept` — a value is of the form in which values are kept;
* `BoundQuery.Value.Storable` — a value is no floating-point number, and no instant whose text does
  not read back.

Main results:

* `BoundQuery.Pattern.ofJson_eq_some_iff` — which patterns are read;
* `BoundQuery.Value.kept_of_ofJson` — only values of the form in which values are kept are read;
* `BoundQuery.Value.ofJson_toJson` — a value that is stored is read back;
* `BoundQuery.Value.stored_reenter_valid` — all of this together, with what is read from a stored
  duration whose components come in any order.
-/

import BoundQuery.Proofs.Duration.Stored
import BoundQuery.Proofs.Pattern.ReadBack
import BoundQuery.Proofs.Time.Stored

set_option relaxedAutoImplicit false
set_option autoImplicit false

namespace BoundQuery

/-! ### Instants -/

theorem Instant.ofJson_text (t : Instant) :
    Instant.ofJson (.string (String.ofList t.text)) = readLenient t.text := by
  rw [Instant.ofJson, Json.string?, Option.bind_eq_bind, Option.bind_some, String.toList_ofList]

/-- Only instants that can be stored are read. -/
theorem Instant.storable_of_ofJson {j : Json} {t : Instant} (h : Instant.ofJson j = some t) :
    t.Storable := by
  obtain ⟨s, -, hs⟩ := Option.bind_eq_some_iff.1 h
  exact storable_of_readLenient hs

/-! ### Patterns -/

namespace Pattern

/-- **A pattern is read from any text that can be matched in the spelling in which it is kept**,
and has that spelling. -/
theorem ofJson_eq_some_iff {j : Json} {p : Pattern} : ofJson j = some p ↔
    ∃ s, j = .string s ∧ p.spelling = normalize s.toList := by
  constructor
  · intro h
    obtain ⟨s, hs, h⟩ := Option.bind_eq_some_iff.1 h
    cases j with
    | string s' =>
        cases hs
        exact ⟨s, rfl, spelling_of_ofText (accepts_iff.1 (.inr h))⟩
    | _ => cases hs
  · rintro ⟨s, rfl, hspelling⟩
    have hread : ofText s.toList = .ok p := by
      have hadmissible : isAdmissible (normalize s.toList) = true := hspelling ▸ p.admissible
      rw [ofText, dif_pos hadmissible]
      obtain ⟨spelling, hnormal, hadm⟩ := p
      dsimp only at hspelling
      subst hspelling
      rfl
    rw [ofJson, Json.string?, Option.bind_eq_bind, Option.bind_some, hread]
    rfl

/-- A pattern that is stored is read back. -/
theorem ofJson_toText (p : Pattern) : ofJson (.string p.toText) = some p := by
  refine ofJson_eq_some_iff.2 ⟨_, rfl, ?_⟩
  rw [toText, String.toList_ofList, p.normal]

end Pattern

/-! ### Values -/

namespace Value

/-- A value is of the form in which values are kept. -/
def Kept : Value → Prop
  | instant t => t.Storable
  | duration d => Duration.Canonical d.negative d.components
  | pattern p => Pattern.normalize p.spelling = p.spelling ∧
      Pattern.isAdmissible p.spelling = true
  | _ => True

/-- A value is no floating-point number, and no instant whose text does not read back. -/
def Storable : Value → Prop
  | float _ => False
  | instant t => t.Storable
  | _ => True

/-- **Only values of the form in which values are kept are read.** -/
theorem kept_of_ofJson {j : Json} {v : Value} (h : ofJson j = some v) : v.Kept := by
  obtain ⟨⟨name, content⟩, -, h⟩ := Option.bind_eq_some_iff.1 h
  dsimp only at h
  split at h
  case h_6 =>
    obtain ⟨t, ht, rfl⟩ := Option.map_eq_some_iff.1 h
    exact Instant.storable_of_ofJson ht
  case h_7 =>
    obtain ⟨d, -, rfl⟩ := Option.map_eq_some_iff.1 h
    exact d.components_canonical
  case h_8 =>
    obtain ⟨p, -, rfl⟩ := Option.map_eq_some_iff.1 h
    exact ⟨p.normal, p.admissible⟩
  case h_9 => cases h
  all_goals
    obtain ⟨_, -, rfl⟩ := Option.map_eq_some_iff.1 h
    trivial

/-- A value of the form in which values are kept can be stored and read again, unless it is a
floating-point number. -/
theorem Kept.storable {v : Value} (h : v.Kept) (hfloat : v.kind ≠ .float) : v.Storable := by
  cases v with
  | float x => exact absurd rfl hfloat
  | instant t => exact h
  | _ => trivial

theorem ofJson_unsigned (j : Json) : ofJson (.object [("UInt", j)]) = j.uint64?.map unsigned := by
  simp only [ofJson, Json.wrapped?, Option.bind_eq_bind, Option.bind_some]

/-- **A value that is stored is read back.** -/
theorem ofJson_toJson {v : Value} (h : v.Storable) : ofJson v.toJson = some v := by
  cases v with
  | boolean b => rfl
  | integer n =>
      simp only [toJson, ofJson, Json.wrapped?, Option.bind_eq_bind, Option.bind_some,
        Json.int64?_toInt, Option.map_some]
  | unsigned n => rw [toJson, ofJson_unsigned, Json.uint64?_toNat, Option.map_some]
  | float x => cases h
  | text s => rfl
  | instant t =>
      have hread := (Instant.readLenient_text_eq_some_iff t).2 h
      simp only [toJson, ofJson, Json.wrapped?, Option.bind_eq_bind, Option.bind_some,
        Instant.ofJson_text, hread, Option.map_some]
  | duration d =>
      simp only [toJson, ofJson, Json.wrapped?, Option.bind_eq_bind, Option.bind_some,
        Duration.ofJson_toJson, Option.map_some]
  | pattern p =>
      simp only [toJson, ofJson, Json.wrapped?, Option.bind_eq_bind, Option.bind_some,
        Pattern.ofJson_toText, Option.map_some]

/-! ### Everything that is stored -/

/-- **Stored values come back in the form in which values are kept, and as themselves**, so what is
stored, read and stored again is stored alike.  A duration may be stored with its components in any
order and with some of them repeated or zero: what is read has the sums, and nothing is read exactly
when an amount is no whole number of 64 bits without a sign or a sum is too much. -/
theorem stored_reenter_valid :
    (∀ j d, Duration.ofJson j = some d → Duration.Canonical d.negative d.components ∧
      ∃ negative components, Duration.IsStored j negative components) ∧
    (∀ j p, Pattern.ofJson j = some p → Pattern.normalize p.spelling = p.spelling ∧
      Pattern.isAdmissible p.spelling = true) ∧
    (∀ j p, Pattern.ofJson j = some p ↔
      ∃ s, j = .string s ∧ p.spelling = Pattern.normalize s.toList) ∧
    (∀ j v, ofJson j = some v → v.Kept) ∧
    (∀ d, Duration.ofJson d.toJson = some d) ∧
    (∀ p, Pattern.ofJson (.string p.toText) = some p) ∧
    (∀ v, v.kind ≠ .float → (ofJson v.toJson = some v ↔ v.Storable)) ∧
    (∀ j v, ofJson j = some v → v.kind ≠ .float → ofJson v.toJson = some v) ∧
    ∀ j negative components, Duration.IsStored j negative components →
      (∀ d, Duration.ofJson j = some d ↔ (∀ c ∈ components, c.2.uint64? ≠ none) ∧
        (∀ u, d.amount u = Duration.storedSum components u) ∧
        d.negative = (negative && !d.isZero)) ∧
      (Duration.ofJson j = none ↔ (∃ c ∈ components, c.2.uint64? = none) ∨
        ∃ u, maxAmount < Duration.storedSum components u) := by
  refine ⟨fun _ d h => ⟨d.components_canonical, Duration.exists_isStored h⟩,
    fun _ p _ => ⟨p.normal, p.admissible⟩, fun _ _ => Pattern.ofJson_eq_some_iff,
    fun _ _ => kept_of_ofJson, Duration.ofJson_toJson, Pattern.ofJson_toText,
    fun v hfloat => ⟨fun h => ?_, ofJson_toJson⟩, fun _ _ h hfloat => ?_,
    fun _ _ _ h => ⟨fun _ => Duration.ofJson_eq_some_iff h, Duration.ofJson_eq_none_iff h⟩⟩
  · exact (kept_of_ofJson h).storable hfloat
  · exact ofJson_toJson ((kept_of_ofJson h).storable hfloat)

/-- Seconds before and after a day, and no hours, come back as a day and the sum of the seconds. -/
theorem stored_reenter_valid_unordered :
    ∃ d, Duration.ofJson (.object [("components", .array [
        .array [.string "Second", .int 5], .array [.string "Day", .int 1],
        .array [.string "Hour", .int 0], .array [.string "Second", .int 7]]),
        ("negative", .bool true)]) = some d ∧
      d.negative = true ∧ d.components = [(.day, 1), (.second, 12)] ∧
      ofJson (duration d).toJson = some (duration d) := by
  let d : Duration := {
    negative := true
    amount := fun | .day => 1 | .second => 12 | _ => 0
    amount_le := fun u => by cases u <;> decide
    nonzero_of_negative := fun _ => ⟨.day, by decide⟩ }
  obtain ⟨-, -, -, -, -, -, hback, -, hread⟩ := stored_reenter_valid
  refine ⟨d, ((hread _ true [(.second, .int 5), (.day, .int 1), (.hour, .int 0),
    (.second, .int 7)] ?_).1 d).2 ⟨?_, ?_, rfl⟩, rfl, rfl, (hback (duration d) ?_).2 trivial⟩
  · refine ⟨.bool true, _, rfl, rfl, ?_⟩
    repeat' constructor
  · decide
  · intro u
    cases u <;> rfl
  · decide

end Value

end BoundQuery
