/-
**Stored durations.**

What is stored as a duration need not be a duration as it is kept: its components may come in any
order, a unit may come twice or with nothing of it, and a sign may stand before no time.  It is
read by adding up, so there is a duration whenever all sums fit, and it is of the one form that
durations have.

Main definitions:

* `BoundQuery.Duration.IsStored` — a value has the shape of a stored duration, whatever stands for
  the amounts;
* `BoundQuery.Duration.storedSum` — how much of a unit there is in components of that shape.

Main results:

* `BoundQuery.Duration.components_canonical` — the components of a duration descend, none of them is
  zero or too much, and no time has no sign;
* `BoundQuery.Duration.ofJson_eq_some_iff` — what is read from a stored duration;
* `BoundQuery.Duration.ofJson_eq_none_iff` — when a stored duration is refused;
* `BoundQuery.Duration.ofJson_toJson` — a duration that is stored is read back.
-/

import BoundQuery.Proofs.Duration.ReadBack
import BoundQuery.Proofs.Tree.Stored
import BoundQuery.Value.Stored

set_option relaxedAutoImplicit false
set_option autoImplicit false

namespace BoundQuery

namespace Duration

/-! ### Components -/

/-- A duration of the one form in which durations are kept: its units descend, none of its amounts
is zero or too much, and no time has no sign. -/
structure Canonical (negative : Bool) (components : List (TimeUnit × Nat)) : Prop where
  descending : components.Pairwise fun a b => b.1.rank < a.1.rank
  amount_pos : ∀ c ∈ components, 0 < c.2
  amount_le : ∀ c ∈ components, c.2 ≤ maxAmount
  ne_nil : negative = true → components ≠ []

/-- **The components of a duration are of the one form in which durations are kept.** -/
theorem components_canonical (d : Duration) : Canonical d.negative d.components where
  descending := by
    have hall : TimeUnit.all.Pairwise fun u v => v.rank < u.rank := by decide
    refine List.Pairwise.filterMap _ (fun u v hlt a ha b hb => ?_) hall
    obtain ⟨rfl, -⟩ := eq_of_component ha
    obtain ⟨rfl, -⟩ := eq_of_component hb
    exact hlt
  amount_pos := by
    intro c hc
    obtain ⟨hne, hc⟩ := mem_components_iff.1 hc
    exact Nat.pos_of_ne_zero (hc ▸ hne)
  amount_le := fun _ => amount_le_of_mem
  ne_nil := by
    intro hneg
    obtain ⟨u, hu⟩ := d.nonzero_of_negative hneg
    refine components_ne_nil (Bool.eq_false_iff.2 fun hz => ?_)
    exact hu ((isZero_iff d).1 hz u)

/-! ### The shape of stored durations -/

/-- A component of a stored duration names its unit before its amount, whatever stands for the
amount. -/
def IsComponent (item : Json) (c : TimeUnit × Json) : Prop :=
  ∃ u, item = .array [u, c.2] ∧ TimeUnit.ofJson u = some c.1

/-- A value has the shape of a stored duration with a sign and components, whatever stands for the
amounts of these. -/
def IsStored (j : Json) (negative : Bool) (components : List (TimeUnit × Json)) : Prop :=
  ∃ sign items, j.fields? ["negative", "components"] = some [some sign, some (.array items)] ∧
    sign.bool? = some negative ∧ List.Forall₂ IsComponent items components

/-- The amount and the unit of a component, if its amount is a whole number of 64 bits without a
sign. -/
def storedPart? (c : TimeUnit × Json) : Option (Nat × TimeUnit) :=
  c.2.uint64?.map fun n => (n.toNat, c.1)

/-- How much of a unit there is in components; what is no such number is nothing. -/
def storedSum (components : List (TimeUnit × Json)) (u : TimeUnit) : Nat :=
  amountIn (components.filterMap storedPart?) u

theorem componentOfJson_of_isComponent {item : Json} {c : TimeUnit × Json}
    (h : IsComponent item c) : componentOfJson item = storedPart? c := by
  obtain ⟨u, rfl, hu⟩ := h
  rw [componentOfJson, hu, storedPart?]
  cases c.2.uint64? <;> rfl

theorem mapM_componentOfJson {items : List Json} {components : List (TimeUnit × Json)}
    (h : List.Forall₂ IsComponent items components) :
    items.mapM componentOfJson = components.mapM storedPart? := by
  induction h with
  | nil => rfl
  | cons hitem _ ih =>
      rw [List.mapM_cons, List.mapM_cons, componentOfJson_of_isComponent hitem, ih]

theorem exists_isComponent {item : Json} {part : Nat × TimeUnit}
    (h : componentOfJson item = some part) : ∃ c, IsComponent item c := by
  unfold componentOfJson at h
  split at h
  · next u n =>
      obtain ⟨amount, -, h⟩ := Option.bind_eq_some_iff.1 h
      obtain ⟨v, hv, -⟩ := Option.bind_eq_some_iff.1 h
      exact ⟨(v, n), u, rfl, hv⟩
  · cases h

theorem exists_forall₂_isComponent {items : List Json} {parts : List (Nat × TimeUnit)}
    (h : items.mapM componentOfJson = some parts) :
    ∃ components, List.Forall₂ IsComponent items components := by
  induction items generalizing parts with
  | nil => exact ⟨[], .nil⟩
  | cons item items ih =>
      rw [List.mapM_cons] at h
      obtain ⟨part, hitem, h⟩ := Option.bind_eq_some_iff.1 h
      obtain ⟨parts', hitems, -⟩ := Option.bind_eq_some_iff.1 h
      obtain ⟨c, hc⟩ := exists_isComponent hitem
      obtain ⟨components, hcomponents⟩ := ih hitems
      exact ⟨c :: components, .cons hc hcomponents⟩

/-- **What can be read has the shape of a stored duration.** -/
theorem exists_isStored {j : Json} {d : Duration} (h : ofJson j = some d) :
    ∃ negative components, IsStored j negative components := by
  unfold ofJson at h
  split at h
  · next sign list hfields =>
      obtain ⟨negative, hsign, h⟩ := Option.bind_eq_some_iff.1 h
      obtain ⟨items, hlist, h⟩ := Option.bind_eq_some_iff.1 h
      obtain ⟨parts, hparts, -⟩ := Option.bind_eq_some_iff.1 h
      obtain ⟨components, hcomponents⟩ := exists_forall₂_isComponent hparts
      cases list with
      | array items' =>
          cases hlist
          exact ⟨negative, components, sign, items, hfields, hsign, hcomponents⟩
      | _ => cases hlist
  · cases h

/-! ### Reading stored durations -/

/-- A list is read if each of its members is, -/
theorem mapM_eq_some_filterMap {α β : Type} {f : α → Option β} {l : List α}
    (h : ∀ a ∈ l, f a ≠ none) : l.mapM f = some (l.filterMap f) := by
  induction l with
  | nil => rfl
  | cons a l ih =>
      obtain ⟨ha, hl⟩ := List.forall_mem_cons.1 h
      obtain ⟨b, hb⟩ := Option.ne_none_iff_exists'.1 ha
      rw [List.mapM_cons, List.filterMap_cons_some hb, hb, ih hl]
      rfl

/-- and not at all if one of them is not. -/
theorem mapM_eq_none {α β : Type} {f : α → Option β} {l : List α} (h : ∃ a ∈ l, f a = none) :
    l.mapM f = none := by
  obtain ⟨a, hmem, ha⟩ := h
  induction l with
  | nil => cases hmem
  | cons b l ih =>
      rw [List.mapM_cons]
      rcases List.mem_cons.1 hmem with rfl | hmem
      · rw [ha]
        rfl
      · rw [ih hmem]
        cases f b <;> rfl

theorem mapM_storedPart?_eq_some_iff {components : List (TimeUnit × Json)}
    {parts : List (Nat × TimeUnit)} : components.mapM storedPart? = some parts ↔
      (∀ c ∈ components, c.2.uint64? ≠ none) ∧ parts = components.filterMap storedPart? := by
  have hpart : ∀ c : TimeUnit × Json, storedPart? c = none ↔ c.2.uint64? = none := fun _ =>
    Option.map_eq_none_iff
  by_cases hall : ∀ c ∈ components, c.2.uint64? ≠ none
  · rw [mapM_eq_some_filterMap fun c hc => mt (hpart c).1 (hall c hc)]
    exact ⟨fun h => ⟨hall, (Option.some.inj h).symm⟩, fun h => congrArg some h.2.symm⟩
  · have hnone : ∃ c ∈ components, storedPart? c = none := by
      simpa [hpart] using hall
    rw [mapM_eq_none hnone]
    exact iff_of_false (fun h => by cases h) fun h => hall h.1

section Stored

variable {j : Json} {negative : Bool} {components : List (TimeUnit × Json)}
  (h : IsStored j negative components)

include h

theorem ofJson_of_isStored {d : Duration} : ofJson j = some d ↔
    ∃ parts e, components.mapM storedPart? = some parts ∧ ofAmounts parts = .ok e ∧
      e.withSign negative = d := by
  obtain ⟨sign, items, hfields, hsign, hitems⟩ := h
  rw [ofJson, hfields, ← mapM_componentOfJson hitems]
  simp only [hsign, Json.items?]
  cases hparts : items.mapM componentOfJson with
  | none => simp [hparts]
  | some parts => cases hsum : ofAmounts parts <;> simp [hparts, hsum, Except.toOption]

/-- **What is read from a stored duration**: the sums of its amounts, and its sign unless all of
them are zero. -/
theorem ofJson_eq_some_iff {d : Duration} : ofJson j = some d ↔
    (∀ c ∈ components, c.2.uint64? ≠ none) ∧ (∀ u, d.amount u = storedSum components u) ∧
      d.negative = (negative && !d.isZero) := by
  rw [ofJson_of_isStored h]
  unfold storedSum
  rw [← exists_withSign_iff]
  constructor
  · rintro ⟨parts, e, hparts, hsum⟩
    obtain ⟨hall, rfl⟩ := mapM_storedPart?_eq_some_iff.1 hparts
    exact ⟨hall, e, hsum⟩
  · rintro ⟨hall, e, hsum⟩
    exact ⟨_, e, mapM_storedPart?_eq_some_iff.2 ⟨hall, rfl⟩, hsum⟩

/-- **A stored duration is refused exactly when an amount is no whole number of 64 bits without a
sign, or a sum is too much.** -/
theorem ofJson_eq_none_iff : ofJson j = none ↔
    (∃ c ∈ components, c.2.uint64? = none) ∨ ∃ u, maxAmount < storedSum components u := by
  rw [Option.eq_none_iff_forall_ne_some]
  constructor
  · intro hnone
    by_contra hfits
    rw [not_or, not_exists, not_exists] at hfits
    obtain ⟨hall, hfit⟩ := hfits
    obtain ⟨e, hsum⟩ := exists_ofAmounts_iff.2 fun u => Nat.le_of_not_lt (hfit u)
    refine hnone (e.withSign negative) ((ofJson_of_isStored h).2 ⟨_, e, ?_, hsum, rfl⟩)
    exact mapM_storedPart?_eq_some_iff.2 ⟨fun c hc hn => hall c ⟨hc, hn⟩, rfl⟩
  · rintro hrefused d hd
    obtain ⟨hall, hamount, -⟩ := (ofJson_eq_some_iff h).1 hd
    rcases hrefused with ⟨c, hc, hn⟩ | ⟨u, hu⟩
    · exact hall c hc hn
    · exact absurd (hamount u ▸ d.amount_le u) (Nat.not_le_of_lt hu)

end Stored

/-! ### Durations that are stored -/

theorem lt_size_of_component {d : Duration} {c : TimeUnit × Nat} (h : c ∈ d.components) :
    c.2 < UInt64.size :=
  Nat.lt_of_le_of_lt (d.components_canonical.amount_le c h) (by decide)

/-- The components of a duration as they are stored. -/
def jsonComponents (d : Duration) : List (TimeUnit × Json) :=
  d.components.map fun c => (c.1, .int c.2)

/-- A duration is stored in the shape of a stored duration. -/
theorem isStored_toJson (d : Duration) : IsStored d.toJson d.negative d.jsonComponents := by
  refine ⟨.bool d.negative, _, Json.fields?_object (by simp) _, rfl, ?_⟩
  unfold jsonComponents
  rw [List.forall₂_map_left_iff, List.forall₂_map_right_iff]
  exact List.forall₂_same.2 fun c _ => ⟨_, rfl, TimeUnit.ofName?_name c.1⟩

theorem filterMap_jsonComponents (d : Duration) :
    d.jsonComponents.filterMap storedPart? = d.components.map Prod.swap := by
  unfold jsonComponents
  rw [List.filterMap_map, ← List.filterMap_eq_map]
  refine List.filterMap_congr fun c hc => ?_
  have hlt := lt_size_of_component hc
  rw [Function.comp_apply, storedPart?, Json.uint64?_natCast hlt, Option.map_some,
    UInt64.toNat_ofNat_of_lt' hlt]
  rfl

/-- **A duration that is stored is read back.** -/
theorem ofJson_toJson (d : Duration) : ofJson d.toJson = some d := by
  refine (ofJson_eq_some_iff d.isStored_toJson).2 ⟨?_, fun u => ?_, d.negative_eq⟩
  · intro c hc
    obtain ⟨c', hc', rfl⟩ := List.mem_map.1 hc
    rw [Json.uint64?_natCast (lt_size_of_component hc')]
    exact Option.some_ne_none _
  · rw [storedSum, filterMap_jsonComponents, amountIn_components]

end Duration

end BoundQuery
