/-
**Which values are bound.**

A policy says of every kind whether its values are kept apart from the text of the query and only
referred to.  Patterns always are.

Main definitions:

* `BoundQuery.Policy`, `BoundQuery.Policy.binds` — a policy;
* `BoundQuery.Policy.all`, `BoundQuery.Policy.none`, `BoundQuery.Policy.ofKinds`,
  `BoundQuery.Policy.union` — policies;
* `BoundQuery.Policy.contains` — one policy binds whatever another one does;
* `BoundQuery.Policy.toJson`, `BoundQuery.Policy.ofJson` — the stored form of a policy.

Main results:

* `BoundQuery.Policy.ext` — policies that bind the same kinds are equal.
-/

import BoundQuery.Value.Stored

set_option relaxedAutoImplicit false
set_option autoImplicit false

namespace BoundQuery

/-- Which kinds are bound; patterns are under every policy. -/
structure Policy where
  /-- Whether values of the kind are bound. -/
  binds : Kind → Bool
  binds_pattern : binds .pattern = true

namespace Policy

/-- Policies that bind the same kinds are equal. -/
theorem ext {p q : Policy} (h : ∀ k, p.binds k = q.binds k) : p = q := by
  obtain ⟨f, _⟩ := p
  obtain ⟨g, _⟩ := q
  obtain rfl : f = g := funext h
  rfl

instance : DecidableEq Policy := fun p q =>
  decidable_of_iff (∀ k ∈ Kind.all, p.binds k = q.binds k)
    ⟨fun h => ext fun k => h k (Kind.mem_all k), fun h => h ▸ fun _ _ => rfl⟩

/-- Binds every kind. -/
def all : Policy := ⟨fun _ => true, rfl⟩

/-- Binds the given kinds, and patterns. -/
def ofKinds (ks : List Kind) : Policy := ⟨fun k => k = .pattern || ks.contains k, rfl⟩

/-- Binds patterns alone. -/
def none : Policy := ofKinds []

/-- Binds what either of two policies binds. -/
def union (p q : Policy) : Policy :=
  ⟨fun k => p.binds k || q.binds k, by simp [p.binds_pattern]⟩

/-- Whether a policy binds whatever another one binds. -/
def contains (p q : Policy) : Bool := Kind.all.all fun k => !q.binds k || p.binds k

/-- The kinds that are bound. -/
def kinds (p : Policy) : List Kind := Kind.all.filter p.binds

/-! ### Stored form -/

/-- The stored form of a policy: a word, or the kinds that are bound besides patterns. -/
def toJson (p : Policy) : Json :=
  if p = all then .string "all"
  else if p = none then .string "none"
  else .array ((p.kinds.filter (· ≠ .pattern)).map fun k => .string k.name)

/-- The policy that a word names. -/
def ofWord? (s : String) : Option Policy :=
  if s = "all" then some all else if s = "none" then some none else .none

/-- The policy that a value stores. -/
def ofJson : Json → Option Policy
  | .string s => ofWord? s
  | .array js => (js.mapM Kind.ofJson).map ofKinds
  | _ => .none

end Policy

end BoundQuery
