/-
**Instants that do not fit.**

The query language holds an instant as a count of nanoseconds in 64 bits, and callers hold instants
that do not fit.  They come in by many ways: as values under a label, in templates and scripts, as
sides of comparisons, as ends of ranges, as the present.  A predicate and a stage give a place to
every instant in them, and an action with an instant out of range fails.

Main definitions:

* `BoundQuery.Predicate.instants`, `BoundQuery.Stage.instants` — the instants in a predicate and in
  a stage;
* `BoundQuery.Predicate.operands` — the sides of the comparisons in a predicate;
* `BoundQuery.placedInstants` — the instants to which a block gives places.

Main results:

* `BoundQuery.Predicate.placedInstants_plan` — a predicate gives a place to each of its instants;
* `BoundQuery.Action.error?_ne_none` — an action with an instant out of range fails;
* `BoundQuery.Predicate.not_clean_plan` — a predicate fails if a side of a comparison is made of an
  instant out of range.
-/

import BoundQuery.Proofs.Pipeline.Invariant
import Mathlib.Data.List.Basic

set_option relaxedAutoImplicit false
set_option autoImplicit false

namespace BoundQuery

/-! ### Instants from outside -/

/-- The instant that a value is. -/
def Value.instant? : Value → Option Instant
  | instant t => some t
  | _ => none

/-- The instant that a caller holds; a date stands for its beginning. -/
def Given.instant? : Given → Option Instant
  | value v => v.instant?
  | date d => some (.midnight d)
  | _ => none

/-- The instants among the values of a template. -/
def Template.instants (t : Template) : List Instant := t.values.filterMap Value.instant?

/-- The instant that a step of a script gives a place; a step that only keeps one passes it over
where it is refused. -/
def Step.instant? : Step → Option Instant
  | bind _ g => g.instant?
  | bindValue _ v => v.instant?
  | _ => none

/-- The instants that a script gives places. -/
def Script.instants (s : Script) : List Instant := s.filterMap Step.instant?

/-- The instant that a side of a comparison is. -/
def Operand.instant? : Operand → Option Instant
  | value v => v.instant?
  | _ => none

namespace Predicate

mutual

/-- The instants in a predicate, depth first and from left to right. -/
def instants : Predicate → List Instant
  | compare left _ right _ => left.instant?.toList ++ right.instant?.toList
  | group _ ps => memberInstants ps
  | template t _ => t.instants
  | script s => Script.instants s

/-- The instants in the members of a group. -/
def memberInstants : List Predicate → List Instant
  | [] => []
  | p :: ps => p.instants ++ memberInstants ps

end

mutual

/-- The sides of the comparisons in a predicate, depth first and from left to right. -/
def operands : Predicate → List Operand
  | compare left _ right _ => [left, right]
  | group _ ps => memberOperands ps
  | template _ _ => []
  | script _ => []

/-- The sides of the comparisons in the members of a group. -/
def memberOperands : List Predicate → List Operand
  | [] => []
  | p :: ps => p.operands ++ memberOperands ps

end

end Predicate

/-- The instant that an end of a range is. -/
def Bound.instant? : Bound → Option Instant
  | absolute t => some t
  | _ => none

/-- The instant to which a change fixes the present. -/
def Change.instant? : Change → Option Instant
  | fixNow t => some t
  | _ => none

/-- The instants in a stage. -/
def Stage.instants : Stage → List Instant
  | templateSource t => t.instants
  | scriptSource s => Script.instants s
  | range start stop => start.instant?.toList ++ stop.toList.filterMap Bound.instant?
  | filter p => p.instants
  | configure changes => changes.filterMap Change.instant?
  | _ => []

/-! ### Instants in blocks -/

/-- The instant that an action gives a place. -/
def Action.instant? : Action → Option Instant
  | place _ v => v.instant?
  | give _ g => g.instant?
  | _ => none

/-- The instants to which a block gives places. -/
def placedInstants (b : Block) : List Instant := b.filterMap Action.instant?

section Blocks

variable {b c : Block}

@[simp] theorem placedInstants_nil : placedInstants [] = [] := rfl

@[simp] theorem placedInstants_append :
    placedInstants (b ++ c) = placedInstants b ++ placedInstants c := List.filterMap_append

@[simp] theorem placedInstants_write {t : List Char} :
    placedInstants (.write t :: b) = placedInstants b := rfl

@[simp] theorem placedInstants_require {p : Package} :
    placedInstants (.require p :: b) = placedInstants b := rfl

@[simp] theorem placedInstants_fail {e : Error} :
    placedInstants (.fail e :: b) = placedInstants b := rfl

@[simp] theorem placedInstants_place {label : String} {v : Value} :
    placedInstants (.place label v :: b) = v.instant?.toList ++ placedInstants b := by
  cases h : v.instant? <;> simp [placedInstants, Action.instant?, h]

@[simp] theorem placedInstants_give {label : String} {g : Given} :
    placedInstants (.give label g :: b) = g.instant?.toList ++ placedInstants b := by
  cases h : g.instant? <;> simp [placedInstants, Action.instant?, h]

end Blocks

@[simp] theorem Template.placedInstants_block (t : Template) (label : String) :
    placedInstants (t.block label) = t.instants := by
  unfold block instants values placedInstants
  rw [List.filterMap_map, List.filterMap_filterMap]
  refine List.filterMap_congr fun part _ => ?_
  cases part <;> rfl

@[simp] theorem Script.placedInstants_block (s : Script) :
    placedInstants s.block = s.instants := by
  unfold block instants placedInstants
  rw [List.filterMap_map]
  refine List.filterMap_congr fun step _ => ?_
  cases step <;> rfl

@[simp] theorem Operand.placedInstants_block (label : String) (o : Operand) :
    placedInstants (o.block label) = o.instant?.toList := by
  cases o with
  | column c => cases c <;> simp [block, Column.block, instant?, Value.instant?]
  | value v => simp [block, instant?]
  | absent => rfl

@[simp] theorem Bound.placedInstants_block (label : String) (b : Bound) :
    placedInstants (b.block label) = b.instant?.toList := by
  cases b <;> simp [block, instant?, Given.instant?, Value.instant?]

namespace Predicate

mutual

/-- A predicate gives a place to each of its instants. -/
theorem placedInstants_plan : ∀ p : Predicate, placedInstants p.plan.flatten = p.instants
  | compare left how right label => by simp [plan, instants]
  | group c [] => by simp [plan, instants, memberInstants]
  | group c (p :: ps) => by
      simp [plan, instants, memberInstants, placedInstants_plan p, placedInstants_restPlan c ps]
  | template t label => by simp [plan, instants]
  | script s => by simp [plan, instants]

theorem placedInstants_restPlan (c : Connective) : ∀ ps : List Predicate,
    placedInstants (restPlan c ps).flatten = memberInstants ps
  | [] => rfl
  | p :: ps => by
      simp [restPlan, memberInstants, placedInstants_plan p, placedInstants_restPlan c ps]

end

mutual

/-- A predicate writes each side of its comparisons as a block, under some label. -/
theorem exists_block_mem_plan : ∀ (p : Predicate) {o : Operand}, o ∈ p.operands →
    ∃ label, o.block label ∈ p.plan
  | compare left how right label, o, ho => by
      rw [operands, List.mem_pair] at ho
      rcases ho with rfl | rfl
      · exact ⟨label, .head _⟩
      · exact ⟨label, .tail _ (.tail _ (.head _))⟩
  | group c (p :: ps), o, ho => by
      rcases List.mem_append.1 ho with ho | ho
      · obtain ⟨label, hblock⟩ := exists_block_mem_plan p ho
        exact ⟨label, .tail _ (List.mem_append_left _ (List.mem_append_left _ hblock))⟩
      · obtain ⟨label, hblock⟩ := exists_block_mem_restPlan c ps ho
        exact ⟨label, .tail _ (List.mem_append_left _ (List.mem_append_right _ hblock))⟩

theorem exists_block_mem_restPlan (c : Connective) : ∀ (ps : List Predicate) {o : Operand},
    o ∈ memberOperands ps → ∃ label, o.block label ∈ restPlan c ps
  | p :: ps, o, ho => by
      rcases List.mem_append.1 ho with ho | ho
      · obtain ⟨label, hblock⟩ := exists_block_mem_plan p ho
        exact ⟨label, .tail _ (List.mem_append_left _ hblock)⟩
      · obtain ⟨label, hblock⟩ := exists_block_mem_restPlan c ps ho
        exact ⟨label, .tail _ (List.mem_append_right _ hblock)⟩

end

end Predicate

/-! ### Instants out of range -/

section OutOfRange

variable {t : Instant}

theorem Instant.checked_of_not_inRange (ht : ¬t.InRange) :
    t.checked = .error (.argument "value" (.outsideRange t)) := if_neg ht

/-- An instant out of range is refused under a label that is an identifier. -/
theorem bindingError?_instant {label : String} (hlabel : isIdentifier label = true)
    (ht : ¬t.InRange) :
    bindingError? label (.instant t) = some (.argument label (.outsideRange t)) := by
  simp only [bindingError?, hlabel, if_true, Value.checked, t.checked_of_not_inRange ht, Except.map,
    Error.renamed]

/-- What a caller holds is refused if it is an instant out of range. -/
theorem Given.resolve_of_not_inRange {g : Given} (hg : g.instant? = some t) (ht : ¬t.InRange) :
    g.resolve = .error (.argument "value" (.outsideRange t)) := by
  cases g with
  | value v =>
      cases v with
      | instant u =>
          cases hg
          simp only [resolve, Value.checked, t.checked_of_not_inRange ht, Except.map]
      | _ => cases hg
  | date d =>
      cases hg
      simp only [resolve, Value.checked, Instant.checked_of_not_inRange ht, Except.map]
  | json j => cases hg
  | absent => cases hg

/-- **An action with an instant out of range fails**, with this error or for its label. -/
theorem Action.error?_ne_none {a : Action} (ha : a.instant? = some t) (ht : ¬t.InRange) :
    a.error? ≠ none := by
  intro hnone
  cases a with
  | place label v =>
      cases v with
      | instant u =>
          cases ha
          exact ht (bindingError?_eq_none_iff.1 hnone).2
      | _ => cases ha
  | give label g =>
      rw [error?, Given.resolve_of_not_inRange ha ht] at hnone
      cases hnone
  | _ => cases ha

theorem not_clean_of_mem_placedInstants {b : Block} (hb : t ∈ placedInstants b) (ht : ¬t.InRange) :
    ¬Clean b := by
  intro hclean
  obtain ⟨a, ha, hinstant⟩ := List.mem_filterMap.1 hb
  exact Action.error?_ne_none hinstant ht (hclean a ha)

/-- A side of a comparison that is made of an instant out of range is refused: it is the instant,
or nothing at all if a caller holds it as a date. -/
theorem Operand.not_clean_block_ofGiven {g : Given} (hg : g.instant? = some t) (ht : ¬t.InRange)
    (label : String) : ¬Clean ((ofGiven g).block label) := by
  cases g with
  | value v =>
      refine not_clean_of_mem_placedInstants (t := t) ?_ ht
      change t ∈ placedInstants ((value v).block label)
      have hv : (value v).instant? = some t := hg
      rw [placedInstants_block, hv]
      exact List.mem_singleton_self t
  | date d =>
      have habsent : ofGiven (.date d) = absent := by
        unfold ofGiven
        simp only [Given.resolve_of_not_inRange hg ht]
      intro hclean
      rw [habsent] at hclean
      cases hclean _ List.mem_cons_self
  | json j => cases hg
  | absent => cases hg

theorem Predicate.not_clean_plan {p : Predicate} {g : Given} (hp : .ofGiven g ∈ p.operands)
    (hg : g.instant? = some t) (ht : ¬t.InRange) : ¬Clean p.plan.flatten := by
  intro hclean
  obtain ⟨label, hblock⟩ := p.exists_block_mem_plan hp
  exact Operand.not_clean_block_ofGiven hg ht label fun a ha =>
    hclean a (List.mem_flatten_of_mem hblock ha)

/-- A block with an action that fails has an error. -/
theorem exists_findSome?_of_not_clean {b : Block} (hb : ¬Clean b) :
    ∃ e, b.findSome? Action.error? = some e :=
  Option.ne_none_iff_exists'.1 fun hnone => hb (List.findSome?_eq_none_iff.1 hnone)

/-- A present out of range is refused, and so is any other one once it is fixed. -/
theorem Settings.exists_of_foldlM_change {changes : List Change}
    (hmem : t ∈ changes.filterMap Change.instant?) (ht : ¬t.InRange) (s : Settings) :
    ∃ e, changes.foldlM Settings.change s = .error e := by
  induction changes generalizing s with
  | nil => cases hmem
  | cons c changes ih =>
      rw [List.foldlM_cons]
      cases hc : s.change c with
      | error e => exact ⟨e, rfl⟩
      | ok s₁ =>
          refine ih ?_ s₁
          cases c with
          | fixNow u =>
              rcases List.mem_cons.1 hmem with rfl | hmem
              · obtain ⟨v, hv, -⟩ := exists_of_fixNow hc
                rw [t.checked_of_not_inRange ht] at hv
                cases hv
              · exact hmem
          | require path => exact hmem
          | requireAll paths => exact hmem

end OutOfRange

end BoundQuery
