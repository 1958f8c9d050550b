/-
**Why a predicate cannot be written.**

A predicate without scripts can fail for five reasons only: a group has no members, a side of a
comparison is absent, a value has a label that is no identifier, and an instant is too early or too
late, as a side of a comparison or in a template.  They can all be read off the tree, and the first
one of them, depth first and from left to right, is the error.  Neither the policy nor what was
written, bound and imported before has a say in it, since an action fails with an error of its own.

Main definitions:

* `BoundQuery.valueFaults`, `BoundQuery.Operand.faults`, `BoundQuery.Predicate.faults` — what is
  wrong with a value under a label, with a side of a comparison and with a predicate, in order;
* `BoundQuery.Predicate.Scriptless` — there is no script in a predicate;
* `BoundQuery.Predicate.Writable` — nothing in a predicate is of those five kinds.

Main results:

* `BoundQuery.Predicate.findSome?_plan` — the first action that fails is where the first fault is;
* `BoundQuery.Predicate.faults_eq_nil_iff` — a predicate without faults is writable;
* `BoundQuery.Predicate.error_eq_head_faults` — **a predicate is written if it is writable, and
  else fails with its first fault, in every session**.
-/

import BoundQuery.Predicate.Basic
import BoundQuery.Proofs.Binding.Mark

set_option relaxedAutoImplicit false
set_option autoImplicit false

namespace BoundQuery

/-! ### Faults -/

/-- What is wrong with a value under a label.  The label is looked at first. -/
def valueFaults (label : String) (v : Value) : List Error :=
  (if isIdentifier label then [] else [.argument "prefix" (.notIdentifier label)]) ++
    match v with
    | .instant t => if t.InRange then [] else [.argument label (.outsideRange t)]
    | _ => []

/-- What is wrong with a side of a comparison. -/
def Operand.faults (label : String) : Operand → List Error
  | column _ => []
  | value v => valueFaults label v
  | absent => [.argument label .absent]

namespace Predicate

mutual

/-- What is wrong with a predicate, depth first and from left to right. -/
def faults : Predicate → List Error
  | compare left _ right label => left.faults label ++ right.faults label
  | group _ [] => [.argument "conditions" .emptyGroup]
  | group _ (p :: ps) => p.faults ++ memberFaults ps
  | template t label => t.values.flatMap (valueFaults label)
  | script _ => []

/-- What is wrong with the members of a group. -/
def memberFaults : List Predicate → List Error
  | [] => []
  | p :: ps => p.faults ++ memberFaults ps

end

/-- There is no script in a predicate. -/
inductive Scriptless : Predicate → Prop where
  | compare (left : Operand) (how : Comparison) (right : Operand) (label : String) :
      Scriptless (compare left how right label)
  | group (c : Connective) {ps : List Predicate} (h : ∀ p ∈ ps, Scriptless p) :
      Scriptless (group c ps)
  | template (t : Template) (label : String) : Scriptless (template t label)

end Predicate

/-- A side of a comparison is there; if it is a value, it has an identifier as its label, and if it
is an instant, it is in range. -/
def Operand.Writable (label : String) (o : Operand) : Prop :=
  o ≠ absent ∧ (∀ v, o = value v → isIdentifier label = true) ∧
    ∀ t, o = value (.instant t) → t.InRange

/-- No group is empty, both sides of every comparison can be written, and every template that has
values has an identifier as its label and no instant that is out of range. -/
inductive Predicate.Writable : Predicate → Prop where
  | compare {left right : Operand} (how : Comparison) {label : String}
      (hleft : left.Writable label) (hright : right.Writable label) :
      Writable (compare left how right label)
  | group (c : Connective) {ps : List Predicate} (hne : ps ≠ []) (h : ∀ p ∈ ps, Writable p) :
      Writable (group c ps)
  | template {t : Template} {label : String}
      (hlabel : t.values ≠ [] → isIdentifier label = true)
      (hrange : ∀ i, .instant i ∈ t.values → i.InRange) : Writable (template t label)

/-! ### Values and sides -/

theorem head?_valueFaults (label : String) (v : Value) :
    (valueFaults label v).head? = bindingError? label v := by
  unfold valueFaults bindingError?
  by_cases hlabel : isIdentifier label = true
  · simp only [hlabel, if_true, List.nil_append]
    cases v with
    | instant t =>
        by_cases hrange : t.InRange
        · simp [Value.checked, Instant.checked, hrange, Except.map]
        · simp [Value.checked, Instant.checked, hrange, Except.map, Error.renamed]
    | _ => rfl
  · simp [hlabel]

theorem valueFaults_eq_nil_iff {label : String} {v : Value} : valueFaults label v = [] ↔
    isIdentifier label = true ∧ ∀ t, v = .instant t → t.InRange := by
  unfold valueFaults
  by_cases hlabel : isIdentifier label = true
  · cases v with
    | instant t => by_cases hrange : t.InRange <;> simp [hlabel, hrange]
    | _ => simp [hlabel]
  · simp [hlabel]

/-- What is wrong with a value is wrong with its label or with the argument of that name. -/
theorem exists_argument_of_mem_valueFaults {label : String} {v : Value} {e : Error}
    (h : e ∈ valueFaults label v) : ∃ name reason, e = .argument name reason := by
  unfold valueFaults at h
  rcases List.mem_append.1 h with h | h
  · split at h
    · cases h
    · exact ⟨_, _, List.mem_singleton.1 h⟩
  · cases v with
    | instant t =>
        simp only at h
        split at h
        · cases h
        · exact ⟨_, _, List.mem_singleton.1 h⟩
    | _ => cases h

namespace Operand

/-- A column never fails: the label of its name is an identifier. -/
theorem findSome?_block_column (c : Column) : c.block.findSome? Action.error? = none := by
  cases c with
  | trusted name => rfl
  | dynamic name =>
      have hbind : bindingError? Column.label (.text name) = none :=
        bindingError?_eq_none_iff.2 ⟨by decide, trivial⟩
      simp [Column.block, Action.error?, hbind]

theorem findSome?_block (label : String) (o : Operand) :
    (o.block label).findSome? Action.error? = (o.faults label).head? := by
  cases o with
  | column c => exact findSome?_block_column c
  | value v =>
      rw [faults, head?_valueFaults, block, List.findSome?_singleton]
      rfl
  | absent => rfl

theorem faults_eq_nil_iff {label : String} {o : Operand} :
    o.faults label = [] ↔ o.Writable label := by
  cases o with
  | column c => simp [faults, Writable]
  | absent => simp [faults, Writable]
  | value v => simp [faults, Writable, valueFaults_eq_nil_iff]

theorem exists_argument_of_mem_faults {label : String} (o : Operand) {e : Error}
    (h : e ∈ o.faults label) : ∃ name reason, e = .argument name reason := by
  cases o with
  | column c => cases h
  | value v => exact exists_argument_of_mem_valueFaults h
  | absent => exact ⟨_, _, List.mem_singleton.1 h⟩

end Operand

/-! ### Templates -/

/-- The first fault of a list of values is where the first of them cannot be bound. -/
theorem Template.findSome?_block (t : Template) (label : String) :
    (t.block label).findSome? Action.error? = (t.values.flatMap (valueFaults label)).head? := by
  unfold block values
  induction t.parts with
  | nil => rfl
  | cons part parts ih =>
      rw [List.map_cons, List.findSome?_cons]
      cases part with
      | raw u => exact ih
      | value v =>
          have hvalues : (Part.value v :: parts).filterMap Part.value? =
              v :: parts.filterMap Part.value? := rfl
          rw [hvalues, List.flatMap_cons, List.head?_append, head?_valueFaults, ← ih]
          cases h : bindingError? label v with
          | none => simp [Part.action, Action.error?, h]
          | some e => simp [Part.action, Action.error?, h]

theorem flatMap_valueFaults_eq_nil_iff {label : String} {vs : List Value} :
    vs.flatMap (valueFaults label) = [] ↔
      (vs ≠ [] → isIdentifier label = true) ∧ ∀ i, .instant i ∈ vs → i.InRange := by
  rw [List.flatMap_eq_nil_iff]
  constructor
  · intro h
    constructor
    · intro hne
      obtain ⟨v, hv⟩ := List.exists_mem_of_ne_nil vs hne
      exact (valueFaults_eq_nil_iff.1 (h v hv)).1
    · intro i hi
      exact (valueFaults_eq_nil_iff.1 (h _ hi)).2 i rfl
  · rintro ⟨hlabel, hrange⟩ v hv
    refine valueFaults_eq_nil_iff.2 ⟨hlabel (List.ne_nil_of_mem hv), ?_⟩
    intro t ht
    subst ht
    exact hrange t hv

/-! ### Predicates -/

namespace Predicate

theorem findSome?_restPlan (c : Connective) {ps : List Predicate}
    (h : ∀ p ∈ ps, p.plan.flatten.findSome? Action.error? = p.faults.head?) :
    (restPlan c ps).flatten.findSome? Action.error? = (memberFaults ps).head? := by
  induction ps with
  | nil => rfl
  | cons p ps ih =>
      obtain ⟨hp, hps⟩ := List.forall_mem_cons.1 h
      have hword : ([Action.write (spaced c.word)] : Block).findSome? Action.error? = none := rfl
      rw [restPlan, memberFaults, List.cons_append, List.flatten_cons, List.flatten_append,
        List.findSome?_append, List.findSome?_append, List.head?_append, hword, hp, ih hps]
      rfl

/-- **The first action of a predicate that fails is where its first fault is.** -/
theorem findSome?_plan {p : Predicate} (hp : p.Scriptless) :
    p.plan.flatten.findSome? Action.error? = p.faults.head? := by
  induction hp with
  | compare left how right label =>
      have hsign : ([Action.write (spaced how.sign)] : Block).findSome? Action.error? = none := rfl
      simp only [plan, faults, List.flatten_cons, List.flatten_nil, List.append_nil,
        List.findSome?_append, List.head?_append, Operand.findSome?_block, hsign, Option.none_or]
  | @group c ps _ ih =>
      cases ps with
      | nil => rfl
      | cons p ps =>
          obtain ⟨hp, hps⟩ := List.forall_mem_cons.1 ih
          have hshape : (group c (p :: ps)).plan.flatten =
              [.write ['(']] ++ (p.plan.flatten ++ (restPlan c ps).flatten ++ [.write [')']]) := by
            simp [plan]
          have hwrite : ∀ t, ([Action.write t] : Block).findSome? Action.error? = none := by
            intro t
            rfl
          rw [hshape, faults, List.head?_append, List.findSome?_append, List.findSome?_append,
            List.findSome?_append, hp, findSome?_restPlan c hps, hwrite, hwrite, Option.none_or,
            Option.or_none]
  | template t label =>
      rw [plan, faults, List.flatten_singleton]
      exact t.findSome?_block label

theorem memberFaults_eq_flatMap (ps : List Predicate) : memberFaults ps = ps.flatMap faults := by
  induction ps with
  | nil => rfl
  | cons p ps ih => rw [memberFaults, ih, List.flatMap_cons]

/-- The faults of a group that has members are those of its members. -/
theorem faults_group {c : Connective} {ps : List Predicate} (h : ps ≠ []) :
    (group c ps).faults = ps.flatMap faults := by
  cases ps with
  | nil => exact absurd rfl h
  | cons p ps => rw [faults, memberFaults_eq_flatMap, List.flatMap_cons]

theorem faults_group_eq_nil_iff {c : Connective} {ps : List Predicate} :
    (group c ps).faults = [] ↔ ps ≠ [] ∧ ∀ p ∈ ps, p.faults = [] := by
  by_cases hps : ps = []
  · subst hps
    simp [faults]
  · rw [faults_group hps, List.flatMap_eq_nil_iff]
    simp [hps]

/-- A predicate without faults is writable. -/
theorem faults_eq_nil_iff {p : Predicate} (hp : p.Scriptless) : p.faults = [] ↔ p.Writable := by
  induction hp with
  | compare left how right label =>
      rw [faults, List.append_eq_nil_iff, Operand.faults_eq_nil_iff, Operand.faults_eq_nil_iff]
      constructor
      · rintro ⟨hleft, hright⟩
        exact .compare how hleft hright
      · intro h
        cases h with
        | compare how hleft hright => exact ⟨hleft, hright⟩
  | @group c ps _ ih =>
      rw [faults_group_eq_nil_iff]
      constructor
      · rintro ⟨hne, hps⟩
        exact .group c hne fun p hmem => (ih p hmem).1 (hps p hmem)
      · intro h
        cases h with
        | group c hne hps => exact ⟨hne, fun p hmem => (ih p hmem).2 (hps p hmem)⟩
  | template t label =>
      rw [faults, flatMap_valueFaults_eq_nil_iff]
      constructor
      · rintro ⟨hlabel, hrange⟩
        exact .template hlabel hrange
      · intro h
        cases h with
        | template hlabel hrange => exact ⟨hlabel, hrange⟩

/-! ### All sessions -/

/-- Every fault blames an argument. -/
theorem exists_argument_of_mem_faults {p : Predicate} (hp : p.Scriptless) :
    ∀ e ∈ p.faults, ∃ name reason, e = .argument name reason := by
  induction hp with
  | compare left how right label =>
      intro e he
      rcases List.mem_append.1 he with he | he
      · exact left.exists_argument_of_mem_faults he
      · exact right.exists_argument_of_mem_faults he
  | @group c ps _ ih =>
      intro e he
      by_cases hps : ps = []
      · subst hps
        exact ⟨_, _, List.mem_singleton.1 he⟩
      · rw [faults_group hps] at he
        obtain ⟨p, hmem, he⟩ := List.mem_flatMap.1 he
        exact ih p hmem e he
  | template t label =>
      intro e he
      obtain ⟨v, -, he⟩ := List.mem_flatMap.1 he
      exact exists_argument_of_mem_valueFaults he

/-- **A predicate is written if it is writable, and else fails with its first fault**, which blames
an argument.  So it is in every session, whatever its policy, its table and its imports, and no
matter whether the predicate is one block of text or is written part by part. -/
theorem error_eq_head_faults {p : Predicate} (hp : p.Scriptless) :
    (∀ s : Session, ((s.performBlock p.plan.flatten).2 = none ↔ p.Writable) ∧
      (s.performBlock p.plan.flatten).2 = p.faults.head? ∧ (s.run p.plan).2 = p.faults.head?) ∧
    (∀ s s' : Session, (s.performBlock p.plan.flatten).2 = (s'.performBlock p.plan.flatten).2) ∧
    ∀ e ∈ p.faults, ∃ name reason, e = .argument name reason := by
  have herror : ∀ s : Session, (s.performBlock p.plan.flatten).2 = p.faults.head? := by
    intro s
    rw [Session.performBlock_error, findSome?_plan hp]
  refine ⟨?_, ?_, exists_argument_of_mem_faults hp⟩
  · intro s
    refine ⟨?_, herror s, ?_⟩
    · rw [herror s, List.head?_eq_none_iff, faults_eq_nil_iff hp]
    · rw [Session.run_error, findSome?_plan hp]
  · intro s s'
    rw [herror s, herror s']

/-- The label of a value is looked at before the value, and a group without members is never
reached behind either. -/
theorem error_eq_head_faults_badLabel : ∃ p : Predicate,
    p = .any [.tagIs ("host", "a"),
      .withLabel "1st" (.compared (.column .time) .less
        (.value (.instant ⟨9223372037, 0, by decide⟩))), .all []] ∧
    p.Scriptless ∧ ¬p.Writable ∧ p.faults = [.argument "prefix" (.notIdentifier "1st"),
      .argument "1st" (.outsideRange ⟨9223372037, 0, by decide⟩),
      .argument "conditions" .emptyGroup] ∧
    ∀ s : Session, (s.performBlock p.plan.flatten).2 =
      some (.argument "prefix" (.notIdentifier "1st")) := by
  refine ⟨_, rfl, ?_⟩
  have hscriptless : Scriptless (.any [.tagIs ("host", "a"),
      .withLabel "1st" (.compared (.column .time) .less
        (.value (.instant ⟨9223372037, 0, by decide⟩))), .all []]) := by
    refine .group .any ?_
    intro q hq
    simp only [List.mem_cons, List.not_mem_nil, or_false] at hq
    rcases hq with rfl | rfl | rfl
    · exact .compare _ _ _ _
    · exact .compare _ _ _ _
    · exact .group .all fun q hq => by cases hq
  obtain ⟨hall, -, -⟩ := error_eq_head_faults hscriptless
  have hfaults := fun s => (hall s).2.1
  refine ⟨hscriptless, ?_, by decide, hfaults⟩
  intro hwritable
  have hnone := (hall (.ofSettings .standard)).1.2 hwritable
  rw [hfaults] at hnone
  cases hnone

end Predicate

end BoundQuery
