/-
**Why a stage cannot come next.**

Apart from scripts, a stage is refused for what the caller put into it, and for little of that: a
source behind some text, an instant that is too early or too late, an average over no points, and a
predicate that cannot be written.  Everything else is bound under labels that the stages make up
themselves, from the name of a function and the name of an argument, and these are identifiers.
Only a predicate carries labels that a caller can choose: those of its comparisons and of its
templates.

Main definitions:

* `BoundQuery.Stage.BuiltIn` — a stage is neither a script nor a change of the settings;
* `BoundQuery.Stage.error?`, `BoundQuery.Stage.Refused` — why a stage cannot come next, and whether
  it cannot;
* `BoundQuery.Predicate.labels` — the labels of the comparisons and the templates in a predicate.

Main results:

* `BoundQuery.Argument.clean_callBlock` — a call with values that have literals never fails;
* `BoundQuery.Session.add_eq_error_iff` — a stage fails with its own error;
* `BoundQuery.Predicate.label_of_mem_faults` — a label that is refused is one of the predicate;
* `BoundQuery.Session.add_fails_iff` — **a stage fails exactly when it is refused, and a label is
  refused in predicates only**.
-/

import BoundQuery.Pipeline.Stage
import BoundQuery.Proofs.Binding.Name
import BoundQuery.Proofs.Predicate.Faults

set_option relaxedAutoImplicit false
set_option autoImplicit false

namespace BoundQuery

/-! ### Calls -/

@[simp] theorem Action.error?_write (t : List Char) : (Action.write t).error? = none := rfl

@[simp] theorem findSome?_write (t : List Char) (b : Block) :
    (Action.write t :: b).findSome? Action.error? = b.findSome? Action.error? := rfl

theorem Action.error?_place_eq_none {label : String} {v : Value} (h : isIdentifier label = true)
    (hv : v.HasLiteral) : (Action.place label v).error? = none :=
  bindingError?_eq_none_iff.2 ⟨h, hv⟩

theorem Clean.nil : Clean [] := fun _ ha => by cases ha

theorem Clean.cons {a : Action} {b : Block} (ha : a.error? = none) (hb : Clean b) :
    Clean (a :: b) := List.forall_mem_cons.2 ⟨ha, hb⟩

theorem clean_append {b c : Block} (hb : Clean b) (hc : Clean c) : Clean (b ++ c) :=
  List.forall_mem_append.2 ⟨hb, hc⟩

theorem Location.clean_block (l : Location) : Clean l.block := by
  cases l with
  | utc => exact .cons rfl (.cons rfl .nil)
  | named name =>
      exact .cons rfl (.cons rfl (.cons (Action.error?_place_eq_none (by decide) trivial)
        (.cons rfl .nil)))
  | fixed offset =>
      exact .cons rfl (.cons rfl (.cons (Action.error?_place_eq_none (by decide) trivial)
        (.cons rfl .nil)))

namespace Argument

/-- The name of an argument may stand behind the name of a function. -/
def IsName (n : String) : Prop := n.toList.all isIdentifierChar = true

instance (n : String) : Decidable (IsName n) :=
  inferInstanceAs (Decidable (n.toList.all isIdentifierChar = true))

/-- If an argument is a value, it can be bound under its name behind the name of a function. -/
def Bindable (a : String × Argument) : Prop :=
  ∀ v, a.2 = .value v → IsName a.1 ∧ v.HasLiteral

/-- The name of an argument behind the name of a function is an identifier. -/
theorem isIdentifier_label {function name : String} (hf : isIdentifier function = true)
    (hn : IsName name) : isIdentifier (function ++ "_" ++ name) = true :=
  isIdentifier_append (isIdentifier_append hf (List.all_eq_true.1 rfl)) (List.all_eq_true.1 hn)

variable {function : String} (hf : isIdentifier function = true)

include hf

theorem clean_block {a : String × Argument} (ha : Bindable a) :
    Clean (a.2.block function a.1) := by
  obtain ⟨n, b⟩ := a
  cases b with
  | value v =>
      obtain ⟨hn, hv⟩ := ha v rfl
      exact .cons (Action.error?_place_eq_none (isIdentifier_label hf hn) hv) .nil
  | location l => exact l.clean_block
  | name t => exact .cons rfl .nil

theorem clean_blocks {as : List (String × Argument)} (h : ∀ a ∈ as, Bindable a) :
    Clean (blocks function as) := by
  induction as with
  | nil => exact .nil
  | cons a as ih =>
      obtain ⟨ha, has⟩ := List.forall_mem_cons.1 h
      have hfirst : Clean (.write (a.1.toList ++ ": ".toList) :: a.2.block function a.1) :=
        .cons rfl (clean_block hf ha)
      cases as with
      | nil => exact hfirst
      | cons a' as => exact clean_append hfirst (.cons rfl (ih has))

/-- **A call with values that have literals never fails**, whatever function is called. -/
theorem clean_callBlock {as : List (String × Argument)} (h : ∀ a ∈ as, Bindable a) :
    Clean (callBlock function as) :=
  clean_append (.cons rfl (clean_blocks hf h)) (.cons rfl .nil)

omit hf

/-! ### Arguments -/

theorem bindable_value {n : String} (hn : IsName n) {v : Value} (hv : v.HasLiteral) :
    Bindable (n, .value v) := by
  intro w hw
  cases hw
  exact ⟨hn, hv⟩

theorem bindable_ofDuration? {n : String} (hn : IsName n) (d : Option Duration) :
    ∀ a ∈ ofDuration? n d, Bindable a := by
  cases d with
  | none => exact fun a ha => by cases ha
  | some d => exact List.forall_mem_singleton.2 (bindable_value hn trivial)

theorem bindable_ofText? {n : String} (hn : IsName n) (s : Option String) :
    ∀ a ∈ ofText? n s, Bindable a := by
  cases s with
  | none => exact fun a ha => by cases ha
  | some s => exact List.forall_mem_singleton.2 (bindable_value hn trivial)

theorem bindable_ofLocation? (l : Option Location) : ∀ a ∈ ofLocation? l, Bindable a := by
  intro a ha v hv
  obtain ⟨k, -, rfl⟩ := List.mem_map.1 ha
  cases hv

end Argument

theorem Window.bindable_arguments (every : Duration) (w : Window) :
    ∀ a ∈ w.arguments every, Argument.Bindable a := by
  have hevery : ∀ a ∈ [("every", Argument.value (.duration every))], Argument.Bindable a :=
    List.forall_mem_singleton.2 (Argument.bindable_value (by decide) trivial)
  have hempty : ∀ a ∈ if w.createEmpty then [("createEmpty", Argument.value (.boolean true))]
      else [], Argument.Bindable a := by
    split
    · exact List.forall_mem_singleton.2 (Argument.bindable_value (by decide) trivial)
    · exact fun a ha => by cases ha
  simp only [arguments, List.forall_mem_append]
  exact ⟨⟨⟨⟨⟨⟨⟨hevery, Argument.bindable_ofDuration? (by decide) _⟩,
    Argument.bindable_ofDuration? (by decide) _⟩, Argument.bindable_ofLocation? _⟩,
    Argument.bindable_ofText? (by decide) _⟩, Argument.bindable_ofText? (by decide) _⟩,
    Argument.bindable_ofText? (by decide) _⟩, hempty⟩

theorem AggregateWindow.bindable_arguments (function : Identifier) (every : Duration)
    (w : AggregateWindow) : ∀ a ∈ w.arguments function every, Argument.Bindable a := by
  have hfirst : ∀ a ∈ [("every", Argument.value (.duration every)),
      ("fn", Argument.name function.name)], Argument.Bindable a := by
    refine List.forall_mem_cons.2 ⟨Argument.bindable_value (by decide) trivial, ?_⟩
    exact List.forall_mem_singleton.2 fun v hv => by cases hv
  have hempty : ∀ a ∈ if w.createEmpty then []
      else [("createEmpty", Argument.value (.boolean false))], Argument.Bindable a := by
    split
    · exact fun a ha => by cases ha
    · exact List.forall_mem_singleton.2 (Argument.bindable_value (by decide) trivial)
  simp only [arguments, List.forall_mem_append]
  exact ⟨⟨⟨⟨⟨⟨⟨hfirst, Argument.bindable_ofDuration? (by decide) _⟩,
    Argument.bindable_ofDuration? (by decide) _⟩, Argument.bindable_ofLocation? _⟩,
    Argument.bindable_ofText? (by decide) _⟩, Argument.bindable_ofText? (by decide) _⟩,
    Argument.bindable_ofText? (by decide) _⟩, hempty⟩

/-! ### Ranges -/

/-- What is wrong with a bound of a range. -/
def Bound.faults (label : String) : Bound → List Error
  | absolute t => valueFaults label (.instant t)
  | relative d => valueFaults label (.duration d)
  | now => []

/-- A value is looked at before its label where a caller gives it, but under an identifier the
order does not matter. -/
theorem Action.error?_give {label : String} (h : isIdentifier label = true) (v : Value) :
    (Action.give label (.value v)).error? = (valueFaults label v).head? := by
  rw [head?_valueFaults, Action.error?, Given.resolve]
  cases hv : v.checked with
  | error e => simp only [bindingError?, h, if_true, hv]
  | ok w =>
      obtain ⟨-, rfl⟩ := Value.checked_eq_ok_iff.1 hv
      rfl

theorem Bound.findSome?_block {label : String} (h : isIdentifier label = true) (b : Bound) :
    (b.block label).findSome? Action.error? = (b.faults label).head? := by
  cases b with
  | absolute t => rw [block, List.findSome?_singleton, Action.error?_give h, faults]
  | relative d => rw [block, List.findSome?_singleton, Action.error?_give h, faults]
  | now => rfl

namespace Stage

theorem findSome?_rangeBlock (start : Bound) (stop : Option Bound) :
    (rangeBlock start stop).findSome? Action.error? =
      (start.faults "range_start" ++ stop.toList.flatMap (Bound.faults "range_stop")).head? := by
  have hstart : isIdentifier "range_start" = true := by decide
  cases stop with
  | none => simp [rangeBlock, List.findSome?_append, Bound.findSome?_block hstart]
  | some stop =>
      have hstop : isIdentifier "range_stop" = true := by decide
      simp [rangeBlock, List.findSome?_append, List.head?_append, Bound.findSome?_block hstart,
        Bound.findSome?_block hstop]

/-! ### Stages -/

/-- A stage is neither a script nor a change of the settings. -/
def BuiltIn : Stage → Prop
  | scriptSource _ => False
  | configure _ => False
  | _ => True

/-- Why a stage cannot come next in a session. -/
def error? (s : Session) : Stage → Option Error
  | source _ => if s.isEmpty then none else some (.argument "bucket" .sourceNotFirst)
  | templateSource t =>
      if s.isEmpty then (t.values.flatMap (valueFaults "fromCustomFlux")).head?
      else some (.argument "template" .sourceNotFirst)
  | range start stop =>
      (start.faults "range_start" ++ stop.toList.flatMap (Bound.faults "range_stop")).head?
  | filter p => (s.run p.plan).2
  | movingAverage n => if n = 0 then some (.argument "n" .noPoints) else none
  | _ => none

/-- A stage cannot come next in a session: it is a source and there is some text, it holds an
instant that is out of range, its predicate cannot be written, or it averages over no points. -/
def Refused (s : Session) : Stage → Prop
  | source _ => s.text ≠ []
  | templateSource t => s.text ≠ [] ∨ ∃ i, .instant i ∈ t.values ∧ ¬i.InRange
  | range start stop => ∃ i, (start = .absolute i ∨ stop = some (.absolute i)) ∧ ¬i.InRange
  | filter p => (s.run p.plan).2 ≠ none
  | movingAverage n => n = 0
  | _ => False

end Stage

namespace Session

variable {s : Session}

/-- A block that is to be complete fails where its first action does. -/
theorem complete_eq_error_iff {b : Block} {e : Error} :
    s.complete b = .error e ↔ b.findSome? Action.error? = some e := by
  rw [← perform_error s b, complete]
  rcases s.perform b with ⟨s', e'⟩
  cases e' with
  | none => simp
  | some e' => simp

theorem addForm_piped_eq_error_iff {b : Block} {e : Error} :
    s.addForm (.piped b) = .error e ↔ b.findSome? Action.error? = some e :=
  complete_eq_error_iff

theorem addForm_source_eq_error_iff {argument : String} {b : Block} {e : Error} :
    s.addForm (.source argument b) = .error e ↔
      (if s.isEmpty then b.findSome? Action.error?
        else some (.argument argument .sourceNotFirst)) = some e := by
  rw [addForm]
  split
  · exact complete_eq_error_iff
  · simp

/-- **A stage fails with its own error**, and its predicate with the error of the predicate. -/
theorem add_eq_error_iff {stage : Stage} (h : stage.BuiltIn) {e : Error} :
    s.add stage = .error e ↔ stage.error? s = some e := by
  have hcall : ∀ {function : String} {as : List (String × Argument)},
      isIdentifier function = true → (∀ a ∈ as, Argument.Bindable a) →
      (s.addForm (.piped (callBlock function as)) = .error e ↔ none = some e) := by
    intro function as hf has
    rw [addForm_piped_eq_error_iff,
      List.findSome?_eq_none_iff.2 (Argument.clean_callBlock hf has)]
  have hcolumn : ∀ {n : String} (s : Option String), Argument.IsName n →
      ∀ a ∈ Argument.ofText? n s, Argument.Bindable a := fun s hn =>
    Argument.bindable_ofText? hn s
  cases stage with
  | source bucket =>
      have hplace : (Action.place "from_bucket" (.text bucket)).error? = none :=
        Action.error?_place_eq_none (by decide) trivial
      have hclean : Clean [.write "from(bucket: ".toList, .place "from_bucket" (.text bucket),
          .write [')']] := .cons rfl (.cons hplace (.cons rfl .nil))
      rw [add, Stage.form, addForm_source_eq_error_iff, List.findSome?_eq_none_iff.2 hclean,
        Stage.error?]
  | templateSource t =>
      rw [add, Stage.form, addForm_source_eq_error_iff, t.findSome?_block, Stage.error?]
  | range start stop =>
      rw [add, Stage.form, addForm_piped_eq_error_iff, Stage.findSome?_rangeBlock, Stage.error?]
  | filter p =>
      rw [add, Stage.form, addForm_piped_eq_error_iff, Stage.error?, run_error]
      simp [List.findSome?_append]
  | aggregate f column =>
      exact hcall f.isIdentifier_name (hcolumn column (by decide))
  | movingAverage n =>
      rw [add, Stage.form, Stage.error?]
      split
      · exact addForm_piped_eq_error_iff
      · exact hcall (by decide) (List.forall_mem_singleton.2
          (Argument.bindable_value (by decide) trivial))
  | timedMovingAverage every period column =>
      refine hcall (by decide) (List.forall_mem_append.2 ⟨?_, hcolumn column (by decide)⟩)
      exact List.forall_mem_cons.2 ⟨Argument.bindable_value (by decide) trivial,
        List.forall_mem_singleton.2 (Argument.bindable_value (by decide) trivial)⟩
  | window every w => exact hcall (by decide) (w.bindable_arguments every)
  | aggregateWindow f every w => exact hcall (by decide) (w.bindable_arguments f every)
  | yield name => exact hcall (by decide) (hcolumn _ (by decide))
  | scriptSource script => cases h
  | configure changes => cases h

end Session

/-! ### Labels that are refused -/

theorem label_of_mem_valueFaults {label label' : String} {v : Value}
    (h : .argument "prefix" (.notIdentifier label) ∈ valueFaults label' v) :
    label = label' ∧ isIdentifier label' = false := by
  unfold valueFaults at h
  rcases List.mem_append.1 h with h | h
  · split at h
    · cases h
    · next hlabel =>
        cases List.mem_singleton.1 h
        exact ⟨rfl, Bool.eq_false_iff.2 hlabel⟩
  · cases v with
    | instant t =>
        simp only at h
        split at h
        · cases h
        · cases List.mem_singleton.1 h
    | _ => cases h

theorem label_notMem_valueFaults {label label' : String} (h : isIdentifier label' = true)
    (v : Value) : .argument "prefix" (.notIdentifier label) ∉ valueFaults label' v := by
  intro hmem
  rw [(label_of_mem_valueFaults hmem).2] at h
  cases h

theorem Bound.label_notMem_faults {label label' : String} (h : isIdentifier label' = true)
    (b : Bound) : .argument "prefix" (.notIdentifier label) ∉ b.faults label' := by
  cases b with
  | absolute t =>
      rw [faults]
      exact label_notMem_valueFaults h _
  | relative d =>
      rw [faults]
      exact label_notMem_valueFaults h _
  | now => exact List.not_mem_nil

theorem Bound.faults_eq_nil_iff {label : String} (h : isIdentifier label = true) {b : Bound} :
    b.faults label = [] ↔ ∀ t, b = .absolute t → t.InRange := by
  cases b with
  | absolute t => simp [faults, valueFaults_eq_nil_iff, h]
  | relative d => simp [faults, valueFaults_eq_nil_iff, h]
  | now => simp [faults]

theorem Operand.label_of_mem_faults {label label' : String} {o : Operand}
    (h : .argument "prefix" (.notIdentifier label) ∈ o.faults label') :
    label = label' ∧ isIdentifier label' = false := by
  cases o with
  | column c => cases h
  | value v => exact label_of_mem_valueFaults h
  | absent => cases List.mem_singleton.1 h

namespace Predicate

mutual

/-- The labels of the comparisons and the templates in a predicate, depth first and from left to
right. -/
def labels : Predicate → List String
  | compare _ _ _ label => [label]
  | group _ ps => memberLabels ps
  | template _ label => [label]
  | script _ => []

/-- The labels of the comparisons and the templates in the members of a group. -/
def memberLabels : List Predicate → List String
  | [] => []
  | p :: ps => p.labels ++ memberLabels ps

end

theorem memberLabels_eq_flatMap (ps : List Predicate) : memberLabels ps = ps.flatMap labels := by
  induction ps with
  | nil => rfl
  | cons p ps ih => rw [memberLabels, ih, List.flatMap_cons]

/-- **A label that is refused is one of the predicate.** -/
theorem label_of_mem_faults {p : Predicate} (hp : p.Scriptless) {label : String}
    (h : .argument "prefix" (.notIdentifier label) ∈ p.faults) :
    label ∈ p.labels ∧ isIdentifier label = false := by
  induction hp with
  | compare left how right label' =>
      have hside : label = label' ∧ isIdentifier label' = false := by
        rcases List.mem_append.1 h with h | h
        · exact Operand.label_of_mem_faults h
        · exact Operand.label_of_mem_faults h
      obtain ⟨rfl, hlabel⟩ := hside
      exact ⟨List.mem_singleton_self label, hlabel⟩
  | @group c ps _ ih =>
      by_cases hps : ps = []
      · subst hps
        simp [faults] at h
      · rw [faults_group hps] at h
        obtain ⟨p, hmem, h⟩ := List.mem_flatMap.1 h
        obtain ⟨hlabels, hlabel⟩ := ih p hmem h
        rw [labels, memberLabels_eq_flatMap]
        exact ⟨List.mem_flatMap.2 ⟨p, hmem, hlabels⟩, hlabel⟩
  | template t label' =>
      obtain ⟨v, -, h⟩ := List.mem_flatMap.1 h
      obtain ⟨rfl, hlabel⟩ := label_of_mem_valueFaults h
      exact ⟨List.mem_singleton_self label, hlabel⟩

end Predicate

namespace Stage

variable {s : Session}

/-- A stage has no error of its own unless it is refused. -/
theorem error?_eq_none_iff (stage : Stage) : stage.error? s = none ↔ ¬stage.Refused s := by
  cases stage with
  | source bucket => simp [error?, Refused, Session.isEmpty]
  | templateSource t =>
      by_cases hempty : s.isEmpty = true
      · have htext : s.text = [] := List.isEmpty_iff.1 hempty
        have hlabel : isIdentifier "fromCustomFlux" = true := by decide
        rw [error?, if_pos hempty, List.head?_eq_none_iff, flatMap_valueFaults_eq_nil_iff]
        simp [Refused, htext, hlabel]
      · have htext : s.text ≠ [] := fun h => hempty (List.isEmpty_iff.2 h)
        simp [error?, Refused, hempty, htext]
  | range start stop =>
      rw [error?, List.head?_eq_none_iff, List.append_eq_nil_iff, List.flatMap_eq_nil_iff,
        Bound.faults_eq_nil_iff (by decide), Refused]
      constructor
      · rintro ⟨hstart, hstop⟩ ⟨i, rfl | rfl, hi⟩
        · exact hi (hstart i rfl)
        · exact hi ((Bound.faults_eq_nil_iff (by decide)).1 (hstop _ (by simp)) i rfl)
      · intro h
        refine ⟨fun i hi => ?_, fun b hb => (Bound.faults_eq_nil_iff (by decide)).2 fun i hi => ?_⟩
        · by_contra hrange
          exact h ⟨i, .inl hi, hrange⟩
        · by_contra hrange
          rw [Option.mem_toList] at hb
          exact h ⟨i, .inr (hi ▸ hb), hrange⟩
  | filter p => simp [error?, Refused]
  | movingAverage n => simp [error?, Refused]
  | _ => simp [error?, Refused]

/-- No stage but a predicate is refused for a label. -/
theorem exists_filter_of_error? {stage : Stage} {label : String}
    (h : stage.error? s = some (.argument "prefix" (.notIdentifier label))) :
    ∃ p, stage = .filter p := by
  cases stage with
  | source bucket =>
      rw [error?] at h
      split at h <;> simp at h
  | templateSource t =>
      rw [error?] at h
      split at h
      · obtain ⟨v, -, hv⟩ := List.mem_flatMap.1 (List.mem_of_head? h)
        exact absurd hv (label_notMem_valueFaults (by decide) v)
      · simp at h
  | range start stop =>
      rw [error?] at h
      rcases List.mem_append.1 (List.mem_of_head? h) with h | h
      · exact absurd h (start.label_notMem_faults (by decide))
      · obtain ⟨b, -, hb⟩ := List.mem_flatMap.1 h
        exact absurd hb (b.label_notMem_faults (by decide))
  | filter p => exact ⟨p, rfl⟩
  | movingAverage n =>
      rw [error?] at h
      split at h <;> simp at h
  | _ => cases h

end Stage

namespace Session

/-- **A stage fails exactly when it is refused, and a label is refused in predicates only.**  So it
is in every session: the error of a stage depends on the stage, on whether there is some text, and
for a filter on its predicate, which fails by itself for the same reason.  Without scripts, a label
is refused only if it is that of a comparison or a template in the predicate and is no
identifier. -/
theorem add_fails_iff {stage : Stage} (h : stage.BuiltIn) (s : Session) :
    ((∃ e, s.add stage = .error e) ↔ stage.Refused s) ∧
    ((∃ s', s.add stage = .ok s') ↔ ¬stage.Refused s) ∧
    (∀ e, s.add stage = .error e ↔ stage.error? s = some e) ∧
    ∀ label, s.add stage = .error (.argument "prefix" (.notIdentifier label)) →
      ∃ p, stage = .filter p ∧
        (s.run p.plan).2 = some (.argument "prefix" (.notIdentifier label)) ∧
        (p.Scriptless → label ∈ p.labels ∧ isIdentifier label = false) := by
  have herror : ∀ e, s.add stage = .error e ↔ stage.error? s = some e := fun _ =>
    add_eq_error_iff h
  have hok : (∃ s', s.add stage = .ok s') ↔ ¬stage.Refused s := by
    rw [← Stage.error?_eq_none_iff]
    cases hadd : s.add stage with
    | ok s' =>
        refine iff_of_true ⟨s', rfl⟩ (Option.eq_none_iff_forall_ne_some.2 fun e he => ?_)
        rw [(herror e).2 he] at hadd
        cases hadd
    | error e =>
        rw [(herror e).1 hadd]
        simp
  refine ⟨?_, hok, herror, fun label hlabel => ?_⟩
  · rw [← not_iff_not, ← hok]
    cases s.add stage with
    | ok s' => simp
    | error e => simp
  · have hstage := (herror _).1 hlabel
    obtain ⟨p, rfl⟩ := Stage.exists_filter_of_error? hstage
    refine ⟨p, rfl, hstage, fun hp => ?_⟩
    rw [Stage.error?, run_error, Predicate.findSome?_plan hp] at hstage
    exact Predicate.label_of_mem_faults hp (List.mem_of_head? hstage)

/-- Behind a source, windows with hostile names are taken, a range that ends too late is refused
under the name of its end, and so is another source. -/
theorem add_fails_iff_late : ∃ s : Session,
    [Stage.source "a"].foldlM add (ofSettings .standard) = .ok s ∧
    (∃ s', s.add (.window .zero ⟨none, none, some (.named "\")"), none, none, some "", true⟩) =
      .ok s') ∧
    s.add (.range .now (some (.absolute ⟨9223372037, 0, by decide⟩))) =
      .error (.argument "range_stop" (.outsideRange ⟨9223372037, 0, by decide⟩)) ∧
    ∃ e, s.add (.source "b") = .error e := by
  obtain ⟨s, hs⟩ : ∃ s, [Stage.source "a"].foldlM add (ofSettings .standard) = .ok s := ⟨_, rfl⟩
  have htext : s.text ≠ [] := by
    cases hs
    decide
  have hwindow : ∀ w, (Stage.window .zero w).BuiltIn := fun _ => trivial
  have hrange : ∀ b, (Stage.range .now b).BuiltIn := fun _ => trivial
  have hsource : (Stage.source "b").BuiltIn := trivial
  exact ⟨s, hs, (add_fails_iff (hwindow _) s).2.1.2 id,
    ((add_fails_iff (hrange _) s).2.2.1 _).2 rfl, (add_fails_iff hsource s).1.2 htext⟩

/-- A label that a caller has chosen for a comparison reaches the binding of its value. -/
theorem label_refused_in_filter :
    (ofSettings .standard).add
        (.filter (.withLabel "1st" (.compared (.column .value) .equal (.value (.integer 1))))) =
      .error (.argument "prefix" (.notIdentifier "1st")) := rfl

end Session

end BoundQuery
