/-
**Bound values do not reach the text of a query.**

Two pipelines are alike under a policy when they have the same shape and differ only in values that
the policy binds on both sides.  Alike stages do alike things to alike drafts, and alike drafts
become sessions with the same text, the same names of entries and the same imports: a value that is
bound is only ever seen in the table.

Main definitions:

* `BoundQuery.Draft.Alike` — two drafts differ in bound values only;
* `BoundQuery.Predicate.Alike`, `BoundQuery.Stage.Alike` — the same of two predicates and of two
  stages.

Main results:

* `BoundQuery.Predicate.alike_plan` — alike predicates do alike things;
* `BoundQuery.Draft.alike_add` — a stage keeps drafts alike;
* `BoundQuery.Session.text_eq_of_alike` — alike pipelines have the same text, names and imports.
-/

import BoundQuery.Proofs.Binding.Alike
import BoundQuery.Proofs.Pipeline.PolicyIndependence

set_option relaxedAutoImplicit false
set_option autoImplicit false

namespace BoundQuery

variable {p : Policy}

/-! ### Drafts -/

/-- Two drafts have alike marks, and the same imports and present. -/
structure Draft.Alike (p : Policy) (d d' : Draft) : Prop where
  marks : List.Forall₂ (Mark.Alike p) d.marks d'.marks
  now : d.now = d'.now
  imports : d.imports = d'.imports

theorem all_isEmpty {ms ms' : List Mark} (h : List.Forall₂ (Mark.Alike p) ms ms') :
    ms.all Mark.isEmpty = ms'.all Mark.isEmpty := by
  induction h with
  | nil => rfl
  | cons hm _ ih =>
      rw [List.all_cons, List.all_cons, ih]
      cases hm with
      | fixed t => rfl
      | slot label hv => rfl

namespace Draft

variable {d d' e e' : Draft}

theorem Alike.pipe (h : d.Alike p d') : d.pipe = d'.pipe := by
  have hempty : d.isEmpty = d'.isEmpty := all_isEmpty h.marks
  unfold Draft.pipe
  rw [hempty]

theorem complete_eq_ok_iff {b : Block} :
    d.complete b = .ok e ↔ b.findSome? Action.error? = none ∧ d.after b = e := by
  unfold complete
  cases b.findSome? Action.error? with
  | some f => simp
  | none => simp

/-- Alike blocks keep drafts alike. -/
theorem Alike.complete {b b' : Block} (h : d.Alike p d')
    (hb : List.Forall₂ (Action.Alike p) b b') (he : d.complete b = .ok e)
    (he' : d'.complete b' = .ok e') : e.Alike p e' := by
  obtain ⟨hclean, rfl⟩ := complete_eq_ok_iff.1 he
  obtain ⟨hclean', rfl⟩ := complete_eq_ok_iff.1 he'
  obtain ⟨hmarks, hpackages⟩ := alike_flatMap hb hclean hclean'
  refine ⟨List.rel_append h.marks hmarks, h.now, ?_⟩
  simp only [after, h.imports, hpackages]

theorem Alike.changed {changes : List Change} (h : d.Alike p d') (he : d.changed changes = .ok e)
    (he' : d'.changed changes = .ok e') : e.Alike p e' := by
  have hsettings : d.settings .none = d'.settings .none := by
    simp only [settings, h.now, h.imports]
  unfold Draft.changed at he he'
  rw [hsettings] at he
  cases hfold : changes.foldlM Settings.change (d'.settings .none) with
  | error f =>
      rw [hfold] at he
      cases he
  | ok s =>
      rw [hfold] at he he'
      cases he
      cases he'
      exact ⟨h.marks, rfl, rfl⟩

end Draft

/-! ### Predicates -/

/-- Two columns are the same, or are looked up under alike names. -/
inductive Column.Alike (p : Policy) : Column → Column → Prop where
  | trusted (name : String) : Alike p (.trusted name) (.trusted name)
  | dynamic {n m : String} (h : (Value.text n).Alike p (.text m)) :
      Alike p (.dynamic n) (.dynamic m)

/-- Two sides of a comparison are alike columns, alike values, or both absent. -/
inductive Operand.Alike (p : Policy) : Operand → Operand → Prop where
  | column {c c' : Column} (h : c.Alike p c') : Alike p (.column c) (.column c')
  | value {v w : Value} (h : v.Alike p w) : Alike p (.value v) (.value w)
  | absent : Alike p .absent .absent

/-- Two parts of a template are the same text or alike values. -/
inductive Template.Part.Alike (p : Policy) : Part → Part → Prop where
  | raw (t : List Char) : Alike p (.raw t) (.raw t)
  | value {v w : Value} (h : v.Alike p w) : Alike p (.value v) (.value w)

mutual

/-- Two predicates have the same shape and differ in alike values. -/
inductive Predicate.Alike (p : Policy) : Predicate → Predicate → Prop where
  | compare {l l' r r' : Operand} (how : Comparison) (label : String) (hl : l.Alike p l')
      (hr : r.Alike p r') : Alike p (.compare l how r label) (.compare l' how r' label)
  | group (c : Connective) {qs qs' : List Predicate} (h : AllAlike p qs qs') :
      Alike p (.group c qs) (.group c qs')
  | template {t t' : Template} (label : String)
      (h : List.Forall₂ (Template.Part.Alike p) t.parts t'.parts) :
      Alike p (.template t label) (.template t' label)

/-- The members of two groups are alike, one by one. -/
inductive Predicate.AllAlike (p : Policy) : List Predicate → List Predicate → Prop where
  | nil : AllAlike p [] []
  | cons {q q' : Predicate} {qs qs' : List Predicate} (h : Alike p q q')
      (hs : AllAlike p qs qs') : AllAlike p (q :: qs) (q' :: qs')

end

theorem Column.Alike.block {c c' : Column} (h : c.Alike p c') :
    List.Forall₂ (Action.Alike p) c.block c'.block := by
  cases h with
  | trusted name => exact .cons (.write _) .nil
  | dynamic h =>
      exact .cons (.write _) (.cons (.place _ h) (.cons (.require _) (.cons (.write _) .nil)))

theorem Operand.Alike.block {o o' : Operand} (h : o.Alike p o') (label : String) :
    List.Forall₂ (Action.Alike p) (o.block label) (o'.block label) := by
  cases h with
  | column h => exact h.block
  | value h => exact .cons (.place label h) .nil
  | absent => exact .cons (.fail _ _) .nil

theorem Template.alike_block {t t' : Template}
    (h : List.Forall₂ (Part.Alike p) t.parts t'.parts) (label : String) :
    List.Forall₂ (Action.Alike p) (t.block label) (t'.block label) := by
  unfold block
  rw [List.forall₂_map_left_iff, List.forall₂_map_right_iff]
  refine h.imp fun q q' hq => ?_
  cases hq with
  | raw u => exact .write u
  | value h => exact .place label h

mutual

/-- Alike predicates do alike things. -/
theorem Predicate.alike_plan : ∀ {q q' : Predicate}, q.Alike p q' →
    List.Forall₂ (Action.Alike p) q.plan.flatten q'.plan.flatten
  | _, _, .compare how label hl hr => by
      simp only [Predicate.plan, List.flatten_cons, List.flatten_nil, List.append_nil]
      exact List.rel_append (hl.block label) (List.rel_append (.cons (.write _) .nil)
        (hr.block label))
  | _, _, .group c .nil => .cons (.fail _ _) .nil
  | _, _, .group c (.cons h hs) => by
      simp only [Predicate.plan, List.flatten_cons, List.flatten_append, List.flatten_nil,
        List.append_nil]
      exact List.rel_append (List.rel_append (.cons (.write _) .nil) (List.rel_append
        (alike_plan h) (alike_restPlan c hs))) (.cons (.write _) .nil)
  | _, _, .template label h => by
      simp only [Predicate.plan, List.flatten_cons, List.flatten_nil, List.append_nil]
      exact Template.alike_block h label

/-- The members of alike groups behind the first ones do alike things. -/
theorem Predicate.alike_restPlan (c : Connective) : ∀ {qs qs' : List Predicate},
    AllAlike p qs qs' →
      List.Forall₂ (Action.Alike p) (restPlan c qs).flatten (restPlan c qs').flatten
  | _, _, .nil => .nil
  | _, _, .cons h hs => by
      simp only [Predicate.restPlan, List.flatten_cons, List.flatten_append]
      exact List.rel_append (.cons (.write _) .nil) (List.rel_append (alike_plan h)
        (alike_restPlan c hs))

end

/-! ### Calls -/

/-- Two bounds of ranges are alike instants, alike durations, or both the present. -/
inductive Bound.Alike (p : Policy) : Bound → Bound → Prop where
  | absolute {t t' : Instant} (h : (Value.instant t).Alike p (.instant t')) :
      Alike p (.absolute t) (.absolute t')
  | relative {d d' : Duration} (h : (Value.duration d).Alike p (.duration d')) :
      Alike p (.relative d) (.relative d')
  | now : Alike p .now .now

/-- Two time zones are both universal time, or have alike names or alike distances from it. -/
inductive Location.Alike (p : Policy) : Location → Location → Prop where
  | utc : Alike p .utc .utc
  | named {n m : String} (h : (Value.text n).Alike p (.text m)) : Alike p (.named n) (.named m)
  | fixed {d d' : Duration} (h : (Value.duration d).Alike p (.duration d')) :
      Alike p (.fixed d) (.fixed d')

/-- Two arguments of a call are alike values, alike time zones or the same name. -/
inductive Argument.Alike (p : Policy) : Argument → Argument → Prop where
  | value {v w : Value} (h : v.Alike p w) : Alike p (.value v) (.value w)
  | location {l l' : Location} (h : l.Alike p l') : Alike p (.location l) (.location l')
  | name (t : String) : Alike p (.name t) (.name t)

/-- Two arguments have the same name and are alike. -/
def Argument.NamedAlike (p : Policy) (a a' : String × Argument) : Prop :=
  a.1 = a'.1 ∧ a.2.Alike p a'.2

theorem Bound.Alike.block {b b' : Bound} (h : b.Alike p b') (label : String) :
    List.Forall₂ (Action.Alike p) (b.block label) (b'.block label) := by
  cases h with
  | absolute h => exact .cons (.give label h) .nil
  | relative h => exact .cons (.give label h) .nil
  | now => exact .cons (.write _) .nil

theorem Location.Alike.block {l l' : Location} (h : l.Alike p l') :
    List.Forall₂ (Action.Alike p) l.block l'.block := by
  cases h with
  | utc => exact .cons (.require _) (.cons (.write _) .nil)
  | named h =>
      exact .cons (.require _) (.cons (.write _) (.cons (.place _ h) (.cons (.write _) .nil)))
  | fixed h =>
      exact .cons (.require _) (.cons (.write _) (.cons (.place _ h) (.cons (.write _) .nil)))

theorem Argument.Alike.block {a a' : Argument} (h : a.Alike p a') (function name : String) :
    List.Forall₂ (Action.Alike p) (a.block function name) (a'.block function name) := by
  cases h with
  | value h => exact .cons (.place _ h) .nil
  | location h => exact h.block
  | name t => exact .cons (.write _) .nil

theorem Argument.alike_blocks {as as' : List (String × Argument)}
    (h : List.Forall₂ (NamedAlike p) as as') (function : String) :
    List.Forall₂ (Action.Alike p) (blocks function as) (blocks function as') := by
  induction h with
  | nil => exact .nil
  | @cons a a' as as' ha has ih =>
      obtain ⟨n, b⟩ := a
      obtain ⟨n', b'⟩ := a'
      obtain ⟨rfl, hb⟩ : n = n' ∧ b.Alike p b' := ha
      cases has with
      | nil => exact .cons (.write _) (hb.block function n)
      | cons _ _ =>
          exact .cons (.write _) (List.rel_append (hb.block function n) (.cons (.write _) ih))

theorem alike_callBlock {as as' : List (String × Argument)}
    (h : List.Forall₂ (Argument.NamedAlike p) as as') (function : String) :
    List.Forall₂ (Action.Alike p) (callBlock function as) (callBlock function as') :=
  List.rel_append (.cons (.write _) (Argument.alike_blocks h function)) (.cons (.write _) .nil)

/-- Texts that may be absent are alike when they are alike as values. -/
abbrev OptionalText.Alike (p : Policy) : Option String → Option String → Prop :=
  Option.Rel fun s t => (Value.text s).Alike p (.text t)

/-- Durations that may be absent are alike when they are alike as values. -/
abbrev OptionalDuration.Alike (p : Policy) : Option Duration → Option Duration → Prop :=
  Option.Rel fun d e => (Value.duration d).Alike p (.duration e)

theorem Argument.alike_ofText? (name : String) {s s' : Option String}
    (h : OptionalText.Alike p s s') :
    List.Forall₂ (NamedAlike p) (ofText? name s) (ofText? name s') := by
  cases h with
  | none => exact .nil
  | some h => exact .cons ⟨rfl, .value h⟩ .nil

theorem Argument.alike_ofDuration? (name : String) {d d' : Option Duration}
    (h : OptionalDuration.Alike p d d') :
    List.Forall₂ (NamedAlike p) (ofDuration? name d) (ofDuration? name d') := by
  cases h with
  | none => exact .nil
  | some h => exact .cons ⟨rfl, .value h⟩ .nil

theorem Argument.alike_ofLocation? {l l' : Option Location}
    (h : Option.Rel (Location.Alike p) l l') :
    List.Forall₂ (NamedAlike p) (ofLocation? l) (ofLocation? l') := by
  cases h with
  | none => exact .nil
  | some h => exact .cons ⟨rfl, .location h⟩ .nil

/-! ### Stages -/

/-- Two windows have the same parts, which are alike. -/
structure Window.Alike (p : Policy) (w w' : Window) : Prop where
  period : OptionalDuration.Alike p w.period w'.period
  offset : OptionalDuration.Alike p w.offset w'.offset
  location : Option.Rel (Location.Alike p) w.location w'.location
  timeColumn : OptionalText.Alike p w.timeColumn w'.timeColumn
  startColumn : OptionalText.Alike p w.startColumn w'.startColumn
  stopColumn : OptionalText.Alike p w.stopColumn w'.stopColumn
  createEmpty : w.createEmpty = w'.createEmpty

/-- Two windows with a function have the same parts, which are alike. -/
structure AggregateWindow.Alike (p : Policy) (w w' : AggregateWindow) : Prop where
  period : OptionalDuration.Alike p w.period w'.period
  offset : OptionalDuration.Alike p w.offset w'.offset
  location : Option.Rel (Location.Alike p) w.location w'.location
  column : OptionalText.Alike p w.column w'.column
  timeSource : OptionalText.Alike p w.timeSource w'.timeSource
  timeTarget : OptionalText.Alike p w.timeTarget w'.timeTarget
  createEmpty : w.createEmpty = w'.createEmpty

/-- Two stages have the same shape and differ in alike values; no stage with a script is alike to
another. -/
inductive Stage.Alike (p : Policy) : Stage → Stage → Prop where
  | source {b b' : String} (h : (Value.text b).Alike p (.text b')) :
      Alike p (.source b) (.source b')
  | templateSource {t t' : Template}
      (h : List.Forall₂ (Template.Part.Alike p) t.parts t'.parts) :
      Alike p (.templateSource t) (.templateSource t')
  | range {b b' : Bound} {e e' : Option Bound} (hb : b.Alike p b')
      (he : Option.Rel (Bound.Alike p) e e') : Alike p (.range b e) (.range b' e')
  | filter {q q' : Predicate} (h : q.Alike p q') : Alike p (.filter q) (.filter q')
  | aggregate (function : Identifier) {c c' : Option String} (h : OptionalText.Alike p c c') :
      Alike p (.aggregate function c) (.aggregate function c')
  | movingAverage {n n' : UInt32}
      (h : (Value.integer (Int64.ofNat n.toNat)).Alike p (.integer (Int64.ofNat n'.toNat))) :
      Alike p (.movingAverage n) (.movingAverage n')
  | timedMovingAverage {d d' e e' : Duration} {c c' : Option String}
      (hd : (Value.duration d).Alike p (.duration d'))
      (he : (Value.duration e).Alike p (.duration e')) (hc : OptionalText.Alike p c c') :
      Alike p (.timedMovingAverage d e c) (.timedMovingAverage d' e' c')
  | window {d d' : Duration} {w w' : Window} (hd : (Value.duration d).Alike p (.duration d'))
      (hw : w.Alike p w') : Alike p (.window d w) (.window d' w')
  | aggregateWindow (function : Identifier) {d d' : Duration} {w w' : AggregateWindow}
      (hd : (Value.duration d).Alike p (.duration d')) (hw : w.Alike p w') :
      Alike p (.aggregateWindow function d w) (.aggregateWindow function d' w')
  | yield {n n' : Option String}
      (h : OptionalText.Alike p (Stage.visibleName n) (Stage.visibleName n')) :
      Alike p (.yield n) (.yield n')
  | configure (changes : List Change) : Alike p (.configure changes) (.configure changes)

theorem Window.Alike.arguments {w w' : Window} (h : w.Alike p w') {d d' : Duration}
    (hd : (Value.duration d).Alike p (.duration d')) :
    List.Forall₂ (Argument.NamedAlike p) (w.arguments d) (w'.arguments d') := by
  unfold Window.arguments
  rw [h.createEmpty]
  refine List.rel_append (List.rel_append (List.rel_append (List.rel_append (List.rel_append
    (List.rel_append (List.rel_append (.cons ⟨rfl, .value hd⟩ .nil)
      (Argument.alike_ofDuration? _ h.period)) (Argument.alike_ofDuration? _ h.offset))
      (Argument.alike_ofLocation? h.location)) (Argument.alike_ofText? _ h.timeColumn))
      (Argument.alike_ofText? _ h.startColumn)) (Argument.alike_ofText? _ h.stopColumn)) ?_
  split
  · exact .cons ⟨rfl, .value (.refl _)⟩ .nil
  · exact .nil

theorem AggregateWindow.Alike.arguments {w w' : AggregateWindow} (h : w.Alike p w')
    (function : Identifier) {d d' : Duration}
    (hd : (Value.duration d).Alike p (.duration d')) :
    List.Forall₂ (Argument.NamedAlike p) (w.arguments function d) (w'.arguments function d') := by
  unfold AggregateWindow.arguments
  rw [h.createEmpty]
  refine List.rel_append (List.rel_append (List.rel_append (List.rel_append (List.rel_append
    (List.rel_append (List.rel_append
      (.cons ⟨rfl, .value hd⟩ (.cons ⟨rfl, .name _⟩ .nil))
      (Argument.alike_ofDuration? _ h.period)) (Argument.alike_ofDuration? _ h.offset))
      (Argument.alike_ofLocation? h.location)) (Argument.alike_ofText? _ h.column))
      (Argument.alike_ofText? _ h.timeSource)) (Argument.alike_ofText? _ h.timeTarget)) ?_
  split
  · exact .nil
  · exact .cons ⟨rfl, .value (.refl _)⟩ .nil

theorem alike_rangeBlock {b b' : Bound} {e e' : Option Bound} (hb : b.Alike p b')
    (he : Option.Rel (Bound.Alike p) e e') :
    List.Forall₂ (Action.Alike p) (Stage.rangeBlock b e) (Stage.rangeBlock b' e') := by
  have hstop : List.Forall₂ (Action.Alike p)
      (e.toList.flatMap fun b => .write ", stop: ".toList :: b.block "range_stop")
      (e'.toList.flatMap fun b => .write ", stop: ".toList :: b.block "range_stop") := by
    cases he with
    | none => exact .nil
    | some h => exact List.rel_append (.cons (.write _) (h.block _)) .nil
  exact List.rel_append (List.rel_append (.cons (.write _) (hb.block _)) hstop)
    (.cons (.write _) .nil)

/-! ### Pipelines -/

namespace Draft

variable {d d' e e' : Draft}

/-- Alike blocks behind a pipe keep drafts alike. -/
theorem Alike.piped {b b' : Block} (h : d.Alike p d') (hb : List.Forall₂ (Action.Alike p) b b')
    (he : d.addForm (.piped b) = .ok e) (he' : d'.addForm (.piped b') = .ok e') : e.Alike p e' := by
  have hpipe : List.Forall₂ (Action.Alike p) (.write d.pipe :: b) (.write d'.pipe :: b') := by
    rw [h.pipe]
    exact .cons (.write _) hb
  exact h.complete hpipe he he'

/-- Alike blocks of sources keep drafts alike. -/
theorem Alike.source {argument : String} {b b' : Block} (h : d.Alike p d')
    (hb : List.Forall₂ (Action.Alike p) b b') (he : d.addForm (.source argument b) = .ok e)
    (he' : d'.addForm (.source argument b') = .ok e') : e.Alike p e' := by
  rw [addForm] at he he'
  split at he
  · split at he'
    · exact h.complete hb he he'
    · cases he'
  · cases he

/-- An average over no points is refused. -/
theorem points_ne_zero {n : UInt32} (h : d.add (.movingAverage n) = .ok e) : n ≠ 0 := by
  intro hn
  rw [add, Stage.form, if_pos hn, addForm] at h
  cases (complete_eq_ok_iff.1 h).1

/-- **A stage keeps drafts alike.** -/
theorem alike_add {stage stage' : Stage} (h : stage.Alike p stage') (hd : d.Alike p d')
    (he : d.add stage = .ok e) (he' : d'.add stage' = .ok e') : e.Alike p e' := by
  cases h with
  | source h =>
      exact hd.source (.cons (.write _) (.cons (.place _ h) (.cons (.write _) .nil))) he he'
  | templateSource h => exact hd.source (Template.alike_block h _) he he'
  | range hb hstop => exact hd.piped (alike_rangeBlock hb hstop) he he'
  | filter h =>
      exact hd.piped (List.rel_append (.cons (.write _) (Predicate.alike_plan h))
        (.cons (.write _) .nil)) he he'
  | aggregate function h => exact hd.piped (alike_callBlock (Argument.alike_ofText? _ h) _) he he'
  | @movingAverage n n' h =>
      -- the number of points is looked at before it is bound, but only to refuse zero
      have hn := points_ne_zero he
      have hn' := points_ne_zero he'
      have hpoints : List.Forall₂ (Argument.NamedAlike p)
          [("n", .value (.integer (Int64.ofNat n.toNat)))]
          [("n", .value (.integer (Int64.ofNat n'.toNat)))] := .cons ⟨rfl, .value h⟩ .nil
      simp only [add, Stage.form, hn, hn', if_false] at he he'
      exact hd.piped (alike_callBlock hpoints _) he he'
  | timedMovingAverage hevery hperiod hcolumn =>
      exact hd.piped (alike_callBlock (List.rel_append
        (.cons ⟨rfl, .value hevery⟩ (.cons ⟨rfl, .value hperiod⟩ .nil))
        (Argument.alike_ofText? _ hcolumn)) _) he he'
  | window hevery hw => exact hd.piped (alike_callBlock (hw.arguments hevery) _) he he'
  | aggregateWindow function hevery hw =>
      exact hd.piped (alike_callBlock (hw.arguments function hevery) _) he he'
  | yield h => exact hd.piped (alike_callBlock (Argument.alike_ofText? _ h) _) he he'
  | configure changes => exact hd.changed he he'

/-- Alike pipelines keep drafts alike. -/
theorem alike_foldlM {stages stages' : List Stage} (h : List.Forall₂ (Stage.Alike p) stages stages')
    (hd : d.Alike p d') (he : stages.foldlM add d = .ok e) (he' : stages'.foldlM add d' = .ok e') :
    e.Alike p e' := by
  induction h generalizing d d' with
  | nil =>
      cases he
      cases he'
      exact hd
  | @cons stage stage' _ _ hstage _ ih =>
      obtain ⟨d₁, hadd, he⟩ := exists_of_foldlM_cons he
      obtain ⟨d₁', hadd', he'⟩ := exists_of_foldlM_cons he'
      exact ih (alike_add hstage hd hadd hadd') he he'

/-- A pipeline that succeeds leaves the session of a draft. -/
theorem exists_of_foldlM_add {settings : Settings} {stages : List Stage} {s : Session}
    (h : stages.foldlM Session.add (.ofSettings settings) = .ok s) :
    ∃ e, stages.foldlM add (ofSettings settings) = .ok e ∧ e.session settings.policy = s := by
  have hfold := foldlM_map (fun d stage => session_add d settings.policy stage) stages
    (ofSettings settings)
  rw [session_ofSettings, h] at hfold
  exact Template.exists_of_map_eq_ok hfold.symm

end Draft

/-- **Bound values do not reach the text of a query.**  Two pipelines that have the same shape, and
differ only in values that the policy binds on both sides, become queries with the same text, the
same names of entries in the same order and the same imports. -/
theorem Session.text_eq_of_alike {settings : Settings} {stages stages' : List Stage}
    (h : List.Forall₂ (Stage.Alike settings.policy) stages stages') {s s' : Session}
    (hs : stages.foldlM add (.ofSettings settings) = .ok s)
    (hs' : stages'.foldlM add (.ofSettings settings) = .ok s') :
    s.text = s'.text ∧ s.table.entries.map Prod.fst = s'.table.entries.map Prod.fst ∧
      s.settings.imports = s'.settings.imports := by
  obtain ⟨e, he, rfl⟩ := Draft.exists_of_foldlM_add hs
  obtain ⟨e', he', rfl⟩ := Draft.exists_of_foldlM_add hs'
  have halike := Draft.alike_foldlM h ⟨.nil, rfl, rfl⟩ he he'
  refine ⟨?_, map_fst_bound halike.marks 0, halike.imports⟩
  have htexts := map_text_fill halike.marks 0
  change piecesText (fill _ 0 e.marks) = piecesText (fill _ 0 e'.marks)
  rw [piecesText, piecesText, List.flatMap_def, List.flatMap_def, htexts]

/-- Names that would close a string and open another stage leave the text as it is. -/
theorem Session.text_eq_of_alike_hostile : ∃ s s',
    [Stage.source "telegraf", .filter (.measurementIs "cpu")].foldlM add (.ofSettings .standard) =
        .ok s ∧
      [Stage.source "\") |> drop(", .filter (.measurementIs "\" or true")].foldlM add
        (.ofSettings .standard) = .ok s' ∧
      s.text = s'.text ∧ s.table.entries.map Prod.fst = s'.table.entries.map Prod.fst ∧
      s.settings.imports = s'.settings.imports := by
  have hsource : ∀ b b', (Stage.source b).Alike Policy.all (.source b') := fun _ _ =>
    .source (Or.inr ⟨rfl, rfl⟩)
  have hfilter : ∀ n n', (Stage.filter (.measurementIs n)).Alike Policy.all
      (.filter (.measurementIs n')) := fun _ _ =>
    .filter (.compare _ _ (.column (.trusted _)) (.value (Or.inr ⟨rfl, rfl⟩)))
  obtain ⟨s, hs⟩ : ∃ s, [Stage.source "telegraf", .filter (.measurementIs "cpu")].foldlM add
      (.ofSettings .standard) = .ok s := ⟨_, rfl⟩
  obtain ⟨s', hs'⟩ : ∃ s', [Stage.source "\") |> drop(",
      .filter (.measurementIs "\" or true")].foldlM add (.ofSettings .standard) = .ok s' := ⟨_, rfl⟩
  exact ⟨s, s', hs, hs', text_eq_of_alike (.cons (hsource _ _) (.cons (hfilter _ _) .nil)) hs hs'⟩

end BoundQuery
