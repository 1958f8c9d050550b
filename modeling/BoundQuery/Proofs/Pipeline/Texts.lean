/-
**The texts that stages write.**

Apart from the raw texts of templates, and where there are no scripts, a stage writes no line break
and few texts with a point: those with which columns and time zones begin.  So a property of texts
that all texts without a point and a line break have is one of all that a stage writes, if its
columns, its time zones and its raw texts have it.

Main definitions:

* `BoundQuery.PlainText` — a text without a point and a line break;
* `BoundQuery.Writes` — every text that a block writes has a property, and what it binds it writes;
* `BoundQuery.Column.opening`, `BoundQuery.Location.opening` — the text with which a column or a
  time zone begins;
* `BoundQuery.Predicate.columns`, `BoundQuery.Stage.columns`, `BoundQuery.Stage.locations` — the
  columns and the time zones of a predicate and a stage, in order;
* `BoundQuery.Predicate.rawTexts`, `BoundQuery.Stage.rawTexts` — the raw texts of templates;
* `BoundQuery.Session.Writes` — every fixed text that is written has a property.

Main results:

* `BoundQuery.Predicate.writes_plan`, `BoundQuery.Stage.writes_form_of_plainText`,
  `BoundQuery.Stage.writes_form` — what a predicate and a stage write;
* `BoundQuery.Stage.Scriptless.overt` — what they bind they write;
* `BoundQuery.Session.Writes.of_adds`, `BoundQuery.Session.writes_of_foldlM` — what a session has
  written behind a stage and behind a pipeline.
-/

import BoundQuery.Proofs.Pipeline.Invariant
import BoundQuery.Proofs.Predicate.Faults

set_option relaxedAutoImplicit false
set_option autoImplicit false

namespace BoundQuery

/-! ### Plain texts -/

/-- A text without a point and a line break. -/
def PlainText (t : List Char) : Prop := '.' ∉ t ∧ '\n' ∉ t

instance (t : List Char) : Decidable (PlainText t) :=
  inferInstanceAs (Decidable ('.' ∉ t ∧ '\n' ∉ t))

theorem PlainText.append {s t : List Char} (hs : PlainText s) (ht : PlainText t) :
    PlainText (s ++ t) := by
  constructor
  · exact fun h => (List.mem_append.1 h).elim hs.1 ht.1
  · exact fun h => (List.mem_append.1 h).elim hs.2 ht.2

/-- An identifier has neither. -/
theorem plainText_of_isIdentifier {s : String} (h : isIdentifier s = true) :
    PlainText s.toList :=
  ⟨notMem_of_isIdentifier h rfl, notMem_of_isIdentifier h rfl⟩

/-! ### Blocks -/

/-- A text that an action writes satisfies `P`, and what it binds it writes. -/
def Action.Writes (P : List Char → Prop) : Action → Prop
  | write t => P t
  | keep _ _ => False
  | _ => True

/-- Every text that a block writes satisfies `P`, and what it binds it writes. -/
def Writes (P : List Char → Prop) (b : Block) : Prop := ∀ a ∈ b, a.Writes P

namespace Writes

variable {P Q : List Char → Prop} {b c : Block}

theorem nil : Writes P [] := fun _ h => by cases h

theorem append (hb : Writes P b) (hc : Writes P c) : Writes P (b ++ c) :=
  List.forall_mem_append.2 ⟨hb, hc⟩

theorem cons {a : Action} (ha : a.Writes P) (hb : Writes P b) : Writes P (a :: b) :=
  List.forall_mem_cons.2 ⟨ha, hb⟩

theorem write {t : List Char} (ht : P t) (hb : Writes P b) : Writes P (.write t :: b) :=
  cons ht hb

theorem place {label : String} {v : Value} (hb : Writes P b) : Writes P (.place label v :: b) :=
  cons trivial hb

theorem give {label : String} {g : Given} (hb : Writes P b) : Writes P (.give label g :: b) :=
  cons trivial hb

theorem require {p : Package} (hb : Writes P b) : Writes P (.require p :: b) := cons trivial hb

theorem fail {e : Error} (hb : Writes P b) : Writes P (.fail e :: b) := cons trivial hb

theorem of_mem (hb : Writes P b) {t : List Char} (h : .write t ∈ b) : P t := hb _ h

theorem overt (hb : Writes P b) : Overt b := fun _ _ h => hb _ h

theorem mono (hb : Writes P b) (hPQ : ∀ t, P t → Q t) : Writes Q b := by
  intro a ha
  have h := hb a ha
  cases a with
  | write t => exact hPQ t h
  | keep label g => exact h
  | _ => trivial

end Writes

/-! ### Columns and raw texts of predicates -/

/-- The text with which a column begins. -/
def Column.opening : Column → List Char
  | trusted name => "r.".toList ++ name.toList
  | dynamic _ => "record.get(r: r, key: ".toList

/-- The column that a side of a comparison is. -/
def Operand.columns : Operand → List Column
  | column c => [c]
  | _ => []

/-- The raw texts of a template. -/
def Template.rawTexts (t : Template) : List (List Char) :=
  t.parts.filterMap fun
    | .raw u => some u
    | .value _ => none

namespace Predicate

mutual

/-- The columns in a predicate, depth first and from left to right. -/
def columns : Predicate → List Column
  | compare left _ right _ => left.columns ++ right.columns
  | group _ ps => memberColumns ps
  | template _ _ => []
  | script _ => []

/-- The columns in the members of a group. -/
def memberColumns : List Predicate → List Column
  | [] => []
  | p :: ps => p.columns ++ memberColumns ps

end

mutual

/-- The raw texts of the templates in a predicate. -/
def rawTexts : Predicate → List (List Char)
  | .compare _ _ _ _ => []
  | .group _ qs => memberTexts qs
  | .template t _ => t.rawTexts
  | .script _ => []

/-- The raw texts of the templates in the members of a group. -/
def memberTexts : List Predicate → List (List Char)
  | [] => []
  | q :: qs => q.rawTexts ++ memberTexts qs

end

theorem memberColumns_eq_flatMap (ps : List Predicate) :
    memberColumns ps = ps.flatMap columns := by
  induction ps with
  | nil => rfl
  | cons p ps ih => rw [memberColumns, ih, List.flatMap_cons]

theorem memberTexts_eq_flatMap (ps : List Predicate) : memberTexts ps = ps.flatMap rawTexts := by
  induction ps with
  | nil => rfl
  | cons p ps ih => rw [memberTexts, ih, List.flatMap_cons]

end Predicate

section Plain

-- plain texts satisfy `P`: all but the openings and the raw texts are plain
variable {P : List Char → Prop} (hP : ∀ t, PlainText t → P t)

include hP

/-! ### What predicates write -/

theorem Column.writes_block {c : Column} (hc : P c.opening) : Writes P c.block := by
  cases c with
  | trusted name => exact .write hc .nil
  | dynamic name => exact .write hc (.place (.require (.write (hP _ (by decide)) .nil)))

theorem Operand.writes_block (label : String) {o : Operand} (ho : ∀ c ∈ o.columns, P c.opening) :
    Writes P (o.block label) := by
  cases o with
  | column c => exact c.writes_block hP (ho c (List.mem_singleton_self c))
  | value v => exact .place .nil
  | absent => exact .fail .nil

omit hP in
/-- What a template writes itself is its raw text. -/
theorem Template.writes_block {t : Template} (ht : ∀ u ∈ t.rawTexts, P u) (label : String) :
    Writes P (t.block label) := by
  intro a ha
  obtain ⟨part, hpart, rfl⟩ := List.mem_map.1 ha
  cases part with
  | raw u => exact ht u (List.mem_filterMap.2 ⟨_, hpart, rfl⟩)
  | value v => trivial

namespace Predicate

theorem spaced_sign (how : Comparison) : P (spaced how.sign) := by
  cases how <;> exact hP _ (by decide)

theorem spaced_word (c : Connective) : P (spaced c.word) := by
  cases c <;> exact hP _ (by decide)

/-- Members of a group write such texts only, if each of them does. -/
theorem writes_restPlan (c : Connective) {ps : List Predicate}
    (h : ∀ p ∈ ps, Writes P p.plan.flatten) : Writes P (restPlan c ps).flatten := by
  induction ps with
  | nil => exact .nil
  | cons p ps ih =>
      obtain ⟨hp, hps⟩ := List.forall_mem_cons.1 h
      rw [restPlan, List.cons_append, List.flatten_cons, List.flatten_append]
      exact .write (spaced_word hP c) (hp.append (ih hps))

/-- **What a predicate writes**: plain texts, the openings of its columns and the raw texts of its
templates. -/
theorem writes_plan {p : Predicate} (hp : p.Scriptless) (hcolumns : ∀ c ∈ p.columns, P c.opening)
    (hraws : ∀ t ∈ p.rawTexts, P t) : Writes P p.plan.flatten := by
  induction hp with
  | compare left how right label =>
      obtain ⟨hleft, hright⟩ := List.forall_mem_append.1 hcolumns
      simp only [plan, List.flatten_cons, List.flatten_nil, List.append_nil]
      exact (left.writes_block hP label hleft).append
        (.write (spaced_sign hP how) (right.writes_block hP label hright))
  | @group c ps _ ih =>
      have hmembers : ∀ p ∈ ps, Writes P p.plan.flatten := by
        intro p hmem
        rw [columns, memberColumns_eq_flatMap] at hcolumns
        rw [rawTexts, memberTexts_eq_flatMap] at hraws
        refine ih p hmem ?_ ?_
        · intro c hc
          exact hcolumns c (List.mem_flatMap.2 ⟨p, hmem, hc⟩)
        · intro t ht
          exact hraws t (List.mem_flatMap.2 ⟨p, hmem, ht⟩)
      cases ps with
      | nil => exact .fail .nil
      | cons p ps =>
          obtain ⟨hp, hps⟩ := List.forall_mem_cons.1 hmembers
          simp only [plan, List.cons_append, List.flatten_cons, List.flatten_append,
            List.flatten_nil, List.append_nil]
          exact .write (hP _ (by decide)) ((hp.append (writes_restPlan hP c hps)).append
            (.write (hP _ (by decide)) .nil))
  | template t label =>
      simp only [plan, List.flatten_cons, List.flatten_nil, List.append_nil]
      exact Template.writes_block hraws label

end Predicate

/-! ### What calls write -/

theorem Bound.writes_block (b : Bound) (label : String) : Writes P (b.block label) := by
  cases b with
  | absolute t => exact .give .nil
  | relative d => exact .give .nil
  | now => exact .write (hP _ (by decide)) .nil

end Plain

/-- The text with which a time zone begins. -/
def Location.opening : Location → List Char
  | utc => "timezone.utc".toList
  | named _ => "timezone.location(name: ".toList
  | fixed _ => "timezone.fixed(offset: ".toList

/-- The text with which an argument begins, unless it is a value. -/
def Argument.openings : Argument → List (List Char)
  | value _ => []
  | location l => [l.opening]
  | name t => [t.toList]

/-- The name of an argument is plain, and what it begins with satisfies `P`. -/
def Argument.Admits (P : List Char → Prop) (a : String × Argument) : Prop :=
  PlainText a.1.toList ∧ ∀ t ∈ a.2.openings, P t

section Plain

variable {P : List Char → Prop} (hP : ∀ t, PlainText t → P t)

include hP

theorem Location.writes_block {l : Location} (hl : P l.opening) : Writes P l.block := by
  cases l with
  | utc => exact .require (.write hl .nil)
  | named name => exact .require (.write hl (.place (.write (hP _ (by decide)) .nil)))
  | fixed offset => exact .require (.write hl (.place (.write (hP _ (by decide)) .nil)))

namespace Argument

theorem writes_block {a : String × Argument} (ha : Admits P a) (function : String) :
    Writes P (a.2.block function a.1) := by
  obtain ⟨n, b⟩ := a
  obtain ⟨-, hopenings⟩ := ha
  cases b with
  | value v => exact .place .nil
  | location l => exact l.writes_block hP (hopenings _ (List.mem_singleton_self _))
  | name t => exact .write (hopenings _ (List.mem_singleton_self _)) .nil

theorem writes_blocks (function : String) {as : List (String × Argument)}
    (h : ∀ a ∈ as, Admits P a) : Writes P (blocks function as) := by
  induction as with
  | nil => exact .nil
  | cons a as ih =>
      obtain ⟨ha, has⟩ := List.forall_mem_cons.1 h
      have hlabel : P (a.1.toList ++ ": ".toList) := hP _ (ha.1.append (by decide))
      have hfirst := Writes.write hlabel (writes_block hP ha function)
      cases as with
      | nil => exact hfirst
      | cons a' as => exact hfirst.append (.write (hP _ (by decide)) (ih has))

end Argument

theorem writes_callBlock {function : String} (hf : PlainText function.toList)
    {as : List (String × Argument)} (h : ∀ a ∈ as, Argument.Admits P a) :
    Writes P (callBlock function as) := by
  have hopen : P (function.toList ++ ['(']) := hP _ (hf.append (by decide))
  exact (Writes.write hopen (Argument.writes_blocks hP function h)).append
    (.write (hP _ (by decide)) .nil)

end Plain

/-! ### Arguments of windows -/

section Arguments

variable {P : List Char → Prop}

theorem Argument.admits_value {n : String} (h : PlainText n.toList) (v : Value) :
    Admits P (n, .value v) := ⟨h, fun _ ht => by cases ht⟩

theorem Argument.admits_ofValue? {n : String} (h : PlainText n.toList) (v : Option Value) :
    ∀ a ∈ ofValue? n v, Admits P a := by
  intro a ha
  obtain ⟨w, -, rfl⟩ := List.mem_map.1 ha
  exact admits_value h w

theorem Argument.admits_ofLocation? {l : Option Location} (h : ∀ k ∈ l.toList, P k.opening) :
    ∀ a ∈ ofLocation? l, Admits P a := by
  intro a ha
  obtain ⟨k, hk, rfl⟩ := List.mem_map.1 ha
  have hname : PlainText "location".toList := by decide
  exact ⟨hname, List.forall_mem_singleton.2 (h k hk)⟩

theorem Window.admits_arguments (every : Duration) {w : Window}
    (h : ∀ l ∈ w.location.toList, P l.opening) : ∀ a ∈ w.arguments every, Argument.Admits P a := by
  have hempty : ∀ a ∈ if w.createEmpty then [("createEmpty", Argument.value (.boolean true))]
      else [], Argument.Admits P a := by
    split
    · exact List.forall_mem_singleton.2 (Argument.admits_value (by decide) _)
    · exact fun a ha => by cases ha
  have hevery : ∀ a ∈ [("every", Argument.value (.duration every))], Argument.Admits P a :=
    List.forall_mem_singleton.2 (Argument.admits_value (by decide) _)
  have hof : ∀ {name : String}, PlainText name.toList → ∀ v, ∀ a ∈ Argument.ofValue? name v,
      Argument.Admits P a := fun h v => Argument.admits_ofValue? h v
  simp only [arguments, Argument.ofDuration?, Argument.ofText?, List.forall_mem_append]
  exact ⟨⟨⟨⟨⟨⟨⟨hevery, hof (by decide) _⟩, hof (by decide) _⟩, Argument.admits_ofLocation? h⟩,
    hof (by decide) _⟩, hof (by decide) _⟩, hof (by decide) _⟩, hempty⟩

theorem AggregateWindow.admits_arguments (hP : ∀ t, PlainText t → P t) (function : Identifier)
    (every : Duration) {w : AggregateWindow} (h : ∀ l ∈ w.location.toList, P l.opening) :
    ∀ a ∈ w.arguments function every, Argument.Admits P a := by
  have hempty : ∀ a ∈ if w.createEmpty then []
      else [("createEmpty", Argument.value (.boolean false))], Argument.Admits P a := by
    split
    · exact fun a ha => by cases ha
    · exact List.forall_mem_singleton.2 (Argument.admits_value (by decide) _)
  have hfn : PlainText "fn".toList := by decide
  have hname : P function.name.toList := hP _ (plainText_of_isIdentifier function.isIdentifier_name)
  have hfirst : ∀ a ∈ [("every", Argument.value (.duration every)),
      ("fn", Argument.name function.name)], Argument.Admits P a := by
    refine List.forall_mem_cons.2 ⟨Argument.admits_value (by decide) _, ?_⟩
    exact List.forall_mem_singleton.2 ⟨hfn, List.forall_mem_singleton.2 hname⟩
  have hof : ∀ {name : String}, PlainText name.toList → ∀ v, ∀ a ∈ Argument.ofValue? name v,
      Argument.Admits P a := fun h v => Argument.admits_ofValue? h v
  simp only [arguments, Argument.ofDuration?, Argument.ofText?, List.forall_mem_append]
  exact ⟨⟨⟨⟨⟨⟨⟨hfirst, hof (by decide) _⟩, hof (by decide) _⟩, Argument.admits_ofLocation? h⟩,
    hof (by decide) _⟩, hof (by decide) _⟩, hof (by decide) _⟩, hempty⟩

end Arguments

/-! ### What stages write -/

namespace Stage

/-- The columns in a stage. -/
def columns : Stage → List Column
  | filter p => p.columns
  | _ => []

/-- The time zones in a stage. -/
def locations : Stage → List Location
  | window _ w => w.location.toList
  | aggregateWindow _ _ w => w.location.toList
  | _ => []

/-- The raw texts of the templates in a stage. -/
def rawTexts : Stage → List (List Char)
  | templateSource t => t.rawTexts
  | filter q => q.rawTexts
  | _ => []

/-- There is no script in a stage. -/
def Scriptless : Stage → Prop
  | scriptSource _ => False
  | filter p => p.Scriptless
  | _ => True

/-- Every text that a stage of a form writes satisfies `P`, and what it binds it writes. -/
def Form.Writes (P : List Char → Prop) : Form → Prop
  | source _ b => BoundQuery.Writes P b
  | piped b => BoundQuery.Writes P b
  | silent _ => True

theorem Form.Writes.overt {P : List Char → Prop} {f : Form} (h : f.Writes P) :
    BoundQuery.Overt f.block := by
  cases f with
  | source argument b => exact BoundQuery.Writes.overt h
  | piped b => exact BoundQuery.Writes.overt h
  | silent changes => exact fun _ _ hmem => by cases hmem

variable {P : List Char → Prop}

/-- **What a stage writes**: plain texts, the openings of its columns and its time zones and the raw
texts of its templates. -/
theorem writes_form_of_plainText (hP : ∀ t, PlainText t → P t) {stage : Stage}
    (h : stage.Scriptless) (hcolumns : ∀ c ∈ stage.columns, P c.opening)
    (hlocations : ∀ l ∈ stage.locations, P l.opening) (hraws : ∀ t ∈ stage.rawTexts, P t) :
    stage.form.Writes P := by
  have htext : ∀ {name : String}, PlainText name.toList → ∀ s : Option String,
      ∀ a ∈ Argument.ofText? name s, Argument.Admits P a := fun hname s =>
    Argument.admits_ofValue? hname _
  cases stage with
  | source bucket => exact .write (hP _ (by decide)) (.place (.write (hP _ (by decide)) .nil))
  | templateSource t => exact Template.writes_block hraws _
  | scriptSource s => exact h.elim
  | range start stop =>
      have hstop : BoundQuery.Writes P (stop.toList.flatMap fun b =>
          .write ", stop: ".toList :: b.block "range_stop") := by
        cases stop with
        | none => exact .nil
        | some b =>
            exact (BoundQuery.Writes.write (hP _ (by decide)) (b.writes_block hP _)).append .nil
      exact ((BoundQuery.Writes.write (hP _ (by decide)) (start.writes_block hP _)).append
        hstop).append (.write (hP _ (by decide)) .nil)
  | filter q =>
      exact (BoundQuery.Writes.write (hP _ (by decide))
        (Predicate.writes_plan hP h hcolumns hraws)).append (.write (hP _ (by decide)) .nil)
  | aggregate f column =>
      exact writes_callBlock hP (plainText_of_isIdentifier f.isIdentifier_name)
        (htext (by decide) column)
  | movingAverage n =>
      simp only [form, Form.Writes]
      split
      · exact .fail .nil
      · exact writes_callBlock hP (by decide)
          (List.forall_mem_singleton.2 (Argument.admits_value (by decide) _))
  | timedMovingAverage every period column =>
      refine writes_callBlock hP (by decide) (List.forall_mem_append.2 ⟨?_, htext (by decide) _⟩)
      exact List.forall_mem_cons.2 ⟨Argument.admits_value (by decide) _,
        List.forall_mem_singleton.2 (Argument.admits_value (by decide) _)⟩
  | window every w =>
      exact writes_callBlock hP (by decide) (Window.admits_arguments every hlocations)
  | aggregateWindow f every w =>
      exact writes_callBlock hP (by decide)
        (AggregateWindow.admits_arguments hP f every hlocations)
  | yield name => exact writes_callBlock hP (by decide) (htext (by decide) _)
  | configure changes => trivial

/-- The same of a property that all texts without a point have. -/
theorem writes_form (hP : ∀ t, '.' ∉ t → P t) {stage : Stage} (h : stage.Scriptless)
    (hcolumns : ∀ c ∈ stage.columns, P c.opening)
    (hlocations : ∀ l ∈ stage.locations, P l.opening) (hraws : ∀ t ∈ stage.rawTexts, P t) :
    stage.form.Writes P :=
  writes_form_of_plainText (fun t ht => hP t ht.1) h hcolumns hlocations hraws

/-- **Without scripts, a stage writes what it binds.** -/
theorem Scriptless.overt {stage : Stage} (h : stage.Scriptless) : stage.Overt := by
  have hwrites : stage.form.Writes fun _ => True :=
    writes_form (fun _ _ => trivial) h (fun _ _ => trivial) (fun _ _ => trivial)
      fun _ _ => trivial
  exact hwrites.overt

end Stage

/-! ### Pipelines -/

theorem fixed_mem_fill {p : Policy} {n : Nat} {ms : List Mark} {t : List Char}
    (h : .fixed t ∈ fill p n ms) : .fixed t ∈ ms := by
  induction ms generalizing n with
  | nil => cases h
  | cons m ms ih =>
      have hrest : ∀ {q : Piece} {k : Nat}, q ≠ .fixed t → .fixed t ∈ q :: fill p k ms →
          .fixed t ∈ m :: ms := by
        intro q k hq hmem
        rcases List.mem_cons.1 hmem with heq | hmem
        · exact absurd heq.symm hq
        · exact List.mem_cons_of_mem m (ih hmem)
      cases m with
      | fixed u =>
          rcases List.mem_cons.1 h with heq | h
          · cases heq
            exact List.mem_cons_self
          · exact List.mem_cons_of_mem _ (ih h)
      | slot label v =>
          rw [fill] at h
          split at h
          · exact hrest (by simp) h
          · exact hrest (by simp) h
      | kept label v =>
          rw [fill] at h
          split at h
          · exact List.mem_cons_of_mem _ (ih h)
          · exact List.mem_cons_of_mem _ (ih h)

theorem write_mem_of_fixed_mem {b : Block} {t : List Char}
    (h : .fixed t ∈ b.flatMap Action.marks) : .write t ∈ b := by
  obtain ⟨a, ha, hmark⟩ := List.mem_flatMap.1 h
  cases a with
  | write u =>
      cases List.mem_singleton.1 hmark
      exact ha
  | place label v => cases List.mem_singleton.1 hmark
  | give label g =>
      rw [Action.marks] at hmark
      split at hmark
      · cases List.mem_singleton.1 hmark
      · cases hmark
  | keep label g =>
      obtain ⟨v, heq, -⟩ := Action.exists_of_mem_marks_keep hmark
      cases heq
  | require q => cases hmark
  | fail e => cases hmark

namespace Session

/-- Every fixed text that is written satisfies `P`. -/
def Writes (P : List Char → Prop) (s : Session) : Prop := ∀ t, .fixed t ∈ s.output → P t

variable {P : List Char → Prop} {s s' : Session}

theorem Writes.after (h : s.Writes P) {b : Block} (hb : BoundQuery.Writes P b) :
    (s.after b).Writes P := by
  intro t ht
  rcases List.mem_append.1 ht with ht | ht
  · exact h t ht
  · exact hb.of_mem (write_mem_of_fixed_mem (fixed_mem_fill ht))

/-- A stage adds the texts that it writes; those before it have no point. -/
theorem Writes.of_adds (hP : ∀ t, '.' ∉ t → P t) (h : s.Writes P) {f : Stage.Form}
    (hf : f.Writes P) (hadds : s.Adds f s') : s'.Writes P := by
  have hpipe : P s.pipe := by
    unfold pipe
    split <;> exact hP _ (by decide)
  cases hadds with
  | source _ _ => exact h.after hf
  | piped _ => exact h.after (.write hpipe hf)
  | silent _ => exact h

/-- **What a pipeline has written**, if none of its stages fails. -/
theorem writes_of_foldlM (hP : ∀ t, '.' ∉ t → P t) {settings : Settings} {stages : List Stage}
    (hstages : ∀ stage ∈ stages, stage.form.Writes P)
    (hs : stages.foldlM add (.ofSettings settings) = .ok s) : s.Writes P := by
  have hboth : s.Sound ∧ s.Writes P := by
    refine invariant_foldlM (I := fun s => s.Sound ∧ s.Writes P) ?_
      ⟨.ofSettings settings, fun t ht => by cases ht⟩ hs
    rintro stage hmem s s' ⟨hsound, hwrites⟩ hadd
    exact ⟨hsound.add hadd,
      hwrites.of_adds hP (hstages stage hmem) (adds_of_addForm hsound.table.numbered hadd)⟩
  exact hboth.2

end Session

end BoundQuery
