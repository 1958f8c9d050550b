/-
**The policy does not change what is queried.**

A stage looks at what is written before it in two ways only: a source must come first, and a line
break stands before a pipe unless nothing is written yet.  Both ask whether the text is empty, and
neither a literal nor a reference is.  So stages act on drafts, and the sessions of a pipeline under
all policies are those of one draft: the same stages succeed with the same imports, and the texts
differ only in whether a value stands in the query or in the table.

Main definitions:

* `BoundQuery.Draft.add` — a draft with one more stage;
* `BoundQuery.Session.attempt` — stages one after the other, those that fail passed over;
* `BoundQuery.Stage.Overt` — a stage keeps no value that it does not write.

Main results:

* `BoundQuery.Value.literal_ne_nil` — no literal is empty;
* `BoundQuery.Draft.session_add` — the policy may be chosen before a stage or after it;
* `BoundQuery.Draft.session_attempt` — the same of a whole pipeline;
* `BoundQuery.Draft.Overt.attempt` — overt stages leave fixed texts and slots only;
* `BoundQuery.Session.attempt_policy_independent` — one draft for all policies.
-/

import BoundQuery.Proofs.Binding.Reference
import BoundQuery.Proofs.Number.ReadBack

set_option relaxedAutoImplicit false
set_option autoImplicit false

namespace BoundQuery

/-! ### Nothing that is placed is empty -/

theorem signed_ne_nil (n : Int) : signed n ≠ [] := by
  unfold signed
  split
  · simp
  · exact decimal_ne_nil _

theorem Duration.text_ne_nil (d : Duration) : d.text ≠ [] := by
  unfold text
  split
  · simp
  · next hz =>
      cases hcs : d.components with
      | nil =>
          have hzero : d.isZero = true := by
            rw [isZero_iff]
            intro u
            rw [components, List.filterMap_eq_nil_iff] at hcs
            have := hcs u (TimeUnit.mem_all u)
            split at this
            · next hu => exact hu
            · cases this
          exact absurd hzero hz
      | cons c cs =>
          rw [List.flatMap_cons, componentText]
          simp [decimal_ne_nil]

theorem floatLiteral_ne_nil (x : Double) : floatLiteral x ≠ [] := by
  cases x with
  | nan => simp [floatLiteral, conversionText]
  | infinite negative => cases negative <;> simp [floatLiteral, conversionText]
  | finite negative m =>
      obtain ⟨whole, fraction, htext, -⟩ := Layout.exists_magnitudeText_eq m
      cases negative with
      | true => simp [floatLiteral, Layout.text]
      | false => simp [floatLiteral, Layout.text, htext]

/-- No literal is empty. -/
theorem Value.literal_ne_nil (v : Value) : v.literal ≠ [] := by
  cases v with
  | boolean b => cases b <;> simp [literal]
  | integer n =>
      rw [literal, integerLiteral]
      split
      · simp [conversionText]
      · exact signed_ne_nil _
  | unsigned n => simp [literal, conversionText]
  | float x => exact floatLiteral_ne_nil x
  | text s => simp [literal, quotedText]
  | instant t => simp [literal, Instant.text]
  | duration d => exact d.text_ne_nil
  | pattern p => simp [literal, Pattern.literal]

theorem Piece.text_place_ne_nil (name : Option String) (v : Value) : (place name v).text ≠ [] := by
  cases name with
  | none => exact v.literal_ne_nil
  | some n => simp [text]

/-! ### Stages on drafts -/

/-- Whether a mark writes nothing. -/
def Mark.isEmpty : Mark → Bool
  | fixed t => t.isEmpty
  | slot _ _ => false
  | kept _ _ => true

/-- Whether marks write anything does not depend on the policy. -/
theorem piecesText_fill_isEmpty (p : Policy) (n : Nat) (ms : List Mark) :
    (piecesText (fill p n ms)).isEmpty = ms.all Mark.isEmpty := by
  induction ms generalizing n with
  | nil => rfl
  | cons m ms ih =>
      have hplace : ∀ name v ps, (piecesText (.place name v :: ps)).isEmpty = false := by
        intro name v ps
        simp [piecesText, List.isEmpty_eq_false_iff, Piece.text_place_ne_nil]
      cases m with
      | fixed t =>
          rw [List.all_cons, ← ih n]
          cases t with
          | nil => rfl
          | cons c t => rfl
      | slot label v =>
          rw [fill]
          split
          · exact hplace _ _ _
          · exact hplace _ _ _
      | kept label v =>
          rw [fill]
          split
          · exact ih (n + 1)
          · exact ih n

namespace Draft

/-- Whether nothing is written yet. -/
def isEmpty (d : Draft) : Bool := d.marks.all Mark.isEmpty

/-- What stands before a stage that follows. -/
def pipe (d : Draft) : List Char := if d.isEmpty then "  |> ".toList else "\n  |> ".toList

/-- A draft after changes of the settings none of which fails. -/
def changed (d : Draft) (changes : List Change) : Except Error Draft :=
  (changes.foldlM Settings.change (d.settings .none)).map fun s =>
    { d with now := s.now, imports := s.imports }

/-- A draft with a stage of the given form. -/
def addForm (d : Draft) : Stage.Form → Except Error Draft
  | .source argument b =>
      if d.isEmpty then d.complete b else .error (.argument argument .sourceNotFirst)
  | .piped b => d.complete (.write d.pipe :: b)
  | .silent changes => d.changed changes

/-- A draft with one more stage. -/
def add (d : Draft) (stage : Stage) : Except Error Draft := d.addForm stage.form

theorem session_isEmpty (d : Draft) (p : Policy) : (d.session p).isEmpty = d.isEmpty :=
  piecesText_fill_isEmpty p 0 d.marks

theorem session_pipe (d : Draft) (p : Policy) : (d.session p).pipe = d.pipe := by
  rw [Session.pipe, session_isEmpty, pipe]

end Draft

/-! ### Changes of the settings -/

/-- Steps that commute with a map commute with it one after the other. -/
theorem foldlM_map {ε σ τ α : Type} {f : σ → α → Except ε σ} {g : τ → α → Except ε τ} {h : τ → σ}
    (hstep : ∀ t a, f (h t) a = (g t a).map h) (as : List α) (t : τ) :
    as.foldlM f (h t) = (as.foldlM g t).map h := by
  induction as generalizing t with
  | nil => rfl
  | cons a as ih =>
      rw [List.foldlM_cons, List.foldlM_cons, hstep]
      cases g t a with
      | error e => rfl
      | ok t' => exact ih t'

/-- Steps that succeed one after the other begin with one that does. -/
theorem exists_of_foldlM_cons {ε σ α : Type} {f : σ → α → Except ε σ} {a : α} {as : List α}
    {s s' : σ} (h : (a :: as).foldlM f s = .ok s') :
    ∃ s₁, f s a = .ok s₁ ∧ as.foldlM f s₁ = .ok s' := by
  rw [List.foldlM_cons] at h
  cases ha : f s a with
  | error e =>
      rw [ha] at h
      cases h
  | ok s₁ =>
      rw [ha] at h
      exact ⟨s₁, rfl, h⟩

namespace Settings

/-- The settings under another policy. -/
def withPolicy (s : Settings) (p : Policy) : Settings := { s with policy := p }

theorem addImports_eq (s : Settings) (ps : List Package) :
    s.addImports ps = { s with imports := addPackages s.imports ps } := by
  unfold addImports addPackages
  induction ps generalizing s with
  | nil => rfl
  | cons p ps ih => rw [List.foldl_cons, List.foldl_cons, addImport_eq, ih]

/-- A change does not look at the policy. -/
theorem change_withPolicy (p : Policy) (s : Settings) (c : Change) :
    (s.withPolicy p).change c = (s.change c).map (·.withPolicy p) := by
  cases c with
  | fixNow t =>
      have hnow : (s.withPolicy p).now = s.now := rfl
      simp only [change, fixNow, hnow]
      split
      · rfl
      · cases t.checked with
        | error e => rfl
        | ok t => rfl
  | require path =>
      simp only [change]
      cases Package.ofPath path with
      | error e => rfl
      | ok q => simp [Except.map, addImport_eq, withPolicy]
  | requireAll paths =>
      simp only [change]
      cases paths.mapM Package.ofPath with
      | error e => rfl
      | ok ps => simp [Except.map, addImports_eq, withPolicy]

end Settings

namespace Draft

theorem session_changed (d : Draft) (p : Policy) (changes : List Change) :
    (d.session p).changed changes = (d.changed changes).map fun d => d.session p := by
  have hfold := foldlM_map (Settings.change_withPolicy p) changes (d.settings .none)
  have hstart : (d.session p).settings = (d.settings .none).withPolicy p := rfl
  unfold Session.changed changed
  rw [hstart, hfold]
  cases changes.foldlM Settings.change (d.settings .none) with
  | error e => rfl
  | ok s => rfl

/-! ### Pipelines -/

/-- **The policy may be chosen before a stage or after it.** -/
theorem session_add (d : Draft) (p : Policy) (stage : Stage) :
    (d.session p).add stage = (d.add stage).map fun d => d.session p := by
  unfold Session.add add
  cases stage.form with
  | source argument b =>
      simp only [Session.addForm, addForm, session_isEmpty]
      split
      · exact session_complete d p b
      · rfl
  | piped b =>
      simp only [Session.addForm, addForm, session_pipe]
      exact session_complete d p (.write d.pipe :: b)
  | silent changes => exact session_changed d p changes

end Draft

/-- A session after stages, and how each of them failed if it did.  A stage that fails is passed
over: whoever built the session still has the one from before it. -/
def Session.attempt (s : Session) : List Stage → Session × List (Option Error)
  | [] => (s, [])
  | stage :: stages =>
      match s.add stage with
      | .ok s' => ((s'.attempt stages).1, none :: (s'.attempt stages).2)
      | .error e => ((s.attempt stages).1, some e :: (s.attempt stages).2)

/-- A draft after stages, and how each of them failed if it did. -/
def Draft.attempt (d : Draft) : List Stage → Draft × List (Option Error)
  | [] => (d, [])
  | stage :: stages =>
      match d.add stage with
      | .ok d' => ((d'.attempt stages).1, none :: (d'.attempt stages).2)
      | .error e => ((d.attempt stages).1, some e :: (d.attempt stages).2)

/-- **The policy may be chosen before a pipeline is built or after it.** -/
theorem Draft.session_attempt (d : Draft) (p : Policy) (stages : List Stage) :
    (d.session p).attempt stages = ((d.attempt stages).1.session p, (d.attempt stages).2) := by
  -- a stage that fails does so under every policy, and leaves the same draft behind
  induction stages generalizing d with
  | nil => rfl
  | cons stage stages ih =>
      rw [Session.attempt, attempt, session_add]
      cases d.add stage with
      | error e => simp only [Except.map, ih]
      | ok d' => simp only [Except.map, ih]

/-! ### What stages keep without a slot -/

/-- The actions of a stage of a form. -/
def Stage.Form.block : Form → Block
  | source _ b => b
  | piped b => b
  | silent _ => []

/-- Nothing that a stage binds is kept without being written. -/
def Stage.Overt (stage : Stage) : Prop := BoundQuery.Overt stage.form.block

namespace Draft

/-- No value is kept without a slot. -/
def Overt (d : Draft) : Prop := ∀ label v, .kept label v ∉ d.marks

theorem Overt.complete {d d' : Draft} (h : d.Overt) {b : Block} (hb : BoundQuery.Overt b)
    (hd : d.complete b = .ok d') : d'.Overt := by
  intro label v hmem
  unfold Draft.complete at hd
  split at hd
  · cases hd
  · cases hd
    rcases List.mem_append.1 hmem with hmem | hmem
    · exact h label v hmem
    · exact hb.kept_notMem label v hmem

theorem Overt.addForm {d d' : Draft} (h : d.Overt) {f : Stage.Form}
    (hf : BoundQuery.Overt f.block) (hd : d.addForm f = .ok d') : d'.Overt := by
  cases f with
  | source argument b =>
      rw [Draft.addForm] at hd
      split at hd
      · exact h.complete hf hd
      · cases hd
  | piped b => exact h.complete (hf.write d.pipe) hd
  | silent changes =>
      obtain ⟨s, -, rfl⟩ := Template.exists_of_map_eq_ok hd
      exact h

/-- Stages that are overt leave fixed texts and slots only. -/
theorem Overt.attempt {d : Draft} (h : d.Overt) {stages : List Stage}
    (hstages : ∀ stage ∈ stages, stage.Overt) : (d.attempt stages).1.Overt := by
  induction stages generalizing d with
  | nil => exact h
  | cons stage stages ih =>
      obtain ⟨hstage, hstages⟩ := List.forall_mem_cons.1 hstages
      rw [Draft.attempt]
      cases hd : d.add stage with
      | error e => exact ih h hstages
      | ok d' => exact ih (h.addForm hstage hd) hstages

end Draft

/-- **The policy does not change what is queried.**  For stages in any order there is one list of
marks, fixed texts and slots with their values, such that under every policy the same stages
succeed, the others fail in the same way, the imports are the same, the text is the marks with the
slots filled as the policy asks, and the table is the values of the slots it binds.  With every
reference replaced by the literal of the value it leads to, the text is the same under every
policy.  Besides fixed texts and slots there are marks only for what a script keeps without writing
it; where there are no scripts, all stages are overt (`BoundQuery.Stage.Scriptless.overt`). -/
theorem Session.attempt_policy_independent (now : Option Instant) (imports : List Package)
    (stages : List Stage) :
    ∃ (marks : List Mark) (imported : List Package) (failures : List (Option Error)),
      ((∀ stage ∈ stages, stage.Overt) → ∀ label v, .kept label v ∉ marks) ∧
      ∀ p : Policy, ∃ s, (ofSettings ⟨p, now, imports⟩).attempt stages = (s, failures) ∧
        s.settings.imports = imported ∧ s.text = piecesText (fill p 0 marks) ∧
        s.table.entries = bound p 0 marks ∧
        s.output.flatMap (Piece.resolved s.table) = marks.flatMap Mark.literal := by
  let d : Draft := ⟨[], now, imports⟩
  have hempty : d.Overt := fun _ _ hmem => by cases hmem
  refine ⟨(d.attempt stages).1.marks, (d.attempt stages).1.imports, (d.attempt stages).2,
    fun hstages => hempty.attempt hstages,
    fun p => ⟨(d.attempt stages).1.session p, d.session_attempt p stages, rfl, rfl, rfl, ?_⟩⟩
  exact resolved_fill p (d.attempt stages).1.marks

end BoundQuery
